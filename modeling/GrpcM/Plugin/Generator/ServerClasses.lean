import GrpcM.Plugin.Generator.Linkage

/-!
The class templates on the server side of a service. Each of them takes one method out of
the synchronous API, marks it in the base class by its index, and is applied to `Service` by
typedefs.
-/

namespace GrpcM.Plugin

open GrpcM.Path GrpcM.Templates
open Var hiding filenameIdentifier

/-! ### Class templates -/

/-- The class templates of the header, one function of the generator each. -/
inductive Family where
  | async
  | callback
  | generic
  | raw
  | rawCallback
  | streamedUnary
  | splitStreaming
  deriving DecidableEq, Repr

namespace Family

/-- The word after `With` in the name of the class. -/
def word : Family → String
  | async => "Async"
  | callback => "Callback"
  | generic => "Generic"
  | raw => "Raw"
  | rawCallback => "RawCallback"
  | streamedUnary => "StreamedUnary"
  | splitStreaming => "SplitStreaming"

/-- The function of `::grpc::Service` that its constructor calls. -/
def marking : Family → String
  | async => "MarkMethodAsync"
  | callback => "MarkMethodCallback"
  | generic => "MarkMethodGeneric"
  | raw => "MarkMethodRaw"
  | rawCallback => "MarkMethodRawCallback"
  | streamedUnary => "MarkMethodStreamed"
  | splitStreaming => "MarkMethodStreamed"

def version : Family → String
  | streamedUnary => "regular"
  | splitStreaming => "regular"
  | _ => "synchronous"

def applies : Family → Method → Bool
  | streamedUnary, m => m.noStreaming
  | splitStreaming, m => m.serverOnlyStreaming
  | _, _ => true

def allowed : Family → Parameters → Bool
  | async, params => params.allowCqApi
  | raw, params => params.allowCqApi
  | streamedUnary, params => params.allowSyncServerApi
  | splitStreaming, params => params.allowSyncServerApi
  | _, _ => true

def program : Family → Method → Parameters → Program
  | async, m, params => printHeaderServerMethodAsync m params
  | callback, m, params => printHeaderServerMethodCallback m params
  | generic, m, params => printHeaderServerMethodGeneric m params
  | raw, m, params => printHeaderServerMethodRaw m params
  | rawCallback, m, params => printHeaderServerMethodRawCallback m params
  | streamedUnary, m, _ => printHeaderServerMethodStreamedUnary m
  | splitStreaming, m, _ => printHeaderServerMethodSplitStreaming m

def className (f : Family) (m : Method) : Text :=
  lit "With" ++ lit f.word ++ lit "Method_" ++ m.name

def classOpening (f : Family) (m : Method) : List Text :=
  [lit "template <class BaseClass>\n",
    lit "class " ++ f.className m ++ lit " : public BaseClass \x7b\n",
    lit " private:\n  void BaseClassMustBeDerivedFromService(const Service* " ++
      lit "/*service*/) \x7b\x7d\n",
    lit " public:\n"]

/-- Some mark a method with a handler for it. -/
def afterIndex : Family → Char
  | async => ')'
  | generic => ')'
  | raw => ')'
  | _ => ','

/-- The constructor up to the index it marks. -/
def constructorHead (f : Family) (m : Method) (i : ℕ) : Text :=
  f.className m ++ lit "() \x7b\n  ::grpc::Service::" ++ lit f.marking ++ '(' :: asString i ++
    [f.afterIndex]

end Family

section Methods

variable (packageName serviceName : Text) (outer : Option Text) (m : Method)
  (params : Parameters) (i d : ℕ)

theorem closed_family (f : Family) :
    Closed (methodEnv packageName outer serviceName i) (f.program m params) := by
  cases f with
  | async => exact closed_printHeaderServerMethodAsync m params
  | callback => exact closed_printHeaderServerMethodCallback m params
  | generic => exact closed_printHeaderServerMethodGeneric m params
  | raw => exact closed_printHeaderServerMethodRaw m params
  | rawCallback => exact closed_printHeaderServerMethodRawCallback m params
  | streamedUnary => exact closed_printHeaderServerMethodStreamedUnary m
  | splitStreaming => exact closed_printHeaderServerMethodSplitStreaming m

theorem prefix_texts {β : Env Var} {d : ℕ} {cmds a b : Program} {ws : List (Write Var)}
    {σ : State Var} (h : Closed β cmds) (hcmds : cmds = a ++ b)
    (hrun : run a ⟨β, d⟩ = some (ws, σ)) : ws.map Write.chars <+: texts β d cmds :=
  (prefix_written (h d) hcmds hrun).map _

set_option maxRecDepth 2000 in
attribute [local simp] lit Write.chars Span.chars Family.classOpening Family.constructorHead
  Family.className Family.word Family.marking Family.afterIndex in
/-- Every class template has its method in its name and marks the index of its method. -/
theorem opening_family (f : Family) (happlies : f.applies m = true) :
    ∃ constructor : List Text,
      f.classOpening m ++ constructor <+:
        texts (methodEnv packageName outer serviceName i) d (f.program m params) ∧
      f.constructorHead m i <+: constructor.flatten := by
  have hclosed : Closed (methodEnv packageName outer serviceName i) (f.program m params) :=
    closed_family packageName serviceName outer m params i f
  suffices hprefix : ∃ a b ws σ, f.program m params = a ++ b ∧
      run a ⟨methodEnv packageName outer serviceName i, d⟩ = some (ws, σ) ∧
      (ws.map Write.chars).take 4 = f.classOpening m ∧
      f.constructorHead m i <+: ((ws.map Write.chars).drop 4).flatten by
    obtain ⟨a, b, ws, σ, hcmds, hrun, hopening, hconstructor⟩ := hprefix
    refine ⟨(ws.map Write.chars).drop 4, ?_, hconstructor⟩
    rw [← hopening, List.take_append_drop]
    exact prefix_texts hclosed hcmds hrun
  cases f with
  | async =>
    refine ⟨_, _, _, _, List.append_assoc .., rfl, ?_, ?_⟩ <;>
      simp [-String.reduceToList, toList_literal]
  | generic =>
    refine ⟨_, _, _, _, List.append_assoc .., rfl, ?_, ?_⟩ <;>
      simp [-String.reduceToList, toList_literal]
  | raw =>
    refine ⟨_, _, _, _, List.append_assoc .., rfl, ?_, ?_⟩ <;>
      simp [-String.reduceToList, toList_literal]
  | callback =>
    obtain ⟨name, input, output, client, server, location⟩ := m
    cases client <;> cases server <;>
      refine ⟨_, _, _, _, (List.append_assoc ..).trans (List.append_assoc ..), rfl, ?_, ?_⟩ <;>
      simp [-String.reduceToList, toList_literal]
  | rawCallback =>
    obtain ⟨name, input, output, client, server, location⟩ := m
    cases client <;> cases server <;>
      refine ⟨_, _, _, _, (List.append_assoc ..).trans (List.append_assoc ..), rfl, ?_, ?_⟩ <;>
      simp [-String.reduceToList, toList_literal]
  | streamedUnary =>
    obtain ⟨name, input, output, client, server, location⟩ := m
    cases client <;> cases server <;> cases happlies
    refine ⟨_, _, _, _, (List.append_nil _).symm, rfl, ?_, ?_⟩ <;>
      simp [-String.reduceToList, toList_literal]
  | splitStreaming =>
    obtain ⟨name, input, output, client, server, location⟩ := m
    cases client <;> cases server <;> cases happlies
    refine ⟨_, _, _, _, (List.append_nil _).symm, rfl, ?_, ?_⟩ <;>
      simp [-String.reduceToList, toList_literal]

/-- The class ends where the template does. -/
theorem ending_family (f : Family) (happlies : f.applies m = true) :
    ((texts (methodEnv packageName outer serviceName i) d (f.program m params)).drop 4).getLast? =
        some (lit "\x7d;\n") ∧
      ((texts (methodEnv packageName outer serviceName i) d
        (f.program m params)).drop 4).dropLast.all
          (fun t => tight t != tight (lit "\x7d;\n")) = true := by
  obtain ⟨name, input, output, client, server, location⟩ := m
  obtain ⟨_, _, _, _, _, _, _, _, sync, cq, _⟩ := params
  cases f <;> cases client <;> cases server <;> cases happlies <;> cases sync <;>
    refine texts_pred (P := fun ts => (ts.drop 4).getLast? = some _ ∧
      ((ts.drop 4).dropLast.all fun t => tight t != _) = true) rfl ?_ <;>
    simp only [lit, toList_literal] <;>
    exact ⟨rfl, rfl⟩

theorem texts_family (f : Family) (happlies : f.applies m = true) :
    ∃ body : List Text,
      texts (methodEnv packageName outer serviceName i) d (f.program m params) =
        f.classOpening m ++ body ∧
      body.getLast? = some (lit "\x7d;\n") ∧
      (∀ t ∈ body.dropLast, tight t ≠ tight (lit "\x7d;\n")) ∧
      f.constructorHead m i <+: body.flatten := by
  obtain ⟨constructor, ⟨rest, hopening⟩, hconstructor⟩ :=
    opening_family packageName serviceName outer m params i d f happlies
  obtain ⟨hlast, hall⟩ := ending_family packageName serviceName outer m params i d f happlies
  rw [List.append_assoc] at hopening
  have hbody : (texts (methodEnv packageName outer serviceName i) d (f.program m params)).drop 4 =
      constructor ++ rest := by
    rw [← hopening]
    rfl
  rw [hbody] at hlast hall
  refine ⟨constructor ++ rest, hopening.symm, hlast,
    fun t ht => by simpa using List.all_eq_true.mp hall t ht, ?_⟩
  rw [List.flatten_append]
  exact hconstructor.trans (List.prefix_append _ _)

end Methods

/-! ### Typedefs -/

/-- `w₁<w₂<inner > >` for the wrappers `w₁` and `w₂`. -/
def wrap (wrappers : List Text) (inner : Text) : Text :=
  wrappers.foldr (fun w t => w ++ '<' :: t ++ [' ', '>']) inner

theorem flatten_closings (wrappers : List Text) :
    (wrappers.map fun _ => [' ', '>']).flatten ++ [' ', '>'] =
      [' ', '>'] ++ (wrappers.map fun _ => [' ', '>']).flatten := by
  induction wrappers with
  | nil => rfl
  | cons w wrappers ih => rw [List.map_cons, List.flatten_cons, List.append_assoc, ih]

/-- As many brackets are closed as are opened. -/
theorem wrap_eq (wrappers : List Text) (inner : Text) : wrap wrappers inner =
    (wrappers.map (· ++ ['<'])).flatten ++ inner ++ (wrappers.map fun _ => [' ', '>']).flatten := by
  induction wrappers with
  | nil => simp [wrap]
  | cons w wrappers ih =>
      have hcons : wrap (w :: wrappers) inner = w ++ '<' :: wrap wrappers inner ++ [' ', '>'] := rfl
      rw [hcons, ih, List.map_cons, List.flatten_cons, List.map_cons, List.flatten_cons,
        ← flatten_closings]
      simp only [List.append_assoc, List.cons_append, List.nil_append]

/-- The names for `Service` with class templates applied to it, at most one for each
method. -/
inductive Typedef where
  | async
  | callback
  | streamedUnary
  | splitStreaming
  | streamed
  deriving DecidableEq, Repr

namespace Typedef

def name : Typedef → String
  | async => "AsyncService"
  | callback => "CallbackService"
  | streamedUnary => "StreamedUnaryService"
  | splitStreaming => "SplitStreamedService"
  | streamed => "StreamedService"

def family : Typedef → Method → Option Family
  | async, _ => some .async
  | callback, _ => some .callback
  | streamedUnary, m => if m.noStreaming then some .streamedUnary else none
  | splitStreaming, m => if m.serverOnlyStreaming then some .splitStreaming else none
  | streamed, m =>
      if m.serverOnlyStreaming then some .splitStreaming
      else if m.noStreaming then some .streamedUnary else none

def all (params : Parameters) : List Typedef :=
  (if params.allowCqApi then [async] else []) ++ callback ::
    if params.allowSyncServerApi then [streamedUnary, splitStreaming, streamed] else []

def wrappers (t : Typedef) (s : Service) : List Text :=
  s.methods.filterMap fun m => (t.family m).map fun f => f.className m

def text (t : Typedef) (s : Service) : Text :=
  lit "typedef " ++ wrap (t.wrappers s) (lit "Service") ++ lit " " ++ lit t.name ++ lit ";\n"

/-- The generator opens the brackets in one loop, without the name it has set already. -/
def opens : Typedef → Method → Program
  | async, _ => [.print ["WithAsyncMethod_", methodName, "<"]]
  | callback, _ => [.print ["WithCallbackMethod_", methodName, "<"]]
  | streamedUnary, m => when m.noStreaming [.print ["WithStreamedUnaryMethod_", methodName, "<"]]
  | splitStreaming, m =>
      when m.serverOnlyStreaming [.print ["WithSplitStreamingMethod_", methodName, "<"]]
  | streamed, m =>
      when m.serverOnlyStreaming [.print ["WithSplitStreamingMethod_", methodName, "<"]] ++
        when m.noStreaming [.print ["WithStreamedUnaryMethod_", methodName, "<"]]

/-- And closes them in another one. -/
def closes : Typedef → Method → Program
  | async, _ => [.print [" >"]]
  | callback, _ => [.print [" >"]]
  | streamedUnary, m => when m.noStreaming [.print [" >"]]
  | splitStreaming, m => when m.serverOnlyStreaming [.print [" >"]]
  | streamed, m => when (m.noStreaming || m.serverOnlyStreaming) [.print [" >"]]

def ending : Typedef → String
  | async => " AsyncService;\n"
  | callback => " CallbackService;\n"
  | streamedUnary => " StreamedUnaryService;\n"
  | splitStreaming => " SplitStreamedService;\n"
  | streamed => " StreamedService;\n"

def program (t : Typedef) (s : Service) : Program :=
  [.print ["typedef "]] ++ (forMethods s fun _ m => .set methodName m.name :: t.opens m) ++
    [.print ["Service"]] ++ (forMethods s fun _ m => t.closes m) ++ [.print [t.ending]]

end Typedef

def joined (β : Env Var) (d : ℕ) (program : Program) : Text := (texts β d program).flatten

theorem joined_append {β : Env Var} {a b : Program} (ha : Closed β a) (hb : Closed β b) (d : ℕ) :
    joined β d (a ++ b) = joined β d a ++ joined β d b := by
  rw [joined, texts_append ha hb, List.flatten_append]
  rfl

theorem joined_print (β : Env Var) (d : ℕ) (t : String) : joined β d [.print [t]] = lit t := by
  rw [joined, texts_print, List.flatten_singleton]

section Typedefs

variable (packageName serviceName : Text) (outer : Option Text) (s : Service) (params : Parameters)

attribute [local simp] lit Write.chars Span.chars Family.className Family.word Typedef.family in
theorem texts_opens (t : Typedef) (m : Method) (d : ℕ) :
    Closed (serviceEnv packageName outer serviceName) (.set methodName m.name :: t.opens m) ∧
    texts (serviceEnv packageName outer serviceName) d (.set methodName m.name :: t.opens m) =
      ((t.family m).map fun f => f.className m ++ ['<']).toList := by
  obtain ⟨name, input, output, client, server, location⟩ := m
  refine ⟨?_, ?_⟩
  · cases t <;> cases client <;> cases server <;> exact .of_run (fun _ => ⟨_, _, rfl⟩) rfl
  · cases t <;> cases client <;> cases server <;> refine (texts_of_run rfl).trans ?_ <;>
      simp [-String.reduceToList, toList_literal, Method.noStreaming, Method.serverOnlyStreaming]

theorem texts_closes (t : Typedef) (m : Method) (d : ℕ) :
    Closed (serviceEnv packageName outer serviceName) (t.closes m) ∧
    texts (serviceEnv packageName outer serviceName) d (t.closes m) =
      ((t.family m).map fun _ => [' ', '>']).toList := by
  obtain ⟨name, input, output, client, server, location⟩ := m
  refine ⟨?_, ?_⟩
  · cases t <;> cases client <;> cases server <;> exact .of_run (fun _ => ⟨_, _, rfl⟩) rfl
  · cases t <;> cases client <;> cases server <;> exact (texts_of_run rfl).trans rfl

/-- A typedef applies its class templates from the first method to the last. -/
theorem joined_typedef (t : Typedef) (d : ℕ) :
    Closed (serviceEnv packageName outer serviceName) (t.program s) ∧
    joined (serviceEnv packageName outer serviceName) d (t.program s) = t.text s := by
  have hopens (m : Method) := texts_opens packageName serviceName outer t m d
  have hcloses (m : Method) := texts_closes packageName serviceName outer t m d
  have hopening := closed_forMethods (s := s) fun _ m _ => (hopens m).1
  have hclosing := closed_forMethods (s := s) fun _ m _ => (hcloses m).1
  have hloop {body : Method → Program} {found : Family → Method → Text}
      (hbody : ∀ m, Closed (serviceEnv packageName outer serviceName) (body m) ∧
        texts (serviceEnv packageName outer serviceName) d (body m) =
          ((t.family m).map fun f => found f m).toList) :
      joined (serviceEnv packageName outer serviceName) d (forMethods s fun _ m => body m) =
        (s.methods.filterMap fun m => (t.family m).map fun f => found f m).flatten := by
    rw [joined, texts_forMethods fun m => (hbody m).1, List.filterMap_eq_flatMap_toList]
    exact congrArg List.flatten (List.flatMap_congr fun m _ => (hbody m).2)
  have hprint (text : String) := closed_print (serviceEnv packageName outer serviceName) text
  have hending : lit t.ending = lit " " ++ lit t.name ++ lit ";\n" := by
    cases t <;> rfl
  have h₁ := (hprint "typedef ").append hopening
  have h₂ := h₁.append (hprint "Service")
  have h₃ := h₂.append hclosing
  refine ⟨h₃.append (hprint t.ending), ?_⟩
  rw [Typedef.program, joined_append h₃ (hprint _), joined_append h₂ hclosing,
    joined_append h₁ (hprint _), joined_append (hprint _) hopening, hloop hopens, hloop hcloses,
    joined_print, joined_print, joined_print, hending, Typedef.text, wrap_eq, Typedef.wrappers,
    List.map_filterMap, List.map_filterMap]
  simp only [Option.map_map, Function.comp_def, List.append_assoc]

def familyLoop (f : Family) : Program :=
  forMethods s fun i m => .set idx (asString i) :: f.program m params

theorem closed_familyLoop (f : Family) :
    Closed (serviceEnv packageName outer serviceName) (familyLoop s params f) :=
  closed_forMethods fun i m _ =>
    .set rfl (closed_family packageName serviceName outer m params i f)

/-- The part of a service that holds a typedef, piece by piece. -/
def pieces : Typedef → List Program
  | .async => [familyLoop s params .async, Typedef.program .async s]
  | .callback => [familyLoop s params .callback, Typedef.program .callback s,
      [.print ["typedef CallbackService ExperimentalCallbackService;\n"]]]
  | _ => [familyLoop s params .streamedUnary, Typedef.program .streamedUnary s,
      familyLoop s params .splitStreaming, Typedef.program .splitStreaming s,
      Typedef.program .streamed s]

theorem pieces_mem_headerParts {t : Typedef} (ht : t ∈ Typedef.all params) :
    (pieces s params t).flatMap id ∈ headerParts s params := by
  have hasync : headerServerAsync s params = (pieces s params .async).flatMap id := by
    simp only [pieces, familyLoop, headerServerAsync, Typedef.program, Typedef.opens,
      Typedef.closes, Typedef.ending, Family.program, List.flatMap_cons, List.flatMap_nil, id_eq,
      List.append_assoc, List.append_nil]
  have hcallback : headerServerCallback s params = (pieces s params .callback).flatMap id := by
    simp only [pieces, familyLoop, headerServerCallback, Typedef.program, Typedef.opens,
      Typedef.closes, Typedef.ending, Family.program, List.flatMap_cons, List.flatMap_nil, id_eq,
      List.append_assoc, List.append_nil, List.cons_append, List.nil_append]
  have hstreamed : headerServerStreamed s = (pieces s params .streamed).flatMap id := by
    simp only [pieces, familyLoop, headerServerStreamed, Typedef.program, Typedef.opens,
      Typedef.closes, Typedef.ending, Family.program, List.flatMap_cons, List.flatMap_nil, id_eq,
      List.append_assoc, List.append_nil, List.cons_append, List.nil_append]
  have hsync (h : params.allowSyncServerApi = true) :
      (pieces s params .streamed).flatMap id ∈ headerParts s params := by
    rw [← hstreamed, headerParts, h]
    simp [when]
  cases t with
  | async =>
      have hcq : params.allowCqApi = true := by simpa [Typedef.all] using ht
      rw [← hasync, headerParts, hcq]
      simp [when]
  | callback =>
      rw [← hcallback]
      simp [headerParts]
  | streamedUnary => exact hsync (by simpa [Typedef.all] using ht)
  | splitStreaming => exact hsync (by simpa [Typedef.all] using ht)
  | streamed => exact hsync (by simpa [Typedef.all] using ht)

theorem closed_pieces (t : Typedef) :
    ∀ piece ∈ pieces s params t, Closed (serviceEnv packageName outer serviceName) piece := by
  have htypedef (t : Typedef) := (joined_typedef packageName serviceName outer s t 0).1
  have hfamily := closed_familyLoop packageName serviceName outer s params
  have hprint := closed_print (serviceEnv packageName outer serviceName)
    "typedef CallbackService ExperimentalCallbackService;\n"
  cases t <;> simp [-String.reduceToList, pieces, htypedef, hfamily, hprint]

theorem texts_pieces (t : Typedef) {piece : Program} (hpiece : piece ∈ pieces s params t) (d : ℕ) :
    texts (serviceEnv packageName outer serviceName) d piece <:+:
      texts (serviceEnv packageName outer serviceName) d ((pieces s params t).flatMap id) := by
  rw [texts_flatMap (f := id) (closed_pieces packageName serviceName outer s params t)]
  exact infix_flatMap _ hpiece

theorem program_mem_pieces (t : Typedef) : t.program s ∈ pieces s params t := by
  cases t <;> simp [pieces]

theorem familyLoop_mem_pieces {t : Typedef} {m : Method} {f : Family} (hf : t.family m = some f) :
    familyLoop s params f ∈ pieces s params t ∧ f.applies m = true := by
  cases t with
  | async =>
      cases hf
      simp [pieces, Family.applies]
  | callback =>
      cases hf
      simp [pieces, Family.applies]
  | streamedUnary =>
      obtain ⟨hm, rfl⟩ : m.noStreaming = true ∧ Family.streamedUnary = f := by
        simpa [Typedef.family] using hf
      simp [pieces, Family.applies, hm]
  | splitStreaming =>
      obtain ⟨hm, rfl⟩ : m.serverOnlyStreaming = true ∧ Family.splitStreaming = f := by
        simpa [Typedef.family] using hf
      simp [pieces, Family.applies, hm]
  | streamed =>
      rw [Typedef.family] at hf
      split at hf
      case isTrue hm =>
          cases hf
          simp [pieces, Family.applies, hm]
      case isFalse =>
          obtain ⟨hm, rfl⟩ : m.noStreaming = true ∧ Family.streamedUnary = f := by
            simpa using hf
          simp [pieces, Family.applies, hm]

end Typedefs

/-! ### In the header of a file -/

section Header

variable (file : File) (params : Parameters) {s : Service}

/-- A header that holds the class template of a method, from its first line to its last, which
marks the index `i`. -/
def Declares (header : List Text) (f : Family) (m : Method) (i : ℕ) : Prop :=
  ∃ body : List Text,
    (f.classOpening m ++ body).map tight <:+: header ∧
      body.getLast? = some (lit "\x7d;\n") ∧
      (∀ t ∈ body.dropLast, tight t ≠ tight (lit "\x7d;\n")) ∧
      tight (f.constructorHead m i) <+: (body.map tight).flatten

theorem infix_flatten {as bs : List Text} (h : as <:+: bs) : as.flatten <:+: bs.flatten := by
  obtain ⟨before, after, rfl⟩ := h
  exact ⟨before.flatten, after.flatten, by simp⟩

theorem tight_flatten (ts : List Text) : tight ts.flatten = (ts.map tight).flatten :=
  List.filter_flatten

theorem infix_round {β : Env Var} {d : ℕ} {body : ℕ → Method → Program} {found : List Text}
    (hidx : β idx = none)
    (hclosed : ∀ i m, Closed (Function.update β idx (some (asString i))) (body i m))
    (hloop : (texts β d (forMethods s fun i m => .set idx (asString i) :: body i m)).map tight <:+:
      found) {m : Method} {i : ℕ} (hm : s.methods[i]? = some m) :
    (texts (Function.update β idx (some (asString i))) d (body i m)).map tight <:+: found := by
  rw [texts_forMethods_idx hidx hclosed] at hloop
  have hmem : (m, i) ∈ s.methods.zipIdx := List.mem_zipIdx_iff_getElem?.mpr hm
  have hround := infix_flatMap (fun p : Method × ℕ =>
    texts (Function.update β idx (some (asString p.2))) d (body p.2 p.1)) hmem
  exact (hround.map tight).trans hloop

theorem declares_of_loop (packageName serviceName : Text) (outer : Option Text) (d : ℕ)
    {header : List Text} {f : Family}
    (hloop : (texts (serviceEnv packageName outer serviceName) d (familyLoop s params f)).map
      tight <:+: header) {m : Method} {i : ℕ}
    (hm : s.methods[i]? = some m) (happlies : f.applies m = true) : Declares header f m i := by
  have hround := infix_round rfl
    (fun i m => closed_family packageName serviceName outer m params i f) hloop hm
  obtain ⟨body, hclass, hlast, hbody, hconstructor⟩ :=
    texts_family packageName serviceName outer m params i d f happlies
  refine ⟨body, hclass ▸ hround, hlast, hbody, ?_⟩
  rw [← tight_flatten]
  obtain ⟨rest, hrest⟩ := hconstructor
  exact ⟨tight rest, by rw [← tight_append, hrest]⟩

theorem infix_piece (hs : s ∈ file.content.services) {t : Typedef} (ht : t ∈ Typedef.all params)
    {piece : Program} (hmem : piece ∈ pieces s params t) :
    (texts (serviceEnv (qualifier file) (namespaceOf params) s.name) 1 piece).map tight <:+:
      textsOf (getHeaderServices file params) := by
  have hpart := infix_headerPart hs (pieces_mem_headerParts s params ht)
  exact ((texts_pieces _ s.name _ s params t hmem 1).map tight).trans hpart

/-- In the header of every file, for each service: what a typedef is short for is `Service`
with class templates applied to it, from the first method to the last; each of them stands in
the header for its method and marks the index that its method has. -/
theorem typedefs_apply_declared (hs : s ∈ file.content.services) {t : Typedef}
    (ht : t ∈ Typedef.all params) :
    tight (t.text s) <:+: (textsOf (getHeaderServices file params)).flatten ∧
      ∀ i m f, s.methods[i]? = some m → t.family m = some f →
        Declares (textsOf (getHeaderServices file params)) f m i := by
  constructor
  · have htypedef := infix_flatten (infix_piece file params hs ht (program_mem_pieces s params t))
    rw [← tight_flatten, ← joined, (joined_typedef _ s.name _ s t 1).2] at htypedef
    exact htypedef
  · intro i m f hm hf
    obtain ⟨hmem, happlies⟩ := familyLoop_mem_pieces s params hf
    exact declares_of_loop params _ s.name _ 1 (infix_piece file params hs ht hmem) hm happlies

theorem typedefs_apply_declared_orders :
    tight (lit ("typedef WithStreamedUnaryMethod_Place<WithSplitStreamingMethod_Watch<" ++
        "Service > > StreamedService;\n")) <:+: (textsOf (getHeaderServices ordersFile {})).flatten ∧
      Declares (textsOf (getHeaderServices ordersFile {})) .splitStreaming watch 1 := by
  have h := typedefs_apply_declared ordersFile {} (s := orders)
    (List.mem_cons_of_mem _ List.mem_cons_self) (t := .streamed) (by decide)
  exact ⟨h.1, h.2 1 _ _ rfl rfl⟩

end Header

end GrpcM.Plugin
