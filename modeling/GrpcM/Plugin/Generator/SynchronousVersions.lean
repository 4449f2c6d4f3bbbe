import GrpcM.Plugin.Generator.ServerClasses
import GrpcM.Plugin.Generator.SourceText

/-!
The synchronous version of a method, which its handler calls: the base class declares it, the
source file defines it, and the class templates replace it, all with one signature.
-/

namespace GrpcM.Plugin

open GrpcM.Path GrpcM.Templates
open Var hiding filenameIdentifier

def Signature.disabled (version : String) (sig : Signature) : Text :=
  lit "// disable " ++ lit version ++ lit " version of this method\n" ++ sig.result ++
    ' ' :: sig.name ++
    '(' :: commas (sig.arguments.map fun a => a.type ++ lit " /*" ++ a.name ++ lit "*/") ++
    lit (") override \x7b\n  abort();\n" ++
      "  return ::grpc::Status(::grpc::StatusCode::UNIMPLEMENTED, \"\");\n\x7d\n")

/-! ### Which texts declare a function -/

def withoutComment (t : Text) : Text :=
  if (lit "//").isPrefixOf t then (t.dropWhile (· != '\n')).drop 1 else t

def withoutVirtual (t : Text) : Text := if (lit "virtual").isPrefixOf t then t.drop 7 else t

/-- What a declaration starts with after its comment and after `virtual`. -/
def declared (t : Text) : Text := withoutVirtual (withoutComment t)

def Signature.head (sig : Signature) : Text := sig.result ++ ' ' :: sig.name ++ ['(']

/-- Whether a text without blanks declares or defines a function with this result and name. -/
def Signature.declaredBy (sig : Signature) (t : Text) : Bool :=
  (tight sig.head).isPrefixOf (declared t)

section Declared

variable (m : Method)

theorem tight_head :
    tight (serverFunction m).head = lit "::grpc::Status" ++ (tight m.name ++ ['(']) := by
  simp only [Signature.head, serverFunction, tight_append]
  rw [← List.append_assoc]
  rfl

theorem not_declaredBy_of_result {t : Text}
    (h : (lit "::grpc::Status").isPrefixOf (declared t) = false) :
    (serverFunction m).declaredBy t = false := by
  refine Bool.eq_false_iff.mpr fun hprefix => Bool.eq_false_iff.mp h ?_
  rw [Signature.declaredBy, tight_head, List.isPrefixOf_iff_prefix] at hprefix
  exact List.isPrefixOf_iff_prefix.mpr ((List.prefix_append _ _).trans hprefix)

/-- A word before a name makes it another name, even when the name starts with that word. -/
theorem not_prefix_word {c : Char} {word name rest : Text} (hword : word ≠ []) (hc : c ∉ word) :
    ¬name ++ [c] <+: word ++ (name ++ rest) := by
  induction hlength : name.length using Nat.strong_induction_on generalizing name with
  | _ n ih =>
  intro hprefix
  by_cases hshort : name.length < word.length
  · have hinit : name ++ [c] <+: word :=
      List.prefix_of_prefix_length_le hprefix (List.prefix_append _ _)
        (by rw [List.length_append, List.length_singleton]; exact hshort)
    exact hc (hinit.subset (by simp))
  · have hstart : word <+: name :=
      List.prefix_of_prefix_length_le (List.prefix_append _ _)
        ((List.prefix_append _ _).trans hprefix) (by omega)
    obtain ⟨name', rfl⟩ := hstart
    have hpos : 0 < word.length := List.length_pos_iff.mpr hword
    rw [List.length_append] at hlength
    rw [List.append_assoc, List.append_assoc, List.prefix_append_right_inj] at hprefix
    exact ih name'.length (by omega) rfl hprefix

theorem not_declaredBy_streamed {t rest : Text}
    (h : declared t = lit "::grpc::StatusStreamed" ++ tight (m.name ++ rest)) :
    (serverFunction m).declaredBy t = false := by
  refine Bool.eq_false_iff.mpr fun hprefix => ?_
  have hsplit : lit "::grpc::StatusStreamed" = lit "::grpc::Status" ++ lit "Streamed" := rfl
  rw [Signature.declaredBy, tight_head, List.isPrefixOf_iff_prefix, h, hsplit, tight_append,
    List.append_assoc, List.prefix_append_right_inj] at hprefix
  exact not_prefix_word (by decide) (by decide) hprefix

theorem declaredBy_disabled (f : Family) :
    (serverFunction m).declaredBy (tight ((serverFunction m).disabled f.version)) = true := by
  have hdeclared : ∃ arguments rest : Text,
      declared (tight ((serverFunction m).disabled f.version)) =
        lit "::grpc::Status" ++ tight (m.name ++ '(' :: arguments ++ rest) := by
    cases f <;> exact ⟨_, _, rfl⟩
  obtain ⟨arguments, rest, hdeclared⟩ := hdeclared
  rw [Signature.declaredBy, hdeclared, tight_head, List.isPrefixOf_iff_prefix,
    List.prefix_append_right_inj, tight_append, tight_append, List.append_assoc,
    List.prefix_append_right_inj]
  exact ⟨tight arguments ++ tight rest, rfl⟩

end Declared

/-! ### The class templates -/

section Families

variable (packageName serviceName : Text) (outer : Option Text) (m : Method)
  (params : Parameters) (i d : ℕ)

def disabledPlace : Family → Method → ℕ
  | .callback, m => if m.noStreaming then 9 else 8
  | .rawCallback, _ => 8
  | _, _ => 6

set_option maxRecDepth 2000 in
attribute [local simp] lit tight Write.chars Span.chars commas Method.noStreaming
  Method.clientOnlyStreaming Method.serverOnlyStreaming Method.bidiStreaming
  Signature.disabled requestPointer responsePointer serverContextArgument serverArguments
  serverFunction in
theorem texts_disabledMethod (version : String) :
    (texts (synchronousEnv packageName serviceName outer m) d (disabledMethod version m)).map
      tight = [tight ((serverFunction m).disabled version)] := by
  obtain ⟨name, input, output, client, server, location⟩ := m
  cases client <;> cases server <;>
    refine (congrArg (List.map tight) (texts_of_run rfl)).trans ?_ <;>
    simp [-String.reduceToList, toList_literal]

theorem family_disabled (f : Family) (hsync : params.allowSyncServerApi = true)
    (happlies : f.applies m = true) :
    ((texts (methodEnv packageName outer serviceName i) d
      (f.program m params))[disabledPlace f m]?).map tight =
        some (tight ((serverFunction m).disabled f.version)) := by
  have htext := texts_disabledMethod packageName serviceName outer m (d + 1) f.version
  obtain ⟨name, input, output, client, server, location⟩ := m
  obtain ⟨_, _, _, _, _, _, _, _, sync, cq, _⟩ := params
  cases hsync
  cases f <;> cases client <;> cases server <;> cases happlies <;>
    refine texts_pred (P := fun ts => (ts[disabledPlace _ _]?).map tight = some _) rfl ?_ <;>
    exact congrArg some (List.cons.inj htext).1

/-- A text that gives back something else than a status, or streams it. -/
def Unrelated (t : Text) : Prop :=
  (lit "::grpc::Status").isPrefixOf (declared (tight t)) = false ∨
    ∃ rest, declared (tight t) = lit "::grpc::StatusStreamed" ++ tight (m.name ++ rest)

theorem not_declaredBy {t : Text} (h : Unrelated m t) :
    (serverFunction m).declaredBy (tight t) = false := by
  rcases h with hresult | ⟨rest, hstreamed⟩
  · exact not_declaredBy_of_result m hresult
  · exact not_declaredBy_streamed m hstreamed

theorem unrelated_of_all {ts : List Text}
    (h : (ts.all fun t => !(lit "::grpc::Status").isPrefixOf (declared (tight t))) = true) :
    ∀ t ∈ ts, Unrelated m t :=
  fun t ht => .inl (by simpa using List.all_eq_true.mp h t ht)

/-- No other text of a class template declares the method; a streamed version stands right after
the one that aborts. -/
theorem family_others (f : Family) (hsync : params.allowSyncServerApi = true)
    (happlies : f.applies m = true) :
    (∀ t ∈ (texts (methodEnv packageName outer serviceName i) d (f.program m params)).take
        (disabledPlace f m), Unrelated m t) ∧
      ∀ t ∈ (texts (methodEnv packageName outer serviceName i) d (f.program m params)).drop
        (disabledPlace f m + 1), Unrelated m t := by
  obtain ⟨name, input, output, client, server, location⟩ := m
  obtain ⟨_, _, _, _, _, _, _, _, sync, cq, _⟩ := params
  cases hsync
  cases f <;> cases client <;> cases server <;> cases happlies <;>
    refine texts_pred (P := fun ts => (∀ t ∈ ts.take (disabledPlace _ _), Unrelated _ t) ∧
      ∀ t ∈ ts.drop (disabledPlace _ _ + 1), Unrelated _ t) rfl ?_ <;>
    simp only [toList_literal] <;>
    refine ⟨unrelated_of_all _ rfl, ?_⟩ <;>
    first
    | exact unrelated_of_all _ rfl
    | exact List.forall_mem_cons.mpr ⟨.inr ⟨_, rfl⟩, unrelated_of_all _ rfl⟩

theorem family_unrelated (f : Family) (hsync : params.allowSyncServerApi = false)
    (hallowed : f.allowed params = true) :
    ∀ t ∈ texts (methodEnv packageName outer serviceName i) d (f.program m params),
      Unrelated m t := by
  obtain ⟨name, input, output, client, server, location⟩ := m
  obtain ⟨_, _, _, _, _, _, _, _, sync, cq, _⟩ := params
  cases hsync
  cases f <;> cases hallowed <;> cases client <;> cases server <;>
    refine texts_pred (P := fun ts => ∀ t ∈ ts, Unrelated _ t) rfl ?_ <;>
    simp only [toList_literal] <;>
    exact unrelated_of_all _ rfl

theorem filter_unrelated {ts : List Text} (h : ∀ t ∈ ts, Unrelated m t) :
    (ts.map tight).filter (serverFunction m).declaredBy = [] :=
  filter_none fun t ht => not_declaredBy m (h t ht)

/-- A class template has the synchronous version of its method when there is one. -/
theorem filter_family (f : Family) (hallowed : f.allowed params = true)
    (happlies : f.applies m = true) :
    ((texts (methodEnv packageName outer serviceName i) d (f.program m params)).map tight).filter
        (serverFunction m).declaredBy =
      if params.allowSyncServerApi then [tight ((serverFunction m).disabled f.version)]
      else [] := by
  cases hsync : params.allowSyncServerApi with
  | false =>
      exact filter_unrelated m
        (family_unrelated packageName serviceName outer m params i d f hsync hallowed)
  | true =>
      have hplace := family_disabled packageName serviceName outer m params i d f hsync happlies
      obtain ⟨hbefore, hafter⟩ :=
        family_others packageName serviceName outer m params i d f hsync happlies
      generalize texts (methodEnv packageName outer serviceName i) d (f.program m params) = ts at *
      obtain ⟨t, ht, hdisabled⟩ := Option.map_eq_some_iff.mp hplace
      obtain ⟨hlt, rfl⟩ := List.getElem?_eq_some_iff.mp ht
      have hsplit : ts = ts.take (disabledPlace f m) ++
          ts[disabledPlace f m] :: ts.drop (disabledPlace f m + 1) := by
        rw [List.getElem_cons_drop, List.take_append_drop]
      rw [hsplit, List.map_append, List.map_cons, List.filter_append, List.filter_cons,
        filter_unrelated m hbefore, filter_unrelated m hafter, hdisabled,
        declaredBy_disabled m f]
      rfl

end Families

/-! ### Every file -/

section Versions

variable (file : File) (params : Parameters) {s : Service}

/-- The declaration in the base class; without the synchronous API it is not virtual. -/
def serverDeclaration (m : Method) : List Text :=
  (if params.allowSyncServerApi then [lit "virtual "] else []) ++
    [(serverFunction m).declaration ++ lit ";\n"]

/-- The base class from its first line to its last. -/
def baseClass (s : Service) : List Text :=
  [lit "class Service : public ::grpc::Service \x7b\n public:\n", lit "Service();\n",
    lit "virtual ~Service();\n"] ++
  s.methods.flatMap (fun m => commented m (serverDeclaration params m)) ++
  [lit "\x7d;\n"]

attribute [local simp] lit Write.chars Span.chars commas Method.noStreaming
  Method.clientOnlyStreaming Method.serverOnlyStreaming Method.bidiStreaming
  Argument.declaration Argument.definition Signature.declaration requestPointer responsePointer
  serverContextArgument serverArguments serverFunction serverDeclaration in
theorem texts_serverMethodSync (packageName serviceName : Text) (outer : Option Text) (m : Method)
    (d : ℕ) : texts (synchronousEnv packageName serviceName outer m) d (serverMethodSync m params) =
      serverDeclaration params m := by
  obtain ⟨name, input, output, client, server, location⟩ := m
  obtain ⟨_, _, _, _, _, _, _, _, sync, _, _⟩ := params
  cases client <;> cases server <;> cases sync <;> refine (texts_of_run rfl).trans ?_ <;>
    simp [-String.reduceToList, toList_literal]

theorem texts_printHeaderServerMethodSync (packageName serviceName : Text) (outer : Option Text)
    (m : Method) (d : ℕ) : (texts (serviceEnv packageName outer serviceName) d
      (printHeaderServerMethodSync m params)).map tight =
      (commented m (serverDeclaration params m)).map tight := by
  have hclosed : Closed (synchronousEnv packageName serviceName outer m)
      (serverMethodSync m params) := closed_serverMethodSync m params
  have htexts : texts (serviceEnv packageName outer serviceName) d
      (printHeaderServerMethodSync m params) =
      texts (synchronousEnv packageName serviceName outer m) d
        (printText (m.getLeadingComments slashes) ++ serverMethodSync m params ++
          printText (m.getTrailingComments slashes)) := by
    rw [printHeaderServerMethodSync, List.append_assoc, List.append_assoc, ← List.append_assoc
      (printText _)]
    exact ((texts_set ..).trans (texts_set ..)).trans (texts_set ..)
  rw [htexts]
  exact tight_commented m d hclosed (by rw [texts_serverMethodSync])

theorem infix_baseClass (hs : s ∈ file.content.services) :
    (baseClass params s).map tight <:+: textsOf (getHeaderServices file params) := by
  have hpart : headerServerBase s params ∈ headerParts s params := by simp [headerParts]
  have hbase := infix_headerPart hs hpart
  obtain ⟨ws, hprints, htexts⟩ :=
    prints_headerServerBase s params (qualifier file) s.name (namespaceOf params) 1
  have hclosed (m : Method) : Closed (serviceEnv (qualifier file) (namespaceOf params) s.name)
      (printHeaderServerMethodSync m params) := closed_printHeaderServerMethodSync m params
  have hloop := tight_loop s (1 + 1) hclosed
    fun m => texts_printHeaderServerMethodSync params _ s.name _ m (1 + 1)
  rw [texts, hprints.written_eq, htexts, List.map_append, List.map_append, hloop,
    ← List.map_append, ← List.map_append] at hbase
  exact hbase

theorem texts_headerServerRaw (s : Service) :
    texts (serviceEnv (qualifier file) (namespaceOf params) s.name) 1 (headerServerRaw s params) =
      [familyLoop s params .generic, when params.allowCqApi (familyLoop s params .raw),
        familyLoop s params .rawCallback].flatMap
        (texts (serviceEnv (qualifier file) (namespaceOf params) s.name) 1) := by
  have hclosed := closed_familyLoop (qualifier file) s.name (namespaceOf params) s params
  have hpieces : headerServerRaw s params = [familyLoop s params .generic,
      when params.allowCqApi (familyLoop s params .raw),
      familyLoop s params .rawCallback].flatMap id := by
    simp only [headerServerRaw, familyLoop, Family.program, List.flatMap_cons, List.flatMap_nil,
      id_eq, List.append_assoc, List.append_nil]
  rw [hpieces, texts_flatMap]
  · rfl
  · intro piece hpiece
    simp only [List.mem_cons, List.not_mem_nil, or_false] at hpiece
    rcases hpiece with rfl | rfl | rfl
    · exact hclosed _
    · exact closed_when (hclosed _) _
    · exact hclosed _

theorem infix_familyLoop (hs : s ∈ file.content.services) {f : Family}
    (hallowed : f.allowed params = true) :
    (texts (serviceEnv (qualifier file) (namespaceOf params) s.name) 1
      (familyLoop s params f)).map tight <:+: textsOf (getHeaderServices file params) := by
  have hmem : headerServerRaw s params ∈ headerParts s params := by simp [headerParts]
  have hraw {piece : Program} (hpiece : piece ∈ [familyLoop s params .generic,
      when params.allowCqApi (familyLoop s params .raw), familyLoop s params .rawCallback]) :
      (texts (serviceEnv (qualifier file) (namespaceOf params) s.name) 1 piece).map tight <:+:
        textsOf (getHeaderServices file params) := by
    have hpart := infix_headerPart hs hmem
    rw [texts_headerServerRaw] at hpart
    exact ((infix_flatMap _ hpiece).map tight).trans hpart
  have htypedef {t : Typedef} (ht : t ∈ Typedef.all params) {piece : Program}
      (hpiece : piece ∈ pieces s params t) := infix_piece file params hs ht hpiece
  cases f with
  | async =>
      have hcq : params.allowCqApi = true := hallowed
      exact htypedef (t := .async) (by simp [Typedef.all, hcq]) (by simp [pieces])
  | callback => exact htypedef (t := .callback) (by simp [Typedef.all]) (by simp [pieces])
  | generic => exact hraw (by simp)
  | raw =>
      have hcq : params.allowCqApi = true := hallowed
      exact hraw (by simp [when, hcq])
  | rawCallback => exact hraw (by simp)
  | streamedUnary =>
      have hsync : params.allowSyncServerApi = true := hallowed
      exact htypedef (t := .streamed) (by simp [Typedef.all, hsync]) (by simp [pieces])
  | splitStreaming =>
      have hsync : params.allowSyncServerApi = true := hallowed
      exact htypedef (t := .streamed) (by simp [Typedef.all, hsync]) (by simp [pieces])

/-- In the files of every file, for each method of a service: the base class declares its
synchronous version and the source defines it, with one signature. With the synchronous API the
declaration is virtual and each class template of the method overrides it, by that signature
too; without it the definition aborts and nothing overrides it. -/
theorem synchronous_versions_agree (hs : s ∈ file.content.services) :
    (baseClass params s).map tight <:+: textsOf (getHeaderServices file params) ∧
      ∀ m ∈ s.methods,
        commented m (serverDeclaration params m) <:+: baseClass params s ∧
        (serverDefinition m params (namespaceQualifier params ++ s.name)).map tight <:+:
          textsOf (getSourceServices file params) ∧
        ∀ f : Family, f.allowed params = true → f.applies m = true →
          ∃ body : List Text,
            (f.classOpening m ++ body).map tight <:+: textsOf (getHeaderServices file params) ∧
            body.getLast? = some (lit "\x7d;\n") ∧
            (∀ t ∈ body.dropLast, tight t ≠ tight (lit "\x7d;\n")) ∧
            ((f.classOpening m ++ body).map tight).filter (serverFunction m).declaredBy =
              if params.allowSyncServerApi then [tight ((serverFunction m).disabled f.version)]
              else [] := by
  refine ⟨infix_baseClass file params hs, fun m hm => ⟨?_, ?_, fun f hallowed happlies => ?_⟩⟩
  · have hround := infix_flatMap (fun m => commented m (serverDeclaration params m)) hm
    exact hround.trans (List.infix_append _ _ _)
  · refine List.IsInfix.trans (List.IsInfix.map tight ?_) (infix_sourceText file params hs)
    have hround := infix_flatMap
      (fun m => serverDefinition m params (namespaceQualifier params ++ s.name)) hm
    exact hround.trans (List.suffix_append _ _).isInfix
  · obtain ⟨i, hi⟩ := List.getElem?_of_mem hm
    have hround := infix_round rfl
      (fun i m => closed_family (qualifier file) s.name (namespaceOf params) m params i f)
      (infix_familyLoop file params hs hallowed) hi
    have hversions := filter_family (qualifier file) s.name (namespaceOf params) m params i 1 f
      hallowed happlies
    obtain ⟨body, hclass, hlast, hbody, -⟩ :=
      texts_family (qualifier file) s.name (namespaceOf params) m params i 1 f happlies
    exact ⟨body, hclass ▸ hround, hlast, hbody, hclass ▸ hversions⟩

theorem synchronous_versions_agree_orders :
    (baseClass {} orders).map tight <:+: textsOf (getHeaderServices ordersFile {}) ∧
      (∃ body : List Text, body.map tight <:+: textsOf (getHeaderServices ordersFile {}) ∧
        (body.map tight).filter (serverFunction watch).declaredBy =
          [tight ((serverFunction watch).disabled "regular")]) ∧
      ∃ body : List Text, body.map tight <:+: textsOf (getHeaderServices ordersFile
          { allowSyncServerApi := false }) ∧
        (body.map tight).filter (serverFunction negotiate).declaredBy = [] := by
  have horders : orders ∈ ordersFile.content.services := List.mem_cons_of_mem _ List.mem_cons_self
  obtain ⟨hbase, hmethods⟩ := synchronous_versions_agree ordersFile {} horders
  obtain ⟨-, hwithout⟩ :=
    synchronous_versions_agree ordersFile { allowSyncServerApi := false } horders
  obtain ⟨-, -, hwatch⟩ := hmethods watch (by simp [orders])
  obtain ⟨-, -, hnegotiate⟩ := hwithout negotiate (by simp [orders])
  obtain ⟨body, hclass, -, -, hversion⟩ := hwatch .splitStreaming rfl rfl
  obtain ⟨other, hother, -, -, hnone⟩ := hnegotiate .callback rfl rfl
  exact ⟨hbase, ⟨_, hclass, hversion⟩, _, hother, hnone⟩

end Versions

end GrpcM.Plugin
