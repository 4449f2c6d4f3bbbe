import Mathlib.Data.List.DropRight
import GrpcM.Plugin.Generator.Signatures

/-!
Class `Stub` against its interface, and the mock class against it too. A pure function of the
interface that is not overridden would leave the class abstract, and a function that overrides
nothing would not compile; neither happens, whatever the services of a file are.
-/

namespace GrpcM.Plugin

open GrpcM.Path GrpcM.Templates
open Var hiding filenameIdentifier

/-- The printed texts of a part, one by one and without blanks. -/
def textsOf (part : Part) : List Text :=
  ((runScopes part 0).map fun r => tightTexts r.1).getD []

theorem textsOf_singleton {program : Program} {ws : List (Write Var)}
    (h : Prints (fun _ => none) 0 0 program ws) : textsOf [program] = tightTexts ws := by
  obtain ⟨β', -, hrun⟩ := h.run
  simp [textsOf, runScopes, hrun]

theorem tightTexts_written (β : Env Var) (d : ℕ) (part : Program) :
    tightTexts (written β d part) = (texts β d part).map tight := by
  rw [texts, List.map_map]
  rfl

/-! ### Where the classes of a service stand -/

theorem infix_tightTexts {ws ws' : List (Write Var)} (h : ws <:+: ws') :
    tightTexts ws <:+: tightTexts ws' := h.map _

theorem infix_flatMap {α β : Type} (f : α → List β) {x : α} {xs : List α} (hx : x ∈ xs) :
    f x <:+: xs.flatMap f := by
  rw [List.flatMap_def]
  exact List.infix_of_mem_flatten (List.mem_map_of_mem hx)

theorem infix_block (block : Service → List (Write Var)) {s : Service}
    {services : List Service} (hs : s ∈ services) (opening ending : List (Write Var)) :
    block s <:+: opening ++ ((services.flatMap fun s => block s ++ [⟨0, [.text ['\n']]⟩]) ++
      ending) := by
  have hloop := infix_flatMap (fun s => block s ++ [(⟨0, [.text ['\n']]⟩ : Write Var)]) hs
  exact (List.infix_append_left.trans hloop).trans (List.infix_append' _ _ _)

section File

variable {file : File} {s : Service}

theorem infix_headerService (params : Parameters) (hs : s ∈ file.content.services) :
    tightTexts (written (packageEnv (qualifier file) (namespaceOf params)) 0
      (printHeaderService s params)) <:+: textsOf (getHeaderServices file params) := by
  obtain ⟨opening, ending, -, h⟩ := prints_services (qualifier file) params
    ["\x7d  // namespace ", servicesNamespace, "\n\n"]
    (fun _ s => closed_printHeaderService s params) fun _ => rfl
  rw [getHeaderServices, textsOf_singleton (h file.content.services)]
  exact infix_tightTexts (infix_block (fun s => written (packageEnv (qualifier file)
    (namespaceOf params)) 0 (printHeaderService s params)) hs opening ending)

theorem infix_mockService (params : Parameters) (hs : s ∈ file.content.services) :
    tightTexts (written (packageEnv (qualifier file) (namespaceOf params)) 0
      (printMockService s params)) <:+: textsOf (getMockServices file params) := by
  obtain ⟨opening, ending, -, h⟩ := prints_services (qualifier file) params
    ["\x7d // namespace ", servicesNamespace, "\n\n"]
    (fun _ s => closed_printMockService s params) fun _ => rfl
  rw [getMockServices, textsOf_singleton (h file.content.services)]
  exact infix_tightTexts (infix_block (fun s => written (packageEnv (qualifier file)
    (namespaceOf params)) 0 (printMockService s params)) hs opening ending)

theorem infix_headerPart {params : Parameters} (hs : s ∈ file.content.services) {part : Program}
    (hpart : part ∈ headerParts s params) :
    (texts (serviceEnv (qualifier file) (namespaceOf params) s.name) 1 part).map tight <:+:
      textsOf (getHeaderServices file params) := by
  have hparts : ∃ opening ending, Prints (packageEnv (qualifier file) (namespaceOf params)) 0 0
      (printHeaderService s params) (opening ++ (headerParts s params).flatMap
        (written (serviceEnv (qualifier file) (namespaceOf params) s.name) 1) ++ ending) :=
    prints_printHeaderService s params 0
  obtain ⟨opening, ending, h⟩ := hparts
  rw [← tightTexts_written]
  refine List.IsInfix.trans (infix_tightTexts ?_) (infix_headerService params hs)
  rw [h.written_eq]
  exact (infix_flatMap _ hpart).trans (List.infix_append _ _ _)

end File

/-! ### The classes -/

section Classes

variable (s : Service) (m : Method) (params : Parameters)

/-- A virtual function, which is pure or has a body. -/
structure VirtualFunction where
  signature : Signature
  body : Option Text := none

namespace VirtualFunction

variable (f : VirtualFunction)

def declared : Text :=
  match f.body with
  | none => f.signature.pure
  | some body => lit "virtual " ++ f.signature.declaration ++ lit " \x7b " ++ body ++ lit " \x7d\n"

def overriding : Text :=
  match f.body with
  | none => f.signature.override
  | some body => f.signature.declaration ++ lit " override \x7b " ++ body ++ lit " \x7d\n"

end VirtualFunction

def asyncFunction : VirtualFunction where
  signature := { result := lit "class async_interface*", name := lit "async", arguments := [] }
  body := some (lit "return nullptr;")

def stubAsyncFunction : VirtualFunction where
  signature := { result := lit "class async*", name := lit "async", arguments := [] }
  body := some (lit "return &async_stub_;")

/-- The comments of a method around what is printed for it. -/
def commented (ts : List Text) : List Text :=
  commentText (getComment m.location) true :: ts ++ [commentText (getComment m.location) false]

def rawSignatures (suffix : String) : List Signature :=
  s.methods.flatMap fun m => (rawFunctions m suffix params.allowCqApi).map RawFunction.signature

/-- `StubInterface` from its first line to its last. -/
def interfaceClass : List Text :=
  [lit "class StubInterface \x7b\n public:\n", lit "virtual ~StubInterface() \x7b\x7d\n"] ++
  s.methods.flatMap
    (fun m => commented m (publicTexts m "Interface" params.allowCqApi Signature.pure)) ++
  [lit "class async_interface \x7b\n", lit " public:\n",
    lit "virtual ~async_interface() \x7b\x7d\n"] ++
  s.methods.flatMap (fun m => commented m ((callbackFunctions m).map Signature.pure)) ++
  [lit "\x7d;\n", lit "typedef class async_interface experimental_async_interface;\n"] ++
  [asyncFunction.declared] ++
  [lit "class async_interface* experimental_async() \x7b return async(); \x7d\n",
    lit " private:\n"] ++
  (rawSignatures s params "Interface").map Signature.pure ++
  [lit "\x7d;\n"]

/-- The member for the name and the kind of a method. -/
def methodData : Text := lit "const ::grpc::internal::RpcMethod rpcmethod_" ++ m.name ++ lit "_;\n"

/-- `Stub` from its first line to its last. -/
def stubClass : List Text :=
  [lit "class Stub final : public StubInterface \x7b\n public:\n",
    lit "Stub(const std::shared_ptr< ::grpc::ChannelInterface>& channel, const " ++
      lit "::grpc::StubOptions& options = ::grpc::StubOptions());\n"] ++
  s.methods.flatMap (fun m => publicTexts m "" params.allowCqApi Signature.override) ++
  [lit "class async final :\n", lit "  public StubInterface::async_interface \x7b\n",
    lit " public:\n"] ++
  (s.methods.flatMap callbackFunctions).map Signature.override ++
  [lit " private:\n", lit "friend class Stub;\n",
    lit "explicit async(Stub* stub): stub_(stub) \x7b \x7d\n",
    lit "Stub* stub() \x7b return stub_; \x7d\n", lit "Stub* stub_;\n", lit "\x7d;\n"] ++
  [stubAsyncFunction.overriding] ++
  [lit "\n private:\n", lit "std::shared_ptr< ::grpc::ChannelInterface> channel_;\n",
    lit "class async async_stub_\x7bthis\x7d;\n"] ++
  (rawSignatures s params "").map Signature.override ++
  s.methods.map methodData ++
  [lit "\x7d;\n"]

/-- What a service has for its overriding, in the order of the header. -/
def virtualFunctions (suffix : String) (async : VirtualFunction) : List VirtualFunction :=
  (s.methods.flatMap unaryFunctions ++ s.methods.flatMap callbackFunctions).map
      (fun sig => { signature := sig }) ++
    async :: (rawSignatures s params suffix).map fun sig => { signature := sig }

/-- The functions of the stub override those of the interface one by one. -/
theorem covariant_virtualFunctions :
    List.Forall₂ Covariant
      ((virtualFunctions s params "Interface" asyncFunction).map VirtualFunction.signature)
      ((virtualFunctions s params "" stubAsyncFunction).map VirtualFunction.signature) := by
  have hsame (fs : List Signature) : List.Forall₂ Covariant fs fs :=
    List.forall₂_same.mpr fun f _ => covariant_refl f
  have hraw : List.Forall₂ Covariant (rawSignatures s params "Interface")
      (rawSignatures s params "") := by
    rw [rawSignatures, rawSignatures]
    induction s.methods with
    | nil => exact .nil
    | cons m methods ih => exact List.rel_append (covariant_rawFunctions m _) ih
  have hasync : Covariant asyncFunction.signature stubAsyncFunction.signature :=
    ⟨rfl, rfl, .inr ⟨lit "class async", _, lit "*", List.mem_cons_of_mem _ List.mem_cons_self,
      rfl, rfl⟩⟩
  have hid (fs : List Signature) :
      (fs.map fun sig => ({ signature := sig } : VirtualFunction)).map
        VirtualFunction.signature = fs := by
    rw [List.map_map]
    exact List.map_id fs
  simp only [virtualFunctions, List.map_append, List.map_cons, hid]
  exact List.rel_append (hsame _) (.cons hasync hraw)

end Classes

/-! ### They are what is printed -/

section Printed

variable (packageName serviceName : Text) (outer : Option Text) (s : Service) (m : Method)
  (params : Parameters) (d : ℕ)

theorem tight_loop {β : Env Var} {body : Method → Program} {read : Method → List Text}
    (hclosed : ∀ m, Closed β (body m))
    (hbody : ∀ m, (texts β d (body m)).map tight = (read m).map tight) :
    (texts β d (forMethods s fun _ m => body m)).map tight =
      (s.methods.flatMap read).map tight := by
  rw [texts_forMethods hclosed, List.map_flatMap, List.map_flatMap]
  exact List.flatMap_congr fun m _ => hbody m

theorem closed_commented {β : Env Var} {program : Program} (hclosed : Closed β program) :
    Closed β (printText (m.getLeadingComments slashes) ++ program ++
      printText (m.getTrailingComments slashes)) :=
  ((closed_comments _ _ _).append hclosed).append (closed_comments _ _ _)

theorem tight_commented {β : Env Var} {program : Program} {ts : List Text}
    (hclosed : Closed β program) (h : (texts β d program).map tight = ts.map tight) :
    (texts β d (printText (m.getLeadingComments slashes) ++ program ++
      printText (m.getTrailingComments slashes))).map tight = (commented m ts).map tight := by
  rw [Method.getLeadingComments, Method.getTrailingComments,
    texts_append ((closed_comments β _ true).append hclosed) (closed_comments β _ false),
    texts_append (closed_comments β _ true) hclosed, texts_comments, texts_comments]
  simp only [List.map_append, h, commented, List.map_cons, List.map_nil, List.cons_append,
    List.nil_append]

theorem texts_headerStubInterface :
    (texts (serviceEnv packageName outer serviceName) d (headerStubInterface s params)).map tight =
      (interfaceClass s params).map tight := by
  obtain ⟨ws, hprints, htexts⟩ :=
    prints_headerStubInterface s params packageName serviceName outer d
  have hpublic := tight_loop s (d + 1)
    (fun m => closed_commented m (closed_printHeaderClientMethodInterfaces m params true))
    fun m => tight_commented m (d + 1) (closed_printHeaderClientMethodInterfaces m params true)
      (texts_interfacePublic packageName serviceName outer m params (d + 1))
  have hcallback := tight_loop s (d + 2)
    (fun m => closed_commented m (closed_printHeaderClientMethodCallbackInterfaces m))
    fun m => tight_commented m (d + 2) (closed_printHeaderClientMethodCallbackInterfaces m)
      (texts_callbackInterface packageName serviceName outer m (d + 2))
  have hprivate := tight_loop s (d + 1)
    (fun m => closed_printHeaderClientMethodInterfaces m params false)
    fun m => texts_interfacePrivate packageName serviceName outer m params (d + 1)
  have hraw : (rawSignatures s params "Interface").map Signature.pure =
      s.methods.flatMap fun m => ((rawFunctions m "Interface" params.allowCqApi).map
        RawFunction.signature).map Signature.pure := List.map_flatMap
  have hasync : asyncFunction.declared =
      lit "virtual class async_interface* async() \x7b return nullptr; \x7d\n" := by
    simp only [asyncFunction, VirtualFunction.declared, lit, toList_literal]
    rfl
  rw [texts, hprints.written_eq, htexts]
  simp only [List.map_append, hpublic, hcallback, hprivate, interfaceClass, hraw, hasync]
  simp only [List.append_assoc]
  rfl

theorem texts_headerClientMethodData :
    texts (serviceEnv packageName outer serviceName) d (printHeaderClientMethodData m) =
      [methodData m] := by
  refine (texts_of_run rfl).trans ?_
  simp [-String.reduceToList, methodData, Write.chars, Span.chars, lit]

/-- After the stub stands the function that makes one. -/
theorem texts_headerStub :
    ∃ rest, (texts (serviceEnv packageName outer serviceName) d (headerStub s params)).map tight =
      (stubClass s params).map tight ++ rest := by
  obtain ⟨ws, hprints, htexts⟩ := prints_headerStub s params packageName serviceName outer d
  have hpublic := tight_loop s (d + 1)
    (fun m => closed_printHeaderClientMethod m params true)
    fun m => texts_stubPublic packageName serviceName outer m params (d + 1)
  have hcallback := tight_loop s (d + 2)
    (fun m => closed_printHeaderClientMethodCallback m)
    fun m => texts_callback packageName serviceName outer m (d + 2)
  have hprivate := tight_loop s (d + 1)
    (fun m => closed_printHeaderClientMethod m params false)
    fun m => texts_stubPrivate packageName serviceName outer m params (d + 1)
  have hdata : (texts (serviceEnv packageName outer serviceName) (d + 1)
      (forMethods s fun _ m => printHeaderClientMethodData m)).map tight =
        (s.methods.map methodData).map tight := by
    rw [List.map_eq_flatMap (f := methodData)]
    exact tight_loop s (d + 1) (fun m => closed_printHeaderClientMethodData m)
      fun m => congrArg _ (texts_headerClientMethodData packageName serviceName outer m (d + 1))
  have hraw : (rawSignatures s params "").map Signature.override =
      s.methods.flatMap fun m => ((rawFunctions m "" params.allowCqApi).map
        RawFunction.signature).map Signature.override := List.map_flatMap
  have hcallbacks : (s.methods.flatMap callbackFunctions).map Signature.override =
      s.methods.flatMap fun m => (callbackFunctions m).map Signature.override := List.map_flatMap
  have hasync : stubAsyncFunction.overriding =
      lit "class async* async() override \x7b return &async_stub_; \x7d\n" := by
    simp only [stubAsyncFunction, VirtualFunction.overriding, lit, toList_literal]
    rfl
  rw [texts, hprints.written_eq, htexts]
  simp only [List.map_append, hpublic, hcallback, hprivate, hdata, stubClass, hraw, hcallbacks,
    hasync]
  have hsplit (ts rest : List Text) (t : Text) :
      ts ++ (t :: rest).map tight = ts ++ [t].map tight ++ rest.map tight := by
    simp
  rw [hsplit]
  simp only [List.append_assoc]
  exact ⟨_, rfl⟩

end Printed

/-! ### Pure, virtual and overriding functions -/

def isPure (t : Text) : Bool := (lit "virtual").isPrefixOf t && (lit "=0;\n").isSuffixOf t

/-- What can be overridden, but for the destructors. -/
def isVirtual (t : Text) : Bool :=
  isPure t || ((lit "virtual").isPrefixOf t && !(lit "virtual~").isPrefixOf t)

/-- A function that overrides another one and has its body elsewhere. -/
def isDeclared (t : Text) : Bool := (lit ")override;\n").isSuffixOf t

/-- A function that overrides another one; it may stand with its body. -/
def isOverride (t : Text) : Bool :=
  isDeclared t ||
    ((lit "\x7d\n").isSuffixOf t && (lit ")override\x7b").isSuffixOf (t.rdropWhile (· != '\x7b')))

theorem isPure_pure (sig : Signature) : isPure (tight sig.pure) = true := by
  have htext : tight sig.pure = lit "virtual" ++ (tight sig.declaration ++ lit "=0;\n") := by
    simp only [Signature.pure, tight_append, List.append_assoc]
    rfl
  rw [htext, isPure, Bool.and_eq_true]
  exact ⟨List.isPrefixOf_iff_prefix.mpr ⟨_, rfl⟩, List.isSuffixOf_iff_suffix.mpr
    ⟨lit "virtual" ++ tight sig.declaration, List.append_assoc ..⟩⟩

theorem isVirtual_pure (sig : Signature) : isVirtual (tight sig.pure) = true := by
  rw [isVirtual, isPure_pure, Bool.true_or]

theorem isDeclared_override (sig : Signature) : isDeclared (tight sig.override) = true := by
  have htext : ∃ t, tight sig.override = t ++ lit ")override;\n" := by
    refine ⟨tight (sig.result ++ ' ' :: sig.name ++ '(' ::
      commas (sig.arguments.map Argument.declaration)), ?_⟩
    simp only [Signature.override, Signature.declaration, tight_append, List.append_assoc]
    rfl
  obtain ⟨t, htext⟩ := htext
  exact List.isSuffixOf_iff_suffix.mpr ⟨t, htext.symm⟩

theorem isOverride_override (sig : Signature) : isOverride (tight sig.override) = true := by
  rw [isOverride, isDeclared_override, Bool.true_or]

theorem isVirtual_of_head {c : Char} (hc : c ≠ 'v') (t : Text) : isVirtual (c :: t) = false := by
  simp [isVirtual, isPure, lit, List.isPrefixOf, Ne.symm hc]

theorem isPure_le_isVirtual {t : Text} (h : isVirtual t = false) : isPure t = false := by
  rw [isVirtual, Bool.or_eq_false_iff] at h
  exact h.1

theorem isOverride_of_tail {c : Char} (hc : c ≠ 'e') (t : Text) :
    isOverride (t ++ [c, ';', '\n']) = false := by
  simp [isOverride, isDeclared, lit, List.isSuffixOf, List.isPrefixOf, Ne.symm hc]

theorem isOverride_of_brace (t : Text) : isOverride (t ++ ['\x7b', '\n']) = false := by
  simp [isOverride, isDeclared, lit, List.isSuffixOf, List.isPrefixOf]

theorem wrapper_plain (f : RawFunction) {t : Text} (ht : t ∈ f.wrapper) :
    isVirtual (tight t) = false ∧ isOverride (tight t) = false := by
  simp only [RawFunction.wrapper, List.mem_cons, List.not_mem_nil, or_false] at ht
  rcases ht with rfl | rfl | rfl
  · refine ⟨isVirtual_of_head (c := 's') (by decide) _, ?_⟩
    have hbrace (x : Text) :
        tight (x ++ lit ") \x7b\n") = (tight x ++ [')']) ++ ['\x7b', '\n'] := by
      rw [tight_append, List.append_assoc]
      rfl
    rw [hbrace]
    exact isOverride_of_brace _
  · refine ⟨isVirtual_of_head (c := 'r') (by decide) _, ?_⟩
    have hcall (x : Text) : tight (x ++ lit "));\n") = (tight x ++ [')']) ++ [')', ';', '\n'] := by
      rw [tight_append, List.append_assoc]
      rfl
    rw [hcall]
    exact isOverride_of_tail (by decide) _
  · simp only [isVirtual, isPure, isOverride, isDeclared, lit, toList_literal]
    exact ⟨rfl, rfl⟩

theorem isVirtual_comments (comment : CommentType → List Text) (leading : Bool) :
    isVirtual (tight (commentText comment leading)) = false := by
  rw [commentText]
  generalize (if leading then comment .leadingDetached ++ comment .leading
    else comment .trailing) = lines
  cases lines with
  | nil => rfl
  | cons elem lines =>
      obtain ⟨t, ht⟩ := commentLine_eq slashes elem
      rw [List.map_cons, Lines.unlines_cons, ht]
      exact isVirtual_of_head (c := '/') (by decide) _

theorem isOverride_methodData (m : Method) : isOverride (tight (methodData m)) = false := by
  have htail (t : Text) : isOverride (tight (t ++ lit "_;\n")) = false := by
    rw [tight_append]
    exact isOverride_of_tail (c := '_') (by decide) (tight t)
  exact htail _

/-! ### The functions of the classes -/

section Functions

variable (s : Service) (params : Parameters) {keep : Text → Bool}

theorem filter_read {read : Signature → Text} (hread : ∀ sig, keep (tight (read sig)) = true)
    (sigs : List Signature) :
    ((sigs.map read).map tight).filter keep = (sigs.map read).map tight := by
  refine List.filter_eq_self.mpr fun t ht => ?_
  rw [List.map_map] at ht
  obtain ⟨sig, -, rfl⟩ := List.mem_map.mp ht
  exact hread sig

theorem filter_none {ts : List Text} (h : ∀ t ∈ ts, keep (tight t) = false) :
    (ts.map tight).filter keep = [] := by
  refine List.filter_eq_nil_iff.mpr fun t ht => ?_
  obtain ⟨t, hmem, rfl⟩ := List.mem_map.mp ht
  simp [h t hmem]

theorem filter_publicTexts (m : Method) (suffix : String) (cq : Bool) {read : Signature → Text}
    (hread : ∀ sig, keep (tight (read sig)) = true)
    (hwrapper : ∀ (f : RawFunction), ∀ t ∈ f.wrapper, keep (tight t) = false) :
    ((publicTexts m suffix cq read).map tight).filter keep =
      ((unaryFunctions m).map read).map tight := by
  have hraw : (((rawFunctions m suffix cq).flatMap RawFunction.wrapper).map tight).filter keep =
      [] := by
    refine filter_none fun t ht => ?_
    obtain ⟨f, -, hf⟩ := List.mem_flatMap.mp ht
    exact hwrapper f t hf
  rw [publicTexts, List.map_append, List.filter_append, hraw, List.append_nil]
  exact filter_read hread (unaryFunctions m)

theorem filter_flatMap {printed : Method → List Text} {found : Method → List Signature}
    {read : Signature → Text}
    (h : ∀ m, ((printed m).map tight).filter keep = ((found m).map read).map tight) :
    ((s.methods.flatMap printed).map tight).filter keep =
      ((s.methods.flatMap found).map read).map tight := by
  simp only [List.map_flatMap, List.filter_flatMap]
  exact List.flatMap_congr fun m _ => h m

/-- The comments around the functions of a method are no functions. -/
theorem filter_commented (m : Method) {ts : List Text}
    (hcomments : ∀ leading, keep (tight (commentText (getComment m.location) leading)) = false) :
    ((commented m ts).map tight).filter keep = (ts.map tight).filter keep := by
  simp [commented, hcomments]

/-- Of the interface the virtual functions are kept, or the pure ones of them. -/
theorem filter_interfaceClass (hpure : ∀ sig, keep (tight (Signature.pure sig)) = true)
    (hplain : ∀ t, isVirtual t = false → keep t = false) :
    ((interfaceClass s params).map tight).filter keep =
      (((s.methods.flatMap unaryFunctions ++ s.methods.flatMap callbackFunctions).map
        Signature.pure).map tight) ++ [tight asyncFunction.declared].filter keep ++
        ((rawSignatures s params "Interface").map Signature.pure).map tight := by
  have hcomments (m : Method) (leading : Bool) :
      keep (tight (commentText (getComment m.location) leading)) = false :=
    hplain _ (isVirtual_comments _ _)
  have hpublic := filter_flatMap s fun m => (filter_commented m (hcomments m)).trans
    (filter_publicTexts m "Interface" params.allowCqApi hpure
      fun f t ht => hplain _ (wrapper_plain f ht).1)
  have hcallback := filter_flatMap s fun m => (filter_commented m (hcomments m)).trans
    (filter_read hpure (callbackFunctions m))
  have hfixed {ts : List Text} (h : (ts.all fun t => !isVirtual (tight t)) = true) :
      (ts.map tight).filter keep = [] :=
    filter_none fun t ht => hplain _ (by simpa using List.all_eq_true.mp h t ht)
  rw [interfaceClass]
  simp only [List.map_append, List.filter_append, hpublic, hcallback]
  generalize hkept : ([asyncFunction.declared].map tight).filter keep = kept
  rw [filter_read hpure, hfixed, hfixed, hfixed, hfixed, hfixed]
  · simp only [List.nil_append, List.append_nil, ← hkept, List.map_cons, List.map_nil,
      List.append_assoc]
  all_goals
    simp only [isVirtual, isPure, lit, toList_literal]
    rfl

theorem filter_isVirtual : ((interfaceClass s params).map tight).filter isVirtual =
    ((virtualFunctions s params "Interface" asyncFunction).map
      VirtualFunction.declared).map tight := by
  rw [filter_interfaceClass s params isVirtual_pure fun _ h => h]
  have hasync :
      [tight asyncFunction.declared].filter isVirtual = [tight asyncFunction.declared] := by
    rw [List.filter_cons_of_pos, List.filter_nil]
    simp only [asyncFunction, VirtualFunction.declared, isVirtual, isPure, lit, toList_literal]
    rfl
  simp only [hasync, virtualFunctions, List.map_append, List.map_cons, List.map_map,
    List.append_assoc, List.cons_append, List.nil_append]
  rfl

theorem filter_isPure : ((interfaceClass s params).map tight).filter isPure =
    ((stubFunctions s "Interface" params.allowCqApi).map Signature.pure).map tight := by
  rw [filter_interfaceClass s params isPure_pure fun _ => isPure_le_isVirtual]
  have hasync : [tight asyncFunction.declared].filter isPure = [] := by
    simp only [asyncFunction, VirtualFunction.declared, lit, toList_literal]
    rfl
  rw [hasync, List.append_nil, ← List.map_append, ← List.map_append]
  rfl

theorem filter_isOverride : ((stubClass s params).map tight).filter isOverride =
    ((virtualFunctions s params "" stubAsyncFunction).map VirtualFunction.overriding).map
      tight := by
  have hpublic := filter_flatMap s fun m =>
    filter_publicTexts m "" params.allowCqApi isOverride_override
      fun f t ht => (wrapper_plain f ht).2
  have hdata : ((s.methods.map methodData).map tight).filter isOverride = [] := by
    refine filter_none fun t ht => ?_
    obtain ⟨m, -, rfl⟩ := List.mem_map.mp ht
    exact isOverride_methodData m
  have hfixed {ts : List Text} (h : (ts.all fun t => !isOverride (tight t)) = true) :
      (ts.map tight).filter isOverride = [] :=
    filter_none fun t ht => by simpa using List.all_eq_true.mp h t ht
  have hasync : ([stubAsyncFunction.overriding].map tight).filter isOverride =
      [stubAsyncFunction.overriding].map tight := by
    rw [List.map_singleton, List.filter_cons_of_pos, List.filter_nil]
    simp only [stubAsyncFunction, VirtualFunction.overriding, isOverride, isDeclared, lit,
      toList_literal]
    rfl
  rw [stubClass]
  simp only [List.map_append, List.filter_append, hpublic, hdata]
  rw [filter_read isOverride_override, filter_read isOverride_override, hasync, hfixed, hfixed,
    hfixed, hfixed, hfixed]
  · simp only [List.nil_append, List.append_nil, virtualFunctions, List.map_append, List.map_cons,
      List.map_nil, List.map_map, List.append_assoc]
    rfl
  all_goals
    simp only [isOverride, isDeclared, lit, toList_literal]
    rfl

/-- All of them but one are defined elsewhere. -/
theorem filter_isDeclared : ((stubClass s params).map tight).filter isDeclared =
    ((stubFunctions s "" params.allowCqApi).map Signature.override).map tight := by
  have hfilter : ((stubClass s params).map tight).filter isDeclared =
      (((stubClass s params).map tight).filter isOverride).filter isDeclared := by
    rw [List.filter_filter]
    refine List.filter_congr fun t _ => ?_
    cases h : isDeclared t with
    | false => rfl
    | true => rw [isOverride, h, Bool.true_or, Bool.true_and]
  have hasync : isDeclared (tight stubAsyncFunction.overriding) = false := by
    simp only [stubAsyncFunction, VirtualFunction.overriding, isDeclared, lit, toList_literal]
    rfl
  have hread (sigs : List Signature) :
      (((sigs.map fun sig => ({ signature := sig } : VirtualFunction)).map
        VirtualFunction.overriding).map tight).filter isDeclared =
        (sigs.map Signature.override).map tight := by
    rw [List.map_map (f := fun sig => _) (g := VirtualFunction.overriding)]
    exact filter_read isDeclared_override sigs
  rw [hfilter, filter_isOverride, virtualFunctions, List.map_append, List.map_append,
    List.filter_append, hread, List.map_cons, List.map_cons, List.filter_cons, hasync,
    if_neg Bool.false_ne_true, hread, ← List.map_append, ← List.map_append]
  rfl

end Functions

/-! ### Every file -/

section Linked

variable (file : File) (params : Parameters) {s : Service}

theorem infix_interfaceClass (hs : s ∈ file.content.services) :
    (interfaceClass s params).map tight <:+: textsOf (getHeaderServices file params) := by
  rw [← texts_headerStubInterface (qualifier file) s.name (namespaceOf params) s params 1]
  exact infix_headerPart hs (by simp [headerParts])

theorem infix_stubClass (hs : s ∈ file.content.services) :
    (stubClass s params).map tight <:+: textsOf (getHeaderServices file params) := by
  have hstub : headerStub s params ∈ headerParts s params := by simp [headerParts]
  obtain ⟨rest, hrest⟩ :=
    texts_headerStub (qualifier file) s.name (namespaceOf params) s params 1
  have hpart := infix_headerPart hs hstub
  rw [hrest] at hpart
  exact (List.prefix_append _ rest).isInfix.trans hpart

/-- In the header of every file, for each service: the functions that class `Stub` overrides
are the virtual functions of `StubInterface`, one by one. -/
theorem stub_overrides_interface (hs : s ∈ file.content.services) :
    (interfaceClass s params).map tight <:+: textsOf (getHeaderServices file params) ∧
      (stubClass s params).map tight <:+: textsOf (getHeaderServices file params) ∧
      ((interfaceClass s params).map tight).filter isVirtual =
        ((virtualFunctions s params "Interface" asyncFunction).map
          VirtualFunction.declared).map tight ∧
      ((stubClass s params).map tight).filter isOverride =
        ((virtualFunctions s params "" stubAsyncFunction).map
          VirtualFunction.overriding).map tight ∧
      List.Forall₂ Covariant
        ((virtualFunctions s params "Interface" asyncFunction).map VirtualFunction.signature)
        ((virtualFunctions s params "" stubAsyncFunction).map VirtualFunction.signature) :=
  ⟨infix_interfaceClass file params hs, infix_stubClass file params hs, filter_isVirtual s params,
    filter_isOverride s params, covariant_virtualFunctions s params⟩

theorem stub_overrides_interface_orders :
    (stubClass orders {}).map tight <:+: textsOf (getHeaderServices ordersFile {}) ∧
      (((stubClass orders {}).map tight).filter isOverride).length = 18 := by
  have horders : orders ∈ ordersFile.content.services := List.mem_cons_of_mem _ List.mem_cons_self
  obtain ⟨-, hstub, -, hoverrides, -⟩ := stub_overrides_interface ordersFile {} horders
  exact ⟨hstub, by rw [hoverrides]; rfl⟩

/-- The functions of the interface that are not in its callback class. -/
def mockedFunctions (s : Service) (cq : Bool) : List Signature :=
  s.methods.flatMap fun m =>
    unaryFunctions m ++ (rawFunctions m "Interface" cq).map RawFunction.signature

theorem mockedFunctions_perm (s : Service) (cq : Bool) :
    (mockedFunctions s cq ++ s.methods.flatMap callbackFunctions).Perm
      (stubFunctions s "Interface" cq) := by
  have hsplit : (s.methods.flatMap unaryFunctions ++ s.methods.flatMap fun m =>
      (rawFunctions m "Interface" cq).map RawFunction.signature).Perm (mockedFunctions s cq) :=
    List.flatMap_append_perm _ _ _
  refine (hsplit.symm.append_right _).trans ?_
  rw [stubFunctions, List.append_assoc, List.append_assoc]
  exact List.perm_append_comm.append_left _

/-- The mock class from its first line to its last. -/
def mockClass (s : Service) (params : Parameters) : List Text :=
  [lit "class Mock" ++ s.name ++ lit "Stub : public " ++ s.name ++
      lit "::StubInterface \x7b\n public:\n"] ++
    (mockedFunctions s params.allowCqApi).map Signature.mock ++ [lit "\x7d;\n"]

theorem infix_mockClass (hs : s ∈ file.content.services) :
    (mockClass s params).map tight <:+: textsOf (getMockServices file params) := by
  obtain ⟨ws, hprints, htexts⟩ :=
    prints_printMockService (qualifier file) (namespaceOf params) s params 0
  have hblock := infix_mockService params hs
  have hloop : (texts (serviceEnv (qualifier file) (namespaceOf params) s.name) (0 + 1)
      (forMethods s fun _ m => printMockClientMethods m params)).map tight =
      ((mockedFunctions s params.allowCqApi).map Signature.mock).map tight := by
    rw [mockedFunctions, List.map_flatMap]
    exact tight_loop s (0 + 1) (fun m => closed_printMockClientMethods m params)
      fun m => texts_mockClientMethods _ s.name _ m params _
  rw [tightTexts_written, texts, hprints.written_eq, htexts, List.map_append, List.map_append,
    hloop, ← List.map_append, ← List.map_append] at hblock
  exact hblock

/-- In the headers of every file, for each service: the mock class mocks each pure function of
the interface once, with as many arguments as it has, but for its callback class. -/
theorem mock_covers_interface (hs : s ∈ file.content.services) :
    (mockClass s params).map tight <:+: textsOf (getMockServices file params) ∧
      (interfaceClass s params).map tight <:+: textsOf (getHeaderServices file params) ∧
      ((interfaceClass s params).map tight).filter isPure =
        ((stubFunctions s "Interface" params.allowCqApi).map Signature.pure).map tight ∧
      (mockedFunctions s params.allowCqApi ++ s.methods.flatMap callbackFunctions).Perm
        (stubFunctions s "Interface" params.allowCqApi) :=
  ⟨infix_mockClass file params hs, infix_interfaceClass file params hs, filter_isPure s params,
    mockedFunctions_perm s _⟩

theorem mock_covers_interface_orders :
    (mockClass orders {}).map tight <:+: textsOf (getMockServices ordersFile {}) ∧
      (mockedFunctions orders true).length + 5 =
        (((interfaceClass orders {}).map tight).filter isPure).length := by
  have horders : orders ∈ ordersFile.content.services := List.mem_cons_of_mem _ List.mem_cons_self
  obtain ⟨hmock, -, hpure, hperm⟩ := mock_covers_interface ordersFile {} horders
  refine ⟨hmock, ?_⟩
  rw [hpure, List.length_map, List.length_map, ← hperm.length_eq, List.length_append]
  rfl

end Linked

end GrpcM.Plugin
