import GrpcM.Cut
import GrpcM.FirstOccurrence
import GrpcM.Python

/-!
The source lists of the manifest, read out of upstream's CMakeLists.txt:
`target_sources` finds the block of one target with a regular expression, and
`collect` joins the blocks of all targets.
-/

namespace GrpcM.GenSources

open GrpcM.Cut GrpcM.FirstOccurrence GrpcM.Path GrpcM.Python

def vendor : Text := lit "third_party/grpc-1.83.0"

def targets : List Text := [lit "gpr", lit "grpc", lit "grpc++", lit "address_sorting"]

def dupDescriptor : Text :=
  lit "src/core/ext/upb-gen/google/protobuf/descriptor.upb_minitable.c"

/-- How the script ends before its last line: a text for `sys.exit`, or the exception of
`str.index`. -/
inductive Failure where
  | exit (text : Text)
  | valueError
  deriving DecidableEq, Repr

theorem bind_eq_ok_iff {α β : Type} {x : Except Failure α} {f : α → Except Failure β} {b : β} :
    (x >>= f) = .ok b ↔ ∃ a, x = .ok a ∧ f a = .ok b := by
  cases x with
  | error failure => simp [bind, Except.bind]
  | ok a => simp [bind, Except.bind]

def notFoundText (target : Text) : Text :=
  lit "error: add_library(" ++ target ++ lit " ...) not found in CMakeLists.txt"

def noDescriptorText : Text :=
  lit "error: expected " ++ dupDescriptor ++
    lit (" in upstream's list — the " ++
      "duplicate-symbol exclusion may no longer apply; re-check before " ++
      "removing it")

def noAresText : Text :=
  lit "error: no c-ares TUs found — the `ares` feature would be empty"

/-! ### One block -/

def blockEnd : Text := lit "\n)\n"

/-- `\s+(.*?)\n\)\n` with a dot that matches every character. The group starts after all
leading blanks, or after fewer of them when no close follows. -/
def matchBody (t : Text) : Option Text :=
  (List.range (t.takeWhile isSpace).length).reverse.findSome? fun k =>
    (cut blockEnd (t.drop (k + 1))).map (·.1)

/-- The group of the first match of `marker` and `matchBody` behind it. -/
def search (marker : Text) : Text → Option Text
  | [] => none
  | c :: t => ((marker.isPrefixOf? (c :: t)).bind matchBody).or (search marker t)

def isSource (line : Text) : Bool :=
  endsWith line (lit ".cc") || endsWith line (lit ".c") || endsWith line (lit ".cpp")

def sourceLines (body : Text) : List Text := ((splitlines body).map strip).filter isSource

def targetSources (cmake target : Text) : Except Failure (List Text) :=
  match search (lit "\nadd_library(" ++ target) cmake with
  | some body => .ok (sourceLines body)
  | none => .error (.exit (notFoundText target))

/-! ### All blocks -/

/-- The sources of all targets, each once; `seen` holds what `ordered` holds. -/
def gather (cmake : Text) : Except Failure (List Text) :=
  targets.foldlM (fun ordered target =>
    (targetSources cmake target).map fun files => files.foldl addNew ordered) []

def isAres (f : Text) : Bool :=
  (cut (lit "/c_ares/") f).isSome || endsWith f (lit "ares_resolver.cc")

def collect (cmake : Text) : Except Failure (List Text × List Text) := do
  let ordered ← gather cmake
  if dupDescriptor ∉ ordered then throw (.exit noDescriptorText)
  let ares := ordered.filter isAres
  if ares.isEmpty then throw (.exit noAresText)
  let core := ordered.filter fun f => f ≠ dupDescriptor && !ares.contains f
  return (core, ares)

/-! ### What the lists hold -/

def listed (cmake target : Text) : List Text :=
  match targetSources cmake target with
  | .ok files => files
  | .error _ => []

theorem gather_eq_ok {cmake : Text} {ordered : List Text} (hgather : gather cmake = .ok ordered) :
    (∀ target ∈ targets, targetSources cmake target = .ok (listed cmake target)) ∧
      Kept (targets.flatMap (listed cmake)) ordered := by
  suffices hloop : ∀ (ts all start : List Text), Kept all start →
      ts.foldlM (fun ordered target =>
        (targetSources cmake target).map fun files => files.foldl addNew ordered) start =
          .ok ordered →
      (∀ target ∈ ts, targetSources cmake target = .ok (listed cmake target)) ∧
        Kept (all ++ ts.flatMap (listed cmake)) ordered by
    exact hloop targets [] [] kept_nil hgather
  intro ts
  induction ts with
  | nil =>
      intro all start hstart hfold
      obtain rfl := Except.ok.inj hfold
      exact ⟨nofun, by simpa using hstart⟩
  | cons target ts ih =>
      intro all start hstart hfold
      rw [List.foldlM_cons] at hfold
      cases hsources : targetSources cmake target with
      | error failure =>
          rw [hsources] at hfold
          cases hfold
      | ok files =>
          have hlisted : listed cmake target = files := by rw [listed, hsources]
          rw [hsources] at hfold
          obtain ⟨hall, hkept⟩ := ih (all ++ files) _ (hstart.foldl files) hfold
          refine ⟨List.forall_mem_cons.mpr ⟨hlisted ▸ hsources, hall⟩, ?_⟩
          rwa [List.flatMap_cons, hlisted, ← List.append_assoc]

/-- What `collect` returns is a selection from what was gathered. -/
theorem collect_eq_ok {cmake : Text} {core ares : List Text}
    (hcollect : collect cmake = .ok (core, ares)) :
    ∃ ordered, gather cmake = .ok ordered ∧ dupDescriptor ∈ ordered ∧
      ares = ordered.filter isAres ∧ ares ≠ [] ∧
      core = ordered.filter fun f => f ≠ dupDescriptor && !ares.contains f := by
  rw [collect] at hcollect
  obtain ⟨ordered, hgather, hselect⟩ := bind_eq_ok_iff.mp hcollect
  simp only [bind, Except.bind, pure, Except.pure, throw, throwThe, MonadExceptOf.throw]
    at hselect
  split at hselect
  case isTrue => cases hselect
  case isFalse hdup =>
  split at hselect
  case isTrue => cases hselect
  case isFalse hares =>
      obtain ⟨rfl, rfl⟩ := Prod.mk.inj (Except.ok.inj hselect)
      exact ⟨ordered, hgather, not_not.mp hdup, rfl, fun hnil => hares (by simp [hnil]), rfl⟩

theorem mem_sourceLines {body f : Text} (hf : f ∈ sourceLines body) {c : Char} (hc : c ∈ f) :
    isLineBreak c = false := by
  obtain ⟨line, hline, rfl⟩ := List.mem_map.mp (List.mem_filter.mp hf).1
  exact isLineBreak_of_mem_splitlines hline (mem_of_mem_strip hc)

/-- No path of the lists spans two lines. -/
theorem isLineBreak_of_mem_collect {cmake : Text} {core ares : List Text}
    (hcollect : collect cmake = .ok (core, ares)) {f : Text} (hf : f ∈ core ++ ares) {c : Char}
    (hc : c ∈ f) : isLineBreak c = false := by
  obtain ⟨ordered, hgather, -, hares, -, hcore⟩ := collect_eq_ok hcollect
  obtain ⟨htargets, hkept⟩ := gather_eq_ok hgather
  have hordered : f ∈ ordered := by
    rcases List.mem_append.mp hf with hf | hf
    · exact (List.mem_filter.mp (hcore ▸ hf)).1
    · exact (List.mem_filter.mp (hares ▸ hf)).1
  obtain ⟨target, htarget, hfile⟩ := List.mem_flatMap.mp ((hkept.mem_iff f).mp hordered)
  have hsources := htargets target htarget
  rw [targetSources] at hsources
  split at hsources
  case h_1 body _ => exact mem_sourceLines (Except.ok.inj hsources ▸ hfile) hc
  case h_2 => cases hsources

end GrpcM.GenSources
