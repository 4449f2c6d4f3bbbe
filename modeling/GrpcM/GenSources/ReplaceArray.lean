import GrpcM.GenSources.Collect
import GrpcM.Lines

/-!
The rewriting of the manifest. `replace_array` looks for a section marker, from
there for the opening of an array and from there for a closing bracket, each time
for the first one in the text; `main` does so for two sections in turn.
-/

namespace GrpcM.GenSources

open GrpcM.Cut GrpcM.Lines GrpcM.Path GrpcM.Python

/-! ### What is written -/

def preambleLines : List Text :=
  [lit "    # The lib root: the C++23 module interface. mcpp resolves the lib root",
    lit "    # of a `kind = \"lib\"` package as src/<package tail>.cppm, so this file",
    lit "    # is both the module and what satisfies that convention.",
    lit "    \"src/grpc.cppm\",",
    lit "    \"src/macros.cppm\","]

def libRootPreamble : Text := unlines '\n' preambleLines

def renderPath (p : Text) : Text := lit "    \"" ++ vendor ++ '/' :: (p ++ lit "\",\n")

def render (paths : List Text) (withLibRoot : Bool) : Text :=
  let body := paths.flatMap renderPath
  if withLibRoot then libRootPreamble ++ body else body

/-! ### One array -/

def beginCore : Text := lit "sources = [\n"

def closing : Text := lit "]\n"

def index (text sub : Text) (start : Nat) : Except Failure Nat :=
  match cut sub (text.drop start) with
  | some parts => .ok (start + parts.1.length)
  | none => .error .valueError

/-- Replace the first `sources = [ ... ]` array after the section marker. -/
def replaceArray (text sectionMarker body : Text) : Except Failure Text := do
  let start ← index text sectionMarker 0
  let arr := (← index text beginCore start) + beginCore.length
  let stop ← index text closing arr
  return text.take arr ++ body ++ text.drop stop

/-! ### The script -/

def buildMarker : Text := lit "\n[build]\n"

def aresMarker : Text := lit "\n[features.ares]\n"

def regenerate (original : Text) (core ares : List Text) : Except Failure Text := do
  let updated ← replaceArray original buildMarker (render core true)
  replaceArray updated aresMarker (render ares false)

inductive Outcome where
  | failed (failure : Failure)
  | outOfDate
  | upToDate (core ares : Nat)
  | updated (core ares : Nat)
  deriving DecidableEq, Repr

def Outcome.exitCode : Outcome → Nat
  | .failed _ => 1
  | .outOfDate => 1
  | .upToDate _ _ => 0
  | .updated _ _ => 0

def sourcesText (core ares : Nat) : Text :=
  Nat.toDigits 10 core ++ lit " sources + " ++ Nat.toDigits 10 ares ++ lit " ares"

/-- What is printed; an exception prints its own traceback. -/
def Outcome.message : Outcome → Option Text
  | .failed (.exit text) => some text
  | .failed .valueError => none
  | .outOfDate => some (lit "mcpp.toml is out of date — run tools/gen_sources.py")
  | .upToDate core ares =>
      some (lit "mcpp.toml is up to date (" ++ sourcesText core ares ++ lit ")")
  | .updated core ares => some (lit "mcpp.toml updated: " ++ sourcesText core ares)

/-- A run on the contents of CMakeLists.txt and of the manifest: how it ends, and what the
manifest holds after it. -/
def main (check : Bool) (cmakeFile manifestFile : Text) : Outcome × Text :=
  let original := universalNewlines manifestFile
  match collect (universalNewlines cmakeFile) with
  | .error failure => (.failed failure, manifestFile)
  | .ok (core, ares) =>
      match regenerate original core ares with
      | .error failure => (.failed failure, manifestFile)
      | .ok updated =>
          if check then
            if updated ≠ original then (.outOfDate, manifestFile)
            else (.upToDate core.length ares.length, manifestFile)
          else (.updated core.length ares.length, updated)

/-! ### What one rewriting does -/

/-- The array that is rewritten: what comes before its opening, its body, and what comes
after its closing bracket. -/
structure ArrayAt (text sectionMarker head body rest : Text) : Prop where
  text_eq : text = head ++ (beginCore ++ (body ++ (closing ++ rest)))
  anchors : ∃ before gap after, head = before ++ gap ∧
    text = before ++ (sectionMarker ++ after) ∧ First sectionMarker before ∧
    First beginCore gap
  first_closing : First closing body

theorem index_eq_ok_iff {u t sub : Text} {i : Nat} :
    index (u ++ t) sub u.length = .ok i ↔
      ∃ x y, t = x ++ (sub ++ y) ∧ First sub x ∧ i = (u ++ x).length := by
  simp only [index, List.drop_left, List.length_append]
  constructor
  · intro hindex
    split at hindex
    case h_1 parts hcut =>
        obtain ⟨ht, hfirst⟩ := cut_eq_some_iff.mp hcut
        exact ⟨parts.1, parts.2, ht, hfirst, (Except.ok.inj hindex).symm⟩
    case h_2 => cases hindex
  · rintro ⟨x, y, rfl, hfirst, rfl⟩
    rw [cut_eq_some_iff.mpr ⟨rfl, hfirst⟩]

theorem replaceArray_of_index {text sectionMarker body : Text} {start arr stop : Nat}
    (hstart : index text sectionMarker 0 = .ok start) (harr : index text beginCore start = .ok arr)
    (hstop : index text closing (arr + beginCore.length) = .ok stop) :
    replaceArray text sectionMarker body =
      .ok (text.take (arr + beginCore.length) ++ body ++ text.drop stop) := by
  rw [replaceArray, hstart]
  simp only [bind, Except.bind, harr, hstop]
  rfl

theorem exists_index_of_replaceArray {text sectionMarker body out : Text}
    (hrun : replaceArray text sectionMarker body = .ok out) :
    ∃ start arr stop, index text sectionMarker 0 = .ok start ∧
      index text beginCore start = .ok arr ∧
      index text closing (arr + beginCore.length) = .ok stop := by
  obtain ⟨start, hstart, hrun⟩ := bind_eq_ok_iff.mp hrun
  obtain ⟨arr, harr, hrun⟩ := bind_eq_ok_iff.mp hrun
  obtain ⟨stop, hstop, -⟩ := bind_eq_ok_iff.mp hrun
  exact ⟨start, arr, stop, hstart, harr, hstop⟩

theorem ArrayAt.replaceArray {text sectionMarker head old rest : Text}
    (harray : ArrayAt text sectionMarker head old rest) (body : Text) :
    replaceArray text sectionMarker body =
      .ok (head ++ (beginCore ++ (body ++ (closing ++ rest)))) := by
  obtain ⟨htext, ⟨before, gap, after, rfl, hmarker, hbefore, hgap⟩, hclosing⟩ := harray
  have hstart : index text sectionMarker 0 = .ok before.length := by
    rw [hmarker]
    exact (index_eq_ok_iff (u := [])).mpr ⟨before, after, rfl, hbefore, rfl⟩
  have harr : index text beginCore before.length = .ok (before ++ gap).length := by
    rw [htext, List.append_assoc]
    exact index_eq_ok_iff.mpr ⟨gap, old ++ (closing ++ rest), rfl, hgap, rfl⟩
  have hopened : text = (before ++ gap ++ beginCore) ++ (old ++ (closing ++ rest)) := by
    rw [htext]
    simp only [List.append_assoc]
  have hstop : index text closing ((before ++ gap).length + beginCore.length) =
      .ok (before ++ gap ++ beginCore ++ old).length := by
    rw [← List.length_append, hopened]
    exact index_eq_ok_iff.mpr ⟨old, rest, rfl, hclosing, rfl⟩
  rw [replaceArray_of_index hstart harr hstop, ← List.length_append, hopened, List.take_left,
    ← List.append_assoc _ old, List.drop_left]
  simp only [List.append_assoc]

theorem exists_arrayAt_of_index {text sectionMarker : Text} {start arr stop : Nat}
    (hstart : index text sectionMarker 0 = .ok start) (harr : index text beginCore start = .ok arr)
    (hstop : index text closing (arr + beginCore.length) = .ok stop) :
    ∃ head old rest, ArrayAt text sectionMarker head old rest ∧ head.length = arr := by
  obtain ⟨before, after, hmarker, hbefore, rfl⟩ := (index_eq_ok_iff (u := [])).mp hstart
  obtain ⟨gap, fromArr, hgap, hfirst, rfl⟩ := index_eq_ok_iff.mp (hmarker ▸ harr)
  have hopened : text = (before ++ gap ++ beginCore) ++ fromArr := by
    rw [hmarker, hgap]
    simp only [List.append_assoc]
  rw [← List.length_append, hopened] at hstop
  obtain ⟨old, rest, rfl, hclosing, rfl⟩ := index_eq_ok_iff.mp hstop
  exact ⟨before ++ gap, old, rest, ⟨by simpa only [List.append_assoc] using hopened,
    ⟨before, gap, after, rfl, hmarker, hbefore, hfirst⟩, hclosing⟩, rfl⟩

/-- The text around the array stays as it is. -/
theorem replaceArray_eq_ok_iff {text sectionMarker body out : Text} :
    replaceArray text sectionMarker body = .ok out ↔
      ∃ head old rest, ArrayAt text sectionMarker head old rest ∧
        out = head ++ (beginCore ++ (body ++ (closing ++ rest))) := by
  constructor
  · intro hrun
    obtain ⟨start, arr, stop, hstart, harr, hstop⟩ := exists_index_of_replaceArray hrun
    obtain ⟨head, old, rest, harray, -⟩ := exists_arrayAt_of_index hstart harr hstop
    exact ⟨head, old, rest, harray, Except.ok.inj (hrun.symm.trans (harray.replaceArray body))⟩
  · rintro ⟨head, old, rest, harray, rfl⟩
    exact harray.replaceArray body

end GrpcM.GenSources
