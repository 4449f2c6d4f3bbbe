import GrpcM.GenSources.CMake
import GrpcM.GenSources.CheckText
import GrpcM.Toml.ArrayLines

/-!
What a passed check says about the manifest as TOML. The check compares text, and
the text that it compares need not be the one that TOML reads: the array that the
script finds may belong to another key, and a path may hold a quote.
-/

namespace GrpcM.GenSources

open GrpcM.Cut GrpcM.Lines GrpcM.Path GrpcM.Python GrpcM.Toml

def buildTable : Address := address [lit "build"]

def aresTable : Address := address [lit "features", lit "ares"]

def buildSources : Address := address [lit "build", lit "sources"]

def aresSources : Address := address [lit "features", lit "ares", lit "sources"]

def vendored (p : Text) : Text := vendor ++ '/' :: p

def libRoot : List Text := [lit "src/grpc.cppm", lit "src/macros.cppm"]

def strings (ts : List Text) : Value := .array (ts.map .string)

/-- The two lists are the values of the manifest. -/
structure Sound (doc : Document) (core ares : List Text) : Prop where
  core_value : doc.get? buildSources = some (strings (libRoot ++ core.map vendored))
  ares_value : doc.get? aresSources = some (strings (ares.map vendored))

/-- If the check passes, the manifest has the values that it is checked against. -/
def CheckSound (cmakeFile manifestFile : Text) : Prop :=
  ∀ doc core ares, parse (universalNewlines manifestFile) = some doc →
    doc.hasTable buildTable = true → doc.hasTable aresTable = true →
    collect (universalNewlines cmakeFile) = .ok (core, ares) →
    (main true cmakeFile manifestFile).1.exitCode = 0 → Sound doc core ares

/-! ### The array that the script finds -/

/-- From where to where `replace_array` rewrites. -/
def findArray (text sectionMarker : Text) : Except Failure (Nat × Nat) := do
  let start ← index text sectionMarker 0
  let arr := (← index text beginCore start) + beginCore.length
  let stop ← index text closing arr
  return (arr, stop)

/-- The array that the script finds is the value of `a`. -/
def findsValue (text sectionMarker : Text) (a : Address) : Bool :=
  match findArray text sectionMarker with
  | .ok found => (Reader.run {} (text.take found.1)).any (·.opensAt a)
  | .error _ => false

variable {text marker head old rest : Text} {a : Address} {doc : Document}
  {core ares : List Text} {cmakeFile manifestFile : Text}

theorem exists_arrayAt_of_findArray {found : Nat × Nat}
    (hfind : findArray text marker = .ok found) :
    ∃ head old rest, ArrayAt text marker head old rest ∧
      text.take found.1 = head ++ beginCore := by
  obtain ⟨start, hstart, hfind⟩ := bind_eq_ok_iff.mp hfind
  obtain ⟨arr, harr, hfind⟩ := bind_eq_ok_iff.mp hfind
  obtain ⟨stop, hstop, hfound⟩ := bind_eq_ok_iff.mp hfind
  obtain rfl := Except.ok.inj hfound
  obtain ⟨head, old, rest, harray, rfl⟩ := exists_arrayAt_of_index hstart harr hstop
  refine ⟨head, old, rest, harray, ?_⟩
  rw [harray.text_eq, ← List.append_assoc head, ← List.length_append, List.take_left]

theorem exists_opens_of_findsValue (hfinds : findsValue text marker a = true) :
    ∃ head old rest r, ArrayAt text marker head old rest ∧
      Reader.run {} (head ++ beginCore) = some r ∧ r.opensAt a = true := by
  rw [findsValue] at hfinds
  split at hfinds
  case h_1 found hfind =>
      obtain ⟨head, old, rest, harray, htake⟩ := exists_arrayAt_of_findArray hfind
      rw [htake, Option.any_eq_true] at hfinds
      obtain ⟨r, hrun, hopens⟩ := hfinds
      exact ⟨head, old, rest, r, harray, hrun, hopens⟩
  case h_2 => cases hfinds

theorem ne_of_opensAt {r r' : Reader} {head' : Text} {b : Address} (hne : a ≠ b)
    (hrun : Reader.run {} (head ++ beginCore) = some r) (hopens : r.opensAt a = true)
    (hrun' : Reader.run {} (head' ++ beginCore) = some r') (hopens' : r'.opensAt b = true) :
    head ≠ head' := by
  rintro rfl
  obtain rfl := Option.some.inj (hrun.symm.trans hrun')
  have hmode := congrArg Reader.mode (Reader.eq_of_opensAt hopens)
  have hmode' := congrArg Reader.mode (Reader.eq_of_opensAt hopens')
  have hpending := Mode.value.inj (hmode.symm.trans hmode')
  exact hne (Pending.mk.inj hpending).1

theorem exists_run_array (hparse : parse text = some doc)
    (harray : ArrayAt text marker head old rest) {r : Reader}
    (hrun : Reader.run {} (head ++ beginCore) = some r) (hopens : r.opensAt a = true) :
    ∃ r', (r.setMode (.value ⟨a, [.array []]⟩)).run
        (old ++ ']' :: '\n' :: (rest ++ ['\n'])) = some r' ∧
      r'.doc = doc ∧ r'.mode.pending? = none := by
  obtain ⟨r', hread, hend⟩ := Option.bind_eq_some_iff.mp hparse
  have htext : text ++ ['\n'] =
      head ++ beginCore ++ (old ++ ']' :: '\n' :: (rest ++ ['\n'])) := by
    rw [harray.text_eq, closing_eq]
    simp only [List.append_assoc]
    rfl
  rw [htext, Reader.run_append, hrun, Option.bind_some, Reader.eq_of_opensAt hopens] at hread
  refine ⟨r', hread, ?_⟩
  split at hend
  case h_1 hmode => exact ⟨Option.some.inj hend, by rw [hmode]; rfl⟩
  case h_2 => cases hend

/-! ### The bodies as lines of strings -/

def indent : Text := lit "    "

theorem renderPath_eq (p : Text) : renderPath p = itemLine indent (vendored p) := by
  have hquote : lit "    \"" = indent ++ ['"'] := rfl
  have hend : lit "\",\n" = ['"', ',', '\n'] := rfl
  simp only [renderPath, itemLine, vendored, hquote, hend, List.append_assoc, List.cons_append,
    List.nil_append]

theorem render_eq_lines (paths : List Text) :
    render paths false = (paths.map vendored).flatMap (itemLine indent) := by
  rw [render, List.flatMap_map]
  exact List.flatMap_congr fun p _ => renderPath_eq p

theorem libRootPreamble_eq : ∃ ws : List Text, (∀ w ∈ ws, '\n' ∉ w) ∧
    libRootPreamble = ws.flatMap (commentLine indent) ++ libRoot.flatMap (itemLine indent) := by
  refine ⟨(preambleLines.take 3).map (·.drop 5), ?_, by decide +kernel⟩
  intro w hw hmem
  obtain ⟨l, hl, rfl⟩ := List.mem_map.mp hw
  exact (preambleLines_free l (List.mem_of_mem_take hl)).1 (List.mem_of_mem_drop hmem)

theorem indent_isWs : indent.all isWs = true := rfl

theorem exists_head?_vendored {ws : List Text} (hws : ∀ w ∈ ws, w ∈ libRoot ∨ ∃ p, w = vendored p) :
    ∀ w ∈ ws, ∃ c ∈ w.head?, IsPlain c := by
  intro w hw
  rcases hws w hw with hw | ⟨p, rfl⟩
  · have hlibRoot : ∀ w ∈ libRoot, w.head? = some 's' := by simp [libRoot, lit]
    exact ⟨'s', hlibRoot w hw, by decide⟩
  · exact ⟨'t', rfl, by decide⟩

/-- What is written to [features.ares] is read as it is, or not. -/
theorem get?_render_ares {r r' : Reader} {tail : Text} (hmode : r'.mode.pending? = none)
    (hrun : (r.setMode (.value ⟨a, [.array []]⟩)).run (render ares false ++ ']' :: tail) =
      some r') :
    r'.doc.get? a = some (strings (ares.map vendored)) ↔
      ∀ w ∈ ares.map vendored, ∀ c ∈ w, IsPlain c := by
  rw [render_eq_lines] at hrun
  have hheads : ∀ w ∈ ares.map vendored, ∃ c ∈ w.head?, IsPlain c := by
    refine exists_head?_vendored fun w hw => Or.inr ?_
    obtain ⟨p, -, rfl⟩ := List.mem_map.mp hw
    exact ⟨p, rfl⟩
  exact Reader.get?_lines_iff indent_isWs hheads hmode hrun

/-- What is written to [build]; the comments are passed over. -/
theorem get?_render_core {r r' : Reader} {tail : Text} (hmode : r'.mode.pending? = none)
    (hrun : (r.setMode (.value ⟨a, [.array []]⟩)).run (render core true ++ ']' :: tail) =
      some r') :
    r'.doc.get? a = some (strings (libRoot ++ core.map vendored)) ↔
      ∀ w ∈ libRoot ++ core.map vendored, ∀ c ∈ w, IsPlain c := by
  obtain ⟨ws, hws, hpreamble⟩ := libRootPreamble_eq
  have hrender : render core true = ws.flatMap (commentLine indent) ++
      (libRoot ++ core.map vendored).flatMap (itemLine indent) := by
    have hbody := render_eq_lines core
    simp only [render, Bool.false_eq_true, if_false] at hbody
    simp only [render, if_true, hpreamble, hbody, List.flatMap_append, List.append_assoc]
  rw [hrender, List.append_assoc, Reader.run_append, Reader.run_comments indent_isWs hws,
    Option.bind_some] at hrun
  have hheads : ∀ w ∈ libRoot ++ core.map vendored, ∃ c ∈ w.head?, IsPlain c := by
    refine exists_head?_vendored fun w hw => ?_
    rcases List.mem_append.mp hw with hw | hw
    · exact Or.inl hw
    · obtain ⟨p, -, rfl⟩ := List.mem_map.mp hw
      exact Or.inr ⟨p, rfl⟩
  exact Reader.get?_lines_iff indent_isWs hheads hmode hrun

theorem isPlain_vendored_iff {p : Text} (hline : '\n' ∉ p) :
    (∀ c ∈ vendored p, IsPlain c) ↔ '"' ∉ p ∧ '\\' ∉ p := by
  have hvendor : ∀ c ∈ vendor ++ ['/'], IsPlain c := by
    have hall : (vendor ++ ['/']).all (IsPlain ·) = true := rfl
    exact fun c hc => of_decide_eq_true (List.all_eq_true.mp hall c hc)
  have hsplit : vendored p = vendor ++ ['/'] ++ p := by simp [vendored]
  rw [hsplit, List.forall_mem_append, and_iff_right hvendor]
  constructor
  · intro hplain
    exact ⟨fun hmem => (hplain _ hmem).1 rfl, fun hmem => (hplain _ hmem).2.1 rfl⟩
  · rintro ⟨hquote, hslash⟩ c hc
    refine ⟨?_, ?_, ?_⟩
    · rintro rfl
      exact hquote hc
    · rintro rfl
      exact hslash hc
    · rintro rfl
      exact hline hc

/-! ### The check -/

theorem exitCode_check_iff (hcollect : collect (universalNewlines cmakeFile) = .ok (core, ares)) :
    (main true cmakeFile manifestFile).1.exitCode = 0 ↔
      regenerate (universalNewlines manifestFile) core ares =
        .ok (universalNewlines manifestFile) := by
  simp only [main, hcollect, if_true]
  cases hregenerate : regenerate (universalNewlines manifestFile) core ares with
  | error failure => simp [Outcome.exitCode]
  | ok updated =>
      by_cases heq : updated = universalNewlines manifestFile
      · simp [heq, Outcome.exitCode]
      · simp [heq, Outcome.exitCode]

/-- The values of the manifest after a passed check, where the script finds the arrays that
TOML reads. -/
theorem sound_iff (hparse : parse text = some doc)
    (hbuild : findsValue text buildMarker buildSources = true)
    (hares : findsValue text aresMarker aresSources = true)
    (hfree : ∀ p ∈ core ++ ares, '\n' ∉ p) (hregenerate : regenerate text core ares = .ok text) :
    doc.hasTable buildTable = true ∧ doc.hasTable aresTable = true ∧
      (Sound doc core ares ↔ ∀ p ∈ core ++ ares, '"' ∉ p ∧ '\\' ∉ p) := by
  obtain ⟨head, old, rest, r, harray, hrun, hopens⟩ := exists_opens_of_findsValue hbuild
  obtain ⟨head', old', rest', r', harray', hrun', hopens'⟩ := exists_opens_of_findsValue hares
  have hne : head ≠ head' := ne_of_opensAt (by decide) hrun hopens hrun' hopens'
  have hcore : ∀ p ∈ core, '\n' ∉ p := fun p hp => hfree p (List.mem_append_left _ hp)
  have haresFree : ∀ p ∈ ares, '\n' ∉ p := fun p hp => hfree p (List.mem_append_right _ hp)
  have hcoreBody : IsBody aresHeader (render core true) := isBody_render rfl hcore true
  have haresBody : IsBody buildHeader (render ares false) := isBody_render rfl haresFree false
  obtain ⟨rfl, rfl⟩ := eq_of_regenerate harray harray' hne hcoreBody.first_closing
    haresBody.first_closing hregenerate
  obtain ⟨last, hread, hdoc, hmode⟩ := exists_run_array hparse harray hrun hopens
  obtain ⟨last', hread', hdoc', hmode'⟩ := exists_run_array hparse harray' hrun' hopens'
  obtain ⟨items, hget⟩ := Reader.exists_get?_of_run hmode hread
  obtain ⟨items', hget'⟩ := Reader.exists_get?_of_run hmode' hread'
  have hcoreValue := get?_render_core hmode hread
  have haresValue := get?_render_ares hmode' hread'
  rw [hdoc] at hget hcoreValue
  rw [hdoc'] at hget' haresValue
  refine ⟨Document.hasTable_of_get? hget, Document.hasTable_of_get? hget', ?_⟩
  have hlibRoot : ∀ w ∈ libRoot, ∀ c ∈ w, IsPlain c := by
    have hall : ∀ w ∈ libRoot, w.all (IsPlain ·) = true := List.all_eq_true.mp rfl
    exact fun w hw c hc => of_decide_eq_true (List.all_eq_true.mp (hall w hw) c hc)
  have hsound : Sound doc core ares ↔ (∀ w ∈ libRoot ++ core.map vendored, ∀ c ∈ w, IsPlain c) ∧
      ∀ w ∈ ares.map vendored, ∀ c ∈ w, IsPlain c := by
    rw [← hcoreValue, ← haresValue]
    exact ⟨fun h => ⟨h.core_value, h.ares_value⟩, fun h => ⟨h.1, h.2⟩⟩
  rw [hsound, List.forall_mem_append, and_iff_right hlibRoot, ← List.forall_mem_append,
    ← List.map_append, List.forall_mem_map]
  exact forall₂_congr fun p hp => isPlain_vendored_iff (hfree p hp)

/-- Where the two arrays that the script finds are the values of the two keys, a passed check
is sound if and only if no path holds a quote or a backslash. -/
theorem checkSound_iff (hparse : parse (universalNewlines manifestFile) = some doc)
    (hcollect : collect (universalNewlines cmakeFile) = .ok (core, ares))
    (hcheck : (main true cmakeFile manifestFile).1.exitCode = 0)
    (hbuild : findsValue (universalNewlines manifestFile) buildMarker buildSources = true)
    (hares : findsValue (universalNewlines manifestFile) aresMarker aresSources = true) :
    CheckSound cmakeFile manifestFile ↔ ∀ p ∈ core ++ ares, '"' ∉ p ∧ '\\' ∉ p := by
  have hfree : ∀ p ∈ core ++ ares, '\n' ∉ p := by
    intro p hp hmem
    have hbreak := isLineBreak_of_mem_collect hcollect hp hmem
    revert hbreak
    decide
  obtain ⟨hbuildTable, haresTable, hsound⟩ :=
    sound_iff hparse hbuild hares hfree ((exitCode_check_iff hcollect).mp hcheck)
  rw [← hsound]
  constructor
  · intro hall
    exact hall doc core ares hparse hbuildTable haresTable hcollect hcheck
  · intro hread doc' core' ares' hparse' _ _ hcollect' _
    obtain rfl := Option.some.inj (hparse.symm.trans hparse')
    obtain ⟨rfl, rfl⟩ := Prod.mk.inj (Except.ok.inj (hcollect.symm.trans hcollect'))
    exact hread

/-! ### Two manifests -/

def sampleCore : List Text := [lit "src/core/b.cc", lit "src/cpp/a.cc", lit "sort.c"]

def sampleAres : List Text := [lit "src/core/c_ares/c.cc"]

/-- Both lists in their places. -/
def sampleManifest : Text :=
  unlines '\n' [lit "[package]", lit "[build]", opening] ++ (render sampleCore true ++
    (unlines '\n' [lit "]", lit "[features.ares]", opening] ++
      (render sampleAres false ++ closing)))

theorem collect_sampleFile :
    collect (universalNewlines (fileText sampleItems)) = .ok (sampleCore, sampleAres) := by
  rw [universalNewlines_of_not_mem (by decide +kernel)]
  exact collect_sampleItems

theorem sampleManifest_read : '\r' ∉ sampleManifest ∧ (parse sampleManifest).isSome = true ∧
    findsValue sampleManifest buildMarker buildSources = true ∧
    findsValue sampleManifest aresMarker aresSources = true ∧
    regenerate sampleManifest sampleCore sampleAres = .ok sampleManifest := by
  decide +kernel

theorem checkSound_sampleManifest : CheckSound (fileText sampleItems) sampleManifest := by
  obtain ⟨hreturn, hvalid, hbuild, hares, hregenerate⟩ := sampleManifest_read
  rw [← universalNewlines_of_not_mem hreturn] at hvalid hbuild hares hregenerate
  obtain ⟨doc, hparse⟩ := Option.isSome_iff_exists.mp hvalid
  exact (checkSound_iff hparse collect_sampleFile
    ((exitCode_check_iff collect_sampleFile).mpr hregenerate) hbuild hares).mpr (by decide +kernel)

/-- No sources in [build]. The script finds the array of the next section twice. -/
def driftedManifest : Text :=
  unlines '\n' [lit "[package]", lit "[build]", lit "[features.ares]", opening] ++
    (render sampleAres false ++ closing)

theorem driftedManifest_read : '\r' ∉ driftedManifest ∧
    (parse driftedManifest).any (fun doc => doc.hasTable buildTable && doc.hasTable aresTable &&
      (doc.get? buildSources).isNone) = true ∧
    regenerate driftedManifest sampleCore sampleAres = .ok driftedManifest := by
  decide +kernel

theorem not_checkSound_driftedManifest : ¬CheckSound (fileText sampleItems) driftedManifest := by
  intro hsound
  obtain ⟨hreturn, hvalid, hregenerate⟩ := driftedManifest_read
  rw [← universalNewlines_of_not_mem hreturn] at hvalid hregenerate
  obtain ⟨doc, hparse, hdoc⟩ := (Option.any_eq_true _ _).mp hvalid
  simp only [Bool.and_eq_true, Option.isNone_iff_eq_none] at hdoc
  have hread := hsound doc sampleCore sampleAres hparse hdoc.1.1 hdoc.1.2 collect_sampleFile
    ((exitCode_check_iff collect_sampleFile).mpr hregenerate)
  have hvalue := hread.core_value
  rw [hdoc.2] at hvalue
  cases hvalue

end GrpcM.GenSources
