import GrpcM.Path.Lexical

/-!
Path text read as a place: empty components and `.` do not count, `..` is kept
as it is written. This is the reading under which a tool compares the
directories it was given with the files it was given, without asking the file
system.
-/

namespace GrpcM.Path

structure Location where
  absolute : Bool
  names : List Text
  deriving DecidableEq, Repr

/-- The place a path text names. -/
def locate (p : Text) : Location :=
  ⟨isAbsolute p, (filenames p).filter (fun n => n ≠ ['.'])⟩

/-- A directory's own place is a prefix of the place of what lies in it. -/
def Location.IsPrefix (dir file : Location) : Prop :=
  dir.absolute = file.absolute ∧ dir.names <+: file.names

instance (dir file : Location) : Decidable (dir.IsPrefix file) :=
  inferInstanceAs (Decidable (_ ∧ _))

def Location.below (dir file : Location) : List Text :=
  file.names.drop dir.names.length

theorem Location.IsPrefix.refl (l : Location) : l.IsPrefix l :=
  ⟨rfl, List.prefix_rfl⟩

theorem Location.IsPrefix.append_below {dir file : Location} (h : dir.IsPrefix file) :
    dir.names ++ dir.below file = file.names := by
  obtain ⟨rest, hrest⟩ := h.2
  simp [Location.below, ← hrest]

/-- Two directories that reach one place by the same names are the same place. -/
theorem Location.eq_of_below_eq {dir dir' file : Location} (h : dir.IsPrefix file)
    (h' : dir'.IsPrefix file) (hbelow : dir.below file = dir'.below file) : dir = dir' := by
  have hnames : dir.names = dir'.names := by
    apply (List.append_left_inj (dir.below file)).mp
    rw [h.append_below, hbelow, h'.append_below]
  obtain ⟨a, ns⟩ := dir
  obtain ⟨a', ns'⟩ := dir'
  simp only [Location.mk.injEq]
  exact ⟨h.1.trans h'.1.symm, hnames⟩

theorem locate_append_slash {p : Text} (q : Text) (hp : p ≠ []) :
    locate (p ++ '/' :: q) = ⟨isAbsolute p, (locate p).names ++ (locate q).names⟩ := by
  simp only [locate, filenames_append_slash, List.filter_append,
    isAbsolute_append_text _ hp]

@[simp] theorem locate_genericString (p : Text) : locate (genericString p) = locate p := by
  simp [locate]

theorem locate_append {p q : Text} (hp : p ≠ []) (hq : isAbsolute q = false) :
    locate (append p q) = ⟨isAbsolute p, (locate p).names ++ (locate q).names⟩ := by
  simp only [locate, filenames_append hq, List.filter_append, isAbsolute_append hp hq]

theorem locate_isPrefix_append_slash {p : Text} (q : Text) (hp : p ≠ []) :
    (locate p).IsPrefix (locate (p ++ '/' :: q)) := by
  rw [locate_append_slash q hp]
  exact ⟨rfl, List.prefix_append _ _⟩

theorem locate_below_append_slash {p : Text} (q : Text) (hp : p ≠ []) :
    (locate p).below (locate (p ++ '/' :: q)) = (locate q).names := by
  simp [locate_append_slash q hp, Location.below]

theorem locate_join {ns : List Text} (h : ∀ n ∈ ns, IsProperName n) :
    locate (join ns) = ⟨false, ns⟩ := by
  have hfile : ∀ n ∈ ns, IsFilename n := fun n hn => (h n hn).1
  rw [locate, isAbsolute_join hfile, filenames_join hfile]
  congr 1
  exact List.filter_eq_self.mpr fun n hn => by simpa using (h n hn).2.1

/-! ### Going back up

`..` takes back the name before it, at the root directory it takes back nothing,
and at the beginning of a relative place it stays.
-/

/-- One name on the way, the way so far being kept last name first. -/
def backStep (absolute : Bool) (kept : List Text) (n : Text) : List Text :=
  if n = dotDot then
    match kept with
    | [] => if absolute then [] else [dotDot]
    | k :: ks => if k = dotDot then dotDot :: k :: ks else ks
  else n :: kept

def Location.normal (l : Location) : Location :=
  ⟨l.absolute, (l.names.foldl (backStep l.absolute) []).reverse⟩

/-- From a directory on along the names of a relative place. -/
def Location.along (dir l : Location) : Location := ⟨dir.absolute, dir.names ++ l.names⟩

theorem fst_normalStep {absolute : Bool} (st : List Text × Bool) {n : Text} (hn : n ≠ dot) :
    (normalStep absolute st n).1 = backStep absolute st.1 n := by
  obtain ⟨kept, trailing⟩ := st
  unfold normalStep backStep
  rw [if_neg hn]
  split
  · cases kept with
    | nil => cases absolute <;> rfl
    | cons k ks =>
        simp only
        split <;> rfl
  · rfl

theorem fst_foldl_normalStep (absolute : Bool) (ns : List Text) (st : List Text × Bool) :
    (ns.foldl (normalStep absolute) st).1 =
      (ns.filter fun n => n ≠ dot).foldl (backStep absolute) st.1 := by
  induction ns generalizing st with
  | nil => rfl
  | cons n ns ih =>
      rw [List.foldl_cons, ih]
      by_cases hn : n = dot
      · subst hn
        simp [normalStep]
      · rw [List.filter_cons_of_pos (by simpa using hn), List.foldl_cons, fst_normalStep st hn]

theorem backStep_ne_dot {absolute : Bool} {kept : List Text} {n : Text}
    (hkept : ∀ k ∈ kept, k ≠ dot) (hn : n ≠ dot) : ∀ k ∈ backStep absolute kept n, k ≠ dot := by
  have hdots : dotDot ≠ dot := by decide
  unfold backStep
  split
  · cases kept with
    | nil => cases absolute <;> simp [hdots]
    | cons k ks =>
        simp only
        split
        · simpa [hdots] using hkept
        · exact fun m hm => hkept m (List.mem_cons_of_mem _ hm)
  · simpa [hn] using hkept

theorem foldl_backStep_ne_dot (absolute : Bool) {ns kept : List Text}
    (hns : ∀ n ∈ ns, n ≠ dot) (hkept : ∀ k ∈ kept, k ≠ dot) :
    ∀ k ∈ ns.foldl (backStep absolute) kept, k ≠ dot := by
  induction ns generalizing kept with
  | nil => exact hkept
  | cons n ns ih =>
      have hn : n ≠ dot := hns n List.mem_cons_self
      exact ih (fun m hm => hns m (List.mem_cons_of_mem _ hm)) (backStep_ne_dot hkept hn)

/-- The normal form of a path is at the place its own place goes back to. -/
theorem locate_lexicallyNormal {p : Text} (hp : p ≠ []) :
    locate (lexicallyNormal p) = (locate p).normal := by
  have hnames : (normalNames p).1 = (locate p).names.foldl (backStep (isAbsolute p)) [] :=
    fst_foldl_normalStep _ _ _
  have hdots : ∀ k ∈ (locate p).names, k ≠ dot := fun k hk => by
    simpa [dot] using (List.mem_filter.mp hk).2
  have hkept : ∀ k ∈ (normalNames p).1, k ≠ dot := by
    rw [hnames]
    exact foldl_backStep_ne_dot _ hdots (by simp)
  have hfile := normalNames_isFilename p
  unfold lexicallyNormal
  rw [if_neg hp]
  split
  · next hdot =>
      -- everything cancelled, and `.` is the place without names
      obtain ⟨hnil, hrel⟩ : (normalNames p).1 = [] ∧ isAbsolute p = false := by simpa using hdot
      rw [Location.normal, show (locate p).absolute = isAbsolute p from rfl, ← hnames, hnil, hrel]
      decide +kernel
  · rw [locate, isAbsolute_render (by simpa using hfile), filenames_render (by simpa using hfile),
      Location.normal, show (locate p).absolute = isAbsolute p from rfl, ← hnames,
      List.filter_eq_self.mpr]
    intro k hk
    simpa [dot] using hkept k (List.mem_reverse.mp hk)

end GrpcM.Path
