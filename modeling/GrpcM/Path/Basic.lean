import Mathlib.Data.List.Basic
import Mathlib.Tactic.Common

/-!
POSIX paths as `std::filesystem::path` keeps them: a text, read through the
sequence of filenames between its separators. A run of slashes separates as
one slash does, so most facts about a path are facts about `filenames`, and
the one equation they rest on is `filenames_append_slash`.
-/

namespace GrpcM.Path

abbrev Text := List Char

def lit (s : String) : Text := s.toList

/-- The filenames of a path in order, without the root directory and without
the empty name after a trailing separator. -/
def filenames (p : Text) : List Text :=
  (p.splitOn '/').filter (fun n => n ≠ [])

def isAbsolute (p : Text) : Bool := p.head? == some '/'

/-- `has_filename`: nonempty and not ending in a separator. -/
def hasFilename (p : Text) : Bool := !p.isEmpty && p.getLast? != some '/'

/-- `operator/`: an absolute right side replaces the left one, otherwise a
separator goes between them when the left side ends in a filename. -/
def append (p q : Text) : Text :=
  if isAbsolute q then q
  else if hasFilename p then p ++ '/' :: q
  else p ++ q

def join (names : List Text) : Text := ['/'].intercalate names

/-- A path ending in a separator has an empty last element, unless it consists of
the root directory alone. -/
def hasTrailingSlash (p : Text) : Bool :=
  p.getLast? == some '/' && !(filenames p).isEmpty

/-- The sequence a `path` iterator runs through. -/
def elements (p : Text) : List Text :=
  (if isAbsolute p then [['/']] else []) ++ filenames p ++
    (if hasTrailingSlash p then [[]] else [])

def render (absolute : Bool) (names : List Text) (trailing : Bool) : Text :=
  (if absolute then ['/'] else []) ++ join names ++
    (if trailing && !names.isEmpty then ['/'] else [])

/-- `generic_string`: the same elements with single slashes as separators. -/
def genericString (p : Text) : Text :=
  render (isAbsolute p) (filenames p) (hasTrailingSlash p)

/-- What a directory iterator can list as a name. -/
def IsFilename (n : Text) : Prop := n ≠ [] ∧ '/' ∉ n

/-- A filename that is neither `.` nor `..`. -/
def IsProperName (n : Text) : Prop :=
  IsFilename n ∧ n ≠ ['.'] ∧ n ≠ ['.', '.']

instance : DecidablePred IsFilename := fun n =>
  inferInstanceAs (Decidable (n ≠ [] ∧ '/' ∉ n))

instance : DecidablePred IsProperName := fun n =>
  inferInstanceAs (Decidable (IsFilename n ∧ n ≠ ['.'] ∧ n ≠ ['.', '.']))

theorem forall_bne_of_not_mem {s : Text} {x : Char} (hx : x ∉ s) :
    ∀ c ∈ s, (c != x) = true := by
  intro c hc
  have hne : c ≠ x := fun heq => hx (heq ▸ hc)
  simpa using hne

/-! ### Filenames -/

@[simp] theorem filenames_nil : filenames [] = [] := rfl

theorem filenames_append_slash (p q : Text) :
    filenames (p ++ '/' :: q) = filenames p ++ filenames q := by
  simp [filenames, List.splitOn_append_cons_self, List.filter_append]

@[simp] theorem filenames_slash_cons (q : Text) :
    filenames ('/' :: q) = filenames q := by
  simpa using filenames_append_slash [] q

@[simp] theorem filenames_snoc_slash (p : Text) :
    filenames (p ++ ['/']) = filenames p := by
  simpa using filenames_append_slash p []

theorem filenames_of_isFilename {n : Text} (h : IsFilename n) : filenames n = [n] := by
  simp [filenames, List.splitOn_eq_singleton h.2, h.1]

private theorem not_mem_of_mem_splitOn {c : Char} :
    ∀ {t n : Text}, n ∈ t.splitOn c → c ∉ n
  | [], n, hn => by
      simp only [List.splitOn_nil, List.mem_singleton] at hn
      simp [hn]
  | x :: t, n, hn => by
      rw [List.splitOn_cons_eq_if_modifyHead] at hn
      split at hn
      · rcases List.mem_cons.mp hn with rfl | hn
        · simp
        · exact not_mem_of_mem_splitOn hn
      · next hx =>
        obtain ⟨m, ms, hm⟩ := List.exists_cons_of_ne_nil (List.splitOn_ne_nil c t)
        rw [hm, List.modifyHead_cons] at hn
        rcases List.mem_cons.mp hn with rfl | hn
        · intro hc
          rcases List.mem_cons.mp hc with rfl | hc
          · simp at hx
          · exact not_mem_of_mem_splitOn (hm ▸ List.mem_cons_self) hc
        · exact not_mem_of_mem_splitOn (hm ▸ List.mem_cons_of_mem _ hn)

theorem isFilename_of_mem_filenames {p n : Text} (h : n ∈ filenames p) : IsFilename n := by
  obtain ⟨hmem, hne⟩ := List.mem_filter.mp h
  exact ⟨by simpa using hne, not_mem_of_mem_splitOn hmem⟩

@[simp] theorem join_nil : join [] = [] := rfl

@[simp] theorem join_singleton (n : Text) : join [n] = n := by
  simp [join]

theorem join_cons_cons (n m : Text) (ns : List Text) :
    join (n :: m :: ns) = n ++ '/' :: join (m :: ns) := by
  simp [join, List.intercalate_cons_cons]

theorem filenames_join {ns : List Text} (h : ∀ n ∈ ns, IsFilename n) :
    filenames (join ns) = ns := by
  induction ns with
  | nil => rfl
  | cons n ns ih =>
      have hn : IsFilename n := h n List.mem_cons_self
      have hns := ih fun m hm => h m (List.mem_cons_of_mem _ hm)
      cases ns with
      | nil => simp [filenames_of_isFilename hn]
      | cons m ms =>
          rw [join_cons_cons, filenames_append_slash, hns, filenames_of_isFilename hn]
          rfl

theorem join_append {ns ms : List Text} (hn : ns ≠ []) (hm : ms ≠ []) :
    join (ns ++ ms) = join ns ++ '/' :: join ms := by
  induction ns with
  | nil => exact absurd rfl hn
  | cons n ns ih =>
      cases ns with
      | nil =>
          obtain ⟨m, ms, rfl⟩ := List.exists_cons_of_ne_nil hm
          simp [join_cons_cons]
      | cons n' ns =>
          rw [List.cons_append, List.cons_append, join_cons_cons, ← List.cons_append,
            ih (by simp), join_cons_cons]
          simp

/-- Text appended to the last name is appended to the whole. -/
theorem join_concat_append (ns : List Text) (n e : Text) :
    join (ns ++ [n ++ e]) = join (ns ++ [n]) ++ e := by
  cases ns with
  | nil => simp
  | cons m ms =>
      rw [join_append (by simp) (by simp), join_append (by simp) (by simp)]
      simp

theorem join_ne_nil {ns : List Text} (hne : ns ≠ []) (h : ∀ n ∈ ns, IsFilename n) :
    join ns ≠ [] := by
  intro hjoin
  have hnames := filenames_join h
  rw [hjoin] at hnames
  exact hne hnames.symm

/-- A joined sequence starts with the first character of its first name, so it
is relative. -/
theorem isAbsolute_join {ns : List Text} (h : ∀ n ∈ ns, IsFilename n) :
    isAbsolute (join ns) = false := by
  cases ns with
  | nil => rfl
  | cons n ns =>
      have hn : IsFilename n := h n List.mem_cons_self
      obtain ⟨c, n', rfl⟩ := List.exists_cons_of_ne_nil hn.1
      have hc : c ≠ '/' := fun hc => hn.2 (hc ▸ List.mem_cons_self)
      cases ns with
      | nil => simp [isAbsolute, hc]
      | cons m ms => simp [isAbsolute, join_cons_cons, hc]

theorem isAbsolute_of_isFilename {n : Text} (h : IsFilename n) : isAbsolute n = false := by
  simpa using @isAbsolute_join [n] (by simpa using h)

theorem getLast?_join {ns : List Text} (h : ∀ n ∈ ns, IsFilename n) :
    (join ns).getLast? ≠ some '/' := by
  induction ns with
  | nil => simp
  | cons n ns ih =>
      have hn : IsFilename n := h n List.mem_cons_self
      cases ns with
      | nil =>
          intro hlast
          rw [join_singleton] at hlast
          exact hn.2 (List.mem_of_getLast? hlast)
      | cons m ms =>
          have hrest := ih fun k hk => h k (List.mem_cons_of_mem _ hk)
          have hne : join (m :: ms) ≠ [] :=
            join_ne_nil (by simp) fun k hk => h k (List.mem_cons_of_mem _ hk)
          rw [join_cons_cons, List.getLast?_append_of_ne_nil _ (by simp),
            List.getLast?_cons_of_ne_nil hne]
          exact hrest

/-! ### Appending -/

theorem eq_snoc_slash {p : Text} (hne : p ≠ []) (h : hasFilename p = false) :
    ∃ p', p = p' ++ ['/'] := by
  have hlast : p.getLast? = some '/' := by simpa [hasFilename, hne] using h
  obtain ⟨p', rfl⟩ := List.getLast?_eq_some_iff.mp hlast
  exact ⟨p', rfl⟩

theorem append_of_hasFilename {p q : Text} (hp : hasFilename p = true)
    (hq : isAbsolute q = false) : append p q = p ++ '/' :: q := by
  simp [append, hp, hq]

theorem append_of_not_hasFilename {p q : Text} (hp : hasFilename p = false)
    (hq : isAbsolute q = false) : append p q = p ++ q := by
  simp [append, hp, hq]

theorem filenames_append {p q : Text} (hq : isAbsolute q = false) :
    filenames (append p q) = filenames p ++ filenames q := by
  cases hp : hasFilename p with
  | true => rw [append_of_hasFilename hp hq, filenames_append_slash]
  | false =>
      rw [append_of_not_hasFilename hp hq]
      by_cases hne : p = []
      · simp [hne]
      · obtain ⟨p', rfl⟩ := eq_snoc_slash hne hp
        rw [List.append_assoc, List.singleton_append, filenames_append_slash]
        simp

theorem isAbsolute_append_text {p : Text} (q : Text) (hp : p ≠ []) :
    isAbsolute (p ++ q) = isAbsolute p := by
  obtain ⟨c, p', rfl⟩ := List.exists_cons_of_ne_nil hp
  rfl

theorem isAbsolute_append {p q : Text} (hp : p ≠ []) (hq : isAbsolute q = false) :
    isAbsolute (append p q) = isAbsolute p := by
  cases hf : hasFilename p with
  | true => rw [append_of_hasFilename hf hq, isAbsolute_append_text _ hp]
  | false => rw [append_of_not_hasFilename hf hq, isAbsolute_append_text _ hp]

theorem append_ne_nil {p : Text} (q : Text) (hp : p ≠ []) : append p q ≠ [] := by
  unfold append
  split
  · next h => rintro rfl; simp [isAbsolute] at h
  · split <;> simp [hp]

theorem hasTrailingSlash_append_join {p : Text} {ns : List Text} (hne : ns ≠ [])
    (h : ∀ n ∈ ns, IsFilename n) : hasTrailingSlash (append p (join ns)) = false := by
  have hjoin := join_ne_nil hne h
  have hlast := getLast?_join h
  have hrel := isAbsolute_join h
  cases hp : hasFilename p with
  | true =>
      rw [append_of_hasFilename hp hrel]
      simp [hasTrailingSlash, hjoin, List.getLast?_cons_of_ne_nil hjoin, hlast]
  | false =>
      rw [append_of_not_hasFilename hp hrel]
      simp [hasTrailingSlash, List.getLast?_append_of_ne_nil _ hjoin, hlast]

/-- Appending two filenames one after the other is appending them joined. -/
theorem append_append_of_hasFilename {p q r : Text} (hq : hasFilename q = true)
    (hqa : isAbsolute q = false) (hr : isAbsolute r = false) :
    append (append p q) r = append p (q ++ '/' :: r) := by
  have hqne : q ≠ [] := by rintro rfl; simp [hasFilename] at hq
  have hqr : isAbsolute (q ++ '/' :: r) = false := by
    rw [isAbsolute_append_text _ hqne, hqa]
  have hlast : q.getLast? ≠ some '/' := by simpa [hasFilename, hqne] using hq
  have hfile : hasFilename (append p q) = true := by
    cases hp : hasFilename p with
    | true =>
        rw [append_of_hasFilename hp hqa]
        simp [hasFilename, hqne, List.getLast?_cons_of_ne_nil hqne, hlast]
    | false =>
        rw [append_of_not_hasFilename hp hqa]
        simp [hasFilename, hqne, List.getLast?_append_of_ne_nil _ hqne, hlast]
  rw [append_of_hasFilename hfile hr]
  cases hp : hasFilename p with
  | true => rw [append_of_hasFilename hp hqa, append_of_hasFilename hp hqr]; simp
  | false => rw [append_of_not_hasFilename hp hqa, append_of_not_hasFilename hp hqr]; simp

/-! ### Rendering -/

theorem filenames_render {ns : List Text} (h : ∀ n ∈ ns, IsFilename n) (a t : Bool) :
    filenames (render a ns t) = ns := by
  have hroot : filenames ((if a then ['/'] else []) ++ join ns) = ns := by
    cases a <;> simp [filenames_join h]
  unfold render
  by_cases ht : (t && !ns.isEmpty) = true
  · rw [if_pos ht, filenames_snoc_slash, hroot]
  · rw [if_neg ht, List.append_nil, hroot]

theorem isAbsolute_render {ns : List Text} (h : ∀ n ∈ ns, IsFilename n) (a t : Bool) :
    isAbsolute (render a ns t) = a := by
  cases a with
  | true => rfl
  | false =>
      cases ns with
      | nil => simp [render, isAbsolute]
      | cons n ns =>
          have hne : join (n :: ns) ≠ [] := join_ne_nil (by simp) h
          simp only [render, Bool.false_eq_true, if_false, List.nil_append]
          rw [isAbsolute_append_text _ hne, isAbsolute_join h]

theorem getLast?_render_of_trailing {ns : List Text} (a : Bool) (hne : ns ≠ []) :
    (render a ns true).getLast? = some '/' := by
  simp [render, hne]

theorem render_ne_nil {ns : List Text} (h : ∀ n ∈ ns, IsFilename n) {a : Bool} (t : Bool)
    (hne : a = true ∨ ns ≠ []) : render a ns t ≠ [] := by
  rcases hne with rfl | hne
  · simp [render]
  · simp [render, join_ne_nil hne h]

@[simp] theorem filenames_genericString (p : Text) :
    filenames (genericString p) = filenames p :=
  filenames_render (fun _ => isFilename_of_mem_filenames) _ _

@[simp] theorem isAbsolute_genericString (p : Text) :
    isAbsolute (genericString p) = isAbsolute p :=
  isAbsolute_render (fun _ => isFilename_of_mem_filenames) _ _

theorem genericString_join {ns : List Text} (h : ∀ n ∈ ns, IsFilename n) :
    genericString (join ns) = join ns := by
  simp [genericString, render, hasTrailingSlash, isAbsolute_join h, filenames_join h,
    getLast?_join h]

/-- A nonempty path has a root directory or a filename. -/
theorem isAbsolute_or_filenames_ne_nil {p : Text} (hp : p ≠ []) :
    isAbsolute p = true ∨ filenames p ≠ [] := by
  by_cases habs : isAbsolute p = true
  · exact .inl habs
  · right
    obtain ⟨c, p', rfl⟩ := List.exists_cons_of_ne_nil hp
    have hc : c ≠ '/' := by simpa [isAbsolute] using habs
    intro hnil
    have hall := List.filter_eq_nil_iff.mp hnil
    rw [List.splitOn_cons_eq_if_modifyHead] at hall
    obtain ⟨m, ms, hm⟩ := List.exists_cons_of_ne_nil (List.splitOn_ne_nil '/' p')
    simp [hc, hm] at hall

theorem genericString_ne_nil {p : Text} (hp : p ≠ []) : genericString p ≠ [] :=
  render_ne_nil (fun _ => isFilename_of_mem_filenames) _ (isAbsolute_or_filenames_ne_nil hp)

@[simp] theorem hasTrailingSlash_genericString (p : Text) :
    hasTrailingSlash (genericString p) = hasTrailingSlash p := by
  have hfile : ∀ n ∈ filenames p, IsFilename n := fun _ => isFilename_of_mem_filenames
  by_cases hnames : filenames p = []
  · simp [hasTrailingSlash, hnames]
  · cases htrailing : hasTrailingSlash p with
    | true =>
        have hlast : (genericString p).getLast? = some '/' := by
          rw [genericString, htrailing, getLast?_render_of_trailing _ hnames]
        simp [hasTrailingSlash, hlast, hnames]
    | false =>
        have hlast : (genericString p).getLast? ≠ some '/' := by
          have hne := join_ne_nil hnames hfile
          simpa [genericString, htrailing, render, List.getLast?_append_of_ne_nil _ hne] using
            getLast?_join hfile
        simp [hasTrailingSlash, hlast]

@[simp] theorem elements_genericString (p : Text) : elements (genericString p) = elements p := by
  simp [elements]

/-! The parts of a path are read off its elements. -/

theorem isAbsolute_iff_mem_elements {p : Text} : isAbsolute p = true ↔ ['/'] ∈ elements p := by
  have hname : ['/'] ∉ filenames p := fun hmem => (isFilename_of_mem_filenames hmem).2 (by simp)
  cases habs : isAbsolute p <;> simp [elements, habs, hname]

theorem hasTrailingSlash_iff_mem_elements {p : Text} :
    hasTrailingSlash p = true ↔ [] ∈ elements p := by
  have hname : [] ∉ filenames p := fun hmem => (isFilename_of_mem_filenames hmem).1 rfl
  cases htrailing : hasTrailingSlash p <;> simp [elements, htrailing, hname]

theorem filter_elements (p : Text) : (elements p).filter IsFilename = filenames p := by
  have hnames : (filenames p).filter IsFilename = filenames p :=
    List.filter_eq_self.mpr fun n hn => by simpa using isFilename_of_mem_filenames hn
  have hroot : ¬IsFilename ['/'] := by decide
  have hempty : ¬IsFilename [] := by decide
  rw [elements, List.filter_append, List.filter_append, hnames]
  cases isAbsolute p <;> cases hasTrailingSlash p <;> simp [hroot, hempty]

/-- Two paths have one generic text when they run through the same elements. -/
theorem genericString_eq_iff {p q : Text} :
    genericString p = genericString q ↔ elements p = elements q := by
  constructor
  · intro heq
    rw [← elements_genericString p, heq, elements_genericString]
  · intro heq
    have habs : isAbsolute p = isAbsolute q := by
      rw [Bool.eq_iff_iff, isAbsolute_iff_mem_elements, heq, isAbsolute_iff_mem_elements]
    have htrailing : hasTrailingSlash p = hasTrailingSlash q := by
      rw [Bool.eq_iff_iff, hasTrailingSlash_iff_mem_elements, heq,
        hasTrailingSlash_iff_mem_elements]
    rw [genericString, habs, htrailing, ← filter_elements p, heq, filter_elements, genericString]

end GrpcM.Path
