import GrpcM.Path.Basic
import Mathlib.Data.List.Induction

/-!
The two lexical operations of `std::filesystem::path`. Both work on the
sequence of filenames: `lexicallyNormal` cancels `.` and `..`,
`lexicallyRelative` drops the elements two paths share.
-/

namespace GrpcM.Path

def dot : Text := ['.']
def dotDot : Text := ['.', '.']

/-- One filename of the normal form. The state holds the names kept so far,
last one first, and whether a removed name left its separator behind. -/
def normalStep (absolute : Bool) (st : List Text × Bool) (n : Text) : List Text × Bool :=
  if n = dot then (st.1, true)
  else if n = dotDot then
    match st.1 with
    | [] => if absolute then ([], true) else ([dotDot], false)
    | k :: ks => if k = dotDot then (dotDot :: k :: ks, false) else (ks, true)
  else (n :: st.1, false)

def normalNames (p : Text) : List Text × Bool :=
  (filenames p).foldl (normalStep (isAbsolute p)) ([], false)

/-- `lexically_normal`. A trailing `..` never keeps its separator, and a
relative path that cancels completely is `.`. -/
def lexicallyNormal (p : Text) : Text :=
  if p = [] then []
  else if (normalNames p).1 = [] && !isAbsolute p then dot
  else render (isAbsolute p) (normalNames p).1.reverse
    (((normalNames p).2 || hasTrailingSlash p) && (normalNames p).1.head? != some dotDot)

/-- The rests of two sequences after their common beginning (`std::mismatch`). -/
def mismatch : List Text → List Text → List Text × List Text
  | a :: as, b :: bs => if a = b then mismatch as bs else (a :: as, b :: bs)
  | as, bs => (as, bs)

def depth (bs : List Text) : Int :=
  bs.foldl (fun n b =>
    if b = dotDot then n - 1 else if b ≠ [] ∧ b ≠ dot then n + 1 else n) 0

def lexicallyRelative (p base : Text) : Text :=
  if isAbsolute p != isAbsolute base then []
  else
    let (as, bs) := mismatch (elements p) (elements base)
    if as = [] ∧ bs = [] then dot
    else
      let n := depth bs
      if n = 0 ∧ (as = [] ∨ as.head? = some []) then dot
      else if n < 0 then []
      else (List.replicate n.toNat dotDot ++ as).foldl append []

/-! ### The normal form -/

theorem normalStep_isFilename {absolute : Bool} {st : List Text × Bool} {n : Text}
    (hst : ∀ k ∈ st.1, IsFilename k) (hn : IsFilename n) :
    ∀ k ∈ (normalStep absolute st n).1, IsFilename k := by
  obtain ⟨kept, trailing⟩ := st
  have hdots : IsFilename dotDot := by decide
  unfold normalStep
  split
  · exact hst
  · split
    · cases kept with
      | nil => cases absolute <;> simp [hdots]
      | cons k ks =>
          simp only at hst ⊢
          split
          · simpa [hdots] using hst
          · exact fun m hm => hst m (List.mem_cons_of_mem _ hm)
    · intro k hk
      rcases List.mem_cons.mp hk with rfl | hk
      · exact hn
      · exact hst k hk

theorem foldl_normalStep_isFilename (absolute : Bool) {ns : List Text}
    {st : List Text × Bool} (hns : ∀ n ∈ ns, IsFilename n) (hst : ∀ k ∈ st.1, IsFilename k) :
    ∀ k ∈ (ns.foldl (normalStep absolute) st).1, IsFilename k := by
  induction ns generalizing st with
  | nil => exact hst
  | cons n ns ih =>
      have hn : IsFilename n := hns n List.mem_cons_self
      exact ih (fun m hm => hns m (List.mem_cons_of_mem _ hm)) (normalStep_isFilename hst hn)

theorem normalNames_isFilename (p : Text) : ∀ k ∈ (normalNames p).1, IsFilename k :=
  foldl_normalStep_isFilename _ (fun _ => isFilename_of_mem_filenames) (by simp)

theorem lexicallyNormal_ne_nil {p : Text} (hp : p ≠ []) : lexicallyNormal p ≠ [] := by
  unfold lexicallyNormal
  rw [if_neg hp]
  split
  · simp [dot]
  · next h =>
      refine render_ne_nil (by simpa using normalNames_isFilename p) _ ?_
      by_cases habs : isAbsolute p = true
      · exact .inl habs
      · right
        simpa [habs] using h

/-- A proper name added to a path only extends its normal names. -/
theorem normalNames_append {p n : Text} (hp : p ≠ []) (hn : IsProperName n) :
    normalNames (append p n) = (n :: (normalNames p).1, false) := by
  have hrel : isAbsolute n = false := isAbsolute_of_isFilename hn.1
  unfold normalNames
  rw [filenames_append hrel, isAbsolute_append hp hrel, filenames_of_isFilename hn.1,
    List.foldl_append]
  simp [normalStep, dot, dotDot, hn.2.1, hn.2.2]

/-- A normal absolute path without trailing separator is its own rendering. -/
theorem eq_render_of_normal {p : Text} (habs : isAbsolute p = true)
    (hnormal : lexicallyNormal p = p) (hlast : p.getLast? ≠ some '/') :
    p = render true (normalNames p).1.reverse false := by
  have hp : p ≠ [] := by rintro rfl; simp [isAbsolute] at habs
  have hrender : p = render true (normalNames p).1.reverse
      (((normalNames p).2 || hasTrailingSlash p) &&
        (normalNames p).1.head? != some dotDot) := by
    conv_lhs => rw [← hnormal]
    simp [lexicallyNormal, hp, habs]
  -- a trailing separator in the rendering would be the last character of `p`
  cases htrail : ((normalNames p).2 || hasTrailingSlash p) &&
      (normalNames p).1.head? != some dotDot with
  | false => rwa [htrail] at hrender
  | true =>
      rw [htrail] at hrender
      by_cases hnames : (normalNames p).1.reverse = []
      · rw [hnames] at hrender ⊢
        exact hrender
      · refine absurd ?_ hlast
        rw [hrender, getLast?_render_of_trailing true hnames]

theorem normalNames_ne_nil_of_normal {p : Text} (habs : isAbsolute p = true)
    (hnormal : lexicallyNormal p = p) (hlast : p.getLast? ≠ some '/') :
    (normalNames p).1 ≠ [] := by
  intro hnil
  have htext := eq_render_of_normal habs hnormal hlast
  rw [hnil] at htext
  exact hlast (by rw [htext]; rfl)

/-- A normal directory without trailing separator stays as it is written when
a proper name is added to it. -/
theorem lexicallyNormal_append_of_normal {p n : Text} (habs : isAbsolute p = true)
    (hnormal : lexicallyNormal p = p) (hlast : p.getLast? ≠ some '/')
    (hn : IsProperName n) : lexicallyNormal (append p n) = p ++ '/' :: n := by
  have hp : p ≠ [] := by rintro rfl; simp [isAbsolute] at habs
  have htext := eq_render_of_normal habs hnormal hlast
  have hnames := normalNames_ne_nil_of_normal habs hnormal hlast
  have hrel : isAbsolute n = false := isAbsolute_of_isFilename hn.1
  have htrailing : hasTrailingSlash (append p n) = false := by
    simpa using @hasTrailingSlash_append_join p [n] (by simp) (by simpa using hn.1)
  unfold lexicallyNormal
  rw [if_neg (append_ne_nil n hp), normalNames_append hp hn, isAbsolute_append hp hrel, habs,
    htrailing]
  simp only [Bool.not_true, Bool.and_false, Bool.false_eq_true, if_false, Bool.or_self,
    Bool.false_and, List.reverse_cons]
  conv_rhs => rw [htext]
  simp [render, join_append (List.reverse_ne_nil_iff.mpr hnames)]

theorem genericString_render {ns : List Text} (h : ∀ n ∈ ns, IsFilename n) :
    genericString (render true ns false) = render true ns false := by
  have htrailing : hasTrailingSlash (render true ns false) = false := by
    cases ns with
    | nil => rfl
    | cons n ns =>
        have hne : join (n :: ns) ≠ [] := join_ne_nil (by simp) h
        have hlast := getLast?_join h
        simp [hasTrailingSlash, render, List.getLast?_cons_of_ne_nil hne, hlast]
  rw [genericString, htrailing, isAbsolute_render h, filenames_render h]

/-- Such a path with the name is its own generic form too. -/
theorem genericString_append_of_normal {p n : Text} (habs : isAbsolute p = true)
    (hnormal : lexicallyNormal p = p) (hlast : p.getLast? ≠ some '/')
    (hn : IsProperName n) : genericString (p ++ '/' :: n) = p ++ '/' :: n := by
  have hnames : ∀ m ∈ (normalNames p).1.reverse ++ [n], IsFilename m := by
    intro m hm
    rcases List.mem_append.mp hm with hm | hm
    · exact normalNames_isFilename p m (List.mem_reverse.mp hm)
    · rw [List.mem_singleton.mp hm]
      exact hn.1
  have htext := eq_render_of_normal habs hnormal hlast
  have hne : (normalNames p).1.reverse ≠ [] :=
    List.reverse_ne_nil_iff.mpr (normalNames_ne_nil_of_normal habs hnormal hlast)
  have hrender : p ++ '/' :: n = render true ((normalNames p).1.reverse ++ [n]) false := by
    conv_lhs => rw [htext]
    simp [render, join_append hne]
  rw [hrender, genericString_render hnames]

/-! ### Relative paths -/

theorem mismatch_append (xs as bs : List Text) :
    mismatch (xs ++ as) (xs ++ bs) = mismatch as bs := by
  induction xs with
  | nil => rfl
  | cons x xs ih => simp [mismatch, ih]

theorem foldl_append_eq_join {ns : List Text} (h : ∀ n ∈ ns, IsFilename n) :
    ns.foldl append [] = join ns := by
  induction ns using List.reverseRecOn with
  | nil => rfl
  | append_singleton ns n ih =>
      have hn : IsFilename n := h n (by simp)
      have hns : ∀ m ∈ ns, IsFilename m := fun m hm => h m (by simp [hm])
      have hrel : isAbsolute n = false := isAbsolute_of_isFilename hn
      rw [List.foldl_append, ih hns, List.foldl_cons, List.foldl_nil]
      cases ns with
      | nil => simp [append_of_not_hasFilename (p := []) rfl hrel]
      | cons m ms =>
          have hne := join_ne_nil (by simp) hns
          have hfile : hasFilename (join (m :: ms)) = true := by
            simp [hasFilename, hne, getLast?_join hns]
          rw [append_of_hasFilename hfile hrel, join_append (by simp) (by simp),
            join_singleton]

theorem elements_append_join {dir : Text} {ns : List Text} (hdir : dir ≠ [])
    (hne : ns ≠ []) (h : ∀ n ∈ ns, IsFilename n) :
    elements (append dir (join ns)) =
      (if isAbsolute dir then [['/']] else []) ++ filenames dir ++ ns := by
  have hrel := isAbsolute_join h
  simp [elements, hasTrailingSlash_append_join hne h, filenames_append hrel,
    isAbsolute_append hdir hrel, filenames_join h]

theorem elements_append_slash_join {dir : Text} {ns : List Text} (hdir : dir ≠ [])
    (hne : ns ≠ []) (h : ∀ n ∈ ns, IsFilename n) :
    elements (dir ++ '/' :: join ns) =
      (if isAbsolute dir then [['/']] else []) ++ filenames dir ++ ns := by
  have hjoin := join_ne_nil hne h
  have htrailing : hasTrailingSlash (dir ++ '/' :: join ns) = false := by
    simp [hasTrailingSlash, hjoin, List.getLast?_cons_of_ne_nil hjoin, getLast?_join h]
  simp [elements, htrailing, filenames_append_slash, isAbsolute_append_text _ hdir,
    filenames_join h]

/-- What a directory iterator lists below a directory is, relative to that
directory, the names it went through. -/
theorem lexicallyRelative_append_join {dir : Text} {ns : List Text} (hdir : dir ≠ [])
    (hne : ns ≠ []) (h : ∀ n ∈ ns, IsFilename n) :
    lexicallyRelative (append dir (join ns)) dir = join ns := by
  have hrel := isAbsolute_join h
  obtain ⟨n, ns', rfl⟩ := List.exists_cons_of_ne_nil hne
  have hn : n ≠ [] := (h n List.mem_cons_self).1
  have hrest : mismatch (elements (append dir (join (n :: ns')))) (elements dir) =
      (n :: ns', if hasTrailingSlash dir then [[]] else []) := by
    rw [elements_append_join hdir hne h, elements, mismatch_append]
    cases hasTrailingSlash dir <;> simp [mismatch, hn]
  have hdepth : depth (if hasTrailingSlash dir then [[]] else []) = 0 := by
    cases hasTrailingSlash dir <;> rfl
  unfold lexicallyRelative
  rw [isAbsolute_append hdir hrel, bne_self_eq_false, hrest]
  simp [hdepth, hn, foldl_append_eq_join h]

end GrpcM.Path
