import Mathlib.Data.List.Basic
import Mathlib.Data.List.Infix

/-!
The first place where one list stands inside another. `cut p t` is what comes
before and after it; `First p x` says that `p`, written after `x`, stands
nowhere earlier.
-/

namespace GrpcM.Cut

variable {α : Type*} {p t x y : List α}

/-- Two lists that are cut at their first `a` agree when their parts do. -/
theorem append_cons_eq_iff {a : α} {x x' y y' : List α} (hx : a ∉ x) (hx' : a ∉ x') :
    x ++ a :: y = x' ++ a :: y' ↔ x = x' ∧ y = y' := by
  constructor
  · intro heq
    rcases List.append_eq_append_iff.mp heq with ⟨c, rfl, htail⟩ | ⟨c, rfl, htail⟩
    · cases c with
      | nil => simpa using htail
      | cons b c =>
          obtain ⟨rfl, -⟩ := List.cons.inj htail
          simp at hx'
    · cases c with
      | nil => simpa using htail.symm
      | cons b c =>
          obtain ⟨rfl, -⟩ := List.cons.inj htail
          simp at hx
  · rintro ⟨rfl, rfl⟩
    rfl

theorem eq_of_suffix_singleton {a b : α} (ha : [a] <:+ x) (hb : [b] <:+ x) : a = b := by
  have heq := (List.suffix_of_suffix_length_le ha hb (Nat.le_refl 1)).eq_of_length rfl
  exact (List.cons.inj heq).1

/-- No `p` begins in `x` when `p` comes next. What follows that `p` does not matter. -/
def First (p x : List α) : Prop := ∀ u, u ≠ [] → u <:+ x → ¬p <+: u ++ p

theorem prefix_append_append_iff (p u y : List α) : p <+: u ++ (p ++ y) ↔ p <+: u ++ p := by
  constructor
  · intro hpre
    rw [← List.append_assoc] at hpre
    exact List.prefix_of_prefix_length_le hpre (List.prefix_append _ _) (by simp)
  · intro hpre
    rw [← List.append_assoc]
    exact hpre.trans (List.prefix_append _ _)

theorem first_nil (p : List α) : First p [] := by
  intro u hne hu
  exact absurd (List.suffix_nil.mp hu) hne

theorem First.of_suffix (hfirst : First p x) (hy : y <:+ x) : First p y :=
  fun u hne hu => hfirst u hne (hu.trans hy)

theorem first_cons_iff {a : α} : First p (a :: x) ↔ ¬p <+: a :: x ++ p ∧ First p x := by
  constructor
  · intro hfirst
    exact ⟨hfirst _ (List.cons_ne_nil _ _) (List.suffix_refl _),
      hfirst.of_suffix (List.suffix_cons _ _)⟩
  · rintro ⟨hhead, hfirst⟩ u hne hu
    rcases List.suffix_cons_iff.mp hu with rfl | hu
    · exact hhead
    · exact hfirst u hne hu

/-- A separator written after a list without one is the first there. -/
theorem first_of_not_infix {a : α} {q : List α} (ha : a ∉ q) (hno : ¬a :: q <:+: x) :
    First (a :: q) x := by
  intro u hne hu hpre
  rcases List.prefix_or_prefix_of_prefix hpre (List.prefix_append u (a :: q)) with
    hinside | ⟨c, hc⟩
  · exact hno (hinside.isInfix.trans hu.isInfix)
  · -- the separator would begin in `u` and again after it
    obtain ⟨b, u, rfl⟩ := List.exists_cons_of_ne_nil hne
    obtain ⟨rfl, hq⟩ := List.cons.inj hc
    rw [← hc, List.prefix_append_right_inj, hc] at hpre
    cases c with
    | nil => exact hno (by simpa [← hq] using hu.isInfix)
    | cons d c =>
        obtain ⟨rfl, -⟩ := List.cons_prefix_cons.mp hpre
        simp [← hq] at ha

/-! ### The first place is the only one -/

theorem prefix_of_prefix_append {q : α → Prop} {w l r : List α}
    (hw : ∀ a ∈ w, ¬q a) (hr : ∀ a ∈ r.head?, q a) (hpre : w <+: l ++ r) : w <+: l := by
  rcases List.prefix_or_prefix_of_prefix hpre (List.prefix_append l r) with hpre' | ⟨v, rfl⟩
  · exact hpre'
  · cases v with
    | nil => simp
    | cons a v =>
        obtain ⟨rest, hrest⟩ := hpre
        rw [List.append_assoc, List.append_cancel_left_eq, List.cons_append] at hrest
        exact absurd (hr a (by simp [← hrest])) (hw a (by simp))

theorem prefix_of_append_cons {a : α} {u z : List α} (heq : x ++ a :: y = u ++ z) (hu : a ∉ u) :
    u <+: x := by
  refine prefix_of_prefix_append (q := (· = a)) ?_ (by simp) ⟨z, heq.symm⟩
  rintro b hb rfl
  exact hu hb

theorem First.prefix_of {u v : List α} (hfirst : First p x)
    (heq : x ++ (p ++ y) = u ++ (p ++ v)) : x <+: u := by
  rcases List.append_eq_append_iff.mp heq with ⟨c, rfl, -⟩ | ⟨c, rfl, hrest⟩
  · exact List.prefix_append x c
  · cases c with
    | nil => simp
    | cons b c =>
        have hpre : p <+: b :: c ++ (p ++ y) := ⟨v, hrest⟩
        rw [prefix_append_append_iff] at hpre
        exact absurd hpre (hfirst _ (List.cons_ne_nil b c) (List.suffix_append _ _))

theorem First.unique {x' y' : List α} (hfirst : First p x) (hfirst' : First p x')
    (heq : x ++ (p ++ y) = x' ++ (p ++ y')) : x = x' ∧ y = y' := by
  have hx : x = x' := (hfirst.prefix_of heq).eq_of_length_le
    (hfirst'.prefix_of heq.symm).length_le
  subst hx
  exact ⟨rfl, List.append_cancel_left (List.append_cancel_left heq)⟩

/-- The first place lies in every start of the list that ends in `p`. -/
theorem First.append_prefix {z v : List α} (hfirst : First p x)
    (heq : x ++ (p ++ y) = z ++ v) (hz : p <:+ z) : x ++ p <+: z := by
  obtain ⟨u, rfl⟩ := hz
  rw [List.append_assoc] at heq
  obtain ⟨c, rfl⟩ := hfirst.prefix_of heq
  have hleft : x ++ p <+: x ++ (p ++ y) := ⟨y, List.append_assoc x p y⟩
  have hright : x ++ c ++ p <+: x ++ (p ++ y) := ⟨v, by rw [heq]; simp⟩
  exact List.prefix_of_prefix_length_le hleft hright (by simp)

variable [DecidableEq α]

def cut (p : List α) : List α → Option (List α × List α)
  | [] => if p = [] then some ([], []) else none
  | a :: t =>
      match p.isPrefixOf? (a :: t) with
      | some rest => some ([], rest)
      | none => (cut p t).map fun parts => (a :: parts.1, parts.2)

theorem cut_append (p y : List α) : cut p (p ++ y) = some ([], y) := by
  cases h : p ++ y with
  | nil =>
      obtain ⟨rfl, rfl⟩ := List.append_eq_nil_iff.mp h
      rfl
  | cons a t =>
      have hpre : p.isPrefixOf? (a :: t) = some y :=
        List.isPrefixOf?_eq_some_iff_append_eq.mpr h
      simp only [cut, hpre]

theorem cut_cons {a : α} (hno : ¬p <+: a :: t) :
    cut p (a :: t) = (cut p t).map fun parts => (a :: parts.1, parts.2) := by
  have hpre : p.isPrefixOf? (a :: t) = none := by
    refine Option.eq_none_iff_forall_ne_some.mpr fun rest hrest => hno ⟨rest, ?_⟩
    exact List.isPrefixOf?_eq_some_iff_append_eq.mp hrest
  simp only [cut, hpre]

/-- The cut is made at the first place, and nowhere else. -/
theorem cut_eq_some_iff : cut p t = some (x, y) ↔ t = x ++ (p ++ y) ∧ First p x := by
  constructor
  · intro hcut
    induction t generalizing x with
    | nil =>
        rw [cut] at hcut
        split at hcut
        case isTrue hp =>
            obtain ⟨rfl, rfl⟩ := Prod.mk.inj (Option.some.inj hcut)
            exact ⟨by simp [hp], first_nil p⟩
        case isFalse => cases hcut
    | cons a t ih =>
        by_cases hpre : p <+: a :: t
        · obtain ⟨rest, hrest⟩ := hpre
          rw [← hrest, cut_append] at hcut
          obtain ⟨rfl, rfl⟩ := Prod.mk.inj (Option.some.inj hcut)
          exact ⟨hrest.symm, first_nil p⟩
        · rw [cut_cons hpre] at hcut
          obtain ⟨⟨x', y'⟩, hcut', heq⟩ := Option.map_eq_some_iff.mp hcut
          obtain ⟨rfl, rfl⟩ := Prod.mk.inj heq
          obtain ⟨rfl, hfirst⟩ := ih hcut'
          refine ⟨rfl, first_cons_iff.mpr ⟨?_, hfirst⟩⟩
          rwa [← prefix_append_append_iff p (a :: x') y', List.cons_append]
  · rintro ⟨rfl, hfirst⟩
    induction x with
    | nil => exact cut_append p y
    | cons a x ih =>
        obtain ⟨hhead, hfirst⟩ := first_cons_iff.mp hfirst
        rw [← prefix_append_append_iff p (a :: x) y, List.cons_append] at hhead
        rw [List.cons_append, cut_cons hhead, ih hfirst]
        rfl

theorem exists_cut_of_infix (hin : p <:+: t) : ∃ parts, cut p t = some parts := by
  induction t with
  | nil => exact ⟨([], []), by simp [cut, List.infix_nil.mp hin]⟩
  | cons a t ih =>
      by_cases hpre : p <+: a :: t
      · obtain ⟨y, hy⟩ := hpre
        exact ⟨_, hy ▸ cut_append p y⟩
      · obtain ⟨parts, hparts⟩ := ih ((List.infix_cons_iff.mp hin).resolve_left hpre)
        exact ⟨_, by rw [cut_cons hpre, hparts]; rfl⟩

/-! ### Every place

A list is taken apart at each separator in it. When the separator begins with an
element that does not come again in it, no two of these places overlap, so the
pieces of a list written around a separator are the pieces of its two sides.
-/

theorem length_lt_of_cut {a : α} {q : List α} (hcut : cut (a :: q) t = some (x, y)) :
    y.length < t.length := by
  obtain ⟨rfl, -⟩ := cut_eq_some_iff.mp hcut
  simp only [List.length_append, List.length_cons]
  omega

/-- What stands between the places of the separator `a :: q`. -/
def pieces (a : α) (q : List α) (t : List α) : List (List α) :=
  match _h : cut (a :: q) t with
  | none => [t]
  | some (x, y) => x :: pieces a q y
termination_by t.length
decreasing_by exact length_lt_of_cut _h

variable {a : α} {q : List α}

theorem pieces_of_cut (hcut : cut (a :: q) t = some (x, y)) :
    pieces a q t = x :: pieces a q y := by
  rw [pieces]
  split
  · next hnone => simp [hnone] at hcut
  · next hsome =>
      obtain ⟨rfl, rfl⟩ := Prod.mk.inj (Option.some.inj (hsome.symm.trans hcut))
      rfl

theorem pieces_whole (hno : ¬a :: q <:+: t) : pieces a q t = [t] := by
  rw [pieces]
  split
  · rfl
  · next hsome =>
      obtain ⟨rfl, -⟩ := cut_eq_some_iff.mp hsome
      exact absurd ⟨_, _, List.append_assoc _ _ _⟩ hno

theorem pieces_append (ha : a ∉ q) (x y : List α) :
    pieces a q (x ++ (a :: q ++ y)) = pieces a q x ++ pieces a q y := by
  induction hlength : x.length using Nat.strongRecOn generalizing x with
  | ind n ih =>
      by_cases hin : a :: q <:+: x
      · obtain ⟨⟨x', x''⟩, hcut⟩ := exists_cut_of_infix hin
        have hrest := ih x''.length (hlength ▸ length_lt_of_cut hcut) x'' rfl
        obtain ⟨hx, hfirst⟩ := cut_eq_some_iff.mp hcut
        have hcut' : cut (a :: q) (x ++ (a :: q ++ y)) = some (x', x'' ++ (a :: q ++ y)) :=
          cut_eq_some_iff.mpr ⟨by rw [hx]; simp, hfirst⟩
        rw [pieces_of_cut hcut', hrest, pieces_of_cut hcut, List.cons_append]
      · have hcut : cut (a :: q) (x ++ (a :: q ++ y)) = some (x, y) :=
          cut_eq_some_iff.mpr ⟨rfl, first_of_not_infix ha hin⟩
        rw [pieces_of_cut hcut, pieces_whole hin]
        rfl

theorem intercalate_pieces (t : List α) : (a :: q).intercalate (pieces a q t) = t := by
  induction hlength : t.length using Nat.strongRecOn generalizing t with
  | ind n ih =>
      by_cases hin : a :: q <:+: t
      · obtain ⟨⟨x, y⟩, hcut⟩ := exists_cut_of_infix hin
        have hrest := ih y.length (hlength ▸ length_lt_of_cut hcut) y rfl
        have hne : pieces a q y ≠ [] := by
          rw [pieces]
          split <;> simp
        obtain ⟨z, zs, hz⟩ := List.exists_cons_of_ne_nil hne
        rw [pieces_of_cut hcut, hz, List.intercalate_cons_cons, ← hz, hrest,
          (cut_eq_some_iff.mp hcut).1, List.append_assoc]
      · rw [pieces_whole hin, List.intercalate_singleton]

theorem pieces_injective (a : α) (q : List α) : Function.Injective (pieces a q) := by
  intro t t' heq
  rw [← intercalate_pieces t, heq, intercalate_pieces]

theorem pieces_append_flatMap (ha : a ∉ q) (x : List α) (xs : List (List α)) :
    pieces a q (x ++ xs.flatMap (a :: q ++ ·)) = pieces a q x ++ xs.flatMap (pieces a q) := by
  induction xs generalizing x with
  | nil => simp
  | cons y ys ih =>
      rw [List.flatMap_cons, List.append_assoc, pieces_append ha, ih, List.flatMap_cons]

/-- Lists written one after the other behind separators are told apart up to their pieces. -/
theorem flatMap_append_eq_iff (ha : a ∉ q) (xs ys : List (List α)) :
    xs.flatMap (a :: q ++ ·) = ys.flatMap (a :: q ++ ·) ↔
      xs.flatMap (pieces a q) = ys.flatMap (pieces a q) := by
  rw [← (pieces_injective a q).eq_iff, ← List.nil_append (xs.flatMap _),
    ← List.nil_append (ys.flatMap (a :: q ++ ·)), pieces_append_flatMap ha,
    pieces_append_flatMap ha, List.append_right_inj]

end GrpcM.Cut
