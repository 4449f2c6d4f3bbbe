import GrpcM.Cut

/-!
A list as lines, each ended by a separator `c`. A text that holds one `c`, at its
end, is found where a line ends in it; a line between two `c` is found where it
is a whole line.
-/

namespace GrpcM.Lines

open GrpcM.Cut

variable {α : Type*} {c : α} {s l m x : List α} {ls : List (List α)}

def unlines (c : α) (ls : List (List α)) : List α := ls.flatMap (· ++ [c])

@[simp] theorem unlines_nil (c : α) : unlines c [] = [] := rfl

@[simp] theorem unlines_cons (c : α) (l : List α) (ls : List (List α)) :
    unlines c (l :: ls) = l ++ c :: unlines c ls := by
  simp [unlines]

@[simp] theorem unlines_append (c : α) (ls ls' : List (List α)) :
    unlines c (ls ++ ls') = unlines c ls ++ unlines c ls' :=
  List.flatMap_append

/-- The same lines with the separators in front; the first line has none. -/
theorem unlines_cons_eq (c : α) (l : List α) (ls : List (List α)) :
    unlines c (l :: ls) = l ++ ls.flatMap (c :: ·) ++ [c] := by
  induction ls generalizing l with
  | nil => simp
  | cons l' ls ih => simp [ih l']

theorem intercalate_cons_eq (c : α) (l : List α) (ls : List (List α)) :
    [c].intercalate (l :: ls) = l ++ ls.flatMap (c :: ·) := by
  induction ls generalizing l with
  | nil => simp
  | cons l' ls ih => simp [List.intercalate_cons_cons, ih l']

theorem mem_unlines {a : α} : a ∈ unlines c ls ↔ ∃ l ∈ ls, a ∈ l ∨ a = c := by
  simp [unlines]

/-! ### The end of a line -/

/-- A line ends at its first separator. -/
theorem not_prefix_line (hs : c ∉ s) (hl : c ∉ l) (hne : s ≠ l) (y : List α) :
    ¬s ++ [c] <+: l ++ c :: y := by
  rintro ⟨rest, hrest⟩
  rw [List.append_assoc, List.singleton_append, append_cons_eq_iff hs hl] at hrest
  exact hne hrest.1

theorem first_of_not_mem (hs : c ∉ s) (hl : c ∉ l) : First (s ++ [c]) l := by
  induction l with
  | nil => exact first_nil _
  | cons a l ih =>
      have hal : c ∉ a :: l ++ s := by
        rw [List.mem_append, not_or]
        exact ⟨hl, hs⟩
      have hne : s ≠ a :: l ++ s := by
        intro heq
        have hlength := congrArg List.length heq
        simp only [List.length_append, List.length_cons] at hlength
        omega
      refine first_cons_iff.mpr ⟨?_, ih fun hmem => hl (List.mem_cons_of_mem _ hmem)⟩
      rw [← List.append_assoc]
      exact not_prefix_line hs hal hne []

theorem first_line_append (hs : c ∉ s) (hl : c ∉ l) (hend : ¬s <:+ l)
    (hx : First (s ++ [c]) x) : First (s ++ [c]) (l ++ c :: x) := by
  have hne : s ≠ l := by
    rintro rfl
    exact hend (List.suffix_refl _)
  induction l with
  | nil => exact first_cons_iff.mpr ⟨not_prefix_line hs hl hne _, hx⟩
  | cons a l ih =>
      have hend' : ¬s <:+ l := fun hsuffix => hend (hsuffix.trans (List.suffix_cons a l))
      have htail := ih (fun hmem => hl (List.mem_cons_of_mem _ hmem)) hend' (by
        rintro rfl
        exact hend' (List.suffix_refl _))
      rw [List.cons_append, first_cons_iff]
      refine ⟨?_, htail⟩
      rw [← List.cons_append, List.append_assoc, List.cons_append]
      exact not_prefix_line hs hl hne _

theorem first_unlines_append (hs : c ∉ s) (hls : ∀ l ∈ ls, c ∉ l ∧ ¬s <:+ l)
    (hx : First (s ++ [c]) x) : First (s ++ [c]) (unlines c ls ++ x) := by
  induction ls with
  | nil => exact hx
  | cons l ls ih =>
      rw [unlines_cons, List.append_assoc, List.cons_append]
      have hl := hls l List.mem_cons_self
      exact first_line_append hs hl.1 hl.2 (ih fun l' hl' => hls l' (List.mem_cons_of_mem _ hl'))

/-! ### A whole line -/

theorem first_header_append (hl : c ∉ l) (hx : First (c :: (m ++ [c])) x) :
    First (c :: (m ++ [c])) (l ++ x) := by
  induction l with
  | nil => exact hx
  | cons a l ih =>
      rw [List.mem_cons, not_or] at hl
      refine first_cons_iff.mpr ⟨fun hpre => hl.1 ?_, ih hl.2⟩
      exact (List.cons_prefix_cons.mp hpre).1

/-- Lines other than `m` are passed over; the first line has no separator before it. -/
theorem first_header (hm : c ∉ m) (hl : c ∉ l) (hls : ∀ l ∈ ls, c ∉ l ∧ m ≠ l) :
    First (c :: (m ++ [c])) (l ++ ls.flatMap (c :: ·)) := by
  refine first_header_append hl ?_
  clear hl
  induction ls with
  | nil => exact first_nil _
  | cons l' ls ih =>
      obtain ⟨hl', hne⟩ := hls l' List.mem_cons_self
      have hrest := ih fun l'' hl'' => hls l'' (List.mem_cons_of_mem _ hl'')
      rw [List.flatMap_cons, List.cons_append, first_cons_iff]
      refine ⟨?_, first_header_append hl' hrest⟩
      -- whatever follows the line starts with a separator
      obtain ⟨y, hy⟩ : ∃ y, ls.flatMap (c :: ·) ++ (c :: (m ++ [c])) = c :: y := by
        cases ls with
        | nil => exact ⟨_, rfl⟩
        | cons _ _ => exact ⟨_, rfl⟩
      rw [List.cons_append, List.cons_prefix_cons, List.append_assoc, hy]
      exact fun hpre => not_prefix_line hm hl' hne y hpre.2

/-- Whether a line starts in `u` does not depend on what is behind the next separator. -/
theorem header_prefix_iff {u y : List α} (hm : c ∉ m) (hu : u ≠ []) :
    c :: (m ++ [c]) <+: u ++ c :: y ↔ c :: (m ++ [c]) <+: u ++ [c] := by
  have happend : u ++ c :: y = u ++ [c] ++ y := by simp
  constructor
  · intro hpre
    rcases List.prefix_or_prefix_of_prefix hpre ⟨y, happend.symm⟩ with hpre | ⟨z, hz⟩
    · exact hpre
    · cases u with
      | nil => exact absurd rfl hu
      | cons a u =>
          -- the separator behind `u` is the last one of the line
          rw [List.cons_append, List.cons_append, List.cons.injEq, List.append_assoc,
            List.singleton_append] at hz
          obtain ⟨rfl, hz⟩ := hz
          obtain ⟨v, rfl⟩ := prefix_of_append_cons hz hm
          rw [List.append_assoc, List.append_cancel_left_eq] at hz
          obtain rfl : v = [] := by
            have hlength := congrArg List.length hz
            simp only [List.length_append, List.length_cons, List.length_nil] at hlength
            exact List.length_eq_zero_iff.mp (by omega)
          simp
  · intro hpre
    rw [happend]
    exact hpre.trans (List.prefix_append _ _)

/-- A line that starts nowhere in `x` before does not start there when the text behind `x`
is another. -/
theorem header_prefix_of_first {b u v y z : List α} (hm : c ∉ m)
    (hfirst : First (c :: (m ++ [c])) (x ++ b)) (hb : b ++ c :: (m ++ [c]) = c :: z)
    (heq : x ++ c :: y = u ++ (c :: (m ++ [c]) ++ v)) : x <+: u := by
  rcases List.append_eq_append_iff.mp heq with ⟨w, rfl, -⟩ | ⟨w, rfl, hrest⟩
  · exact List.prefix_append x w
  · by_cases hw : w = []
    · simp [hw]
    · have hpre : c :: (m ++ [c]) <+: w ++ c :: z :=
        (header_prefix_iff hm hw).mpr ((header_prefix_iff hm hw).mp ⟨v, hrest⟩)
      rw [← hb, ← List.append_assoc] at hpre
      refine absurd hpre (hfirst (w ++ b) (by simp [hw]) ?_)
      rw [List.append_assoc]
      exact List.suffix_append u _

/-! ### Two stretches of lines -/

/-- Two stretches of one list that do not start in each other lie apart. -/
theorem exists_gap {a b : α} {u v w u' v' w' : List α}
    (heq : u ++ (a :: v ++ w) = u' ++ (b :: v' ++ w')) (hb : b ∉ a :: v) (ha : a ∉ b :: v') :
    (∃ gap, u' = u ++ (a :: v ++ gap)) ∨ ∃ gap, u = u' ++ (b :: v' ++ gap) := by
  have hstart : ∀ {a b : α} {v w x v' w' : List α}, a :: v ++ w = x ++ (b :: v' ++ w') →
      b ∉ a :: v → ∃ gap, x = a :: v ++ gap := by
    intro a b v w x v' w' heq hb
    rcases List.append_eq_append_iff.mp heq with ⟨gap, rfl, -⟩ | ⟨c, hsplit, hrest⟩
    · exact ⟨gap, rfl⟩
    · cases c with
      | nil => exact ⟨[], by rw [hsplit, List.append_nil, List.append_nil]⟩
      | cons c cs =>
          obtain rfl : b = c := (List.cons.inj hrest).1
          exact absurd (by simp [hsplit]) hb
  rcases List.append_eq_append_iff.mp heq with ⟨x, rfl, hx⟩ | ⟨x, rfl, hx⟩
  · obtain ⟨gap, rfl⟩ := hstart hx hb
    exact Or.inl ⟨gap, rfl⟩
  · obtain ⟨gap, rfl⟩ := hstart hx ha
    exact Or.inr ⟨gap, rfl⟩

end GrpcM.Lines
