import Mathlib.Data.List.Basic
import Mathlib.Data.List.Nodup
import Mathlib.Data.List.Pairwise

/-!
Names made of a stem and one of several suffixes. Distinct stems give distinct
names unless one suffix ends in another one and the text before it is what one
stem has more than another; `overlaps` are these texts.
-/

namespace GrpcM.Suffixes

variable {α : Type*} [DecidableEq α]

/-- What some suffix has before another one that ends it. -/
def overlaps (suffixes : List (List α)) : List (List α) :=
  (suffixes.flatMap fun s => suffixes.filterMap fun t => t.isSuffixOf? s).filter (· ≠ [])

theorem mem_overlaps {suffixes : List (List α)} {u : List α} :
    u ∈ overlaps suffixes ↔ u ≠ [] ∧ ∃ s ∈ suffixes, ∃ t ∈ suffixes, u ++ t = s := by
  simp only [overlaps, List.mem_filter, List.mem_flatMap, List.mem_filterMap,
    List.isSuffixOf?_eq_some_iff_append_eq, decide_eq_true_eq]
  exact and_comm

def combine (stems suffixes : List (List α)) : List (List α) :=
  stems.flatMap fun n => suffixes.map (n ++ ·)

theorem nodup_combine_iff {stems suffixes : List (List α)} (hstems : stems.Nodup)
    (hsuffixes : suffixes.Nodup) :
    (combine stems suffixes).Nodup ↔ ∀ n ∈ stems, ∀ u ∈ overlaps suffixes, n ++ u ∉ stems := by
  rw [combine, List.nodup_flatMap]
  have hone : ∀ n ∈ stems, (suffixes.map (n ++ ·)).Nodup := fun n _ =>
    hsuffixes.map (List.append_right_injective n)
  constructor
  · rintro ⟨-, hdisjoint⟩ n hn u hu hnu
    obtain ⟨hne, s, hs, t, ht, rfl⟩ := mem_overlaps.mp hu
    have hdiff : n ≠ n ++ u := fun heq => hne (List.self_eq_append_right.mp heq)
    have hsymm : Std.Symm (Function.onFun List.Disjoint fun n => suffixes.map (n ++ ·)) :=
      ⟨fun _ _ hd _ hx hy => hd hy hx⟩
    refine hdisjoint.forall hn hnu hdiff (List.mem_map_of_mem hs) ?_
    rw [← List.append_assoc]
    exact List.mem_map_of_mem ht
  · intro hno
    refine ⟨hone, hstems.imp_of_mem ?_⟩
    intro n m hn hm hne name hnames hmnames
    obtain ⟨s, hs, rfl⟩ := List.mem_map.mp hnames
    obtain ⟨t, ht, heq⟩ := List.mem_map.mp hmnames
    -- the longer stem is the shorter one with an overlap
    rcases List.append_eq_append_iff.mp heq with ⟨u, rfl, rfl⟩ | ⟨u, rfl, rfl⟩
    · have hu : u ≠ [] := by
        rintro rfl
        simp at hne
      exact hno m hm u (mem_overlaps.mpr ⟨hu, _, ht, s, hs, rfl⟩) hn
    · have hu : u ≠ [] := by
        rintro rfl
        simp at hne
      exact hno n hn u (mem_overlaps.mpr ⟨hu, _, hs, t, ht, rfl⟩) hm

end GrpcM.Suffixes
