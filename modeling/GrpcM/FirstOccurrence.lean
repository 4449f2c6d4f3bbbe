import Mathlib.Data.List.Basic
import Mathlib.Data.List.Nodup
import Mathlib.Data.List.Pairwise

/-!
The elements of a list, each at its first occurrence. `Kept all kept` says what
such a list is, and `kept_foldl` that adding the elements one after the other,
unless they are there, makes one.
-/

namespace GrpcM.FirstOccurrence

variable {α : Type*} [BEq α] {all kept : List α}

/-- Each element of `all` once, in the order of first occurrence. -/
structure Kept (all kept : List α) : Prop where
  mem_iff : ∀ a, a ∈ kept ↔ a ∈ all
  ordered : kept.Pairwise fun a b => all.idxOf a < all.idxOf b

theorem Kept.nodup (hkept : Kept all kept) : kept.Nodup :=
  hkept.ordered.imp fun hlt => by
    rintro rfl
    exact Nat.lt_irrefl _ hlt

theorem kept_nil : Kept ([] : List α) [] := ⟨by simp, List.Pairwise.nil⟩

theorem Kept.ordered_filter (hkept : Kept all kept) (p : α → Bool) :
    (kept.filter p).Pairwise fun a b => all.idxOf a < all.idxOf b :=
  hkept.ordered.filter p

variable [LawfulBEq α]

def addNew (kept : List α) (a : α) : List α := if a ∈ kept then kept else kept ++ [a]

theorem Kept.addNew (hkept : Kept all kept) (a : α) : Kept (all ++ [a]) (addNew kept a) := by
  -- the earlier elements stay where they first occurred
  have hidx : ∀ b ∈ kept, (all ++ [a]).idxOf b = all.idxOf b := fun b hb =>
    List.idxOf_append_of_mem ((hkept.mem_iff b).mp hb)
  have hordered : kept.Pairwise fun b b' => (all ++ [a]).idxOf b < (all ++ [a]).idxOf b' := by
    refine hkept.ordered.imp_of_mem fun hb hb' hlt => ?_
    rwa [hidx _ hb, hidx _ hb']
  rw [FirstOccurrence.addNew]
  split
  case isTrue ha =>
      refine ⟨fun b => ?_, hordered⟩
      rw [hkept.mem_iff, List.mem_append, List.mem_singleton]
      refine ⟨Or.inl, ?_⟩
      rintro (hb | rfl)
      · exact hb
      · exact (hkept.mem_iff _).mp ha
  case isFalse ha =>
      refine ⟨fun b => by simp [hkept.mem_iff], ?_⟩
      rw [List.pairwise_append]
      refine ⟨hordered, List.pairwise_singleton _ _, fun b hb b' hb' => ?_⟩
      obtain rfl := List.mem_singleton.mp hb'
      rw [hidx b hb, List.idxOf_append_of_notMem (fun hmem => ha ((hkept.mem_iff _).mpr hmem))]
      have hlt := List.idxOf_lt_length_iff.mpr ((hkept.mem_iff b).mp hb)
      simpa using hlt

theorem Kept.foldl (hkept : Kept all kept) (more : List α) :
    Kept (all ++ more) (more.foldl FirstOccurrence.addNew kept) := by
  induction more generalizing all kept with
  | nil => simpa using hkept
  | cons a more ih => simpa using ih (hkept.addNew a)

end GrpcM.FirstOccurrence
