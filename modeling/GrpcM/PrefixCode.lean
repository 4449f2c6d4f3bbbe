import Mathlib.Data.List.Basic

/-!
Codes of different lengths, one after another. If none of them starts another they can be told
apart without anything between them, and what fills up the end cannot be taken for one.
-/

namespace GrpcM.PrefixCode

/-- Strings of codes of which none starts another, filled up with ones. A code that has a zero in
it cannot be mistaken for the filling. -/
theorem flatMap_injective_of_prefix_free {α : Type} {code : α → List Bool}
    (hfree : ∀ a b, code a <+: code b → a = b) (hzero : ∀ a, false ∈ code a) {xs ys : List α}
    {m n : ℕ} (h : xs.flatMap code ++ List.replicate m true =
      ys.flatMap code ++ List.replicate n true) : xs = ys := by
  have hones : ∀ a k rest, List.replicate k true ≠ code a ++ rest := by
    intro a k rest heq
    have hmem : false ∈ List.replicate k true := heq ▸ List.mem_append_left rest (hzero a)
    exact Bool.noConfusion (List.eq_of_mem_replicate hmem)
  induction xs generalizing ys with
  | nil =>
      cases ys with
      | nil => rfl
      | cons y ys =>
          rw [List.flatMap_cons, List.append_assoc] at h
          exact absurd h (hones y m _)
  | cons x xs ih =>
      cases ys with
      | nil =>
          rw [List.flatMap_cons, List.append_assoc] at h
          exact absurd h.symm (hones x n _)
      | cons y ys =>
          rw [List.flatMap_cons, List.flatMap_cons, List.append_assoc, List.append_assoc] at h
          have hxy : x = y := by
            rcases List.prefix_or_prefix_of_prefix ⟨_, h⟩ (List.prefix_append (code y) _) with hx | hy
            · exact hfree x y hx
            · exact (hfree y x hy).symm
          subst hxy
          rw [ih (List.append_cancel_left h)]

end GrpcM.PrefixCode
