import Mathlib.Algebra.BigOperators.Group.List.Basic
import Mathlib.Algebra.Order.Ring.Int

/-!
Queues of bounded size. An entry has a size, and what is added at the end drives the oldest
entries out until all fits. Two queues that are given the same entries stay in step: the one
that started shorter remains the newer part of the other.
-/

namespace GrpcM.Eviction

variable {α β : Type} (size : α → ℕ)

def total (q : List α) : ℕ := (q.map size).sum

/-- The longest part with the newest entries that fits. -/
def evict (bound : ℕ) : List α → List α
  | [] => []
  | x :: q => if total size (x :: q) ≤ bound then x :: q else evict bound q

/-- An entry that fits is added behind what can stay, and any other one empties the queue. -/
def insert (bound : ℕ) (q : List α) (x : α) : List α :=
  if size x ≤ bound then evict size (bound - size x) q ++ [x] else []

@[simp] theorem total_nil : total size [] = 0 := rfl

@[simp] theorem total_cons (x : α) (q : List α) :
    total size (x :: q) = size x + total size q := by
  simp [total]

theorem total_append (p q : List α) : total size (p ++ q) = total size p + total size q := by
  simp [total]

theorem total_map (f : β → α) (q : List β) :
    total size (q.map f) = total (fun b => size (f b)) q := by
  simp [total, Function.comp_def]

variable {size}

theorem total_le_of_suffix {p q : List α} (h : p <:+ q) : total size p ≤ total size q := by
  obtain ⟨r, rfl⟩ := h
  rw [total_append]
  omega

theorem length_mul_le_total {least : ℕ} {q : List α} (hleast : ∀ x ∈ q, least ≤ size x) :
    q.length * least ≤ total size q := by
  induction q with
  | nil => simp
  | cons x q ih =>
      have hx := hleast x List.mem_cons_self
      have hq := ih fun y hy => hleast y (List.mem_cons_of_mem x hy)
      rw [List.length_cons, Nat.add_mul, Nat.one_mul, total_cons]
      omega

/-! ### Eviction -/

theorem evict_of_le {bound : ℕ} {q : List α} (h : total size q ≤ bound) :
    evict size bound q = q := by
  cases q with
  | nil => rfl
  | cons x q => rw [evict, if_pos h]

theorem evict_suffix (size : α → ℕ) (bound : ℕ) (q : List α) : evict size bound q <:+ q := by
  induction q with
  | nil => exact List.suffix_refl _
  | cons x q ih =>
      rw [evict]
      split
      · exact List.suffix_refl _
      · exact ih.trans (List.suffix_cons x q)

theorem total_evict_le (size : α → ℕ) (bound : ℕ) (q : List α) :
    total size (evict size bound q) ≤ bound := by
  induction q with
  | nil => exact Nat.zero_le _
  | cons x q ih =>
      rw [evict]
      split
      case isTrue h => exact h
      case isFalse => exact ih

theorem suffix_evict {bound : ℕ} {p q : List α} (hpq : p <:+ q) (hp : total size p ≤ bound) :
    p <:+ evict size bound q := by
  induction q with
  | nil => exact hpq
  | cons x q ih =>
      rw [evict]
      split
      case isTrue => exact hpq
      case isFalse h =>
          rcases List.suffix_cons_iff.mp hpq with rfl | hpq
          · exact absurd hp h
          · exact ih hpq

theorem evict_suffix_evict {bound : ℕ} {p q : List α} (hpq : p <:+ q) :
    evict size bound p <:+ evict size bound q :=
  suffix_evict ((evict_suffix size bound p).trans hpq) (total_evict_le size bound p)

theorem evict_map (f : β → α) (bound : ℕ) (q : List β) :
    evict size bound (q.map f) = (evict (fun b => size (f b)) bound q).map f := by
  induction q with
  | nil => rfl
  | cons x q ih =>
      have htotal : total size ((x :: q).map f) = total (fun b => size (f b)) (x :: q) :=
        total_map ..
      rw [List.map_cons] at htotal ⊢
      rw [evict, evict, htotal]
      split
      · rfl
      · exact ih

theorem evict_zero {q : List α} (hsize : ∀ x ∈ q, 0 < size x) : evict size 0 q = [] := by
  induction q with
  | nil => rfl
  | cons x q ih =>
      have hx := hsize x List.mem_cons_self
      rw [evict, if_neg (by rw [total_cons]; omega)]
      exact ih fun y hy => hsize y (List.mem_cons_of_mem x hy)

/-! ### Insertion -/

theorem insert_suffix_insert {bound : ℕ} {p q : List α} (hpq : p <:+ q) (x : α) :
    insert size bound p x <:+ insert size bound q x := by
  rw [insert, insert]
  split
  · obtain ⟨r, hr⟩ : evict size (bound - size x) p <:+ evict size (bound - size x) q :=
      evict_suffix_evict hpq
    exact ⟨r, by rw [← List.append_assoc, hr]⟩
  · exact List.suffix_refl _

theorem insert_map (f : β → α) (bound : ℕ) (q : List β) (x : β) :
    insert size bound (q.map f) (f x) = (insert (fun b => size (f b)) bound q x).map f := by
  rw [insert, insert, evict_map]
  split <;> simp

/-! ### Loops that evict -/

section Loop

variable {σ : Type}

/-- `while (condition) step`, for a step that can be taken `n` times. -/
def stepWhile (step : σ → Option σ) (condition : σ → Bool) : ℕ → σ → Option σ
  | 0, s => if condition s then step s else some s
  | n + 1, s => if condition s then step s >>= stepWhile step condition n else some s

/-- When a step takes the oldest entry out, and the loop goes on for as long as the entries
take more than `bound`, it evicts. -/
theorem stepWhile_evict {step : σ → Option σ} {condition : σ → Bool} {bound : ℕ}
    (holds : σ → List α → Prop)
    (hstep : ∀ s x q, holds s (x :: q) → ∃ s', step s = some s' ∧ holds s' q)
    (hcondition : ∀ s q, holds s q → condition s = decide (bound < total size q))
    {s : σ} {q : List α} (h : holds s q) :
    ∃ s', stepWhile step condition q.length s = some s' ∧ holds s' (evict size bound q) := by
  induction q generalizing s with
  | nil =>
      refine ⟨s, ?_, h⟩
      have hstop : condition s = false := by
        rw [hcondition s [] h]
        simp
      rw [List.length_nil, stepWhile, hstop, if_neg Bool.false_ne_true]
  | cons x q ih =>
      rw [List.length_cons, stepWhile, hcondition s _ h, evict]
      by_cases hbound : bound < total size (x :: q)
      · obtain ⟨s₁, hone, h₁⟩ := hstep s x q h
        obtain ⟨s₂, hrest, h₂⟩ := ih h₁
        refine ⟨s₂, ?_, ?_⟩
        · rw [decide_eq_true hbound, if_pos rfl, hone]
          exact hrest
        · rw [if_neg (by omega)]
          exact h₂
      · refine ⟨s, ?_, ?_⟩
        · rw [decide_eq_false hbound, if_neg Bool.false_ne_true]
        · rw [if_pos (by omega)]
          exact h

end Loop

end GrpcM.Eviction
