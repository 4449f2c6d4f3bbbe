import Mathlib.Data.List.Induction
import Mathlib.Data.Nat.ModEq

/-!
Queues in a circular buffer. The entries of a queue have consecutive positions, and an entry
is stored in the slot of its position modulo the capacity. The positions grow for as long as
the queue is used, while the buffer is used again and again.
-/

namespace GrpcM.Window

variable {α : Type}

/-- The entries of `xs` are stored from position `first` on. -/
def Holds (cells : List α) (capacity first : ℕ) (xs : List α) : Prop :=
  ∀ i x, xs[i]? = some x → cells[(first + i) % capacity]? = some x

theorem slot_ne {capacity p q : ℕ} (hpq : p < q) (hq : q < p + capacity) :
    p % capacity ≠ q % capacity := by
  intro h
  have hdvd : capacity ∣ q - p := (Nat.modEq_iff_dvd' hpq.le).mp h
  have hle : capacity ≤ q - p := Nat.le_of_dvd (by omega) hdvd
  omega

theorem holds_nil (cells : List α) (capacity first : ℕ) : Holds cells capacity first [] := by
  intro i x h
  simp at h

variable {cells xs : List α} {capacity first : ℕ} {x : α}

theorem Holds.head (h : Holds cells capacity first (x :: xs)) :
    cells[first % capacity]? = some x := h 0 x rfl

theorem Holds.tail (h : Holds cells capacity first (x :: xs)) :
    Holds cells capacity (first + 1) xs := by
  intro i y hy
  rw [show first + 1 + i = first + (i + 1) by omega]
  exact h (i + 1) y hy

/-- What is appended to a queue, when the earlier entries are where they were. -/
theorem holds_concat {cells' : List α} (hold : Holds cells capacity first xs)
    (hkept : ∀ i < xs.length,
      cells'[(first + i) % capacity]? = cells[(first + i) % capacity]?)
    (hnew : cells'[(first + xs.length) % capacity]? = some x) :
    Holds cells' capacity first (xs ++ [x]) := by
  intro i y hy
  rcases Nat.lt_trichotomy i xs.length with hi | rfl | hi
  · rw [List.getElem?_append_left hi] at hy
    rw [hkept i hi]
    exact hold i y hy
  · rw [List.getElem?_append_right le_rfl, Nat.sub_self] at hy
    obtain rfl : x = y := by simpa using hy
    exact hnew
  · rw [List.getElem?_eq_none (by simp; omega)] at hy
    cases hy

/-- An entry is written over a slot that no entry uses. -/
theorem Holds.set (h : Holds cells capacity first xs) (hfree : xs.length < capacity)
    (hslot : (first + xs.length) % capacity < cells.length) (x : α) :
    Holds (cells.set ((first + xs.length) % capacity) x) capacity first (xs ++ [x]) := by
  apply holds_concat h
  · intro i hi
    apply List.getElem?_set_ne
    exact (slot_ne (by omega) (by omega)).symm
  · exact List.getElem?_set_self hslot

theorem Holds.push (h : Holds cells capacity first xs)
    (hslot : (first + xs.length) % capacity = cells.length) (x : α) :
    Holds (cells ++ [x]) capacity first (xs ++ [x]) := by
  apply holds_concat h
  · intro i hi
    obtain ⟨y, hy⟩ : ∃ y, xs[i]? = some y := ⟨xs[i], List.getElem?_eq_getElem hi⟩
    have hcell := h i y hy
    obtain ⟨hlt, -⟩ := List.getElem?_eq_some_iff.mp hcell
    rw [List.getElem?_append_left hlt]
  · rw [hslot, List.getElem?_append_right le_rfl, Nat.sub_self]
    rfl

/-! ### A new buffer -/

/-- The entries of a queue, copied one by one to the slots of another capacity. -/
def copy (read : ℕ → α) (capacity first count : ℕ) (cells : List α) : List α :=
  (List.range count).foldl (fun cells i => cells.set ((first + i) % capacity) (read i)) cells

theorem length_copy (read : ℕ → α) (capacity first count : ℕ) (cells : List α) :
    (copy read capacity first count cells).length = cells.length := by
  induction count with
  | zero => rfl
  | succ count ih =>
      rw [copy, List.range_succ, List.foldl_append, List.foldl_cons, List.foldl_nil,
        List.length_set]
      exact ih

theorem holds_copy (cells : List α) (first : ℕ) {read : ℕ → α}
    (hread : ∀ i y, xs[i]? = some y → read i = y) (hcapacity : xs.length ≤ cells.length) :
    Holds (copy read cells.length first xs.length cells) cells.length first xs := by
  induction xs using List.reverseRecOn with
  | nil => exact holds_nil _ _ _
  | append_singleton xs x ih =>
      rw [List.length_append, List.length_singleton] at hcapacity ⊢
      have hstart := ih (fun i y hy => hread i y (by
          obtain ⟨hlt, -⟩ := List.getElem?_eq_some_iff.mp hy
          rw [List.getElem?_append_left hlt]
          exact hy)) (by omega)
      have hlast : read xs.length = x := hread _ _ (by simp)
      have hstep : copy read cells.length first (xs.length + 1) cells =
          (copy read cells.length first xs.length cells).set
            ((first + xs.length) % cells.length) x := by
        rw [copy, List.range_succ, List.foldl_append, List.foldl_cons, List.foldl_nil, hlast]
        rfl
      rw [hstep]
      apply hstart.set (by omega)
      rw [length_copy]
      exact Nat.mod_lt _ (by omega)

/-- The entries of a queue, read one by one. -/
theorem mapM_range_eq {read : ℕ → Option α} {xs : List α}
    (hread : ∀ i y, xs[i]? = some y → read i = some y) :
    (List.range xs.length).mapM read = some xs := by
  induction xs using List.reverseRecOn with
  | nil => rfl
  | append_singleton xs x ih =>
      have hstart := ih fun i y hy => hread i y (by
        obtain ⟨hlt, -⟩ := List.getElem?_eq_some_iff.mp hy
        rw [List.getElem?_append_left hlt]
        exact hy)
      have hlast : read xs.length = some x := hread _ _ (by simp)
      rw [List.length_append, List.length_singleton, List.range_succ, List.mapM_append, hstart]
      simp [hlast]

end GrpcM.Window
