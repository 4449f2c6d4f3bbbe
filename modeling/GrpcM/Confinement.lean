import Mathlib.Logic.Relation

/-!
Closures that stay in a set. What is reached from the members of a set stays
among them and some further points exactly when no single step leaves both:
a way that comes back to the set starts there anew, so only the steps
through the further points need to be followed.
-/

namespace GrpcM.Confinement

open Relation

variable {α : Type*} {R : α → α → Prop} {S W : α → Prop}

/-- Reached from a member of `S` by steps that end in `W`. -/
def Through (R : α → α → Prop) (S W : α → Prop) (x : α) : Prop :=
  ∃ s, S s ∧ ReflTransGen (fun a b => R a b ∧ W b) s x

theorem Through.of_mem {x : α} (hx : S x) : Through R S W x :=
  ⟨x, hx, .refl⟩

theorem Through.step {x y : α} (hx : Through R S W x) (hxy : R x y) (hy : W y) :
    Through R S W y := by
  obtain ⟨s, hs, hreach⟩ := hx
  exact ⟨s, hs, hreach.tail ⟨hxy, hy⟩⟩

theorem Through.reachable {x : α} (hx : Through R S W x) : ∃ s, S s ∧ ReflTransGen R s x := by
  obtain ⟨s, hs, hreach⟩ := hx
  exact ⟨s, hs, ReflTransGen.mono (fun _ _ h => h.1) _ _ hreach⟩

/-- No step from a point reached through `W` leaves `S` and `W`. -/
def NoEscape (R : α → α → Prop) (S W : α → Prop) : Prop :=
  ∀ x, Through R S W x → ∀ y, R x y → S y ∨ W y

/-- Without an escape everything reached lies in `S` or is reached through `W`. -/
theorem NoEscape.confined (hno : NoEscape R S W) {s x : α} (hs : S s)
    (hreach : ReflTransGen R s x) : (S x ∨ W x) ∧ Through R S W x := by
  induction hreach with
  | refl => exact ⟨.inl hs, .of_mem hs⟩
  | tail _ hxy ih =>
      rcases hno _ ih.2 _ hxy with hy | hy
      · exact ⟨.inl hy, .of_mem hy⟩
      · exact ⟨.inr hy, ih.2.step hxy hy⟩

theorem confined_iff_noEscape :
    (∀ s, S s → ∀ x, ReflTransGen R s x → S x ∨ W x) ↔ NoEscape R S W := by
  constructor
  · intro hconf x hx y hxy
    obtain ⟨s, hs, hreach⟩ := hx.reachable
    exact hconf s hs y (hreach.tail hxy)
  · intro hno s hs x hreach
    exact (hno.confined hs hreach).1

end GrpcM.Confinement
