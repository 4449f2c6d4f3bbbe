import Mathlib.Data.List.Basic

/-!
Byte strings.
-/

namespace GrpcM

abbrev Bytes := List UInt8

/-- The bytes of a text with one byte for each character. -/
def ascii (s : String) : Bytes := s.toList.map fun c => UInt8.ofNat c.toNat

theorem forall_byte {P : UInt8 → Prop} (h : ∀ n < 256, P (UInt8.ofNat n)) (b : UInt8) : P b := by
  have hb := h b.toNat b.toNat_lt
  rwa [UInt8.ofNat_toNat] at hb

end GrpcM
