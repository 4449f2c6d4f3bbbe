import GrpcM.Bytes
import Mathlib.Algebra.Order.Ring.Int

/-!
Numbers on the wire. A number that does not fit in what an opcode leaves of the first byte goes
on in a tail of seven bits a byte, the lowest ones first.
-/

namespace GrpcM.Hpack

/-! ### The writer -/

def maxInVarintPrefix (prefixBits : ℕ) : ℕ := 2 ^ (8 - prefixBits) - 1

/-- The length with a tail, and with the byte of the opcode. -/
def varintLength (tailValue : ℕ) : ℕ :=
  if tailValue < 2 ^ 7 then 2
  else if tailValue < 2 ^ 14 then 3
  else if tailValue < 2 ^ 21 then 4
  else if tailValue < 2 ^ 28 then 5
  else 6

def varintTailByte (tailValue i : ℕ) : UInt8 := UInt8.ofNat (tailValue / 2 ^ (7 * i)) ||| 0x80

def varintWriteTail (tailValue tailLength : ℕ) : Bytes :=
  (List.range tailLength).map fun i =>
    if i + 1 = tailLength then varintTailByte tailValue i &&& 0x7f else varintTailByte tailValue i

def varintWrite (prefixBits : ℕ) (opcode : UInt8) (value : ℕ) : Bytes :=
  let maxInPrefix := maxInVarintPrefix prefixBits
  if value < maxInPrefix then [opcode ||| UInt8.ofNat value]
  else (opcode ||| UInt8.ofNat maxInPrefix) ::
    varintWriteTail (value - maxInPrefix) (varintLength (value - maxInPrefix) - 1)

/-! ### The parser -/

/-- Some more bytes that add nothing are allowed. -/
def parseRedundant (value : ℕ) : ℕ → Bytes → Option (ℕ × Bytes)
  | _, [] => none
  | 0, _ => none
  | n + 1, cur :: rest =>
      if cur = 0x80 then parseRedundant value n rest
      else if cur = 0 then some (value, rest)
      else none

/-- The fifth byte, with which the number may become too large. -/
def parseVarintLast (value : ℕ) : Bytes → Option (ℕ × Bytes)
  | [] => none
  | cur :: rest =>
      let c := (cur &&& 0x7f).toNat
      if 0xf < c then none
      else if 0xffffffff - value < c * 2 ^ 28 then none
      else if cur &&& 0x80 = 0 then some (value + c * 2 ^ 28, rest)
      else parseRedundant (value + c * 2 ^ 28) 15 rest

def parseVarintFrom : List ℕ → ℕ → Bytes → Option (ℕ × Bytes)
  | [], value, input => parseVarintLast value input
  | _ :: _, _, [] => none
  | shift :: shifts, value, cur :: rest =>
      let value := value + (cur &&& 0x7f).toNat * 2 ^ shift
      if cur &&& 0x80 = 0 then some (value, rest) else parseVarintFrom shifts value rest

/-- The number, and what is left. There is `none` for an end of the input and for an error. -/
def parseVarint (value : ℕ) (input : Bytes) : Option (ℕ × Bytes) :=
  parseVarintFrom [0, 7, 14, 21] value input

/-! ### Round trip -/

theorem tailByte_spec : ∀ b : UInt8, (b ||| 0x80) &&& 0x80 ≠ 0 ∧
    ((b ||| 0x80) &&& 0x7f).toNat = b.toNat % 128 ∧ (b ||| 0x80) &&& 0x7f &&& 0x80 = 0 ∧
    ((b ||| 0x80) &&& 0x7f &&& 0x7f).toNat = b.toNat % 128 := by
  apply forall_byte
  decide +kernel

theorem toNat_ofNat_mod (n : ℕ) : (UInt8.ofNat n).toNat % 128 = n % 128 := by
  rw [UInt8.toNat_ofNat']
  omega

theorem varintTailByte_spec (tailValue i : ℕ) :
    varintTailByte tailValue i &&& 0x80 ≠ 0 ∧
    (varintTailByte tailValue i &&& 0x7f).toNat = tailValue / 2 ^ (7 * i) % 128 ∧
    varintTailByte tailValue i &&& 0x7f &&& 0x80 = 0 ∧
    (varintTailByte tailValue i &&& 0x7f &&& 0x7f).toNat = tailValue / 2 ^ (7 * i) % 128 := by
  have hspec := tailByte_spec (UInt8.ofNat (tailValue / 2 ^ (7 * i)))
  rw [toNat_ofNat_mod] at hspec
  exact hspec

theorem parseVarint_tail (m tailValue : ℕ) (rest : Bytes) (h : m + tailValue < 2 ^ 32) :
    parseVarint m (varintWriteTail tailValue (varintLength tailValue - 1) ++ rest) =
      some (m + tailValue, rest) := by
  unfold varintLength
  have h₀ := varintTailByte_spec tailValue 0
  have h₁ := varintTailByte_spec tailValue 1
  have h₂ := varintTailByte_spec tailValue 2
  have h₃ := varintTailByte_spec tailValue 3
  have h₄ := varintTailByte_spec tailValue 4
  split_ifs with h7 h14 h21 h28
  · simp [varintWriteTail, parseVarint, parseVarintFrom, h₀]
    omega
  · simp [varintWriteTail, List.range_succ, parseVarint, parseVarintFrom, h₀, h₁]
    omega
  · simp [varintWriteTail, List.range_succ, parseVarint, parseVarintFrom, h₀, h₁, h₂]
    omega
  · simp [varintWriteTail, List.range_succ, parseVarint, parseVarintFrom, h₀, h₁, h₂, h₃]
    omega
  · simp [varintWriteTail, List.range_succ, parseVarint, parseVarintFrom, parseVarintLast, h₀, h₁,
      h₂, h₃, h₄]
    omega

end GrpcM.Hpack
