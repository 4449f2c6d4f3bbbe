import GrpcM.Bytes
import Mathlib.Algebra.Order.Ring.Int
import Mathlib.Data.List.DropRight
import Mathlib.Data.List.GetD
import Mathlib.Data.List.Nodup

/-!
Binary values as text: base64 without padding, six bits a letter. The writer codes each letter
with the Huffman code on the way.
-/

namespace GrpcM.Hpack

/-! ### The writer -/

def alphabet : Bytes := ascii "ABCDEFGHIJKLMNOPQRSTUVWXYZabcdefghijklmnopqrstuvwxyz0123456789+/"

def huffAlphabet : List (ℕ × ℕ) := [
  (0x21, 6), (0x5d, 7), (0x5e, 7), (0x5f, 7), (0x60, 7), (0x61, 7),
  (0x62, 7), (0x63, 7), (0x64, 7), (0x65, 7), (0x66, 7), (0x67, 7),
  (0x68, 7), (0x69, 7), (0x6a, 7), (0x6b, 7), (0x6c, 7), (0x6d, 7),
  (0x6e, 7), (0x6f, 7), (0x70, 7), (0x71, 7), (0x72, 7), (0xfc, 8),
  (0x73, 7), (0xfd, 8), (0x3, 5), (0x23, 6), (0x4, 5), (0x24, 6),
  (0x5, 5), (0x25, 6), (0x26, 6), (0x27, 6), (0x6, 5), (0x74, 7),
  (0x75, 7), (0x28, 6), (0x29, 6), (0x2a, 6), (0x7, 5), (0x2b, 6),
  (0x76, 7), (0x2c, 6), (0x8, 5), (0x9, 5), (0x2d, 6), (0x77, 7),
  (0x78, 7), (0x79, 7), (0x7a, 7), (0x7b, 7), (0x0, 5), (0x1, 5),
  (0x2, 5), (0x19, 6), (0x1a, 6), (0x1b, 6), (0x1c, 6), (0x1d, 6),
  (0x1e, 6), (0x1f, 6), (0x7fb, 11), (0x18, 6)]

/-- Six bits for each letter; the last one is filled up with zeros. -/
def base64Symbols : Bytes → List ℕ
  | a :: b :: c :: rest =>
      a.toNat / 4 :: (a.toNat % 4 * 16 + b.toNat / 16) :: (b.toNat % 16 * 4 + c.toNat / 64) ::
        c.toNat % 64 :: base64Symbols rest
  | [a, b] => [a.toNat / 4, a.toNat % 4 * 16 + b.toNat / 16, b.toNat % 16 * 4]
  | [a] => [a.toNat / 4, a.toNat % 4 * 16]
  | [] => []

def letter (symbol : ℕ) : UInt8 := alphabet.getD symbol 0

def base64Encode (input : Bytes) : Bytes := (base64Symbols input).map letter

/-- The bits that were not written yet are the last `tempLength` ones of `temp`. -/
structure HuffOut where
  temp : ℕ := 0
  tempLength : ℕ := 0
  out : Bytes := []
  deriving DecidableEq, Repr

/-- Each byte takes eight of the bits, so there are more rounds than needed. -/
def encFlushSome (out : HuffOut) : HuffOut :=
  (List.range out.tempLength).foldl (fun out _ =>
    if 8 < out.tempLength then { out with
      tempLength := out.tempLength - 8
      out := out.out ++ [UInt8.ofNat (out.temp / 2 ^ (out.tempLength - 8))] }
    else out) out

def encAdd1 (out : HuffOut) (a : ℕ) : HuffOut :=
  let sa := huffAlphabet.getD a (0, 0)
  encFlushSome { out with
    temp := (out.temp * 2 ^ sa.2 + sa.1) % 2 ^ 32
    tempLength := out.tempLength + sa.2 }

def encAdd2 (out : HuffOut) (a b : ℕ) : HuffOut :=
  let sa := huffAlphabet.getD a (0, 0)
  let sb := huffAlphabet.getD b (0, 0)
  encFlushSome { out with
    temp := (out.temp * 2 ^ (sa.2 + sb.2) + sa.1 * 2 ^ sb.2 + sb.1) % 2 ^ 32
    tempLength := out.tempLength + (sa.2 + sb.2) }

def encSymbols : HuffOut → List ℕ → HuffOut
  | out, a :: b :: rest => encSymbols (encAdd2 out a b) rest
  | out, [a] => encAdd1 out a
  | out, [] => out

/-- The last byte is filled up with ones. -/
def base64EncodeAndHuffmanCompress (input : Bytes) : Bytes :=
  let out := encSymbols {} (base64Symbols input)
  if out.tempLength = 0 then out.out
  else out.out ++ [UInt8.ofNat (out.temp * 2 ^ (8 - out.tempLength)) |||
    UInt8.ofNat (0xff / 2 ^ out.tempLength)]

/-! ### The parser -/

def base64Inverse (c : UInt8) : ℕ := if c ∈ alphabet then alphabet.idxOf c else 255

def unbase64Loop : Bytes → Option Bytes
  | a :: b :: c :: d :: rest =>
      if 63 < base64Inverse a ∨ 63 < base64Inverse b ∨ 63 < base64Inverse c ∨
        63 < base64Inverse d then none
      else
        let buffer := base64Inverse a * 2 ^ 18 + base64Inverse b * 2 ^ 12 +
          base64Inverse c * 2 ^ 6 + base64Inverse d
        (unbase64Loop rest).map fun out =>
          UInt8.ofNat (buffer / 2 ^ 16) :: UInt8.ofNat (buffer / 2 ^ 8) :: UInt8.ofNat buffer :: out
  | [a, b, c] =>
      if 63 < base64Inverse a ∨ 63 < base64Inverse b ∨ 63 < base64Inverse c then none
      else
        let buffer := base64Inverse a * 2 ^ 18 + base64Inverse b * 2 ^ 12 + base64Inverse c * 2 ^ 6
        if buffer % 2 ^ 8 ≠ 0 then none
        else some [UInt8.ofNat (buffer / 2 ^ 16), UInt8.ofNat (buffer / 2 ^ 8)]
  | [a, b] =>
      if 63 < base64Inverse a ∨ 63 < base64Inverse b then none
      else
        let buffer := base64Inverse a * 2 ^ 18 + base64Inverse b * 2 ^ 12
        if buffer % 2 ^ 16 ≠ 0 then none
        else some [UInt8.ofNat (buffer / 2 ^ 16)]
  | [_] => none
  | [] => some []

/-- Padding is allowed. -/
def unbase64 (s : Bytes) : Option Bytes := unbase64Loop (s.rdropWhile (· = 61))

/-! ### Round trip -/

theorem length_alphabet : alphabet.length = 64 := by decide +kernel

theorem alphabet_nodup : alphabet.Nodup := by decide +kernel

theorem alphabet_spec : ∀ c ∈ alphabet, c ≠ 0 ∧ c ≠ 61 := by decide +kernel

theorem letter_spec {i : ℕ} (hi : i < 64) :
    base64Inverse (letter i) = i ∧ letter i ≠ 0 ∧ letter i ≠ 61 := by
  have hlt : i < alphabet.length := length_alphabet ▸ hi
  rw [letter, List.getD_eq_getElem _ _ hlt]
  have hmem := List.getElem_mem hlt
  refine ⟨?_, alphabet_spec _ hmem⟩
  rw [base64Inverse, if_pos hmem, alphabet_nodup.idxOf_getElem]

theorem base64Symbols_lt (input : Bytes) : ∀ i ∈ base64Symbols input, i < 64 := by
  induction input using base64Symbols.induct with
  | case1 a b c rest ih =>
      have ha := a.toNat_lt
      have hb := b.toNat_lt
      have hc := c.toNat_lt
      simp only [base64Symbols, List.forall_mem_cons]
      exact ⟨by omega, by omega, by omega, by omega, ih⟩
  | case2 a b =>
      have ha := a.toNat_lt
      have hb := b.toNat_lt
      simp only [base64Symbols, List.forall_mem_cons]
      exact ⟨by omega, by omega, by omega, List.forall_mem_nil _⟩
  | case3 a =>
      have ha := a.toNat_lt
      simp only [base64Symbols, List.forall_mem_cons]
      exact ⟨by omega, by omega, List.forall_mem_nil _⟩
  | case4 => exact List.forall_mem_nil _

theorem ne_of_mem_base64Encode {input : Bytes} {c : UInt8} (h : c ∈ base64Encode input) :
    c ≠ 0 ∧ c ≠ 61 := by
  obtain ⟨i, hi, rfl⟩ := List.mem_map.mp h
  exact (letter_spec (base64Symbols_lt input i hi)).2

theorem length_base64Encode (input : Bytes) : (base64Encode input).length =
    input.length / 3 * 4 + if input.length % 3 = 0 then 0 else input.length % 3 + 1 := by
  rw [base64Encode, List.length_map]
  induction input using base64Symbols.induct with
  | case1 a b c rest ih =>
      simp only [base64Symbols, List.length_cons, ih]
      split <;> split <;> omega
  | case2 a b => simp [base64Symbols]
  | case3 a => simp [base64Symbols]
  | case4 => rfl

theorem ofNat_eq_of_mod {n : ℕ} {b : UInt8} (h : n % 256 = b.toNat) : UInt8.ofNat n = b := by
  rw [← UInt8.toNat_inj, UInt8.toNat_ofNat']
  exact h

theorem unbase64Loop_base64Encode (input : Bytes) :
    unbase64Loop (base64Encode input) = some input := by
  have hinverse : ∀ i < 64, base64Inverse (letter i) = i := fun _ hi => (letter_spec hi).1
  unfold base64Encode
  induction input using base64Symbols.induct with
  | case1 a b c rest ih =>
      have ha := a.toNat_lt
      have hb := b.toNat_lt
      have hc := c.toNat_lt
      simp only [base64Symbols, List.map_cons, unbase64Loop]
      rw [hinverse (a.toNat / 4) (by omega), hinverse (a.toNat % 4 * 16 + b.toNat / 16) (by omega),
        hinverse (b.toNat % 16 * 4 + c.toNat / 64) (by omega), hinverse (c.toNat % 64) (by omega),
        if_neg (by omega), ih, Option.map_some, ofNat_eq_of_mod (b := a) (by omega),
        ofNat_eq_of_mod (b := b) (by omega), ofNat_eq_of_mod (b := c) (by omega)]
  | case2 a b =>
      have ha := a.toNat_lt
      have hb := b.toNat_lt
      simp only [base64Symbols, List.map_cons, List.map_nil, unbase64Loop]
      rw [hinverse (a.toNat / 4) (by omega), hinverse (a.toNat % 4 * 16 + b.toNat / 16) (by omega),
        hinverse (b.toNat % 16 * 4) (by omega), if_neg (by omega), if_neg (by omega),
        ofNat_eq_of_mod (b := a) (by omega), ofNat_eq_of_mod (b := b) (by omega)]
  | case3 a =>
      have ha := a.toNat_lt
      simp only [base64Symbols, List.map_cons, List.map_nil, unbase64Loop]
      rw [hinverse (a.toNat / 4) (by omega), hinverse (a.toNat % 4 * 16) (by omega),
        if_neg (by omega), if_neg (by omega), ofNat_eq_of_mod (b := a) (by omega)]
  | case4 => rfl

/-- What is encoded has no padding to be dropped. -/
theorem unbase64_base64Encode (input : Bytes) : unbase64 (base64Encode input) = some input := by
  have hdropped : (base64Encode input).rdropWhile (· = 61) = base64Encode input := by
    rw [List.rdropWhile_eq_self_iff]
    intro hne
    simpa using (ne_of_mem_base64Encode (List.getLast_mem hne)).2
  rw [unbase64, hdropped]
  exact unbase64Loop_base64Encode input

end GrpcM.Hpack
