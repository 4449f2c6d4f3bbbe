import GrpcM.Hpack.Base64
import GrpcM.PrefixCode
import Mathlib.Data.List.GetD
import Mathlib.Data.List.Pairwise
import Mathlib.Data.List.Sort

/-!
The Huffman code as bits. What both encoders write are the codes one after another, filled up
with ones, so that the one that makes base64 on the way agrees with the one for any string.
-/

namespace GrpcM.Hpack

def huffsyms : List (ℕ × ℕ) := [
  (0x1ff8, 13), (0x7fffd8, 23), (0xfffffe2, 28), (0xfffffe3, 28), (0xfffffe4, 28),
  (0xfffffe5, 28), (0xfffffe6, 28), (0xfffffe7, 28), (0xfffffe8, 28), (0xffffea, 24),
  (0x3ffffffc, 30), (0xfffffe9, 28), (0xfffffea, 28), (0x3ffffffd, 30), (0xfffffeb, 28),
  (0xfffffec, 28), (0xfffffed, 28), (0xfffffee, 28), (0xfffffef, 28), (0xffffff0, 28),
  (0xffffff1, 28), (0xffffff2, 28), (0x3ffffffe, 30), (0xffffff3, 28), (0xffffff4, 28),
  (0xffffff5, 28), (0xffffff6, 28), (0xffffff7, 28), (0xffffff8, 28), (0xffffff9, 28),
  (0xffffffa, 28), (0xffffffb, 28), (0x14, 6), (0x3f8, 10), (0x3f9, 10), (0xffa, 12),
  (0x1ff9, 13), (0x15, 6), (0xf8, 8), (0x7fa, 11), (0x3fa, 10), (0x3fb, 10), (0xf9, 8),
  (0x7fb, 11), (0xfa, 8), (0x16, 6), (0x17, 6), (0x18, 6), (0x0, 5), (0x1, 5), (0x2, 5),
  (0x19, 6), (0x1a, 6), (0x1b, 6), (0x1c, 6), (0x1d, 6), (0x1e, 6), (0x1f, 6), (0x5c, 7),
  (0xfb, 8), (0x7ffc, 15), (0x20, 6), (0xffb, 12), (0x3fc, 10), (0x1ffa, 13), (0x21, 6),
  (0x5d, 7), (0x5e, 7), (0x5f, 7), (0x60, 7), (0x61, 7), (0x62, 7), (0x63, 7), (0x64, 7),
  (0x65, 7), (0x66, 7), (0x67, 7), (0x68, 7), (0x69, 7), (0x6a, 7), (0x6b, 7), (0x6c, 7),
  (0x6d, 7), (0x6e, 7), (0x6f, 7), (0x70, 7), (0x71, 7), (0x72, 7), (0xfc, 8), (0x73, 7),
  (0xfd, 8), (0x1ffb, 13), (0x7fff0, 19), (0x1ffc, 13), (0x3ffc, 14), (0x22, 6), (0x7ffd, 15),
  (0x3, 5), (0x23, 6), (0x4, 5), (0x24, 6), (0x5, 5), (0x25, 6), (0x26, 6), (0x27, 6), (0x6, 5),
  (0x74, 7), (0x75, 7), (0x28, 6), (0x29, 6), (0x2a, 6), (0x7, 5), (0x2b, 6), (0x76, 7),
  (0x2c, 6), (0x8, 5), (0x9, 5), (0x2d, 6), (0x77, 7), (0x78, 7), (0x79, 7), (0x7a, 7), (0x7b, 7),
  (0x7ffe, 15), (0x7fc, 11), (0x3ffd, 14), (0x1ffd, 13), (0xffffffc, 28), (0xfffe6, 20),
  (0x3fffd2, 22), (0xfffe7, 20), (0xfffe8, 20), (0x3fffd3, 22), (0x3fffd4, 22), (0x3fffd5, 22),
  (0x7fffd9, 23), (0x3fffd6, 22), (0x7fffda, 23), (0x7fffdb, 23), (0x7fffdc, 23), (0x7fffdd, 23),
  (0x7fffde, 23), (0xffffeb, 24), (0x7fffdf, 23), (0xffffec, 24), (0xffffed, 24), (0x3fffd7, 22),
  (0x7fffe0, 23), (0xffffee, 24), (0x7fffe1, 23), (0x7fffe2, 23), (0x7fffe3, 23), (0x7fffe4, 23),
  (0x1fffdc, 21), (0x3fffd8, 22), (0x7fffe5, 23), (0x3fffd9, 22), (0x7fffe6, 23), (0x7fffe7, 23),
  (0xffffef, 24), (0x3fffda, 22), (0x1fffdd, 21), (0xfffe9, 20), (0x3fffdb, 22), (0x3fffdc, 22),
  (0x7fffe8, 23), (0x7fffe9, 23), (0x1fffde, 21), (0x7fffea, 23), (0x3fffdd, 22), (0x3fffde, 22),
  (0xfffff0, 24), (0x1fffdf, 21), (0x3fffdf, 22), (0x7fffeb, 23), (0x7fffec, 23), (0x1fffe0, 21),
  (0x1fffe1, 21), (0x3fffe0, 22), (0x1fffe2, 21), (0x7fffed, 23), (0x3fffe1, 22), (0x7fffee, 23),
  (0x7fffef, 23), (0xfffea, 20), (0x3fffe2, 22), (0x3fffe3, 22), (0x3fffe4, 22), (0x7ffff0, 23),
  (0x3fffe5, 22), (0x3fffe6, 22), (0x7ffff1, 23), (0x3ffffe0, 26), (0x3ffffe1, 26), (0xfffeb, 20),
  (0x7fff1, 19), (0x3fffe7, 22), (0x7ffff2, 23), (0x3fffe8, 22), (0x1ffffec, 25), (0x3ffffe2, 26),
  (0x3ffffe3, 26), (0x3ffffe4, 26), (0x7ffffde, 27), (0x7ffffdf, 27), (0x3ffffe5, 26),
  (0xfffff1, 24), (0x1ffffed, 25), (0x7fff2, 19), (0x1fffe3, 21), (0x3ffffe6, 26),
  (0x7ffffe0, 27), (0x7ffffe1, 27), (0x3ffffe7, 26), (0x7ffffe2, 27), (0xfffff2, 24),
  (0x1fffe4, 21), (0x1fffe5, 21), (0x3ffffe8, 26), (0x3ffffe9, 26), (0xffffffd, 28),
  (0x7ffffe3, 27), (0x7ffffe4, 27), (0x7ffffe5, 27), (0xfffec, 20), (0xfffff3, 24), (0xfffed, 20),
  (0x1fffe6, 21), (0x3fffe9, 22), (0x1fffe7, 21), (0x1fffe8, 21), (0x7ffff3, 23), (0x3fffea, 22),
  (0x3fffeb, 22), (0x1ffffee, 25), (0x1ffffef, 25), (0xfffff4, 24), (0xfffff5, 24),
  (0x3ffffea, 26), (0x7ffff4, 23), (0x3ffffeb, 26), (0x7ffffe6, 27), (0x3ffffec, 26),
  (0x3ffffed, 26), (0x7ffffe7, 27), (0x7ffffe8, 27), (0x7ffffe9, 27), (0x7ffffea, 27),
  (0x7ffffeb, 27), (0xffffffe, 28), (0x7ffffec, 27), (0x7ffffed, 27), (0x7ffffee, 27),
  (0x7ffffef, 27), (0x7fffff0, 27), (0x3ffffee, 26), (0x3fffffff, 30)]

def huffAdd (out : HuffOut) (sym : UInt8) : HuffOut :=
  let s := huffsyms.getD sym.toNat (0, 0)
  encFlushSome { out with
    temp := (out.temp * 2 ^ s.2 + s.1) % 2 ^ 64
    tempLength := out.tempLength + s.2 }

def huffmanCompress (input : Bytes) : Bytes :=
  let out := input.foldl huffAdd {}
  if out.tempLength = 0 then out.out
  else out.out ++ [UInt8.ofNat (out.temp * 2 ^ (8 - out.tempLength)) |||
    UInt8.ofNat (0xff / 2 ^ out.tempLength)]

/-! ### Bits -/

/-- The last `n` bits of a number, the highest first. -/
def bitsOf : ℕ → ℕ → List Bool
  | 0, _ => []
  | n + 1, v => v.testBit n :: bitsOf n v

def byteBits (b : UInt8) : List Bool := bitsOf 8 b.toNat

/-- Filled up with ones to whole bytes. -/
def padded (bits : List Bool) : List Bool :=
  bits ++ List.replicate ((8 - bits.length % 8) % 8) true

@[simp] theorem length_bitsOf (n v : ℕ) : (bitsOf n v).length = n := by
  induction n with
  | zero => rfl
  | succ n ih => rw [bitsOf, List.length_cons, ih]

theorem bitsOf_add (m n v : ℕ) : bitsOf (m + n) v = bitsOf m (v / 2 ^ n) ++ bitsOf n v := by
  induction m with
  | zero => rw [Nat.zero_add]; rfl
  | succ m ih =>
      rw [Nat.add_right_comm, bitsOf, bitsOf, List.cons_append, ih, Nat.testBit_div_two_pow,
        Nat.add_comm]

theorem bitsOf_mod {n k : ℕ} (v : ℕ) (h : n ≤ k) : bitsOf n (v % 2 ^ k) = bitsOf n v := by
  induction n with
  | zero => rfl
  | succ n ih =>
      rw [bitsOf, bitsOf, ih (by omega), Nat.testBit_mod_two_pow, decide_eq_true (by omega : n < k),
        Bool.true_and]

theorem bitsOf_append_code {k code : ℕ} (n v : ℕ) (hcode : code < 2 ^ k) :
    bitsOf (n + k) (v * 2 ^ k + code) = bitsOf n v ++ bitsOf k code := by
  have hdiv : (v * 2 ^ k + code) / 2 ^ k = v := by
    rw [Nat.add_comm, Nat.add_mul_div_right _ _ (Nat.two_pow_pos k), Nat.div_eq_of_lt hcode,
      Nat.zero_add]
  have hmod : (v * 2 ^ k + code) % 2 ^ k = code := by
    rw [Nat.add_comm, Nat.add_mul_mod_self_right, Nat.mod_eq_of_lt hcode]
  rw [bitsOf_add, hdiv, ← bitsOf_mod (v * 2 ^ k + code) (le_refl k), hmod]

theorem bitsOf_ones {k m : ℕ} (h : k ≤ m) : bitsOf k (2 ^ m - 1) = List.replicate k true := by
  induction k with
  | zero => rfl
  | succ k ih =>
      rw [bitsOf, ih (by omega), Nat.testBit_two_pow_sub_one, decide_eq_true (by omega : k < m)]
      rfl

theorem bitsOf_injective {n v w : ℕ} (hv : v < 2 ^ n) (hw : w < 2 ^ n)
    (h : bitsOf n v = bitsOf n w) : v = w := by
  induction n generalizing v w with
  | zero => omega
  | succ n ih =>
      rw [bitsOf, bitsOf, List.cons.injEq] at h
      obtain ⟨htop, hrest⟩ := h
      rw [← bitsOf_mod v (le_refl n), ← bitsOf_mod w (le_refl n)] at hrest
      have hlow := ih (Nat.mod_lt v (Nat.two_pow_pos n)) (Nat.mod_lt w (Nat.two_pow_pos n)) hrest
      have hvtop : v / 2 ^ n < 2 := Nat.div_lt_of_lt_mul (by rw [← Nat.pow_succ]; exact hv)
      have hwtop : w / 2 ^ n < 2 := Nat.div_lt_of_lt_mul (by rw [← Nat.pow_succ]; exact hw)
      rw [Nat.testBit_eq_decide_div_mod_eq, Nat.testBit_eq_decide_div_mod_eq,
        decide_eq_decide] at htop
      have hbit : ∀ x y : ℕ, x < 2 → y < 2 → (x % 2 = 1 ↔ y % 2 = 1) → x = y := by omega
      have hhigh := hbit _ _ hvtop hwtop htop
      rw [← Nat.div_add_mod v (2 ^ n), ← Nat.div_add_mod w (2 ^ n), hlow, hhigh]

theorem flatMap_byteBits_injective {l l' : Bytes} (h : l.flatMap byteBits = l'.flatMap byteBits) :
    l = l' := by
  induction l generalizing l' with
  | nil =>
      cases l' with
      | nil => rfl
      | cons b l' =>
          have hlength := congrArg List.length h
          simp only [List.length_flatMap, byteBits, length_bitsOf, List.map_nil, List.map_cons,
            List.sum_nil, List.sum_cons] at hlength
          omega
  | cons a l ih =>
      cases l' with
      | nil =>
          have hlength := congrArg List.length h
          simp only [List.length_flatMap, byteBits, length_bitsOf, List.map_nil, List.map_cons,
            List.sum_nil, List.sum_cons] at hlength
          omega
      | cons b l' =>
          rw [List.flatMap_cons, List.flatMap_cons] at h
          obtain ⟨hfirst, hrest⟩ := List.append_inj h (by simp [byteBits])
          have hbyte := bitsOf_injective a.toNat_lt b.toNat_lt hfirst
          rw [UInt8.toNat_inj.mp hbyte, ih hrest]

/-! ### The encoders -/

/-- All bits that were added. -/
def HuffOut.bits (o : HuffOut) : List Bool := o.out.flatMap byteBits ++ bitsOf o.tempLength o.temp

theorem encFlushSome_spec (o : HuffOut) :
    (encFlushSome o).bits = o.bits ∧ (encFlushSome o).tempLength ≤ 8 := by
  have hrounds : ∀ (rounds : List ℕ) (o : HuffOut), o.tempLength ≤ 8 + 8 * rounds.length →
      ∀ o', o' = rounds.foldl (fun (out : HuffOut) _ =>
        if 8 < out.tempLength then { out with
          tempLength := out.tempLength - 8
          out := out.out ++ [UInt8.ofNat (out.temp / 2 ^ (out.tempLength - 8))] }
        else out) o → o'.bits = o.bits ∧ o'.tempLength ≤ 8 := by
    intro rounds
    induction rounds with
    | nil =>
        rintro o ho o' rfl
        exact ⟨rfl, ho⟩
    | cons round rounds ih =>
        rintro o ho o' rfl
        rw [List.length_cons] at ho
        rw [List.foldl_cons]
        split
        case isFalse => exact ih _ (by omega) _ rfl
        case isTrue hmore =>
            obtain ⟨hbits, hlength⟩ := ih { o with
              tempLength := o.tempLength - 8
              out := o.out ++ [UInt8.ofNat (o.temp / 2 ^ (o.tempLength - 8))] }
              (show o.tempLength - 8 ≤ _ by omega) _ rfl
            refine ⟨hbits.trans ?_, hlength⟩
            -- the byte that is written has the first eight of the pending bits
            have hsplit : bitsOf o.tempLength o.temp =
                bitsOf 8 (o.temp / 2 ^ (o.tempLength - 8)) ++ bitsOf (o.tempLength - 8) o.temp := by
              rw [← bitsOf_add]
              congr 1
              omega
            have hbyte : byteBits (UInt8.ofNat (o.temp / 2 ^ (o.tempLength - 8))) =
                bitsOf 8 (o.temp / 2 ^ (o.tempLength - 8)) := by
              rw [byteBits, UInt8.toNat_ofNat']
              exact bitsOf_mod _ (le_refl 8)
            simp only [HuffOut.bits, List.flatMap_append, List.flatMap_cons, List.flatMap_nil,
              hbyte, hsplit, List.append_assoc, List.append_nil]
  exact hrounds _ o (by rw [List.length_range]; omega) _ rfl

theorem bits_add {o : HuffOut} {k code : ℕ} (w : ℕ) (ho : o.tempLength ≤ 8) (hcode : code < 2 ^ k)
    (hword : 8 + k ≤ w) :
    (encFlushSome { o with
      temp := (o.temp * 2 ^ k + code) % 2 ^ w
      tempLength := o.tempLength + k }).bits = o.bits ++ bitsOf k code := by
  rw [(encFlushSome_spec _).1]
  show o.out.flatMap byteBits ++ bitsOf (o.tempLength + k) ((o.temp * 2 ^ k + code) % 2 ^ w) = _
  rw [bitsOf_mod _ (by omega), bitsOf_append_code _ _ hcode, ← List.append_assoc]
  rfl

theorem bits_finish {o : HuffOut} (ho : o.tempLength ≤ 8) :
    (if o.tempLength = 0 then o.out
      else o.out ++ [UInt8.ofNat (o.temp * 2 ^ (8 - o.tempLength)) |||
        UInt8.ofNat (0xff / 2 ^ o.tempLength)]).flatMap byteBits = padded o.bits := by
  have hlength : o.bits.length = 8 * o.out.length + o.tempLength := by
    rw [HuffOut.bits, List.length_append, length_bitsOf, List.length_flatMap]
    simp [byteBits, Nat.mul_comm]
  have hlast : ∀ n, 0 < n → n ≤ 8 →
      byteBits (UInt8.ofNat (o.temp * 2 ^ (8 - n)) ||| UInt8.ofNat (0xff / 2 ^ n)) =
        bitsOf n o.temp ++ List.replicate (8 - n) true := by
    intro n hpositive hn
    have hones : ∀ n ≤ 8, 0xff / 2 ^ n = 2 ^ (8 - n) - 1 := by decide
    have hfill : 2 ^ (8 - n) - 1 < 2 ^ (8 - n) := Nat.sub_one_lt (Nat.two_pow_pos _).ne'
    rw [byteBits, UInt8.toNat_or, UInt8.toNat_ofNat', UInt8.toNat_ofNat', ← Nat.or_mod_two_pow,
      bitsOf_mod _ (le_refl 8), hones n hn, Nat.mul_comm o.temp,
      ← Nat.two_pow_add_eq_or_of_lt hfill, Nat.mul_comm _ o.temp]
    have hall := bitsOf_append_code n o.temp hfill
    rw [Nat.add_sub_cancel' hn, bitsOf_ones le_rfl] at hall
    exact hall
  split
  case isTrue hzero =>
      rw [padded, hlength, show (8 - (8 * o.out.length + o.tempLength) % 8) % 8 = 0 by omega]
      simp [HuffOut.bits, hzero, bitsOf]
  case isFalse hmore =>
      rw [padded, hlength, show (8 - (8 * o.out.length + o.tempLength) % 8) % 8 =
        8 - o.tempLength by omega, List.flatMap_append, List.flatMap_singleton,
        hlast o.tempLength (by omega) ho, HuffOut.bits, List.append_assoc]

theorem alphabet_map_huffsyms :
    alphabet.map (fun c => huffsyms.getD c.toNat (0, 0)) = huffAlphabet := by
  decide +kernel

theorem huffAlphabet_bounds : ∀ s ∈ huffAlphabet, s.1 < 2 ^ s.2 ∧ s.2 ≤ 11 := by decide +kernel

theorem huffAlphabet_spec {i : ℕ} (hi : i < 64) :
    huffsyms.getD (letter i).toNat (0, 0) = huffAlphabet.getD i (0, 0) ∧
      (huffAlphabet.getD i (0, 0)).1 < 2 ^ (huffAlphabet.getD i (0, 0)).2 ∧
      (huffAlphabet.getD i (0, 0)).2 ≤ 11 := by
  have hlength : i < alphabet.length := length_alphabet ▸ hi
  have hlt : i < huffAlphabet.length := by rwa [← alphabet_map_huffsyms, List.length_map]
  rw [List.getD_eq_getElem _ _ hlt]
  refine ⟨?_, huffAlphabet_bounds _ (List.getElem_mem hlt)⟩
  simp only [← alphabet_map_huffsyms, List.getElem_map, letter, List.getD_eq_getElem _ _ hlength]

theorem huffsyms_bounds : ∀ s ∈ huffsyms, s.1 < 2 ^ s.2 ∧ s.2 ≤ 30 := by decide +kernel

/-- Only the last code, of the end, has no zero in it. -/
theorem huffsyms_zero : ∀ s ∈ huffsyms.take 256, s.1 + 1 < 2 ^ s.2 := by decide +kernel

theorem length_huffsyms : huffsyms.length = 257 := by decide +kernel

theorem getD_huffsyms_mem (c : UInt8) : huffsyms.getD c.toNat (0, 0) ∈ huffsyms.take 256 := by
  have hc := c.toNat_lt
  have hlt : c.toNat < huffsyms.length := by rw [length_huffsyms]; omega
  rw [List.getD_eq_getElem _ _ hlt, List.mem_take_iff_getElem]
  exact ⟨c.toNat, by omega, rfl⟩

theorem huffsyms_spec (c : UInt8) :
    (huffsyms.getD c.toNat (0, 0)).1 < 2 ^ (huffsyms.getD c.toNat (0, 0)).2 ∧
      (huffsyms.getD c.toNat (0, 0)).2 ≤ 30 :=
  huffsyms_bounds _ (List.mem_of_mem_take (getD_huffsyms_mem c))

def symbolBits (i : ℕ) : List Bool :=
  bitsOf (huffAlphabet.getD i (0, 0)).2 (huffAlphabet.getD i (0, 0)).1

def huffBits (c : UInt8) : List Bool :=
  bitsOf (huffsyms.getD c.toNat (0, 0)).2 (huffsyms.getD c.toNat (0, 0)).1

theorem encAdd1_spec {o : HuffOut} {a : ℕ} (ho : o.tempLength ≤ 8) (ha : a < 64) :
    (encAdd1 o a).bits = o.bits ++ symbolBits a ∧ (encAdd1 o a).tempLength ≤ 8 := by
  obtain ⟨-, hcode, hlength⟩ := huffAlphabet_spec ha
  exact ⟨bits_add 32 ho hcode (by omega), (encFlushSome_spec _).2⟩

theorem encAdd2_spec {o : HuffOut} {a b : ℕ} (ho : o.tempLength ≤ 8) (ha : a < 64) (hb : b < 64) :
    (encAdd2 o a b).bits = o.bits ++ (symbolBits a ++ symbolBits b) ∧
      (encAdd2 o a b).tempLength ≤ 8 := by
  obtain ⟨-, hcodea, hlengtha⟩ := huffAlphabet_spec ha
  obtain ⟨-, hcodeb, hlengthb⟩ := huffAlphabet_spec hb
  refine ⟨?_, (encFlushSome_spec _).2⟩
  have hcode : (huffAlphabet.getD a (0, 0)).1 * 2 ^ (huffAlphabet.getD b (0, 0)).2 +
      (huffAlphabet.getD b (0, 0)).1 <
      2 ^ ((huffAlphabet.getD a (0, 0)).2 + (huffAlphabet.getD b (0, 0)).2) := by
    rw [Nat.pow_add]
    calc _ < ((huffAlphabet.getD a (0, 0)).1 + 1) * 2 ^ (huffAlphabet.getD b (0, 0)).2 := by
          rw [Nat.add_mul, Nat.one_mul]
          omega
      _ ≤ _ := Nat.mul_le_mul_right _ hcodea
  rw [symbolBits, symbolBits, ← bitsOf_append_code _ _ hcodeb, encAdd2, Nat.add_assoc]
  exact bits_add 32 ho hcode (by omega)

theorem encSymbols_spec {o : HuffOut} {symbols : List ℕ} (ho : o.tempLength ≤ 8)
    (hsymbols : ∀ i ∈ symbols, i < 64) :
    (encSymbols o symbols).bits = o.bits ++ symbols.flatMap symbolBits ∧
      (encSymbols o symbols).tempLength ≤ 8 := by
  induction o, symbols using encSymbols.induct with
  | case1 o a b rest ih =>
      obtain ⟨ha, hrest⟩ := List.forall_mem_cons.mp hsymbols
      obtain ⟨hb, hrest⟩ := List.forall_mem_cons.mp hrest
      obtain ⟨hbits, hlength⟩ := encAdd2_spec ho ha hb
      obtain ⟨hall, hend⟩ := ih hlength hrest
      refine ⟨?_, hend⟩
      rw [encSymbols, hall, hbits, List.flatMap_cons, List.flatMap_cons, List.append_assoc,
        List.append_assoc]
  | case2 o a =>
      obtain ⟨hbits, hlength⟩ := encAdd1_spec ho (hsymbols a List.mem_cons_self)
      exact ⟨by rw [encSymbols, hbits, List.flatMap_singleton], hlength⟩
  | case3 o => exact ⟨(List.append_nil _).symm, ho⟩

theorem foldl_huffAdd_spec {o : HuffOut} (input : Bytes) (ho : o.tempLength ≤ 8) :
    (input.foldl huffAdd o).bits = o.bits ++ input.flatMap huffBits ∧
      (input.foldl huffAdd o).tempLength ≤ 8 := by
  induction input generalizing o with
  | nil => exact ⟨(List.append_nil _).symm, ho⟩
  | cons c input ih =>
      obtain ⟨hcode, hlength⟩ := huffsyms_spec c
      have hone : (huffAdd o c).bits = o.bits ++ huffBits c := bits_add 64 ho hcode (by omega)
      obtain ⟨hall, hend⟩ := ih (o := huffAdd o c) (encFlushSome_spec _).2
      refine ⟨?_, hend⟩
      rw [List.foldl_cons, hall, List.flatMap_cons, ← List.append_assoc, ← hone]

theorem bits_base64EncodeAndHuffmanCompress (input : Bytes) :
    (base64EncodeAndHuffmanCompress input).flatMap byteBits =
      padded ((base64Encode input).flatMap huffBits) := by
  obtain ⟨hbits, hlength⟩ := encSymbols_spec (o := {}) (Nat.zero_le 8) (base64Symbols_lt input)
  have hletters : (base64Symbols input).flatMap symbolBits =
      (base64Encode input).flatMap huffBits := by
    rw [base64Encode, List.flatMap_map]
    apply List.flatMap_congr
    intro i hi
    obtain ⟨hsame, -⟩ := huffAlphabet_spec (base64Symbols_lt input i hi)
    rw [symbolBits, huffBits, hsame]
  rw [base64EncodeAndHuffmanCompress, bits_finish hlength, hbits, hletters]
  rfl

theorem bits_huffmanCompress (input : Bytes) :
    (huffmanCompress input).flatMap byteBits = padded (input.flatMap huffBits) := by
  obtain ⟨hbits, hlength⟩ := foldl_huffAdd_spec (o := {}) input (Nat.zero_le 8)
  rw [huffmanCompress, bits_finish hlength, hbits]
  rfl

/-- One pass over a value does what encoding it and then compressing the text do: it writes the
codes of the letters, and ones up to the next byte. -/
theorem encodeAndCompress_eq (input : Bytes) :
    base64EncodeAndHuffmanCompress input = huffmanCompress (base64Encode input) ∧
      (base64EncodeAndHuffmanCompress input).flatMap byteBits =
        padded ((base64Encode input).flatMap huffBits) := by
  refine ⟨flatMap_byteBits_injective ?_, bits_base64EncodeAndHuffmanCompress input⟩
  rw [bits_base64EncodeAndHuffmanCompress, bits_huffmanCompress]

/-! ### No two strings are compressed alike -/

/-- Every word of 30 bits that starts with `s` comes before those that start with `t`. -/
def Before (s t : ℕ × ℕ) : Prop := (s.1 + 1) * 2 ^ (30 - s.2) ≤ t.1 * 2 ^ (30 - t.2)

instance : DecidableRel Before := fun s t =>
  inferInstanceAs (Decidable ((s.1 + 1) * 2 ^ (30 - s.2) ≤ t.1 * 2 ^ (30 - t.2)))

instance : IsTrans (ℕ × ℕ) Before where
  trans s t u hst htu := by
    have hword : t.1 * 2 ^ (30 - t.2) ≤ (t.1 + 1) * 2 ^ (30 - t.2) :=
      Nat.mul_le_mul_right _ (Nat.le_succ _)
    exact hst.trans (hword.trans htu)

/-- The codes in ascending order. -/
def ascending : List (ℕ × ℕ) :=
  huffsyms.insertionSort fun s t => s.1 * 2 ^ (30 - s.2) ≤ t.1 * 2 ^ (30 - t.2)

theorem ascending_before : ascending.Pairwise Before := by
  rw [← List.isChain_iff_pairwise]
  decide +kernel

theorem huffsyms_apart : huffsyms.Pairwise fun s t => Before s t ∨ Before t s := by
  have hperm : ascending.Perm huffsyms := List.perm_insertionSort _ _
  rw [← hperm.pairwise_iff fun h => h.symm]
  exact ascending_before.imp fun h => .inl h

/-- The number that has no zero among its `n` bits is the largest one. -/
theorem false_mem_bitsOf {n v : ℕ} (h : v + 1 < 2 ^ n) : false ∈ bitsOf n v := by
  by_contra hmem
  have hones : bitsOf n v = List.replicate n true :=
    List.eq_replicate_iff.mpr ⟨length_bitsOf n v, fun b hb => by
      cases b with
      | false => exact absurd hb hmem
      | true => rfl⟩
  have hlast := bitsOf_injective (by omega) (by omega : 2 ^ n - 1 < 2 ^ n)
    (hones.trans (bitsOf_ones le_rfl).symm)
  omega

theorem huffBits_zero (c : UInt8) : false ∈ huffBits c :=
  false_mem_bitsOf (huffsyms_zero _ (getD_huffsyms_mem c))

theorem eq_of_bitsOf_prefix {k code n v : ℕ} (hcode : code < 2 ^ k) (hv : v < 2 ^ n)
    (h : bitsOf k code <+: bitsOf n v) : k ≤ n ∧ v / 2 ^ (n - k) = code := by
  have hle := h.length_le
  rw [length_bitsOf, length_bitsOf] at hle
  refine ⟨hle, ?_⟩
  have hsplit : bitsOf n v = bitsOf k (v / 2 ^ (n - k)) ++ bitsOf (n - k) v := by
    rw [← bitsOf_add, Nat.add_sub_cancel' hle]
  rw [hsplit] at h
  have heq := (List.prefix_of_prefix_length_le h (List.prefix_append _ _) (by simp)).eq_of_length
    (by simp)
  have hlt : v / 2 ^ (n - k) < 2 ^ k := by
    apply Nat.div_lt_of_lt_mul
    rw [← Nat.pow_add, Nat.sub_add_cancel hle]
    exact hv
  exact (bitsOf_injective hcode hlt heq).symm

/-- A code that starts another one stands for words before which, and behind which, there is
none of the other's. -/
theorem not_before_of_prefix {s t : ℕ × ℕ} (hs : s.1 < 2 ^ s.2) (ht : t.1 < 2 ^ t.2)
    (hlength : t.2 ≤ 30) (h : bitsOf s.2 s.1 <+: bitsOf t.2 t.1) :
    ¬(Before s t ∨ Before t s) := by
  obtain ⟨hle, hcode⟩ := eq_of_bitsOf_prefix hs ht h
  have hpow : 2 ^ (30 - s.2) = 2 ^ (t.2 - s.2) * 2 ^ (30 - t.2) := by
    rw [← Nat.pow_add]
    congr 1
    omega
  have hpos : 0 < 2 ^ (30 - t.2) := Nat.two_pow_pos _
  have hlow : s.1 * 2 ^ (t.2 - s.2) ≤ t.1 := by
    rw [← hcode]
    exact Nat.div_mul_le_self _ _
  have hhigh : t.1 < (s.1 + 1) * 2 ^ (t.2 - s.2) := by
    rw [← hcode]
    exact Nat.lt_mul_of_div_lt (Nat.lt_succ_self _) (Nat.two_pow_pos _)
  rintro (hbefore | hbehind)
  · rw [Before, hpow, ← Nat.mul_assoc] at hbefore
    exact absurd (Nat.le_of_mul_le_mul_right hbefore hpos) (by omega)
  · rw [Before, hpow, ← Nat.mul_assoc] at hbehind
    exact absurd (Nat.le_of_mul_le_mul_right hbehind hpos) (by omega)

theorem huffBits_prefix_free (a b : UInt8) (h : huffBits a <+: huffBits b) : a = b := by
  by_contra hne
  have hlength := length_huffsyms
  have hapart : ∀ i j, i < j → j < 256 →
      Before (huffsyms.getD i (0, 0)) (huffsyms.getD j (0, 0)) ∨
        Before (huffsyms.getD j (0, 0)) (huffsyms.getD i (0, 0)) := by
    intro i j hij hj
    rw [List.getD_eq_getElem _ _ (by omega : i < huffsyms.length),
      List.getD_eq_getElem _ _ (by omega : j < huffsyms.length)]
    exact List.pairwise_iff_getElem.mp huffsyms_apart i j (by omega) (by omega) hij
  have ha := huffsyms_spec a
  have hb := huffsyms_spec b
  have hnone := not_before_of_prefix ha.1 hb.1 hb.2 h
  rcases Nat.lt_or_gt_of_ne (fun hsame => hne (UInt8.toNat_inj.mp hsame)) with hlt | hgt
  · exact hnone (hapart _ _ hlt b.toNat_lt)
  · exact hnone (hapart _ _ hgt a.toNat_lt).symm

theorem huffmanCompress_injective : Function.Injective huffmanCompress := by
  intro s t h
  have hbits := congrArg (List.flatMap byteBits) h
  rw [bits_huffmanCompress, bits_huffmanCompress] at hbits
  exact PrefixCode.flatMap_injective_of_prefix_free huffBits_prefix_free huffBits_zero hbits

end GrpcM.Hpack
