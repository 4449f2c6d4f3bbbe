import GrpcM.Path.Basic
import Mathlib.Data.List.DropRight

/-!
The text functions of Python's standard library that the generator script uses.
-/

namespace GrpcM.Python

open GrpcM.Path

/-- `str.isspace` of one character, which is also what `\s` matches. -/
def isSpace (c : Char) : Bool :=
  let n := c.toNat
  (9 ≤ n && n ≤ 13) || (28 ≤ n && n ≤ 32) || n == 0x85 || n == 0xa0 || n == 0x1680 ||
    (0x2000 ≤ n && n ≤ 0x200a) || n == 0x2028 || n == 0x2029 || n == 0x202f || n == 0x205f ||
    n == 0x3000

/-- The line boundaries of `str.splitlines`. -/
def isLineBreak (c : Char) : Bool :=
  let n := c.toNat
  (10 ≤ n && n ≤ 13) || (28 ≤ n && n ≤ 30) || n == 0x85 || n == 0x2028 || n == 0x2029

/-- `str.splitlines`; a boundary at the end starts no line. -/
def splitlines : Text → List Text
  | [] => []
  | '\r' :: '\n' :: t => [] :: splitlines t
  | c :: t =>
      if isLineBreak c then [] :: splitlines t
      else
        match splitlines t with
        | [] => [[c]]
        | l :: ls => (c :: l) :: ls

def strip (t : Text) : Text := (t.dropWhile isSpace).rdropWhile isSpace

def endsWith (t suffix : Text) : Bool := suffix.isSuffixOf t

/-- The newlines `read_text` reads: every line ending becomes a line feed. -/
def universalNewlines : Text → Text
  | [] => []
  | '\r' :: '\n' :: t => '\n' :: universalNewlines t
  | c :: t => (if c = '\r' then '\n' else c) :: universalNewlines t

/-! ### Lines -/

theorem splitlines_cons {c : Char} {t : Text} (hpair : ∀ t', c = '\r' → t ≠ '\n' :: t') :
    splitlines (c :: t) =
      if isLineBreak c then [] :: splitlines t
      else
        match splitlines t with
        | [] => [[c]]
        | l :: ls => (c :: l) :: ls := by
  rw [splitlines]
  exact fun t' hc ht => hpair t' hc ht

theorem isLineBreak_of_mem_splitlines {t l : Text} {c : Char} (hl : l ∈ splitlines t)
    (hc : c ∈ l) : isLineBreak c = false := by
  fun_induction splitlines t generalizing l with
  | case1 => cases hl
  | case2 t ih =>
      rcases List.mem_cons.mp hl with rfl | hl
      · cases hc
      · exact ih hl hc
  | case3 a t _ hbreak ih =>
      rcases List.mem_cons.mp hl with rfl | hl
      · cases hc
      · exact ih hl hc
  | case4 a t _ hbreak hnil ih =>
      obtain rfl := List.mem_singleton.mp hl
      obtain rfl := List.mem_singleton.mp hc
      simpa using hbreak
  | case5 a t _ hbreak l' ls hcons ih =>
      rcases List.mem_cons.mp hl with rfl | hl
      · rcases List.mem_cons.mp hc with rfl | hc
        · simpa using hbreak
        · exact ih (hcons ▸ List.mem_cons_self) hc
      · exact ih (hcons ▸ List.mem_cons_of_mem _ hl) hc

/-! ### Line endings -/

theorem not_mem_universalNewlines (t : Text) : '\r' ∉ universalNewlines t := by
  fun_induction universalNewlines t with
  | case1 => simp
  | case2 t ih => simpa using ih
  | case3 c t _ ih =>
      rw [List.mem_cons, not_or]
      refine ⟨?_, ih⟩
      split
      · decide
      · exact Ne.symm ‹_›

theorem universalNewlines_of_not_mem {t : Text} (ht : '\r' ∉ t) : universalNewlines t = t := by
  fun_induction universalNewlines t with
  | case1 => rfl
  | case2 t ih => simp at ht
  | case3 c t _ ih =>
      rw [List.mem_cons, not_or] at ht
      rw [ih ht.2, if_neg (Ne.symm ht.1)]

/-! ### Stripping -/

theorem strip_cons {c : Char} (hc : isSpace c = true) (t : Text) : strip (c :: t) = strip t := by
  rw [strip, List.dropWhile_cons_of_pos hc, strip]

theorem mem_of_mem_strip {t : Text} {c : Char} (hc : c ∈ strip t) : c ∈ t :=
  (List.dropWhile_sublist _).subset ((List.rdropWhile_prefix _ _).subset hc)

end GrpcM.Python
