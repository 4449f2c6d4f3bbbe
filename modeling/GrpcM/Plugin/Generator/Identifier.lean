import GrpcM.Bytes
import GrpcM.Plugin.Generator.Program

/-!
Include guards. A file name is made an identifier byte by byte, and it can be read back, so
two files never have the same guard for the same kind of header. The guards of the two kinds
are kept apart by a prefix that an identifier may have too.
-/

namespace GrpcM.Plugin

open GrpcM.Path

/-- `isalnum` in the C locale. -/
def isAlnum (b : UInt8) : Bool :=
  (48 ≤ b && b ≤ 57) || (65 ≤ b && b ≤ 90) || (97 ≤ b && b ≤ 122)

def hexDigits : Text :=
  ['0', '1', '2', '3', '4', '5', '6', '7', '8', '9', 'a', 'b', 'c', 'd', 'e', 'f']

def hexDigit (n : UInt8) : Char := hexDigits.getD n.toNat '0'

def byteIdentifier (b : UInt8) : Text :=
  if isAlnum b then [Char.ofNat b.toNat] else ['_', hexDigit (b / 16), hexDigit (b % 16)]

def bytes (filename : Text) : List UInt8 := filename.flatMap String.utf8EncodeChar

/-- The bytes of a name are those of its UTF-8 text. -/
def filenameIdentifier (filename : Text) : Text := (bytes filename).flatMap byteIdentifier

/-! ### Reading it back -/

theorem bytes_injective : Function.Injective bytes := by
  intro a b h
  have hbytes : a.utf8Encode = b.utf8Encode := congrArg List.toByteArray h
  rw [← String.ofList_inj, ← String.toByteArray_inj, String.toByteArray_ofList,
    String.toByteArray_ofList, hbytes]

/-- The byte that a letter or a digit stands for. -/
def charByte (c : Char) : UInt8 := UInt8.ofNat c.toNat

theorem charByte_ofNat (b : UInt8) : isAlnum b = true →
    Char.ofNat b.toNat ≠ '_' ∧ charByte (Char.ofNat b.toNat) = b := by
  refine forall_byte (P := fun b => isAlnum b = true →
    Char.ofNat b.toNat ≠ '_' ∧ charByte (Char.ofNat b.toNat) = b) ?_ b
  decide +kernel

def hexValue (c : Char) : UInt8 := UInt8.ofNat (hexDigits.idxOf c)

theorem hexValue_hexDigit (b : UInt8) :
    hexValue (hexDigit (b / 16)) * 16 + hexValue (hexDigit (b % 16)) = b := by
  refine forall_byte (P := fun b =>
    hexValue (hexDigit (b / 16)) * 16 + hexValue (hexDigit (b % 16)) = b) ?_ b
  decide +kernel

theorem byteIdentifier_hexDigit (n : UInt8) :
    byteIdentifier (charByte (hexDigit n)) = [hexDigit n] ∧ hexDigit n ≠ '_' := by
  refine forall_byte (P := fun n =>
    byteIdentifier (charByte (hexDigit n)) = [hexDigit n] ∧ hexDigit n ≠ '_') ?_ n
  decide +kernel

/-- What starts with another letter than `_` starts with a byte that is kept. -/
theorem kept_of_cons {as : List UInt8} {c : Char} {t : Text} (hc : c ≠ '_')
    (h : as.flatMap byteIdentifier = c :: t) :
    ∃ as', as = charByte c :: as' ∧ as'.flatMap byteIdentifier = t := by
  cases as with
  | nil => cases h
  | cons a as =>
      rw [List.flatMap_cons, byteIdentifier] at h
      split at h
      case isTrue halnum =>
          obtain ⟨rfl, htail⟩ := List.cons.inj h
          exact ⟨as, by rw [(charByte_ofNat a halnum).2], htail⟩
      case isFalse => exact absurd (List.cons.inj h).1.symm hc

/-- What starts with `_` starts with a byte that is spelled out. -/
theorem spelled_of_cons {as : List UInt8} {t : Text}
    (h : as.flatMap byteIdentifier = '_' :: t) :
    ∃ b as', as = b :: as' ∧ isAlnum b = false ∧
      t = hexDigit (b / 16) :: hexDigit (b % 16) :: as'.flatMap byteIdentifier := by
  cases as with
  | nil => cases h
  | cons a as =>
      rw [List.flatMap_cons, byteIdentifier] at h
      split at h
      case isTrue halnum => exact absurd (List.cons.inj h).1 (charByte_ofNat a halnum).1
      case isFalse halnum =>
          exact ⟨a, as, rfl, Bool.not_eq_true _ ▸ halnum, (List.cons.inj h).2.symm⟩

theorem flatMap_byteIdentifier_injective {as bs : List UInt8}
    (h : as.flatMap byteIdentifier = bs.flatMap byteIdentifier) : as = bs := by
  induction as generalizing bs with
  | nil =>
      cases bs with
      | nil => rfl
      | cons b bs =>
          rw [List.flatMap_cons, byteIdentifier] at h
          split at h
          · cases h
          · cases h
  | cons a as ih =>
      rw [List.flatMap_cons, byteIdentifier] at h
      split at h
      case isTrue halnum =>
          obtain ⟨hne, hbyte⟩ := charByte_ofNat a halnum
          obtain ⟨bs', rfl, htail⟩ := kept_of_cons hne h.symm
          rw [hbyte, ih htail.symm]
      case isFalse halnum =>
          obtain ⟨b, bs', rfl, -, htail⟩ := spelled_of_cons h.symm
          obtain ⟨hhigh, htail⟩ := List.cons.inj htail
          obtain ⟨hlow, htail⟩ := List.cons.inj htail
          have hab : a = b := by
            rw [← hexValue_hexDigit a, ← hexValue_hexDigit b, hhigh, hlow]
          rw [hab, ih htail]

theorem filenameIdentifier_injective : Function.Injective filenameIdentifier :=
  fun _ _ h => bytes_injective (flatMap_byteIdentifier_injective h)

/-! ### Guards -/

def headerGuard (filename : Text) : Text :=
  lit "GRPC_" ++ filenameIdentifier filename ++ lit "__INCLUDED"

def mockGuard (filename : Text) : Text :=
  lit "GRPC_MOCK_" ++ filenameIdentifier filename ++ lit "__INCLUDED"

/-- A header has the guard of a mock header when its name starts with `MOCK` and a byte that
is spelled out, and the name of the other file starts with the two digits of that byte. -/
theorem headerGuard_eq_mockGuard_iff (a b : Text) :
    headerGuard a = mockGuard b ↔ ∃ x rest, isAlnum x = false ∧
      bytes a = bytes (lit "MOCK") ++ x :: rest ∧
      bytes b = charByte (hexDigit (x / 16)) :: charByte (hexDigit (x % 16)) :: rest := by
  have hguards : headerGuard a = mockGuard b ↔
      (bytes a).flatMap byteIdentifier =
        'M' :: 'O' :: 'C' :: 'K' :: '_' :: (bytes b).flatMap byteIdentifier := by
    have hmock : mockGuard b = lit "GRPC_" ++
        ('M' :: 'O' :: 'C' :: 'K' :: '_' :: (bytes b).flatMap byteIdentifier) ++
        lit "__INCLUDED" := rfl
    rw [headerGuard, hmock, List.append_cancel_right_eq, List.append_cancel_left_eq,
      filenameIdentifier]
  have hletters :
      bytes (lit "MOCK") = [charByte 'M', charByte 'O', charByte 'C', charByte 'K'] := by
    decide +kernel
  rw [hguards, hletters]
  constructor
  · intro h
    obtain ⟨as₁, ha, h₁⟩ := kept_of_cons (by decide) h
    obtain ⟨as₂, rfl, h₂⟩ := kept_of_cons (by decide) h₁
    obtain ⟨as₃, rfl, h₃⟩ := kept_of_cons (by decide) h₂
    obtain ⟨as₄, rfl, h₄⟩ := kept_of_cons (by decide) h₃
    obtain ⟨x, rest, rfl, hx, h₅⟩ := spelled_of_cons h₄
    obtain ⟨bs₁, hb, h₆⟩ := kept_of_cons (byteIdentifier_hexDigit _).2 h₅
    obtain ⟨bs₂, rfl, h₇⟩ := kept_of_cons (byteIdentifier_hexDigit _).2 h₆
    obtain rfl := flatMap_byteIdentifier_injective h₇
    exact ⟨x, _, hx, ha, hb⟩
  · rintro ⟨x, rest, hx, ha, hb⟩
    have hspelled : byteIdentifier x = ['_', hexDigit (x / 16), hexDigit (x % 16)] := by
      rw [byteIdentifier, hx, if_neg Bool.false_ne_true]
    have hmock : [charByte 'M', charByte 'O', charByte 'C', charByte 'K'].flatMap byteIdentifier =
        ['M', 'O', 'C', 'K'] := by decide +kernel
    rw [ha, hb, List.flatMap_append, hmock, List.flatMap_cons, List.flatMap_cons,
      List.flatMap_cons, hspelled, (byteIdentifier_hexDigit _).1, (byteIdentifier_hexDigit _).1]
    rfl

/-- Two files never have one guard for the same kind of header. -/
theorem guards_distinct (a b : Text) :
    (headerGuard a = headerGuard b ↔ a = b) ∧ (mockGuard a = mockGuard b ↔ a = b) := by
  have hcancel (before after : Text) : before ++ filenameIdentifier a ++ after =
      before ++ filenameIdentifier b ++ after ↔ a = b := by
    rw [List.append_cancel_right_eq, List.append_cancel_left_eq]
    exact filenameIdentifier_injective.eq_iff
  exact ⟨hcancel _ _, hcancel _ _⟩

end GrpcM.Plugin
