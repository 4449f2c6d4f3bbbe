import GrpcM.Bytes
import Mathlib.Data.Rat.Cast.Order
import Mathlib.Tactic.Linarith

/-!
Timeouts on the wire. A duration is rounded up until few digits and a unit are left of it, so
that equal timeouts are more frequent and the table of headers is of use for them.
-/

namespace GrpcM.Hpack

inductive TimeoutUnit where
  | nanoseconds
  | milliseconds
  | tenMilliseconds
  | hundredMilliseconds
  | seconds
  | tenSeconds
  | hundredSeconds
  | minutes
  | tenMinutes
  | hundredMinutes
  | hours
  deriving DecidableEq, Repr

/-- The value has 16 bits. -/
structure Timeout where
  value : ℕ := 0
  unit : TimeoutUnit := .nanoseconds
  bounded : value < 2 ^ 16 := by decide
  deriving DecidableEq, Repr

/-- A duration in milliseconds, or one without an end. -/
inductive Duration where
  | millis (n : ℤ)
  | infinity
  deriving DecidableEq, Repr

namespace Timeout

open TimeoutUnit

def divideRoundingUp (dividend divisor : ℤ) : ℤ := (dividend - 1 + divisor) / divisor

def maxHours : ℤ := 27000

/-- The constructor takes 16 bits. -/
def make (value : ℤ) (unit : TimeoutUnit) : Timeout where
  value := (value % 2 ^ 16).toNat
  unit := unit
  bounded := by omega

def fromHours (n : ℤ) : Timeout :=
  if n < maxHours then make n hours else make maxHours hours

def fromMinutes (n : ℤ) : Timeout :=
  if n < 1000 ∧ n % 60 ≠ 0 then make n minutes
  else if ¬n < 1000 ∧ n < 10000 ∧ divideRoundingUp n 10 * 10 % 60 ≠ 0 then
    make (divideRoundingUp n 10) tenMinutes
  else if ¬n < 10000 ∧ n < 100000 ∧ divideRoundingUp n 100 * 100 % 60 ≠ 0 then
    make (divideRoundingUp n 100) hundredMinutes
  else fromHours (divideRoundingUp n 60)

def fromSeconds (n : ℤ) : Timeout :=
  if n < 1000 ∧ n % 60 ≠ 0 then make n seconds
  else if ¬n < 1000 ∧ n < 10000 ∧ divideRoundingUp n 10 * 10 % 60 ≠ 0 then
    make (divideRoundingUp n 10) tenSeconds
  else if ¬n < 10000 ∧ n < 100000 ∧ divideRoundingUp n 100 * 100 % 60 ≠ 0 then
    make (divideRoundingUp n 100) hundredSeconds
  else fromMinutes (divideRoundingUp n 60)

def fromMillis (n : ℤ) : Timeout :=
  if n ≤ 0 then make 1 nanoseconds
  else if n < 1000 then make n milliseconds
  else if n < 10000 ∧ divideRoundingUp n 10 % 100 ≠ 0 then
    make (divideRoundingUp n 10) tenMilliseconds
  else if ¬n < 10000 ∧ n < 100000 ∧ divideRoundingUp n 100 % 10 ≠ 0 then
    make (divideRoundingUp n 100) hundredMilliseconds
  -- the rounding below would overflow
  else if ¬n < 100000 ∧ 2 ^ 63 - 1 - 999 < n then make maxHours hours
  else fromSeconds (divideRoundingUp n 1000)

def asDuration (t : Timeout) : ℤ :=
  match t.unit with
  | nanoseconds => 0
  | milliseconds => t.value
  | tenMilliseconds => t.value * 10
  | hundredMilliseconds => t.value * 100
  | seconds => t.value * 1000
  | tenSeconds => t.value * 10 * 1000
  | hundredSeconds => t.value * 100 * 1000
  | minutes => t.value * 60000
  | tenMinutes => t.value * 10 * 60000
  | hundredMinutes => t.value * 100 * 60000
  | hours => t.value * 3600000

/-- The difference from another timeout, in percent of the other one. -/
def ratioVersus (t other : Timeout) : ℚ :=
  let a := t.asDuration
  let b := other.asDuration
  if b = 0 then
    if 0 < a then 100 else if a < 0 then -100 else 0
  else 100 * (a / b - 1)

/-! ### On the wire -/

def digit (n : ℕ) : UInt8 := UInt8.ofNat (48 + n)

def encodeValue (n : ℕ) : Bytes :=
  (if 10000 ≤ n then [digit (n / 10000)] else []) ++
  (if 1000 ≤ n then [digit (n % 10000 / 1000)] else []) ++
  (if 100 ≤ n then [digit (n % 1000 / 100)] else []) ++
  (if 10 ≤ n then [digit (n % 100 / 10)] else []) ++ [digit (n % 10)]

def encodeUnit : TimeoutUnit → Bytes
  | nanoseconds => ascii "n"
  | milliseconds => ascii "m"
  | tenMilliseconds => ascii "0m"
  | hundredMilliseconds => ascii "00m"
  | seconds => ascii "S"
  | tenSeconds => ascii "0S"
  | hundredSeconds => ascii "00S"
  | minutes => ascii "M"
  | tenMinutes => ascii "0M"
  | hundredMinutes => ascii "00M"
  | hours => ascii "H"

def encode (t : Timeout) : Bytes := encodeValue t.value ++ encodeUnit t.unit

def space : UInt8 := 32

/-- Reads on with `x` read so far; there may be too many digits. -/
def decodeNumber (x : ℕ) (haveDigit : Bool) : Bytes → Option (ℕ × Bool × Bytes)
  | [] => some (x, haveDigit, [])
  | c :: rest =>
      if 48 ≤ c ∧ c ≤ 57 then
        let digit := c.toNat - 48
        if 100 * 1000 * 1000 ≤ x ∧ (x ≠ 100 * 1000 * 1000 ∨ digit ≠ 0) then none
        else decodeNumber (x * 10 + digit) true rest
      else some (x, haveDigit, c :: rest)

def decodeUnit (x : ℕ) (c : UInt8) : Option ℤ :=
  if c = 110 then some (x / 1000000 + if x % 1000000 ≠ 0 then 1 else 0)
  else if c = 117 then some (x / 1000 + if x % 1000 ≠ 0 then 1 else 0)
  else if c = 109 then some x
  else if c = 83 then some (x * 1000)
  else if c = 77 then some (x * 60000)
  else if c = 72 then some (x * 3600000)
  else none

end Timeout

open Timeout in
def parseTimeout (text : Bytes) : Option Duration :=
  match decodeNumber 0 false (text.dropWhile (· = space)) with
  | none => some .infinity
  | some (x, haveDigit, rest) =>
      if haveDigit then
        match rest.dropWhile (· = space) with
        | [] => none
        | c :: rest =>
            match decodeUnit x c with
            | none => none
            | some timeout => if rest.all (· = space) then some (.millis timeout) else none
      else none

namespace Timeout

/-! ### Other timeouts -/

theorem asDuration_nonneg (t : Timeout) : 0 ≤ t.asDuration := by
  unfold asDuration
  cases t.unit <;> simp only <;> omega

/-- No shorter than a timeout, and only a little longer. -/
def Near (t other : Timeout) : Prop :=
  t.asDuration ≤ other.asDuration ∧ 97 * other.asDuration ≤ 100 * t.asDuration

theorem near_of_ratioVersus {t other : Timeout} (hlong : -3 < t.ratioVersus other)
    (hshort : t.ratioVersus other ≤ 0) : t.Near other := by
  have hnonneg := asDuration_nonneg t
  have hother := asDuration_nonneg other
  simp only [ratioVersus] at hlong hshort
  split at hlong
  case isTrue hzero =>
      rw [if_pos hzero] at hshort
      split at hshort
      case isTrue => exact absurd hshort (by decide)
      case isFalse hover => constructor <;> omega
  case isFalse hzero =>
      rw [if_neg hzero] at hshort
      have hpositive : (0 : ℚ) < other.asDuration := by
        exact_mod_cast lt_of_le_of_ne hother (Ne.symm hzero)
      have hratio : (t.asDuration : ℚ) = t.asDuration / other.asDuration * other.asDuration :=
        (div_mul_cancel₀ _ hpositive.ne').symm
      constructor
      · have hle : (t.asDuration : ℚ) ≤ other.asDuration := by
          rw [hratio]
          nlinarith
        exact_mod_cast hle
      · have hle : (97 : ℚ) * other.asDuration ≤ 100 * t.asDuration := by
          rw [hratio]
          nlinarith
        exact_mod_cast hle

/-! ### Rounding -/

/-- A timeout is no shorter than what it was made from, and less than one percent longer. -/
structure Rounds (n : ℤ) (t : Timeout) : Prop where
  unit : t.unit ≠ .nanoseconds
  lower : n ≤ t.asDuration
  upper : 100 * (t.asDuration - n) < n

theorem rounds_make {n value : ℤ} {unit : TimeoutUnit} (hvalue : 0 ≤ value) (hlt : value < 2 ^ 16)
    (hunit : unit ≠ .nanoseconds)
    (hlower : n ≤ asDuration ⟨value.toNat, unit, by omega⟩)
    (hupper : 100 * (asDuration ⟨value.toNat, unit, by omega⟩ - n) < n) :
    Rounds n (make value unit) := by
  have hmake : make value unit = ⟨value.toNat, unit, by omega⟩ := by
    simp only [make, Int.emod_eq_of_lt hvalue hlt]
  rw [hmake]
  constructor
  case unit => exact hunit
  case lower => exact hlower
  case upper => exact hupper

section Rounding

variable {n x : ℤ}

theorem rounds_fromHours (hpositive : 0 < x) (hlimit : x ≤ maxHours) (hlower : n ≤ x * 3600000)
    (hupper : 100 * (x * 3600000 - n) < n) : Rounds n (fromHours x) := by
  have hvalue : fromHours x = make x .hours := by
    unfold fromHours
    split
    · rfl
    · rw [le_antisymm hlimit (by omega)]
  unfold maxHours at hlimit
  rw [hvalue]
  refine rounds_make (by omega) (by omega) (by decide) ?_ ?_ <;> simp only [asDuration] <;> omega

theorem rounds_fromMinutes (hlimit : x ≤ maxHours * 60) (hbefore : (x - 1) * 60000 < n)
    (hlower : n ≤ x * 60000) (hpositive : 0 < x) (hupper : 100 * (x * 60000 - n) < n) :
    Rounds n (fromMinutes x) := by
  unfold maxHours at hlimit
  unfold fromMinutes divideRoundingUp
  split
  · refine rounds_make (by omega) (by omega) (by decide) ?_ ?_ <;> simp only [asDuration] <;> omega
  · split
    · have hround : x = 1000 ∨ 1000 < x := by omega
      refine rounds_make (by omega) (by omega) (by decide) ?_ ?_ <;>
        simp only [asDuration] <;> omega
    · split
      · have hround : x = 10000 ∨ 10000 < x := by omega
        refine rounds_make (by omega) (by omega) (by decide) ?_ ?_ <;>
          simp only [asDuration] <;> omega
      · have hround : x < 1000 ∨ 1010 < x := by omega
        have hexact : (x - 1 + 60) / 60 * 60 ≤ x + 9 ∨ 10000 ≤ x := by omega
        exact rounds_fromHours (by omega) (by unfold maxHours; omega) (by omega) (by omega)

theorem rounds_fromSeconds (hlimit : x ≤ maxHours * 3600) (hbefore : (x - 1) * 1000 < n)
    (hlower : n ≤ x * 1000) (hpositive : 0 < x) (hupper : 100 * (x * 1000 - n) < n) :
    Rounds n (fromSeconds x) := by
  unfold maxHours at hlimit
  unfold fromSeconds divideRoundingUp
  split
  · refine rounds_make (by omega) (by omega) (by decide) ?_ ?_ <;> simp only [asDuration] <;> omega
  · split
    · have hround : x = 1000 ∨ 1000 < x := by omega
      refine rounds_make (by omega) (by omega) (by decide) ?_ ?_ <;>
        simp only [asDuration] <;> omega
    · split
      · have hround : x = 10000 ∨ 10000 < x := by omega
        refine rounds_make (by omega) (by omega) (by decide) ?_ ?_ <;>
          simp only [asDuration] <;> omega
      · have hround : x < 1000 ∨ 1010 < x := by omega
        have hexact : (x - 1 + 60) / 60 * 60 ≤ x + 9 ∨ 10000 ≤ x := by omega
        exact rounds_fromMinutes (by unfold maxHours; omega) (by omega) (by omega) (by omega)
          (by omega)

theorem rounds_fromMillis (hpositive : 0 < n) (hlimit : n ≤ maxHours * 3600000) :
    Rounds n (fromMillis n) := by
  unfold maxHours at hlimit
  unfold fromMillis divideRoundingUp
  rw [if_neg (by omega)]
  split
  · refine rounds_make (by omega) (by omega) (by decide) ?_ ?_ <;> simp only [asDuration] <;> omega
  · split
    · refine rounds_make (by omega) (by omega) (by decide) ?_ ?_ <;>
        simp only [asDuration] <;> omega
    · split
      · refine rounds_make (by omega) (by omega) (by decide) ?_ ?_ <;>
          simp only [asDuration] <;> omega
      · rw [if_neg (by omega)]
        exact rounds_fromSeconds (by unfold maxHours; omega) (by omega) (by omega) (by omega)
          (by omega)

end Rounding

theorem fromMillis_of_long {n : ℤ} (hlong : maxHours * 3600000 < n) :
    fromMillis n = { value := maxHours.toNat, unit := .hours } := by
  unfold maxHours at hlong
  unfold fromMillis divideRoundingUp
  rw [if_neg (by omega), if_neg (by omega), if_neg (by omega), if_neg (by omega)]
  split
  · rfl
  · unfold fromSeconds divideRoundingUp
    rw [if_neg (by omega), if_neg (by omega), if_neg (by omega)]
    unfold fromMinutes divideRoundingUp
    rw [if_neg (by omega), if_neg (by omega), if_neg (by omega)]
    unfold fromHours maxHours
    rw [if_neg (by omega)]
    rfl

/-! ### Reading what was written -/

theorem digit_spec : ∀ d < 10, (48 ≤ digit d ∧ digit d ≤ 57) ∧ (digit d).toNat - 48 = d ∧
    digit d ≠ space := by
  decide

theorem decodeNumber_digit {x d : ℕ} (hd : d < 10) (hx : x < 100 * 1000 * 1000) (haveDigit : Bool)
    (rest : Bytes) :
    decodeNumber x haveDigit (digit d :: rest) = decodeNumber (x * 10 + d) true rest := by
  obtain ⟨hdigit, hvalue, -⟩ := digit_spec d hd
  have hmore : ¬(100 * 1000 * 1000 ≤ x ∧ (x ≠ 100 * 1000 * 1000 ∨ d ≠ 0)) := by omega
  rw [decodeNumber, if_pos hdigit]
  simp only [hvalue]
  rw [if_neg hmore]

theorem decodeNumber_encodeValue {n : ℕ} (hn : n < 2 ^ 16) (rest : Bytes) :
    decodeNumber 0 false (encodeValue n ++ rest) = decodeNumber n true rest := by
  unfold encodeValue
  -- the number of digits is fixed by the value
  split_ifs <;> first | omega | simp only [List.cons_append, List.nil_append]
  · rw [decodeNumber_digit, decodeNumber_digit, decodeNumber_digit, decodeNumber_digit,
      decodeNumber_digit]
    · congr 1
      omega
    all_goals omega
  · rw [decodeNumber_digit, decodeNumber_digit, decodeNumber_digit, decodeNumber_digit]
    · congr 1
      omega
    all_goals omega
  · rw [decodeNumber_digit, decodeNumber_digit, decodeNumber_digit]
    · congr 1
      omega
    all_goals omega
  · rw [decodeNumber_digit, decodeNumber_digit]
    · congr 1
      omega
    all_goals omega
  · rw [decodeNumber_digit]
    · congr 1
      omega
    all_goals omega

theorem decodeNumber_zero {n : ℕ} (hn : n < 100 * 1000 * 1000) (rest : Bytes) :
    decodeNumber n true (48 :: rest) = decodeNumber (n * 10) true rest :=
  decodeNumber_digit (d := 0) (by omega) hn true rest

theorem decodeNumber_letter {n : ℕ} {c : UInt8} (hc : ¬(48 ≤ c ∧ c ≤ 57)) (rest : Bytes) :
    decodeNumber n true (c :: rest) = some (n, true, c :: rest) := by
  rw [decodeNumber, if_neg hc]

theorem exists_cons_encodeValue {n : ℕ} (hn : n < 2 ^ 16) :
    ∃ d < 10, ∃ rest, encodeValue n = digit d :: rest := by
  unfold encodeValue
  split_ifs
  all_goals first
    | exact ⟨n / 10000, by omega, _, rfl⟩
    | exact ⟨n % 10000 / 1000, by omega, _, rfl⟩
    | exact ⟨n % 1000 / 100, by omega, _, rfl⟩
    | exact ⟨n % 100 / 10, by omega, _, rfl⟩
    | exact ⟨n % 10, by omega, _, rfl⟩

theorem dropWhile_encodeValue {n : ℕ} (hn : n < 2 ^ 16) (rest : Bytes) :
    (encodeValue n ++ rest).dropWhile (· = space) = encodeValue n ++ rest := by
  obtain ⟨d, hd, others, hvalue⟩ := exists_cons_encodeValue hn
  obtain ⟨-, -, hspace⟩ := digit_spec d hd
  rw [hvalue, List.cons_append, List.dropWhile_cons, if_neg (by simpa using hspace)]

/-- A timeout is read back as the time it stands for. -/
theorem parseTimeout_encode {t : Timeout} (hunit : t.unit ≠ .nanoseconds) :
    parseTimeout t.encode = some (.millis t.asDuration) := by
  obtain ⟨value, unit, hvalue⟩ := t
  rw [parseTimeout, encode, dropWhile_encodeValue hvalue, decodeNumber_encodeValue hvalue]
  cases unit with
  | nanoseconds => exact absurd rfl hunit
  | milliseconds =>
      rw [show encodeUnit .milliseconds = [109] from rfl, decodeNumber_letter (by decide)]
      rfl
  | tenMilliseconds =>
      rw [show encodeUnit .tenMilliseconds = [48, 109] from rfl,
        decodeNumber_zero (by omega), decodeNumber_letter (by decide)]
      simp [asDuration, decodeUnit, space]
  | hundredMilliseconds =>
      rw [show encodeUnit .hundredMilliseconds = [48, 48, 109] from rfl,
        decodeNumber_zero (by omega), decodeNumber_zero (by omega), decodeNumber_letter (by decide)]
      simp [asDuration, decodeUnit, space, mul_assoc]
  | seconds =>
      rw [show encodeUnit .seconds = [83] from rfl, decodeNumber_letter (by decide)]
      rfl
  | tenSeconds =>
      rw [show encodeUnit .tenSeconds = [48, 83] from rfl,
        decodeNumber_zero (by omega), decodeNumber_letter (by decide)]
      simp [asDuration, decodeUnit, space]
  | hundredSeconds =>
      rw [show encodeUnit .hundredSeconds = [48, 48, 83] from rfl,
        decodeNumber_zero (by omega), decodeNumber_zero (by omega), decodeNumber_letter (by decide)]
      simp [asDuration, decodeUnit, space, mul_assoc]
  | minutes =>
      rw [show encodeUnit .minutes = [77] from rfl, decodeNumber_letter (by decide)]
      rfl
  | tenMinutes =>
      rw [show encodeUnit .tenMinutes = [48, 77] from rfl,
        decodeNumber_zero (by omega), decodeNumber_letter (by decide)]
      simp [asDuration, decodeUnit, space]
  | hundredMinutes =>
      rw [show encodeUnit .hundredMinutes = [48, 48, 77] from rfl,
        decodeNumber_zero (by omega), decodeNumber_zero (by omega), decodeNumber_letter (by decide)]
      simp [asDuration, decodeUnit, space, mul_assoc]
  | hours =>
      rw [show encodeUnit .hours = [72] from rfl, decodeNumber_letter (by decide)]
      rfl

theorem length_encode_le (t : Timeout) : t.encode.length ≤ 8 := by
  have hvalue : (encodeValue t.value).length ≤ 5 := by
    unfold encodeValue
    split_ifs <;> simp
  have hunit : (encodeUnit t.unit).length ≤ 3 := by
    cases t.unit <;> decide
  rw [encode, List.length_append]
  omega

theorem parseTimeout_encode_isSome (t : Timeout) : (parseTimeout t.encode).isSome = true := by
  by_cases hunit : t.unit = .nanoseconds
  · obtain ⟨value, unit, hvalue⟩ := t
    obtain rfl : unit = .nanoseconds := hunit
    rw [parseTimeout, encode, dropWhile_encodeValue hvalue, decodeNumber_encodeValue hvalue,
      show encodeUnit .nanoseconds = [110] from rfl, decodeNumber_letter (by decide)]
    rfl
  · rw [parseTimeout_encode hunit]
    rfl

end Timeout

open Timeout in
/-- A timeout arrives no shorter than it was and less than one percent longer, unless it was
over already or longer than the longest one. -/
theorem parseTimeout_fromMillis (n : ℤ) :
    ∃ d, parseTimeout (fromMillis n).encode = some (.millis d) ∧
      (n ≤ 0 → d = 1) ∧
      (0 < n → n ≤ maxHours * 3600000 → n ≤ d ∧ 100 * (d - n) < n) ∧
      (maxHours * 3600000 < n → d = maxHours * 3600000) := by
  rcases lt_or_ge 0 n with hpositive | hover
  · rcases le_or_gt n (maxHours * 3600000) with hlimit | hlong
    · have hrounds := rounds_fromMillis hpositive hlimit
      refine ⟨_, parseTimeout_encode hrounds.unit, ?_, ?_, ?_⟩
      · intro hover
        omega
      · intro _ _
        exact ⟨hrounds.lower, hrounds.upper⟩
      · intro hlong
        omega
    · rw [fromMillis_of_long hlong]
      refine ⟨_, parseTimeout_encode (by decide), ?_, ?_, ?_⟩
      · intro hover
        omega
      · intro _ hlimit
        omega
      · intro _
        rfl
  · have hmake : fromMillis n = { value := 1, unit := .nanoseconds } := by
      rw [fromMillis, if_pos hover]
      rfl
    rw [hmake]
    refine ⟨1, by decide, fun _ => rfl, ?_, ?_⟩
    · intro hpositive
      omega
    · intro hlong
      unfold maxHours at hlong
      omega

example : parseTimeout (Timeout.fromMillis 1001).encode = some (.millis 1010) := by decide

end GrpcM.Hpack
