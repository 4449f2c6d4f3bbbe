import GrpcM.Hpack.Timeout
import Mathlib.Data.List.DropRight

/-!
What the reader holds against a header: a key that is not legal, or a value that its key does not
allow. A key without a type of its own allows any value. Neither ends the connection; the call
that the header belongs to is given up.
-/

namespace GrpcM.Hpack

/-! ### Errors of a stream -/

inductive ValidateMetadataResult where
  | ok
  | cannotBeZeroLength
  | tooLong
  | illegalHeaderKey
  deriving DecidableEq, Repr

inductive StreamError where
  | invalidMetadata (result : ValidateMetadataResult) (key : Bytes)
  | hardMetadataLimitExceeded (frameLength limit : ℕ)
  | softMetadataLimitExceeded (frameLength limit : ℕ)
  | hardMetadataLimitExceededByKey (keyLength limit : ℕ)
  | hardMetadataLimitExceededByValue (key : Bytes) (valueLength limit : ℕ)
  | metadataParseError (key : Bytes)
  | unbase64Failed (key : Bytes)
  deriving DecidableEq, Repr

/-! ### Keys -/

def isLegalHeaderKeyByte (c : UInt8) : Bool :=
  (97 ≤ c && c ≤ 122) || (48 ≤ c && c ≤ 57) || c == 45 || c == 95 || c == 46

def validateHeaderKeyIsLegal (key : Bytes) : ValidateMetadataResult :=
  if key = [] then .cannotBeZeroLength
  else if 2 ^ 32 - 1 < key.length then .tooLong
  else if key.all isLegalHeaderKeyByte then .ok
  else .illegalHeaderKey

def validateKey (key : Bytes) : ValidateMetadataResult :=
  if key = ascii ":scheme" ∨ key = ascii ":method" ∨ key = ascii ":authority" ∨
      key = ascii ":path" ∨ key = ascii ":status" then .ok
  else validateHeaderKeyIsLegal key

def keyError (key : Bytes) : Option StreamError :=
  match validateKey key with
  | .ok => none
  | result => some (.invalidMetadata result key)

/-! ### Values -/

def isAsciiSpace (c : UInt8) : Bool := (9 ≤ c && c ≤ 13) || c == 32

def positiveInt (digits : Bytes) : Option ℕ :=
  if digits ≠ [] ∧ digits.all fun c => 48 ≤ c && c ≤ 57 then
    some (digits.foldl (fun n c => 10 * n + (c.toNat - 48)) 0)
  else none

def signAndInt (text : Bytes) : Option (Bool × ℕ) :=
  match (text.dropWhile isAsciiSpace).rdropWhile isAsciiSpace with
  | 45 :: digits => (positiveInt digits).map fun n => (true, n)
  | 43 :: digits => (positiveInt digits).map fun n => (false, n)
  | digits => (positiveInt digits).map fun n => (false, n)

/-- As `absl::SimpleAtoi` reads 64 bits with a sign. -/
def simpleAtoiInt64 (text : Bytes) : Option ℤ :=
  match signAndInt text with
  | some (true, n) => if n ≤ 2 ^ 63 then some (-n) else none
  | some (false, n) => if n < 2 ^ 63 then some n else none
  | none => none

/-- As `absl::SimpleAtoi` reads 32 bits without a sign. -/
def simpleAtoiUInt32 (text : Bytes) : Option ℕ :=
  match signAndInt text with
  | some (false, n) => if n < 2 ^ 32 then some n else none
  | _ => none

/-- `GRPC_STATUS__DO_NOT_USE` -/
def statusDoNotUse : ℤ := 0x7fffffff

def parsesGrpcStatus (value : Bytes) : Bool :=
  match simpleAtoiInt64 value with
  | some wireValue => 0 ≤ wireValue && wireValue < statusDoNotUse
  | none => false

def parsesCompressionAlgorithm (value : Bytes) : Bool :=
  value == ascii "identity" || value == ascii "deflate" || value == ascii "gzip"

/-- The keys whose types refuse values, and the values that they do not refuse. -/
def parseMemento : List (String × (Bytes → Bool)) := [
  (":method", fun value => value == ascii "POST" || value == ascii "PUT" || value == ascii "GET"),
  (":status", fun value => (simpleAtoiUInt32 value).isSome),
  (":scheme", fun value => value == ascii "http" || value == ascii "https"),
  ("te", fun value => value == ascii "trailers"),
  ("grpc-encoding", parsesCompressionAlgorithm),
  ("grpc-internal-encoding-request", parsesCompressionAlgorithm),
  ("grpc-status", parsesGrpcStatus),
  ("grpc-timeout", fun value => (parseTimeout value).isSome),
  ("grpc-previous-rpc-attempts", fun value => (simpleAtoiUInt32 value).isSome),
  ("grpc-retry-pushback-ms", fun value => (simpleAtoiInt64 value).isSome),
  -- a floating point number and a name
  ("lb-cost-bin", fun value => decide (8 ≤ value.length))]

def valueError (key value : Bytes) : Option StreamError :=
  match parseMemento.find? fun t => ascii t.1 = key with
  | some (_, parses) => if parses value then none else some (.metadataParseError key)
  | none => none

def fieldError (key value : Bytes) : Option StreamError := keyError key <|> valueError key value

theorem fieldError_timeout (t : Timeout) : fieldError (ascii "grpc-timeout") t.encode = none := by
  have hkey : keyError (ascii "grpc-timeout") = none := by decide
  have hvalue : valueError (ascii "grpc-timeout") t.encode =
      if (parseTimeout t.encode).isSome then none
      else some (.metadataParseError (ascii "grpc-timeout")) := rfl
  rw [fieldError, hkey, hvalue, if_pos t.parseTimeout_encode_isSome]
  rfl

end GrpcM.Hpack
