import GrpcM.Hpack.EncoderTable
import GrpcM.Hpack.Timeout
import Mathlib.Data.List.DropRight
import Mathlib.Logic.Function.Basic

/-!
Header blocks as the compressor writes them, one instruction after another. For most keys it
remembers the index of an entry that it had the peer add, and writes that index as long as the
entry must still be there.
-/

namespace GrpcM.Hpack

/-! ### Instructions -/

/-- How a value is written: as it is, or in one of two ways for a binary header. -/
inductive Form where
  | plain
  | trueBinary
  | base64
  deriving DecidableEq, Repr

/-- The length that counts for the table. There is a zero before true binary, and three bytes
take four characters of base64. -/
def Form.wireSize (length : ℕ) : Form → ℕ
  | plain => length
  | trueBinary => length + 1
  | base64 => length / 3 * 4 + if length % 3 = 0 then 0 else length % 3 + 1

inductive Key where
  | name (key : Bytes)
  | index (index : ℕ)
  deriving DecidableEq, Repr

inductive Instruction where
  | tableSize (size : ℕ)
  | indexed (index : ℕ)
  | literal (addToTable : Bool) (key : Key) (value : Bytes) (form : Form)
  deriving DecidableEq, Repr

def isBinaryHeader (key : Bytes) : Bool := (ascii "-bin").isSuffixOf key

/-! ### The encoder of a block -/

structure Encoder where
  table : EncoderTable
  useTrueBinaryMetadata : Bool
  output : List Instruction := []
  sawEncodingErrors : Bool := false
  deriving Repr

def checkIndexSize (keyLen valueLen : ℕ) : Option ℕ :=
  if EncoderTable.maxEntrySize - entryOverhead < keyLen then none
  else if EncoderTable.maxEntrySize - (keyLen + entryOverhead) < valueLen then none
  else some (keyLen + entryOverhead + valueLen)

namespace Encoder

def emit (e : Encoder) (i : Instruction) : Encoder := { e with output := e.output ++ [i] }

def noteEncodingError (e : Encoder) : Encoder := { e with sawEncodingErrors := true }

def binaryForm (e : Encoder) : Form := if e.useTrueBinaryMetadata then .trueBinary else .base64

def emitIndexed (e : Encoder) (elemIndex : ℕ) : Encoder := e.emit (.indexed elemIndex)

def advertiseTableSizeChange (e : Encoder) : Encoder := e.emit (.tableSize e.table.maxTableSize)

def emitLitHdrWithNonBinaryStringKeyNotIdx (e : Encoder) (key value : Bytes) : Encoder :=
  e.emit (.literal false (.name key) value .plain)

def emitLitHdrWithBinaryStringKeyNotIdx (e : Encoder) (key : Key) (value : Bytes) : Encoder :=
  e.emit (.literal false key value e.binaryForm)

/-- What cannot have an index is not added. -/
def emitLitHdrIncIdx (e : Encoder) (key value : Bytes) (form : Form) : Option (Encoder × ℕ) :=
  match checkIndexSize key.length (form.wireSize value.length) with
  | none => some (e.emit (.literal false (.name key) value form), 0)
  | some size => do
      let (table, index) ← e.table.allocateIndex size
      return ({ e with table := table }.emit (.literal true (.name key) value form), index)

def emitLitHdrWithNonBinaryStringKeyIncIdx (e : Encoder) (key value : Bytes) :
    Option (Encoder × ℕ) :=
  e.emitLitHdrIncIdx key value .plain

def emitLitHdrWithBinaryStringKeyIncIdx (e : Encoder) (key value : Bytes) :
    Option (Encoder × ℕ) :=
  e.emitLitHdrIncIdx key value e.binaryForm

def encode (e : Encoder) (key value : Bytes) : Encoder :=
  if isBinaryHeader key then e.emitLitHdrWithBinaryStringKeyNotIdx (.name key) value
  else e.emitLitHdrWithNonBinaryStringKeyNotIdx key value

def encodeAlwaysIndexed (e : Encoder) (index : ℕ) (key value : Bytes) : Option (Encoder × ℕ) :=
  if e.table.convertibleToDynamicIndex index then
    some (e.emitIndexed (e.table.dynamicIndex index), index)
  else e.emitLitHdrWithNonBinaryStringKeyIncIdx key value

def encodeIndexedKeyWithBinaryValue (e : Encoder) (index : ℕ) (key value : Bytes) :
    Option (Encoder × ℕ) :=
  if e.table.convertibleToDynamicIndex index then
    some (e.emitLitHdrWithBinaryStringKeyNotIdx (.index (e.table.dynamicIndex index)) value, index)
  else e.emitLitHdrWithBinaryStringKeyIncIdx key value

def encodeRepeatingSliceValue (e : Encoder) (key slice : Bytes) (index maxCompressionSize : ℕ) :
    Option (Encoder × ℕ) :=
  if maxCompressionSize < sizeForEntry key.length slice.length then
    some (e.emitLitHdrWithBinaryStringKeyNotIdx (.name key) slice, index)
  else e.encodeIndexedKeyWithBinaryValue index key slice

end Encoder

/-! ### Compressors -/

structure StableValue where
  previouslySentValue : Bytes := []
  previouslySentIndex : ℕ := 0
  deriving Repr

def StableValue.encodeWith (c : StableValue) (key value : Bytes) (e : Encoder) :
    Option (Encoder × StableValue) :=
  if c.previouslySentValue = value ∧ e.table.convertibleToDynamicIndex c.previouslySentIndex then
    some (e.emitIndexed (e.table.dynamicIndex c.previouslySentIndex), c)
  else if EncoderTable.maxEntrySize < sizeForEntry key.length value.length then
    some (e.emitLitHdrWithNonBinaryStringKeyNotIdx key value, { c with previouslySentIndex := 0 })
  else do
    let (e, index) ← e.encodeAlwaysIndexed 0 key value
    return (e, { previouslySentValue := value, previouslySentIndex := index })

/-- The index for each of the first `n` values. -/
def smallIntegralValues (n : ℕ) (previouslySent : ℕ → ℕ) (key : Bytes) (value : ℕ)
    (encoded : Bytes) (e : Encoder) : Option (Encoder × (ℕ → ℕ)) :=
  if value < n then
    if e.table.convertibleToDynamicIndex (previouslySent value) then
      some (e.emitIndexed (e.table.dynamicIndex (previouslySent value)), previouslySent)
    else do
      let (e, index) ← e.emitLitHdrWithNonBinaryStringKeyIncIdx key encoded
      return (e, Function.update previouslySent value index)
  else some (e.emitLitHdrWithNonBinaryStringKeyNotIdx key encoded, previouslySent)

/-- Values with the indices that they had, the most used ones towards the start. -/
abbrev SliceIndex := List (Bytes × ℕ)

namespace SliceIndex

def bubbleUp (values : SliceIndex) : ℕ → SliceIndex
  | 0 => values
  | i + 1 =>
      match values[i]?, values[i + 1]? with
      | some prev, some it => (values.set i it).set (i + 1) prev
      | _, _ => values

def emitTo (values : SliceIndex) (key value : Bytes) (e : Encoder) :
    Option (Encoder × SliceIndex) :=
  if EncoderTable.maxEntrySize < key.length + value.length + entryOverhead then
    some (e.emitLitHdrWithNonBinaryStringKeyNotIdx key value, values)
  else
    match values.findIdx? fun it => value = it.1 with
    | some i => do
        let (e, index) ← e.encodeAlwaysIndexed (values[i]?.elim 0 Prod.snd) key value
        let values := bubbleUp (values.set i (value, index)) i
        return (e, values.rdropWhile fun it => !e.table.convertibleToDynamicIndex it.2)
    | none => do
        let (e, index) ← e.emitLitHdrWithNonBinaryStringKeyIncIdx key value
        return (e, values ++ [(value, index)])

end SliceIndex

structure TimeoutCompressor where
  previousTimeouts : List (Timeout × ℕ) := List.replicate 5 ({}, 0)
  nextPreviousValue : ℕ := 0
  deriving Repr

/-- A timeout that is within three percent of one sent before is sent as that one. -/
def TimeoutCompressor.encodeWith (c : TimeoutCompressor) (key : Bytes) (timeout : Timeout)
    (e : Encoder) : Option (Encoder × TimeoutCompressor) :=
  match c.previousTimeouts.find? fun previous =>
    e.table.convertibleToDynamicIndex previous.2 &&
      decide (-3 < timeout.ratioVersus previous.1 ∧ timeout.ratioVersus previous.1 ≤ 0) with
  | some previous => some (e.emitIndexed (e.table.dynamicIndex previous.2), c)
  | none => do
      let (e, index) ← e.emitLitHdrWithNonBinaryStringKeyIncIdx key timeout.encode
      return (e, {
        previousTimeouts := c.previousTimeouts.set (c.nextPreviousValue % 5) (timeout, index)
        nextPreviousValue := uint32 (c.nextPreviousValue + 1) })

/-! ### The compressor -/

inductive KnownTrait where
  | te
  | contentType
  deriving DecidableEq, Repr

def KnownTrait.key : KnownTrait → Bytes
  | te => ascii "te"
  | contentType => ascii "content-type"

def KnownTrait.knownValue : KnownTrait → Bytes
  | te => ascii "trailers"
  | contentType => ascii "application/grpc"

inductive StableTrait where
  | grpcAcceptEncoding
  | userAgent
  | xEnvoyPeer
  | xForwardedFor
  | xForwardedHost
  deriving DecidableEq, Repr

def StableTrait.key : StableTrait → Bytes
  | grpcAcceptEncoding => ascii "grpc-accept-encoding"
  | userAgent => ascii "user-agent"
  | xEnvoyPeer => ascii "x-envoy-peer-metadata"
  | xForwardedFor => ascii "x-forwarded-for"
  | xForwardedHost => ascii "x-forwarded-host"

inductive FrequentTrait where
  | grpcTraceBin
  | grpcTagsBin
  deriving DecidableEq, Repr

def FrequentTrait.key : FrequentTrait → Bytes
  | grpcTraceBin => ascii "grpc-trace-bin"
  | grpcTagsBin => ascii "grpc-tags-bin"

inductive SmallSetTrait where
  | httpAuthority
  | httpPath
  deriving DecidableEq, Repr

def SmallSetTrait.key : SmallSetTrait → Bytes
  | httpAuthority => ascii ":authority"
  | httpPath => ascii ":path"

/-- In decimal, as `Slice::FromInt64` has it. -/
def fromInt64 (n : ℕ) : Bytes := (Nat.toDigits 10 n).map fun c => UInt8.ofNat c.toNat

inductive IntegralTrait where
  | grpcStatus
  | grpcEncoding
  deriving DecidableEq, Repr

def IntegralTrait.key : IntegralTrait → Bytes
  | grpcStatus => ascii "grpc-status"
  | grpcEncoding => ascii "grpc-encoding"

def IntegralTrait.limit : IntegralTrait → ℕ
  | grpcStatus => 16
  | grpcEncoding => 3

def IntegralTrait.encode : IntegralTrait → ℕ → Bytes
  | grpcStatus, value => fromInt64 value
  | grpcEncoding, value => ascii (["identity", "deflate", "gzip"].getD value "")

inductive HttpScheme where
  | http
  | https
  | invalid
  deriving DecidableEq, Repr

inductive HttpMethod where
  | post
  | get
  | put
  | invalid
  deriving DecidableEq, Repr

/-- A header to be sent, by the way in which its key is compressed. -/
inductive Header where
  | httpScheme (value : HttpScheme)
  | httpMethod (value : HttpMethod)
  | httpStatus (status : ℕ)
  | known (t : KnownTrait) (good : Bool)
  | stable (t : StableTrait) (value : Bytes)
  | frequent (t : FrequentTrait) (value : Bytes)
  | smallSet (t : SmallSetTrait) (value : Bytes)
  | integral (t : IntegralTrait) (value : ℕ)
  | timeout (value : Timeout)
  | plain (key value : Bytes)
  deriving DecidableEq, Repr

structure CompressionState where
  known : KnownTrait → ℕ := fun _ => 0
  stable : StableTrait → StableValue := fun _ => {}
  frequent : FrequentTrait → ℕ := fun _ => 0
  smallSet : SmallSetTrait → SliceIndex := fun _ => []
  integral : IntegralTrait → ℕ → ℕ := fun _ _ => 0
  timeout : TimeoutCompressor := {}

def timeoutKey : Bytes := ascii "grpc-timeout"

namespace Encoder

def encodeHttpScheme (e : Encoder) : HttpScheme → Encoder
  | .http => e.emitIndexed 6
  | .https => e.emitIndexed 7
  | .invalid => e.noteEncodingError

def encodeHttpMethod (e : Encoder) : HttpMethod → Encoder
  | .post => e.emitIndexed 3
  | .get => e.emitIndexed 2
  | .put => e.emitLitHdrWithNonBinaryStringKeyNotIdx (ascii ":method") (ascii "PUT")
  | .invalid => e.noteEncodingError

def statusIndex : ℕ → ℕ
  | 200 => 8
  | 204 => 9
  | 206 => 10
  | 304 => 11
  | 400 => 12
  | 404 => 13
  | 500 => 14
  | _ => 0

def encodeHttpStatus (e : Encoder) (status : ℕ) : Encoder :=
  if statusIndex status ≠ 0 then e.emitIndexed (statusIndex status)
  else e.emitLitHdrWithNonBinaryStringKeyNotIdx (ascii ":status") (fromInt64 status)

def encodeKnown (e : Encoder) (index : ℕ) (t : KnownTrait) (good : Bool) :
    Option (Encoder × ℕ) :=
  if good then e.encodeAlwaysIndexed index t.key t.knownValue else some (e.noteEncodingError, index)

def encodeHeader (e : Encoder) (s : CompressionState) : Header → Option (Encoder × CompressionState)
  | .httpScheme value => some (e.encodeHttpScheme value, s)
  | .httpMethod value => some (e.encodeHttpMethod value, s)
  | .httpStatus status => some (e.encodeHttpStatus status, s)
  | .known t good => do
      let (e, index) ← e.encodeKnown (s.known t) t good
      return (e, { s with known := Function.update s.known t index })
  | .stable t value => do
      let (e, c) ← (s.stable t).encodeWith t.key value e
      return (e, { s with stable := Function.update s.stable t c })
  | .frequent t value => do
      let (e, index) ← e.encodeRepeatingSliceValue t.key value (s.frequent t)
        EncoderTable.maxEntrySize
      return (e, { s with frequent := Function.update s.frequent t index })
  | .smallSet t value => do
      let (e, values) ← (s.smallSet t).emitTo t.key value e
      return (e, { s with smallSet := Function.update s.smallSet t values })
  | .integral t value => do
      let (e, sent) ← smallIntegralValues t.limit (s.integral t) t.key value (t.encode value) e
      return (e, { s with integral := Function.update s.integral t sent })
  | .timeout value => do
      let (e, c) ← s.timeout.encodeWith timeoutKey value e
      return (e, { s with timeout := c })
  | .plain key value => some (e.encode key value, s)

end Encoder

structure HPackCompressor where
  maxUsableSize : ℕ := initialTableSize
  advertiseTableSizeChange : Bool := false
  table : EncoderTable := {}
  compressionState : CompressionState := {}

namespace HPackCompressor

def setMaxTableSize (c : HPackCompressor) (maxTableSize : ℕ) : Option HPackCompressor := do
  let (table, changed) ← c.table.setMaxSize (min c.maxUsableSize maxTableSize)
  return { c with
    table := table
    advertiseTableSizeChange := c.advertiseTableSizeChange || changed }

def setMaxUsableSize (c : HPackCompressor) (maxTableSize : ℕ) : Option HPackCompressor :=
  { c with maxUsableSize := maxTableSize }.setMaxTableSize (min c.table.maxTableSize maxTableSize)

/-- The encoder of a block, which starts with a change of the size. -/
def encoder (c : HPackCompressor) (useTrueBinaryMetadata : Bool) : Encoder :=
  let e : Encoder := { table := c.table, useTrueBinaryMetadata := useTrueBinaryMetadata }
  if c.advertiseTableSizeChange then e.advertiseTableSizeChange else e

/-- The instructions of a block, and whether all headers are in it. -/
def encodeRawHeaders (c : HPackCompressor) (headers : List Header)
    (allowTrueBinaryMetadata : Bool) :
    Option (HPackCompressor × List Instruction × Bool) := do
  let (e, s) ← headers.foldlM (fun p header => Encoder.encodeHeader p.1 p.2 header)
    (c.encoder allowTrueBinaryMetadata, c.compressionState)
  return ({ c with advertiseTableSizeChange := false, table := e.table, compressionState := s },
    e.output, !e.sawEncodingErrors)

end HPackCompressor

end GrpcM.Hpack
