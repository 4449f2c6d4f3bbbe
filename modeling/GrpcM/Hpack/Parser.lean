import GrpcM.Hpack.Compressor
import GrpcM.Hpack.Huffman
import GrpcM.Hpack.Metadata
import GrpcM.Hpack.ParserTable

/-!
Header blocks as the parser reads them. An error of the connection gives `none`. An error of the
stream is kept until the end of the block, and the parser reads on, as the table has to take
whatever the block has for it.
-/

namespace GrpcM.Hpack

structure Memento where
  key : Bytes
  value : Bytes
  wireSize : ℕ
  parseStatus : Option StreamError
  deriving DecidableEq, Repr

def Memento.transportSize (md : Memento) : ℕ := md.key.length + md.wireSize + entryOverhead

def Memento.field (md : Memento) : Bytes × Bytes := (md.key, md.value)

def staticTable : List (String × String) := [
  (":authority", ""), (":method", "GET"), (":method", "POST"), (":path", "/"),
  (":path", "/index.html"), (":scheme", "http"), (":scheme", "https"), (":status", "200"),
  (":status", "204"), (":status", "206"), (":status", "304"), (":status", "400"),
  (":status", "404"), (":status", "500"), ("accept-charset", ""),
  ("accept-encoding", "gzip, deflate"), ("accept-language", ""), ("accept-ranges", ""),
  ("accept", ""), ("access-control-allow-origin", ""), ("age", ""), ("allow", ""),
  ("authorization", ""), ("cache-control", ""), ("content-disposition", ""),
  ("content-encoding", ""), ("content-language", ""), ("content-length", ""),
  ("content-location", ""), ("content-range", ""), ("content-type", ""), ("cookie", ""),
  ("date", ""), ("etag", ""), ("expect", ""), ("expires", ""), ("from", ""), ("host", ""),
  ("if-match", ""), ("if-modified-since", ""), ("if-none-match", ""), ("if-range", ""),
  ("if-unmodified-since", ""), ("last-modified", ""), ("link", ""), ("location", ""),
  ("max-forwards", ""), ("proxy-authenticate", ""), ("proxy-authorization", ""), ("range", ""),
  ("referer", ""), ("refresh", ""), ("retry-after", ""), ("server", ""), ("set-cookie", ""),
  ("strict-transport-security", ""), ("transfer-encoding", ""), ("user-agent", ""), ("vary", ""),
  ("via", ""), ("www-authenticate", "")]

def makeMemento (entry : String × String) : Memento where
  key := ascii entry.1
  value := ascii entry.2
  wireSize := entry.2.length
  parseStatus := none

def staticMementos : List Memento := staticTable.map makeMemento

/-! ### The parser -/

structure RandomEarlyDetection where
  softLimit : ℕ := 2 ^ 31 - 1
  hardLimit : ℕ := 2 ^ 31 - 1
  deriving DecidableEq, Repr

namespace RandomEarlyDetection

def mustReject (r : RandomEarlyDetection) (size : ℕ) : Bool := r.hardLimit ≤ size

/-- Between the limits it is left to chance. -/
def reject (r : RandomEarlyDetection) (size : ℕ) (bernoulli : Bool) : Bool :=
  if size ≤ r.softLimit then false
  else if size < r.hardLimit then bernoulli
  else true

end RandomEarlyDetection

abbrev Block := List (Bytes × Bytes)

structure HPackParser where
  table : ParserTable Memento := {}
  dynamicTableUpdatesAllowed : ℕ := 2
  frameLength : ℕ := 0
  frameError : Option StreamError := none
  metadataBuffer : Option Block := none
  metadataEarlyDetection : RandomEarlyDetection := {}
  deriving Repr

/-- The length of the string that a value is written as. -/
def Form.stringLength (value : Bytes) : Form → ℕ
  | plain => value.length
  | trueBinary => value.length + 1
  | base64 => (base64EncodeAndHuffmanCompress value).length

/-- A value that was read, if it could be decoded. -/
structure StringResult where
  wireSize : ℕ
  value : Option Bytes
  deriving DecidableEq, Repr

/-- A key that was read, and what is wrong with it. -/
structure ParsedKey where
  key : Bytes
  error : Option StreamError
  deriving DecidableEq, Repr

namespace HPackParser

def beginFrame (p : HPackParser) (limits : RandomEarlyDetection) : HPackParser :=
  { p with
    metadataBuffer := some []
    dynamicTableUpdatesAllowed := 2
    metadataEarlyDetection := limits }

/-- The static entries have the first indices. -/
def lookup (p : HPackParser) (index : ℕ) : Option Memento :=
  if index ≤ lastStaticEntry then staticMementos[index - 1]? else p.table.lookupDynamic index

/-- The first error stays. -/
def setErrorAndContinueParsing (p : HPackParser) (error : Option StreamError) : HPackParser :=
  { p with frameError := p.frameError <|> error }

def exceed (p : HPackParser) (error : StreamError) : HPackParser :=
  { p.setErrorAndContinueParsing (some error) with metadataBuffer := none }

def emitHeader (p : HPackParser) (md : Memento) : HPackParser :=
  let frameLength := uint32 (p.frameLength + md.transportSize)
  let p := { p.setErrorAndContinueParsing md.parseStatus with
    frameLength := frameLength
    metadataBuffer := p.metadataBuffer.map fun fields => fields ++ [md.field] }
  if p.metadataEarlyDetection.mustReject frameLength then
    p.exceed (.hardMetadataLimitExceeded frameLength p.metadataEarlyDetection.hardLimit)
  else p

def finishMaxTableSize (p : HPackParser) (size : ℕ) : Option HPackParser :=
  if p.dynamicTableUpdatesAllowed = 0 then none
  else
    match p.table.setCurrentTableSize Memento.transportSize size with
    | some (table, true) => some { p with
        table := table
        dynamicTableUpdatesAllowed := p.dynamicTableUpdatesAllowed - 1 }
    | _ => none

def finishIndexed (p : HPackParser) (index : ℕ) : Option HPackParser :=
  (p.lookup index).map { p with dynamicTableUpdatesAllowed := 0 }.emitHeader

def finishHeader (p : HPackParser) (addToTable : Bool) (md : Memento) : Option HPackParser :=
  if addToTable then
    match (p.emitHeader md).table.add Memento.transportSize md with
    | some (table, true) => some { p.emitHeader md with table := table }
    | _ => none
  else some (p.emitHeader md)

/-- A value that could not be decoded is empty. -/
def finishValue (p : HPackParser) (addToTable : Bool) (key : ParsedKey) (value : StringResult) :
    Option HPackParser :=
  p.finishHeader addToTable {
    key := key.key
    value := value.value.getD []
    wireSize := value.wireSize
    parseStatus := key.error <|>
      (if value.value = none then some (.unbase64Failed key.key) else none) <|>
      valueError key.key (value.value.getD []) }

/-- Strings so long that the block has to be rejected are not read. -/
def shouldSkipParsingString (p : HPackParser) (stringLength : ℕ) : Bool :=
  p.table.currentTableBytes < stringLength &&
    p.metadataEarlyDetection.mustReject (stringLength + entryOverhead)

/-- What is skipped is larger than the table. -/
def skipValueBody (p : HPackParser) (addToTable : Bool) : Option HPackParser :=
  if addToTable then
    (p.table.addLargerThanCurrentTableSize Memento.transportSize).map fun table =>
      { p with table := table }
  else some p

def skipKey (p : HPackParser) (keyLength : ℕ) (addToTable : Bool) : Option HPackParser :=
  (p.exceed (.hardMetadataLimitExceededByKey keyLength
    p.metadataEarlyDetection.hardLimit)).skipValueBody addToTable

def skipValue (p : HPackParser) (key : Bytes) (valueLength : ℕ) (addToTable : Bool) :
    Option HPackParser :=
  (p.exceed (.hardMetadataLimitExceededByValue key valueLength
    p.metadataEarlyDetection.hardLimit)).skipValueBody addToTable

/-- The value of a literal. A value in a form that the key is not read in is no part of the
model. -/
def parseValue (p : HPackParser) (addToTable : Bool) (key : ParsedKey) (value : Bytes)
    (form : Form) : Option HPackParser :=
  if p.shouldSkipParsingString (form.stringLength value) then
    p.skipValue key.key (form.stringLength value) addToTable
  else if isBinaryHeader key.key = (form != .plain) then
    p.finishValue addToTable key { wireSize := form.wireSize value.length, value := some value }
  else none

def parse (p : HPackParser) : Instruction → Option HPackParser
  | .tableSize size => p.finishMaxTableSize size
  | .indexed index => p.finishIndexed index
  | .literal addToTable (.name key) value form =>
      if p.shouldSkipParsingString key.length then p.skipKey key.length addToTable
      else p.parseValue addToTable { key := key, error := keyError key } value form
  | .literal addToTable (.index index) value form => do
      let elem ← p.lookup index
      p.parseValue addToTable { key := elem.key, error := elem.parseStatus } value form

def parseAll (p : HPackParser) (block : List Instruction) : Option HPackParser :=
  block.foldlM parse p

/-- What becomes of a block when all of it was read. -/
def endOfHeaders (p : HPackParser) (bernoulli : Bool) :
    HPackParser × Except StreamError Block :=
  let p :=
    if p.metadataEarlyDetection.reject p.frameLength bernoulli then
      p.exceed (.softMetadataLimitExceeded p.frameLength p.metadataEarlyDetection.softLimit)
    else p
  ({ p with frameLength := 0, frameError := none, metadataBuffer := none },
    match p.frameError with
    | some error => .error error
    | none => .ok (p.metadataBuffer.getD []))

theorem parseAll_concat {p p₁ : HPackParser} {is : List Instruction} (i : Instruction)
    (hall : p.parseAll is = some p₁) : p.parseAll (is ++ [i]) = p₁.parse i := by
  rw [parseAll, List.foldlM_append, ← parseAll, hall]
  simp

end HPackParser

end GrpcM.Hpack
