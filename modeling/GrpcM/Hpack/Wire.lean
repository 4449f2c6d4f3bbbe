import GrpcM.Hpack.Huffman
import GrpcM.Hpack.Parser
import GrpcM.Hpack.Varint

/-!
Instructions as bytes. The first byte of an instruction says by its highest bits what it is, and
the rest of that byte is the start of a number or says that a name follows.
-/

namespace GrpcM.Hpack

/-! ### The writer -/

def writeString (key : Bytes) : Bytes := varintWrite 1 0x00 key.length ++ key

def writeValue (value : Bytes) : Form → Bytes
  | .plain => varintWrite 1 0x00 value.length ++ value
  | .trueBinary => varintWrite 1 0x00 (value.length + 1) ++ 0 :: value
  | .base64 =>
      let data := base64EncodeAndHuffmanCompress value
      varintWrite 1 0x80 data.length ++ data

/-- There is no function that adds an entry for a key that has an index. -/
def Instruction.write : Instruction → Bytes
  | .tableSize size => varintWrite 3 0x20 size
  | .indexed index => varintWrite 1 0x80 index
  | .literal addToTable (.name key) value form =>
      (if addToTable then 0x40 else 0x00) :: (writeString key ++ writeValue value form)
  | .literal false (.index index) value form => varintWrite 4 0x00 index ++ writeValue value form
  | .literal true (.index _) _ _ => []

/-! ### The parser -/

/-- What the first byte of an instruction says. -/
inductive Opcode where
  | literalKey (addToTable : Bool)
  | indexedKey (addToTable : Bool) (index : ℕ)
  | tableSize (size : ℕ)
  | indexed (index : ℕ)
  deriving DecidableEq, Repr

def parseTop : Bytes → Option (Opcode × Bytes)
  | [] => none
  | cur :: rest =>
      if cur < 0x20 then
        if cur &&& 0xf = 0 then some (.literalKey false, rest)
        else if cur &&& 0xf = 0xf then
          (parseVarint 0xf rest).map fun r => (.indexedKey false r.1, r.2)
        else some (.indexedKey false (cur &&& 0xf).toNat, rest)
      else if cur < 0x40 then
        if cur = 0x3f then (parseVarint 0x1f rest).map fun r => (.tableSize r.1, r.2)
        else some (.tableSize (cur &&& 0x1f).toNat, rest)
      else if cur < 0x80 then
        if cur = 0x40 then some (.literalKey true, rest)
        else if cur = 0x7f then (parseVarint 0x3f rest).map fun r => (.indexedKey true r.1, r.2)
        else some (.indexedKey true (cur &&& 0x3f).toNat, rest)
      else if cur = 0x80 then none
      else if cur = 0xff then (parseVarint 0x7f rest).map fun r => (.indexed r.1, r.2)
      else some (.indexed (cur &&& 0x7f).toNat, rest)

/-- The length of a string, and whether it is a Huffman string. -/
def parseStringPrefix : Bytes → Option ((ℕ × Bool) × Bytes)
  | [] => none
  | cur :: rest =>
      let huff := cur &&& 0x80 ≠ 0
      let strlen := (cur &&& 0x7f).toNat
      if strlen = 0x7f then (parseVarint 0x7f rest).map fun r => ((r.1, huff), r.2)
      else some ((strlen, huff), rest)

def parseUncompressed (length : ℕ) (input : Bytes) : Option (Bytes × Bytes) :=
  if length ≤ input.length then some (input.take length, input.drop length) else none

def skipStringBody (length : ℕ) (input : Bytes) : Option Bytes :=
  if length ≤ input.length then some (input.drop length) else none

/-- A value that cannot be decoded is an error of the stream only. -/
def unbase64Result (s : Bytes) : StringResult where
  wireSize := s.length
  value := unbase64 s

section Strings

-- The decoder of Huffman strings is not part of the model.
variable (parseHuff : Bytes → Option Bytes)

def parseString (huff : Bool) (length : ℕ) (input : Bytes) : Option (StringResult × Bytes) := do
  let (data, rest) ← parseUncompressed length input
  let s ← if huff then parseHuff data else some data
  return ({ wireSize := s.length, value := some s }, rest)

def parseBinary (huff : Bool) (length : ℕ) (input : Bytes) : Option (StringResult × Bytes) := do
  let (data, rest) ← parseUncompressed length input
  if huff then
    match ← parseHuff data with
    | [] => some ({ wireSize := 0, value := some [] }, rest)
    | 0 :: s => some ({ wireSize := s.length, value := some s }, rest)
    | s => some (unbase64Result s, rest)
  else
    match data with
    | 0 :: s => some ({ wireSize := s.length + 1, value := some s }, rest)
    | s => some (unbase64Result s, rest)

def parseValueBody (isBinary huff : Bool) (length : ℕ) (input : Bytes) :
    Option (StringResult × Bytes) :=
  if isBinary then parseBinary parseHuff huff length input
  else parseString parseHuff huff length input

end Strings

namespace HPackParser

variable (parseHuff : Bytes → Option Bytes)

def parseValueLength (p : HPackParser) (addToTable : Bool) (key : ParsedKey) (input : Bytes) :
    Option (HPackParser × Bytes) := do
  let ((length, huff), rest) ← parseStringPrefix input
  if p.shouldSkipParsingString length then
    let rest ← skipStringBody length rest
    let p ← p.skipValue key.key length addToTable
    return (p, rest)
  let (value, rest) ← parseValueBody parseHuff (isBinaryHeader key.key) huff length rest
  let p ← p.finishValue addToTable key value
  return (p, rest)

/-- A value is skipped together with its key. -/
def parseKeyLength (p : HPackParser) (addToTable : Bool) (input : Bytes) :
    Option (HPackParser × Bytes) := do
  let ((length, huff), rest) ← parseStringPrefix input
  if p.shouldSkipParsingString length then
    let rest ← skipStringBody length rest
    let ((valueLength, _), rest) ← parseStringPrefix rest
    let rest ← skipStringBody valueLength rest
    let p ← p.skipKey length addToTable
    return (p, rest)
  let (key, rest) ← parseString parseHuff huff length rest
  let key := key.value.getD []
  p.parseValueLength parseHuff addToTable { key := key, error := keyError key } rest

def parseBytes (p : HPackParser) (input : Bytes) : Option (HPackParser × Bytes) :=
  match parseTop input with
  | none => none
  | some (.tableSize size, rest) => (p.finishMaxTableSize size).map fun p => (p, rest)
  | some (.indexed index, rest) => (p.finishIndexed index).map fun p => (p, rest)
  | some (.literalKey addToTable, rest) => p.parseKeyLength parseHuff addToTable rest
  | some (.indexedKey addToTable index, rest) => do
      let elem ← p.lookup index
      p.parseValueLength parseHuff addToTable { key := elem.key, error := elem.parseStatus } rest

/-- As many instructions as there are, each of which takes a byte at least. -/
def parseLoop : ℕ → HPackParser → Bytes → Option HPackParser
  | _, p, [] => some p
  | 0, _, _ => none
  | n + 1, p, input => do
      let (p, rest) ← p.parseBytes parseHuff input
      parseLoop n p rest

def parseBlock (p : HPackParser) (input : Bytes) : Option HPackParser :=
  parseLoop parseHuff input.length p input

end HPackParser

/-! ### Numbers behind an opcode -/

theorem parseTop_indexed {index : ℕ} (rest : Bytes) (hpositive : 0 < index)
    (hindex : index < 2 ^ 32) :
    parseTop (varintWrite 1 0x80 index ++ rest) = some (.indexed index, rest) := by
  have hfirst : ∀ v < 127, 0 < v → ¬(0x80 ||| UInt8.ofNat v) < 0x20 ∧
      ¬(0x80 ||| UInt8.ofNat v) < 0x40 ∧ ¬(0x80 ||| UInt8.ofNat v) < 0x80 ∧
      (0x80 ||| UInt8.ofNat v) ≠ 0x80 ∧ (0x80 ||| UInt8.ofNat v) ≠ 0xff ∧
      ((0x80 ||| UInt8.ofNat v) &&& 0x7f).toNat = v := by
    decide +kernel
  rw [varintWrite, show maxInVarintPrefix 1 = 127 from rfl]
  split
  case isTrue hsmall =>
      obtain ⟨h1, h2, h3, h4, h5, h6⟩ := hfirst index hsmall hpositive
      rw [List.cons_append, List.nil_append, parseTop, if_neg h1, if_neg h2, if_neg h3, if_neg h4,
        if_neg h5, h6]
  case isFalse hlarge =>
      have hcur : (0x80 ||| UInt8.ofNat 127 : UInt8) = 0xff := by decide
      rw [List.cons_append, hcur, parseTop, if_neg (by decide), if_neg (by decide),
        if_neg (by decide), if_neg (by decide), if_pos rfl,
        parseVarint_tail 127 (index - 127) rest (by omega), Option.map_some,
        show 127 + (index - 127) = index by omega]

theorem parseTop_tableSize {size : ℕ} (rest : Bytes) (hsize : size < 2 ^ 32) :
    parseTop (varintWrite 3 0x20 size ++ rest) = some (.tableSize size, rest) := by
  have hfirst : ∀ v < 31, ¬(0x20 ||| UInt8.ofNat v) < 0x20 ∧ (0x20 ||| UInt8.ofNat v) < 0x40 ∧
      (0x20 ||| UInt8.ofNat v) ≠ 0x3f ∧ ((0x20 ||| UInt8.ofNat v) &&& 0x1f).toNat = v := by
    decide +kernel
  rw [varintWrite, show maxInVarintPrefix 3 = 31 from rfl]
  split
  case isTrue hsmall =>
      obtain ⟨h1, h2, h3, h4⟩ := hfirst size hsmall
      rw [List.cons_append, List.nil_append, parseTop, if_neg h1, if_pos h2, if_neg h3, h4]
  case isFalse hlarge =>
      have hcur : (0x20 ||| UInt8.ofNat 31 : UInt8) = 0x3f := by decide
      rw [List.cons_append, hcur, parseTop, if_neg (by decide), if_pos (by decide), if_pos rfl,
        parseVarint_tail 31 (size - 31) rest (by omega), Option.map_some,
        show 31 + (size - 31) = size by omega]

theorem parseTop_indexedKey {index : ℕ} (rest : Bytes) (hpositive : 0 < index)
    (hindex : index < 2 ^ 32) :
    parseTop (varintWrite 4 0x00 index ++ rest) = some (.indexedKey false index, rest) := by
  have hfirst : ∀ v < 15, 0 < v → (0x00 ||| UInt8.ofNat v) < 0x20 ∧
      (0x00 ||| UInt8.ofNat v) &&& 0xf ≠ 0 ∧ (0x00 ||| UInt8.ofNat v) &&& 0xf ≠ 0xf ∧
      ((0x00 ||| UInt8.ofNat v) &&& 0xf).toNat = v := by
    decide +kernel
  rw [varintWrite, show maxInVarintPrefix 4 = 15 from rfl]
  split
  case isTrue hsmall =>
      obtain ⟨h1, h2, h3, h4⟩ := hfirst index hsmall hpositive
      rw [List.cons_append, List.nil_append, parseTop, if_pos h1, if_neg h2, if_neg h3, h4]
  case isFalse hlarge =>
      have hcur : (0x00 ||| UInt8.ofNat 15 : UInt8) = 0x0f := by decide
      rw [List.cons_append, hcur, parseTop, if_pos (by decide), if_neg (by decide),
        if_pos (by decide), parseVarint_tail 15 (index - 15) rest (by omega), Option.map_some,
        show 15 + (index - 15) = index by omega]

theorem parseStringPrefix_varintWrite {length : ℕ} (huff : Bool) (rest : Bytes)
    (hlength : length < 2 ^ 32) :
    parseStringPrefix (varintWrite 1 (if huff then 0x80 else 0x00) length ++ rest) =
      some ((length, huff), rest) := by
  have hfirst : ∀ huff : Bool, ∀ v < 128,
      decide (((if huff then 0x80 else 0x00) ||| UInt8.ofNat v) &&& 0x80 ≠ 0) = huff ∧
      (((if huff then 0x80 else 0x00) ||| UInt8.ofNat v) &&& 0x7f).toNat = v := by
    decide +kernel
  rw [varintWrite, show maxInVarintPrefix 1 = 127 from rfl]
  split
  case isTrue hsmall =>
      obtain ⟨h1, h2⟩ := hfirst huff length (by omega)
      simp only [List.cons_append, List.nil_append, parseStringPrefix, h1, h2]
      rw [if_neg (show length ≠ 0x7f by omega)]
  case isFalse hlarge =>
      obtain ⟨h1, h2⟩ := hfirst huff 127 (by omega)
      simp only [List.cons_append, parseStringPrefix, h1, h2]
      rw [if_pos trivial,
        parseVarint_tail 127 (length - 127) rest (by omega), Option.map_some,
        show 127 + (length - 127) = length by omega]

theorem parseUncompressed_append (data rest : Bytes) :
    parseUncompressed data.length (data ++ rest) = some (data, rest) := by
  rw [parseUncompressed, if_pos (by rw [List.length_append]; omega), List.take_left,
    List.drop_left]

theorem skipStringBody_append (data rest : Bytes) :
    skipStringBody data.length (data ++ rest) = some rest := by
  rw [skipStringBody, if_pos (by rw [List.length_append]; omega), List.drop_left]

/-! ### Strings -/

/-- The bytes of a value, after their number. -/
def Form.data (value : Bytes) : Form → Bytes
  | plain => value
  | trueBinary => 0 :: value
  | base64 => base64EncodeAndHuffmanCompress value

theorem Form.length_data (value : Bytes) (form : Form) :
    (form.data value).length = form.stringLength value := by
  cases form <;> rfl

theorem parseStringPrefix_writeString {key : Bytes} (rest : Bytes) (hkey : key.length < 2 ^ 32) :
    parseStringPrefix (writeString key ++ rest) = some ((key.length, false), key ++ rest) := by
  have hlength := parseStringPrefix_varintWrite false (key ++ rest) hkey
  rw [if_neg Bool.false_ne_true] at hlength
  rw [writeString, List.append_assoc, hlength]

theorem parseStringPrefix_writeValue {value : Bytes} {form : Form} (rest : Bytes)
    (hlength : form.stringLength value < 2 ^ 32) :
    parseStringPrefix (writeValue value form ++ rest) =
      some ((form.stringLength value, form == .base64), form.data value ++ rest) := by
  have hwrite : writeValue value form ++ rest =
      varintWrite 1 (if form == .base64 then 0x80 else 0x00) (form.stringLength value) ++
        (form.data value ++ rest) := by
    cases form <;> rw [← List.append_assoc] <;> rfl
  rw [hwrite, parseStringPrefix_varintWrite _ _ hlength]

section Strings

variable {parseHuff : Bytes → Option Bytes}

theorem parseString_append (data rest : Bytes) :
    parseString parseHuff false data.length (data ++ rest) =
      some ({ wireSize := data.length, value := some data }, rest) := by
  simp [parseString, parseUncompressed_append]

/-- The decoder reads the codes of the letters of a value, filled up with ones, as these
letters. -/
def Restores (parseHuff : Bytes → Option Bytes) (value : Bytes) : Prop :=
  (base64EncodeAndHuffmanCompress value).length < 2 ^ 32 ∧
    ∀ data, data.flatMap byteBits = padded ((base64Encode value).flatMap huffBits) →
      parseHuff data = some (base64Encode value)

theorem parseValueBody_data {value : Bytes} {form : Form} {isBinary : Bool} (rest : Bytes)
    (hform : isBinary = (form != .plain)) (hrestores : form = .base64 → Restores parseHuff value) :
    parseValueBody parseHuff isBinary (form == .base64) (form.stringLength value)
        (form.data value ++ rest) =
      some ({ wireSize := form.wireSize value.length, value := some value }, rest) := by
  rw [hform, parseValueBody, ← Form.length_data]
  cases form with
  | plain => exact parseString_append value rest
  | trueBinary =>
      have hdata := parseUncompressed_append (0 :: value) rest
      rw [if_pos (by decide), parseBinary, Form.data, hdata]
      rfl
  | base64 =>
      have hhuff := (hrestores rfl).2 _ (bits_base64EncodeAndHuffmanCompress value)
      rw [if_pos (by decide), parseBinary, Form.data, parseUncompressed_append]
      simp only [Option.bind_eq_bind, Option.bind_some, hhuff, beq_self_eq_true, if_true]
      have hwire : (base64Encode value).length = Form.base64.wireSize value.length :=
        length_base64Encode value
      have hback := unbase64_base64Encode value
      cases hs : base64Encode value with
      | nil =>
          rw [hs, List.length_nil] at hwire
          have hempty : value = [] := by
            rw [hs] at hback
            exact (Option.some.inj hback).symm
          rw [← hwire, hempty]
      | cons b s =>
          have hb : b ≠ 0 := (ne_of_mem_base64Encode (hs ▸ List.mem_cons_self)).1
          rw [hs] at hwire hback
          rw [← hwire]
          simp [hb, hback, unbase64Result]

end Strings

/-! ### Blocks -/

/-- The numbers in an instruction fit in 32 bits, and no index is 0. -/
def Instruction.Writable (parseHuff : Bytes → Option Bytes) : Instruction → Prop
  | .tableSize size => size < 2 ^ 32
  | .indexed index => 0 < index ∧ index < 2 ^ 32
  | .literal addToTable key value form =>
      (match key with
        | .name key => key.length < 2 ^ 32
        | .index index => addToTable = false ∧ 0 < index ∧ index < 2 ^ 32) ∧
      value.length + 1 < 2 ^ 32 ∧ (form = .base64 → Restores parseHuff value)

section Values

variable {parseHuff : Bytes → Option Bytes} {value : Bytes} {form : Form}

theorem stringLength_lt (hvalue : value.length + 1 < 2 ^ 32)
    (hrestores : form = .base64 → Restores parseHuff value) :
    form.stringLength value < 2 ^ 32 := by
  cases form with
  | plain => exact (Nat.lt_succ_self _).trans hvalue
  | trueBinary => exact hvalue
  | base64 => exact (hrestores rfl).1

end Values

namespace HPackParser

variable {parseHuff : Bytes → Option Bytes} {p q : HPackParser}

theorem parseValueLength_writeValue {addToTable : Bool} {key : ParsedKey} {value : Bytes}
    {form : Form} (rest : Bytes) (hvalue : value.length + 1 < 2 ^ 32)
    (hrestores : form = .base64 → Restores parseHuff value)
    (h : p.parseValue addToTable key value form = some q) :
    p.parseValueLength parseHuff addToTable key (writeValue value form ++ rest) =
      some (q, rest) := by
  have hprefix := parseStringPrefix_writeValue rest (stringLength_lt hvalue hrestores)
  rw [parseValueLength, hprefix]
  rw [parseValue] at h
  cases hskip : p.shouldSkipParsingString (form.stringLength value) with
  | true =>
      rw [if_pos hskip] at h
      have hbody := skipStringBody_append (form.data value) rest
      rw [Form.length_data] at hbody
      simp [hskip, hbody, h]
  | false =>
      rw [if_neg (by rw [hskip]; exact Bool.false_ne_true)] at h
      split at h
      case isTrue hform =>
          simp [hskip, parseValueBody_data rest hform hrestores, h]
      case isFalse => cases h

/-- The bytes of an instruction are read as the instruction. -/
theorem parseBytes_write {i : Instruction} (rest : Bytes) (hi : i.Writable parseHuff)
    (h : p.parse i = some q) : p.parseBytes parseHuff (i.write ++ rest) = some (q, rest) := by
  cases i with
  | tableSize size =>
      rw [parse] at h
      rw [Instruction.write, parseBytes, parseTop_tableSize rest hi]
      simp [h]
  | indexed index =>
      rw [parse] at h
      rw [Instruction.write, parseBytes, parseTop_indexed rest hi.1 hi.2]
      simp [h]
  | literal addToTable key value form =>
      obtain ⟨hkey, hvalue, hrestores⟩ := hi
      cases key with
      | name key =>
          have htop : ∀ rest, parseTop ((if addToTable then 0x40 else 0x00) :: rest) =
              some (.literalKey addToTable, rest) := by
            intro rest
            cases addToTable <;> rfl
          have hprefix := parseStringPrefix_writeString (writeValue value form ++ rest) hkey
          rw [Instruction.write, List.cons_append, parseBytes, htop, List.append_assoc]
          show parseKeyLength parseHuff p addToTable _ = _
          rw [parse] at h
          rw [parseKeyLength, hprefix]
          cases hskip : p.shouldSkipParsingString key.length with
          | true =>
              rw [if_pos hskip] at h
              have hbody := skipStringBody_append (form.data value) rest
              rw [Form.length_data] at hbody
              simp [hskip, skipStringBody_append,
                parseStringPrefix_writeValue rest (stringLength_lt hvalue hrestores), hbody, h]
          | false =>
              rw [if_neg (by rw [hskip]; exact Bool.false_ne_true)] at h
              simp [hskip, parseString_append,
                parseValueLength_writeValue rest hvalue hrestores h]
      | index index =>
          obtain ⟨rfl, hpositive, hindex⟩ := hkey
          obtain ⟨elem, helem, hvalueOf⟩ := Option.bind_eq_some_iff.mp h
          rw [Instruction.write, List.append_assoc, parseBytes,
            parseTop_indexedKey _ hpositive hindex]
          simp [helem, parseValueLength_writeValue rest hvalue hrestores hvalueOf]

theorem write_ne_nil {i : Instruction} (hi : i.Writable parseHuff) : i.write ≠ [] := by
  have hvarint : ∀ n opcode v, varintWrite n opcode v ≠ [] := by
    intro n opcode v
    rw [varintWrite]
    split <;> simp
  cases i with
  | tableSize size => exact hvarint 3 0x20 size
  | indexed index => exact hvarint 1 0x80 index
  | literal addToTable key value form =>
      cases key with
      | name key =>
          rw [Instruction.write]
          exact List.cons_ne_nil _ _
      | index index =>
          obtain ⟨⟨rfl, -⟩, -⟩ := hi
          rw [Instruction.write]
          exact List.append_ne_nil_of_left_ne_nil (hvarint 4 0x00 index) _

/-- A byte of fuel for each instruction is enough. -/
theorem parseLoop_write {is : List Instruction} {n : ℕ}
    (hwritable : ∀ i ∈ is, i.Writable parseHuff) (h : p.parseAll is = some q)
    (hn : (is.flatMap Instruction.write).length ≤ n) :
    parseLoop parseHuff n p (is.flatMap Instruction.write) = some q := by
  induction is generalizing p n with
  | nil =>
      obtain rfl := Option.some.inj h
      cases n <;> rfl
  | cons i is ih =>
      rw [parseAll, List.foldlM_cons] at h
      obtain ⟨p₁, hi, his⟩ := Option.bind_eq_some_iff.mp h
      have hwrite := write_ne_nil (hwritable i List.mem_cons_self)
      have hone := parseBytes_write (is.flatMap Instruction.write)
        (hwritable i List.mem_cons_self) hi
      have hlength := List.length_pos_iff.mpr hwrite
      rw [List.flatMap_cons, List.length_append] at hn
      obtain ⟨b, bytes, hbytes⟩ := List.exists_cons_of_ne_nil hwrite
      cases n with
      | zero => omega
      | succ n =>
          have hrec := ih (fun j hj => hwritable j (List.mem_cons_of_mem i hj)) his
            (n := n) (by omega)
          rw [List.flatMap_cons]
          rw [hbytes, List.cons_append] at hone ⊢
          simp [parseLoop, hone, hrec]

/-- A block that is read instruction by instruction is read from its bytes with the same
result. -/
theorem parseBlock_write {is : List Instruction} (hwritable : ∀ i ∈ is, i.Writable parseHuff)
    (h : p.parseAll is = some q) :
    p.parseBlock parseHuff (is.flatMap Instruction.write) = some q :=
  parseLoop_write hwritable h (Nat.le_refl _)

/-- A decoder that knows one string, two letters A. -/
def parseHuffAA (data : Bytes) : Option Bytes :=
  if data = [0x86, 0x1f] then some (ascii "AA") else none

def wireSample : List Instruction := [
  .tableSize 300, .indexed 2, .literal true (.name (ascii "k")) (ascii "v") .plain,
  .literal false (.index 62) (ascii "w") .plain,
  .literal false (.name (ascii "a-bin")) [7] .trueBinary,
  .literal false (.name (ascii "b-bin")) [0] .base64]

def wireStart : HPackParser := HPackParser.beginFrame {} { softLimit := 8192, hardLimit := 16384 }

theorem parseBlock_write_sample :
    wireSample.flatMap Instruction.write = [
      0x3f, 0x8d, 0x02, 0x82, 0x40, 1, 107, 1, 118, 0x0f, 0x2f, 1, 119,
      0x00, 5, 97, 45, 98, 105, 110, 2, 0, 7,
      0x00, 5, 98, 45, 98, 105, 110, 0x82, 0x86, 0x1f] ∧
    (wireStart.parseBlock parseHuffAA (wireSample.flatMap Instruction.write)).map
      (fun p => p.metadataBuffer) = some (some [
        (ascii ":method", ascii "GET"), (ascii "k", ascii "v"), (ascii "k", ascii "w"),
        (ascii "a-bin", [7]), (ascii "b-bin", [0])]) := by
  have hwritable : ∀ i ∈ wireSample, i.Writable parseHuffAA := by
    have hrestores : Restores parseHuffAA [0] := by
      refine ⟨by decide +kernel, fun data hdata => ?_⟩
      have hbits : padded ((base64Encode [0]).flatMap huffBits) =
          [0x86, 0x1f].flatMap byteBits := by
        decide +kernel
      rw [flatMap_byteBits_injective (hdata.trans hbits)]
      decide
    simp [wireSample, Instruction.Writable, hrestores, ascii]
  have hread : (wireStart.parseAll wireSample).map (fun p => p.metadataBuffer) = some (some [
      (ascii ":method", ascii "GET"), (ascii "k", ascii "v"), (ascii "k", ascii "w"),
      (ascii "a-bin", [7]), (ascii "b-bin", [0])]) := by
    decide +kernel
  obtain ⟨q, hq, hfields⟩ := Option.map_eq_some_iff.mp hread
  refine ⟨by decide +kernel, ?_⟩
  rw [parseBlock_write hwritable hq, Option.map_some, hfields]

end HPackParser

end GrpcM.Hpack
