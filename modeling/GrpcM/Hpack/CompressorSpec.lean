import GrpcM.Hpack.Lockstep

/-!
What the parser makes of the instructions of the compressor: the headers that it was given, in
their order. A compressor remembers indices only of entries with its own key, so none of them
can stand for the header of another.
-/

namespace GrpcM.Hpack

/-! ### One instruction -/

/-- What the wire asks of an instruction, the lengths apart: numbers of 32 bits, no index 0, no
new entry for a key that has an index, and the strings of a header in `fields`. -/
def Instruction.Addressed (fields : Block) : Instruction → Prop
  | .tableSize size => size < 2 ^ 32
  | .indexed index => 0 < index ∧ index < 2 ^ 32
  | .literal _ (.name key) value form =>
      (key, value) ∈ fields ∧ (form = .base64 → isBinaryHeader key = true)
  | .literal addToTable (.index index) value form =>
      addToTable = false ∧ (0 < index ∧ index < 2 ^ 32) ∧
        ∃ key, (key, value) ∈ fields ∧ (form = .base64 → isBinaryHeader key = true)

theorem Instruction.Addressed.mono {fields : Block} {i : Instruction} (h : i.Addressed fields)
    (more : Block) : i.Addressed (fields ++ more) := by
  cases i with
  | tableSize size => exact h
  | indexed index => exact h
  | literal addToTable key value form =>
      cases key with
      | name key =>
          obtain ⟨hmem, hbinary⟩ := h
          exact ⟨List.mem_append_left more hmem, hbinary⟩
      | index index =>
          obtain ⟨hnew, hindex, key, hmem, hbinary⟩ := h
          exact ⟨hnew, hindex, key, List.mem_append_left more hmem, hbinary⟩

namespace HPackParser

abbrev hardLimit (p : HPackParser) : ℕ := p.metadataEarlyDetection.hardLimit

/-- The block so far was read as `fields`, unless there is an error, and there is none that is
not theirs. -/
structure Collects (p : HPackParser) (fields : Block) : Prop where
  whole : p.frameError = none → p.metadataBuffer = some fields
  accepted : (∀ field ∈ fields, fieldError field.1 field.2 = none) →
    blockSize fields < p.hardLimit →
      p.frameError = none ∧ p.frameLength ≤ blockSize fields

variable {p : HPackParser} {fields : Block} {md : Memento}

@[simp] theorem emitHeader_table (p : HPackParser) (md : Memento) :
    (p.emitHeader md).table = p.table := by
  simp only [emitHeader]
  split <;> rfl

@[simp] theorem emitHeader_metadataEarlyDetection (p : HPackParser) (md : Memento) :
    (p.emitHeader md).metadataEarlyDetection = p.metadataEarlyDetection := by
  simp only [emitHeader]
  split <;> rfl

theorem hardLimit_emitHeader (p : HPackParser) (md : Memento) :
    (p.emitHeader md).hardLimit = p.hardLimit :=
  congrArg RandomEarlyDetection.hardLimit (emitHeader_metadataEarlyDetection p md)

@[simp] theorem setErrorAndContinueParsing_metadataEarlyDetection (p : HPackParser)
    (error : Option StreamError) :
    (p.setErrorAndContinueParsing error).metadataEarlyDetection = p.metadataEarlyDetection := rfl

theorem mustReject_eq_false_iff (r : RandomEarlyDetection) (size : ℕ) :
    r.mustReject size = false ↔ size < r.hardLimit := by
  simp [RandomEarlyDetection.mustReject]

theorem frameError_emitHeader (p : HPackParser) (md : Memento) :
    (p.emitHeader md).frameError = none ↔
      (p.frameError = none ∧ md.parseStatus = none) ∧
        uint32 (p.frameLength + md.transportSize) < p.hardLimit := by
  rw [← mustReject_eq_false_iff]
  cases hreject :
      p.metadataEarlyDetection.mustReject (uint32 (p.frameLength + md.transportSize)) with
  | true => simp [emitHeader, hreject, exceed, setErrorAndContinueParsing]
  | false => simp [emitHeader, hreject, setErrorAndContinueParsing]

theorem Collects.emitHeader (h : p.Collects fields) (hmd : md.Sound) :
    (p.emitHeader md).Collects (fields ++ [md.field]) where
  whole := by
    intro hnone
    obtain ⟨⟨hbefore, -⟩, hlimit⟩ := (frameError_emitHeader p md).mp hnone
    have hkept := (mustReject_eq_false_iff _ _).mpr hlimit
    simp [HPackParser.emitHeader, hkept, setErrorAndContinueParsing, h.whole hbefore]
  accepted := by
    intro hlegal hsize
    rw [hardLimit_emitHeader, blockSize_append, blockSize_singleton] at hsize
    obtain ⟨hbefore, hlast⟩ := List.forall_mem_append.mp hlegal
    obtain ⟨hnone, hlength⟩ := h.accepted hbefore (by omega)
    have hstatus : md.parseStatus = none :=
      hmd.status.trans (hlast md.field (List.mem_singleton_self _))
    have hmod : uint32 (p.frameLength + md.transportSize) ≤ p.frameLength + md.transportSize :=
      Nat.mod_le _ _
    have hmdsize := hmd.size
    refine ⟨(frameError_emitHeader p md).mpr ⟨⟨hnone, hstatus⟩, by omega⟩, ?_⟩
    rw [blockSize_append, blockSize_singleton]
    simp only [HPackParser.emitHeader]
    split
    · show uint32 (p.frameLength + md.transportSize) ≤ _
      omega
    · show uint32 (p.frameLength + md.transportSize) ≤ _
      omega

theorem shouldSkipParsingString_of_lt {length : ℕ}
    (h : length + entryOverhead < p.hardLimit) :
    p.shouldSkipParsingString length = false := by
  rw [shouldSkipParsingString, (mustReject_eq_false_iff _ _).mpr h, Bool.and_false]

variable {key value : Bytes} {form : Form}

theorem parseValue_eq {parsed : ParsedKey}
    (hform : isBinaryHeader parsed.key = (form != .plain))
    (hsize : fieldSize (parsed.key, value) < p.hardLimit)
    (addToTable : Bool) :
    p.parseValue addToTable parsed value form = p.finishHeader addToTable {
      key := parsed.key
      value := value
      wireSize := form.wireSize value.length
      parseStatus := parsed.error <|> valueError parsed.key value } := by
  obtain ⟨-, hstring⟩ := sizes_le_valueSize value hform
  simp only [fieldSize] at hsize
  rw [parseValue, shouldSkipParsingString_of_lt (by omega), if_neg Bool.false_ne_true,
    if_pos hform]
  simp [finishValue]

theorem parse_name (hform : isBinaryHeader key = (form != .plain))
    (hsize : fieldSize (key, value) < p.hardLimit) (addToTable : Bool) :
    p.parse (.literal addToTable (.name key) value form) = p.finishHeader addToTable {
      key := key
      value := value
      wireSize := form.wireSize value.length
      parseStatus := fieldError key value } := by
  have hkey : key.length + entryOverhead < p.hardLimit := by
    simp only [fieldSize] at hsize
    omega
  rw [parse, shouldSkipParsingString_of_lt hkey, if_neg Bool.false_ne_true,
    parseValue_eq hform hsize]
  rfl

/-- Nothing is ever wrong with a header that has the key. -/
theorem parse_index {index : ℕ} (hlookup : p.lookup index = some md) (hmd : md.Sound)
    (hlegal : ∀ value, fieldError md.key value = none)
    (hform : isBinaryHeader md.key = (form != .plain))
    (hsize : fieldSize (md.key, value) < p.hardLimit) :
    p.parse (.literal false (.index index) value form) = p.finishHeader false {
      key := md.key
      value := value
      wireSize := form.wireSize value.length
      parseStatus := fieldError md.key value } := by
  have hvalue : valueError md.key value = none := by
    have hnone : keyError md.key = none ∧ valueError md.key value = none := by
      simpa [fieldError] using hlegal value
    exact hnone.2
  rw [parse, hlookup, Option.bind_eq_bind, Option.bind_some, parseValue_eq hform hsize,
    hmd.status, hlegal, hlegal, hvalue]
  rfl

end HPackParser

/-- The parser `p` has read what the encoder has written, starting from `start`. -/
structure Follows (start : HPackParser) (history : List Memento) (given : ℕ) (e : Encoder)
    (fields : Block) (p : HPackParser) : Prop where
  parsed : start.parseAll e.output = some p
  paired : Paired history given e.table p.table
  current : p.table.currentTableBytes = e.table.maxTableSize
  allowed : p.table.currentTableBytes ≤ p.table.maxBytes
  maxBytes : p.table.maxBytes = start.table.maxBytes
  limits : p.metadataEarlyDetection = start.metadataEarlyDetection
  collects : p.Collects fields
  addressed : ∀ i ∈ e.output, i.Addressed fields

/-- What the encoder has written reads as `fields`. -/
def Reads (start : HPackParser) (history : List Memento) (given : ℕ) (e : Encoder)
    (fields : Block) : Prop := ∃ p, Follows start history given e fields p

/-- The encoder goes on, what it adds reads as `more`, and it has a result that is good. -/
def Sends {β : Type} (start : HPackParser) (history : List Memento) (given : ℕ)
    (fields more : Block) (result : Option (Encoder × β))
    (good : List Memento → β → Prop) : Prop :=
  ∃ e b history', result = some (e, b) ∧ history <+: history' ∧
    Reads start history' (given + 1) e (fields ++ more) ∧ good history' b

section Encoder

variable {start : HPackParser} {history : List Memento} {given : ℕ} {e : Encoder}
  {fields : Block}

theorem Reads.later {later : ℕ} (h : Reads start history given e fields)
    (hlater : given ≤ later) : Reads start history later e fields := by
  obtain ⟨p, hp⟩ := h
  exact ⟨p, { hp with paired := hp.paired.later hlater }⟩

theorem Reads.emit {i : Instruction} {md : Memento} (h : Reads start history given e fields)
    (hmd : md.Sound) (hi : i.Addressed (fields ++ [md.field]))
    (hparse : ∀ p : HPackParser, Paired history given e.table p.table →
      p.metadataEarlyDetection = start.metadataEarlyDetection →
        ∃ n, p.parse i = some ({ p with dynamicTableUpdatesAllowed := n }.emitHeader md)) :
    Reads start history given (e.emit i) (fields ++ [md.field]) := by
  obtain ⟨p, hp⟩ := h
  obtain ⟨n, hone⟩ := hparse p hp.paired hp.limits
  let q : HPackParser := { p with dynamicTableUpdatesAllowed := n }
  have hq : q.Collects fields := ⟨hp.collects.whole, hp.collects.accepted⟩
  refine ⟨q.emitHeader md, ?_⟩
  constructor
  case parsed => exact (HPackParser.parseAll_concat i hp.parsed).trans hone
  case paired => rw [HPackParser.emitHeader_table]; exact hp.paired
  case current => rw [HPackParser.emitHeader_table]; exact hp.current
  case allowed => rw [HPackParser.emitHeader_table]; exact hp.allowed
  case maxBytes => rw [HPackParser.emitHeader_table]; exact hp.maxBytes
  case limits => rw [HPackParser.emitHeader_metadataEarlyDetection]; exact hp.limits
  case collects => exact hq.emitHeader hmd
  case addressed => exact forall_mem_concat (fun i hmem => (hp.addressed i hmem).mono _) hi

theorem Reads.emitIndexed {index : ℕ} {md : Memento} (h : Reads start history given e fields)
    (hmd : md.Sound) (hindex : 0 < index ∧ index < 2 ^ 32)
    (hlookup : ∀ p : HPackParser, Paired history given e.table p.table →
      p.lookup index = some md) :
    Reads start history given (e.emitIndexed index) (fields ++ [md.field]) := by
  refine h.emit (i := .indexed index) hmd hindex fun p hp _ => ?_
  refine ⟨0, ?_⟩
  rw [HPackParser.parse, HPackParser.finishIndexed, hlookup p hp]
  rfl

theorem Reads.sound (h : Reads start history given e fields) : ∀ md ∈ history, md.Sound := by
  obtain ⟨p, hp⟩ := h
  exact hp.paired.sound

theorem Reads.lookup_eq {index : ℕ} {md : Memento} (h : Reads start history given e fields)
    (hgiven : given + 62 < 2 ^ 32) (hindex : e.table.convertibleToDynamicIndex index = true)
    (hmd : history[index - 1]? = some md) :
    (0 < e.table.dynamicIndex index ∧ e.table.dynamicIndex index < 2 ^ 32) ∧
      ∀ p : HPackParser, Paired history given e.table p.table →
        p.lookup (e.table.dynamicIndex index) = some md := by
  obtain ⟨p, hp⟩ := h
  obtain ⟨hdynamic, -⟩ := hp.paired.lookup hgiven hindex hmd
  refine ⟨⟨Nat.zero_lt_of_lt hdynamic, Nat.mod_lt _ (by decide)⟩, fun q hq => ?_⟩
  obtain ⟨-, hlookup⟩ := hq.lookup hgiven hindex hmd
  rw [HPackParser.lookup, if_neg (by omega), hlookup]

/-- An index that is still good stands for an entry with the property that it was stored
with. -/
theorem Stored.exists_of_convertible {property : Memento → Prop} {index : ℕ} {t : EncoderTable}
    (h : Stored history property index) (hindex : t.convertibleToDynamicIndex index = true) :
    ∃ md, history[index - 1]? = some md ∧ property md := by
  have htail : t.tailRemoteIndex < index := of_decide_eq_true hindex
  exact h (by omega)

theorem binary_of_base64 {key : Bytes} {form : Form}
    (hform : isBinaryHeader key = (form != .plain)) (hbase64 : form = .base64) :
    isBinaryHeader key = true := by
  rw [hform, hbase64]
  rfl

theorem Reads.emitName {key : Bytes} {form : Form} (h : Reads start history given e fields)
    (value : Bytes) (hform : isBinaryHeader key = (form != .plain))
    (hsize : fieldSize (key, value) < start.hardLimit) :
    Reads start history given (e.emit (.literal false (.name key) value form))
      (fields ++ [(key, value)]) := by
  refine h.emit (i := .literal false (.name key) value form) (sound_of_parsed value hform)
    ⟨List.mem_append_right _ (List.mem_singleton_self _), binary_of_base64 hform⟩
    fun p _ hlimits => ?_
  refine ⟨p.dynamicTableUpdatesAllowed, ?_⟩
  rw [HPackParser.parse_name hform (by rw [HPackParser.hardLimit, hlimits]; exact hsize)]
  rfl

theorem Reads.emitKeyIndex {md : Memento} {index : ℕ} {form : Form}
    (h : Reads start history given e fields) (value : Bytes)
    (hform : isBinaryHeader md.key = (form != .plain))
    (hsize : fieldSize (md.key, value) < start.hardLimit) (hmd : md.Sound)
    (hlegal : ∀ value, fieldError md.key value = none) (hindex : 0 < index ∧ index < 2 ^ 32)
    (hlookup : ∀ p : HPackParser, Paired history given e.table p.table →
      p.lookup index = some md) :
    Reads start history given (e.emit (.literal false (.index index) value form))
      (fields ++ [(md.key, value)]) := by
  refine h.emit (i := .literal false (.index index) value form) (sound_of_parsed value hform)
    ⟨rfl, hindex, md.key, List.mem_append_right _ (List.mem_singleton_self _),
      binary_of_base64 hform⟩ fun p hp hlimits => ?_
  refine ⟨p.dynamicTableUpdatesAllowed, ?_⟩
  rw [HPackParser.parse_index (hlookup p hp) hmd hlegal hform
    (by rw [HPackParser.hardLimit, hlimits]; exact hsize)]
  rfl

theorem checkIndexSize_eq_some {keyLen valueLen size : ℕ}
    (h : checkIndexSize keyLen valueLen = some size) :
    size = keyLen + valueLen + entryOverhead ∧ size ≤ EncoderTable.maxEntrySize := by
  unfold checkIndexSize EncoderTable.maxEntrySize entryOverhead at h
  split at h
  · cases h
  · split at h
    · cases h
    · obtain rfl := Option.some.inj h
      unfold EncoderTable.maxEntrySize entryOverhead
      omega

theorem Reads.emitLitHdrIncIdx {key : Bytes} {form : Form}
    (h : Reads start history given e fields) (value : Bytes)
    (hform : isBinaryHeader key = (form != .plain))
    (hfits : fieldSize (key, value) < start.hardLimit) (hgiven : given + 1 < 2 ^ 32) :
    Sends start history given fields [(key, value)] (e.emitLitHdrIncIdx key value form)
      fun history index => Stored history (fun md => md.field = (key, value)) index := by
  rw [Encoder.emitLitHdrIncIdx]
  cases hsize : checkIndexSize key.length (form.wireSize value.length) with
  | none =>
      have hreads := h.emitName value hform hfits
      exact ⟨_, 0, history, rfl, List.prefix_refl _, hreads.later (Nat.le_succ _),
        stored_zero _ _⟩
  | some size =>
      obtain ⟨p, hp⟩ := h
      obtain ⟨hsum, hmax⟩ := checkIndexSize_eq_some hsize
      let md : Memento := {
        key := key
        value := value
        wireSize := form.wireSize value.length
        parseStatus := fieldError key value }
      have hsound : md.Sound := sound_of_parsed value hform
      obtain ⟨table, index, stored, history', hallocate, hadd, hmaxe, hmaxp, hcurrent, hgrown,
        hindex, hpaired⟩ := hp.paired.add hsound (hsum.symm.trans_le hmax) hp.current hp.allowed
          hgiven
      have hresult : e.table.allocateIndex size = some (table, index) := by
        rw [hsum]
        exact hallocate
      have hone : p.parse (.literal true (.name key) value form) =
          some { p.emitHeader md with table := stored } := by
        rw [HPackParser.parse_name hform (by rw [HPackParser.hardLimit, hp.limits]; exact hfits),
          HPackParser.finishHeader, if_pos rfl, HPackParser.emitHeader_table, hadd]
      have hcollects := hp.collects.emitHeader hsound
      refine ⟨{ e with table := table }.emit (.literal true (.name key) value form), index,
        history', ?_, hgrown, ⟨{ p.emitHeader md with table := stored }, ?_⟩, ?_⟩
      · simp [hresult]
      · constructor
        case parsed => exact (HPackParser.parseAll_concat _ hp.parsed).trans hone
        case paired => exact hpaired
        case current => exact hcurrent.trans (hp.current.trans hmaxe.symm)
        case allowed => exact (hcurrent.trans_le hp.allowed).trans_eq hmaxp.symm
        case maxBytes => exact hmaxp.trans hp.maxBytes
        case limits => exact (HPackParser.emitHeader_metadataEarlyDetection p md).trans hp.limits
        case collects => exact ⟨hcollects.whole, hcollects.accepted⟩
        case addressed =>
            exact forall_mem_concat (fun i hmem => (hp.addressed i hmem).mono _)
              ⟨List.mem_append_right _ (List.mem_singleton_self _), binary_of_base64 hform⟩
      · exact hindex.imp fun _ h => by rw [h]; rfl

theorem Reads.emitStored {index : ℕ} {field : Bytes × Bytes}
    (h : Reads start history given e fields) (hgiven : given + 62 < 2 ^ 32)
    (hindex : e.table.convertibleToDynamicIndex index = true)
    (hstored : Stored history (fun md => md.field = field) index) :
    Reads start history given (e.emitIndexed (e.table.dynamicIndex index))
      (fields ++ [field]) := by
  obtain ⟨md, hmd, rfl⟩ := hstored.exists_of_convertible hindex
  obtain ⟨hdynamic, hlookup⟩ := h.lookup_eq hgiven hindex hmd
  exact h.emitIndexed (h.sound md (List.mem_of_getElem? hmd)) hdynamic hlookup

theorem Reads.sends {β : Type} {e' : Encoder} {b : β} {more : List (Bytes × Bytes)}
    {good : List Memento → β → Prop} (h : Reads start history given e' (fields ++ more))
    (hgood : good history b) : Sends start history given fields more (some (e', b)) good :=
  ⟨e', b, history, rfl, List.prefix_refl _, h.later (Nat.le_succ _), hgood⟩

/-! ### Compressors -/

theorem binaryForm_ne_plain (e : Encoder) : (e.binaryForm != .plain) = true := by
  unfold Encoder.binaryForm
  split <;> rfl

theorem Reads.encode (h : Reads start history given e fields) (key value : Bytes)
    (hfits : fieldSize (key, value) < start.hardLimit) :
    Reads start history given (e.encode key value) (fields ++ [(key, value)]) := by
  rw [Encoder.encode]
  split
  case isTrue hkey => exact h.emitName value (by rw [hkey, binaryForm_ne_plain]) hfits
  case isFalse hkey => exact h.emitName value (by rw [eq_false_of_ne_true hkey]; rfl) hfits

variable {key : Bytes}

theorem plain_of_not_binary (hkey : isBinaryHeader key = false) :
    isBinaryHeader key = (Form.plain != .plain) := by
  rw [hkey]
  rfl

theorem Reads.emitNotIdx (h : Reads start history given e fields) (value : Bytes)
    (hkey : isBinaryHeader key = false) (hfits : fieldSize (key, value) < start.hardLimit) :
    Reads start history given (e.emitLitHdrWithNonBinaryStringKeyNotIdx key value)
      (fields ++ [(key, value)]) :=
  h.emitName value (plain_of_not_binary hkey) hfits

theorem Reads.encodeAlwaysIndexed {index : ℕ} (h : Reads start history given e fields)
    (value : Bytes) (hkey : isBinaryHeader key = false)
    (hfits : fieldSize (key, value) < start.hardLimit) (hgiven : given + 62 < 2 ^ 32)
    (hstored : Stored history (fun md => md.field = (key, value)) index) :
    Sends start history given fields [(key, value)] (e.encodeAlwaysIndexed index key value)
      fun history index => Stored history (fun md => md.field = (key, value)) index := by
  rw [Encoder.encodeAlwaysIndexed]
  split
  case isTrue hindex => exact (h.emitStored hgiven hindex hstored).sends hstored
  case isFalse => exact h.emitLitHdrIncIdx value (plain_of_not_binary hkey) hfits (by omega)

/-- Only the key is stored, and it is one that allows any value. -/
theorem Reads.encodeRepeatingSliceValue {index : ℕ} (h : Reads start history given e fields)
    (slice : Bytes) (maxCompressionSize : ℕ) (hkey : isBinaryHeader key = true)
    (hlegal : ∀ value, fieldError key value = none)
    (hfits : fieldSize (key, slice) < start.hardLimit) (hgiven : given + 62 < 2 ^ 32)
    (hstored : Stored history (fun md => md.key = key) index) :
    Sends start history given fields [(key, slice)]
      (e.encodeRepeatingSliceValue key slice index maxCompressionSize)
      fun history index => Stored history (fun md => md.key = key) index := by
  have hform : isBinaryHeader key = (e.binaryForm != .plain) := by
    rw [hkey, binaryForm_ne_plain]
  rw [Encoder.encodeRepeatingSliceValue, Encoder.encodeIndexedKeyWithBinaryValue]
  split
  case isTrue => exact (h.emitName slice hform hfits).sends hstored
  case isFalse =>
      split
      case isTrue hindex =>
          obtain ⟨md, hmd, rfl⟩ := hstored.exists_of_convertible hindex
          obtain ⟨hdynamic, hlookup⟩ := h.lookup_eq hgiven hindex hmd
          exact (h.emitKeyIndex slice hform hfits (h.sound md (List.mem_of_getElem? hmd)) hlegal
            hdynamic hlookup).sends hstored
      case isFalse =>
          obtain ⟨e', index', history', hresult, hgrown, hreads, hindex⟩ :=
            h.emitLitHdrIncIdx slice hform hfits (by omega)
          refine ⟨e', index', history', hresult, hgrown, hreads, hindex.imp fun md hmd => ?_⟩
          rw [Memento.field, Prod.mk.injEq] at hmd
          exact hmd.1

theorem StableValue.sends {c : StableValue} (h : Reads start history given e fields)
    (value : Bytes) (hkey : isBinaryHeader key = false)
    (hfits : fieldSize (key, value) < start.hardLimit) (hgiven : given + 62 < 2 ^ 32)
    (hstored : Stored history (fun md => md.field = (key, c.previouslySentValue))
      c.previouslySentIndex) :
    Sends start history given fields [(key, value)] (c.encodeWith key value e)
      fun history c => Stored history (fun md => md.field = (key, c.previouslySentValue))
        c.previouslySentIndex := by
  rw [StableValue.encodeWith]
  split
  case isTrue hsame =>
      obtain ⟨rfl, hindex⟩ := hsame
      exact (h.emitStored hgiven hindex hstored).sends hstored
  case isFalse =>
      split
      case isTrue => exact (h.emitNotIdx _ hkey hfits).sends (stored_zero _ _)
      case isFalse =>
          obtain ⟨e', index, history', hresult, hgrown, hreads, hindex⟩ :=
            h.encodeAlwaysIndexed value hkey hfits hgiven (stored_zero _ _)
          exact ⟨e', { previouslySentValue := value, previouslySentIndex := index }, history',
            by rw [hresult]; rfl, hgrown, hreads, hindex⟩

theorem smallIntegralValues_sends {previouslySent : ℕ → ℕ}
    (h : Reads start history given e fields) (n value : ℕ) (text : ℕ → Bytes)
    (hkey : isBinaryHeader key = false) (hfits : fieldSize (key, text value) < start.hardLimit)
    (hgiven : given + 62 < 2 ^ 32)
    (hstored : ∀ v, Stored history (fun md => md.field = (key, text v)) (previouslySent v)) :
    Sends start history given fields [(key, text value)]
      (smallIntegralValues n previouslySent key value (text value) e)
      fun history sent => ∀ v, Stored history (fun md => md.field = (key, text v)) (sent v) := by
  rw [smallIntegralValues]
  split
  case isTrue =>
      split
      case isTrue hindex => exact (h.emitStored hgiven hindex (hstored value)).sends hstored
      case isFalse =>
          obtain ⟨e', index, history', hresult, hgrown, hreads, hindex⟩ :=
            h.emitLitHdrIncIdx (text value) (plain_of_not_binary hkey) hfits (by omega)
          refine ⟨e', Function.update previouslySent value index, history', ?_, hgrown, hreads,
            fun v => ?_⟩
          · rw [Encoder.emitLitHdrWithNonBinaryStringKeyIncIdx, hresult]
            rfl
          · by_cases hv : v = value
            · rw [hv, Function.update_self]
              exact hindex
            · rw [Function.update_of_ne hv]
              exact (hstored v).mono hgrown
  case isFalse => exact (h.emitNotIdx _ hkey hfits).sends hstored

theorem mem_of_mem_bubbleUp {values : SliceIndex} {i : ℕ} {it : Bytes × ℕ}
    (h : it ∈ values.bubbleUp i) : it ∈ values := by
  unfold SliceIndex.bubbleUp at h
  split at h
  · exact h
  · split at h
    case h_1 prev next hprev hnext =>
        rcases List.mem_or_eq_of_mem_set h with h | rfl
        · rcases List.mem_or_eq_of_mem_set h with h | rfl
          · exact h
          · exact List.mem_of_getElem? hnext
        · exact List.mem_of_getElem? hprev
    case h_2 => exact h

theorem SliceIndex.sends {values : SliceIndex} (h : Reads start history given e fields)
    (value : Bytes) (hkey : isBinaryHeader key = false)
    (hfits : fieldSize (key, value) < start.hardLimit) (hgiven : given + 62 < 2 ^ 32)
    (hstored : ∀ it ∈ values, Stored history (fun md => md.field = (key, it.1)) it.2) :
    Sends start history given fields [(key, value)] (values.emitTo key value e)
      fun history values =>
        ∀ it ∈ values, Stored history (fun md => md.field = (key, it.1)) it.2 := by
  rw [SliceIndex.emitTo]
  split
  case isTrue => exact (h.emitNotIdx _ hkey hfits).sends hstored
  case isFalse =>
      split
      case h_1 i hfound =>
          obtain ⟨hlt, hvalue, -⟩ := List.findIdx?_eq_some_iff_getElem.mp hfound
          have hvalue : value = values[i].1 := of_decide_eq_true hvalue
          have hentry := hstored values[i] (List.getElem_mem hlt)
          rw [← hvalue] at hentry
          obtain ⟨e', index, history', hresult, hgrown, hreads, hindex⟩ :=
            h.encodeAlwaysIndexed value hkey hfits hgiven hentry
          refine ⟨e', (SliceIndex.bubbleUp (values.set i (value, index)) i).rdropWhile
            fun it => !e'.table.convertibleToDynamicIndex it.2, history', ?_, hgrown, hreads, ?_⟩
          · rw [List.getElem?_eq_getElem hlt, Option.elim_some, hresult]
            rfl
          -- what is left in the index was in it, or is the value that was sent
          · intro it hit
            have hmem := mem_of_mem_bubbleUp ((List.rdropWhile_prefix _ _).subset hit)
            rcases List.mem_or_eq_of_mem_set hmem with hmem | rfl
            · exact (hstored it hmem).mono hgrown
            · exact hindex
      case h_2 =>
          obtain ⟨e', index, history', hresult, hgrown, hreads, hindex⟩ :=
            h.emitLitHdrIncIdx value (plain_of_not_binary hkey) hfits (by omega)
          refine ⟨e', values ++ [(value, index)], history', ?_, hgrown, hreads, fun it hit => ?_⟩
          · rw [Encoder.emitLitHdrWithNonBinaryStringKeyIncIdx, hresult]
            rfl
          · rcases List.mem_append.mp hit with hit | hit
            · exact (hstored it hit).mono hgrown
            · obtain rfl := List.mem_singleton.mp hit
              exact hindex

end Encoder

/-! ### Headers -/

def Header.fields : Header → Block
  | .httpScheme .http => [(ascii ":scheme", ascii "http")]
  | .httpScheme .https => [(ascii ":scheme", ascii "https")]
  | .httpScheme .invalid => []
  | .httpMethod .post => [(ascii ":method", ascii "POST")]
  | .httpMethod .get => [(ascii ":method", ascii "GET")]
  | .httpMethod .put => [(ascii ":method", ascii "PUT")]
  | .httpMethod .invalid => []
  | .httpStatus status => [(ascii ":status", fromInt64 status)]
  | .known t true => [(t.key, t.knownValue)]
  | .known _ false => []
  | .stable t value => [(t.key, value)]
  | .frequent t value => [(t.key, value)]
  | .smallSet t value => [(t.key, value)]
  | .integral t value => [(t.key, t.encode value)]
  | .timeout value => [(timeoutKey, value.encode)]
  | .plain key value => [(key, value)]

/-- What is received is what is meant, or a timeout near it that was sent before. -/
def Header.Received (before : List Header) (h : Header) (fields : Block) : Prop :=
  fields = h.fields ∨
    ∃ timeout sent, h = .timeout timeout ∧ .timeout sent ∈ before ∧ timeout.Near sent ∧
      fields = (Header.timeout sent).fields

def Header.Legal (h : Header) : Prop :=
  ∀ field ∈ h.fields, fieldError field.1 field.2 = none

/-- The longest that a header gets. Another timeout may be sent for a timeout. -/
def Header.size : Header → ℕ
  | .timeout _ => timeoutKey.length + 8 + entryOverhead
  | h => blockSize h.fields

theorem fieldSize_timeout (t : Timeout) :
    fieldSize (timeoutKey, t.encode) ≤ (Header.timeout t).size := by
  have hlength := t.length_encode_le
  simp only [fieldSize, valueSize, if_neg (by decide : ¬isBinaryHeader timeoutKey = true),
    Header.size]
  omega

theorem Header.blockSize_fields (h : Header) : blockSize h.fields ≤ h.size := by
  cases h with
  | timeout t =>
      rw [Header.fields, blockSize_singleton]
      exact fieldSize_timeout t
  | _ => exact le_rfl

section Received

variable {before : List Header} {header : Header} {fields : Block}

theorem Header.Received.blockSize_le (h : header.Received before fields) :
    blockSize fields ≤ header.size := by
  rcases h with rfl | ⟨timeout, sent, rfl, -, -, rfl⟩
  · exact header.blockSize_fields
  · exact (Header.timeout sent).blockSize_fields

theorem Header.Received.legal (h : header.Received before fields) (hlegal : header.Legal) :
    ∀ field ∈ fields, fieldError field.1 field.2 = none := by
  rcases h with rfl | ⟨timeout, sent, rfl, -, -, rfl⟩
  · exact hlegal
  · exact List.forall_mem_singleton.mpr (fieldError_timeout sent)

end Received

inductive ReceivedAll : List Header → List Header → List Block → Prop
  | nil (before : List Header) : ReceivedAll before [] []
  | cons {before headers : List Header} {header : Header} {fields : Block} {pieces : List Block}
      (first : header.Received before fields)
      (rest : ReceivedAll (before ++ [header]) headers pieces) :
      ReceivedAll before (header :: headers) (fields :: pieces)

def headersSize (headers : List Header) : ℕ := (headers.map Header.size).sum

section ReceivedAll

variable {before headers : List Header} {pieces : List Block}

theorem ReceivedAll.forall_mem {P : Bytes × Bytes → Prop} (h : ReceivedAll before headers pieces)
    (hone : ∀ header ∈ headers, ∀ before fields, header.Received before fields →
      ∀ field ∈ fields, P field) : ∀ field ∈ pieces.flatten, P field := by
  induction h with
  | nil => exact List.forall_mem_nil _
  | cons first _ ih =>
      obtain ⟨hfirst, hrest⟩ := List.forall_mem_cons.mp hone
      exact List.forall_mem_append.mpr ⟨hfirst _ _ first, ih hrest⟩

theorem ReceivedAll.blockSize_le (h : ReceivedAll before headers pieces) :
    blockSize pieces.flatten ≤ headersSize headers := by
  induction h with
  | nil => exact le_rfl
  | cons first _ ih =>
      rw [List.flatten_cons, blockSize_append, headersSize, List.map_cons, List.sum_cons]
      exact Nat.add_le_add first.blockSize_le ih

theorem ReceivedAll.legal (h : ReceivedAll before headers pieces)
    (hlegal : ∀ header ∈ headers, header.Legal) :
    ∀ field ∈ pieces.flatten, fieldError field.1 field.2 = none :=
  h.forall_mem fun header hmem _ _ hreceived => hreceived.legal (hlegal header hmem)

end ReceivedAll

/-! ### The compressor -/

/-- Each index that a compressor remembers is that of an entry with its key, and with the value
for which it is remembered. A timeout with an index is one that was sent. -/
structure Remembers (before : List Header) (history : List Memento) (s : CompressionState) :
    Prop where
  known : ∀ t, Stored history (fun md => md.field = (t.key, t.knownValue)) (s.known t)
  stable : ∀ t, Stored history
    (fun md => md.field = (t.key, (s.stable t).previouslySentValue))
    (s.stable t).previouslySentIndex
  frequent : ∀ t, Stored history (fun md => md.key = t.key) (s.frequent t)
  smallSet : ∀ t, ∀ it ∈ s.smallSet t,
    Stored history (fun md => md.field = (t.key, it.1)) it.2
  integral : ∀ t value, Stored history (fun md => md.field = (t.key, t.encode value))
    (s.integral t value)
  timeout : ∀ previous ∈ s.timeout.previousTimeouts,
    Stored history (fun md => md.field = (timeoutKey, previous.1.encode)) previous.2
  sent : ∀ previous ∈ s.timeout.previousTimeouts, 0 < previous.2 →
    Header.timeout previous.1 ∈ before

theorem Remembers.mono {before : List Header} {history history' : List Memento}
    {s : CompressionState} (h : Remembers before history s) (later : List Header)
    (hgrown : history <+: history') : Remembers (before ++ later) history' s where
  known := fun t => (h.known t).mono hgrown
  stable := fun t => (h.stable t).mono hgrown
  frequent := fun t => (h.frequent t).mono hgrown
  smallSet := fun t it hit => (h.smallSet t it hit).mono hgrown
  integral := fun t value => (h.integral t value).mono hgrown
  timeout := fun previous hprevious => (h.timeout previous hprevious).mono hgrown
  sent := fun previous hprevious hindex =>
    List.mem_append_left later (h.sent previous hprevious hindex)

theorem forall_update {α β : Type} [DecidableEq α] {f : α → β} {P : α → β → Prop} {a : α} {b : β}
    (h : ∀ x, P x (f x)) (hb : P a b) : ∀ x, P x (Function.update f a b x) := by
  intro x
  by_cases hx : x = a
  · rw [hx, Function.update_self]
    exact hb
  · rw [Function.update_of_ne hx]
    exact h x

theorem sound_staticMementos : ∀ md ∈ staticMementos, md.Sound := by
  have hstatic : ∀ md ∈ staticMementos,
      md.parseStatus = fieldError md.key md.value ∧ md.transportSize ≤ fieldSize md.field := by
    decide +kernel
  exact fun md hmd => ⟨(hstatic md hmd).1, (hstatic md hmd).2⟩

theorem field_status (status : ℕ) (h : Encoder.statusIndex status ≠ 0) :
    ∃ md, staticMementos[Encoder.statusIndex status - 1]? = some md ∧
      (0 < Encoder.statusIndex status ∧ Encoder.statusIndex status ≤ lastStaticEntry) ∧
      md.field = (ascii ":status", fromInt64 status) := by
  unfold Encoder.statusIndex at h ⊢
  split at h
  case h_8 => exact absurd rfl h
  all_goals exact ⟨_, rfl, by decide, by decide⟩

section Headers

variable {start : HPackParser} {before : List Header} {history : List Memento} {given : ℕ}
  {e : Encoder} {s : CompressionState} {fields : Block}

theorem Reads.emitStatic {index : ℕ} (h : Reads start history given e fields) (md : Memento)
    (hindex : 0 < index ∧ index ≤ lastStaticEntry) (hmd : staticMementos[index - 1]? = some md) :
    Reads start history given (e.emitIndexed index) (fields ++ [md.field]) := by
  obtain ⟨hpositive, hstatic⟩ := hindex
  apply h.emitIndexed (sound_staticMementos md (List.mem_of_getElem? hmd))
    ⟨hpositive, hstatic.trans_lt (by decide)⟩
  intro p _
  rw [HPackParser.lookup, if_pos hstatic, hmd]

theorem Reads.noteEncodingError (h : Reads start history given e fields) :
    Reads start history given e.noteEncodingError (fields ++ []) := by
  rw [List.append_nil]
  obtain ⟨p, hp⟩ := h
  exact ⟨p, hp.parsed, hp.paired, hp.current, hp.allowed, hp.maxBytes, hp.limits, hp.collects,
    hp.addressed⟩

theorem Reads.encodeHttpScheme (h : Reads start history given e fields) (value : HttpScheme) :
    Reads start history given (e.encodeHttpScheme value)
      (fields ++ (Header.httpScheme value).fields) := by
  cases value with
  | http => exact h.emitStatic (makeMemento (":scheme", "http")) (by decide) rfl
  | https => exact h.emitStatic (makeMemento (":scheme", "https")) (by decide) rfl
  | invalid => exact h.noteEncodingError

theorem Reads.encodeHttpMethod (h : Reads start history given e fields) (value : HttpMethod)
    (hfits : (Header.httpMethod value).size < start.hardLimit) :
    Reads start history given (e.encodeHttpMethod value)
      (fields ++ (Header.httpMethod value).fields) := by
  cases value with
  | post => exact h.emitStatic (makeMemento (":method", "POST")) (by decide) rfl
  | get => exact h.emitStatic (makeMemento (":method", "GET")) (by decide) rfl
  | put => exact h.emitNotIdx _ (by decide) hfits
  | invalid => exact h.noteEncodingError

theorem Reads.encodeHttpStatus (h : Reads start history given e fields) (status : ℕ)
    (hfits : (Header.httpStatus status).size < start.hardLimit) :
    Reads start history given (e.encodeHttpStatus status)
      (fields ++ (Header.httpStatus status).fields) := by
  rw [Encoder.encodeHttpStatus]
  split
  case isTrue hindex =>
      obtain ⟨md, hmd, hstatic, hfield⟩ := field_status status hindex
      have hreads := h.emitStatic md hstatic hmd
      rw [hfield] at hreads
      exact hreads
  case isFalse => exact h.emitNotIdx _ (by decide) hfits

/-- The timeout that is sent may be one sent before. -/
theorem TimeoutCompressor.sends (h : Reads start history given e fields)
    (hs : Remembers before history s) (hgiven : given + 62 < 2 ^ 32) (timeout : Timeout)
    (hfits : (Header.timeout timeout).size < start.hardLimit) :
    ∃ more, (Header.timeout timeout).Received before more ∧
      Sends start history given fields more (s.timeout.encodeWith timeoutKey timeout e)
        fun history' c => Remembers (before ++ [.timeout timeout]) history'
          { s with timeout := c } := by
  rw [TimeoutCompressor.encodeWith]
  split
  case h_1 previous hfound =>
      have hmem := List.mem_of_find?_eq_some hfound
      have hgood := List.find?_some hfound
      obtain ⟨hindex, hclose⟩ := Bool.and_eq_true_iff.mp hgood
      obtain ⟨hlong, hshort⟩ := of_decide_eq_true hclose
      have hpositive : 0 < previous.2 := Nat.zero_lt_of_lt (of_decide_eq_true hindex)
      refine ⟨_, .inr ⟨timeout, previous.1, rfl, hs.sent previous hmem hpositive,
        Timeout.near_of_ratioVersus hlong hshort, rfl⟩, ?_⟩
      exact (h.emitStored hgiven hindex (hs.timeout previous hmem)).sends
        (hs.mono _ (List.prefix_refl _))
  case h_2 =>
      have hsize := (fieldSize_timeout timeout).trans_lt hfits
      obtain ⟨e', index, history', hresult, hgrown, hreads, hindex⟩ :=
        h.emitLitHdrIncIdx timeout.encode
          (plain_of_not_binary (by decide : isBinaryHeader timeoutKey = false)) hsize (by omega)
      have hs' := hs.mono [.timeout timeout] hgrown
      refine ⟨_, .inl rfl, e', {
        previousTimeouts :=
          s.timeout.previousTimeouts.set (s.timeout.nextPreviousValue % 5) (timeout, index)
        nextPreviousValue := uint32 (s.timeout.nextPreviousValue + 1) }, history', ?_, hgrown,
        hreads, { hs' with timeout := fun previous hmem => ?_, sent := fun previous hmem => ?_ }⟩
      · rw [Encoder.emitLitHdrWithNonBinaryStringKeyIncIdx, hresult]
        rfl
      · rcases List.mem_or_eq_of_mem_set hmem with hmem | rfl
        · exact hs'.timeout previous hmem
        · exact hindex
      · rcases List.mem_or_eq_of_mem_set hmem with hmem | rfl
        · exact hs'.sent previous hmem
        · exact fun _ => List.mem_append_right _ (List.mem_singleton_self _)

theorem frequent_legal (t : FrequentTrait) (value : Bytes) : fieldError t.key value = none := by
  cases t <;> rfl

/-- A header is sent, and all that is remembered is still true. -/
theorem Reads.encodeHeader (h : Reads start history given e fields)
    (hs : Remembers before history s) (hgiven : given + 62 < 2 ^ 32) (header : Header)
    (hfits : header.size < start.hardLimit) :
    ∃ more, header.Received before more ∧
      Sends start history given fields more (e.encodeHeader s header)
        (Remembers (before ++ [header])) := by
  have hsame : ∀ {history'}, history <+: history' →
      Remembers (before ++ [header]) history' s := fun hgrown => hs.mono [header] hgrown
  cases header with
  | httpScheme value =>
      exact ⟨_, .inl rfl, (h.encodeHttpScheme value).sends (hsame (List.prefix_refl _))⟩
  | httpMethod value =>
      exact ⟨_, .inl rfl, (h.encodeHttpMethod value hfits).sends (hsame (List.prefix_refl _))⟩
  | httpStatus status =>
      exact ⟨_, .inl rfl, (h.encodeHttpStatus status hfits).sends (hsame (List.prefix_refl _))⟩
  | plain key value =>
      exact ⟨_, .inl rfl, (h.encode key value hfits).sends (hsame (List.prefix_refl _))⟩
  | known t good =>
      cases good with
      | false =>
          refine ⟨_, .inl rfl, h.noteEncodingError.sends ?_⟩
          rw [Function.update_eq_self]
          exact hsame (List.prefix_refl _)
      | true =>
          obtain ⟨e', index, history', hresult, hgrown, hreads, hindex⟩ :=
            h.encodeAlwaysIndexed _ (by cases t <;> decide) hfits hgiven (hs.known t)
          refine ⟨_, .inl rfl, e', { s with known := Function.update s.known t index }, history',
            ?_, hgrown, hreads, ?_⟩
          · rw [Encoder.encodeHeader, Encoder.encodeKnown, if_pos rfl, hresult]
            rfl
          · exact { hsame hgrown with known := forall_update (hsame hgrown).known hindex }
  | stable t value =>
      obtain ⟨e', c, history', hresult, hgrown, hreads, hindex⟩ :=
        StableValue.sends h value (by cases t <;> decide) hfits hgiven (hs.stable t)
      refine ⟨_, .inl rfl, e', { s with stable := Function.update s.stable t c }, history', ?_,
        hgrown, hreads, ?_⟩
      · rw [Encoder.encodeHeader, hresult]
        rfl
      · exact { hsame hgrown with
          stable := forall_update (P := fun (t : StableTrait) (c : StableValue) => Stored history'
            (fun md => md.field = (t.key, c.previouslySentValue)) c.previouslySentIndex)
            (hsame hgrown).stable hindex }
  | frequent t value =>
      obtain ⟨e', index, history', hresult, hgrown, hreads, hindex⟩ :=
        h.encodeRepeatingSliceValue value EncoderTable.maxEntrySize (by cases t <;> decide)
          (frequent_legal t) hfits hgiven (hs.frequent t)
      refine ⟨_, .inl rfl, e', { s with frequent := Function.update s.frequent t index }, history',
        ?_, hgrown, hreads, ?_⟩
      · rw [Encoder.encodeHeader, hresult]
        rfl
      · exact { hsame hgrown with frequent := forall_update (hsame hgrown).frequent hindex }
  | smallSet t value =>
      obtain ⟨e', values, history', hresult, hgrown, hreads, hindex⟩ :=
        SliceIndex.sends h value (by cases t <;> decide) hfits hgiven (hs.smallSet t)
      refine ⟨_, .inl rfl, e', { s with smallSet := Function.update s.smallSet t values }, history',
        ?_, hgrown, hreads, ?_⟩
      · rw [Encoder.encodeHeader, hresult]
        rfl
      · exact { hsame hgrown with
          smallSet := forall_update (P := fun (t : SmallSetTrait) (values : SliceIndex) =>
            ∀ it ∈ values, Stored history' (fun md => md.field = (t.key, it.1)) it.2)
            (hsame hgrown).smallSet hindex }
  | integral t value =>
      obtain ⟨e', sent, history', hresult, hgrown, hreads, hindex⟩ :=
        smallIntegralValues_sends h t.limit value t.encode (by cases t <;> decide) hfits hgiven
          (hs.integral t)
      refine ⟨_, .inl rfl, e', { s with integral := Function.update s.integral t sent }, history',
        ?_, hgrown, hreads, ?_⟩
      · rw [Encoder.encodeHeader, hresult]
        rfl
      · exact { hsame hgrown with
          integral := forall_update (P := fun (t : IntegralTrait) (sent : ℕ → ℕ) => ∀ value,
            Stored history' (fun md => md.field = (t.key, t.encode value)) (sent value))
            (hsame hgrown).integral hindex }
  | timeout value =>
      obtain ⟨more, hreceived, e', c, history', hresult, hgrown, hreads, hremembers⟩ :=
        TimeoutCompressor.sends h hs hgiven value hfits
      refine ⟨more, hreceived, e', { s with timeout := c }, history', ?_, hgrown, hreads,
        hremembers⟩
      rw [Encoder.encodeHeader, hresult]
      rfl

theorem Reads.encodeHeaders (headers : List Header) (h : Reads start history given e fields)
    (hs : Remembers before history s) (hgiven : given + headers.length + 62 < 2 ^ 32)
    (hfits : ∀ header ∈ headers, header.size < start.hardLimit) :
    ∃ e' s' history' pieces,
      headers.foldlM (fun p header => Encoder.encodeHeader p.1 p.2 header) (e, s) =
        some (e', s') ∧
      history <+: history' ∧
      Reads start history' (given + headers.length) e' (fields ++ pieces.flatten) ∧
      Remembers (before ++ headers) history' s' ∧ ReceivedAll before headers pieces := by
  induction headers generalizing e s before history given fields with
  | nil =>
      refine ⟨e, s, history, [], rfl, List.prefix_refl _, ?_, ?_, .nil before⟩
      · rw [List.flatten_nil, List.append_nil]
        exact h
      · rw [List.append_nil]
        exact hs
  | cons header headers ih =>
      rw [List.length_cons] at hgiven
      obtain ⟨hfirst, hrest⟩ := List.forall_mem_cons.mp hfits
      obtain ⟨more, hmore, e₁, s₁, history₁, hone, hgrown₁, hreads₁, hs₁⟩ :=
        h.encodeHeader hs (by omega) header hfirst
      obtain ⟨e₂, s₂, history₂, pieces, hall, hgrown₂, hreads₂, hs₂, hpieces⟩ :=
        ih hreads₁ hs₁ (by omega) hrest
      refine ⟨e₂, s₂, history₂, more :: pieces, ?_, hgrown₁.trans hgrown₂, ?_, ?_,
        .cons hmore hpieces⟩
      · rw [List.foldlM_cons, hone]
        exact hall
      · rw [List.append_assoc, Nat.add_right_comm] at hreads₂
        rw [List.flatten_cons, List.length_cons, ← Nat.add_assoc]
        exact hreads₂
      · rw [List.append_assoc] at hs₂
        exact hs₂

end Headers

end GrpcM.Hpack
