import GrpcM.Hpack.Connection
import Mathlib.Algebra.BigOperators.Group.List.Basic

/-!
Every block that is written is read, as what it was meant to be and in its order, whatever the
order of the actions of the two sides. The invariant looks at the reader as it will be when it
has received all that is on its way: its table is in step with that of the writer.
-/

namespace GrpcM.Hpack

/-! ### Between blocks -/

/-- The two sides after `before` was sent, with no block under way. -/
structure Synced (before : List Header) (history : List Memento) (c : HPackCompressor)
    (p : HPackParser) : Prop where
  paired : Paired history before.length c.table p.table
  remembers : Remembers before history c.compressionState
  current : c.advertiseTableSizeChange = false →
    p.table.currentTableBytes = c.table.maxTableSize
  usable : c.maxUsableSize + 31 < 2 ^ 32
  frameLength : p.frameLength = 0
  frameError : p.frameError = none

namespace HPackParser

variable {p : HPackParser} {fields : Block}

@[simp] theorem endOfHeaders_table (p : HPackParser) (bernoulli : Bool) :
    (p.endOfHeaders bernoulli).1.table = p.table := by
  simp only [endOfHeaders]
  split <;> rfl

theorem Collects.eq_of_ok (h : p.Collects fields) (bernoulli : Bool) {block : Block}
    (hok : (p.endOfHeaders bernoulli).2 = .ok block) : block = fields := by
  cases hreject : p.metadataEarlyDetection.reject p.frameLength bernoulli with
  | true =>
      cases herror : p.frameError with
      | none => simp [endOfHeaders, hreject, exceed, setErrorAndContinueParsing, herror] at hok
      | some error =>
          simp [endOfHeaders, hreject, exceed, setErrorAndContinueParsing, herror] at hok
  | false =>
      cases herror : p.frameError with
      | none =>
          simp only [endOfHeaders, hreject, Bool.false_eq_true, if_false, herror,
            h.whole herror, Option.getD_some, Except.ok.injEq] at hok
          exact hok.symm
      | some error => simp [endOfHeaders, hreject, herror] at hok

theorem Collects.endOfHeaders (h : p.Collects fields) (bernoulli : Bool)
    (hlegal : ∀ field ∈ fields, fieldError field.1 field.2 = none)
    (hhard : blockSize fields < p.hardLimit)
    (hsoft : blockSize fields ≤ p.metadataEarlyDetection.softLimit) :
    (p.endOfHeaders bernoulli).2 = .ok fields := by
  obtain ⟨herror, hlength⟩ := h.accepted hlegal hhard
  have hkept : p.metadataEarlyDetection.reject p.frameLength bernoulli = false := by
    rw [RandomEarlyDetection.reject, if_pos (hlength.trans hsoft)]
  simp only [HPackParser.endOfHeaders, hkept, Bool.false_eq_true, if_false, herror,
    h.whole herror, Option.getD_some]

end HPackParser

section Synced

variable {before : List Header} {history : List Memento} {c : HPackCompressor} {p : HPackParser}

theorem Paired.maxTableSize_lt {given : ℕ} {e : EncoderTable} {t : ParserTable Memento}
    (h : Paired history given e t) : e.maxTableSize < 2 ^ 32 := by
  obtain ⟨_, _, he, -⟩ := h.tables
  have hbounded := he.bounded
  omega

/-- A change of the size stands at the start of a block. -/
theorem Synced.reads_encoder (h : Synced before history c p)
    (hallowed : c.table.maxTableSize ≤ p.table.maxBytes) (hgiven : before.length < 2 ^ 32)
    (limits : RandomEarlyDetection) (trueBinary : Bool) :
    Reads (p.beginFrame limits) history before.length (c.encoder trueBinary) [] := by
  have hcollects : (p.beginFrame limits).Collects [] :=
    ⟨fun _ => rfl, fun _ _ => ⟨h.frameError, h.frameLength.le⟩⟩
  rw [HPackCompressor.encoder]
  cases hadvertise : c.advertiseTableSizeChange with
  | false =>
      rw [if_neg Bool.false_ne_true]
      have hcurrent := h.current hadvertise
      exact ⟨p.beginFrame limits, rfl, h.paired, hcurrent, hcurrent.trans_le hallowed, rfl, rfl,
        hcollects, List.forall_mem_nil _⟩
  | true =>
      rw [if_pos rfl]
      obtain ⟨table, hset, hmax, hcurrent, hpaired⟩ := h.paired.setCurrentTableSize hallowed hgiven
      let p' : HPackParser := { p.beginFrame limits with
        table := table
        dynamicTableUpdatesAllowed := 1 }
      have hparse : (p.beginFrame limits).parse (.tableSize c.table.maxTableSize) = some p' := by
        simp [HPackParser.parse, HPackParser.finishMaxTableSize, HPackParser.beginFrame, hset, p']
      refine ⟨p', ?_⟩
      constructor
      case parsed =>
          have hnone : (p.beginFrame limits).parseAll [] = some (p.beginFrame limits) := rfl
          exact (HPackParser.parseAll_concat _ hnone).trans hparse
      case paired => exact hpaired
      case current => exact hcurrent
      case allowed => exact (hcurrent.trans_le hallowed).trans_eq hmax.symm
      case maxBytes => exact hmax
      case limits => rfl
      case collects => exact ⟨hcollects.whole, hcollects.accepted⟩
      case addressed => exact forall_mem_concat (List.forall_mem_nil _) h.paired.maxTableSize_lt

theorem Synced.encodeRawHeaders (h : Synced before history c p)
    (hallowed : c.table.maxTableSize ≤ p.table.maxBytes) (limits : RandomEarlyDetection)
    (headers : List Header) (trueBinary : Bool)
    (hgiven : before.length + headers.length + 62 < 2 ^ 32)
    (hfits : ∀ header ∈ headers, header.size < limits.hardLimit) :
    ∃ c' block ok p' history' pieces,
      c.encodeRawHeaders headers trueBinary = some (c', block, ok) ∧
      (p.beginFrame limits).parseAll block = some p' ∧ ReceivedAll before headers pieces ∧
      p'.Collects pieces.flatten ∧ p'.metadataEarlyDetection = limits ∧
      (∀ bernoulli, Synced (before ++ headers) history' c' (p'.endOfHeaders bernoulli).1) ∧
      c'.table.maxTableSize ≤ p'.table.maxBytes ∧ p'.table.maxBytes = p.table.maxBytes ∧
      ∀ i ∈ block, i.Addressed pieces.flatten := by
  have hstart := h.reads_encoder hallowed (by omega) limits trueBinary
  obtain ⟨e, s, history', pieces, hall, -, ⟨p', hp⟩, hs, hpieces⟩ :=
    hstart.encodeHeaders headers h.remembers hgiven hfits
  refine ⟨{ c with advertiseTableSizeChange := false, table := e.table, compressionState := s },
    e.output, !e.sawEncodingErrors, p', history', pieces, ?_, hp.parsed, hpieces, hp.collects,
    hp.limits, fun bernoulli => ?_, hp.current.symm.trans_le hp.allowed, hp.maxBytes,
    hp.addressed⟩
  · rw [HPackCompressor.encodeRawHeaders, hall]
    rfl
  · constructor
    case paired =>
        rw [HPackParser.endOfHeaders_table, List.length_append]
        exact hp.paired
    case remembers => exact hs
    case current =>
        rw [HPackParser.endOfHeaders_table]
        exact fun _ => hp.current
    case usable => exact h.usable
    case frameLength => rfl
    case frameError => rfl

theorem Synced.setMaxTableSize (h : Synced before history c p) (n : ℕ)
    (hgiven : before.length < 2 ^ 32) :
    ∃ c', c.setMaxTableSize n = some c' ∧ Synced before history c' p ∧
      c'.table.maxTableSize ≤ n := by
  have husable := h.usable
  obtain ⟨table, hset, hmax, hpaired⟩ :=
    h.paired.setMaxSize (n := min c.maxUsableSize n) (by omega) hgiven
  refine ⟨{ c with
    table := table
    advertiseTableSizeChange := c.advertiseTableSizeChange ||
      (min c.maxUsableSize n != c.table.maxTableSize) }, ?_, ?_, hmax.trans_le (min_le_right _ _)⟩
  · rw [HPackCompressor.setMaxTableSize, hset]
    rfl
  · constructor
    case paired => exact hpaired
    case remembers => exact h.remembers
    case current =>
        intro hadvertise
        obtain ⟨hbefore, hsame⟩ := Bool.or_eq_false_iff.mp hadvertise
        rw [h.current hbefore, hmax]
        exact (bne_eq_false_iff_eq.mp hsame).symm
    case usable => exact husable
    case frameLength => exact h.frameLength
    case frameError => exact h.frameError

theorem Synced.setMaxUsableSize {n : ℕ} (h : Synced before history c p) (hn : n + 31 < 2 ^ 32)
    (hgiven : before.length < 2 ^ 32) :
    ∃ c', c.setMaxUsableSize n = some c' ∧ Synced before history c' p ∧
      c'.table.maxTableSize ≤ c.table.maxTableSize := by
  have hsynced : Synced before history { c with maxUsableSize := n } p :=
    { h with usable := hn }
  obtain ⟨c', hset, hc', hmax⟩ :=
    hsynced.setMaxTableSize (min c.table.maxTableSize n) hgiven
  exact ⟨c', hset, hc', hmax.trans (min_le_left _ _)⟩

/-- A bound that the writer keeps already. -/
theorem Synced.setMaxBytes {n : ℕ} (h : Synced before history c p)
    (hn : c.table.maxTableSize ≤ n) (hgiven : before.length < 2 ^ 32) :
    ∃ table, p.table.setMaxBytes Memento.transportSize n = some table ∧ table.maxBytes = n ∧
      Synced before history c { p with table := table } := by
  obtain ⟨table, hset, hmax, hcurrent, hpaired⟩ := h.paired.setMaxBytes hn hgiven
  refine ⟨table, hset, hmax, ?_⟩
  constructor
  case paired => exact hpaired
  case remembers => exact h.remembers
  case current => exact fun hadvertise => hcurrent.trans (h.current hadvertise)
  case usable => exact h.usable
  case frameLength => exact h.frameLength
  case frameError => exact h.frameError

end Synced

/-! ### What is on its way -/

namespace Reader

theorem receiveAll_cons {r r₁ : Reader} {m : Message} {ms : List Message}
    {outcomes : List Outcome} (h : r.receiveAll (m :: ms) = some (r₁, outcomes)) :
    ∃ r' first others, r.receive m = some (r', first) ∧
      r'.receiveAll ms = some (r₁, others) ∧ outcomes = first ++ others := by
  obtain ⟨⟨r', first⟩, hm, hrest⟩ := Option.bind_eq_some_iff.mp h
  obtain ⟨⟨r'', others⟩, hms, hlast⟩ := Option.bind_eq_some_iff.mp hrest
  obtain ⟨rfl, rfl⟩ : r'' = r₁ ∧ first ++ others = outcomes := by simpa using hlast
  exact ⟨r', first, others, hm, hms, rfl⟩

theorem receiveAll_append {r r₁ r₂ : Reader} {ms ms' : List Message}
    {outcomes outcomes' : List Outcome} (h : r.receiveAll ms = some (r₁, outcomes))
    (h' : r₁.receiveAll ms' = some (r₂, outcomes')) :
    r.receiveAll (ms ++ ms') = some (r₂, outcomes ++ outcomes') := by
  induction ms generalizing r outcomes with
  | nil =>
      obtain ⟨rfl, rfl⟩ : r = r₁ ∧ [] = outcomes := by simpa [receiveAll] using h
      exact h'
  | cons m ms ih =>
      obtain ⟨r', first, others, hm, hms, rfl⟩ := receiveAll_cons h
      have hrec := ih hms
      simp [receiveAll, hm, hrec]

theorem receiveAll_singleton {r r₁ : Reader} {m : Message} {outcomes : List Outcome}
    (h : r.receive m = some (r₁, outcomes)) : r.receiveAll [m] = some (r₁, outcomes) := by
  simp [receiveAll, h]

/-- No acknowledgement is on its way to a reader that waits for none. -/
theorem receiveAll_of_not_sending {r r₁ : Reader} {ms : List Message} {outcomes : List Outcome}
    (hstate : r.settings.updateState ≠ .sending) (h : r.receiveAll ms = some (r₁, outcomes)) :
    r₁.settings = r.settings ∧ ∀ settings : Http2SettingsManager,
      settings.acked = r.settings.acked →
        Reader.receiveAll { r with settings := settings } ms =
          some ({ r₁ with settings := settings }, outcomes) := by
  induction ms generalizing r outcomes with
  | nil =>
      obtain ⟨rfl, rfl⟩ : r = r₁ ∧ [] = outcomes := by simpa [receiveAll] using h
      exact ⟨rfl, fun _ _ => rfl⟩
  | cons m ms ih =>
      obtain ⟨r', first, others, hm, hms, rfl⟩ := receiveAll_cons h
      cases m with
      | settingsAck =>
          simp [Reader.receive, Http2SettingsManager.ackLastSend, hstate] at hm
      | headers block =>
          obtain ⟨p, hparse, hr'⟩ := Option.map_eq_some_iff.mp hm
          obtain rfl : (r.endOfHeaders p).1 = r' := congrArg Prod.fst hr'
          obtain rfl : (r.endOfHeaders p).2 = first := congrArg Prod.snd hr'
          have hnext : (r.endOfHeaders p).1.settings.updateState ≠ .sending := hstate
          obtain ⟨hsame, hany⟩ := ih hnext hms
          refine ⟨hsame, fun settings hacked => ?_⟩
          have hbegin : Reader.beginFrame { r with settings := settings } = r.beginFrame := by
            simp only [Reader.beginFrame, Reader.limits, hacked]
          have hone : Reader.receive { r with settings := settings } (.headers block) =
              some ({ (r.endOfHeaders p).1 with settings := settings },
                (r.endOfHeaders p).2) := by
            rw [Reader.receive, hbegin, hparse]
            rfl
          have hrec := hany settings hacked
          simp [receiveAll, hone, hrec]

/-- What is only meant to be sent plays no part. -/
theorem receiveAll_setLocal {r r₁ : Reader} {ms : List Message} {outcomes : List Outcome}
    (s : Http2Settings) (h : r.receiveAll ms = some (r₁, outcomes)) :
    Reader.receiveAll { r with settings := { r.settings with localSettings := s } } ms =
      some ({ r₁ with settings := { r₁.settings with localSettings := s } }, outcomes) := by
  induction ms generalizing r outcomes with
  | nil =>
      obtain ⟨rfl, rfl⟩ : r = r₁ ∧ [] = outcomes := by simpa [receiveAll] using h
      rfl
  | cons m ms ih =>
      obtain ⟨r', first, others, hm, hms, rfl⟩ := receiveAll_cons h
      have hone : Reader.receive { r with settings := { r.settings with localSettings := s } } m =
          some ({ r' with settings := { r'.settings with localSettings := s } }, first) := by
        cases m with
        | settingsAck =>
            by_cases hstate : r.settings.updateState = .sending
            · simp only [Reader.receive, Http2SettingsManager.ackLastSend, hstate, ne_eq,
                not_true_eq_false, if_false, Option.bind_eq_bind, Option.bind_some] at hm ⊢
              obtain ⟨table, htable, hr'⟩ := Option.bind_eq_some_iff.mp hm
              rw [htable]
              obtain ⟨rfl, rfl⟩ := Prod.mk.inj (Option.some.inj hr')
              rfl
            · simp [Reader.receive, Http2SettingsManager.ackLastSend, hstate] at hm
        | headers block =>
            obtain ⟨p, hparse, hr'⟩ := Option.map_eq_some_iff.mp hm
            obtain rfl : (r.endOfHeaders p).1 = r' := congrArg Prod.fst hr'
            obtain rfl : (r.endOfHeaders p).2 = first := congrArg Prod.snd hr'
            have hbegin : Reader.beginFrame
                { r with settings := { r.settings with localSettings := s } } = r.beginFrame := rfl
            rw [Reader.receive, hbegin, hparse]
            rfl
      have hrec := ih hms
      simp [receiveAll, hone, hrec]

end Reader

/-! ### Every run -/

/-- Headers with which nothing is wrong, and that take no more than `limit`. -/
structure Acceptable (limit : ℕ) (headers : List Header) : Prop where
  legal : ∀ header ∈ headers, header.Legal
  size : headersSize headers ≤ limit

/-- A block is read as what was meant, header by header, if it is accepted, and it is when it is
acceptable. -/
def Arrives (limit : ℕ) (before headers : List Header) (outcome : Outcome) : Prop :=
  ∃ pieces, ReceivedAll before headers pieces ∧
    (∀ block, outcome = .ok block → block = pieces.flatten) ∧
    (Acceptable limit headers → outcome = .ok pieces.flatten)

inductive ArriveAll (limit : ℕ) : List Header → List (List Header) → List Outcome → Prop
  | nil (before : List Header) : ArriveAll limit before [] []
  | cons {before headers : List Header} {written : List (List Header)} {outcome : Outcome}
      {outcomes : List Outcome} (first : Arrives limit before headers outcome)
      (rest : ArriveAll limit (before ++ headers) written outcomes) :
      ArriveAll limit before (headers :: written) (outcome :: outcomes)

theorem ArriveAll.concat {limit : ℕ} {before headers : List Header}
    {written : List (List Header)} {outcomes : List Outcome} {outcome : Outcome}
    (h : ArriveAll limit before written outcomes)
    (hlast : Arrives limit (before ++ written.flatten) headers outcome) :
    ArriveAll limit before (written ++ [headers]) (outcomes ++ [outcome]) := by
  induction h with
  | nil before =>
      rw [List.flatten_nil, List.append_nil] at hlast
      exact .cons hlast (.nil _)
  | cons first _ ih =>
      rw [List.flatten_cons, ← List.append_assoc] at hlast
      exact .cons first (ih hlast)

/-- Where the one change of the settings is: nowhere, on its way, or received but not yet
acknowledged. The reader is taken as it will be when it has received what is on its way. -/
inductive Agreed (r : Reader) (w : Writer) : List (Option ℕ) → Prop where
  | settled (hstate : r.settings.updateState ≠ .sending) (hacks : w.queuedAcks = 0)
      (hbytes : r.parser.table.maxBytes = w.peerHeaderTableSize)
      (hsent : r.settings.sent.headerTableSize = w.peerHeaderTableSize) : Agreed r w []
  | onItsWay (frame : Option ℕ) (hstate : r.settings.updateState = .sending)
      (hacks : w.queuedAcks = 0) (hbytes : r.parser.table.maxBytes = w.peerHeaderTableSize)
      (hsent : r.settings.sent.headerTableSize = frame.getD w.peerHeaderTableSize) :
      Agreed r w [frame]
  | unacknowledged (hstate : r.settings.updateState = .sending) (hacks : w.queuedAcks = 1)
      (hsent : r.settings.sent.headerTableSize = w.peerHeaderTableSize) : Agreed r w []

/-- All settings of a reader, those to come included, let headers of the size `limit` pass. -/
structure Reader.Lets (r : Reader) (limit : ℕ) : Prop where
  soft : limit ≤ r.maxHeaderListSizeSoftLimit
  meant : limit < r.settings.localSettings.maxHeaderListSize
  sent : limit < r.settings.sent.maxHeaderListSize
  acked : limit < r.settings.acked.maxHeaderListSize

/-- Every literal of a block is one of the headers as which it is to be read. -/
def Message.Addressed (written : List (List Header)) : Message → Prop
  | .settingsAck => True
  | .headers block => ∃ headers ∈ written, ∃ before pieces,
      ReceivedAll before headers pieces ∧ ∀ i ∈ block, i.Addressed pieces.flatten

theorem Message.Addressed.mono {written : List (List Header)} {m : Message}
    (h : m.Addressed written) (more : List (List Header)) : m.Addressed (written ++ more) := by
  cases m with
  | settingsAck => trivial
  | headers block =>
      obtain ⟨headers, hmem, hblock⟩ := h
      exact ⟨headers, List.mem_append_left more hmem, hblock⟩

structure Live (limit : ℕ) (written : List (List Header)) (c : Connection) (r : Reader)
    (outcomes : List Outcome) : Prop where
  received : c.reader.receiveAll c.toReader = some (r, outcomes)
  synced : ∃ history, Synced written.flatten history c.writer.compressor r.parser
  allowed : c.writer.compressor.table.maxTableSize ≤ r.parser.table.maxBytes
  agreed : Agreed r c.writer c.toWriter
  lets : r.Lets limit
  arrived : ArriveAll limit [] written (c.received ++ outcomes)
  addressed : ∀ m ∈ c.toReader, m.Addressed written

/-- A connection whose reader has a soft limit of its own and draws any bits. -/
def Connection.start (softLimit : ℕ) (bitsrc : ℕ → Bool) : Connection where
  reader := { maxHeaderListSizeSoftLimit := softLimit, bitsrc := bitsrc }

/-- What is asked of an action: settings that let headers pass, and a size and headers that are
not too large. -/
def Action.Admissible (limit : ℕ) : Action → Prop
  | setLocal settings => limit < settings.maxHeaderListSize
  | setMaxUsableSize size => size < 2 ^ 31
  | writeHeaders headers _ => ∀ header ∈ headers, header.size ≤ limit
  | _ => True

instance (limit : ℕ) : DecidablePred (Action.Admissible limit)
  | .setLocal settings => inferInstanceAs (Decidable (limit < settings.maxHeaderListSize))
  | .setMaxUsableSize size => inferInstanceAs (Decidable (size < 2 ^ 31))
  | .writeHeaders headers _ =>
      inferInstanceAs (Decidable (∀ header ∈ headers, header.size ≤ limit))
  | .maybeSendUpdate => .isTrue trivial
  | .receiveSettings => .isTrue trivial
  | .beginWrite => .isTrue trivial
  | .receive => .isTrue trivial

section Live

variable {limit : ℕ} {written : List (List Header)} {c : Connection} {r : Reader}
  {outcomes : List Outcome}

theorem Agreed.withReader {w : Writer} {frames : List (Option ℕ)} {r' : Reader}
    (h : Agreed r w frames) (hstate : r'.settings.updateState = r.settings.updateState)
    (hsent : r'.settings.sent = r.settings.sent)
    (hbytes : r'.parser.table.maxBytes = r.parser.table.maxBytes) : Agreed r' w frames := by
  cases h with
  | settled hs ha hb hv => exact .settled (hstate ▸ hs) ha (hbytes.trans hb) (hsent ▸ hv)
  | onItsWay frame hs ha hb hv =>
      exact .onItsWay frame (hstate.trans hs) ha (hbytes.trans hb) (hsent ▸ hv)
  | unacknowledged hs ha hv => exact .unacknowledged (hstate.trans hs) ha (hsent ▸ hv)

theorem Agreed.withCompressor {w : Writer} {frames : List (Option ℕ)}
    (h : Agreed r w frames) (compressor : HPackCompressor) :
    Agreed r { w with compressor := compressor } frames := by
  cases h with
  | settled hs ha hb hv => exact .settled hs ha hb hv
  | onItsWay frame hs ha hb hv => exact .onItsWay frame hs ha hb hv
  | unacknowledged hs ha hv => exact .unacknowledged hs ha hv

theorem Live.setLocal (h : Live limit written c r outcomes) {settings : Http2Settings}
    (hsettings : limit < settings.maxHeaderListSize) :
    ∃ c' r' outcomes', c.step (.setLocal settings) = some c' ∧
      Live limit written c' r' outcomes' := by
  refine ⟨_, _, outcomes, rfl, Reader.receiveAll_setLocal settings h.received, h.synced,
    h.allowed, ?_, ⟨h.lets.soft, hsettings, h.lets.sent, h.lets.acked⟩, h.arrived, h.addressed⟩
  exact h.agreed.withReader rfl rfl rfl

theorem maybeSendUpdate_cases (m : Http2SettingsManager) :
    m.maybeSendUpdate = (m, []) ∨
      m.updateState ≠ .sending ∧ m.maybeSendUpdate = m.sendUpdate := by
  unfold Http2SettingsManager.maybeSendUpdate
  split
  case h_1 => exact .inl rfl
  case h_2 hstate =>
      split
      · exact .inl rfl
      · exact .inr ⟨by rw [hstate]; decide, rfl⟩
  case h_3 hstate => exact .inr ⟨by rw [hstate]; decide, rfl⟩

theorem getD_diff (s old : Http2Settings) :
    (s.diff old).getD old.headerTableSize = s.headerTableSize := by
  unfold Http2Settings.diff
  split
  case isTrue => rfl
  case isFalse hsame => exact (not_not.mp hsame).symm

theorem Agreed.of_not_sending {w : Writer} {frames : List (Option ℕ)} (h : Agreed r w frames)
    (hr : r.settings.updateState ≠ .sending) :
    frames = [] ∧ w.queuedAcks = 0 ∧ r.parser.table.maxBytes = w.peerHeaderTableSize ∧
      r.settings.sent.headerTableSize = w.peerHeaderTableSize := by
  cases h with
  | settled _ ha hb hv => exact ⟨rfl, ha, hb, hv⟩
  | onItsWay _ hs => exact absurd hs hr
  | unacknowledged hs => exact absurd hs hr

theorem Live.maybeSendUpdate (h : Live limit written c r outcomes) :
    ∃ c' r' outcomes', c.step .maybeSendUpdate = some c' ∧
      Live limit written c' r' outcomes' := by
  rcases maybeSendUpdate_cases c.reader.settings with hnone | ⟨hstate, hsend⟩
  · refine ⟨{ c with toWriter := c.toWriter ++ [] }, r, outcomes, ?_, h.received, h.synced,
      h.allowed, ?_, h.lets, h.arrived, h.addressed⟩
    · rw [Connection.step, hnone]
    · show Agreed r c.writer (c.toWriter ++ [])
      rw [List.append_nil]
      exact h.agreed
  · obtain ⟨hsame, hany⟩ := Reader.receiveAll_of_not_sending hstate h.received
    have hr : r.settings.updateState ≠ .sending := by
      rw [hsame]
      exact hstate
    obtain ⟨hempty, hacks, hbytes, hsent⟩ := h.agreed.of_not_sending hr
    have hlets := h.lets
    let frame := c.reader.settings.localSettings.diff c.reader.settings.sent
    refine ⟨{ c with
      reader := { c.reader with settings := c.reader.settings.sendUpdate.1 }
      toWriter := c.toWriter ++ [frame] }, _, outcomes, ?_,
      hany c.reader.settings.sendUpdate.1 rfl, h.synced, h.allowed, ?_,
      ⟨hlets.soft, hsame ▸ hlets.meant, hsame ▸ hlets.meant, hsame ▸ hlets.acked⟩,
      h.arrived, h.addressed⟩
    · rw [Connection.step, hsend]
      rfl
    · show Agreed _ c.writer (c.toWriter ++ [frame])
      rw [hempty]
      refine .onItsWay frame rfl hacks hbytes ?_
      rw [← hsent, hsame]
      exact (getD_diff _ _).symm

theorem Live.receiveSettings (h : Live limit written c r outcomes) :
    ∃ c' r' outcomes', c.step .receiveSettings = some c' ∧
      Live limit written c' r' outcomes' := by
  rw [Connection.step]
  cases hframes : c.toWriter with
  | nil => exact ⟨c, r, outcomes, rfl, h⟩
  | cons frame rest =>
      have hagreed := h.agreed
      rw [hframes] at hagreed
      cases hagreed with
      | onItsWay _ hs ha hb hv =>
          refine ⟨_, r, outcomes, rfl, h.received, h.synced, h.allowed, ?_, h.lets, h.arrived,
            h.addressed⟩
          exact .unacknowledged hs (congrArg (· + 1) ha) hv

theorem Live.setMaxUsableSize (h : Live limit written c r outcomes)
    (hgiven : written.flatten.length < 2 ^ 32) {size : ℕ} (hsize : size < 2 ^ 31) :
    ∃ c' r' outcomes', c.step (.setMaxUsableSize size) = some c' ∧
      Live limit written c' r' outcomes' := by
  obtain ⟨history, hsynced⟩ := h.synced
  obtain ⟨compressor, hset, hsynced', hmax⟩ :=
    hsynced.setMaxUsableSize (n := size) (by omega) hgiven
  refine ⟨{ c with writer := { c.writer with compressor := compressor } }, r, outcomes, ?_,
    h.received, ⟨history, hsynced'⟩, hmax.trans h.allowed, h.agreed.withCompressor compressor,
    h.lets, h.arrived, h.addressed⟩
  rw [Connection.step, hset]
  rfl

/-- The settings that a write puts into effect are acknowledged in front of it. -/
theorem Agreed.beginWrite {w : Writer} {frames : List (Option ℕ)} {before : List Header}
    {history : List Memento} (h : Agreed r w frames)
    (hsynced : Synced before history w.compressor r.parser) (hlets : r.Lets limit)
    (hgiven : before.length < 2 ^ 32) :
    ∃ w' n r', w.beginWrite = some (w', List.replicate n .settingsAck) ∧
      r.receiveAll (List.replicate n .settingsAck) = some (r', []) ∧
      Synced before history w'.compressor r'.parser ∧
      w'.compressor.table.maxTableSize ≤ r'.parser.table.maxBytes ∧ Agreed r' w' frames ∧
      r'.Lets limit := by
  obtain ⟨compressor, hset, hsynced', hmax⟩ :=
    hsynced.setMaxTableSize w.peerHeaderTableSize hgiven
  have hwrite : w.beginWrite = some ({ w with queuedAcks := 0, compressor := compressor },
      List.replicate w.queuedAcks .settingsAck) := by
    rw [Writer.beginWrite, hset]
    rfl
  refine ⟨{ w with queuedAcks := 0, compressor := compressor }, w.queuedAcks, ?_⟩
  cases h with
  | settled hs ha hb hv =>
      rw [hwrite, ha]
      exact ⟨r, rfl, rfl, hsynced', hmax.trans_eq hb.symm, .settled hs rfl hb hv, hlets⟩
  | onItsWay frame hs ha hb hv =>
      rw [hwrite, ha]
      exact ⟨r, rfl, rfl, hsynced', hmax.trans_eq hb.symm, .onItsWay frame hs rfl hb hv, hlets⟩
  | unacknowledged hs ha hv =>
      obtain ⟨table, htable, hbytes, hsynced''⟩ := hsynced'.setMaxBytes hmax hgiven
      rw [hwrite, ha]
      have hreceive : r.receive .settingsAck = some ({ r with
          settings := { r.settings with updateState := .idle, acked := r.settings.sent }
          parser := { r.parser with table := table } }, []) := by
        simp [Reader.receive, Http2SettingsManager.ackLastSend, hs, hv, htable]
      refine ⟨_, rfl, Reader.receiveAll_singleton hreceive, hsynced'',
        hmax.trans_eq hbytes.symm, ?_, ⟨hlets.soft, hlets.meant, hlets.sent, hlets.sent⟩⟩
      exact .settled (by intro hidle; cases hidle) rfl hbytes hv

theorem Live.beginWrite (h : Live limit written c r outcomes)
    (hgiven : written.flatten.length < 2 ^ 32) :
    ∃ c' r' outcomes', c.step .beginWrite = some c' ∧ Live limit written c' r' outcomes' := by
  obtain ⟨history, hsynced⟩ := h.synced
  obtain ⟨w, n, r', hwrite, hreceived, hsynced', hallowed, hagreed, hlets⟩ :=
    h.agreed.beginWrite hsynced h.lets hgiven
  have hacks : ∀ m ∈ List.replicate n Message.settingsAck, m.Addressed written := by
    intro m hm
    obtain ⟨-, rfl⟩ := List.mem_replicate.mp hm
    trivial
  refine ⟨{ c with
    writer := w
    toReader := c.toReader ++ List.replicate n .settingsAck }, r', outcomes ++ [], ?_,
    Reader.receiveAll_append h.received hreceived, ⟨history, hsynced'⟩, hallowed, hagreed, hlets,
    ?_, List.forall_mem_append.mpr ⟨h.addressed, hacks⟩⟩
  · rw [Connection.step, hwrite]
    rfl
  · rw [List.append_nil]
    exact h.arrived

theorem Live.writeHeaders (h : Live limit written c r outcomes) (headers : List Header)
    (trueBinary : Bool) (hgiven : written.flatten.length + headers.length + 62 < 2 ^ 32)
    (hfits : ∀ header ∈ headers, header.size ≤ limit) :
    ∃ c' r' outcomes', c.step (.writeHeaders headers trueBinary) = some c' ∧
      Live limit (written ++ [headers]) c' r' outcomes' := by
  obtain ⟨history, hsynced⟩ := h.synced
  have hlets := h.lets
  obtain ⟨compressor, block, ok, p, history', pieces, hencode, hparse, hpieces, hcollects,
    hlimits, hsynced', hallowed, hbytes, hblock⟩ :=
    hsynced.encodeRawHeaders h.allowed r.limits headers trueBinary hgiven
      fun header hmem => (hfits header hmem).trans_lt hlets.acked
  have hreceive : r.receive (.headers block) = some (r.endOfHeaders p) := by
    rw [Reader.receive, Reader.beginFrame, hparse]
    rfl
  let outcome := (p.endOfHeaders (r.bitsrc 0)).2
  have harrives : Arrives limit written.flatten headers outcome := by
    refine ⟨pieces, hpieces, fun block hok => hcollects.eq_of_ok _ hok, fun hacceptable => ?_⟩
    have hsize := hpieces.blockSize_le.trans hacceptable.size
    apply hcollects.endOfHeaders _ (hpieces.legal hacceptable.legal)
    · rw [HPackParser.hardLimit, hlimits]
      exact hsize.trans_lt hlets.acked
    · rw [hlimits]
      exact hsize.trans hlets.soft
  refine ⟨{ c with
    writer := { c.writer with compressor := compressor }
    toReader := c.toReader ++ [.headers block] }, (r.endOfHeaders p).1,
    outcomes ++ [outcome], ?_, ?_, ⟨history', ?_⟩, ?_, ?_, ?_, ?_, ?_⟩
  · rw [Connection.step, hencode]
    rfl
  · exact Reader.receiveAll_append h.received (Reader.receiveAll_singleton hreceive)
  · rw [List.flatten_append, List.flatten_singleton]
    exact hsynced' (r.bitsrc 0)
  · show _ ≤ (p.endOfHeaders (r.bitsrc 0)).1.table.maxBytes
    rw [HPackParser.endOfHeaders_table]
    exact hallowed
  · have hmax : (r.endOfHeaders p).1.parser.table.maxBytes = r.parser.table.maxBytes := by
      show (p.endOfHeaders (r.bitsrc 0)).1.table.maxBytes = _
      rw [HPackParser.endOfHeaders_table]
      exact hbytes
    exact (h.agreed.withCompressor compressor).withReader rfl rfl hmax
  · exact ⟨hlets.soft, hlets.meant, hlets.sent, hlets.acked⟩
  · rw [← List.append_assoc]
    exact h.arrived.concat harrives
  · exact forall_mem_concat (fun m hm => (h.addressed m hm).mono _)
      ⟨headers, List.mem_append_right _ (List.mem_singleton_self _), _, pieces, hpieces, hblock⟩

theorem Live.receive (h : Live limit written c r outcomes) :
    ∃ c' r' outcomes', c.step .receive = some c' ∧ Live limit written c' r' outcomes' := by
  have hreceived := h.received
  rw [Connection.step]
  cases hmessages : c.toReader with
  | nil => exact ⟨c, r, outcomes, rfl, h⟩
  | cons m rest =>
      rw [hmessages] at hreceived
      obtain ⟨reader, first, others, hm, hothers, rfl⟩ := Reader.receiveAll_cons hreceived
      refine ⟨{ c with reader := reader, toReader := rest, received := c.received ++ first }, r,
        others, ?_, hothers, h.synced, h.allowed, h.agreed, h.lets, ?_,
        fun m hm => h.addressed m (hmessages ▸ List.mem_cons_of_mem _ hm)⟩
      · show (c.reader.receive m).bind _ = _
        rw [hm]
        rfl
      · rw [List.append_assoc]
        exact h.arrived

theorem Live.step (h : Live limit written c r outcomes) {a : Action}
    (ha : a.Admissible limit) (hgiven : (written ++ a.written).flatten.length + 62 < 2 ^ 32) :
    ∃ c' r' outcomes', c.step a = some c' ∧
      Live limit (written ++ a.written) c' r' outcomes' := by
  rw [List.flatten_append, List.length_append] at hgiven
  cases a with
  | writeHeaders headers trueBinary =>
      refine h.writeHeaders headers trueBinary ?_ ha
      simpa [Action.written] using hgiven
  | setLocal settings => simpa [Action.written] using h.setLocal ha
  | maybeSendUpdate => simpa [Action.written] using h.maybeSendUpdate
  | receiveSettings => simpa [Action.written] using h.receiveSettings
  | setMaxUsableSize size =>
      simpa [Action.written] using h.setMaxUsableSize (by omega) ha
  | beginWrite => simpa [Action.written] using h.beginWrite (by omega)
  | receive => simpa [Action.written] using h.receive

/-- A run by any steps that are those of the connection as long as `P` holds of what was
written. -/
theorem Live.run (next : Connection → Action → Option Connection) (P : List Header → Prop)
    (hnext : ∀ {written c r outcomes}, Live limit written c r outcomes →
      (∀ headers ∈ written, P headers) → ∀ a, next c a = c.step a)
    (actions : List Action) (h : Live limit written c r outcomes)
    (hactions : ∀ a ∈ actions, a.Admissible limit)
    (hgiven : (written ++ actions.flatMap Action.written).flatten.length + 62 < 2 ^ 32)
    (hwritten : ∀ headers ∈ written ++ actions.flatMap Action.written, P headers) :
    ∃ c' r' outcomes', actions.foldlM next c = some c' ∧
      Live limit (written ++ actions.flatMap Action.written) c' r' outcomes' := by
  induction actions generalizing written c r outcomes with
  | nil =>
      rw [List.flatMap_nil, List.append_nil]
      exact ⟨c, r, outcomes, rfl, h⟩
  | cons a actions ih =>
      rw [List.flatMap_cons, ← List.append_assoc] at hgiven hwritten ⊢
      obtain ⟨ha, hactions⟩ := List.forall_mem_cons.mp hactions
      have hfirst : (written ++ a.written).flatten.length + 62 < 2 ^ 32 := by
        rw [List.flatten_append, List.length_append] at hgiven
        omega
      obtain ⟨c₁, r₁, outcomes₁, hstep, h₁⟩ := h.step ha hfirst
      have hbefore : ∀ headers ∈ written, P headers := fun headers hmem =>
        hwritten headers (List.mem_append_left _ (List.mem_append_left _ hmem))
      obtain ⟨c₂, r₂, outcomes₂, hrun, h₂⟩ := ih h₁ hactions hgiven hwritten
      refine ⟨c₂, r₂, outcomes₂, ?_, h₂⟩
      rw [List.foldlM_cons, hnext h hbefore, hstep]
      exact hrun

end Live

end GrpcM.Hpack
