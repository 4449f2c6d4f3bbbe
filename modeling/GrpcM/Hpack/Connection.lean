import GrpcM.Hpack.CompressorSpec

/-!
Headers over a connection whose two sides agree on the size of the table while headers are on
their way. The side that reads sends its settings, and has one change of them in flight at a
time; the side that writes acknowledges them, in front of the first headers to which they apply.
-/

namespace GrpcM.Hpack

/-! ### The two sides -/

def defaultMaxHeaderListSize : ℕ := 16777216

/-- The size of the table of headers, the size at which headers are rejected, and all other
settings as one. -/
structure Http2Settings where
  headerTableSize : ℕ := initialTableSize
  maxHeaderListSize : ℕ := defaultMaxHeaderListSize
  others : ℕ := 0
  deriving DecidableEq, Repr

def Http2Settings.diff (s old : Http2Settings) : Option ℕ :=
  if s.headerTableSize ≠ old.headerTableSize then some s.headerTableSize else none

inductive UpdateState where
  | first
  | sending
  | idle
  deriving DecidableEq, Repr

structure Http2SettingsManager where
  updateState : UpdateState := .first
  localSettings : Http2Settings := {}
  sent : Http2Settings := {}
  acked : Http2Settings := {}
  deriving Repr

namespace Http2SettingsManager

def sendUpdate (m : Http2SettingsManager) : Http2SettingsManager × List (Option ℕ) :=
  ({ m with sent := m.localSettings, updateState := .sending }, [m.localSettings.diff m.sent])

def maybeSendUpdate (m : Http2SettingsManager) : Http2SettingsManager × List (Option ℕ) :=
  match m.updateState with
  | .sending => (m, [])
  | .idle => if m.localSettings = m.sent then (m, []) else m.sendUpdate
  | .first => m.sendUpdate

def ackLastSend (m : Http2SettingsManager) : Option Http2SettingsManager :=
  if m.updateState ≠ .sending then none
  else some { m with updateState := .idle, acked := m.sent }

end Http2SettingsManager

inductive Message where
  | settingsAck
  | headers (block : List Instruction)
  deriving DecidableEq, Repr

/-- The bits are those that will be drawn for blocks that are rejected by chance. -/
structure Reader where
  settings : Http2SettingsManager := {}
  parser : HPackParser := {}
  maxHeaderListSizeSoftLimit : ℕ := 8192
  bitsrc : ℕ → Bool := fun _ => false

structure Writer where
  peerHeaderTableSize : ℕ := initialTableSize
  queuedAcks : ℕ := 0
  compressor : HPackCompressor := {}

/-- What a reader makes of a block that does not end the connection. -/
abbrev Outcome := Except StreamError Block

namespace Reader

def limits (r : Reader) : RandomEarlyDetection where
  softLimit := r.maxHeaderListSizeSoftLimit
  hardLimit := r.settings.acked.maxHeaderListSize

def beginFrame (r : Reader) : HPackParser := r.parser.beginFrame r.limits

def endOfHeaders (r : Reader) (parser : HPackParser) : Reader × List Outcome :=
  let (parser, outcome) := parser.endOfHeaders (r.bitsrc 0)
  ({ r with parser := parser, bitsrc := fun n => r.bitsrc (n + 1) }, [outcome])

/-- An acknowledgement is where the table may grow or has to shrink. -/
def receive (r : Reader) : Message → Option (Reader × List Outcome)
  | .settingsAck => do
      let settings ← r.settings.ackLastSend
      let table ← r.parser.table.setMaxBytes Memento.transportSize settings.acked.headerTableSize
      return ({ r with settings := settings, parser := { r.parser with table := table } }, [])
  | .headers block => (r.beginFrame.parseAll block).map r.endOfHeaders

def receiveAll : Reader → List Message → Option (Reader × List Outcome)
  | r, [] => some (r, [])
  | r, m :: rest => do
      let (r, first) ← r.receive m
      let (r, others) ← r.receiveAll rest
      return (r, first ++ others)

end Reader

namespace Writer

def receiveSettings (w : Writer) (frame : Option ℕ) : Writer :=
  { w with
    peerHeaderTableSize := frame.getD w.peerHeaderTableSize
    queuedAcks := w.queuedAcks + 1 }

/-- What was queued is flushed, and the settings of the peer are put into effect. -/
def beginWrite (w : Writer) : Option (Writer × List Message) := do
  let compressor ← w.compressor.setMaxTableSize w.peerHeaderTableSize
  return ({ w with queuedAcks := 0, compressor := compressor },
    List.replicate w.queuedAcks .settingsAck)

end Writer

/-! ### Runs -/

/-- The two sides, what is on its way in either direction, and what became of the blocks that
were read. -/
structure Connection where
  reader : Reader := {}
  writer : Writer := {}
  toWriter : List (Option ℕ) := []
  toReader : List Message := []
  received : List Outcome := []

inductive Action where
  | setLocal (settings : Http2Settings)
  | maybeSendUpdate
  | receiveSettings
  | setMaxUsableSize (size : ℕ)
  | beginWrite
  | writeHeaders (headers : List Header) (allowTrueBinaryMetadata : Bool)
  | receive
  deriving DecidableEq, Repr

def Action.written : Action → List (List Header)
  | writeHeaders headers _ => [headers]
  | _ => []

namespace Connection

/-- One action of either side. A failed check or an error of the connection gives `none`. -/
def step (c : Connection) : Action → Option Connection
  | .setLocal settings =>
      some { c with reader := { c.reader with
        settings := { c.reader.settings with localSettings := settings } } }
  | .maybeSendUpdate =>
      let (settings, frames) := c.reader.settings.maybeSendUpdate
      some { c with
        reader := { c.reader with settings := settings }
        toWriter := c.toWriter ++ frames }
  | .receiveSettings =>
      match c.toWriter with
      | [] => some c
      | frame :: rest => some { c with
          writer := c.writer.receiveSettings frame
          toWriter := rest }
  | .setMaxUsableSize size => do
      let compressor ← c.writer.compressor.setMaxUsableSize size
      return { c with writer := { c.writer with compressor := compressor } }
  | .beginWrite => do
      let (writer, messages) ← c.writer.beginWrite
      return { c with writer := writer, toReader := c.toReader ++ messages }
  | .writeHeaders headers allowTrueBinaryMetadata => do
      let (compressor, block, _) ← c.writer.compressor.encodeRawHeaders headers
        allowTrueBinaryMetadata
      return { c with
        writer := { c.writer with compressor := compressor }
        toReader := c.toReader ++ [.headers block] }
  | .receive =>
      match c.toReader with
      | [] => some c
      | m :: rest => do
          let (reader, outcomes) ← c.reader.receive m
          return { c with
            reader := reader
            toReader := rest
            received := c.received ++ outcomes }

def run (c : Connection) (actions : List Action) : Option Connection := actions.foldlM step c

end Connection

end GrpcM.Hpack
