import GrpcM.Hpack.Parser

/-!
The table of the parser under a peer that need not follow the protocol. Whatever the peer has
it do, no check fails, and it holds what a queue would hold that is cut to the size in use and
to what was granted last.
-/

namespace GrpcM.Hpack

open GrpcM.Eviction

/-- What can be done to a table: the first is up to the owner, the others to the peer. -/
inductive TableAction where
  | setMaxBytes (bytes : ℕ)
  | setCurrentTableSize (bytes : ℕ)
  | add (md : Memento)
  | addLargerThanCurrentTableSize
  deriving DecidableEq, Repr

namespace ParserTable

/-- What is rejected leaves the table as it is. -/
def apply (t : ParserTable Memento) : TableAction → Option (ParserTable Memento)
  | .setMaxBytes bytes => t.setMaxBytes Memento.transportSize bytes
  | .setCurrentTableSize bytes =>
      (t.setCurrentTableSize Memento.transportSize bytes).map Prod.fst
  | .add md => (t.add Memento.transportSize md).map Prod.fst
  | .addLargerThanCurrentTableSize => t.addLargerThanCurrentTableSize Memento.transportSize

def applyAll (t : ParserTable Memento) (actions : List TableAction) :
    Option (ParserTable Memento) :=
  actions.foldlM apply t

end ParserTable

/-! ### The queue -/

/-- What the owner granted, what the peer put in use of it, and the entries, oldest first. -/
structure Ledger where
  granted : ℕ := initialTableSize
  inUse : ℕ := initialTableSize
  stored : List Memento := []
  deriving DecidableEq, Repr

namespace Ledger

def after (l : Ledger) : TableAction → Ledger
  | .setMaxBytes bytes => { l with
      granted := bytes
      stored := Eviction.evict Memento.transportSize bytes l.stored }
  | .setCurrentTableSize bytes =>
      if bytes ≤ l.granted then { l with
        inUse := bytes
        stored := Eviction.evict Memento.transportSize bytes l.stored }
      else l
  | .add md =>
      if l.inUse ≤ l.granted then { l with
        stored := Eviction.insert Memento.transportSize l.inUse l.stored md }
      else l
  | .addLargerThanCurrentTableSize => { l with stored := [] }

def afterAll (l : Ledger) (actions : List TableAction) : Ledger := actions.foldl after l

def size (l : Ledger) : ℕ := total Memento.transportSize l.stored

end Ledger

/-! ### The table keeps the queue -/

/-- The table is that of the ledger, after `added` were added to it. -/
structure Keeps (t : ParserTable Memento) (added : ℕ) (l : Ledger) : Prop where
  represents : t.Represents Memento.transportSize added l.stored
  granted : t.maxBytes = l.granted
  inUse : t.currentTableBytes = l.inUse
  within : l.size ≤ l.granted
  bounded : l.granted + 31 < 2 ^ 32

theorem keeps_initial : Keeps {} 0 {} where
  represents := ParserTable.represents_initial _
  granted := rfl
  inUse := rfl
  within := Nat.zero_le _
  bounded := by
    show initialTableSize + 31 < 2 ^ 32
    decide

section Keeps

variable {t : ParserTable Memento} {added : ℕ} {l : Ledger}

theorem Keeps.later {later : ℕ} (h : Keeps t added l) (hlater : added ≤ later) :
    Keeps t later l :=
  { h with represents := h.represents.later hlater }

theorem Keeps.fits (h : Keeps t added l) : l.size ≤ l.inUse :=
  h.inUse ▸ h.represents.fits

theorem Keeps.setMaxBytes {n : ℕ} (h : Keeps t added l) (hadded : added < 2 ^ 32)
    (hn : n + 31 < 2 ^ 32) :
    ∃ t', t.apply (.setMaxBytes n) = some t' ∧ Keeps t' added (l.after (.setMaxBytes n)) := by
  obtain ⟨t', hset, hbytes, hcurrent, ht'⟩ := h.represents.setMaxBytes (n := n) hadded
  have hstored : (if t.maxBytes = n then l.stored
      else Eviction.evict Memento.transportSize n l.stored) =
      Eviction.evict Memento.transportSize n l.stored := by
    split
    case isTrue hsame =>
        -- what is within the grant stays
        exact (evict_of_le (h.within.trans_eq (h.granted.symm.trans hsame))).symm
    case isFalse => rfl
  rw [hstored] at ht'
  refine ⟨t', hset, ?_⟩
  constructor
  case represents => exact ht'
  case granted => exact hbytes
  case inUse => exact hcurrent.trans h.inUse
  case within => exact total_evict_le Memento.transportSize n l.stored
  case bounded => exact hn

/-- The peer asks for a size, of which it gets no more than was granted. -/
theorem Keeps.setCurrentTableSize (h : Keeps t added l) (hadded : added < 2 ^ 32) (n : ℕ) :
    ∃ t', t.apply (.setCurrentTableSize n) = some t' ∧
      Keeps t' added (l.after (.setCurrentTableSize n)) := by
  have hgranted := h.granted
  have hbounded := h.bounded
  rw [ParserTable.apply, Ledger.after]
  by_cases hn : n ≤ l.granted
  · obtain ⟨t', hset, hbytes, hcurrent, ht'⟩ :=
      h.represents.setCurrentTableSize (n := n) hadded (by omega) (by omega)
    rw [if_pos hn, hset]
    refine ⟨t', rfl, ?_⟩
    constructor
    case represents => exact ht'
    case granted => exact hbytes.trans hgranted
    case inUse => exact hcurrent
    case within =>
        have hless : total Memento.transportSize
            (Eviction.evict Memento.transportSize n l.stored) ≤ l.size :=
          total_le_of_suffix (evict_suffix _ n l.stored)
        exact hless.trans h.within
    case bounded => exact hbounded
  · rw [if_neg hn, ParserTable.setCurrentTableSize]
    split
    · exact ⟨t, rfl, h⟩
    · rw [if_pos (by omega)]
      exact ⟨t, rfl, h⟩

/-- Nothing is added to a table that should have been made smaller. -/
theorem Keeps.add (h : Keeps t added l) (hadded : added < 2 ^ 32) (md : Memento) :
    ∃ t', t.apply (.add md) = some t' ∧ Keeps t' (added + 1) (l.after (.add md)) := by
  have hgranted := h.granted
  have hinUse := h.inUse
  rw [ParserTable.apply, Ledger.after]
  by_cases hcurrent : l.inUse ≤ l.granted
  · obtain ⟨t', hadd, hbytes, hcurrent', ht'⟩ :=
      h.represents.add hadded (Nat.le_add_left _ _ : entryOverhead ≤ md.transportSize) (by omega)
    rw [if_pos hcurrent, hadd]
    refine ⟨t', rfl, ?_⟩
    constructor
    case represents => exact hinUse ▸ ht'
    case granted => exact hbytes.trans hgranted
    case inUse => exact hcurrent'.trans hinUse
    case within =>
        have hfits := ht'.fits
        rw [hcurrent', hinUse] at hfits
        exact hfits.trans hcurrent
    case bounded => exact h.bounded
  · rw [if_neg hcurrent, ParserTable.add, if_pos (by omega)]
    exact ⟨t, rfl, h.later (Nat.le_succ _)⟩

theorem Keeps.addLarger (h : Keeps t added l) (hadded : added < 2 ^ 32) :
    ∃ t', t.apply .addLargerThanCurrentTableSize = some t' ∧
      Keeps t' added (l.after .addLargerThanCurrentTableSize) := by
  obtain ⟨t', hclear, ht', hbytes, hcurrent⟩ := h.represents.addLarger hadded
  exact ⟨t', hclear, ht', hbytes.trans h.granted, hcurrent.trans h.inUse, Nat.zero_le _,
    h.bounded⟩

theorem Keeps.apply (h : Keeps t added l) (hadded : added < 2 ^ 32) (a : TableAction)
    (hbytes : ∀ n, a = .setMaxBytes n → n < 2 ^ 31) :
    ∃ t', t.apply a = some t' ∧ Keeps t' (added + 1) (l.after a) := by
  cases a with
  | setMaxBytes n =>
      have hn := hbytes n rfl
      obtain ⟨t', hset, ht'⟩ := h.setMaxBytes (n := n) hadded (by omega)
      exact ⟨t', hset, ht'.later (Nat.le_succ _)⟩
  | setCurrentTableSize n =>
      obtain ⟨t', hset, ht'⟩ := h.setCurrentTableSize hadded n
      exact ⟨t', hset, ht'.later (Nat.le_succ _)⟩
  | add md => exact h.add hadded md
  | addLargerThanCurrentTableSize =>
      obtain ⟨t', hclear, ht'⟩ := h.addLarger hadded
      exact ⟨t', hclear, ht'.later (Nat.le_succ _)⟩

theorem Keeps.applyAll (actions : List TableAction) (h : Keeps t added l)
    (hadded : added + actions.length ≤ 2 ^ 32)
    (hbytes : ∀ n, .setMaxBytes n ∈ actions → n < 2 ^ 31) :
    ∃ t', t.applyAll actions = some t' ∧
      Keeps t' (added + actions.length) (l.afterAll actions) := by
  induction actions generalizing t added l with
  | nil => exact ⟨t, rfl, h⟩
  | cons a actions ih =>
      rw [List.length_cons] at hadded ⊢
      obtain ⟨t₁, hone, h₁⟩ := h.apply (by omega) a
        (fun n ha => hbytes n (ha ▸ List.mem_cons_self))
      obtain ⟨t₂, hall, h₂⟩ := ih h₁ (by omega)
        (fun n hmem => hbytes n (List.mem_cons_of_mem _ hmem))
      refine ⟨t₂, ?_, ?_⟩
      · rw [ParserTable.applyAll, List.foldlM_cons, hone]
        exact hall
      · rw [show added + (actions.length + 1) = added + 1 + actions.length by omega]
        exact h₂

end Keeps

/-! ### What the peer can see and what it costs -/

namespace ParserTable

/-- The table has the entries of the ledger, newest first, and counts what they take. -/
structure Shows (t : ParserTable Memento) (l : Ledger) : Prop where
  maxBytes : t.maxBytes = l.granted
  currentTableBytes : t.currentTableBytes = l.inUse
  lookup : ∀ index, t.lookupDynamic (lastStaticEntry + 1 + index) = l.stored.reverse[index]?
  memUsed : t.memUsed = l.size

/-- No more is kept than was granted and than is in use, in entries and in slots. -/
structure Within (t : ParserTable Memento) : Prop where
  granted : t.memUsed ≤ t.maxBytes
  inUse : t.memUsed ≤ t.currentTableBytes
  entries : t.entries.numEntries * entryOverhead ≤ t.memUsed
  slots : t.entries.entries.length ≤
    max (entriesForBytes t.currentTableBytes) initialTableEntries

/-- Whatever a peer sends, no check of the table fails, it holds what the ledger says, and it
stays within what was granted last. -/
theorem table_within_grant (actions : List TableAction)
    (hbytes : ∀ n, .setMaxBytes n ∈ actions → n < 2 ^ 31) (hcount : actions.length < 2 ^ 32) :
    ∃ t, applyAll {} actions = some t ∧ t.Shows (Ledger.afterAll {} actions) ∧ t.Within := by
  obtain ⟨t, hall, ht⟩ := keeps_initial.applyAll actions (by omega) hbytes
  have hused := ht.represents.used
  have hgranted := ht.granted
  have hwithin := ht.within
  refine ⟨t, hall, ?_, ?_⟩
  · constructor
    case maxBytes => exact hgranted
    case currentTableBytes => exact ht.inUse
    case lookup => exact ht.represents.lookupDynamic (by omega)
    case memUsed => exact hused
  · constructor
    case granted => exact hused.trans_le (hwithin.trans_eq hgranted.symm)
    case inUse => exact hused.trans_le ht.represents.fits
    case entries =>
        rw [ht.represents.entries.count, hused]
        exact length_mul_le_total ht.represents.sizes
    case slots => exact ht.represents.entries.grown.trans_eq ht.represents.capacity

/-- A peer that goes on as if the table had not been made smaller. -/
def overdrawn : List TableAction :=
  let cookie : Memento :=
    { key := ascii "cookie", value := ascii "a=1", wireSize := 3, parseStatus := none }
  let trace : Memento :=
    { key := ascii "trace-bin", value := [0, 1, 2], wireSize := 4, parseStatus := none }
  [.add cookie, .add trace, .setMaxBytes 64, .add cookie, .setCurrentTableSize 4096,
    .setCurrentTableSize 64, .add cookie, .add trace, .setMaxBytes 1024, .add cookie]

theorem table_within_grant_overdrawn :
    ∃ t, applyAll {} overdrawn = some t ∧ t.Shows (Ledger.afterAll {} overdrawn) ∧
      t.Within := by
  apply table_within_grant
  case hbytes =>
      have hgrants : ∀ a ∈ overdrawn, a ∈ [.setMaxBytes 64, .setMaxBytes 1024] ∨
          ∀ n, a ≠ .setMaxBytes n := by
        simp [overdrawn]
      intro n hmem
      rcases hgrants _ hmem with hn | hother
      · simp only [List.mem_cons, List.not_mem_nil, or_false, TableAction.setMaxBytes.injEq] at hn
        omega
      · exact absurd rfl (hother n)
  case hcount => decide

end ParserTable

end GrpcM.Hpack
