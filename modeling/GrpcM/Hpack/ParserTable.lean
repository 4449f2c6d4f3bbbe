import GrpcM.Hpack.EncoderTable

/-!
The dynamic table of HPACK as the parser has it: the entries themselves, in a circular buffer
that grows with them. An entry is looked up by its distance from the newest one.
-/

namespace GrpcM.Hpack

open GrpcM.Eviction GrpcM.Window

/-! ### The ring buffer -/

structure MementoRingBuffer (μ : Type) where
  firstEntry : ℕ := 0
  numEntries : ℕ := 0
  maxEntries : ℕ := initialTableEntries
  entries : List μ := []
  deriving Repr

namespace MementoRingBuffer

variable {μ : Type}

def put (r : MementoRingBuffer μ) (m : μ) : Option (MementoRingBuffer μ) := do
  guard (r.numEntries < r.maxEntries)
  if r.entries.length < r.maxEntries then
    return { r with numEntries := r.numEntries + 1, entries := r.entries ++ [m] }
  let index := uint32 (r.firstEntry + r.numEntries) % r.maxEntries
  return { r with numEntries := r.numEntries + 1, entries := r.entries.set index m }

def popOne (r : MementoRingBuffer μ) : Option (μ × MementoRingBuffer μ) := do
  guard (0 < r.numEntries)
  let entry ← r.entries[r.firstEntry % r.maxEntries]?
  return (entry, { r with
    firstEntry := uint32 (r.firstEntry + 1)
    numEntries := r.numEntries - 1 })

/-- There may be no entry, which is no error yet. -/
def lookup (r : MementoRingBuffer μ) (index : ℕ) : Option μ :=
  if r.numEntries ≤ index then none
  else r.entries[uint32 (r.numEntries - 1 - index + r.firstEntry) % r.maxEntries]?

def rebuild (r : MementoRingBuffer μ) (maxEntries : ℕ) : Option (MementoRingBuffer μ) := do
  if maxEntries = r.maxEntries then return r
  let entries ← (List.range r.numEntries).mapM fun i =>
    r.entries[(r.firstEntry + i) % r.entries.length]?
  return { r with firstEntry := 0, maxEntries := maxEntries, entries := entries }

/-- The buffer holds the queue `xs`, after `used` positions were used. -/
structure Represents (r : MementoRingBuffer μ) (used : ℕ) (xs : List μ) : Prop where
  count : r.numEntries = xs.length
  used : r.firstEntry + xs.length ≤ used
  holds : Holds r.entries r.maxEntries r.firstEntry xs
  grown : r.entries.length ≤ r.maxEntries
  growing : r.entries.length < r.maxEntries → r.entries.length = r.firstEntry + xs.length

theorem represents_initial : Represents ({} : MementoRingBuffer μ) 0 [] where
  count := rfl
  used := le_rfl
  holds := holds_nil _ _ _
  grown := Nat.zero_le _
  growing := fun _ => rfl

variable {r : MementoRingBuffer μ} {used : ℕ} {x : μ} {xs : List μ}

theorem Represents.later {later : ℕ} (h : Represents r used xs) (hlater : used ≤ later) :
    Represents r later xs :=
  { h with used := h.used.trans hlater }

theorem Represents.put (h : Represents r used xs) (hroom : xs.length < r.maxEntries)
    (hused : used < 2 ^ 32) (x : μ) :
    ∃ r', put r x = some r' ∧ Represents r' (used + 1) (xs ++ [x]) ∧
      r'.maxEntries = r.maxEntries := by
  have hbound := h.used
  rw [MementoRingBuffer.put, guard, if_pos (by rw [h.count]; exact hroom)]
  show ∃ r', ite _ _ _ = _ ∧ _
  by_cases hgrows : r.entries.length < r.maxEntries
  · rw [if_pos hgrows]
    have hlength := h.growing hgrows
    have hslot : (r.firstEntry + xs.length) % r.maxEntries = r.entries.length := by
      rw [← hlength]
      exact Nat.mod_eq_of_lt hgrows
    refine ⟨_, rfl, ?_, rfl⟩
    constructor
    case count => rw [List.length_append, List.length_singleton, h.count]
    case used =>
        show r.firstEntry + _ ≤ _
        rw [List.length_append, List.length_singleton]
        omega
    case holds => exact h.holds.push hslot x
    case grown =>
        show (r.entries ++ [x]).length ≤ r.maxEntries
        rw [List.length_append, List.length_singleton]
        exact hgrows
    case growing =>
        intro _
        show (r.entries ++ [x]).length = r.firstEntry + _
        rw [List.length_append, List.length_append, List.length_singleton]
        omega
  · have hfull : r.entries.length = r.maxEntries := le_antisymm h.grown (by omega)
    have hindex : uint32 (r.firstEntry + r.numEntries) = r.firstEntry + xs.length := by
      rw [h.count]
      exact uint32_of_lt (by omega)
    rw [if_neg hgrows, hindex]
    refine ⟨_, rfl, ?_, rfl⟩
    constructor
    case count => rw [List.length_append, List.length_singleton, h.count]
    case used =>
        show r.firstEntry + _ ≤ _
        rw [List.length_append, List.length_singleton]
        omega
    case holds =>
        apply h.holds.set hroom
        rw [hfull]
        apply Nat.mod_lt
        omega
    case grown => exact (List.length_set ..).trans_le h.grown
    case growing =>
        intro hlt
        have hlt : (r.entries.set _ x).length < r.maxEntries := hlt
        rw [List.length_set] at hlt
        exact absurd hlt hgrows

theorem Represents.popOne (h : Represents r used (x :: xs)) (hused : used < 2 ^ 32) :
    ∃ r', popOne r = some (x, r') ∧ Represents r' used xs ∧ r'.maxEntries = r.maxEntries := by
  have hbound := h.used
  have hcount := h.count
  rw [List.length_cons] at hbound hcount
  have hfirst : uint32 (r.firstEntry + 1) = r.firstEntry + 1 := uint32_of_lt (by omega)
  refine ⟨{ r with firstEntry := r.firstEntry + 1, numEntries := r.numEntries - 1 }, ?_, ?_, rfl⟩
  · rw [MementoRingBuffer.popOne, guard, if_pos (by omega), h.holds.head, hfirst]
    rfl
  · constructor
    case count => show r.numEntries - 1 = xs.length; omega
    case used => show r.firstEntry + 1 + xs.length ≤ used; omega
    case holds => exact h.holds.tail
    case grown => exact h.grown
    case growing =>
        intro hlt
        have hlength := h.growing hlt
        rw [List.length_cons] at hlength
        show r.entries.length = r.firstEntry + 1 + xs.length
        omega

theorem Represents.lookup (h : Represents r used xs) (hused : used < 2 ^ 32) (index : ℕ) :
    lookup r index = xs.reverse[index]? := by
  have hbound := h.used
  rw [MementoRingBuffer.lookup, h.count]
  by_cases hindex : xs.length ≤ index
  · rw [if_pos hindex, List.getElem?_eq_none (by rw [List.length_reverse]; exact hindex)]
  · have hposition : uint32 (xs.length - 1 - index + r.firstEntry) =
        r.firstEntry + (xs.length - 1 - index) := by
      rw [uint32_of_lt (by omega)]
      omega
    obtain ⟨y, hy⟩ : ∃ y, xs[xs.length - 1 - index]? = some y :=
      ⟨_, List.getElem?_eq_getElem (by omega)⟩
    rw [if_neg hindex, hposition, h.holds _ y hy, List.getElem?_reverse (by omega), hy]

theorem Represents.rebuild {maxEntries : ℕ} (h : Represents r used xs)
    (hcount : xs.length ≤ maxEntries) :
    ∃ r', rebuild r maxEntries = some r' ∧ Represents r' used xs ∧ r'.maxEntries = maxEntries := by
  have hbound := h.used
  rw [MementoRingBuffer.rebuild]
  by_cases hsame : maxEntries = r.maxEntries
  · rw [if_pos hsame]
    exact ⟨r, rfl, h, hsame.symm⟩
  · have hread : (List.range r.numEntries).mapM
        (fun i => r.entries[(r.firstEntry + i) % r.entries.length]?) = some xs := by
      rw [h.count]
      apply mapM_range_eq
      intro i y hy
      obtain ⟨hlt, -⟩ := List.getElem?_eq_some_iff.mp hy
      rw [← h.holds i y hy]
      by_cases hgrows : r.entries.length < r.maxEntries
      · -- nothing was written over yet
        have hlength := h.growing hgrows
        rw [Nat.mod_eq_of_lt (by omega), Nat.mod_eq_of_lt (by omega)]
      · rw [le_antisymm h.grown (by omega)]
    rw [if_neg hsame, hread]
    refine ⟨_, rfl, ?_, rfl⟩
    constructor
    case count => exact h.count
    case used => show 0 + xs.length ≤ used; omega
    case holds =>
        intro i y hy
        obtain ⟨hlt, -⟩ := List.getElem?_eq_some_iff.mp hy
        show xs[(0 + i) % maxEntries]? = some y
        rw [Nat.zero_add, Nat.mod_eq_of_lt (by omega)]
        exact hy
    case grown => exact hcount
    case growing => intro _; exact (Nat.zero_add _).symm

end MementoRingBuffer

/-! ### The table -/

structure ParserTable (μ : Type) where
  memUsed : ℕ := 0
  maxBytes : ℕ := initialTableSize
  currentTableBytes : ℕ := initialTableSize
  entries : MementoRingBuffer μ := {}
  deriving Repr

namespace ParserTable

variable {μ : Type} (transportSize : μ → ℕ)

def evictOne (t : ParserTable μ) : Option (ParserTable μ) := do
  let (firstEntry, entries) ← t.entries.popOne
  guard (transportSize firstEntry ≤ t.memUsed)
  return { t with entries := entries, memUsed := t.memUsed - transportSize firstEntry }

/-- A loop that evicts, at most once for each entry. -/
def evict (t : ParserTable μ) (condition : ParserTable μ → Bool) : Option (ParserTable μ) :=
  stepWhile (evictOne transportSize) condition t.entries.numEntries t

def setMaxBytes (t : ParserTable μ) (maxBytes : ℕ) : Option (ParserTable μ) := do
  if t.maxBytes = maxBytes then return t
  let t ← evict transportSize t fun t => maxBytes < t.memUsed
  return { t with maxBytes := maxBytes }

/-- `false` when the size is not allowed. -/
def setCurrentTableSize (t : ParserTable μ) (bytes : ℕ) : Option (ParserTable μ × Bool) := do
  if t.currentTableBytes = bytes then return (t, true)
  if t.maxBytes < bytes then return (t, false)
  let t ← evict transportSize t fun t => bytes < t.memUsed
  let entries ← t.entries.rebuild (max (entriesForBytes bytes) initialTableEntries)
  return ({ t with currentTableBytes := bytes, entries := entries }, true)

def addLargerThanCurrentTableSize (t : ParserTable μ) : Option (ParserTable μ) :=
  evict transportSize t fun t => t.entries.numEntries != 0

/-- `false` when the table was not made smaller as it should have been. -/
def add (t : ParserTable μ) (md : μ) : Option (ParserTable μ × Bool) := do
  if t.maxBytes < t.currentTableBytes then return (t, false)
  if t.currentTableBytes < transportSize md then
    let t ← addLargerThanCurrentTableSize transportSize t
    return (t, true)
  let t ← evict transportSize t fun t =>
    (2 ^ 64 + t.currentTableBytes - t.memUsed) % 2 ^ 64 < transportSize md
  let entries ← t.entries.put md
  return ({ t with memUsed := uint32 (t.memUsed + transportSize md), entries := entries }, true)

def lookupDynamic (t : ParserTable μ) (index : ℕ) : Option μ :=
  t.entries.lookup (index - (lastStaticEntry + 1))

/-! ### The entries it stands for -/

/-- The table holds the entries `q`, after `added` were added to it. -/
structure Represents (t : ParserTable μ) (added : ℕ) (q : List μ) : Prop where
  entries : t.entries.Represents added q
  used : t.memUsed = total transportSize q
  fits : total transportSize q ≤ t.currentTableBytes
  sizes : ∀ md ∈ q, entryOverhead ≤ transportSize md
  capacity : t.entries.maxEntries = max (entriesForBytes t.currentTableBytes) initialTableEntries
  bounded : t.currentTableBytes + 31 < 2 ^ 32

theorem represents_initial : Represents transportSize {} 0 [] where
  entries := MementoRingBuffer.represents_initial
  used := rfl
  fits := Nat.zero_le _
  sizes := by intro md hmd; cases hmd
  capacity := (max_self _).symm
  bounded := by
    show initialTableSize + 31 < 2 ^ 32
    decide

variable {transportSize} {t : ParserTable μ} {added : ℕ} {q : List μ}

theorem Represents.evictOne {md : μ} (h : Represents transportSize t added (md :: q))
    (hadded : added < 2 ^ 32) :
    ∃ t', evictOne transportSize t = some t' ∧ Represents transportSize t' added q ∧
      t'.maxBytes = t.maxBytes ∧ t'.currentTableBytes = t.currentTableBytes := by
  obtain ⟨entries, hpop, hentries, hcapacity⟩ := h.entries.popOne hadded
  have hused := h.used
  have hfits := h.fits
  rw [total_cons] at hused hfits
  refine ⟨{ t with entries := entries, memUsed := t.memUsed - transportSize md }, ?_, ?_, rfl,
    rfl⟩
  · have hle : transportSize md ≤ t.memUsed := by omega
    rw [ParserTable.evictOne, hpop]
    simp only [Option.bind_eq_bind, Option.bind_some, guard, if_pos hle]
    rfl
  · constructor
    case entries => exact hentries
    case used => show t.memUsed - transportSize md = _; omega
    case fits => show _ ≤ t.currentTableBytes; omega
    case sizes => exact fun x hx => h.sizes x (List.mem_cons_of_mem md hx)
    case capacity => exact hcapacity.trans h.capacity
    case bounded => exact h.bounded

/-- A loop that evicts for as long as the entries take more than `bound`. -/
theorem Represents.evict (h : Represents transportSize t added q) (bound : ℕ)
    (condition : ParserTable μ → Bool) (hadded : added < 2 ^ 32)
    (hcondition : ∀ t' p, Represents transportSize t' added p →
      t'.currentTableBytes = t.currentTableBytes →
      condition t' = decide (bound < total transportSize p)) :
    ∃ t', ParserTable.evict transportSize t condition = some t' ∧
      Represents transportSize t' added (Eviction.evict transportSize bound q) ∧
      t'.maxBytes = t.maxBytes ∧ t'.currentTableBytes = t.currentTableBytes := by
  rw [ParserTable.evict, h.entries.count]
  apply stepWhile_evict (fun t' p => Represents transportSize t' added p ∧
    t'.maxBytes = t.maxBytes ∧ t'.currentTableBytes = t.currentTableBytes)
  · rintro t' md p ⟨hp, hmax, hcurrent⟩
    obtain ⟨t'', hone, hp', hmax', hcurrent'⟩ := hp.evictOne hadded
    exact ⟨t'', hone, hp', hmax'.trans hmax, hcurrent'.trans hcurrent⟩
  · rintro t' p ⟨hp, -, hcurrent⟩
    exact hcondition t' p hp hcurrent
  · exact ⟨h, rfl, rfl⟩

theorem Represents.later {later : ℕ} (h : Represents transportSize t added q)
    (hlater : added ≤ later) : Represents transportSize t later q :=
  { h with entries := h.entries.later hlater }

theorem Represents.put {md : μ} (h : Represents transportSize t added q)
    (hsize : entryOverhead ≤ transportSize md)
    (hroom : total transportSize q + transportSize md ≤ t.currentTableBytes)
    (hadded : added < 2 ^ 32) :
    ∃ entries, t.entries.put md = some entries ∧
      Represents transportSize
        { t with memUsed := t.memUsed + transportSize md, entries := entries } (added + 1)
        (q ++ [md]) := by
  have htotal : total transportSize (q ++ [md]) =
      total transportSize q + transportSize md := by
    rw [total_append, total_cons, total_nil, Nat.add_zero]
  have hsizes : ∀ x ∈ q ++ [md], entryOverhead ≤ transportSize x := by
    intro x hx
    rcases List.mem_append.mp hx with hx | hx
    · exact h.sizes x hx
    · obtain rfl := List.mem_singleton.mp hx
      exact hsize
  have hcount : q.length < t.entries.maxEntries := by
    have hmul := length_mul_le_total hsizes
    rw [htotal] at hmul
    have hle := le_entriesForBytes (hmul.trans hroom) h.bounded
    rw [List.length_append, List.length_singleton] at hle
    rw [h.capacity]
    exact hle.trans (le_max_left _ _)
  obtain ⟨entries, hput, hentries, hcapacity⟩ := h.entries.put hcount hadded md
  exact ⟨entries, hput,
    { entries := hentries
      used := by rw [htotal, h.used]
      fits := by rw [htotal]; exact hroom
      sizes := hsizes
      capacity := hcapacity.trans h.capacity
      bounded := h.bounded }⟩

theorem Represents.setMaxBytes {n : ℕ} (h : Represents transportSize t added q)
    (hadded : added < 2 ^ 32) :
    ∃ t', setMaxBytes transportSize t n = some t' ∧ t'.maxBytes = n ∧
      t'.currentTableBytes = t.currentTableBytes ∧
      Represents transportSize t' added
        (if t.maxBytes = n then q else Eviction.evict transportSize n q) := by
  rw [ParserTable.setMaxBytes]
  by_cases hsame : t.maxBytes = n
  · rw [if_pos hsame, if_pos hsame]
    exact ⟨t, rfl, hsame, rfl, h⟩
  · obtain ⟨t₁, hevict, h₁, -, hcurrent⟩ := h.evict n
      (fun t => n < t.memUsed) hadded (fun t' p hp _ => by rw [hp.used])
    rw [if_neg hsame, if_neg hsame, hevict]
    exact ⟨{ t₁ with maxBytes := n }, rfl, rfl, hcurrent,
      { entries := h₁.entries
        used := h₁.used
        fits := h₁.fits
        sizes := h₁.sizes
        capacity := h₁.capacity
        bounded := h₁.bounded }⟩

theorem Represents.setCurrentTableSize {n : ℕ} (h : Represents transportSize t added q)
    (hadded : added < 2 ^ 32) (hn : n ≤ t.maxBytes) (hbounded : n + 31 < 2 ^ 32) :
    ∃ t', setCurrentTableSize transportSize t n = some (t', true) ∧ t'.maxBytes = t.maxBytes ∧
      t'.currentTableBytes = n ∧
      Represents transportSize t' added (Eviction.evict transportSize n q) := by
  rw [ParserTable.setCurrentTableSize]
  by_cases hsame : t.currentTableBytes = n
  · rw [if_pos hsame, evict_of_le (hsame ▸ h.fits)]
    exact ⟨t, rfl, rfl, hsame, h⟩
  · obtain ⟨t₁, hevict, h₁, hmax, -⟩ := h.evict n
      (fun t => n < t.memUsed) hadded (fun t' p hp _ => by rw [hp.used])
    have hfits := total_evict_le transportSize n q
    have hcount : (Eviction.evict transportSize n q).length ≤
        max (entriesForBytes n) initialTableEntries := by
      have hmul := length_mul_le_total h₁.sizes
      exact (le_entriesForBytes (hmul.trans hfits) hbounded).trans (le_max_left _ _)
    obtain ⟨entries, hrebuild, hentries, hcapacity⟩ := h₁.entries.rebuild hcount
    rw [if_neg hsame, if_neg (by omega), hevict]
    simp only [Option.bind_eq_bind, Option.bind_some, hrebuild]
    exact ⟨{ t₁ with currentTableBytes := n, entries := entries }, rfl, hmax, rfl,
      { entries := hentries
        used := h₁.used
        fits := hfits
        sizes := h₁.sizes
        capacity := hcapacity
        bounded := hbounded }⟩

/-- An entry that is too large empties the table. -/
theorem Represents.addLarger (h : Represents transportSize t added q) (hadded : added < 2 ^ 32) :
    ∃ t', addLargerThanCurrentTableSize transportSize t = some t' ∧
      Represents transportSize t' added [] ∧ t'.maxBytes = t.maxBytes ∧
      t'.currentTableBytes = t.currentTableBytes := by
  obtain ⟨t₁, hevict, h₁, hmax, hcurrent⟩ := h.evict 0
    (fun t => t.entries.numEntries != 0) hadded (fun t' p hp _ => by
      rw [hp.entries.count]
      cases p with
      | nil => rfl
      | cons x p =>
          have hx := hp.sizes x List.mem_cons_self
          unfold entryOverhead at hx
          rw [total_cons, decide_eq_true (by omega)]
          rfl)
  have hempty : Eviction.evict transportSize 0 q = [] := evict_zero fun x hx => by
    have hx := h.sizes x hx
    unfold entryOverhead at hx
    omega
  rw [hempty] at h₁
  exact ⟨t₁, hevict, h₁, hmax, hcurrent⟩

theorem Represents.add {md : μ} (h : Represents transportSize t added q)
    (hadded : added < 2 ^ 32) (hsize : entryOverhead ≤ transportSize md)
    (hcurrent : t.currentTableBytes ≤ t.maxBytes) :
    ∃ t', add transportSize t md = some (t', true) ∧ t'.maxBytes = t.maxBytes ∧
      t'.currentTableBytes = t.currentTableBytes ∧
      Represents transportSize t' (added + 1)
        (Eviction.insert transportSize t.currentTableBytes q md) := by
  have hbounded := h.bounded
  rw [ParserTable.add, if_neg (by omega), Eviction.insert]
  by_cases hfit : transportSize md ≤ t.currentTableBytes
  · obtain ⟨t₁, hevict, h₁, hmax, hcurrent₁⟩ := h.evict
      (t.currentTableBytes - transportSize md)
      (fun t =>
        (2 ^ 64 + t.currentTableBytes - t.memUsed) % 2 ^ 64 < transportSize md)
      (by omega) (fun t' p hp hcurrent => by
        -- no more is used than there is, so nothing wraps around
        have hfits := hp.fits
        rw [hp.used, hcurrent]
        congr 1
        apply propext
        rw [hcurrent] at hfits
        omega)
    have hroom := total_evict_le transportSize (t.currentTableBytes - transportSize md) q
    obtain ⟨entries, hput, h₂⟩ := h₁.put hsize (by omega) hadded
    have hwide : uint32 (t₁.memUsed + transportSize md) = t₁.memUsed + transportSize md := by
      apply uint32_of_lt
      rw [h₁.used]
      omega
    rw [if_neg (by omega), if_pos hfit, hevict]
    simp only [Option.bind_eq_bind, Option.bind_some, hput, hwide]
    exact ⟨_, rfl, hmax, hcurrent₁, h₂⟩
  · obtain ⟨t₁, hclear, h₁, hmax, hcurrent₁⟩ := h.addLarger (by omega)
    rw [if_pos (by omega), if_neg hfit, hclear]
    exact ⟨t₁, rfl, hmax, hcurrent₁, h₁.later (by omega)⟩

theorem Represents.lookupDynamic (h : Represents transportSize t added q) (hadded : added < 2 ^ 32)
    (index : ℕ) : lookupDynamic t (62 + index) = q.reverse[index]? := by
  rw [ParserTable.lookupDynamic, lastStaticEntry, Nat.add_sub_cancel_left]
  exact h.entries.lookup hadded index

end ParserTable

end GrpcM.Hpack
