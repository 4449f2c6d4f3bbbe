import GrpcM.Eviction
import GrpcM.Window

/-!
The dynamic table of HPACK as the encoder has it: the sizes of the entries only, in a
circular buffer, and the index that each entry was given. A failed `GRPC_CHECK` ends the
process, so the functions that make one give an `Option`.
-/

namespace GrpcM.Hpack

open GrpcM.Eviction GrpcM.Window

/-! ### Constants -/

def entryOverhead : ℕ := 32

def initialTableSize : ℕ := 4096

def lastStaticEntry : ℕ := 61

def uint32 (n : ℕ) : ℕ := n % 2 ^ 32

theorem uint32_of_lt {n : ℕ} (h : n < 2 ^ 32) : uint32 n = n := Nat.mod_eq_of_lt h

def entriesForBytes (bytes : ℕ) : ℕ := uint32 (bytes + entryOverhead - 1) / entryOverhead

def sizeForEntry (keyLength valueLength : ℕ) : ℕ := keyLength + valueLength + entryOverhead

def initialTableEntries : ℕ := entriesForBytes initialTableSize

/-- As many entries fit in a table as there are slots for them. -/
theorem le_entriesForBytes {n bytes : ℕ} (hn : n * entryOverhead ≤ bytes)
    (hbytes : bytes + 31 < 2 ^ 32) : n ≤ entriesForBytes bytes := by
  unfold entryOverhead at hn
  rw [entriesForBytes, entryOverhead, uint32_of_lt (by omega)]
  omega

/-! ### The table -/

structure EncoderTable where
  tailRemoteIndex : ℕ := 0
  maxTableSize : ℕ := initialTableSize
  tableElems : ℕ := 0
  tableSize : ℕ := 0
  elemSize : List ℕ := List.replicate initialTableEntries 0
  deriving Repr

namespace EncoderTable

def maxEntrySize : ℕ := 2 ^ 16 - 1

def evictOne (t : EncoderTable) : Option EncoderTable := do
  let tail := uint32 (t.tailRemoteIndex + 1)
  guard (0 < tail)
  guard (0 < t.tableElems)
  let removingSize ← t.elemSize[tail % t.elemSize.length]?
  guard (removingSize ≤ t.tableSize)
  return { t with
    tailRemoteIndex := tail
    tableSize := t.tableSize - removingSize
    tableElems := t.tableElems - 1 }

/-- A loop that evicts. There is a check against a table without entries, so it goes round
at most once for each of them. -/
def evict (t : EncoderTable) (condition : EncoderTable → Bool) : Option EncoderTable :=
  stepWhile evictOne condition t.tableElems t

def allocateIndex (t : EncoderTable) (elementSize : ℕ) : Option (EncoderTable × ℕ) := do
  let newIndex := uint32 (t.tailRemoteIndex + t.tableElems + 1)
  if t.maxTableSize < elementSize then
    let t ← t.evict fun t => 0 < t.tableSize
    return (t, 0)
  let t ← t.evict fun t => t.maxTableSize < t.tableSize + elementSize
  guard (t.tableElems < t.elemSize.length)
  return ({ t with
    elemSize := t.elemSize.set (newIndex % t.elemSize.length) (elementSize % 2 ^ 16)
    tableSize := uint32 (t.tableSize + elementSize)
    tableElems := t.tableElems + 1 }, newIndex)

def rebuild (t : EncoderTable) (capacity : ℕ) : Option EncoderTable := do
  guard (t.tableElems ≤ capacity)
  return { t with
    elemSize := copy
      (fun i => t.elemSize.getD ((t.tailRemoteIndex + 1 + i) % t.elemSize.length) 0)
      capacity (t.tailRemoteIndex + 1) t.tableElems (List.replicate capacity 0) }

/-- The table and whether the size is a new one. -/
def setMaxSize (t : EncoderTable) (maxTableSize : ℕ) : Option (EncoderTable × Bool) := do
  if maxTableSize = t.maxTableSize then return (t, false)
  let t ← t.evict fun t => 0 < t.tableSize && maxTableSize < t.tableSize
  let t := { t with maxTableSize := maxTableSize }
  let maxTableElems := entriesForBytes maxTableSize
  if t.elemSize.length < maxTableElems then
    let t ← t.rebuild (max maxTableElems (2 * t.elemSize.length))
    return (t, true)
  return (t, true)

def dynamicIndex (t : EncoderTable) (index : ℕ) : ℕ :=
  uint32 (2 ^ 32 + (1 + lastStaticEntry + t.tailRemoteIndex + t.tableElems) - index)

def convertibleToDynamicIndex (t : EncoderTable) (index : ℕ) : Bool :=
  t.tailRemoteIndex < index

/-! ### The sizes it stands for -/

/-- The table holds the entries of the sizes `q`, of `given` that it has given an index. -/
structure Represents (t : EncoderTable) (given : ℕ) (q : List ℕ) : Prop where
  elems : t.tableElems = q.length
  given : t.tailRemoteIndex + q.length = given
  size : t.tableSize = total id q
  fits : total id q ≤ t.maxTableSize
  entries : ∀ s ∈ q, entryOverhead ≤ s
  holds : Holds t.elemSize t.elemSize.length (t.tailRemoteIndex + 1) q
  slots : entriesForBytes t.maxTableSize ≤ t.elemSize.length
  bounded : t.maxTableSize + 31 < 2 ^ 32

theorem represents_initial : Represents {} 0 [] where
  elems := rfl
  given := rfl
  size := rfl
  fits := Nat.zero_le _
  entries := by intro s hs; cases hs
  holds := holds_nil _ _ _
  slots := by rw [List.length_replicate]; rfl
  bounded := by decide

variable {t : EncoderTable} {given : ℕ} {q : List ℕ}

/-- Eviction takes the oldest entry and no index. -/
theorem Represents.evictOne {s : ℕ} (h : Represents t given (s :: q)) (hgiven : given < 2 ^ 32) :
    ∃ t', evictOne t = some t' ∧ Represents t' given q ∧
      t'.maxTableSize = t.maxTableSize := by
  have hindex := h.given
  have hsize := h.size
  have hfits := h.fits
  have helems := h.elems
  rw [List.length_cons] at hindex helems
  rw [total_cons, id_eq] at hsize hfits
  have htail : uint32 (t.tailRemoteIndex + 1) = t.tailRemoteIndex + 1 :=
    uint32_of_lt (by omega)
  refine ⟨{ t with
    tailRemoteIndex := t.tailRemoteIndex + 1
    tableSize := t.tableSize - s
    tableElems := t.tableElems - 1 }, ?_, ?_, rfl⟩
  · have hpositive : 0 < t.tableElems := by omega
    have hle : s ≤ t.tableSize := by omega
    simp [EncoderTable.evictOne, htail, h.holds.head, hpositive, hle, guard]
  · constructor
    case elems => show t.tableElems - 1 = q.length; omega
    case given => show t.tailRemoteIndex + 1 + q.length = given; omega
    case size => show t.tableSize - s = total id q; omega
    case fits => show total id q ≤ t.maxTableSize; omega
    case entries => exact fun x hx => h.entries x (List.mem_cons_of_mem s hx)
    case holds => exact h.holds.tail
    case slots => exact h.slots
    case bounded => exact h.bounded

/-- A loop that evicts for as long as the entries take more than `bound`. -/
theorem Represents.evict (h : Represents t given q) (bound : ℕ)
    (condition : EncoderTable → Bool) (hgiven : given < 2 ^ 32)
    (hcondition : ∀ t', t'.maxTableSize = t.maxTableSize →
      condition t' = decide (bound < t'.tableSize)) :
    ∃ t', t.evict condition = some t' ∧ Represents t' given (Eviction.evict id bound q) ∧
      t'.maxTableSize = t.maxTableSize := by
  rw [EncoderTable.evict, h.elems]
  apply stepWhile_evict
    (fun t' p => Represents t' given p ∧ t'.maxTableSize = t.maxTableSize)
  · rintro t' s p ⟨hp, hmax⟩
    obtain ⟨t'', hone, hp', hmax'⟩ := hp.evictOne hgiven
    exact ⟨t'', hone, hp', hmax'.trans hmax⟩
  · rintro t' p ⟨hp, hmax⟩
    rw [hcondition t' hmax, hp.size]
  · exact ⟨h, rfl⟩

theorem Represents.add {s : ℕ} (h : Represents t given q) (hs : entryOverhead ≤ s)
    (hroom : total id q + s ≤ t.maxTableSize) (hgiven : given + 1 < 2 ^ 32) :
    t.tableElems < t.elemSize.length ∧
      Represents { t with
        elemSize := t.elemSize.set ((given + 1) % t.elemSize.length) s
        tableSize := t.tableSize + s
        tableElems := t.tableElems + 1 } (given + 1) (q ++ [s]) := by
  have htotal : total id (q ++ [s]) = total id q + s := by
    rw [total_append, total_cons, total_nil, id_eq, Nat.add_zero]
  have hentries : ∀ x ∈ q ++ [s], entryOverhead ≤ x := by
    intro x hx
    rcases List.mem_append.mp hx with hx | hx
    · exact h.entries x hx
    · obtain rfl := List.mem_singleton.mp hx
      exact hs
  have hindex := h.given
  have hcount : q.length < t.elemSize.length := by
    have hmul : (q ++ [s]).length * entryOverhead ≤ total id (q ++ [s]) :=
      length_mul_le_total hentries
    rw [htotal] at hmul
    have hle := le_entriesForBytes (hmul.trans hroom) h.bounded
    have hslots := h.slots
    rw [List.length_append, List.length_singleton] at hle
    omega
  refine ⟨by rw [h.elems]; exact hcount, ?_⟩
  constructor
  case elems => rw [List.length_append, List.length_singleton, h.elems]
  case given =>
      show t.tailRemoteIndex + _ = _
      rw [List.length_append, List.length_singleton]
      omega
  case size => rw [htotal, h.size]
  case fits => rw [htotal]; exact hroom
  case entries => exact hentries
  case holds =>
      show Holds (t.elemSize.set _ _) (t.elemSize.set _ _).length _ _
      have hposition : given + 1 = t.tailRemoteIndex + 1 + q.length := by omega
      rw [List.length_set, hposition]
      apply h.holds.set hcount
      apply Nat.mod_lt
      omega
  case slots =>
      show _ ≤ (t.elemSize.set _ _).length
      rw [List.length_set]
      exact h.slots
  case bounded => exact h.bounded

theorem Represents.allocateIndex {s : ℕ} (h : Represents t given q) (hs : entryOverhead ≤ s)
    (hsize : s ≤ maxEntrySize) (hgiven : given + 1 < 2 ^ 32) :
    ∃ t' index, allocateIndex t s = some (t', index) ∧ t'.maxTableSize = t.maxTableSize ∧
      if s ≤ t.maxTableSize then
        Represents t' (given + 1) (Eviction.insert id t.maxTableSize q s) ∧ index = given + 1
      else Represents t' given [] ∧ index = 0 := by
  unfold maxEntrySize at hsize
  rw [EncoderTable.allocateIndex]
  by_cases hfit : s ≤ t.maxTableSize
  · obtain ⟨t₁, hevict, h₁, hmax⟩ := h.evict (t.maxTableSize - s)
      (fun t => decide (t.maxTableSize < t.tableSize + s)) (by omega)
      (fun t' hmax => by
        show decide _ = decide _
        rw [hmax]
        congr 1
        apply propext
        omega)
    have hroom := total_evict_le id (t.maxTableSize - s) q
    have hbounded := h.bounded
    obtain ⟨hcount, hadd⟩ := h₁.add hs (by omega) hgiven
    have hindex : uint32 (t.tailRemoteIndex + t.tableElems + 1) = given + 1 := by
      rw [h.elems, h.given]
      exact uint32_of_lt hgiven
    have hshort : s % 2 ^ 16 = s := Nat.mod_eq_of_lt (by omega)
    have hwide : uint32 (t₁.tableSize + s) = t₁.tableSize + s := by
      apply uint32_of_lt
      rw [h₁.size]
      omega
    refine ⟨{ t₁ with
      elemSize := t₁.elemSize.set ((given + 1) % t₁.elemSize.length) s
      tableSize := t₁.tableSize + s
      tableElems := t₁.tableElems + 1 }, given + 1, ?_, hmax, ?_⟩
    · rw [if_neg (by omega), hindex]
      simp only [hevict, Option.bind_eq_bind, Option.bind_some, hshort, hwide]
      rw [guard, if_pos hcount]
      rfl
    · rw [if_pos hfit, Eviction.insert, if_pos (show id s ≤ _ from hfit)]
      exact ⟨hadd, rfl⟩
  · obtain ⟨t₁, hevict, h₁, hmax⟩ := h.evict 0
      (fun t => decide (0 < t.tableSize)) (by omega) fun _ _ => rfl
    have hempty : Eviction.evict id 0 q = [] := evict_zero fun x hx => by
      have hx := h.entries x hx
      unfold entryOverhead at hx
      show 0 < x
      omega
    rw [hempty] at h₁
    refine ⟨t₁, 0, ?_, hmax, ?_⟩
    · rw [if_pos (by omega), hevict]
      rfl
    · rw [if_neg hfit]
      exact ⟨h₁, rfl⟩

/-- Another bound for the same entries. -/
theorem Represents.resize {n : ℕ} (h : Represents t given q) (hfits : total id q ≤ n)
    (hslots : entriesForBytes n ≤ t.elemSize.length) (hn : n + 31 < 2 ^ 32) :
    Represents { t with maxTableSize := n } given q where
  elems := h.elems
  given := h.given
  size := h.size
  fits := hfits
  entries := h.entries
  holds := h.holds
  slots := hslots
  bounded := hn

/-- Another bound and more slots, if there are not enough for it. -/
theorem Represents.rebuild {n : ℕ} (h : Represents t given q) (capacity : ℕ) (hfits : total id q ≤ n)
    (hslots : entriesForBytes n ≤ capacity) (hn : n + 31 < 2 ^ 32) :
    ∃ t', EncoderTable.rebuild { t with maxTableSize := n } capacity = some t' ∧
      Represents t' given q ∧ t'.maxTableSize = n := by
  have hcount : q.length ≤ capacity := by
    have hmul : q.length * entryOverhead ≤ total id q := length_mul_le_total h.entries
    exact (le_entriesForBytes (hmul.trans hfits) hn).trans hslots
  have hread : ∀ i s, q[i]? = some s →
      t.elemSize.getD ((t.tailRemoteIndex + 1 + i) % t.elemSize.length) 0 = s := by
    intro i s hs
    rw [List.getD_eq_getElem?_getD, h.holds i s hs, Option.getD_some]
  have hcopy := holds_copy (List.replicate capacity 0) (t.tailRemoteIndex + 1) hread
    (by rw [List.length_replicate]; exact hcount)
  have hcheck : t.tableElems ≤ capacity := by
    rw [h.elems]
    exact hcount
  rw [EncoderTable.rebuild, guard, if_pos hcheck]
  refine ⟨_, rfl, ?_, rfl⟩
  constructor
  case elems => exact h.elems
  case given => exact h.given
  case size => exact h.size
  case fits => exact hfits
  case entries => exact h.entries
  case holds =>
      show Holds (copy _ _ _ _ _) (copy _ _ _ _ _).length _ _
      rw [length_copy, h.elems]
      rwa [List.length_replicate] at hcopy ⊢
  case slots =>
      show _ ≤ (copy _ _ _ _ _).length
      rw [length_copy, List.length_replicate]
      exact hslots
  case bounded => exact hn

theorem Represents.setMaxSize {n : ℕ} (h : Represents t given q) (hn : n + 31 < 2 ^ 32)
    (hgiven : given < 2 ^ 32) :
    ∃ t', setMaxSize t n = some (t', n != t.maxTableSize) ∧
      Represents t' given (Eviction.evict id n q) ∧ t'.maxTableSize = n := by
  rw [EncoderTable.setMaxSize]
  by_cases hsame : n = t.maxTableSize
  · refine ⟨t, ?_, ?_, hsame.symm⟩
    · rw [if_pos hsame, hsame, bne_self_eq_false]
      rfl
    · rw [hsame, evict_of_le h.fits]
      exact h
  · have hnew : (n != t.maxTableSize) = true := bne_iff_ne.mpr hsame
    obtain ⟨t₁, hevict, h₁, hmax⟩ := h.evict n
      (fun t => 0 < t.tableSize && n < t.tableSize) hgiven (fun t' _ => by
        show (decide _ && decide _) = decide _
        rw [← Bool.decide_and]
        congr 1
        apply propext
        omega)
    have hfits := total_evict_le id n q
    rw [if_neg hsame, hnew, hevict]
    show ∃ t', ite _ _ _ = _ ∧ _
    by_cases hslots₁ : t₁.elemSize.length < entriesForBytes n
    · obtain ⟨t₂, hrebuild, h₂, hmax₂⟩ := h₁.rebuild
        (max (entriesForBytes n) (2 * t₁.elemSize.length)) hfits (le_max_left _ _) hn
      refine ⟨t₂, ?_, h₂, hmax₂⟩
      rw [if_pos hslots₁, hrebuild]
      rfl
    · refine ⟨{ t₁ with maxTableSize := n }, ?_, h₁.resize hfits (by omega) hn, rfl⟩
      rw [if_neg hslots₁]
      rfl

theorem Represents.dynamicIndex {index : ℕ} (h : Represents t given q) (hindex : index ≤ given)
    (hgiven : given + 62 < 2 ^ 32) : t.dynamicIndex index = 62 + (given - index) := by
  have hsum := h.given
  rw [EncoderTable.dynamicIndex, h.elems, uint32, lastStaticEntry]
  omega

end EncoderTable

end GrpcM.Hpack
