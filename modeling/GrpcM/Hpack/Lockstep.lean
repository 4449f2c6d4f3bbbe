import GrpcM.Hpack.Parser

/-!
The two tables of a connection in step. Every entry that was given an index is in a history
that only grows, and the index is its place there. What the encoder takes for still stored is
the newer part of what the parser stores, so an index that it writes is found.
-/

namespace GrpcM.Hpack

open GrpcM.Eviction

/-! ### Sizes -/

def valueSize (key value : Bytes) : ℕ :=
  if isBinaryHeader key then
    max (value.length + 1)
      (max (Form.base64.wireSize value.length) (Form.base64.stringLength value))
  else value.length

def fieldSize (field : Bytes × Bytes) : ℕ :=
  field.1.length + valueSize field.1 field.2 + entryOverhead

def blockSize (fields : Block) : ℕ := (fields.map fieldSize).sum

@[simp] theorem blockSize_nil : blockSize [] = 0 := rfl

@[simp] theorem blockSize_append (fields more : Block) :
    blockSize (fields ++ more) = blockSize fields + blockSize more := by
  simp [blockSize]

@[simp] theorem blockSize_singleton (field : Bytes × Bytes) :
    blockSize [field] = fieldSize field := by
  simp [blockSize]

theorem sizes_le_valueSize {key : Bytes} {form : Form} (value : Bytes)
    (hform : isBinaryHeader key = (form != .plain)) :
    form.wireSize value.length ≤ valueSize key value ∧
      form.stringLength value ≤ valueSize key value := by
  rw [valueSize, hform]
  cases form <;> simp [Form.wireSize, Form.stringLength]

/-- An entry says no more against a header than there is, and counts for no more. -/
structure Memento.Sound (md : Memento) : Prop where
  status : md.parseStatus = fieldError md.key md.value
  size : md.transportSize ≤ fieldSize md.field

theorem sound_of_parsed {key : Bytes} {form : Form} (value : Bytes)
    (hform : isBinaryHeader key = (form != .plain)) :
    Memento.Sound {
      key := key
      value := value
      wireSize := form.wireSize value.length
      parseStatus := fieldError key value } where
  status := rfl
  size := by
    obtain ⟨hwire, -⟩ := sizes_le_valueSize value hform
    simp only [Memento.transportSize, fieldSize, Memento.field]
    omega

/-! ### Two tables -/

structure Paired (history : List Memento) (given : ℕ) (e : EncoderTable)
    (p : ParserTable Memento) : Prop where
  tables : ∃ live stored : List Memento,
    e.Represents history.length (live.map Memento.transportSize) ∧ live <:+ history ∧
      p.Represents Memento.transportSize given stored ∧ live <:+ stored
  given : history.length ≤ given
  sound : ∀ md ∈ history, md.Sound

/-- An index is 0 or that of an entry with a property. -/
def Stored (history : List Memento) (property : Memento → Prop) (index : ℕ) : Prop :=
  0 < index → ∃ md, history[index - 1]? = some md ∧ property md

theorem stored_zero (history : List Memento) (property : Memento → Prop) :
    Stored history property 0 := by
  intro h
  omega

theorem Stored.mono {history history' : List Memento} {property : Memento → Prop} {index : ℕ}
    (h : Stored history property index) (hgrown : history <+: history') :
    Stored history' property index := by
  intro hindex
  obtain ⟨md, hmd, hproperty⟩ := h hindex
  obtain ⟨newer, rfl⟩ := hgrown
  obtain ⟨hlt, -⟩ := List.getElem?_eq_some_iff.mp hmd
  exact ⟨md, by rw [List.getElem?_append_left hlt]; exact hmd, hproperty⟩

theorem Stored.imp {history : List Memento} {property property' : Memento → Prop} {index : ℕ}
    (h : Stored history property index) (himp : ∀ md, property md → property' md) :
    Stored history property' index := by
  intro hindex
  obtain ⟨md, hmd, hproperty⟩ := h hindex
  exact ⟨md, hmd, himp md hproperty⟩

theorem forall_mem_concat {α : Type} {P : α → Prop} {l : List α} {a : α} (h : ∀ x ∈ l, P x)
    (ha : P a) : ∀ x ∈ l ++ [a], P x := by
  intro x hx
  rcases List.mem_append.mp hx with hx | hx
  · exact h x hx
  · obtain rfl := List.mem_singleton.mp hx
    exact ha

section Tables

variable {history : List Memento} {given : ℕ} {e : EncoderTable} {p : ParserTable Memento}

theorem Paired.later {later : ℕ} (h : Paired history given e p) (hlater : given ≤ later) :
    Paired history later e p := by
  obtain ⟨live, stored, he, hlive, hp, hstored⟩ := h.tables
  exact ⟨⟨live, stored, he, hlive, hp.later hlater, hstored⟩, h.given.trans hlater, h.sound⟩

/-- What the encoder takes for stored is found under the index that it writes. -/
theorem Paired.lookup {index : ℕ} {md : Memento} (h : Paired history given e p)
    (hgiven : given + 62 < 2 ^ 32) (hindex : e.convertibleToDynamicIndex index = true)
    (hmd : history[index - 1]? = some md) :
    lastStaticEntry < e.dynamicIndex index ∧
      p.lookupDynamic (e.dynamicIndex index) = some md := by
  obtain ⟨live, stored, he, ⟨older, hhistory⟩, hp, ⟨front, hstored⟩⟩ := h.tables
  have htail : e.tailRemoteIndex < index := of_decide_eq_true hindex
  have hsum := he.given
  have hbound := h.given
  obtain ⟨hlt, -⟩ := List.getElem?_eq_some_iff.mp hmd
  have hdynamic : e.dynamicIndex index = 62 + (history.length - index) :=
    he.dynamicIndex (by omega) (by omega)
  have hlength : older.length + live.length = history.length := by
    rw [← hhistory, List.length_append]
  rw [List.length_map] at hsum
  refine ⟨by rw [hdynamic, lastStaticEntry]; omega, ?_⟩
  rw [hdynamic, hp.lookupDynamic (by omega), ← hstored, List.reverse_append,
    List.getElem?_append_left (by rw [List.length_reverse]; omega),
    List.getElem?_reverse (by omega)]
  rw [← hhistory, List.getElem?_append_right (by omega)] at hmd
  rw [← hmd]
  congr 1
  omega

theorem Paired.add {md : Memento} (h : Paired history given e p) (hsound : md.Sound)
    (hmax : md.transportSize ≤ EncoderTable.maxEntrySize)
    (hcurrent : p.currentTableBytes = e.maxTableSize)
    (hallowed : p.currentTableBytes ≤ p.maxBytes) (hgiven : given + 1 < 2 ^ 32) :
    ∃ e' index p' history', e.allocateIndex md.transportSize = some (e', index) ∧
      p.add Memento.transportSize md = some (p', true) ∧ e'.maxTableSize = e.maxTableSize ∧
      p'.maxBytes = p.maxBytes ∧ p'.currentTableBytes = p.currentTableBytes ∧
      history <+: history' ∧ Stored history' (· = md) index ∧
      Paired history' (given + 1) e' p' := by
  obtain ⟨live, stored, he, hlive, hp, hstored⟩ := h.tables
  have hbound := h.given
  have hsize : entryOverhead ≤ md.transportSize := Nat.le_add_left _ _
  obtain ⟨e', index, hallocate, hmaxe, hcase⟩ := he.allocateIndex hsize hmax (by omega)
  obtain ⟨p', hadd, hmaxp, hcurrent', hp'⟩ := hp.add (by omega) hsize hallowed
  by_cases hfit : md.transportSize ≤ e.maxTableSize
  · rw [if_pos hfit] at hcase
    obtain ⟨he', rfl⟩ := hcase
    refine ⟨e', _, p', history ++ [md], hallocate, hadd, hmaxe, hmaxp, hcurrent',
      List.prefix_append _ _, ?_, ?_⟩
    · intro _
      exact ⟨md, by simp, rfl⟩
    · have hinsert : Eviction.insert id e.maxTableSize (live.map Memento.transportSize)
          md.transportSize =
          (Eviction.insert Memento.transportSize e.maxTableSize live md).map
            Memento.transportSize := insert_map Memento.transportSize _ _ _
      have hnewer : Eviction.insert Memento.transportSize e.maxTableSize live md <:+
          history ++ [md] := by
        rw [Eviction.insert, if_pos hfit]
        obtain ⟨older, holder⟩ := (evict_suffix Memento.transportSize
          (e.maxTableSize - md.transportSize) live).trans hlive
        exact ⟨older, by rw [← List.append_assoc, holder]⟩
      constructor
      case tables =>
          refine ⟨_, _, ?_, hnewer, hp', ?_⟩
          · rw [List.length_append, List.length_singleton, ← hinsert]
            exact he'
          · rw [hcurrent]
            exact insert_suffix_insert hstored md
      case given =>
          rw [List.length_append, List.length_singleton]
          omega
      case sound => exact forall_mem_concat h.sound hsound
  · rw [if_neg hfit] at hcase
    obtain ⟨he', rfl⟩ := hcase
    exact ⟨e', 0, p', history, hallocate, hadd, hmaxe, hmaxp, hcurrent', List.prefix_refl _,
      stored_zero _ _,
      ⟨⟨[], _, he', List.nil_suffix, hp', List.nil_suffix⟩, by omega, h.sound⟩⟩

/-- The encoder may evict before the parser does. -/
theorem Paired.setMaxSize {n : ℕ} (h : Paired history given e p) (hn : n + 31 < 2 ^ 32)
    (hgiven : given < 2 ^ 32) :
    ∃ e', e.setMaxSize n = some (e', n != e.maxTableSize) ∧ e'.maxTableSize = n ∧
      Paired history given e' p := by
  obtain ⟨live, stored, he, hlive, hp, hstored⟩ := h.tables
  have hbound := h.given
  obtain ⟨e', hset, he', hmax⟩ := he.setMaxSize hn (by omega)
  have hevict : Eviction.evict id n (live.map Memento.transportSize) =
      (Eviction.evict Memento.transportSize n live).map Memento.transportSize :=
    evict_map Memento.transportSize n live
  rw [hevict] at he'
  have hnewer := evict_suffix Memento.transportSize n live
  exact ⟨e', hset, hmax,
    ⟨⟨_, stored, he', hnewer.trans hlive, hp, hnewer.trans hstored⟩, hbound, h.sound⟩⟩

theorem total_live {live : List Memento} {k : ℕ}
    (he : e.Represents k (live.map Memento.transportSize)) :
    total Memento.transportSize live ≤ e.maxTableSize := by
  have hfits := he.fits
  rw [total_map] at hfits
  exact hfits

/-- What the parser evicts for a bound on its table, the encoder has evicted. -/
theorem Paired.setMaxBytes {n : ℕ} (h : Paired history given e p) (hn : e.maxTableSize ≤ n)
    (hgiven : given < 2 ^ 32) :
    ∃ p', p.setMaxBytes Memento.transportSize n = some p' ∧ p'.maxBytes = n ∧
      p'.currentTableBytes = p.currentTableBytes ∧ Paired history given e p' := by
  obtain ⟨live, stored, he, hlive, hp, hstored⟩ := h.tables
  obtain ⟨p', hset, hmax, hcurrent, hp'⟩ := hp.setMaxBytes (n := n) hgiven
  refine ⟨p', hset, hmax, hcurrent, ⟨⟨live, _, he, hlive, hp', ?_⟩, h.given, h.sound⟩⟩
  split
  · exact hstored
  · exact suffix_evict hstored ((total_live he).trans hn)

theorem Paired.setCurrentTableSize (h : Paired history given e p)
    (hn : e.maxTableSize ≤ p.maxBytes) (hgiven : given < 2 ^ 32) :
    ∃ p', p.setCurrentTableSize Memento.transportSize e.maxTableSize = some (p', true) ∧
      p'.maxBytes = p.maxBytes ∧ p'.currentTableBytes = e.maxTableSize ∧
      Paired history given e p' := by
  obtain ⟨live, stored, he, hlive, hp, hstored⟩ := h.tables
  obtain ⟨p', hset, hmax, hcurrent, hp'⟩ := hp.setCurrentTableSize hgiven hn he.bounded
  exact ⟨p', hset, hmax, hcurrent,
    ⟨⟨live, _, he, hlive, hp', suffix_evict hstored (total_live he)⟩, h.given, h.sound⟩⟩

end Tables

end GrpcM.Hpack
