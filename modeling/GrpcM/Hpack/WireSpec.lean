import GrpcM.Hpack.ConnectionSpec
import GrpcM.Hpack.Wire

/-!
The connection whose reader sees bytes. It runs as the one whose reader sees instructions does,
because every block that is on its way will be read, and its strings are those of the headers
that were written.
-/

namespace GrpcM.Hpack

namespace Connection

end Connection

/-! ### Strings -/

/-- Every binary value survives the code for it. -/
def Header.Restored (parseHuff : Bytes → Option Bytes) (h : Header) : Prop :=
  ∀ field ∈ h.fields, isBinaryHeader field.1 = true → Restores parseHuff field.2

structure Header.Fits (parseHuff : Bytes → Option Bytes) (h : Header) : Prop where
  size : h.size < 2 ^ 32
  restored : h.Restored parseHuff

section Strings

variable {parseHuff : Bytes → Option Bytes} {before headers : List Header} {pieces : List Block}

theorem fieldSize_le_of_mem {field : Bytes × Bytes} {fields : Block} (h : field ∈ fields) :
    fieldSize field ≤ blockSize fields := by
  obtain ⟨before, after, rfl⟩ := List.append_of_mem h
  have hsum : blockSize (before ++ field :: after) =
      blockSize before + (fieldSize field + blockSize after) := by
    simp [blockSize]
  omega

theorem Header.Received.restores {header : Header} {fields : Block}
    (h : header.Received before fields) (hfits : header.Fits parseHuff) :
    ∀ field ∈ fields, fieldSize field < 2 ^ 32 ∧
      (isBinaryHeader field.1 = true → Restores parseHuff field.2) := by
  intro field hmem
  refine ⟨(fieldSize_le_of_mem hmem).trans_lt (h.blockSize_le.trans_lt hfits.size), ?_⟩
  rcases h with rfl | ⟨timeout, sent, rfl, -, -, rfl⟩
  · exact hfits.restored field hmem
  · obtain rfl := List.mem_singleton.mp hmem
    exact fun hbinary => absurd hbinary (by decide : ¬isBinaryHeader timeoutKey = true)

theorem length_lt_of_fieldSize {key value : Bytes} (h : fieldSize (key, value) < 2 ^ 32) :
    key.length < 2 ^ 32 ∧ value.length + 1 < 2 ^ 32 := by
  have hvalue : value.length ≤ valueSize key value := by
    rw [valueSize]
    split
    · exact (Nat.le_succ _).trans (le_max_left _ _)
    · exact le_rfl
  simp only [fieldSize, entryOverhead] at h
  omega

/-- The strings of an instruction are those of headers that fit. -/
theorem Instruction.Addressed.writable {i : Instruction}
    (hreceived : ReceivedAll before headers pieces)
    (hfits : ∀ header ∈ headers, header.Fits parseHuff) (h : i.Addressed pieces.flatten) :
    i.Writable parseHuff := by
  have hfields : ∀ field ∈ pieces.flatten, fieldSize field < 2 ^ 32 ∧
      (isBinaryHeader field.1 = true → Restores parseHuff field.2) :=
    hreceived.forall_mem fun header hmem _ _ hone => hone.restores (hfits header hmem)
  cases i with
  | tableSize size => exact h
  | indexed index => exact h
  | literal addToTable key value form =>
      cases key with
      | name key =>
          obtain ⟨hmem, hbinary⟩ := h
          obtain ⟨hsize, hrestores⟩ := hfields _ hmem
          obtain ⟨hkey, hvalue⟩ := length_lt_of_fieldSize hsize
          exact ⟨hkey, hvalue, fun hform => hrestores (hbinary hform)⟩
      | index index =>
          obtain ⟨hnew, hindex, key, hmem, hbinary⟩ := h
          obtain ⟨hsize, hrestores⟩ := hfields _ hmem
          obtain ⟨-, hvalue⟩ := length_lt_of_fieldSize hsize
          exact ⟨⟨hnew, hindex⟩, hvalue, fun hform => hrestores (hbinary hform)⟩

end Strings

/-! ### One message -/

section Packets

variable {parseHuff : Bytes → Option Bytes} {written : List (List Header)}

end Packets

/-! ### Every run -/

end GrpcM.Hpack
