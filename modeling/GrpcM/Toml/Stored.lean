import GrpcM.Toml.ReaderSpec

/-!
The reader takes nothing back: a value stays at its address, and what has been read
of an array stays at the start of it until the array is stored.
-/

namespace GrpcM.Toml

open GrpcM.Path

def KeyUse.pending? : KeyUse → Option Pending
  | .member p => some p
  | _ => none

def Mode.pending? : Mode → Option Pending
  | .key _ _ use => use.pending?
  | .value p => some p
  | .next p => some p
  | .commentIn p _ => some p
  | .quoteOne _ p => some p
  | .quoteTwo _ p => some p
  | .single _ p => some p
  | .multi _ _ _ p => some p
  | .bare _ p => some p
  | _ => none

/-- What is being read is, outermost, an array for `a` that starts with `items`. -/
def Started (a : Address) (items : List Value) (q : Option Pending) : Prop :=
  ∃ inner more, q = some ⟨a, inner ++ [.array (items ++ more)]⟩

variable {a : Address} {items : List Value} {t : Address} {f : Frame} {fs : List Frame}

@[simp] theorem not_started_none : ¬Started a items none := by
  rintro ⟨inner, more, heq⟩
  cases heq

theorem not_started_value : ¬Started a items (some ⟨t, []⟩) := by
  rintro ⟨inner, more, heq⟩
  simp at heq

theorem started_cons_iff :
    Started a items (some ⟨t, f :: fs⟩) ↔
      (t = a ∧ fs = [] ∧ ∃ more, f = .array (items ++ more)) ∨ Started a items (some ⟨t, fs⟩) := by
  constructor
  · rintro ⟨inner, more, heq⟩
    obtain ⟨rfl, hframes⟩ := Pending.mk.inj (Option.some.inj heq)
    cases inner with
    | nil =>
        obtain ⟨rfl, rfl⟩ := List.cons.inj hframes
        exact Or.inl ⟨rfl, rfl, more, rfl⟩
    | cons g inner =>
        obtain ⟨rfl, rfl⟩ := List.cons.inj hframes
        exact Or.inr ⟨inner, more, rfl⟩
  · rintro (⟨rfl, rfl, more, rfl⟩ | ⟨inner, more, heq⟩)
    · exact ⟨[], more, rfl⟩
    · obtain ⟨rfl, rfl⟩ := Pending.mk.inj (Option.some.inj heq)
      exact ⟨f :: inner, more, rfl⟩

namespace Reader

variable {r r' : Reader} {c : Char} {p : Pending} {v : Value} {d : Document} {q : Option Pending}

/-- The array for `a` starts with `items`, stored or not. -/
def Holds (a : Address) (items : List Value) (r : Reader) : Prop :=
  Started a items r.mode.pending? ∨ ∃ more, r.doc.get? a = some (.array (items ++ more))

/-- The reader `r` has all that was in the document `d` and in the value `q`. -/
structure Keeps (d : Document) (q : Option Pending) (r : Reader) : Prop where
  stored : ∀ {a v}, d.get? a = some v → r.doc.get? a = some v
  started : ∀ {a items}, Started a items q → r.Holds a items

theorem Keeps.holds (hkeeps : Keeps r.doc r.mode.pending? r') (hholds : r.Holds a items) :
    r'.Holds a items := by
  rcases hholds with hstarted | ⟨more, hstored⟩
  · exact hkeeps.started hstarted
  · exact Or.inr ⟨more, hkeeps.stored hstored⟩

theorem Keeps.trans (hkeeps : Keeps d q r) (hkeeps' : Keeps r.doc r.mode.pending? r') :
    Keeps d q r' :=
  ⟨fun hget => hkeeps'.stored (hkeeps.stored hget), fun hstarted =>
    hkeeps'.holds (hkeeps.started hstarted)⟩

theorem keeps_refl (r : Reader) : Keeps r.doc r.mode.pending? r :=
  ⟨fun hget => hget, Or.inl⟩

theorem keeps_of_some (hstep : some r = some r') (hmode : r.mode.pending? = q) :
    Keeps r.doc q r' := by
  obtain rfl := Option.some.inj hstep
  subst hmode
  exact keeps_refl r

theorem keeps_of_setMode {mode : Mode} (hstep : some (r.setMode mode) = some r')
    (hmode : mode.pending? = q) : Keeps r.doc q r' :=
  keeps_of_some (r := r.setMode mode) hstep hmode

theorem keeps_of_not_started (hstored : ∀ {a v}, d.get? a = some v → r.doc.get? a = some v)
    (hnot : ∀ {a items}, ¬Started a items q) : Keeps d q r :=
  ⟨hstored, fun hstarted => absurd hstarted hnot⟩

/-- An array or an inline table is opened in a value. -/
theorem keeps_push {mode : Mode} {f : Frame} (hstep : some (r.setMode mode) = some r')
    (hmode : mode.pending? = some { p with frames := f :: p.frames }) :
    Keeps r.doc (some p) r' := by
  obtain rfl := Option.some.inj hstep
  refine ⟨fun hget => hget, fun hstarted => Or.inl ?_⟩
  rw [setMode_mode, hmode, started_cons_iff]
  exact Or.inr hstarted

/-- An inline table is not the outermost value. -/
theorem started_table {entries entries' : List (Address × Value)} {key key' : Address} :
    Started a items (some ⟨t, .table entries key :: fs⟩) ↔
      Started a items (some ⟨t, .table entries' key' :: fs⟩) := by
  simp [started_cons_iff]

theorem keeps_emit (hemit : r.emit p v = some r') : Keeps r.doc (some p) r' := by
  obtain ⟨target, frames⟩ := p
  cases frames with
  | nil =>
      obtain ⟨doc, hassign, rfl⟩ := Option.map_eq_some_iff.mp hemit
      exact keeps_of_not_started (Document.get?_assign hassign) not_started_value
  | cons f frames =>
  cases f with
  | array its =>
      obtain rfl := Option.some.inj hemit
      refine ⟨fun hget => hget, fun hstarted => Or.inl ?_⟩
      rw [setMode_mode, Mode.pending?, started_cons_iff]
      rcases started_cons_iff.mp hstarted with ⟨rfl, rfl, more, hits⟩ | hstarted
      · obtain rfl := Frame.array.inj hits
        exact Or.inl ⟨rfl, rfl, more ++ [v], by rw [List.append_assoc]⟩
      · exact Or.inr hstarted
  | table entries key =>
      simp only [emit] at hemit
      split at hemit
      case isTrue => cases hemit
      case isFalse =>
          obtain rfl := Option.some.inj hemit
          exact ⟨fun hget => hget, fun hstarted => Or.inl (started_table.mp hstarted)⟩

/-- Closing an array stores it or puts it into the value it is in. -/
theorem keeps_closeArray {its : List Value} (hemit : r.emit ⟨t, fs⟩ (.array its) = some r') :
    Keeps r.doc (some ⟨t, .array its :: fs⟩) r' := by
  have hkeeps := keeps_emit hemit
  refine ⟨hkeeps.stored, fun hstarted => ?_⟩
  rcases started_cons_iff.mp hstarted with ⟨rfl, rfl, more, hits⟩ | hstarted
  · obtain rfl := Frame.array.inj hits
    obtain ⟨doc, hassign, rfl⟩ := Option.map_eq_some_iff.mp hemit
    exact Or.inr ⟨more, Document.get?_assign_array hassign⟩
  · exact hkeeps.started hstarted

theorem keeps_closeTable {entries : List (Address × Value)} {key : Address}
    (hemit : r.emit ⟨t, fs⟩ v = some r') :
    Keeps r.doc (some ⟨t, .table entries key :: fs⟩) r' := by
  have hkeeps := keeps_emit hemit
  refine ⟨hkeeps.stored, fun hstarted => hkeeps.started ?_⟩
  simpa [started_cons_iff] using hstarted

/-! ### One step -/

theorem keeps_stepAfter (hmode : r.mode.pending? = none) (hstep : r.stepAfter c = some r') :
    Keeps r.doc none r' := by
  rw [stepAfter] at hstep
  split at hstep
  case isTrue => exact keeps_of_some hstep hmode
  case isFalse =>
  split at hstep
  case isTrue => exact keeps_of_setMode hstep rfl
  case isFalse =>
  split at hstep
  case isTrue => exact keeps_of_setMode hstep rfl
  case isFalse => cases hstep

theorem keeps_stepNext (hmode : r.mode.pending? = some p) (hstep : r.stepNext p c = some r') :
    Keeps r.doc (some p) r' := by
  obtain ⟨target, frames⟩ := p
  cases frames with
  | nil => cases hstep
  | cons f frames =>
  cases f with
  | array its =>
      simp only [stepNext] at hstep
      split at hstep
      · exact keeps_of_some hstep hmode
      split at hstep
      · exact keeps_of_setMode hstep rfl
      split at hstep
      · exact keeps_of_setMode hstep rfl
      split at hstep
      · exact keeps_closeArray hstep
      · cases hstep
  | table entries key =>
      simp only [stepNext] at hstep
      split at hstep
      · exact keeps_of_some hstep hmode
      split at hstep
      · exact keeps_of_setMode hstep rfl
      split at hstep
      · exact keeps_closeTable hstep
      · cases hstep

theorem keeps_emitBefore (hstep : r.emitBefore p v c = some r') : Keeps r.doc (some p) r' := by
  obtain ⟨r'', hemit, hnext⟩ := Option.bind_eq_some_iff.mp hstep
  refine (keeps_emit hemit).trans ?_
  split at hnext
  case h_1 hmode =>
      rw [hmode]
      exact keeps_stepAfter (by rw [hmode]; rfl) hnext
  case h_2 p' hmode =>
      rw [hmode]
      exact keeps_stepNext (by rw [hmode]; rfl) hnext
  case h_3 => cases hnext

theorem keeps_stepValue (hmode : r.mode.pending? = some p) (hstep : r.stepValue p c = some r') :
    Keeps r.doc (some p) r' := by
  rw [stepValue] at hstep
  split at hstep
  · exact keeps_of_some hstep hmode
  split at hstep
  · exact keeps_of_setMode hstep rfl
  split at hstep
  · exact keeps_of_setMode hstep rfl
  split at hstep
  · exact keeps_push hstep rfl
  split at hstep
  · exact keeps_push hstep rfl
  split at hstep
  · exact keeps_of_setMode hstep rfl
  obtain ⟨target, frames⟩ := p
  dsimp only at hstep
  split at hstep
  case h_1 its frames' =>
      split at hstep
      · exact keeps_of_some hstep hmode
      split at hstep
      · exact keeps_of_setMode hstep rfl
      split at hstep
      · exact keeps_closeArray hstep
      · cases hstep
  case h_2 => cases hstep

theorem keeps_stepSingle {s : Str} (hstep : r.stepSingle s p c = some r') :
    Keeps r.doc (some p) r' := by
  rw [stepSingle] at hstep
  split at hstep
  · exact keeps_emit hstep
  · obtain ⟨s', -, hmode⟩ := Option.map_eq_some_iff.mp hstep
    exact keeps_of_setMode (congrArg some hmode) rfl

theorem keeps_stepMulti {s : Str} {fresh : Bool} {quotes : Nat}
    (hstep : r.stepMulti s fresh quotes p c = some r') : Keeps r.doc (some p) r' := by
  rw [stepMulti] at hstep
  split at hstep
  · split at hstep
    · exact keeps_of_setMode hstep rfl
    · cases hstep
  split at hstep
  · exact keeps_emitBefore hstep
  split at hstep
  · exact keeps_of_setMode hstep rfl
  · obtain ⟨s', -, hmode⟩ := Option.map_eq_some_iff.mp hstep
    exact keeps_of_setMode (congrArg some hmode) rfl

/-- A table that is opened takes nothing away, and no value is being read. -/
theorem keeps_endKey {parts : List Text} {use : KeyUse}
    (hstep : r.endKey parts use c = some r') : Keeps r.doc use.pending? r' := by
  cases use with
  | assign =>
      rw [endKey] at hstep
      split at hstep
      · obtain rfl := Option.some.inj hstep
        exact keeps_of_not_started (fun hget => hget) not_started_none
      · cases hstep
  | header =>
      simp only [endKey] at hstep
      split at hstep
      · obtain ⟨opened, hopen, rfl⟩ := Option.map_eq_some_iff.mp hstep
        refine keeps_of_not_started (fun hget => ?_) not_started_none
        have hvalues := Document.values_openTable hopen
        exact Document.get?_of_values (by rw [hvalues, List.append_nil]) hget
      · cases hstep
  | element =>
      rw [endKey] at hstep
      split at hstep
      · exact keeps_of_setMode hstep rfl
      · cases hstep
  | member p =>
      obtain ⟨target, frames⟩ := p
      simp only [endKey] at hstep
      split at hstep
      case h_1 entries key frames' =>
          split at hstep
          · obtain rfl := Option.some.inj hstep
            exact ⟨fun hget => hget, fun hstarted => Or.inl (started_table.mp hstarted)⟩
          · cases hstep
      case h_2 => cases hstep

theorem keeps_stepKey {parts : List Text} {km : KeyMode} {use : KeyUse}
    (hmode : r.mode.pending? = use.pending?) (hstep : r.stepKey parts km use c = some r') :
    Keeps r.doc use.pending? r' := by
  cases km with
  | part =>
      simp only [stepKey] at hstep
      split at hstep
      · exact keeps_of_some hstep hmode
      split at hstep
      · exact keeps_of_setMode hstep rfl
      split at hstep
      · exact keeps_of_setMode hstep rfl
      split at hstep
      · exact keeps_of_setMode hstep rfl
      split at hstep
      case h_1 p =>
          split at hstep
          · exact keeps_stepNext hmode hstep
          · cases hstep
      case h_2 => cases hstep
  | bare text =>
      simp only [stepKey] at hstep
      split at hstep
      · exact keeps_of_setMode hstep rfl
      split at hstep
      · exact keeps_of_setMode hstep rfl
      split at hstep
      · exact keeps_of_setMode hstep rfl
      · exact keeps_endKey hstep
  | quoted s =>
      simp only [stepKey] at hstep
      split at hstep
      · exact keeps_of_setMode hstep rfl
      · obtain ⟨s', -, hmode'⟩ := Option.map_eq_some_iff.mp hstep
        exact keeps_of_setMode (congrArg some hmode') rfl
  | behind =>
      simp only [stepKey] at hstep
      split at hstep
      · exact keeps_of_some hstep hmode
      split at hstep
      · exact keeps_of_setMode hstep rfl
      · exact keeps_endKey hstep

theorem keeps_step (hstep : r.step c = some r') : Keeps r.doc r.mode.pending? r' := by
  obtain ⟨doc, table, mode⟩ := r
  cases mode with
  | start =>
      simp only [step] at hstep
      split at hstep
      · exact keeps_of_some hstep rfl
      split at hstep
      · exact keeps_of_setMode hstep rfl
      split at hstep
      · exact keeps_of_setMode hstep rfl
      · exact keeps_stepKey rfl hstep
  | comment =>
      simp only [step] at hstep
      split at hstep
      · exact keeps_of_setMode hstep rfl
      · exact keeps_of_some hstep rfl
  | after => exact keeps_stepAfter rfl hstep
  | bracket =>
      simp only [step] at hstep
      split at hstep
      · exact keeps_of_setMode hstep rfl
      · exact keeps_stepKey (r := setMode _ _) rfl hstep
  | key parts km use => exact keeps_stepKey rfl hstep
  | close parts =>
      simp only [step] at hstep
      split at hstep
      · obtain ⟨opened, hopen, rfl⟩ := Option.map_eq_some_iff.mp hstep
        refine keeps_of_not_started (fun hget => ?_) not_started_none
        have hvalues := Document.values_openElement hopen
        exact Document.get?_of_values (by rw [hvalues, List.append_nil]) hget
      · cases hstep
  | value p => exact keeps_stepValue rfl hstep
  | next p => exact keeps_stepNext rfl hstep
  | commentIn p behind =>
      simp only [step] at hstep
      split at hstep
      · refine keeps_of_setMode hstep ?_
        cases behind <;> rfl
      · exact keeps_of_some hstep rfl
  | quoteOne quote p =>
      simp only [step] at hstep
      split at hstep
      · exact keeps_of_setMode hstep rfl
      · exact keeps_stepSingle hstep
  | quoteTwo quote p =>
      simp only [step] at hstep
      split at hstep
      · exact keeps_of_setMode hstep rfl
      · exact keeps_emitBefore hstep
  | single s p => exact keeps_stepSingle hstep
  | multi s fresh quotes p => exact keeps_stepMulti hstep
  | bare text p =>
      simp only [step] at hstep
      split at hstep
      · exact keeps_of_setMode hstep rfl
      · exact keeps_emitBefore hstep

/-- Nothing is taken back in a whole run. -/
theorem keeps_run {text : Text} (hrun : r.run text = some r') :
    Keeps r.doc r.mode.pending? r' := by
  induction text generalizing r with
  | nil =>
      obtain rfl := Option.some.inj hrun
      exact keeps_refl r
  | cons c text ih =>
      obtain ⟨r'', hstep, hrest⟩ := Option.bind_eq_some_iff.mp hrun
      exact (keeps_step hstep).trans (ih hrest)

end Reader

end GrpcM.Toml
