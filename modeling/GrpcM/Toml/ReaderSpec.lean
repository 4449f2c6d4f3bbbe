import GrpcM.Toml.Reader

/-!
What the reader does on the parts of an array of strings, and that it never
takes a value back.
-/

namespace GrpcM.Toml

open GrpcM.Path

/-! ### The characters of a string -/

/-- The characters of a basic string that stand for themselves. -/
def IsPlain (c : Char) : Prop := c ≠ '"' ∧ c ≠ '\\' ∧ c ≠ '\n'

instance : DecidablePred IsPlain := fun _ => inferInstanceAs (Decidable (_ ∧ _ ∧ _))

theorem Str.push_no (text : Text) (c : Char) :
    (Str.push ⟨.basic, text, .no⟩ false c) =
      if c = '\\' then some ⟨.basic, text, .slash⟩
      else if c = '\n' then none
      else some ⟨.basic, text ++ [c], .no⟩ := by
  simp [Str.push, Str.plain]

inductive Escape.Inside : Escape → Prop where
  | slash : Inside .slash
  | hex (left value : Nat) : Inside (.hex left value)

theorem hexDigit_lineFeed : hexDigit '\n' = none := rfl

theorem escaped_lineFeed : escaped '\n' = none := rfl

/-- An escape adds at most one character, at its end. -/
theorem Str.push_inside {c : Char} {text : Text} {escape : Escape} (hinside : escape.Inside) {s : Str}
    (hpush : Str.push ⟨.basic, text, escape⟩ false c = some s) :
    c ≠ '\n' ∧ ((∃ e, s = ⟨.basic, text ++ [e], .no⟩) ∨
      ∃ escape', escape'.Inside ∧ s = ⟨.basic, text, escape'⟩) := by
  cases hinside with
  | slash =>
      simp only [Str.push, Bool.false_and, Bool.false_eq_true, if_false] at hpush
      split at hpush
      case isTrue hc =>
          obtain rfl := Option.some.inj hpush
          exact ⟨by simp [hc], Or.inr ⟨_, .hex 4 0, rfl⟩⟩
      case isFalse =>
      split at hpush
      case isTrue hc =>
          obtain rfl := Option.some.inj hpush
          exact ⟨by simp [hc], Or.inr ⟨_, .hex 8 0, rfl⟩⟩
      case isFalse =>
          obtain ⟨e, hescaped, rfl⟩ := Option.map_eq_some_iff.mp hpush
          refine ⟨?_, Or.inl ⟨e, rfl⟩⟩
          rintro rfl
          rw [escaped_lineFeed] at hescaped
          cases hescaped
  | hex left value =>
      obtain ⟨digit, hdigit, hrest⟩ := Option.bind_eq_some_iff.mp hpush
      refine ⟨?_, ?_⟩
      · rintro rfl
        rw [hexDigit_lineFeed] at hdigit
        cases hdigit
      · split at hrest
        case isTrue =>
            obtain rfl := Option.some.inj hrest
            exact Or.inr ⟨_, .hex _ _, rfl⟩
        case isFalse =>
            split at hrest
            case isTrue =>
                obtain rfl := Option.some.inj hrest
                exact Or.inl ⟨_, rfl⟩
            case isFalse => cases hrest

namespace Reader

variable {r r' : Reader} {c : Char} {p : Pending} {a : Address} {v : Value}

@[simp] theorem setMode_doc (r : Reader) (mode : Mode) : (r.setMode mode).doc = r.doc := rfl

@[simp] theorem setMode_mode (r : Reader) (mode : Mode) : (r.setMode mode).mode = mode := rfl

@[simp] theorem setMode_setMode (r : Reader) (mode mode' : Mode) :
    (r.setMode mode).setMode mode' = r.setMode mode' := rfl

@[simp] theorem run_nil (r : Reader) : r.run [] = some r := rfl

@[simp] theorem run_cons (r : Reader) (c : Char) (t : Text) :
    r.run (c :: t) = (r.step c).bind (·.run t) := rfl

theorem run_append (r : Reader) (t t' : Text) : r.run (t ++ t') = (r.run t).bind (·.run t') := by
  rw [run, List.foldlM_append]
  rfl

@[simp] theorem emit_setMode (r : Reader) (mode : Mode) (p : Pending) (v : Value) :
    (r.setMode mode).emit p v = r.emit p v := by
  obtain ⟨target, frames⟩ := p
  cases frames with
  | nil => rfl
  | cons frame frames => cases frame <;> rfl

/-! ### The lines of an array of strings -/

theorem run_blanks {t : Text} (ht : t.all isWs = true) :
    (r.setMode (.value p)).run t = some (r.setMode (.value p)) := by
  induction t with
  | nil => rfl
  | cons c t ih =>
      rw [List.all_cons, Bool.and_eq_true] at ht
      have hstep : (r.setMode (.value p)).step c = some (r.setMode (.value p)) := by
        simp [step, stepValue, ht.1]
      rw [run_cons, hstep, Option.bind_some, ih ht.2]

theorem step_single_no (text : Text) (c : Char) :
    (r.setMode (.single ⟨.basic, text, .no⟩ p)).step c =
      if c = '"' then r.emit p (.string text)
      else if c = '\\' then some (r.setMode (.single ⟨.basic, text, .slash⟩ p))
      else if c = '\n' then none
      else some (r.setMode (.single ⟨.basic, text ++ [c], .no⟩ p)) := by
  by_cases hend : c = '"'
  · simp [step, stepSingle, Quote.char, hend]
  · by_cases hslash : c = '\\'
    · simp [step, stepSingle, Quote.char, Str.push_no, hslash]
    · by_cases hline : c = '\n'
      · simp [step, stepSingle, Quote.char, Str.push_no, hline]
      · simp [step, stepSingle, Quote.char, Str.push_no, hend, hslash, hline]

theorem run_plain {text t : Text} (ht : ∀ c ∈ t, IsPlain c) :
    (r.setMode (.single ⟨.basic, text, .no⟩ p)).run t =
      some (r.setMode (.single ⟨.basic, text ++ t, .no⟩ p)) := by
  induction t generalizing text with
  | nil => simp
  | cons c t ih =>
      obtain ⟨hend, hslash, hline⟩ := ht c List.mem_cons_self
      have hstep : (r.setMode (.single ⟨.basic, text, .no⟩ p)).step c =
          some (r.setMode (.single ⟨.basic, text ++ [c], .no⟩ p)) := by
        rw [step_single_no, if_neg hend, if_neg hslash, if_neg hline]
      rw [run_cons, hstep, Option.bind_some,
        ih fun c' hc' => ht c' (List.mem_cons_of_mem _ hc'), List.append_assoc,
        List.singleton_append]

/-- A string starts like this; an empty one is not seen to be one yet. -/
theorem run_quote {c : Char} (hc : IsPlain c) {t : Text} (ht : ∀ c ∈ t, IsPlain c) :
    (r.setMode (.value p)).run ('"' :: c :: t) =
      some (r.setMode (.single ⟨.basic, c :: t, .no⟩ p)) := by
  obtain ⟨hend, hslash, hline⟩ := hc
  have hopen : (r.setMode (.value p)).step '"' = some (r.setMode (.quoteOne .basic p)) := rfl
  have hfirst : (r.setMode (.quoteOne .basic p)).step c =
      some (r.setMode (.single ⟨.basic, [c], .no⟩ p)) := by
    simp [step, stepSingle, Str.push, Str.plain, Quote.char, hend, hslash, hline]
  rw [run_cons, hopen, Option.bind_some, run_cons, hfirst, Option.bind_some, run_plain ht,
    List.singleton_append]

/-! ### Any string on one line -/

/-- The string in `t` ends behind `u`; it is `x`, and the reader goes on behind it. -/
structure EndsAt (r : Reader) (p : Pending) (r' : Reader) (t u rest x : Text) : Prop where
  text_eq : t = u ++ '"' :: rest
  line_free : '\n' ∉ u
  run_eq : (r.emit p (.string x)).bind (·.run rest) = some r'

theorem EndsAt.cons {t u rest x : Text} (hends : EndsAt r p r' t u rest x) (hc : c ≠ '\n') :
    EndsAt r p r' (c :: t) (c :: u) rest x := by
  obtain ⟨rfl, hline, hrun⟩ := hends
  refine ⟨rfl, ?_, hrun⟩
  rw [List.mem_cons, not_or]
  exact ⟨Ne.symm hc, hline⟩

/-- A string that is read to its end ends on its line. It is as long as what is written,
and shorter where a character does not stand for itself. -/
theorem exists_end {text t : Text} {escape : Escape} (hescape : escape = .no ∨ escape.Inside)
    (hline : '\n' ∈ t)
    (hrun : (r.setMode (.single ⟨.basic, text, escape⟩ p)).run t = some r') :
    ∃ u rest x, EndsAt r p r' t u rest x ∧ x.length ≤ text.length + u.length ∧
      (escape = .no → (∃ c ∈ u, ¬IsPlain c) → x.length < text.length + u.length) := by
  induction t generalizing text escape with
  | nil => cases hline
  | cons c t ih =>
      obtain ⟨r'', hstep, hrest⟩ := Option.bind_eq_some_iff.mp hrun
      have hnext : ∀ {text' : Text} {escape' : Escape}, escape' = .no ∨ escape'.Inside → c ≠ '\n' →
          some (r.setMode (.single ⟨.basic, text', escape'⟩ p)) = some r'' → ∃ u rest x,
            EndsAt r p r' (c :: t) (c :: u) rest x ∧ x.length ≤ text'.length + u.length ∧
            (escape' = .no → (∃ c ∈ u, ¬IsPlain c) → x.length < text'.length + u.length) := by
        intro text' escape' hescape' hc hmode
        obtain rfl := Option.some.inj hmode
        have ht : '\n' ∈ t := (List.mem_cons.mp hline).resolve_left (Ne.symm hc)
        obtain ⟨u, rest, x, hends, hlength, hshort⟩ := ih hescape' ht hrest
        exact ⟨u, rest, x, hends.cons hc, hlength, hshort⟩
      rcases hescape with rfl | hinside
      · rw [step_single_no] at hstep
        split at hstep
        case isTrue hend =>
            subst hend
            refine ⟨[], t, text, ⟨rfl, List.not_mem_nil, ?_⟩, by simp, by simp⟩
            rw [hstep]
            exact hrest
        case isFalse hend =>
        split at hstep
        case isTrue hslash =>
            obtain ⟨u, rest, x, hends, hlength, -⟩ :=
              hnext (Or.inr .slash) (by simp [hslash]) hstep
            refine ⟨c :: u, rest, x, hends, ?_, fun _ _ => ?_⟩
            all_goals
              rw [List.length_cons]
              omega
        case isFalse hslash =>
        split at hstep
        case isTrue => cases hstep
        case isFalse hc =>
            obtain ⟨u, rest, x, hends, hlength, hshort⟩ := hnext (Or.inl rfl) hc hstep
            rw [List.length_append, List.length_singleton] at hlength hshort
            refine ⟨c :: u, rest, x, hends, ?_, ?_⟩
            · rw [List.length_cons]
              omega
            · rintro - ⟨c', hc', hplain⟩
              rcases List.mem_cons.mp hc' with rfl | hc'
              · exact absurd ⟨hend, hslash, hc⟩ hplain
              · have hlt := hshort rfl ⟨c', hc', hplain⟩
                rw [List.length_cons]
                omega
      · -- inside an escape a character adds at most one to the string
        obtain ⟨s, hpush, hmode⟩ : ∃ s, Str.push ⟨.basic, text, escape⟩ false c = some s ∧
            some (r.setMode (.single s p)) = some r'' := by
          simp only [step, setMode_mode, stepSingle, emit_setMode] at hstep
          rw [if_neg (by cases hinside <;> simp)] at hstep
          obtain ⟨s, hpush, rfl⟩ := Option.map_eq_some_iff.mp hstep
          exact ⟨s, hpush, rfl⟩
        obtain ⟨hc, hcases⟩ := Str.push_inside hinside hpush
        have hno : escape ≠ .no := by
          rintro rfl
          cases hinside
        obtain ⟨u, rest, x, hends, hlength⟩ : ∃ u rest x,
            EndsAt r p r' (c :: t) (c :: u) rest x ∧ x.length ≤ text.length + 1 + u.length := by
          rcases hcases with ⟨e, rfl⟩ | ⟨escape', hinside', rfl⟩
          · obtain ⟨u, rest, x, hends, hlength, -⟩ := hnext (Or.inl rfl) hc hmode
            rw [List.length_append, List.length_singleton] at hlength
            exact ⟨u, rest, x, hends, hlength⟩
          · obtain ⟨u, rest, x, hends, hlength, -⟩ := hnext (Or.inr hinside') hc hmode
            exact ⟨u, rest, x, hends, by omega⟩
        refine ⟨c :: u, rest, x, hends, ?_, fun heq => absurd heq hno⟩
        rw [List.length_cons]
        omega

end Reader

end GrpcM.Toml
