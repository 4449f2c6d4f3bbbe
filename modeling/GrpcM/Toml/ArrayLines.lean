import GrpcM.Toml.Stored

/-!
An array of strings with one string on a line. A string whose characters stand for
themselves is read as it is written; of any other less is read, whatever the lines
behind it turn into.
-/

namespace GrpcM.Toml

open GrpcM.Path

def itemLine (blanks w : Text) : Text := blanks ++ '"' :: (w ++ ['"', ',', '\n'])

def commentLine (blanks w : Text) : Text := blanks ++ '#' :: (w ++ ['\n'])

namespace Reader

variable {r r' : Reader} {a : Address} {items : List Value} {fs : List Frame} {p : Pending}
  {blanks w rest : Text}

/-- An array that is the value of `a` has just been opened. -/
def opensAt (r : Reader) (a : Address) : Bool :=
  match r.mode with
  | .value ⟨target, [.array []]⟩ => target = a
  | _ => false

theorem eq_of_opensAt (hopens : r.opensAt a = true) :
    r = r.setMode (.value ⟨a, [.array []]⟩) := by
  obtain ⟨doc, table, mode⟩ := r
  simp only [opensAt] at hopens
  split at hopens
  case h_1 =>
      obtain rfl := of_decide_eq_true hopens
      rfl
  case h_2 => cases hopens

theorem run_item (hblanks : blanks.all isWs = true) (hne : w ≠ []) (hw : ∀ c ∈ w, IsPlain c) :
    (r.setMode (.value ⟨a, .array items :: fs⟩)).run (itemLine blanks w) =
      some (r.setMode (.value ⟨a, .array (items ++ [.string w]) :: fs⟩)) := by
  cases w with
  | nil => exact absurd rfl hne
  | cons c w =>
      obtain ⟨hc, hw⟩ := List.forall_mem_cons.mp hw
      have hquote := run_quote (r := r) (p := ⟨a, .array items :: fs⟩) hc hw
      rw [itemLine, run_append, run_blanks hblanks, Option.bind_some, List.cons_append,
        ← List.cons_append, ← List.cons_append, run_append, hquote]
      rfl

theorem run_commentIn {behind : Bool} (hw : '\n' ∉ w) :
    (r.setMode (.commentIn p behind)).run w = some (r.setMode (.commentIn p behind)) := by
  induction w with
  | nil => rfl
  | cons c w ih =>
      rw [List.mem_cons, not_or] at hw
      have hstep : (r.setMode (.commentIn p behind)).step c =
          some (r.setMode (.commentIn p behind)) := by
        simp [step, Ne.symm hw.1]
      rw [run_cons, hstep, Option.bind_some, ih hw.2]

theorem run_comment (hblanks : blanks.all isWs = true) (hw : '\n' ∉ w) :
    (r.setMode (.value ⟨a, .array items :: fs⟩)).run (commentLine blanks w) =
      some (r.setMode (.value ⟨a, .array items :: fs⟩)) := by
  have hopen : (r.setMode (.value ⟨a, .array items :: fs⟩)).step '#' =
      some (r.setMode (.commentIn ⟨a, .array items :: fs⟩ false)) := rfl
  rw [commentLine, run_append, run_blanks hblanks, Option.bind_some, run_cons, hopen,
    Option.bind_some, run_append, run_commentIn hw]
  rfl

theorem run_comments {ws : List Text} (hblanks : blanks.all isWs = true)
    (hws : ∀ w ∈ ws, '\n' ∉ w) :
    (r.setMode (.value ⟨a, .array items :: fs⟩)).run (ws.flatMap (commentLine blanks)) =
      some (r.setMode (.value ⟨a, .array items :: fs⟩)) := by
  induction ws with
  | nil => rfl
  | cons w ws ih =>
      obtain ⟨hw, hws⟩ := List.forall_mem_cons.mp hws
      rw [List.flatMap_cons, run_append, run_comment hblanks hw, Option.bind_some, ih hws]

/-- A quote that ends a string before the end of the line ends what is written as one, or comes
before. -/
theorem eq_or_length_lt {u rest' : Text}
    (htext : w ++ '"' :: ',' :: '\n' :: rest = u ++ '"' :: rest') (hu : '\n' ∉ u) :
    u = w ∨ u.length < w.length := by
  rcases List.append_eq_append_iff.mp htext with ⟨v, rfl, hrest⟩ | ⟨v, rfl, -⟩
  · -- behind the written quote no other one comes before the end of the line
    cases v with
    | nil => exact Or.inl (List.append_nil w)
    | cons b v =>
    cases v with
    | nil => simp at hrest
    | cons b' v =>
    cases v with
    | nil => simp at hrest
    | cons b'' v =>
        simp only [List.cons_append, List.cons.injEq] at hrest
        obtain ⟨-, -, rfl, -⟩ := hrest
        simp at hu
  · cases v with
    | nil => exact Or.inl (List.append_nil u).symm
    | cons b v => exact Or.inr (by simp)

/-- A line that is not plain, and what comes behind it. -/
theorem exists_shorter (hblanks : blanks.all isWs = true) {c : Char} (hc : IsPlain c)
    (hw : ∃ c ∈ w, ¬IsPlain c)
    (hrun : (r.setMode (.value ⟨a, [.array items]⟩)).run (itemLine blanks (c :: w) ++ rest) =
      some r') :
    ∃ x, x.length < (c :: w).length ∧ r'.Holds a (items ++ [.string x]) := by
  have hquote := run_quote (r := r) (p := ⟨a, [.array items]⟩) hc (t := []) nofun
  have hsplit : itemLine blanks (c :: w) ++ rest =
      blanks ++ (['"', c] ++ (w ++ '"' :: ',' :: '\n' :: rest)) := by
    simp [itemLine]
  rw [hsplit, run_append, run_blanks hblanks, Option.bind_some, run_append, hquote,
    Option.bind_some] at hrun
  obtain ⟨u, rest', x, ⟨htext, hu, hemit⟩, hlength, hshort⟩ :=
    exists_end (Or.inl rfl) (by simp) hrun
  refine ⟨x, ?_, ?_⟩
  · rw [List.length_singleton] at hlength hshort
    rw [List.length_cons]
    rcases eq_or_length_lt htext hu with rfl | hlt
    · have := hshort rfl hw
      omega
    · omega
  · have hheld : (r.setMode (.next ⟨a, [.array (items ++ [.string x])]⟩)).Holds a
        (items ++ [.string x]) := Or.inl ⟨[], [], by simp [Mode.pending?]⟩
    exact (keeps_run hemit).holds hheld

/-- An array that is opened is stored when the text ends well. -/
theorem exists_get?_of_run (hmode : r'.mode.pending? = none)
    (hrun : (r.setMode (.value ⟨a, [.array items]⟩)).run rest = some r') :
    ∃ more, r'.doc.get? a = some (.array (items ++ more)) := by
  have hheld : (r.setMode (.value ⟨a, [.array items]⟩)).Holds a items :=
    Or.inl ⟨[], [], by simp [Mode.pending?]⟩
  exact ((keeps_run hrun).holds hheld).resolve_left (by rw [hmode]; exact not_started_none)

theorem get?_of_close (hrun : (r.setMode (.value ⟨a, [.array items]⟩)).run (']' :: rest) = some r') :
    r'.doc.get? a = some (.array items) := by
  obtain ⟨r'', hstep, hrest⟩ := Option.bind_eq_some_iff.mp hrun
  obtain ⟨doc, hassign, rfl⟩ := Option.map_eq_some_iff.mp hstep
  exact (keeps_run hrest).stored (Document.get?_assign_array hassign)

/-- An array is read as it is written if and only if every character in it stands for
itself. -/
theorem get?_lines_iff {ws : List Text} (hblanks : blanks.all isWs = true)
    (hws : ∀ w ∈ ws, ∃ c ∈ w.head?, IsPlain c) (hmode : r'.mode.pending? = none)
    (hrun : (r.setMode (.value ⟨a, [.array items]⟩)).run
      (ws.flatMap (itemLine blanks) ++ ']' :: rest) = some r') :
    r'.doc.get? a = some (.array (items ++ ws.map .string)) ↔ ∀ w ∈ ws, ∀ c ∈ w, IsPlain c := by
  induction ws generalizing items with
  | nil => simpa using get?_of_close hrun
  | cons w ws ih =>
      obtain ⟨⟨c, hhead, hc⟩, htail⟩ := List.forall_mem_cons.mp hws
      obtain ⟨w, rfl⟩ := List.head?_eq_some_iff.mp hhead
      rw [List.flatMap_cons, List.append_assoc] at hrun
      rw [List.forall_mem_cons]
      by_cases hplain : ∀ c' ∈ c :: w, IsPlain c'
      · rw [run_append, run_item hblanks (List.cons_ne_nil c w) hplain, Option.bind_some] at hrun
        have hrest := ih htail hrun
        rw [List.append_assoc, List.singleton_append] at hrest
        rw [List.map_cons, hrest, and_iff_right hplain]
      · have hnot : ∃ c' ∈ w, ¬IsPlain c' := by
          simpa [hc] using hplain
        obtain ⟨x, hlength, hholds⟩ := exists_shorter hblanks hc hnot hrun
        obtain ⟨more, hget⟩ := hholds.resolve_left (by rw [hmode]; exact not_started_none)
        refine iff_of_false (fun hread => ?_) fun hall => hplain hall.1
        rw [hget, List.append_assoc] at hread
        have hitems := List.append_cancel_left (Value.array.inj (Option.some.inj hread))
        obtain rfl := Value.string.inj (List.cons.inj hitems).1
        exact absurd hlength (Nat.lt_irrefl _)

end Reader

end GrpcM.Toml
