import Mathlib.Data.List.Basic
import Mathlib.Logic.Function.Basic
import Mathlib.Tactic.Common

/-!
Programs that print templates.

A program assigns texts to variables, prints templates that mention them and moves its
indentation. It stops at a variable without a value and at an outdent at the left margin.
What it prints is kept with its provenance: a value remembers the variable it stood for.

The judgment is `Prints β d d' cmds ws`. From every environment that extends `β`, the
program `cmds` prints `ws`, goes from depth `d` to depth `d'`, and leaves the variables of
`β` as they are. Nothing that stood in the other variables before is seen.
-/

namespace GrpcM.Templates

/-- One part of a template. A name that belongs to no variable, or that is not closed,
is `undefined`. -/
inductive Piece (ν : Type) where
  | text (t : List Char)
  | var (v : ν)
  | undefined (name : List Char)

abbrev Template (ν : Type) := List (Piece ν)

inductive Command (ν : Type) where
  | set (v : ν) (value : List Char)
  | print (template : Template ν)
  | printRaw (t : List Char)
  | indent
  | outdent

inductive Span (ν : Type) where
  | text (t : List Char)
  | value (v : ν) (t : List Char)

structure Write (ν : Type) where
  depth : ℕ
  spans : List (Span ν)

abbrev Env (ν : Type) := ν → Option (List Char)

structure State (ν : Type) where
  env : Env ν
  depth : ℕ

section Coercions

variable {ν : Type}

instance (s : String) : CoeT String s (Piece ν) := ⟨.text s.toList⟩

instance (v : ν) : CoeT ν v (Piece ν) := ⟨.var v⟩

end Coercions

/-- The characters of a literal. The literal is matched with `String.ofList`, so nothing is
decoded. -/
theorem toList_literal (t : List Char) : String.toList (no_index (String.ofList t)) = t :=
  String.toList_ofList

/-! ### Running a program -/

section Run

variable {ν : Type}

def Span.chars : Span ν → List Char
  | .text t => t
  | .value _ t => t

def Write.chars (w : Write ν) : List Char := w.spans.flatMap Span.chars

def Piece.fill (σ : Env ν) : Piece ν → Option (Span ν)
  | .text t => some (.text t)
  | .var v => (σ v).map (.value v)
  | .undefined _ => none

def fill (σ : Env ν) : Template ν → Option (List (Span ν))
  | [] => some []
  | p :: ps => do
      let span ← p.fill σ
      let spans ← fill σ ps
      return span :: spans

theorem fill_append {σ : Env ν} {a b : Template ν} {x y : List (Span ν)}
    (ha : fill σ a = some x) (hb : fill σ b = some y) : fill σ (a ++ b) = some (x ++ y) := by
  induction a generalizing x with
  | nil =>
      cases ha
      exact hb
  | cons p a ih =>
      rw [fill] at ha
      obtain ⟨span, hspan, ha⟩ := Option.bind_eq_some_iff.mp ha
      obtain ⟨spans, hspans, ha⟩ := Option.bind_eq_some_iff.mp ha
      cases ha
      rw [List.cons_append, fill, hspan, ih hspans]
      rfl

theorem fill_texts (σ : Env ν) (t : List Char) :
    fill σ (t.map fun c => .text [c]) = some (t.map fun c => .text [c]) := by
  induction t with
  | nil => rfl
  | cons c t ih =>
      rw [List.map_cons, fill, ih]
      rfl

variable [DecidableEq ν]

def step (s : State ν) : Command ν → Option (List (Write ν) × State ν)
  | .set v t => some ([], { s with env := Function.update s.env v (some t) })
  | .print template => (fill s.env template).map fun spans => ([⟨s.depth, spans⟩], s)
  | .printRaw t => some ([⟨s.depth, [.text t]⟩], s)
  | .indent => some ([], { s with depth := s.depth + 1 })
  | .outdent => if s.depth = 0 then none else some ([], { s with depth := s.depth - 1 })

def run : List (Command ν) → State ν → Option (List (Write ν) × State ν)
  | [], s => some ([], s)
  | c :: cs, s => do
      let (ws, s) ← step s c
      let (ws', s) ← run cs s
      return (ws ++ ws', s)

theorem run_cons_eq_some {c : Command ν} {cs : List (Command ν)} {s s' : State ν}
    {ws : List (Write ν)} :
    run (c :: cs) s = some (ws, s') ↔
      ∃ w s₁ ws', step s c = some (w, s₁) ∧ run cs s₁ = some (ws', s') ∧ ws = w ++ ws' := by
  rw [run]
  constructor
  · intro h
    obtain ⟨⟨w, s₁⟩, hstep, h⟩ := Option.bind_eq_some_iff.mp h
    obtain ⟨⟨ws', s₂⟩, hrun, h⟩ := Option.bind_eq_some_iff.mp h
    cases h
    exact ⟨w, s₁, ws', hstep, hrun, rfl⟩
  · rintro ⟨w, s₁, ws', hstep, hrun, rfl⟩
    simp only [hstep, hrun, Option.bind_eq_bind, Option.bind_some, Option.pure_def]

theorem run_append {a b : List (Command ν)} {s s₁ s' : State ν} {ws ws' : List (Write ν)}
    (ha : run a s = some (ws, s₁)) (hb : run b s₁ = some (ws', s')) :
    run (a ++ b) s = some (ws ++ ws', s') := by
  induction a generalizing s ws with
  | nil =>
      cases ha
      exact hb
  | cons c a ih =>
      obtain ⟨w, s₂, ws₂, hstep, hrest, rfl⟩ := run_cons_eq_some.mp ha
      rw [List.append_assoc]
      exact run_cons_eq_some.mpr ⟨w, s₂, ws₂ ++ ws', hstep, ih hrest, rfl⟩

theorem run_of_append {a b : List (Command ν)} {s s₁ s' : State ν} {ws ws' : List (Write ν)}
    (ha : run a s = some (ws, s₁)) (hab : run (a ++ b) s = some (ws', s')) :
    ∃ rest, ws' = ws ++ rest := by
  induction a generalizing s ws ws' with
  | nil =>
      cases ha
      exact ⟨ws', rfl⟩
  | cons c a ih =>
      obtain ⟨w, s₂, ws₂, hstep, hrest, rfl⟩ := run_cons_eq_some.mp ha
      obtain ⟨w', s₂', ws₂', hstep', hrest', rfl⟩ := run_cons_eq_some.mp hab
      rw [hstep] at hstep'
      cases hstep'
      obtain ⟨rest, rfl⟩ := ih hrest hrest'
      exact ⟨rest, (List.append_assoc ..).symm⟩

end Run

/-! ### Environments that agree -/

section Extends

variable {ν : Type}

/-- Every variable of `β` has its value in `σ`. -/
def Extends (β σ : Env ν) : Prop := ∀ v t, β v = some t → σ v = some t

theorem Extends.refl (β : Env ν) : Extends β β := fun _ _ h => h

theorem Extends.trans {β σ τ : Env ν} (h : Extends β σ) (h' : Extends σ τ) : Extends β τ :=
  fun v t hv => h' v t (h v t hv)

theorem Extends.fill {β σ : Env ν} (h : Extends β σ) {template : Template ν}
    {spans : List (Span ν)} (hfill : fill β template = some spans) :
    fill σ template = some spans := by
  induction template generalizing spans with
  | nil => exact hfill
  | cons p ps ih =>
      rw [Templates.fill] at hfill ⊢
      obtain ⟨span, hspan, hfill⟩ := Option.bind_eq_some_iff.mp hfill
      obtain ⟨spans', hspans, hfill⟩ := Option.bind_eq_some_iff.mp hfill
      have hp : p.fill σ = some span := by
        cases p with
        | text t => exact hspan
        | var v =>
            obtain ⟨t, hv, rfl⟩ := Option.map_eq_some_iff.mp hspan
            exact Option.map_eq_some_iff.mpr ⟨t, h v t hv, rfl⟩
        | undefined name => cases hspan
      rw [hp, ih hspans]
      exact hfill

variable [DecidableEq ν]

theorem Extends.update {β σ : Env ν} (h : Extends β σ) (v : ν) (t : List Char) :
    Extends (Function.update β v (some t)) (Function.update σ v (some t)) := by
  intro u x hu
  by_cases huv : u = v
  · subst huv
    rwa [Function.update_self] at hu ⊢
  · rw [Function.update_of_ne huv] at hu ⊢
    exact h u x hu

theorem Extends.of_update {β σ : Env ν} {v : ν} {t : List Char} (hv : β v = none)
    (h : Extends (Function.update β v (some t)) σ) : Extends β σ := by
  intro u x hu
  have huv : u ≠ v := by
    rintro rfl
    rw [hv] at hu
    cases hu
  exact h u x (by rwa [Function.update_of_ne huv])

/-- A larger environment prints the same. -/
theorem Extends.run {β σ : Env ν} (h : Extends β σ) {cmds : List (Command ν)} {d d' : ℕ}
    {ws : List (Write ν)} {β' : Env ν} (hrun : run cmds ⟨β, d⟩ = some (ws, ⟨β', d'⟩)) :
    ∃ σ', Extends β' σ' ∧ run cmds ⟨σ, d⟩ = some (ws, ⟨σ', d'⟩) := by
  induction cmds generalizing β σ d ws with
  | nil =>
      cases hrun
      exact ⟨σ, h, rfl⟩
  | cons c cmds ih =>
      obtain ⟨w, ⟨β₁, d₁⟩, ws', hstep, hrest, rfl⟩ := run_cons_eq_some.mp hrun
      have hstep' : ∃ σ₁, Extends β₁ σ₁ ∧ step ⟨σ, d⟩ c = some (w, ⟨σ₁, d₁⟩) := by
        cases c with
        | set v t =>
            cases hstep
            exact ⟨_, h.update v t, rfl⟩
        | print template =>
            obtain ⟨spans, hfill, hstep⟩ := Option.map_eq_some_iff.mp hstep
            cases hstep
            exact ⟨σ, h, Option.map_eq_some_iff.mpr ⟨spans, h.fill hfill, rfl⟩⟩
        | printRaw t =>
            cases hstep
            exact ⟨σ, h, rfl⟩
        | indent =>
            cases hstep
            exact ⟨σ, h, rfl⟩
        | outdent =>
            rw [step] at hstep ⊢
            split at hstep
            case isTrue => cases hstep
            case isFalse hd =>
                cases hstep
                exact ⟨σ, h, if_neg hd⟩
      obtain ⟨σ₁, hext, hstep'⟩ := hstep'
      obtain ⟨σ', hext', hrun'⟩ := ih hext hrest
      exact ⟨σ', hext', run_cons_eq_some.mpr ⟨w, _, ws', hstep', hrun', rfl⟩⟩

end Extends

/-! ### The judgment -/

section Prints

variable {ν : Type} [DecidableEq ν]

def assigned (cmds : List (Command ν)) : List ν :=
  cmds.filterMap fun
    | .set v _ => some v
    | _ => none

/-- What is not assigned to stays as it was. -/
theorem run_frame {cmds : List (Command ν)} {β β' : Env ν} {d d' : ℕ} {ws : List (Write ν)}
    (hrun : run cmds ⟨β, d⟩ = some (ws, ⟨β', d'⟩)) {v : ν} (hv : v ∉ assigned cmds) :
    β' v = β v := by
  induction cmds generalizing β d ws with
  | nil =>
      cases hrun
      rfl
  | cons c cmds ih =>
      obtain ⟨w, ⟨β₁, d₁⟩, ws', hstep, hrest, rfl⟩ := run_cons_eq_some.mp hrun
      cases c with
      | set u t =>
          cases hstep
          have hne : v ≠ u ∧ v ∉ assigned cmds := by simpa [assigned] using hv
          rw [ih hrest hne.2, Function.update_of_ne hne.1]
      | print template =>
          obtain ⟨spans, hfill, hstep⟩ := Option.map_eq_some_iff.mp hstep
          cases hstep
          exact ih hrest hv
      | printRaw t =>
          cases hstep
          exact ih hrest hv
      | indent =>
          cases hstep
          exact ih hrest hv
      | outdent =>
          rw [step] at hstep
          split at hstep
          case isTrue => cases hstep
          case isFalse =>
              cases hstep
              exact ih hrest hv

/-- From every environment that extends `β` the program prints `ws`, and it keeps `β`. -/
def Prints (β : Env ν) (d d' : ℕ) (cmds : List (Command ν)) (ws : List (Write ν)) : Prop :=
  ∀ σ, Extends β σ → ∃ σ', Extends β σ' ∧ run cmds ⟨σ, d⟩ = some (ws, ⟨σ', d'⟩)

/-- One run in the least environment decides. -/
theorem Prints.of_run {β β' : Env ν} {d d' : ℕ} {cmds : List (Command ν)}
    {ws : List (Write ν)} (hrun : run cmds ⟨β, d⟩ = some (ws, ⟨β', d'⟩))
    (hfresh : ∀ v ∈ assigned cmds, β v = none) : Prints β d d' cmds ws := by
  intro σ hσ
  obtain ⟨σ', hσ', hrun'⟩ := hσ.run hrun
  refine ⟨σ', Extends.trans (fun v t hv => ?_) hσ', hrun'⟩
  rw [run_frame hrun (fun hmem => by rw [hfresh v hmem] at hv; cases hv), hv]

/-- The same with both conditions computed. -/
theorem Prints.straight {β β' : Env ν} {d d' : ℕ} {cmds : List (Command ν)}
    {ws : List (Write ν)} (hrun : Templates.run cmds ⟨β, d⟩ = some (ws, ⟨β', d'⟩))
    (hfresh : (assigned cmds).all (fun v => (β v).isNone) = true) : Prints β d d' cmds ws :=
  .of_run hrun fun v hv => Option.isNone_iff_eq_none.mp (List.all_eq_true.mp hfresh v hv)

theorem Prints.run {β : Env ν} {d d' : ℕ} {cmds : List (Command ν)} {ws : List (Write ν)}
    (h : Prints β d d' cmds ws) : ∃ β', Extends β β' ∧
      run cmds ⟨β, d⟩ = some (ws, ⟨β', d'⟩) :=
  h β (.refl β)

theorem Prints.nil {β : Env ν} {d : ℕ} : Prints β d d [] [] :=
  fun σ hσ => ⟨σ, hσ, rfl⟩

theorem Prints.append {β : Env ν} {d d₁ d' : ℕ} {a b : List (Command ν)}
    {ws ws' : List (Write ν)} (ha : Prints β d d₁ a ws) (hb : Prints β d₁ d' b ws') :
    Prints β d d' (a ++ b) (ws ++ ws') := by
  intro σ hσ
  obtain ⟨σ₁, hσ₁, hrun₁⟩ := ha σ hσ
  obtain ⟨σ', hσ', hrun'⟩ := hb σ₁ hσ₁
  exact ⟨σ', hσ', run_append hrun₁ hrun'⟩

/-- A variable that is assigned before the rest belongs to the environment of the rest. -/
theorem Prints.set {β : Env ν} {d d' : ℕ} {v : ν} {t : List Char}
    {cmds : List (Command ν)} {ws : List (Write ν)} (hv : β v = none)
    (h : Prints (Function.update β v (some t)) d d' cmds ws) :
    Prints β d d' (.set v t :: cmds) ws := by
  intro σ hσ
  obtain ⟨σ', hσ', hrun⟩ := h _ (hσ.update v t)
  exact ⟨σ', hσ'.of_update hv, run_cons_eq_some.mpr ⟨[], _, ws, rfl, hrun, rfl⟩⟩

theorem Prints.print {β : Env ν} {d : ℕ} {template : Template ν} {spans : List (Span ν)}
    (h : fill β template = some spans) : Prints β d d [.print template] [⟨d, spans⟩] :=
  fun σ hσ => ⟨σ, hσ, by simp [Templates.run, step, hσ.fill h]⟩

theorem Prints.indent {β : Env ν} {d : ℕ} : Prints β d (d + 1) [.indent] [] :=
  fun σ hσ => ⟨σ, hσ, rfl⟩

theorem Prints.outdent {β : Env ν} {d : ℕ} : Prints β (d + 1) d [.outdent] [] :=
  fun σ hσ => ⟨σ, hσ, rfl⟩

/-- A loop whose rounds each return to the depth they start from. -/
theorem Prints.flatMap {α : Type} {β : Env ν} {d : ℕ} {f : α → List (Command ν)}
    {w : α → List (Write ν)} {xs : List α} (h : ∀ x ∈ xs, Prints β d d (f x) (w x)) :
    Prints β d d (xs.flatMap f) (xs.flatMap w) := by
  induction xs with
  | nil => exact .nil
  | cons x xs ih =>
      have hx := h x List.mem_cons_self
      have hxs := ih fun y hy => h y (List.mem_cons_of_mem x hy)
      exact hx.append hxs

theorem Prints.unique {β : Env ν} {d d₁ d₂ : ℕ} {cmds : List (Command ν)}
    {ws₁ ws₂ : List (Write ν)} (h₁ : Prints β d d₁ cmds ws₁) (h₂ : Prints β d d₂ cmds ws₂) :
    ws₁ = ws₂ := by
  obtain ⟨_, -, hrun₁⟩ := h₁.run
  obtain ⟨_, -, hrun₂⟩ := h₂.run
  rw [hrun₁] at hrun₂
  cases hrun₂
  rfl

/-! ### Closed programs -/

def written (β : Env ν) (d : ℕ) (cmds : List (Command ν)) : List (Write ν) :=
  ((Templates.run cmds ⟨β, d⟩).map (·.1)).getD []

theorem Prints.written_eq {β : Env ν} {d d' : ℕ} {cmds : List (Command ν)}
    {ws : List (Write ν)} (h : Prints β d d' cmds ws) : written β d cmds = ws := by
  obtain ⟨β', -, hrun⟩ := h.run
  rw [written, hrun]
  rfl

theorem prefix_written {β : Env ν} {d : ℕ} {cmds a b : List (Command ν)} {ws : List (Write ν)}
    {s : State ν} {d' : ℕ} {ws' : List (Write ν)} (h : Prints β d d' cmds ws')
    (hcmds : cmds = a ++ b) (hrun : Templates.run a ⟨β, d⟩ = some (ws, s)) : ws <+: ws' := by
  subst hcmds
  obtain ⟨β', -, hall⟩ := h.run
  obtain ⟨rest, hrest⟩ := run_of_append hrun hall
  exact ⟨rest, hrest.symm⟩

def texts (β : Env ν) (d : ℕ) (cmds : List (Command ν)) : List (List Char) :=
  (written β d cmds).map Write.chars

theorem texts_of_run {β : Env ν} {d : ℕ} {cmds : List (Command ν)} {ws : List (Write ν)}
    {s : State ν} (hrun : Templates.run cmds ⟨β, d⟩ = some (ws, s)) :
    texts β d cmds = ws.map Write.chars := by
  rw [texts, written, hrun]
  rfl

/-- A program that reads what `β` binds, or what it has assigned itself, and nothing else;
it assigns to no variable of `β` and returns to the depth it starts from. -/
def Closed (β : Env ν) (cmds : List (Command ν)) : Prop :=
  ∀ d, Prints β d d cmds (written β d cmds)

theorem Closed.of_prints {β : Env ν} {cmds : List (Command ν)}
    (h : ∀ d, ∃ ws, Prints β d d cmds ws) : Closed β cmds := by
  intro d
  obtain ⟨ws, hws⟩ := h d
  rwa [hws.written_eq]

/-- To see that a program is closed, run it and look at what it assigns to. -/
theorem Closed.of_run {β : Env ν} {cmds : List (Command ν)}
    (hrun : ∀ d, ∃ ws β', Templates.run cmds ⟨β, d⟩ = some (ws, ⟨β', d⟩))
    (hfresh : (assigned cmds).all (fun v => (β v).isNone) = true) : Closed β cmds := by
  refine .of_prints fun d => ?_
  obtain ⟨ws, β', hrun⟩ := hrun d
  exact ⟨ws, .straight hrun hfresh⟩

theorem Closed.nil {β : Env ν} : Closed β [] := .of_prints fun _ => ⟨_, .nil⟩

theorem Closed.append {β : Env ν} {a b : List (Command ν)} (ha : Closed β a)
    (hb : Closed β b) : Closed β (a ++ b) :=
  .of_prints fun d => ⟨_, (ha d).append (hb d)⟩

theorem Closed.flatMap {α : Type} {β : Env ν} {f : α → List (Command ν)} {xs : List α}
    (h : ∀ x ∈ xs, Closed β (f x)) : Closed β (xs.flatMap f) :=
  .of_prints fun d => ⟨_, .flatMap fun x hx => h x hx d⟩

theorem Closed.set {β : Env ν} {v : ν} {t : List Char} {cmds : List (Command ν)}
    (hv : β v = none) (h : Closed (Function.update β v (some t)) cmds) :
    Closed β (.set v t :: cmds) :=
  .of_prints fun d => ⟨_, (h d).set hv⟩

theorem written_append {β : Env ν} {a b : List (Command ν)} (ha : Closed β a)
    (hb : Closed β b) (d : ℕ) : written β d (a ++ b) = written β d a ++ written β d b :=
  ((ha d).append (hb d)).written_eq

theorem written_flatMap {α : Type} {β : Env ν} {f : α → List (Command ν)} {xs : List α}
    (h : ∀ x ∈ xs, Closed β (f x)) (d : ℕ) :
    written β d (xs.flatMap f) = xs.flatMap fun x => written β d (f x) :=
  (Prints.flatMap fun x hx => h x hx d).written_eq

theorem texts_append {β : Env ν} {a b : List (Command ν)} (ha : Closed β a)
    (hb : Closed β b) (d : ℕ) : texts β d (a ++ b) = texts β d a ++ texts β d b := by
  rw [texts, written_append ha hb, List.map_append]
  rfl

theorem texts_flatMap {α : Type} {β : Env ν} {f : α → List (Command ν)} {xs : List α}
    (h : ∀ x ∈ xs, Closed β (f x)) (d : ℕ) :
    texts β d (xs.flatMap f) = xs.flatMap fun x => texts β d (f x) := by
  rw [texts, written_flatMap h, List.map_flatMap]
  rfl

theorem written_set (β : Env ν) (v : ν) (t : List Char) (cmds : List (Command ν)) (d : ℕ) :
    written β d (.set v t :: cmds) = written (Function.update β v (some t)) d cmds := by
  simp only [written, Templates.run, step, Option.bind_eq_bind, Option.bind_some, List.nil_append]
  cases Templates.run cmds ⟨Function.update β v (some t), d⟩ with
  | none => rfl
  | some r => rfl

theorem texts_set (β : Env ν) (v : ν) (t : List Char) (cmds : List (Command ν)) (d : ℕ) :
    texts β d (.set v t :: cmds) = texts (Function.update β v (some t)) d cmds := by
  rw [texts, written_set]
  rfl

/-! ### Provenance -/

omit [DecidableEq ν] in
theorem value_of_fill {σ : Env ν} {template : Template ν} {spans : List (Span ν)}
    (hfill : fill σ template = some spans) {v : ν} {t : List Char}
    (hmem : Span.value v t ∈ spans) : σ v = some t := by
  induction template generalizing spans with
  | nil =>
      cases hfill
      cases hmem
  | cons p ps ih =>
      rw [fill] at hfill
      obtain ⟨span, hspan, hfill⟩ := Option.bind_eq_some_iff.mp hfill
      obtain ⟨spans', hspans, hfill⟩ := Option.bind_eq_some_iff.mp hfill
      cases hfill
      rcases List.mem_cons.mp hmem with hhead | htail
      · subst hhead
        cases p with
        | text x => cases hspan
        | var u =>
            obtain ⟨x, hu, hspan⟩ := Option.map_eq_some_iff.mp hspan
            cases hspan
            exact hu
        | undefined name => cases hspan
      · exact ih hspans htail

/-- A printed value stood in its variable at the start or was assigned to it. -/
theorem value_of_run {cmds : List (Command ν)} {s s' : State ν} {ws : List (Write ν)}
    (hrun : run cmds s = some (ws, s')) {w : Write ν} (hw : w ∈ ws) {v : ν} {t : List Char}
    (hmem : Span.value v t ∈ w.spans) : s.env v = some t ∨ .set v t ∈ cmds := by
  induction cmds generalizing s ws with
  | nil =>
      cases hrun
      cases hw
  | cons c cmds ih =>
      obtain ⟨w₁, s₁, ws', hstep, hrest, rfl⟩ := run_cons_eq_some.mp hrun
      have hlater (hmem' : w ∈ ws') (henv : s₁.env = s.env) :
          s.env v = some t ∨ .set v t ∈ c :: cmds := by
        rcases ih hrest hmem' with hs | hs
        · exact .inl (henv ▸ hs)
        · exact .inr (List.mem_cons_of_mem c hs)
      cases c with
      | set u x =>
          cases hstep
          rcases ih hrest hw with hs | hs
          · change Function.update s.env u (some x) v = some t at hs
            by_cases hvu : v = u
            · subst hvu
              rw [Function.update_self] at hs
              cases hs
              exact .inr List.mem_cons_self
            · rw [Function.update_of_ne hvu] at hs
              exact .inl hs
          · exact .inr (List.mem_cons_of_mem _ hs)
      | print template =>
          obtain ⟨spans, hfill, hstep⟩ := Option.map_eq_some_iff.mp hstep
          cases hstep
          rcases List.mem_append.mp hw with hhere | hlate
          · obtain rfl := List.mem_singleton.mp hhere
            exact .inl (value_of_fill hfill hmem)
          · exact hlater hlate rfl
      | printRaw x =>
          cases hstep
          rcases List.mem_append.mp hw with hhere | hlate
          · obtain rfl := List.mem_singleton.mp hhere
            simp at hmem
          · exact hlater hlate rfl
      | indent =>
          cases hstep
          exact hlater hw rfl
      | outdent =>
          rw [step] at hstep
          split at hstep
          case isTrue => cases hstep
          case isFalse =>
              cases hstep
              exact hlater hw rfl

theorem Prints.value {β : Env ν} {d d' : ℕ} {cmds : List (Command ν)} {ws : List (Write ν)}
    (h : Prints β d d' cmds ws) {w : Write ν} (hw : w ∈ ws) {v : ν} {t : List Char}
    (hmem : Span.value v t ∈ w.spans) : β v = some t ∨ .set v t ∈ cmds := by
  obtain ⟨_, -, hrun⟩ := h.run
  exact value_of_run hrun hw hmem

end Prints

/-! ### Programs in turn -/

section Scopes

variable {ν : Type} [DecidableEq ν]

/-- Programs run in turn on one printer, each with variables of its own. -/
def runScopes : List (List (Command ν)) → ℕ → Option (List (Write ν) × ℕ)
  | [], d => some ([], d)
  | cmds :: rest, d => do
      let (ws, s) ← run cmds ⟨fun _ => none, d⟩
      let (ws', d') ← runScopes rest s.depth
      return (ws ++ ws', d')

/-- Closed programs leave nothing to each other. -/
theorem runScopes_closed {programs : List (List (Command ν))}
    (h : ∀ cmds ∈ programs, Closed (fun _ => none) cmds) (d : ℕ) :
    runScopes programs d = some (programs.flatMap (written (fun _ => none) d), d) := by
  induction programs with
  | nil => rfl
  | cons cmds rest ih =>
      obtain ⟨β', -, hrun⟩ := (h cmds List.mem_cons_self d).run
      rw [runScopes, hrun]
      simp only [Option.bind_eq_bind, Option.bind_some,
        ih fun c hc => h c (List.mem_cons_of_mem cmds hc)]
      rfl

end Scopes

/-! ### Templates as texts

In a text a variable stands between two delimiters, and two delimiters with nothing
between them are one. -/

section Parse

variable {ν : Type} (var : List Char → Option ν) (delimiter : Char)

def closing (name : List Char) : Piece ν :=
  if name.isEmpty then .text [delimiter]
  else
    match var name with
    | some v => .var v
    | none => .undefined name

/-- The second argument is the name that is being read, backwards. -/
def parseFrom : Option (List Char) → List Char → Template ν
  | none, [] => []
  | none, c :: cs =>
      if c = delimiter then parseFrom (some []) cs else .text [c] :: parseFrom none cs
  | some name, [] => [.undefined name.reverse]
  | some name, c :: cs =>
      if c = delimiter then closing var delimiter name.reverse :: parseFrom none cs
      else parseFrom (some (c :: name)) cs

def parse (t : List Char) : Template ν := parseFrom var delimiter none t

/-- A text with its delimiters doubled. -/
def escape (t : List Char) : List Char :=
  t.flatMap fun c => if c = delimiter then [c, c] else [c]

variable {var delimiter}

theorem parse_cons_of_ne {c : Char} (hc : c ≠ delimiter) (t : List Char) :
    parse var delimiter (c :: t) = .text [c] :: parse var delimiter t := by
  rw [parse, parseFrom, if_neg hc, ← parse]

theorem parse_append_of_not_mem {t : List Char} (ht : delimiter ∉ t) (u : List Char) :
    parse var delimiter (t ++ u) = t.map (fun c => .text [c]) ++ parse var delimiter u := by
  induction t with
  | nil => rfl
  | cons c t ih =>
      obtain ⟨hc, ht⟩ := not_or.mp (fun h => ht (List.mem_cons.mpr h))
      rw [List.cons_append, parse_cons_of_ne (Ne.symm hc), ih ht]
      rfl

/-- An escaped text is printed as it was before. -/
theorem fill_parse_escape (t : List Char) (σ : Env ν) :
    fill σ (parse var delimiter (escape delimiter t)) = some (t.map fun c => .text [c]) := by
  induction t with
  | nil => rfl
  | cons c t ih =>
      by_cases hc : c = delimiter
      · subst hc
        have hparse : parse var c (escape c (c :: t)) =
            .text [c] :: parse var c (escape c t) := by
          simp [escape, parse, parseFrom, closing]
        rw [hparse, fill, ih]
        rfl
      · have hescape : escape delimiter (c :: t) = c :: escape delimiter t := by
          simp [escape, hc]
        rw [hescape, parse_cons_of_ne hc, fill, ih]
        rfl

theorem chars_texts (t : List Char) :
    (t.map fun c => (.text [c] : Span ν)).flatMap Span.chars = t := by
  induction t with
  | nil => rfl
  | cons c t ih => rw [List.map_cons, List.flatMap_cons, ih]; rfl

end Parse

/-! ### Layout -/

section Layout

variable {ν : Type}

/-- Two blanks for each level before a line that is not empty. The flag says whether the
text stands at the start of a line. -/
def layoutChars (depth : ℕ) : Bool → List Char → List Char × Bool
  | start, [] => ([], start)
  | start, c :: cs =>
      let margin := if start && c != '\n' then List.replicate (2 * depth) ' ' else []
      let rest := layoutChars depth (c == '\n') cs
      (margin ++ c :: rest.1, rest.2)

def layoutFrom : Bool → List (Write ν) → List Char × Bool
  | start, [] => ([], start)
  | start, w :: ws =>
      let here := layoutChars w.depth start w.chars
      let rest := layoutFrom here.2 ws
      (here.1 ++ rest.1, rest.2)

def layout (ws : List (Write ν)) : List Char := (layoutFrom true ws).1

theorem layoutFrom_append (start : Bool) (ws ws' : List (Write ν)) :
    layoutFrom start (ws ++ ws') =
      ((layoutFrom start ws).1 ++ (layoutFrom (layoutFrom start ws).2 ws').1,
        (layoutFrom (layoutFrom start ws).2 ws').2) := by
  induction ws generalizing start with
  | nil => rfl
  | cons w ws ih => simp [layoutFrom, ih]

theorem layoutChars_margin (start : Bool) (t : List Char) : (layoutChars 0 start t).1 = t := by
  induction t generalizing start with
  | nil => rfl
  | cons c t ih =>
      rw [layoutChars, ih]
      split <;> rfl

theorem layoutFrom_margin {ws : List (Write ν)} (hws : ∀ w ∈ ws, w.depth = 0) (start : Bool) :
    (layoutFrom start ws).1 = ws.flatMap Write.chars := by
  induction ws generalizing start with
  | nil => rfl
  | cons w ws ih =>
      rw [layoutFrom, hws w (.head _), layoutChars_margin, List.flatMap_cons,
        ih fun v hv => hws v (.tail _ hv)]

/-- What is written at the margin stands in the text as it was written. -/
theorem layout_margin {ws : List (Write ν)} (hws : ∀ w ∈ ws, w.depth = 0)
    (before after : List (Write ν)) : ∃ textBefore textAfter,
      layout (before ++ ws ++ after) = textBefore ++ ws.flatMap Write.chars ++ textAfter := by
  refine ⟨layout before, (layoutFrom (layoutFrom true (before ++ ws)).2 after).1, ?_⟩
  rw [layout, layoutFrom_append true (before ++ ws), layoutFrom_append true before,
    layoutFrom_margin hws]
  rfl

end Layout

end GrpcM.Templates
