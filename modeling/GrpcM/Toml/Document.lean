import GrpcM.Path.Basic

/-!
What a TOML document means: values at addresses. A table is what stands in an
address before its last key; tables and arrays of tables are kept apart from the
values, so that a second definition is noticed.
-/

namespace GrpcM.Toml

open GrpcM.Path

/-- A step of an address: a key, or an element of an array of tables. -/
inductive Segment where
  | key (k : Text)
  | index (i : Nat)
  deriving DecidableEq, Repr

abbrev Address := List Segment

def address (keys : List Text) : Address := keys.map .key

/-- Numbers, booleans and dates are kept as they are written. -/
inductive Value where
  | string (t : Text)
  | scalar (t : Text)
  | array (items : List Value)
  | table (entries : List (Address × Value))

structure Document where
  values : List (Address × Value) := []
  tables : List Address := []
  /-- One entry for each element. -/
  arrays : List Address := []

namespace Document

def get? (d : Document) (a : Address) : Option Value :=
  (d.values.find? fun entry => entry.1 = a).map (·.2)

def hasTable (d : Document) (a : Address) : Bool :=
  d.tables.any (a.isPrefixOf ·) ||
    (d.values.map (·.1) ++ d.arrays).any fun b => a.isPrefixOf b && a ≠ b

/-- Keys lead into the last element of an array of tables. -/
def resolve (d : Document) (keys : List Text) : Address :=
  keys.foldl (fun a k =>
    match d.arrays.count (a ++ [.key k]) with
    | 0 => a ++ [.key k]
    | n + 1 => a ++ [.key k, .index n]) []

/-- An inline table is what it holds. -/
def expand (a : Address) : Value → List (Address × Value)
  | .table entries => entries.map fun entry => (a ++ entry.1, entry.2)
  | v => [(a, v)]

def tablesAt (a : Address) : Value → List Address
  | .table _ => [a]
  | _ => []

def assign (d : Document) (a : Address) (v : Value) : Option Document :=
  if (d.get? a).isSome || d.hasTable a then none
  else some { d with values := d.values ++ expand a v, tables := d.tables ++ tablesAt a v }

/-- `[keys]`. -/
def openTable (d : Document) (keys : List Text) : Option (Document × Address) :=
  let a := d.resolve keys
  if a ∈ d.tables || (d.get? a).isSome then none
  else some ({ d with tables := d.tables ++ [a] }, a)

/-- `[[keys]]`. -/
def openElement (d : Document) (keys : List Text) : Option (Document × Address) :=
  match keys.getLast? with
  | none => none
  | some k =>
      let a := d.resolve keys.dropLast ++ [.key k]
      if a ∈ d.tables || (d.get? a).isSome then none
      else some ({ d with arrays := d.arrays ++ [a] }, a ++ [.index (d.arrays.count a)])

/-! ### Values stay -/

variable {d d' : Document} {a b : Address} {v w : Value}

theorem get?_of_values {entries : List (Address × Value)}
    (hvalues : d'.values = d.values ++ entries) (hget : d.get? a = some v) :
    d'.get? a = some v := by
  obtain ⟨entry, hfind, hvalue⟩ := Option.map_eq_some_iff.mp hget
  rw [get?, hvalues, List.find?_append, hfind, Option.some_or, Option.map_some, hvalue]

theorem hasTable_of_get? {segment : Segment} (hget : d.get? (a ++ [segment]) = some v) :
    d.hasTable a = true := by
  obtain ⟨entry, hfind, -⟩ := Option.map_eq_some_iff.mp hget
  have hentry : entry.1 = a ++ [segment] := by simpa using List.find?_some hfind
  have hmem := List.mem_of_find?_eq_some hfind
  rw [hasTable, Bool.or_eq_true, List.any_eq_true]
  refine Or.inr ?_
  rw [List.any_eq_true]
  refine ⟨entry.1, List.mem_append_left _ (List.mem_map_of_mem hmem), ?_⟩
  rw [hentry]
  simp

theorem values_assign (hassign : d.assign a v = some d') :
    d'.values = d.values ++ expand a v ∧ d.get? a = none := by
  rw [assign] at hassign
  split at hassign
  case isTrue => cases hassign
  case isFalse hfree =>
      rw [Bool.or_eq_true, not_or, Bool.not_eq_true, Option.isSome_eq_false_iff,
        Option.isNone_iff_eq_none] at hfree
      obtain rfl := Option.some.inj hassign
      exact ⟨rfl, hfree.1⟩

theorem get?_assign (hassign : d.assign a v = some d') (hget : d.get? b = some w) :
    d'.get? b = some w :=
  get?_of_values (values_assign hassign).1 hget

theorem get?_assign_array {items : List Value} (hassign : d.assign a (.array items) = some d') :
    d'.get? a = some (.array items) := by
  obtain ⟨hvalues, hnone⟩ := values_assign hassign
  rw [get?, Option.map_eq_none_iff] at hnone
  rw [get?, hvalues, List.find?_append, hnone, Option.none_or]
  simp [expand]

theorem values_openTable {keys : List Text} (hopen : d.openTable keys = some (d', a)) :
    d'.values = d.values := by
  rw [openTable] at hopen
  split at hopen
  case isTrue => cases hopen
  case isFalse =>
      obtain ⟨rfl, rfl⟩ := Prod.mk.inj (Option.some.inj hopen)
      rfl

theorem values_openElement {keys : List Text} (hopen : d.openElement keys = some (d', a)) :
    d'.values = d.values := by
  rw [openElement] at hopen
  split at hopen
  case h_1 => cases hopen
  case h_2 =>
      dsimp only at hopen
      split at hopen
      case isTrue => cases hopen
      case isFalse =>
          obtain ⟨rfl, rfl⟩ := Prod.mk.inj (Option.some.inj hopen)
          rfl

end Document

end GrpcM.Toml
