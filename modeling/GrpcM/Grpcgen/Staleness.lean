import GrpcM.Grpcgen.PlanAllSpec
import GrpcM.Grpcgen.EdgeSpec
import GrpcM.Confinement

/-!
Which of the files protoc reads an edge depends on. The rule parses no import
and lists the planned files instead, so an edge is up to date with what it was
made from exactly when imports do not lead from the planned files to a file
that was not planned, the well-known types apart.
-/

namespace GrpcM.Grpcgen

open GrpcM.Path GrpcM.FileSystem GrpcM.Protoc GrpcM.Confinement

variable {h : Host} {opt : Options}

/-! ### Inputs and reads -/

/-- A file of the protobuf package, which only changes with that package. -/
def WellKnown (wkt : Text) (file : Location) : Prop := (locate wkt).IsPrefix file

/-- Every file protoc reads for the edge is well known or one of its inputs. -/
def Edge.ListsReads (e : Edge) (tree : SourceTree) (wkt : Text) : Prop :=
  ∀ file, Reads tree e.command file →
    (∃ input ∈ e.inputs, locate input = file) ∨ WellKnown wkt file

def Named (h : Host) (opt : Options) (names : List Text) (file : Location) : Prop :=
  ∃ n ∈ names, locate (Entry.source ⟨absUnderRoot h opt.protoDir, n⟩) = file

def Enumerated (h : Host) (opt : Options) (file : Location) : Prop :=
  ∃ r ∈ generationRoots opt, ∃ n, Contributes h r n ∧
    locate (Entry.source ⟨absUnderRoot h r, n⟩) = file

/-- The edges of `planEntries` list what they read exactly when no import of a planned
file, or of a well-known file that is reached from one, leads elsewhere. -/
theorem planEntries_listsReads_iff {protos : List Entry} {protoc wkt : Text}
    (tree : SourceTree) :
    (∀ e ∈ protos.map (planEdge h opt protos protoc wkt), e.ListsReads tree wkt) ↔
      NoEscape (Imports tree (searchRoots h opt wkt))
        (fun file => ∃ ent ∈ protos, locate ent.source = file) (WellKnown wkt) := by
  rw [← confined_iff_noEscape]
  have hinputs : ∀ ent file, (∃ input ∈ (planEdge h opt protos protoc wkt ent).inputs,
      locate input = file) ↔ ∃ ent ∈ protos, locate ent.source = file := by
    intro ent file
    simp [planEdge]
  simp only [List.forall_mem_map, Edge.ListsReads, Reads, searchPath_planEdge,
    sourceFile_planEdge, hinputs]
  constructor
  · rintro hall source ⟨ent, hent, rfl⟩ file hreach
    exact hall ent hent file hreach
  · intro hall ent hent file hreach
    exact hall _ ⟨ent, hent, rfl⟩ file hreach

/-- Nothing an edge reads is missing from its inputs exactly when imports do not lead
from the planned files to one that was not planned. -/
theorem listsReads_iff_noEscape {wkt : Text} (hwkt : wellKnownTypesDir h = .ok wkt)
    (tree : SourceTree) (s : Session h) :
    (∀ names edges, returned (plan h names opt) s = some edges → edges ≠ [] →
      ((∀ e ∈ edges, e.ListsReads tree wkt) ↔
        NoEscape (Imports tree (searchRoots h opt wkt)) (Named h opt names)
          (WellKnown wkt))) ∧
    (∀ edges, returned (planAll h opt) s = some edges → edges ≠ [] →
      ((∀ e ∈ edges, e.ListsReads tree wkt) ↔
        NoEscape (Imports tree (searchRoots h opt wkt)) (Enumerated h opt)
          (WellKnown wkt))) := by
  constructor
  · intro names edges hplan hne
    rw [returned_plan] at hplan
    obtain ⟨protoc, wkt', hc, rfl⟩ := checked_of_planEntries hplan hne
    obtain rfl := hc.wkt_unique hwkt
    have hnamed : (fun file => ∃ ent ∈ namedEntries h opt names, locate ent.source = file) =
        Named h opt names := by
      ext file
      simp [namedEntries, Named]
    rw [planEntries_listsReads_iff, ← hnamed]
  · intro edges hplan hne
    obtain ⟨hroots, protoc, wkt', hc, rfl⟩ := checked_of_planAll hplan hne
    obtain rfl := hc.wkt_unique hwkt
    have henum : (fun file => ∃ ent ∈ plannedEntries h opt, locate ent.source = file) =
        Enumerated h opt := by
      ext file
      simp only [mem_plannedEntries hc.manifestDir_ne_nil hroots, Enumerated]
      constructor
      · rintro ⟨⟨_, n⟩, ⟨r, hr, rfl, hn⟩, hfile⟩
        exact ⟨r, hr, n, hn, hfile⟩
      · rintro ⟨r, hr, n, hn, hfile⟩
        exact ⟨⟨absUnderRoot h r, n⟩, ⟨r, hr, rfl, hn⟩, hfile⟩
    rw [planEntries_listsReads_iff, ← henum]

/-- `a.proto` imports its sibling `b.proto`. -/
def siblingTree : SourceTree :=
  .ofFiles [(lit "/m/proto/a.proto", [lit "b.proto"]), (lit "/m/proto/b.proto", [])]

/-- The edge of `a.proto` when it is planned alone. -/
def siblingEdges : List Edge :=
  let a : Entry := ⟨lit "/m/proto", lit "a"⟩
  [planEdge (fixedHost [] true) {} [a] (lit "/bin/protoc") (lit "/p/pb/src") a]

theorem plan_sibling :
    returned (plan (fixedHost [] true) [lit "a"] {}) (freshSession [] true) =
      some siblingEdges ∧ siblingEdges ≠ [] := by
  have hnamed : namedEntries (fixedHost [] true) {} [lit "a"] = [⟨lit "/m/proto", lit "a"⟩] := by
    decide +kernel
  refine ⟨?_, List.cons_ne_nil _ _⟩
  rw [returned_plan, hnamed]
  exact returned_planEntries_of_checked
    (checked_fixedHost [] true (by simp) (List.cons_ne_nil _ _)) (freshSession [] true)

/-- protoc reads `b.proto` for `a.proto`, and no edge depends on it. -/
theorem plan_misses_sibling :
    ∃ edges, returned (plan (fixedHost [] true) [lit "a"] {}) (freshSession [] true) =
        some edges ∧
      ¬∀ e ∈ edges, e.ListsReads siblingTree (lit "/p/pb/src") := by
  refine ⟨siblingEdges, plan_sibling.1, ?_⟩
  intro hall
  have hread : ∀ e ∈ siblingEdges, Reads siblingTree e.command (locate (lit "/m/proto/b.proto")) ∧
      e.inputs = [lit "/m/proto/a.proto"] := by
    intro e he
    rw [List.mem_singleton.mp he]
    refine ⟨.single ⟨lit "b.proto", ?_, ?_⟩, by decide +kernel⟩
    · decide +kernel
    · decide +kernel
  obtain ⟨e, he⟩ : ∃ e, e ∈ siblingEdges := List.exists_mem_of_ne_nil _ plan_sibling.2
  obtain ⟨hreads, hinputs⟩ := hread e he
  have hlisted := hall e he _ hreads
  rw [hinputs] at hlisted
  revert hlisted
  rw [WellKnown]
  decide +kernel

theorem sibling_listsReads_iff :
    (∀ e ∈ siblingEdges, e.ListsReads siblingTree (lit "/p/pb/src")) ↔
      NoEscape (Imports siblingTree (searchRoots (fixedHost [] true) {} (lit "/p/pb/src")))
        (Named (fixedHost [] true) {} [lit "a"]) (WellKnown (lit "/p/pb/src")) :=
  (listsReads_iff_noEscape (wellKnownTypesDir_fixedHost [] true) siblingTree
    (freshSession [] true)).1
    [lit "a"] siblingEdges plan_sibling.1 plan_sibling.2

end GrpcM.Grpcgen
