import GrpcM.Grpcgen.PlanAllSpec
import GrpcM.Grpcgen.EdgeSpec

/-!
Which of the listed files get an edge. The loop over a root ends at the first
entry whose status cannot be read, so a `.proto` file listed after one is
dropped, unless another generation root lists it as well.
-/

namespace GrpcM.Grpcgen

open GrpcM.Path GrpcM.FileSystem

variable {h : Host} {opt : Options}

/-! ### Source paths -/

theorem locate_source {dir n : Text} {e : DirectoryEntry} (hdir : dir ≠ [])
    (htext : e.relative.text = n ++ protoExtension) :
    locate (Entry.source ⟨genericString dir, n⟩) = locate (e.path dir) := by
  rw [Entry.source, ← htext, locate_append_slash _ (genericString_ne_nil hdir),
    e.locate_path hdir, e.relative.locate_text, locate_genericString,
    isAbsolute_genericString]

def Edge.Generates (e : Edge) (file : Text) : Prop :=
  e.command.getLast?.map locate = some (locate file)

instance (e : Edge) (file : Text) : Decidable (e.Generates file) :=
  inferInstanceAs (Decidable (_ = _))

/-! ### Files without an edge -/

/-- Every regular `.proto` file a generation root's enumeration contains has an edge. -/
def NoneDropped (h : Host) (opt : Options) (edges : List Edge) : Prop :=
  ∀ r ∈ generationRoots opt, ∀ l, h.recursiveDirectoryIterator (rootDir h r) = some l →
    ∀ e ∈ l.entries, isProtoFile e = true →
      ∃ edge ∈ edges, edge.Generates (e.path (rootDir h r))

/-- Every such file is listed, under some generation root, before the first entry of that
listing whose status cannot be read. -/
def AllKept (h : Host) (opt : Options) : Prop :=
  ∀ r ∈ generationRoots opt, ∀ l, h.recursiveDirectoryIterator (rootDir h r) = some l →
    ∀ e ∈ l.entries, isProtoFile e = true →
      ∃ r' ∈ generationRoots opt, ∃ l',
        h.recursiveDirectoryIterator (rootDir h r') = some l' ∧
        ∃ e' ∈ keptEntries l', isProtoFile e' = true ∧
          locate (e'.path (rootDir h r')) = locate (e.path (rootDir h r))

/-- A planned edge generates a file exactly when the loop kept it under some root. -/
theorem exists_edge_iff_kept {s : Session h} {edges : List Edge}
    (hrun : returned (planAll h opt) s = some edges) (hne : edges ≠ []) (file : Text) :
    (∃ edge ∈ edges, edge.Generates file) ↔
      ∃ r ∈ generationRoots opt, ∃ l, h.recursiveDirectoryIterator (rootDir h r) = some l ∧
        ∃ e ∈ keptEntries l, isProtoFile e = true ∧
          locate (e.path (rootDir h r)) = locate file := by
  obtain ⟨hroots, protoc, wkt, hc, rfl⟩ := checked_of_planAll hrun hne
  have hroot := hc.manifestDir_ne_nil
  constructor
  · rintro ⟨edge, hedge, hgen⟩
    obtain ⟨ent, hent, rfl⟩ := List.mem_map.mp hedge
    obtain ⟨r, hr, hentroot, l, hl, e, he, hproto, htext⟩ :=
      (mem_plannedEntries hroot hroots ent).mp hent
    refine ⟨r, hr, l, hl, e, he, hproto, ?_⟩
    rw [← locate_source (rootDir_ne_nil hroot r) htext, ← absUnderRoot_eq, ← hentroot]
    simpa [Edge.Generates] using hgen
  · rintro ⟨r, hr, l, hl, e, he, hproto, hfile⟩
    have hname := protoName_append (rootDir_ne_nil hroot r) hproto
    refine ⟨_, List.mem_map_of_mem ((mem_plannedEntries hroot hroots
      ⟨absUnderRoot h r, protoName (rootDir h r) e⟩).mpr
        ⟨r, hr, rfl, l, hl, e, he, hproto, hname.symm⟩), ?_⟩
    simp only [Edge.Generates, getLast?_planEdge, Option.map_some, Option.some.injEq,
      absUnderRoot_eq]
    rw [locate_source (rootDir_ne_nil hroot r) hname.symm, hfile]

/-- When `planAll` returns edges, no file is dropped exactly when none is listed only
after an entry whose status cannot be read. -/
theorem planAll_noneDropped_iff {s : Session h} {edges : List Edge}
    (hrun : returned (planAll h opt) s = some edges) (hne : edges ≠ []) :
    NoneDropped h opt edges ↔ AllKept h opt := by
  simp only [NoneDropped, AllKept, exists_edge_iff_kept hrun hne]

/-- A root that lists `a.proto`, a link without a target and `b.proto`, in this order. -/
def brokenLinkRoots : List (Text × Listing DirectoryEntry) :=
  [(lit "/m/proto", .ofList (entriesOf
    [([lit "a.proto"], some .regular), ([lit "gone"], none), ([lit "b.proto"], some .regular)]))]

def brokenLinkEdges : List Edge :=
  let a : Entry := ⟨lit "/m/proto", lit "a"⟩
  [planEdge (fixedHost brokenLinkRoots true) {} [a] (lit "/bin/protoc") (lit "/p/pb/src") a]

theorem planAll_brokenLink :
    returned (planAll (fixedHost brokenLinkRoots true) {}) (freshSession brokenLinkRoots true) =
      some brokenLinkEdges ∧ brokenLinkEdges ≠ [] := by
  have hentries : plannedEntries (fixedHost brokenLinkRoots true) {} =
      [⟨lit "/m/proto", lit "a"⟩] := by
    decide +kernel
  have hrun := returned_planAll_fixedHost (by decide +kernel) hentries rfl (List.cons_ne_nil _ _)
    (freshSession brokenLinkRoots true)
  exact ⟨hrun, List.cons_ne_nil _ _⟩

/-- The link ends the loop one entry late: `b.proto` has no edge. -/
theorem planAll_drops_after_broken_link :
    ∃ edges, returned (planAll (fixedHost brokenLinkRoots true) {})
        (freshSession brokenLinkRoots true) = some edges ∧ edges ≠ [] ∧
      ¬NoneDropped (fixedHost brokenLinkRoots true) {} edges := by
  refine ⟨brokenLinkEdges, planAll_brokenLink.1, planAll_brokenLink.2, ?_⟩
  intro hall
  have hproto : lit "proto" ∈ generationRoots {} := by decide +kernel
  have hb : ∀ e ∈ entriesOf [([lit "b.proto"], some .regular)], ∃ edge ∈ brokenLinkEdges,
      edge.Generates (e.path (lit "/m/proto")) := by
    intro e he
    refine hall (lit "proto") hproto _ rfl e ?_ ?_
    · revert e
      decide +kernel
    · revert e
      decide +kernel
  revert hb
  decide +kernel

theorem brokenLink_noneDropped_iff :
    NoneDropped (fixedHost brokenLinkRoots true) {} brokenLinkEdges ↔
      AllKept (fixedHost brokenLinkRoots true) {} :=
  planAll_noneDropped_iff planAll_brokenLink.1 planAll_brokenLink.2

end GrpcM.Grpcgen
