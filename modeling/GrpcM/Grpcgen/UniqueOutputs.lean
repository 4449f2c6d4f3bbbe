import GrpcM.Grpcgen.PlanAllSpec
import GrpcM.Grpcgen.EdgeSpec

/-!
Which edge produces a file. An output is a name and a suffix, so distinct names
may still meet in an output; with the built-in generators this takes a name
that is another one followed by `.grpc`, `_mock` or `_mock.grpc`.
-/

namespace GrpcM.Grpcgen

open GrpcM.Path GrpcM.FileSystem GrpcM.Suffixes

variable {h : Host} {opt : Options}

theorem nodup_builtinSuffixes (grpc mock : Bool) : (builtinSuffixes grpc mock).Nodup := by
  revert grpc mock
  decide +kernel

/-- The endings by which a name meets another one in an output. -/
def clashes (grpc mock : Bool) : List Text :=
  if grpc then lit ".grpc" :: if mock then [lit "_mock", lit "_mock.grpc"] else []
  else []

theorem mem_overlaps_builtinSuffixes (grpc mock : Bool) (u : Text) :
    u ∈ overlaps (builtinSuffixes grpc mock) ↔ u ∈ clashes grpc mock := by
  have hsubset : ∀ grpc mock, overlaps (builtinSuffixes grpc mock) ⊆ clashes grpc mock ∧
      clashes grpc mock ⊆ overlaps (builtinSuffixes grpc mock) := by
    decide +kernel
  exact ⟨fun hu => (hsubset grpc mock).1 hu, fun hu => (hsubset grpc mock).2 hu⟩

/-- On distinct names the edge ids are distinct, and a path is an output twice exactly
when a contributed name is another one followed by a clash. -/
theorem planAll_outputs_nodup_iff {s : Session h} {edges : List Edge}
    (hrun : returned (planAll h opt) s = some edges) (hne : edges ≠ [])
    (hplugins : opt.plugins = []) (hdistinct : DistinctNames h opt) :
    (edges.map (·.id)).Nodup ∧
      ((edges.flatMap (·.outputs)).Nodup ↔
        ∀ r ∈ generationRoots opt, ∀ n, Contributes h r n →
          ∀ r' ∈ generationRoots opt, ∀ m, Contributes h r' m →
            ∀ u ∈ clashes opt.grpc opt.mock, m ≠ n ++ u) := by
  obtain ⟨hroots, protoc, wkt, hc, rfl⟩ := checked_of_planAll hrun hne
  have hmem := mem_plannedNames hc.manifestDir_ne_nil hroots
  constructor
  · have hids : ((plannedEntries h opt).map
        (planEdge h opt (plannedEntries h opt) protoc wkt)).map (·.id) =
        (plannedNames h opt).map (lit "protoc:" ++ ·) := by
      rw [plannedNames, List.map_map, List.map_map]
      rfl
    rw [hids]
    exact hdistinct.map (List.append_right_injective _)
  · rw [outputs_planEdge, List.nodup_map_iff (outputBase_injective h),
      generatorSuffixes_of_builtin hplugins]
    show (combine (plannedNames h opt) _).Nodup ↔ _
    rw [nodup_combine_iff hdistinct (nodup_builtinSuffixes _ _)]
    simp only [mem_overlaps_builtinSuffixes, hmem]
    constructor
    · intro hno r hr n hn r' hr' m hm u hu heq
      exact hno n ⟨r, hr, hn⟩ u hu ⟨r', hr', heq ▸ hm⟩
    · rintro hno n ⟨r, hr, hn⟩ u hu ⟨r', hr', hnu⟩
      exact hno r hr n hn r' hr' _ hnu u hu rfl

/-- `a.proto` next to `a.grpc.proto`. -/
def clashRoots : List (Text × Listing DirectoryEntry) :=
  [(lit "/m/proto", .ofList (entriesOf
    [([lit "a.proto"], some .regular), ([lit "a.grpc.proto"], some .regular)]))]

def clashEdges : List Edge :=
  let protos : List Entry := [⟨lit "/m/proto", lit "a"⟩, ⟨lit "/m/proto", lit "a.grpc"⟩]
  protos.map (planEdge (fixedHost clashRoots true) {} protos (lit "/bin/protoc")
    (lit "/p/pb/src"))

theorem planAll_clash :
    returned (planAll (fixedHost clashRoots true) {}) (freshSession clashRoots true) =
        some clashEdges ∧ clashEdges ≠ [] ∧ DistinctNames (fixedHost clashRoots true) {} := by
  have hentries : plannedEntries (fixedHost clashRoots true) {} =
      [⟨lit "/m/proto", lit "a"⟩, ⟨lit "/m/proto", lit "a.grpc"⟩] := by
    decide +kernel
  have hrun := returned_planAll_fixedHost (by decide +kernel) hentries rfl (List.cons_ne_nil _ _)
    (freshSession clashRoots true)
  refine ⟨hrun, List.cons_ne_nil _ _, ?_⟩
  rw [DistinctNames, plannedNames, hentries]
  decide +kernel

theorem planAll_outputs_clash :
    ∃ edges, returned (planAll (fixedHost clashRoots true) {}) (freshSession clashRoots true) =
        some edges ∧ DistinctNames (fixedHost clashRoots true) {} ∧
      ¬(edges.flatMap (·.outputs)).Nodup := by
  refine ⟨clashEdges, planAll_clash.1, planAll_clash.2.2, ?_⟩
  decide +kernel

theorem clash_outputs_nodup_iff :
    (clashEdges.map (·.id)).Nodup ∧
      ((clashEdges.flatMap (·.outputs)).Nodup ↔
        ∀ r ∈ generationRoots {}, ∀ n, Contributes (fixedHost clashRoots true) r n →
          ∀ r' ∈ generationRoots {}, ∀ m, Contributes (fixedHost clashRoots true) r' m →
            ∀ u ∈ clashes true false, m ≠ n ++ u) :=
  planAll_outputs_nodup_iff planAll_clash.1 planAll_clash.2.1 rfl planAll_clash.2.2

end GrpcM.Grpcgen
