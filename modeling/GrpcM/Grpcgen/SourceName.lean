import GrpcM.Grpcgen.PlanAllSpec
import GrpcM.Grpcgen.Directories
import GrpcM.Grpcgen.EdgeSpec

/-!
The name protoc knows a planned source by. The rule names a file relative to
its own root and declares the outputs under that name; protoc names it relative
to the first include root that matches. The entry's root is matched when the
options know it, and it is matched first when no root before it lies around
the file.
-/

namespace GrpcM.Grpcgen

open GrpcM.Path GrpcM.FileSystem GrpcM.Protoc

variable {h : Host} {opt : Options}

/-! ### Sources without a root -/

/-- Some include root of the edge's command is a directory prefix of its source. -/
def Edge.Resolvable (e : Edge) : Prop :=
  ∃ r ∈ searchPath e.command, (locate r).IsPrefix (locate (sourceFile e.command))

/-- The source lies in the entry's root, taken relative to the manifest directory. -/
def Edge.SourceBelow (e : Edge) (h : Host) (ent : Entry) : Prop :=
  locate (sourceFile e.command) = locate (Entry.source ⟨absUnderRoot h ent.root, ent.name⟩)

theorem locate_source_eq_iff (ent : Entry) (root : Text) :
    locate ent.source = locate (Entry.source ⟨root, ent.name⟩) ↔
      locate (ent.root ++ ['/']) = locate (root ++ ['/']) := by
  rw [locate_source_eq, locate_source_eq, Entry.place, Entry.place]
  generalize locate (ent.root ++ ['/']) = l
  generalize locate (root ++ ['/']) = l'
  obtain ⟨a, ns⟩ := l
  obtain ⟨a', ns'⟩ := l'
  simp [Location.along]

/-- A directory given to protoc lies around the entry's file: one the options name, the
well-known types, or one in an argument that is passed on. -/
def Covered (manifestDir wkt : Text) (opt : Options) (ent : Entry) : Prop :=
  (∃ d ∈ opt.directories, (placeUnder manifestDir d).IsPrefix ent.place) ∨
    (locate wkt).IsPrefix ent.place ∨
    ∃ d, lit "-I" ++ d ∈ opt.protocArgs ∧ (locate d).IsPrefix ent.place

/-- The root is absolute, or it happens to be where a relative root is looked for. -/
def RootAsWritten (manifestDir root : Text) : Prop :=
  isAbsolute root = true ∨ locate (root ++ ['/']) = placeUnder manifestDir root

theorem covered_iff (hroot : h.manifestDir ≠ []) (wkt : Text) (ent : Entry) :
    Covered h.manifestDir wkt opt ent ↔
      ∃ r ∈ searchRoots h opt wkt, (locate r).IsPrefix ent.place := by
  have hflags : ∀ r, r ∈ includeFlags opt.protocArgs ↔ lit "-I" ++ r ∈ opt.protocArgs := by
    intro r
    simp only [includeFlags, List.mem_filterMap, List.isPrefixOf?_eq_some_iff_append_eq]
    constructor
    · rintro ⟨a, ha, heq⟩
      exact heq ▸ ha
    · intro ha
      exact ⟨_, ha, rfl⟩
  simp only [Covered, searchRoots, includeRoots_eq, List.mem_append, List.mem_map,
    List.mem_singleton, hflags, or_and_right, exists_or, ← locate_absUnderRoot hroot, or_assoc]
  simp

theorem rootAsWritten_iff (hroot : h.manifestDir ≠ []) (root : Text) :
    RootAsWritten h.manifestDir root ↔
      locate (root ++ ['/']) = locate (absUnderRoot h root ++ ['/']) := by
  have hslash : ∀ {p : Text}, p ≠ [] → locate (p ++ ['/']) = locate p := fun hp => by
    rw [locate_append_slash [] hp]
    simp [locate]
  rw [RootAsWritten, hslash (absUnderRoot_ne_nil hroot root), locate_absUnderRoot hroot]
  refine or_iff_right_of_imp fun habs => ?_
  have hne : root ≠ [] := by
    rintro rfl
    simp [isAbsolute] at habs
  rw [hslash hne, placeUnder, if_pos habs]

/-- Every edge of `planEntries` has its source under an include root, in the root meant,
exactly when each entry's file is covered and its root is where it is written to be. -/
theorem planEntries_resolvable_iff {protos : List Entry} {s : Session h} {edges : List Edge}
    {wkt : Text} (hwkt : wellKnownTypesDir h = .ok wkt)
    (hrun : returned (planEntries h protos opt) s = some edges) (hne : edges ≠ []) :
    List.Forall₂ (fun ent e => e.Resolvable ∧ e.SourceBelow h ent) protos edges ↔
      ∀ ent ∈ protos, Covered h.manifestDir wkt opt ent ∧
        RootAsWritten h.manifestDir ent.root := by
  obtain ⟨protoc, wkt', hc, rfl⟩ := checked_of_planEntries hrun hne
  obtain rfl := hc.wkt_unique hwkt
  have hroot := hc.manifestDir_ne_nil
  rw [List.forall₂_map_right_iff, List.forall₂_same]
  refine forall₂_congr fun ent _ => and_congr ?_ ?_
  · rw [Edge.Resolvable, searchPath_planEdge, sourceFile_planEdge, locate_source_eq,
      covered_iff hroot]
  · rw [Edge.SourceBelow, sourceFile_planEdge, locate_source_eq_iff, rootAsWritten_iff hroot]

def elsewhere : Entry := ⟨lit "/elsewhere", lit "x"⟩

def elsewhereEdges : List Edge :=
  [planEdge (fixedHost [] true) {} [elsewhere] (lit "/bin/protoc") (lit "/p/pb/src") elsewhere]

theorem planEntries_elsewhere :
    returned (planEntries (fixedHost [] true) [elsewhere] {}) (freshSession [] true) =
      some elsewhereEdges ∧ elsewhereEdges ≠ [] :=
  ⟨returned_planEntries_of_checked
    (checked_fixedHost [] true (by simp) (List.cons_ne_nil _ _)) (freshSession [] true),
    List.cons_ne_nil _ _⟩

/-- Its edge is planned, and protoc rejects the source. -/
theorem planEntries_unresolvable :
    ∃ edges, returned (planEntries (fixedHost [] true) [elsewhere] {}) (freshSession [] true) =
        some edges ∧
      ¬List.Forall₂ (fun ent e => e.Resolvable ∧ e.SourceBelow (fixedHost [] true) ent)
        [elsewhere] edges := by
  refine ⟨elsewhereEdges, planEntries_elsewhere.1, ?_⟩
  intro hall
  have hroots : ∀ e ∈ elsewhereEdges, ∀ r ∈ searchPath e.command,
      ¬(locate r).IsPrefix (locate (sourceFile e.command)) := by
    decide +kernel
  obtain ⟨e, _, hpair, -, hedges⟩ := List.forall₂_cons_left_iff.mp hall
  obtain ⟨r, hr, hin⟩ := hpair.1
  exact hroots e (hedges ▸ List.mem_cons_self) r hr hin

theorem elsewhere_resolvable_iff :
    List.Forall₂ (fun ent e => e.Resolvable ∧ e.SourceBelow (fixedHost [] true) ent)
        [elsewhere] elsewhereEdges ↔
      ∀ ent ∈ [elsewhere], Covered (lit "/m") (lit "/p/pb/src") {} ent ∧
        RootAsWritten (lit "/m") ent.root :=
  planEntries_resolvable_iff (wellKnownTypesDir_fixedHost [] true) planEntries_elsewhere.1
    planEntries_elsewhere.2

/-! ### Sources under several roots -/

/-- The generation roots before the first one at the place of `r`. -/
def rootsEarlier (h : Host) (opt : Options) (r : Text) : List Text :=
  (generationRoots opt).takeWhile fun q => locate (rootDir h q) ≠ locate (rootDir h r)

theorem rootsOutside_searchRoots {r : Text} (hr : r ∈ generationRoots opt) (wkt : Text) :
    rootsOutside (searchRoots h opt wkt) (absUnderRoot h r) =
      (rootsEarlier h opt r).map (absUnderRoot h) := by
  have hroots : searchRoots h opt wkt = (generationRoots opt).map (absUnderRoot h) ++
      (opt.imports.map (absUnderRoot h) ++ [wkt] ++ includeFlags opt.protocArgs) := by
    simp [searchRoots, includeRoots, generationRoots]
  rw [hroots, rootsOutside_append (List.mem_map_of_mem hr), rootsOutside, List.takeWhile_map,
    rootsEarlier]
  congr 2
  ext q
  simp [absUnderRoot_eq]

theorem DistinctNames.locate_eq (hdistinct : DistinctNames h opt) (hroot : h.manifestDir ≠ [])
    (hroots : ∀ r ∈ generationRoots opt, Enumerates h r) {q r n : Text}
    (hq : q ∈ generationRoots opt) (hr : r ∈ generationRoots opt)
    (hqn : Contributes h q n) (hrn : Contributes h r n) :
    locate (rootDir h q) = locate (rootDir h r) := by
  have hmem : ∀ p ∈ generationRoots opt, Contributes h p n →
      (⟨absUnderRoot h p, n⟩ : Entry) ∈ plannedEntries h opt :=
    fun p hp hn => (mem_plannedEntries hroot hroots _).mpr ⟨p, hp, rfl, hn⟩
  have hsame : (⟨absUnderRoot h q, n⟩ : Entry) = ⟨absUnderRoot h r, n⟩ :=
    List.inj_on_of_nodup_map hdistinct (hmem q hq hqn) (hmem r hr hrn) rfl
  have hroot_eq : absUnderRoot h q = absUnderRoot h r := congrArg Entry.root hsame
  simpa [absUnderRoot_eq] using congrArg locate hroot_eq

/-- protoc names the edge's source `n.proto` and writes the files the edge declares. -/
def Edge.WritesDeclared (e : Edge) (tree : SourceTree) (out : Text) (suffixes : List Text)
    (n : Text) : Prop :=
  virtualName tree (searchPath e.command) (sourceFile e.command) =
      some (filenames (n ++ protoExtension)) ∧
    written tree out suffixes e.command = some e.outputs

theorem join_filenames_of_contributes {r n : Text} (hn : Contributes h r n) :
    join (filenames (n ++ protoExtension)) = n ++ protoExtension := by
  obtain ⟨l, -, e, -, -, htext⟩ := hn
  rw [← htext, RelativePath.text, filenames_join e.relative.isFilename]

theorem below_source (hroot : h.manifestDir ≠ []) {r n : Text} (hn : Contributes h r n) :
    (locate (absUnderRoot h r)).IsPrefix (locate (Entry.source ⟨absUnderRoot h r, n⟩)) ∧
      (locate (absUnderRoot h r)).below (locate (Entry.source ⟨absUnderRoot h r, n⟩)) =
        filenames (n ++ protoExtension) := by
  obtain ⟨l, -, e, -, -, htext⟩ := hn
  have hne := absUnderRoot_ne_nil hroot r
  refine ⟨locate_isPrefix_append_slash _ hne, ?_⟩
  rw [Entry.source, locate_below_append_slash _ hne, ← htext, e.relative.locate_text,
    RelativePath.text, filenames_join e.relative.isFilename]

theorem absUnderRoot_mem_searchRoots {r : Text} (hr : r ∈ generationRoots opt) (wkt : Text) :
    absUnderRoot h r ∈ searchRoots h opt wkt := by
  have hroots : absUnderRoot h r ∈ (generationRoots opt).map (absUnderRoot h) :=
    List.mem_map_of_mem hr
  simp only [generationRoots, List.map_cons, List.mem_cons] at hroots
  simp only [searchRoots, includeRoots, List.mem_append, List.mem_cons]
  tauto

/-- The edge of a contributed file writes what it declares exactly when no earlier root
at another place lies around the file or holds one of that name. -/
theorem writesDeclared_planEdge_iff (hroot : h.manifestDir ≠ []) (tree : SourceTree)
    {protos : List Entry} {protoc wkt r n : Text} (hr : r ∈ generationRoots opt)
    (hn : Contributes h r n) :
    (planEdge h opt protos protoc wkt ⟨absUnderRoot h r, n⟩).WritesDeclared tree h.outDir
        (generatorSuffixes h opt) n ↔
      ∀ q ∈ rootsEarlier h opt r,
        ¬(locate (rootDir h q)).IsPrefix (locate (Entry.source ⟨absUnderRoot h r, n⟩)) ∧
        ¬tree.holds (inRoot (absUnderRoot h q) (n ++ protoExtension)) = true := by
  obtain ⟨hpre, hbelow⟩ := below_source hroot hn
  have hname := virtualName_eq_below_iff tree (absUnderRoot_mem_searchRoots hr wkt) hpre
  rw [rootsOutside_searchRoots hr, hbelow, join_filenames_of_contributes hn,
    List.forall_mem_map] at hname
  have hplace : ∀ q, locate (absUnderRoot h q) = locate (rootDir h q) := fun q => by
    rw [absUnderRoot_eq, locate_genericString]
  simp only [hplace] at hname
  rw [← hname]
  simp only [Edge.WritesDeclared, searchPath_planEdge, sourceFile_planEdge, written,
    and_iff_left_iff_imp]
  intro hv
  rw [hv, Option.map_some, join_filenames_of_contributes hn, writtenFiles_eq_edgeOutputs]
  rfl

/-- On distinct names every edge of `planAll` writes the files it declares exactly when no
earlier generation root at another place lies around its source, and what exists under
the source's name in such a root is a file that root contributes. -/
theorem planAll_writesDeclared_iff {s : Session h} {edges : List Edge}
    (hrun : returned (planAll h opt) s = some edges) (hne : edges ≠ [])
    (hdistinct : DistinctNames h opt) (tree : SourceTree) :
    List.Forall₂ (fun ent e => e.WritesDeclared tree h.outDir (generatorSuffixes h opt)
        ent.name) (plannedEntries h opt) edges ↔
      ∀ r ∈ generationRoots opt, ∀ n, Contributes h r n → ∀ q ∈ rootsEarlier h opt r,
        ¬(locate (rootDir h q)).IsPrefix (locate (Entry.source ⟨absUnderRoot h r, n⟩)) ∧
        (tree.holds (inRoot (absUnderRoot h q) (n ++ protoExtension)) = true →
          Contributes h q n) := by
  obtain ⟨hroots, protoc, wkt, hc, rfl⟩ := checked_of_planAll hrun hne
  have hroot := hc.manifestDir_ne_nil
  rw [List.forall₂_map_right_iff, List.forall₂_same]
  constructor
  · intro hall r hr n hn q hq
    have hent := (mem_plannedEntries hroot hroots ⟨absUnderRoot h r, n⟩).mpr ⟨r, hr, rfl, hn⟩
    obtain ⟨hpre, hholds⟩ := (writesDeclared_planEdge_iff hroot tree hr hn).mp (hall _ hent) q hq
    exact ⟨hpre, fun hfile => absurd hfile hholds⟩
  · rintro hall ⟨_, n⟩ hent
    obtain ⟨r, hr, rfl, hn⟩ := (mem_plannedEntries hroot hroots _).mp hent
    refine (writesDeclared_planEdge_iff hroot tree hr hn).mpr fun q hq => ?_
    obtain ⟨hpre, hholds⟩ := hall r hr n hn q hq
    refine ⟨hpre, fun hfile => ?_⟩
    -- distinct names leave no such file
    have hqroot : q ∈ generationRoots opt := (List.takeWhile_sublist _).subset hq
    have hplace := hdistinct.locate_eq hroot hroots hqroot hr (hholds hfile) hn
    have hother : locate (rootDir h q) ≠ locate (rootDir h r) := by
      simpa using List.mem_takeWhile_imp hq
    exact hother hplace

/-- The one file `proto/sub/x.proto`, below two generation roots. -/
def nestedRoots : List (Text × Listing DirectoryEntry) :=
  [(lit "/m/proto", .ofList (entriesOf
      [([lit "sub"], some .directory), ([lit "sub", lit "x.proto"], some .regular)])),
    (lit "/m/proto/sub", .ofList (entriesOf [([lit "x.proto"], some .regular)]))]

def nestedOptions : Options := { extraDirs := [lit "proto/sub"] }

def nestedTree : SourceTree := .ofFiles [(lit "/m/proto/sub/x.proto", [])]

/-- Its two edges, named `sub/x` and `x`. -/
def nestedEdges : List Edge :=
  let protos : List Entry := [⟨lit "/m/proto", lit "sub/x"⟩, ⟨lit "/m/proto/sub", lit "x"⟩]
  protos.map (planEdge (fixedHost nestedRoots true) nestedOptions protos (lit "/bin/protoc")
    (lit "/p/pb/src"))

theorem planAll_nested :
    returned (planAll (fixedHost nestedRoots true) nestedOptions)
        (freshSession nestedRoots true) = some nestedEdges ∧ nestedEdges ≠ [] ∧
      DistinctNames (fixedHost nestedRoots true) nestedOptions := by
  have hentries : plannedEntries (fixedHost nestedRoots true) nestedOptions =
      [⟨lit "/m/proto", lit "sub/x"⟩, ⟨lit "/m/proto/sub", lit "x"⟩] := by
    decide +kernel
  have hrun := returned_planAll_fixedHost (by decide +kernel) hentries rfl (List.cons_ne_nil _ _)
    (freshSession nestedRoots true)
  refine ⟨hrun, List.cons_ne_nil _ _, ?_⟩
  rw [DistinctNames, plannedNames, hentries]
  decide +kernel

/-- The second edge declares `x.pb.cc`, and protoc writes `sub/x.pb.cc`. -/
theorem planAll_nested_writes_elsewhere :
    ∃ edges, returned (planAll (fixedHost nestedRoots true) nestedOptions)
        (freshSession nestedRoots true) = some edges ∧
      DistinctNames (fixedHost nestedRoots true) nestedOptions ∧
      ¬List.Forall₂ (fun ent e => e.WritesDeclared nestedTree (lit "/o")
          (generatorSuffixes (fixedHost nestedRoots true) nestedOptions) ent.name)
        (plannedEntries (fixedHost nestedRoots true) nestedOptions) edges := by
  refine ⟨nestedEdges, planAll_nested.1, planAll_nested.2.2, ?_⟩
  intro hall
  have hx := (hall.get (i := 1) (by decide +kernel) (by decide +kernel)).1
  revert hx
  decide +kernel

theorem nested_writesDeclared_iff :
    List.Forall₂ (fun ent e => e.WritesDeclared nestedTree (lit "/o")
          (generatorSuffixes (fixedHost nestedRoots true) nestedOptions) ent.name)
        (plannedEntries (fixedHost nestedRoots true) nestedOptions) nestedEdges ↔
      ∀ r ∈ generationRoots nestedOptions, ∀ n, Contributes (fixedHost nestedRoots true) r n →
        ∀ q ∈ rootsEarlier (fixedHost nestedRoots true) nestedOptions r,
          ¬(locate (rootDir (fixedHost nestedRoots true) q)).IsPrefix
            (locate (Entry.source ⟨absUnderRoot (fixedHost nestedRoots true) r, n⟩)) ∧
          (nestedTree.holds (inRoot (absUnderRoot (fixedHost nestedRoots true) q)
              (n ++ protoExtension)) = true →
            Contributes (fixedHost nestedRoots true) q n) :=
  planAll_writesDeclared_iff planAll_nested.1 planAll_nested.2.1 planAll_nested.2.2 nestedTree

end GrpcM.Grpcgen
