import GrpcM.Grpcgen.Enumeration

/-!
Enumerating refines naming. On roots whose enumeration reports no error
`planAll` plans what `planEntries` plans for the explicit list of names in
ascending order, so neither the order of the entries nor the other files of the
tree show in the result.
-/

namespace GrpcM.Grpcgen

open GrpcM.Path GrpcM.FileSystem

variable {h : Host} {opt : Options}

/-- The iteration below a root opens, reads every status, ends without an error and
lists each path once, in the order of `es`. -/
structure CleanListing (h : Host) (r : Text) (es : List DirectoryEntry) : Prop where
  listing : h.recursiveDirectoryIterator (rootDir h r) = some (.ofList es)
  readable : ∀ e ∈ es, e.readable = true
  nodup : (es.map (·.relative)).Nodup

/-- The names of the regular `.proto` files, each once and in ascending order. -/
structure SortedNames (es : List DirectoryEntry) (ns : List Text) : Prop where
  ascending : ns.Pairwise (· < ·)
  mem_iff : ∀ n, n ∈ ns ↔ RegularProto es n

theorem collectNames_ofList {dir : Text} {es : List DirectoryEntry}
    (hread : ∀ e ∈ es, e.readable = true) (names : List Text) :
    collectNames dir false (.ofList es) names =
      .ok (names ++ (es.filter isProtoFile).map (protoName dir)) := by
  induction es generalizing names with
  | nil => simp [Listing.ofList, collectNames]
  | cons e es ih =>
      have he := hread e List.mem_cons_self
      rw [Listing.ofList, collectNames_readable dir _ names he,
        ih fun e' he' => hread e' (List.mem_cons_of_mem _ he')]
      cases hproto : isProtoFile e <;> simp [hproto]

theorem rootNames_of_clean {r : Text} {es : List DirectoryEntry} (hc : CleanListing h r es) :
    rootNames h r = .ok ((es.filter isProtoFile).map (protoName (rootDir h r))) := by
  simp [rootNames, hc.listing, collectNames_ofList hc.readable]

theorem nodup_names {dir : Text} (hdir : dir ≠ []) {es : List DirectoryEntry}
    (hnodup : (es.map (·.relative)).Nodup) :
    ((es.filter isProtoFile).map (protoName dir)).Nodup := by
  have hfiltered : ((es.filter isProtoFile).map (·.relative)).Nodup :=
    hnodup.sublist (List.filter_sublist.map _)
  rw [List.Nodup, List.pairwise_map] at hfiltered ⊢
  refine hfiltered.imp_of_mem ?_
  intro e e' he he' hne hname
  apply hne
  apply RelativePath.text_injective
  rw [← protoName_append hdir (List.mem_filter.mp he).2,
    ← protoName_append hdir (List.mem_filter.mp he').2, hname]

/-- Sorting the names the loop collects gives the ascending list, so there always is one. -/
theorem sortedNames_sort {dir : Text} (hdir : dir ≠ []) {es : List DirectoryEntry}
    (hnodup : (es.map (·.relative)).Nodup) :
    SortedNames es (sortNames ((es.filter isProtoFile).map (protoName dir))) := by
  constructor
  · have hle := pairwise_sortNames ((es.filter isProtoFile).map (protoName dir))
    have hne : (sortNames ((es.filter isProtoFile).map (protoName dir))).Nodup :=
      (List.perm_insertionSort _ _).nodup_iff.mpr (nodup_names hdir hnodup)
    exact (hle.and hne).imp fun hab => lt_of_le_of_ne (not_lt.mp hab.1) hab.2
  · intro n
    rw [sortNames, List.mem_insertionSort, mem_protoNames hdir]

theorem rootEntries_of_clean (hroot : h.manifestDir ≠ []) {r : Text}
    {es : List DirectoryEntry} {ns : List Text} (hc : CleanListing h r es)
    (hns : SortedNames es ns) :
    rootEntries h r = ns.map fun n => ⟨absUnderRoot h r, n⟩ := by
  have hnames := rootNames_of_clean hc
  have hdir := rootDir_ne_nil hroot r
  have hsorted : sortNames ((es.filter isProtoFile).map (protoName (rootDir h r))) = ns := by
    -- both lists hold the same names, each once, so one is the other rearranged
    refine sortNames_eq ?_ hns.ascending
    have hns_nodup : ns.Nodup := hns.ascending.imp fun hlt => ne_of_lt hlt
    refine (List.perm_ext_iff_of_nodup (nodup_names hdir hc.nodup) hns_nodup).mpr ?_
    intro n
    rw [hns.mem_iff, mem_protoNames hdir]
  rw [rootEntries, hnames]
  simp only [hsorted, absUnderRoot_eq]

/-! ### The whole function -/

theorem elements_source {dir n : Text} {e : DirectoryEntry} (hdir : dir ≠ [])
    (htext : e.relative.text = n ++ protoExtension) :
    elements (Entry.source ⟨genericString dir, n⟩) = elements (e.path dir) := by
  rw [Entry.source, ← htext, DirectoryEntry.path, RelativePath.text,
    elements_append_slash_join (genericString_ne_nil hdir) e.relative.nonempty
      e.relative.isFilename,
    elements_append_join hdir e.relative.nonempty e.relative.isFilename,
    isAbsolute_genericString, filenames_genericString]

theorem enumerates_of_clean {r : Text} {es : List DirectoryEntry}
    (hexists : h.fileExists (rootDir h r) = true) (hc : CleanListing h r es) :
    Enumerates h r :=
  ⟨hexists, _, rootNames_of_clean hc⟩

theorem plannedEntries_of_clean (hroot : h.manifestDir ≠ [])
    {es : Text → List DirectoryEntry} {names : Text → List Text}
    (hclean : ∀ r ∈ generationRoots opt, CleanListing h r (es r))
    (hnames : ∀ r ∈ generationRoots opt, SortedNames (es r) (names r)) :
    plannedEntries h opt =
      (generationRoots opt).flatMap fun r => (names r).map fun n => ⟨absUnderRoot h r, n⟩ := by
  rw [plannedEntries]
  refine List.flatMap_congr fun r hr => ?_
  exact rootEntries_of_clean hroot (hclean r hr) (hnames r hr)

/-- With the enumeration through, `planAll` is `planEntries` on the explicit list. -/
theorem returned_planAll_of_clean {es : Text → List DirectoryEntry} {names : Text → List Text}
    (hexists : ∀ r ∈ generationRoots opt, h.fileExists (rootDir h r) = true)
    (hclean : ∀ r ∈ generationRoots opt, CleanListing h r (es r))
    (hnames : ∀ r ∈ generationRoots opt, SortedNames (es r) (names r)) (s : Session h) :
    returned (planAll h opt) s =
      returned (planEntries h ((generationRoots opt).flatMap fun r =>
        (names r).map fun n => ⟨absUnderRoot h r, n⟩) opt) s := by
  have hall : ∀ r ∈ generationRoots opt, Enumerates h r :=
    fun r hr => enumerates_of_clean (hexists r hr) (hclean r hr)
  rw [returned_planAll hall]
  by_cases hroot : h.manifestDir = []
  · rw [returned_planEntries_of_no_context hroot, returned_planEntries_of_no_context hroot]
  · rw [plannedEntries_of_clean hroot hclean hnames]

theorem exists_listed_source {es : Text → List DirectoryEntry}
    (hclean : ∀ r ∈ generationRoots opt, CleanListing h r (es r)) {s : Session h}
    {edges : List Edge} (hrun : returned (planAll h opt) s = some edges) :
    ∀ edge ∈ edges, ∃ r ∈ generationRoots opt, ∃ e ∈ es r, isProtoFile e = true ∧
      edge.command.getLast?.map elements = some (elements (e.path (rootDir h r))) := by
  intro edge hedge
  obtain ⟨hroots, protoc, wkt, hc, rfl⟩ := checked_of_planAll hrun (List.ne_nil_of_mem hedge)
  have hroot := hc.manifestDir_ne_nil
  obtain ⟨ent, hent, rfl⟩ := List.mem_map.mp hedge
  obtain ⟨r, hr, hentroot, l, hl, e, he, hproto, htext⟩ :=
    (mem_plannedEntries hroot hroots ent).mp hent
  have hlisting : l = .ofList (es r) := by simpa [hl] using (hclean r hr).listing
  refine ⟨r, hr, e, ?_, hproto, ?_⟩
  · have hmem := (List.takeWhile_sublist _).subset he
    simpa [hlisting] using hmem
  · rw [getLast?_planEdge, Option.map_some, ← elements_source (rootDir_ne_nil hroot r) htext,
      ← absUnderRoot_eq, ← hentroot]

/-- Two hosts whose roots hold the same regular `.proto` files get the same edges, in
whatever order and between whatever other files these are listed. -/
theorem returned_planAll_congr {h' : Host} (hsame : SameAnswers h h')
    {es es' : Text → List DirectoryEntry}
    (hexists : ∀ r ∈ generationRoots opt, h.fileExists (rootDir h r) = true)
    (hexists' : ∀ r ∈ generationRoots opt, h'.fileExists (rootDir h' r) = true)
    (hclean : ∀ r ∈ generationRoots opt, CleanListing h r (es r))
    (hclean' : ∀ r ∈ generationRoots opt, CleanListing h' r (es' r))
    (hset : ∀ r ∈ generationRoots opt, ∀ n, RegularProto (es' r) n ↔ RegularProto (es r) n)
    {names : Text → List Text}
    (hnames : ∀ r ∈ generationRoots opt, SortedNames (es r) (names r))
    (s : Session h) (s' : Session h') :
    returned (planAll h' opt) s' = returned (planAll h opt) s := by
  have hdir : ∀ r, rootDir h' r = rootDir h r := fun r => by
    rw [rootDir, rootDir, hsame.toMcpp]
  have habs : ∀ r, absUnderRoot h' r = absUnderRoot h r := fun r => by
    rw [absUnderRoot_eq, absUnderRoot_eq, hdir]
  have hnames' : ∀ r ∈ generationRoots opt, SortedNames (es' r) (names r) := fun r hr =>
    ⟨(hnames r hr).ascending, fun n => by rw [(hnames r hr).mem_iff, hset r hr]⟩
  rw [returned_planAll_of_clean hexists hclean hnames s,
    returned_planAll_of_clean hexists' hclean' hnames' s',
    returned_planEntries_congr hsame _ opt s s']
  simp only [habs]

/-- On roots that exist and enumerate without an error `planAll` plans the ascending
lists of names, root by root. -/
theorem planAll_refines_explicit_list {es : Text → List DirectoryEntry}
    {names : Text → List Text}
    (hexists : ∀ r ∈ generationRoots opt, h.fileExists (rootDir h r) = true)
    (hclean : ∀ r ∈ generationRoots opt, CleanListing h r (es r))
    (hnames : ∀ r ∈ generationRoots opt, SortedNames (es r) (names r)) (s : Session h) :
    returned (planAll h opt) s =
        returned (planEntries h ((generationRoots opt).flatMap fun r =>
          (names r).map fun n => ⟨absUnderRoot h r, n⟩) opt) s ∧
      (opt.extraDirs = [] →
        returned (planAll h opt) s = returned (plan h (names opt.protoDir) opt) s) ∧
      (∀ (h' : Host) (es' : Text → List DirectoryEntry) (s' : Session h'), SameAnswers h h' →
        (∀ r ∈ generationRoots opt, h'.fileExists (rootDir h' r) = true ∧
          CleanListing h' r (es' r) ∧ ∀ n, RegularProto (es' r) n ↔ RegularProto (es r) n) →
        returned (planAll h' opt) s' = returned (planAll h opt) s) ∧
      ∀ edges, returned (planAll h opt) s = some edges → ∀ edge ∈ edges,
        ∃ r ∈ generationRoots opt, ∃ e ∈ es r, isProtoFile e = true ∧
          edge.command.getLast?.map elements = some (elements (e.path (rootDir h r))) := by
  have hvalue := returned_planAll_of_clean hexists hclean hnames s
  refine ⟨hvalue, ?_, ?_, ?_⟩
  · intro hextra
    rw [hvalue, returned_plan]
    simp [generationRoots, namedEntries, hextra]
  · intro h' es' s' hsame hsets
    exact returned_planAll_congr hsame hexists (fun r hr => (hsets r hr).1) hclean
      (fun r hr => (hsets r hr).2.1) (fun r hr => (hsets r hr).2.2) hnames s s'
  · intro edges hedges
    exact exists_listed_source hclean hedges

/-- A tree that lists `sub/b.proto` before `a.proto`, and a file that is no `.proto`. -/
def unsortedEntries : List DirectoryEntry :=
  entriesOf [([lit "sub", lit "b.proto"], some .regular), ([lit "README"], some .regular),
    ([lit "a.proto"], some .regular)]

def unsortedRoots : List (Text × Listing DirectoryEntry) :=
  [(lit "/m/proto", .ofList unsortedEntries)]

/-- The same `.proto` files in another order, and other files inside and outside the root. -/
def tidyEntries : List DirectoryEntry :=
  entriesOf [([lit "a.proto"], some .regular), ([lit "LICENSE"], some .regular),
    ([lit "sub"], some .directory), ([lit "sub", lit "b.proto"], some .regular)]

def tidyRoots : List (Text × Listing DirectoryEntry) :=
  [(lit "/m/proto", .ofList tidyEntries), (lit "/m/docs", .done)]

theorem sortedNames_of_sort {es : List DirectoryEntry} {ns : List Text}
    (hnodup : (es.map (·.relative)).Nodup)
    (hsort : sortNames ((es.filter isProtoFile).map (protoName (lit "/m/proto"))) = ns) :
    SortedNames es ns :=
  hsort ▸ sortedNames_sort (by decide +kernel) hnodup

/-- On the first tree the explicit list is `a`, `sub/b`, and the second one, where another
path exists, is planned alike. -/
theorem planAll_unsortedRoots :
    returned (planAll (fixedHost unsortedRoots true) {}) (freshSession unsortedRoots true) =
        returned (plan (fixedHost unsortedRoots true) [lit "a", lit "sub/b"] {})
          (freshSession unsortedRoots true) ∧
      returned (planAll (fixedHost tidyRoots true) {}) (freshSession tidyRoots true) =
        returned (planAll (fixedHost unsortedRoots true) {}) (freshSession unsortedRoots true) ∧
      (fixedHost tidyRoots true).fileExists (lit "/m/docs") ≠
        (fixedHost unsortedRoots true).fileExists (lit "/m/docs") := by
  have hnodup : (unsortedEntries.map (·.relative)).Nodup := by decide +kernel
  have hnames : SortedNames unsortedEntries [lit "a", lit "sub/b"] :=
    sortedNames_of_sort hnodup (by decide +kernel)
  have hnodup' : (tidyEntries.map (·.relative)).Nodup := by decide +kernel
  have hnames' : SortedNames tidyEntries [lit "a", lit "sub/b"] :=
    sortedNames_of_sort hnodup' (by decide +kernel)
  have hroots : ∀ r ∈ generationRoots {}, r = lit "proto" := fun r hr => List.mem_singleton.mp hr
  have hall := @planAll_refines_explicit_list (fixedHost unsortedRoots true) {}
    (fun _ => unsortedEntries) (fun _ => [lit "a", lit "sub/b"])
    (fun r hr => by rw [hroots r hr]; decide +kernel)
    (fun r hr => by rw [hroots r hr]; exact ⟨by decide +kernel, by decide +kernel, hnodup⟩)
    (fun _ _ => hnames) (freshSession unsortedRoots true)
  refine ⟨hall.2.1 rfl, ?_, by decide +kernel⟩
  refine hall.2.2.1 (fixedHost tidyRoots true) (fun _ => tidyEntries) _
    ⟨rfl, by rw [wellKnownTypesDir_fixedHost, wellKnownTypesDir_fixedHost]⟩ fun r hr => ?_
  rw [hroots r hr]
  refine ⟨by decide +kernel, ⟨by decide +kernel, by decide +kernel, hnodup'⟩, fun n => ?_⟩
  rw [← hnames'.mem_iff, ← hnames.mem_iff]

end GrpcM.Grpcgen
