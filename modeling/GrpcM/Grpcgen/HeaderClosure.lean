import GrpcM.FileSystem.Tree
import GrpcM.Grpcgen.ExplicitList
import GrpcM.Grpcgen.EdgeSpec

/-!
The headers of imported files. protoc finds an import by looking its path up,
and the code it generates includes the header named after that path; the rule
produces the headers of the files its enumeration lists. An import found through
a directory link is found by the one and not by the other.
-/

namespace GrpcM.Grpcgen

open GrpcM.Path GrpcM.FileSystem GrpcM.Protoc GrpcM.Suffixes

variable {h : Host} {opt : Options} {Node : Type} {T : FileTree Node}

/-! ### The two views of a tree -/

/-- The files of a tree as protoc opens them. -/
def sourceTree (T : FileTree Node) (imports : Location → List Text) : SourceTree where
  holds l := (T.nodeAt l).isSome
  imports := imports

/-- The iteration below a root reports no error and lists the tree below the root's node. -/
structure ListsTree (h : Host) (T : FileTree Node) (r : Text) (es : List DirectoryEntry) : Prop
    extends CleanListing h r es where
  entries : ∃ i, T.nodeAt (locate (rootDir h r)) = some i ∧
    ∀ e, e ∈ es ↔ ∃ t, T.Lists i e.relative.names t ∧ e.status = T.status t

/-- Below the directory a regular file is at this path, with no link to a directory on
the way; the file itself may be a link. -/
def HasRegular (T : FileTree Node) (dir : Location) (v : Text) : Prop :=
  ∃ i ns t, T.nodeAt dir = some i ∧ T.Lists i ns t ∧ join ns = v ∧ T.status t = some .regular

/-- Below the root `n.proto` is such a file, and `.proto` is its extension. -/
def HasProto (T : FileTree Node) (h : Host) (r n : Text) : Prop :=
  HasRegular T (locate (rootDir h r)) (n ++ protoExtension) ∧
    extension (n ++ protoExtension) = protoExtension

theorem nodeAt_inRoot (hroot : h.manifestDir ≠ []) (r : Text) {ns : List Text}
    (hproper : ∀ n ∈ ns, IsProperName n) :
    T.nodeAt (inRoot (absUnderRoot h r) (join ns)) =
      (T.nodeAt (locate (rootDir h r))).bind fun i => T.walk i ns := by
  have hne := absUnderRoot_ne_nil hroot r
  rw [inRoot, locate_append_slash _ hne, locate_join hproper, FileTree.nodeAt_append _ _ hproper,
    absUnderRoot_eq, locate_genericString, isAbsolute_genericString]
  rfl

/-- protoc finds a regular file at these names below the root, and passes no directory
link on the way to it. -/
def FoundDirectly (T : FileTree Node) (h : Host) (r : Text) (ns : List Text) : Prop :=
  ∃ i j, T.nodeAt (locate (rootDir h r)) = some i ∧ ¬T.Crosses i ns ∧
    T.nodeAt (inRoot (absUnderRoot h r) (join ns)) = some j ∧ T.fileType j = .regular

theorem hasProto_iff (hroot : h.manifestDir ≠ []) {r n : Text} :
    HasProto T h r n ↔ extension (n ++ protoExtension) = protoExtension ∧
      ∃ ns, (∀ m ∈ ns, IsProperName m) ∧ join ns = n ++ protoExtension ∧
        FoundDirectly T h r ns := by
  rw [HasProto, and_comm]
  refine and_congr_right fun _ => ?_
  constructor
  · rintro ⟨i, ns, t, hi, hlists, hjoin, hstatus⟩
    obtain ⟨j, hj, hregular⟩ := Option.map_eq_some_iff.mp hstatus
    obtain ⟨hwalk, hcross⟩ := (FileTree.lists_iff_walk hlists.ne_nil).mp ⟨t, hlists, hj⟩
    refine ⟨ns, hlists.proper, hjoin, i, j, hi, hcross, ?_, hregular⟩
    rw [nodeAt_inRoot hroot r hlists.proper, hi]
    exact hwalk
  · rintro ⟨ns, hproper, hjoin, i, j, hi, hcross, hj, hregular⟩
    have hne : ns ≠ [] := by
      rintro rfl
      simp [protoExtension, lit] at hjoin
    rw [nodeAt_inRoot hroot r hproper, hi] at hj
    obtain ⟨t, hlists, hfollow⟩ := (FileTree.lists_iff_walk hne).mpr ⟨hj, hcross⟩
    refine ⟨i, ns, t, hi, hlists, hjoin, ?_⟩
    rw [FileTree.status, hfollow, Option.map_some, hregular]

theorem contributes_iff {r n : Text} {es : List DirectoryEntry} (hl : ListsTree h T r es) :
    Contributes h r n ↔ HasProto T h r n := by
  obtain ⟨i, hi, hes⟩ := hl.entries
  have hkept : keptEntries (.ofList es) = es := by
    rw [keptEntries, Listing.entries_ofList]
    exact List.takeWhile_eq_self_iff.mpr hl.readable
  constructor
  · rintro ⟨l, hlisting, e, he, hproto, htext⟩
    obtain rfl : Listing.ofList es = l := by
      rw [hl.listing] at hlisting
      exact Option.some.inj hlisting
    rw [hkept] at he
    obtain ⟨t, hlists, hstatus⟩ := (hes e).mp he
    obtain ⟨hregular, hext⟩ := Bool.and_eq_true_iff.mp hproto
    refine ⟨⟨i, e.relative.names, t, hi, hlists, htext, ?_⟩, ?_⟩
    · rw [← hstatus]
      simpa using hregular
    · rw [← htext]
      simpa using hext
  · rintro ⟨⟨i', ns, t, hi', hlists, htext, hstatus⟩, hext⟩
    obtain rfl : i = i' := Option.some.inj (hi.symm.trans hi')
    let e : DirectoryEntry := ⟨⟨ns, hlists.ne_nil, hlists.proper⟩, T.status t⟩
    have he : e ∈ es := (hes e).mpr ⟨t, hlists, rfl⟩
    have hproto : isProtoFile e = true := by
      have htext' : e.relative.text = n ++ protoExtension := htext
      simp only [isProtoFile, htext', hext, beq_self_eq_true, Bool.and_true]
      simpa using hstatus
    exact ⟨_, hl.listing, e, hkept.symm ▸ he, hproto, htext⟩

/-! ### Headers -/

/-- The header that the code generated for an importer of `m.proto` includes. -/
def headerPath (h : Host) (m : Text) : Text := outputBase h m ++ lit ".pb.h"

theorem header_mem_outputs_iff {s : Session h} {edges : List Edge}
    (hrun : returned (planAll h opt) s = some edges) (hne : edges ≠ []) (m : Text) :
    headerPath h m ∈ edges.flatMap (·.outputs) ↔
      ∃ r ∈ generationRoots opt, ∃ n, Contributes h r n ∧
        ∃ suffix ∈ generatorSuffixes h opt, n ++ suffix = m ++ lit ".pb.h" := by
  obtain ⟨hroots, protoc, wkt, hc, rfl⟩ := checked_of_planAll hrun hne
  have hheader : headerPath h m = outputBase h (m ++ lit ".pb.h") := by
    simp [headerPath, outputBase]
  rw [outputs_planEdge, hheader, List.mem_map_of_injective (outputBase_injective h)]
  show m ++ lit ".pb.h" ∈ combine (plannedNames h opt) _ ↔ _
  simp only [combine, List.mem_flatMap, List.mem_map,
    mem_plannedNames hc.manifestDir_ne_nil hroots]
  constructor
  · rintro ⟨n, ⟨r, hr, hn⟩, suffix, hsuffix, heq⟩
    exact ⟨r, hr, n, hn, suffix, hsuffix, heq⟩
  · rintro ⟨r, hr, n, hn, suffix, hsuffix, heq⟩
    exact ⟨n, ⟨r, hr, hn⟩, suffix, hsuffix, heq⟩

/-- Some generation root has `m.proto` without a link on the way, or a plugin gives the
header's name to another file's output. -/
def HeaderProduced (T : FileTree Node) (h : Host) (opt : Options) (m : Text) : Prop :=
  (∃ r ∈ generationRoots opt, HasProto T h r m) ∨
    ∃ r ∈ generationRoots opt, ∃ n, HasProto T h r n ∧
      ∃ p ∈ resolvePlugins h opt, ∃ suffix ∈ p.suffixes, n ++ suffix = m ++ lit ".pb.h"

theorem headerProduced_iff {es : Text → List DirectoryEntry}
    (htree : ∀ r ∈ generationRoots opt, ListsTree h T r (es r)) (m : Text) :
    HeaderProduced T h opt m ↔
      ∃ r ∈ generationRoots opt, ∃ n, Contributes h r n ∧
        ∃ suffix ∈ generatorSuffixes h opt, n ++ suffix = m ++ lit ".pb.h" := by
  constructor
  · rintro (⟨r, hr, hm⟩ | ⟨r, hr, n, hn, p, hp, suffix, hsuffix, heq⟩)
    · refine ⟨r, hr, m, (contributes_iff (htree r hr)).mpr hm, lit ".pb.h", ?_, rfl⟩
      simp [generatorSuffixes]
    · refine ⟨r, hr, n, (contributes_iff (htree r hr)).mpr hn, suffix, ?_, heq⟩
      exact List.mem_append_right _ (List.mem_flatMap.mpr ⟨p, hp, hsuffix⟩)
  · rintro ⟨r, hr, n, hn, suffix, hsuffix, heq⟩
    have hproto := (contributes_iff (htree r hr)).mp hn
    rcases List.mem_append.mp hsuffix with hcpp | hplugin
    · rcases List.mem_pair.mp hcpp with rfl | rfl
      · -- a source does not end like a header
        have hlast := congrArg List.getLast? heq
        rw [List.getLast?_append_of_ne_nil _ (by decide +kernel),
          List.getLast?_append_of_ne_nil _ (by decide +kernel)] at hlast
        exact absurd hlast (by decide +kernel)
      · obtain rfl := List.append_cancel_right heq
        exact .inl ⟨r, hr, hproto⟩
    · obtain ⟨p, hp, hsuffix⟩ := List.mem_flatMap.mp hplugin
      exact .inr ⟨r, hr, n, hproto, p, hp, suffix, hsuffix, heq⟩

/-! ### Imports -/

/-- A relative path in normal form. -/
def Canonical (v : Text) : Prop := ∃ ns, (∀ n ∈ ns, IsProperName n) ∧ join ns = v

/-- A file's import of `m.proto` is found inside a generation root. -/
def ImportsInside (h : Host) (opt : Options) (tree : SourceTree) (roots : List Text)
    (file : Location) (m : Text) : Prop :=
  m ++ protoExtension ∈ tree.imports file ∧ Canonical (m ++ protoExtension) ∧
    ∃ file', resolve tree roots (m ++ protoExtension) = some file' ∧
      ∃ r ∈ generationRoots opt, (locate (rootDir h r)).IsPrefix file'

/-- Every header that the code generated for these edges includes from inside a generation
root is an output. -/
def HeadersClosed (h : Host) (opt : Options) (tree : SourceTree) (edges : List Edge) : Prop :=
  ∀ e ∈ edges, ∀ m,
    ImportsInside h opt tree (searchPath e.command) (locate (sourceFile e.command)) m →
      headerPath h m ∈ edges.flatMap (·.outputs)

/-- On a tree that is listed without an error the headers are closed exactly when no import
of a listed file that is found inside a generation root has to go through a directory link
(or has a name that no listed file can have): a root has the files protoc finds below it
without such a link. -/
theorem planAll_headersClosed_iff {s : Session h} {edges : List Edge}
    (hrun : returned (planAll h opt) s = some edges) (hne : edges ≠ [])
    {es : Text → List DirectoryEntry}
    (htree : ∀ r ∈ generationRoots opt, ListsTree h T r (es r))
    (imports : Location → List Text) {wkt : Text} (hwkt : wellKnownTypesDir h = .ok wkt) :
    (HeadersClosed h opt (sourceTree T imports) edges ↔
      ∀ r ∈ generationRoots opt, ∀ n, HasProto T h r n → ∀ m,
        ImportsInside h opt (sourceTree T imports) (searchRoots h opt wkt)
            (locate (Entry.source ⟨absUnderRoot h r, n⟩)) m →
          HeaderProduced T h opt m) ∧
      ∀ r m, HasProto T h r m ↔ extension (m ++ protoExtension) = protoExtension ∧
        ∃ ns, (∀ n ∈ ns, IsProperName n) ∧ join ns = m ++ protoExtension ∧
          FoundDirectly T h r ns := by
  have hheader := header_mem_outputs_iff hrun hne
  obtain ⟨hroots, protoc, wkt', hc, hedges⟩ := checked_of_planAll hrun hne
  obtain rfl := hc.wkt_unique hwkt
  have hmem := mem_plannedEntries hc.manifestDir_ne_nil hroots
  refine ⟨?_, fun r m => hasProto_iff hc.manifestDir_ne_nil⟩
  simp only [HeadersClosed, hheader, ← headerProduced_iff htree]
  rw [hedges, List.forall_mem_map]
  simp only [searchPath_planEdge, sourceFile_planEdge]
  constructor
  · intro hall r hr n hn m
    have hcontributes := (contributes_iff (htree r hr)).mpr hn
    exact hall _ ((hmem ⟨absUnderRoot h r, n⟩).mpr ⟨r, hr, rfl, hcontributes⟩) m
  · rintro hall ⟨_, n⟩ hent m
    obtain ⟨r, hr, rfl, hn⟩ := (hmem _).mp hent
    exact hall r hr n ((contributes_iff (htree r hr)).mp hn) m

/-! ### A directory link -/

/-- `/m/proto` holds `a.proto` and a link to `/m/shared`, which holds `b.proto`. -/
def linkedChildren : List (List (Text × Target (Fin 6))) :=
  [[(lit "m", .node 1)], [(lit "proto", .node 2), (lit "shared", .node 3)],
    [(lit "a.proto", .node 4), (lit "link", .link (some 3))], [(lit "b.proto", .node 5)]]

def linkedTree : FileTree (Fin 6) :=
  .rooted (fun i => if i < 4 then .directory else .regular)
    (fun i : Fin 6 => linkedChildren.getD i []) (by decide +kernel) (by decide +kernel)
    (by decide +kernel) 0

/-- `a.proto` imports the other file through the link. -/
def linkedImports (file : Location) : List Text :=
  if file = locate (lit "/m/proto/a.proto") then [lit "link/b.proto"] else []

def linkedEntries : List DirectoryEntry :=
  entriesOf [([lit "a.proto"], some .regular), ([lit "link"], some .directory)]

def linkedRoots : List (Text × Listing DirectoryEntry) :=
  [(lit "/m/proto", .ofList linkedEntries)]

def linkedEdges : List Edge :=
  let a : Entry := ⟨lit "/m/proto", lit "a"⟩
  [planEdge (fixedHost linkedRoots true) {} [a] (lit "/bin/protoc") (lit "/p/pb/src") a]

theorem planAll_linked :
    returned (planAll (fixedHost linkedRoots true) {}) (freshSession linkedRoots true) =
      some linkedEdges ∧ linkedEdges ≠ [] := by
  have hentries : plannedEntries (fixedHost linkedRoots true) {} =
      [⟨lit "/m/proto", lit "a"⟩] := by
    decide +kernel
  have hrun := returned_planAll_fixedHost (by decide +kernel) hentries rfl (List.cons_ne_nil _ _)
    (freshSession linkedRoots true)
  exact ⟨hrun, List.cons_ne_nil _ _⟩

theorem lists_linked {ns : List Text} {t : Target (Fin 6)} :
    linkedTree.Lists (2 : Fin 6) ns t ↔
      (ns = [lit "a.proto"] ∧ t = .node 4) ∨ (ns = [lit "link"] ∧ t = .link (some 3)) := by
  have hchildren : ∀ n u, (n, u) ∈ linkedTree.children (2 : Fin 6) ↔
      (n = lit "a.proto" ∧ u = .node 4) ∨ (n = lit "link" ∧ u = .link (some 3)) := by
    intro n u
    show (n, u) ∈ [(lit "a.proto", Target.node 4), (lit "link", .link (some 3))] ↔ _
    rw [List.mem_pair, Prod.mk.injEq, Prod.mk.injEq]
  constructor
  · intro hlists
    cases hlists with
    | here hmem =>
        rcases (hchildren _ _).mp hmem with ⟨rfl, rfl⟩ | ⟨rfl, rfl⟩
        · exact .inl ⟨rfl, rfl⟩
        · exact .inr ⟨rfl, rfl⟩
    | inside hmem hrest =>
        -- the only node below is a file, and a file lists nothing
        rcases (hchildren _ _).mp hmem with ⟨rfl, hnode⟩ | ⟨rfl, hnode⟩
        · cases hnode
          cases hrest with
          | here hmem => cases hmem
          | inside hmem _ => cases hmem
        · cases hnode
  · rintro (⟨rfl, rfl⟩ | ⟨rfl, rfl⟩)
    · exact .here ((hchildren _ _).mpr (.inl ⟨rfl, rfl⟩))
    · exact .here ((hchildren _ _).mpr (.inr ⟨rfl, rfl⟩))

theorem listsTree_linked : ∀ r ∈ generationRoots {},
    ListsTree (fixedHost linkedRoots true) linkedTree r linkedEntries := by
  intro r hr
  rw [List.mem_singleton.mp hr]
  refine ⟨⟨by decide +kernel, by decide +kernel, by decide +kernel⟩, 2, by decide +kernel, ?_⟩
  intro e
  have hfile : linkedTree.status (.node 4) = some .regular := by decide +kernel
  have hlink : linkedTree.status (.link (some 3)) = some .directory := by decide +kernel
  simp only [linkedEntries, mem_entriesOf, List.mem_pair, Prod.mk.injEq, lists_linked]
  constructor
  · rintro (⟨hnames, hstatus⟩ | ⟨hnames, hstatus⟩)
    · exact ⟨_, .inl ⟨hnames, rfl⟩, hstatus.trans hfile.symm⟩
    · exact ⟨_, .inr ⟨hnames, rfl⟩, hstatus.trans hlink.symm⟩
  · rintro ⟨t, ⟨hnames, rfl⟩ | ⟨hnames, rfl⟩, hstatus⟩
    · exact .inl ⟨hnames, hstatus.trans hfile⟩
    · exact .inr ⟨hnames, hstatus.trans hlink⟩

/-- `link/b.proto` is found in `proto`, and nothing produces `link/b.pb.h`. -/
theorem planAll_linked_not_closed :
    ∃ edges, returned (planAll (fixedHost linkedRoots true) {})
        (freshSession linkedRoots true) = some edges ∧ edges ≠ [] ∧
      ¬HeadersClosed (fixedHost linkedRoots true) {} (sourceTree linkedTree linkedImports)
        edges := by
  refine ⟨linkedEdges, planAll_linked.1, planAll_linked.2, ?_⟩
  intro hclosed
  have hroot : lit "proto" ∈ generationRoots {} := List.mem_cons_self
  have himport : ∀ e ∈ linkedEdges,
      ImportsInside (fixedHost linkedRoots true) {} (sourceTree linkedTree linkedImports)
        (searchPath e.command) (locate (sourceFile e.command)) (lit "link/b") := by
    intro e he
    rw [List.mem_singleton.mp he]
    refine ⟨by decide +kernel, ⟨[lit "link", lit "b.proto"], ?_, ?_⟩,
      locate (lit "/m/proto/link/b.proto"), ?_, lit "proto", hroot, ?_⟩
    · decide +kernel
    · decide +kernel
    · decide +kernel
    · decide +kernel
  obtain ⟨e, he⟩ : ∃ e, e ∈ linkedEdges := List.exists_mem_of_ne_nil _ planAll_linked.2
  have hheader := hclosed e he _ (himport e he)
  revert hheader
  decide +kernel

theorem linked_headersClosed_iff :
    HeadersClosed (fixedHost linkedRoots true) {} (sourceTree linkedTree linkedImports)
        linkedEdges ↔
      ∀ r ∈ generationRoots {}, ∀ n, HasProto linkedTree (fixedHost linkedRoots true) r n →
        ∀ m, ImportsInside (fixedHost linkedRoots true) {} (sourceTree linkedTree linkedImports)
            (searchRoots (fixedHost linkedRoots true) {} (lit "/p/pb/src"))
            (locate (Entry.source ⟨absUnderRoot (fixedHost linkedRoots true) r, n⟩)) m →
          HeaderProduced linkedTree (fixedHost linkedRoots true) {} m :=
  (@planAll_headersClosed_iff (fixedHost linkedRoots true) {} (Fin 6) linkedTree
    (freshSession linkedRoots true) linkedEdges planAll_linked.1 planAll_linked.2
    (fun _ => linkedEntries) listsTree_linked linkedImports (lit "/p/pb/src")
    (wellKnownTypesDir_fixedHost linkedRoots true)).1

end GrpcM.Grpcgen
