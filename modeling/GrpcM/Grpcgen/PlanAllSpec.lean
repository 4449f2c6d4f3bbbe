import GrpcM.Grpcgen.PlanAll
import GrpcM.Grpcgen.PlanEntriesSpec

/-!
What `planAll` can do, said once. The loop over one root keeps the entries
before the first one whose status cannot be read (`keptEntries`), so a root
contributes exactly the names of the regular `.proto` files among them
(`Contributes`). A run of `planAll` either stops in the enumeration without an
edge or is a run of `planEntries` on `plannedEntries`.
-/

namespace GrpcM.Grpcgen

open GrpcM.Path GrpcM.FileSystem

variable {h : Host} {opt : Options}

/-! ### Roots -/

theorem absUnderRoot_eq (h : Host) (v : Text) :
    absUnderRoot h v = genericString (rootDir h v) := by
  rw [absUnderRoot, rootDir]
  split <;> rfl

theorem rootDir_ne_nil (hroot : h.manifestDir ≠ []) (r : Text) : rootDir h r ≠ [] := by
  rw [rootDir]
  split
  · next hr => rintro rfl; simp [isAbsolute] at hr
  · exact lexicallyNormal_ne_nil (append_ne_nil r hroot)

theorem absUnderRoot_ne_nil (hroot : h.manifestDir ≠ []) (r : Text) : absUnderRoot h r ≠ [] := by
  rw [absUnderRoot_eq]
  exact genericString_ne_nil (rootDir_ne_nil hroot r)

/-! ### Names -/

/-- A listed regular file whose extension is `.proto`. -/
def isProtoFile (e : DirectoryEntry) : Bool :=
  e.status == some .regular && extension e.relative.text == protoExtension

theorem protoName_eq {dir : Text} (hdir : dir ≠ []) (e : DirectoryEntry) :
    protoName dir e = replaceExtension e.relative.text := by
  obtain ⟨ms, hms, htext⟩ := replaceExtension_join e.relative.nonempty e.relative.isFilename
  rw [protoName, e.lexicallyRelative_path hdir, RelativePath.text, htext, genericString_join hms]

theorem protoName_append {dir : Text} (hdir : dir ≠ []) {e : DirectoryEntry}
    (he : isProtoFile e = true) : protoName dir e ++ protoExtension = e.relative.text := by
  have hext : extension e.relative.text = protoExtension := by
    simpa using (Bool.and_eq_true_iff.mp he).2
  have hsplit := replaceExtension_append_extension e.relative.text
  rw [protoName_eq hdir, ← hext, hsplit]

/-- `n.proto` is among the entries as a regular file with extension `.proto`. -/
def RegularProto (es : List DirectoryEntry) (n : Text) : Prop :=
  ∃ e ∈ es, isProtoFile e = true ∧ e.relative.text = n ++ protoExtension

theorem mem_protoNames {dir : Text} (hdir : dir ≠ []) {es : List DirectoryEntry} {n : Text} :
    n ∈ (es.filter isProtoFile).map (protoName dir) ↔ RegularProto es n := by
  simp only [RegularProto, List.mem_map, List.mem_filter]
  constructor
  · rintro ⟨e, ⟨he, hproto⟩, rfl⟩
    exact ⟨e, he, hproto, (protoName_append hdir hproto).symm⟩
  · rintro ⟨e, he, hproto, htext⟩
    refine ⟨e, ⟨he, hproto⟩, ?_⟩
    exact List.append_cancel_right ((protoName_append hdir hproto).trans htext)

/-! ### The loop over one root -/

/-- The entries the loop looks at before it finds the error code set. -/
def keptEntries (l : Listing DirectoryEntry) : List DirectoryEntry :=
  l.entries.takeWhile (·.readable)

theorem keptEntries_entry_readable {e : DirectoryEntry} (rest : Listing DirectoryEntry)
    (he : e.readable = true) : keptEntries (.entry e rest) = e :: keptEntries rest := by
  simp [keptEntries, Listing.entries, he]

theorem keptEntries_entry_unreadable {e : DirectoryEntry} (rest : Listing DirectoryEntry)
    (he : e.readable = false) : keptEntries (.entry e rest) = [] := by
  simp [keptEntries, Listing.entries, he]

theorem collectNames_unreadable (dir : Text) {e : DirectoryEntry}
    (rest : Listing DirectoryEntry) (names : List Text) (he : e.readable = false) :
    collectNames dir false (.entry e rest) names = collectNames dir true rest names := by
  have hstatus : e.status = none := by simpa [DirectoryEntry.readable] using he
  simp [collectNames, DirectoryEntry.isRegularFile, hstatus]

theorem collectNames_readable (dir : Text) {e : DirectoryEntry}
    (rest : Listing DirectoryEntry) (names : List Text) (he : e.readable = true) :
    collectNames dir false (.entry e rest) names =
      collectNames dir false rest
        (names ++ if isProtoFile e then [protoName dir e] else []) := by
  have hstatus : e.status.isNone = false := by
    simpa [DirectoryEntry.readable, Option.isSome_iff_ne_none] using he
  rw [collectNames]
  simp only [DirectoryEntry.isRegularFile, hstatus, e.extension_path, isProtoFile]
  by_cases hreg : e.status = some .regular
  · by_cases hext : extension e.relative.text = protoExtension <;> simp [hreg, hext]
  · simp [hreg]

theorem collectNames_stopped {dir : Text} {l : Listing DirectoryEntry} {names ns : List Text}
    (hok : collectNames dir true l names = .ok ns) : ns = names := by
  cases l with
  | done => cases hok; rfl
  | fault => cases hok
  | entry e rest => cases hok; rfl

theorem collectNames_ok {dir : Text} {l : Listing DirectoryEntry} {names ns : List Text}
    (hok : collectNames dir false l names = .ok ns) :
    ns = names ++ ((keptEntries l).filter isProtoFile).map (protoName dir) := by
  induction l generalizing names with
  | done =>
      cases hok
      simp [keptEntries, Listing.entries]
  | fault => cases hok
  | entry e rest ih =>
      cases he : e.readable with
      | false =>
          -- this turn sets the error code, and the next one ends the loop
          rw [collectNames_unreadable dir rest names he] at hok
          rw [collectNames_stopped hok, keptEntries_entry_unreadable rest he]
          simp
      | true =>
          rw [collectNames_readable dir rest names he] at hok
          rw [ih hok, keptEntries_entry_readable rest he]
          cases hproto : isProtoFile e <;> simp [hproto]

/-! ### What a root contributes -/

/-- Below the root `r` the loop keeps a regular file `n.proto`. -/
def Contributes (h : Host) (r n : Text) : Prop :=
  ∃ l, h.recursiveDirectoryIterator (rootDir h r) = some l ∧
    ∃ e ∈ keptEntries l, isProtoFile e = true ∧ e.relative.text = n ++ protoExtension

theorem mem_rootNames (hroot : h.manifestDir ≠ []) {r n : Text} {ns : List Text}
    (hok : rootNames h r = .ok ns) : n ∈ ns ↔ Contributes h r n := by
  have hdir := rootDir_ne_nil hroot r
  rw [rootNames] at hok
  rw [Contributes]
  cases hl : h.recursiveDirectoryIterator (rootDir h r) with
  | none =>
      rw [hl] at hok
      cases hok
      simp
  | some l =>
      rw [hl] at hok
      have hns := collectNames_ok hok
      rw [List.nil_append] at hns
      simp only [hns, mem_protoNames hdir, RegularProto, Option.some.injEq, exists_eq_left']

theorem pairwise_sortNames (ns : List Text) : (sortNames ns).Pairwise fun a b => ¬b < a := by
  have htotal : Std.Total fun a b : Text => ¬b < a :=
    ⟨fun a b => by simpa only [not_lt] using le_total a b⟩
  have htrans : IsTrans Text fun a b : Text => ¬b < a :=
    ⟨fun a b c hab hbc => by
      rw [not_lt] at hab hbc ⊢
      exact hab.trans hbc⟩
  exact List.pairwise_insertionSort _ ns

theorem sortNames_eq {ns ms : List Text} (hperm : ns.Perm ms) (hms : ms.Pairwise (· < ·)) :
    sortNames ns = ms := by
  have hantisymm : Std.Antisymm fun a b : Text => ¬b < a :=
    ⟨fun a b hab hba => le_antisymm (not_lt.mp hab) (not_lt.mp hba)⟩
  refine List.Perm.eq_of_pairwise' (pairwise_sortNames ns)
    (hms.imp fun hlt => not_lt.mpr hlt.le) ?_
  exact (List.perm_insertionSort _ ns).trans hperm

def rootEntries (h : Host) (r : Text) : List Entry :=
  match rootNames h r with
  | .ok ns => (sortNames ns).map fun n => ⟨genericString (rootDir h r), n⟩
  | .error _ => []

/-- The entries of all generation roots, root by root. -/
def plannedEntries (h : Host) (opt : Options) : List Entry :=
  (generationRoots opt).flatMap (rootEntries h)

/-- The root exists and its enumeration does not throw. -/
def Enumerates (h : Host) (r : Text) : Prop :=
  h.fileExists (rootDir h r) = true ∧ ∃ ns, rootNames h r = .ok ns

instance (h : Host) (r : Text) : Decidable (Enumerates h r) :=
  decidable_of_iff (h.fileExists (rootDir h r) = true ∧ (rootNames h r).toBool = true) (by
    rw [Enumerates]
    cases rootNames h r <;> simp [Except.toBool])

theorem mem_rootEntries (hroot : h.manifestDir ≠ []) {r : Text} (hr : Enumerates h r)
    (ent : Entry) :
    ent ∈ rootEntries h r ↔ ent.root = absUnderRoot h r ∧ Contributes h r ent.name := by
  obtain ⟨-, ns, hns⟩ := hr
  have hmem : ∀ n, n ∈ sortNames ns ↔ Contributes h r n := by
    intro n
    rw [sortNames, List.mem_insertionSort, mem_rootNames hroot hns]
  obtain ⟨root, name⟩ := ent
  simp only [rootEntries, hns, List.mem_map, Entry.mk.injEq, absUnderRoot_eq, hmem]
  constructor
  · rintro ⟨n, hn, rfl, rfl⟩
    exact ⟨rfl, hn⟩
  · rintro ⟨rfl, hn⟩
    exact ⟨name, hn, rfl, rfl⟩

theorem mem_plannedEntries (hroot : h.manifestDir ≠ [])
    (hroots : ∀ r ∈ generationRoots opt, Enumerates h r) (ent : Entry) :
    ent ∈ plannedEntries h opt ↔
      ∃ r ∈ generationRoots opt, ent.root = absUnderRoot h r ∧ Contributes h r ent.name := by
  rw [plannedEntries, List.mem_flatMap]
  constructor
  · rintro ⟨r, hr, hent⟩
    exact ⟨r, hr, (mem_rootEntries hroot (hroots r hr) ent).mp hent⟩
  · rintro ⟨r, hr, hent⟩
    exact ⟨r, hr, (mem_rootEntries hroot (hroots r hr) ent).mpr hent⟩

/-! ### The loop over the roots -/

def globs (rs : List Text) : List Directive :=
  rs.map fun r => .rerunIfChangedGlob (globPattern r)

/-- The enumeration reaches a root in which an iterator increment throws. -/
def EnumerationThrows (h : Host) (rs : List Text) : Prop :=
  ∃ before r after, rs = before ++ r :: after ∧ (∀ q ∈ before, Enumerates h q) ∧
    h.fileExists (rootDir h r) = true ∧ rootNames h r = .error .filesystemError

theorem EnumerationThrows.not_enumerates {rs : List Text} (ht : EnumerationThrows h rs) :
    ¬∀ r ∈ rs, Enumerates h r := by
  obtain ⟨before, r, after, rfl, -, -, herror⟩ := ht
  intro hall
  obtain ⟨-, ns, hns⟩ := hall r (by simp)
  rw [herror] at hns
  cases hns

theorem enumerationThrows_cons {r : Text} {rs : List Text} (hr : Enumerates h r) :
    EnumerationThrows h (r :: rs) ↔ EnumerationThrows h rs := by
  constructor
  · rintro ⟨before, q, after, hsplit, hbefore, hexists, herror⟩
    cases before with
    | nil =>
        obtain ⟨rfl, rfl⟩ := List.cons_eq_cons.mp hsplit
        obtain ⟨-, ns, hns⟩ := hr
        rw [herror] at hns
        cases hns
    | cons b before =>
        obtain ⟨rfl, rfl⟩ := List.cons_eq_cons.mp hsplit
        exact ⟨before, q, after, rfl, fun p hp => hbefore p (List.mem_cons_of_mem _ hp),
          hexists, herror⟩
  · rintro ⟨before, q, after, rfl, hbefore, hexists, herror⟩
    refine ⟨r :: before, q, after, rfl, ?_, hexists, herror⟩
    intro p hp
    rcases List.mem_cons.mp hp with rfl | hp
    · exact hr
    · exact hbefore p hp

theorem not_enumerationThrows_of_missing {r : Text} {rs : List Text}
    (hmissing : h.fileExists (rootDir h r) = false) : ¬EnumerationThrows h (r :: rs) := by
  rintro ⟨before, q, after, hsplit, hbefore, hq, -⟩
  cases before with
  | nil =>
      obtain ⟨rfl, -⟩ := List.cons_eq_cons.mp hsplit
      simp [hmissing] at hq
  | cons b before =>
      obtain ⟨rfl, -⟩ := List.cons_eq_cons.mp hsplit
      have hr := (hbefore r List.mem_cons_self).1
      simp [hmissing] at hr

theorem run_enumerateRoots_missing {r : Text} (rs : List Text) (entries : List Entry)
    (s : Session h) (hmissing : h.fileExists (rootDir h r) = false) :
    (enumerateRoots h (r :: rs) entries).run s =
      .ok none { s with
        diagnostics := s.diagnostics ++ [noDirectoryText r h.manifestDir]
        directives := s.directives ++ globs [r] } := by
  simp only [enumerateRoots, hmissing, EStateM.run_bind, run_direct]
  rfl

theorem run_enumerateRoots_throws {r : Text} (rs : List Text) (entries : List Entry)
    (s : Session h) (hexists : h.fileExists (rootDir h r) = true)
    (herror : rootNames h r = .error .filesystemError) :
    (enumerateRoots h (r :: rs) entries).run s =
      .error .filesystemError { s with directives := s.directives ++ globs [r] } := by
  simp only [enumerateRoots, hexists, herror, EStateM.run_bind, run_direct]
  rfl

theorem run_enumerateRoots_step {r : Text} (rs : List Text) (entries : List Entry)
    (s : Session h) (hr : Enumerates h r) :
    (enumerateRoots h (r :: rs) entries).run s =
      (enumerateRoots h rs (entries ++ rootEntries h r)).run
        { s with directives := s.directives ++ globs [r] } := by
  obtain ⟨hexists, ns, hns⟩ := hr
  simp only [enumerateRoots, rootEntries, hexists, hns, EStateM.run_bind, run_direct]
  rfl

theorem enumerateRoots_cases (h : Host) (rs : List Text) (entries : List Entry)
    (s : Session h) :
    ((∀ r ∈ rs, Enumerates h r) ∧
      (enumerateRoots h rs entries).run s =
        .ok (some (entries ++ rs.flatMap (rootEntries h)))
          { s with directives := s.directives ++ globs rs }) ∨
    (¬(∀ r ∈ rs, Enumerates h r) ∧ ¬EnumerationThrows h rs ∧
      ∃ text before, (enumerateRoots h rs entries).run s =
        .ok none { s with
          diagnostics := s.diagnostics ++ [text]
          directives := s.directives ++ globs before }) ∨
    (EnumerationThrows h rs ∧ ∃ before,
      (enumerateRoots h rs entries).run s =
        .error .filesystemError { s with directives := s.directives ++ globs before }) := by
  induction rs generalizing entries s with
  | nil =>
      left
      simp [enumerateRoots, globs]
  | cons r rs ih =>
      cases hexists : h.fileExists (rootDir h r) with
      | false =>
          refine .inr (.inl ⟨?_, not_enumerationThrows_of_missing hexists, _, [r],
            run_enumerateRoots_missing rs entries s hexists⟩)
          intro hall
          have hr := (hall r List.mem_cons_self).1
          simp [hexists] at hr
      | true =>
          cases hnames : rootNames h r with
          | error e =>
              exact .inr (.inr ⟨⟨[], r, rs, rfl, by simp, hexists, hnames⟩, [r],
                run_enumerateRoots_throws rs entries s hexists hnames⟩)
          | ok ns =>
              -- the rest of the loop runs on with this root's entries and pattern added
              have hr : Enumerates h r := ⟨hexists, ns, hnames⟩
              rw [run_enumerateRoots_step rs entries s hr, enumerationThrows_cons hr]
              rcases ih (entries ++ rootEntries h r)
                  { s with directives := s.directives ++ globs [r] } with
                ⟨hall, hrun⟩ | ⟨hno, hthrows, text, before, hrun⟩ | ⟨hthrows, before, hrun⟩
              · refine .inl ⟨?_, ?_⟩
                · intro q hq
                  rcases List.mem_cons.mp hq with rfl | hq
                  · exact hr
                  · exact hall q hq
                · rw [hrun]
                  simp [globs]
              · refine .inr (.inl ⟨?_, hthrows, text, r :: before, ?_⟩)
                · exact fun hall => hno fun q hq => hall q (List.mem_cons_of_mem _ hq)
                · rw [hrun]
                  simp [globs]
              · refine .inr (.inr ⟨hthrows, r :: before, ?_⟩)
                rw [hrun]
                simp [globs]

/-! ### The whole function -/

/-- A run that gets through the enumeration is a run of `planEntries`, apart from the
diagnostic for an empty list. -/
theorem planAll_of_enumerates (hroot : h.manifestDir ≠ [])
    (hall : ∀ r ∈ generationRoots opt, Enumerates h r) (s : Session h) :
    (planAll h opt).run s =
      if plannedEntries h opt = [] then
        .ok [] { s with
          diagnostics := s.diagnostics ++ [noFilesText opt.protoDir]
          directives := s.directives ++ globs (generationRoots opt) }
      else
        (planEntries h (plannedEntries h opt) opt).run
          { s with directives := s.directives ++ globs (generationRoots opt) } := by
  have hrun : (enumerateRoots h (generationRoots opt) []).run s =
      .ok (some (plannedEntries h opt))
        { s with directives := s.directives ++ globs (generationRoots opt) } := by
    rcases enumerateRoots_cases h (generationRoots opt) [] s with
      ⟨-, hrun⟩ | ⟨hno, -⟩ | ⟨hthrows, -⟩
    · simpa [plannedEntries] using hrun
    · exact absurd hall hno
    · exact absurd hall hthrows.not_enumerates
  simp only [planAll, List.isEmpty_eq_false_iff.mpr hroot, Bool.false_eq_true, if_false,
    EStateM.run_bind, hrun, List.isEmpty_iff]
  split <;> rfl

theorem planAll_of_no_context (hroot : h.manifestDir = []) (opt : Options) (s : Session h) :
    (planAll h opt).run s =
      .ok [] { s with diagnostics := s.diagnostics ++ [noContextText] } := by
  simp only [planAll, hroot, List.isEmpty_nil, if_true]
  rfl

theorem planAll_cases (h : Host) (opt : Options) (s : Session h) :
    (h.manifestDir = [] ∧
      (planAll h opt).run s = .ok [] { s with diagnostics := s.diagnostics ++ [noContextText] }) ∨
    (h.manifestDir ≠ [] ∧ (∀ r ∈ generationRoots opt, Enumerates h r) ∧
      (planAll h opt).run s =
        if plannedEntries h opt = [] then
          .ok [] { s with
            diagnostics := s.diagnostics ++ [noFilesText opt.protoDir]
            directives := s.directives ++ globs (generationRoots opt) }
        else
          (planEntries h (plannedEntries h opt) opt).run
            { s with directives := s.directives ++ globs (generationRoots opt) }) ∨
    (h.manifestDir ≠ [] ∧ ¬(∀ r ∈ generationRoots opt, Enumerates h r) ∧
      ¬EnumerationThrows h (generationRoots opt) ∧
      ∃ text before, (planAll h opt).run s =
        .ok [] { s with
          diagnostics := s.diagnostics ++ [text]
          directives := s.directives ++ globs before }) ∨
    (h.manifestDir ≠ [] ∧ EnumerationThrows h (generationRoots opt) ∧
      ∃ before, (planAll h opt).run s =
        .error .filesystemError { s with directives := s.directives ++ globs before }) := by
  by_cases hroot : h.manifestDir = []
  · exact .inl ⟨hroot, planAll_of_no_context hroot opt s⟩
  · rcases enumerateRoots_cases h (generationRoots opt) [] s with
      ⟨hall, -⟩ | ⟨hno, hthrows, text, before, hstop⟩ | ⟨hthrows, before, hstop⟩
    · exact .inr (.inl ⟨hroot, hall, planAll_of_enumerates hroot hall s⟩)
    · refine .inr (.inr (.inl ⟨hroot, hno, hthrows, text, before, ?_⟩))
      simp only [planAll, List.isEmpty_eq_false_iff.mpr hroot, Bool.false_eq_true, if_false,
        EStateM.run_bind, hstop]
      rfl
    · refine .inr (.inr (.inr ⟨hroot, hthrows, before, ?_⟩))
      simp only [planAll, List.isEmpty_eq_false_iff.mpr hroot, Bool.false_eq_true, if_false,
        EStateM.run_bind, hstop]

/-- A run of `planAll` that returns edges got through the enumeration and all checks. -/
theorem checked_of_planAll {s : Session h} {edges : List Edge}
    (hrun : returned (planAll h opt) s = some edges) (hne : edges ≠ []) :
    (∀ r ∈ generationRoots opt, Enumerates h r) ∧
      ∃ protoc wkt, Checked h opt (plannedEntries h opt) protoc wkt ∧
        edges = (plannedEntries h opt).map
          (planEdge h opt (plannedEntries h opt) protoc wkt) := by
  obtain ⟨s', hrun⟩ := returned_eq_some.mp hrun
  rcases planAll_cases h opt s with
    ⟨-, hstop⟩ | ⟨-, hall, hplan⟩ | ⟨-, -, -, text, before, hstop⟩ | ⟨-, -, before, hthrow⟩
  · rw [hrun] at hstop
    injection hstop with hedges
    exact absurd hedges hne
  · refine ⟨hall, ?_⟩
    rw [hrun] at hplan
    split at hplan
    · injection hplan with hedges
      exact absurd hedges hne
    · exact checked_of_planEntries (returned_eq_some.mpr ⟨s', hplan.symm⟩) hne
  · rw [hrun] at hstop
    injection hstop with hedges
    exact absurd hedges hne
  · rw [hrun] at hthrow
    cases hthrow

def plannedNames (h : Host) (opt : Options) : List Text := (plannedEntries h opt).map (·.name)

theorem mem_plannedNames (hroot : h.manifestDir ≠ [])
    (hroots : ∀ r ∈ generationRoots opt, Enumerates h r) (n : Text) :
    n ∈ plannedNames h opt ↔ ∃ r ∈ generationRoots opt, Contributes h r n := by
  simp only [plannedNames, List.mem_map, mem_plannedEntries hroot hroots]
  constructor
  · rintro ⟨⟨_, _⟩, ⟨r, hr, -, hn⟩, rfl⟩
    exact ⟨r, hr, hn⟩
  · rintro ⟨r, hr, hn⟩
    exact ⟨⟨absUnderRoot h r, n⟩, ⟨r, hr, rfl, hn⟩, rfl⟩

def DistinctNames (h : Host) (opt : Options) : Prop := (plannedNames h opt).Nodup

/-! ### Explicit names -/

def namedEntries (h : Host) (opt : Options) (names : List Text) : List Entry :=
  names.map fun n => ⟨absUnderRoot h opt.protoDir, n⟩

/-- Resolving `proto_dir` is the same in `plan` and in `planEntries`. -/
theorem plan_eq (hroot : h.manifestDir ≠ []) (names : List Text) :
    plan h names opt = planEntries h (namedEntries h opt names) opt := by
  simp only [plan, List.isEmpty_eq_false_iff.mpr hroot, Bool.false_eq_true, if_false]
  rfl

theorem plan_of_no_context (hroot : h.manifestDir = []) (opt : Options) (names : List Text)
    (s : Session h) :
    (plan h names opt).run s =
      .ok [] { s with diagnostics := s.diagnostics ++ [noContextText] } := by
  simp only [plan, hroot, List.isEmpty_nil, if_true]
  rfl

theorem returned_plan (names : List Text) (s : Session h) :
    returned (plan h names opt) s =
      returned (planEntries h (namedEntries h opt names) opt) s := by
  by_cases hroot : h.manifestDir = []
  · rw [returned, plan_of_no_context hroot opt, returned_planEntries_of_no_context hroot]
  · rw [plan_eq hroot]

/-- What `planAll` returns once the enumeration is through. -/
theorem returned_planAll (hall : ∀ r ∈ generationRoots opt, Enumerates h r)
    (s : Session h) :
    returned (planAll h opt) s = returned (planEntries h (plannedEntries h opt) opt) s := by
  by_cases hroot : h.manifestDir = []
  · rw [returned, planAll_of_no_context hroot opt, returned_planEntries_of_no_context hroot]
  · rw [returned, planAll_of_enumerates hroot hall]
    by_cases hnil : plannedEntries h opt = []
    · -- an empty list gets another diagnostic here than in `planEntries`
      have hno : ∀ protoc, ¬Surroundings h opt (plannedEntries h opt) protoc :=
        fun _ hs => hs.protos_ne_nil hnil
      rw [if_pos hnil, returned_planEntries_of_not_surroundings hno]
    · rw [if_neg hnil]
      exact returned_planEntries_congr (.refl h) _ _ _ _

/-- On the host with fixed answers the edges are those of the entries its roots give. -/
theorem returned_planAll_fixedHost {roots : List (Text × Listing DirectoryEntry)}
    {writable : Bool} {entries : List Entry}
    (hall : ∀ r ∈ generationRoots opt, Enumerates (fixedHost roots writable) r)
    (hentries : plannedEntries (fixedHost roots writable) opt = entries)
    (hplugins : opt.plugins = []) (hne : entries ≠ [])
    (s : Session (fixedHost roots writable)) :
    returned (planAll (fixedHost roots writable) opt) s =
      some (entries.map (planEdge (fixedHost roots writable) opt entries (lit "/bin/protoc")
        (lit "/p/pb/src"))) := by
  rw [returned_planAll hall, hentries]
  exact returned_planEntries_of_checked
    (checked_fixedHost roots writable (by simp [hplugins]) hne) s

end GrpcM.Grpcgen
