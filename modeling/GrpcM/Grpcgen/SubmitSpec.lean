import GrpcM.Grpcgen.PlanAllSpec
import GrpcM.Grpcgen.EdgeSpec
import GrpcM.Grpcgen.Submit

/-!
What `generate` and `generate_all` leave behind. Both plan first and submit
after that, so a failed check leaves nothing behind. What the checks do not
cover are an iterator increment that throws and an output directory that could
not be made.
-/

namespace GrpcM.Grpcgen

open GrpcM.Path GrpcM.FileSystem

variable {h : Host} {opt : Options} {protos : List Entry}

/-! ### Submitting -/

/-- Every edge becomes an action, and the output directory an include directory. -/
theorem run_submit {edges : List Edge} (hne : edges ≠ []) (s : Session h) :
    (submit h edges).run s =
      .ok true { s with
        directives := s.directives ++ (edges.map fun e => .action e.toAction) ++
          [.includeDir h.outDir] } := by
  rw [submit, if_neg (by simpa using hne)]
  simp only [EStateM.run_bind]
  rw [run_forIn_direct fun e : Edge => .action e.toAction]
  rfl

/-! ### All or nothing -/

def isSubmission : Directive → Bool
  | .rerunIfChangedGlob _ => false
  | .action _ | .includeDir _ => true

def submissions (s : Session h) : List Directive := s.directives.filter isSubmission

/-- Nothing was submitted and no directory was created. -/
structure Untouched (before after : Session h) : Prop where
  submissions_eq : submissions after = submissions before
  disk_eq : after.disk = before.disk

/-- One action for each planned file in order, then the include directory, and every
output has a directory to go to. -/
structure Submitted (protos : List Entry) (before after : Session h) (actions : List Action) :
    Prop where
  submissions_eq : submissions after =
    submissions before ++ actions.map Directive.action ++ [.includeDir h.outDir]
  one_each : List.Forall₂ (fun ent a => a.id = lit "protoc:" ++ ent.name ∧
    a.command.getLast? = some ent.source) protos actions
  ready : ∀ a ∈ actions, ∀ o ∈ a.outputs, h.isDirectory after.disk (parentPath o) = true

def AllOrNothing (protos : List Entry) (before : Session h) :
    EStateM.Result Fault (Session h) Bool → Prop
  | .ok true after => ∃ actions, Submitted protos before after actions
  | .ok false after => Untouched before after
  | .error _ _ => False

/-- `planEntries` reaches the search for the well-known types, and it throws. -/
def SearchThrows (h : Host) (opt : Options) (protos : List Entry) : Prop :=
  (∃ protoc, Surroundings h opt protos protoc) ∧ wellKnownTypesDir h = .error .filesystemError

/-- If the edges are planned, every directory of outputs is there after all were asked for. -/
def DirsMade (h : Host) (opt : Options) (protos : List Entry) (disk : h.Disk) : Prop :=
  ∀ protoc wkt, Checked h opt protos protoc wkt → ∀ dir ∈ outputDirs h protos,
    h.isDirectory (createAll h disk (outputDirs h protos)) dir = true

/-- No suffix of an output leads into another directory. -/
def FlatSuffixes (opt : Options) : Prop :=
  ∀ p ∈ opt.plugins, ∀ suffix ∈ p.suffixes, '/' ∉ suffix

theorem slash_not_mem_generatorSuffixes (hflat : FlatSuffixes opt) :
    ∀ suffix ∈ generatorSuffixes h opt, '/' ∉ suffix := by
  have hbuiltin : ∀ grpc mock, ∀ suffix ∈ builtinSuffixes grpc mock, '/' ∉ suffix := by
    decide +kernel
  by_cases hplugins : opt.plugins = []
  · rw [generatorSuffixes_of_builtin hplugins]
    exact hbuiltin opt.grpc opt.mock
  · intro suffix hsuffix
    rcases List.mem_append.mp hsuffix with hcpp | hgiven
    · exact hbuiltin false false suffix hcpp
    · obtain ⟨p, hp, hsuffix⟩ := List.mem_flatMap.mp hgiven
      rw [resolvePlugins, if_pos (by simpa using hplugins)] at hp
      exact hflat p hp suffix hsuffix

/-- All outputs of a name go to one directory. -/
theorem isDirectory_of_mem_edgeOutputs (hflat : FlatSuffixes opt) {n o : Text}
    (ho : o ∈ edgeOutputs h opt n) (disk : h.Disk) :
    h.isDirectory disk (parentPath o) = h.isDirectory disk (parentPath (outputBase h n)) := by
  rw [edgeOutputs_eq] at ho
  obtain ⟨suffix, hsuffix, rfl⟩ := List.mem_map.mp ho
  exact h.isDirectory_congr _ _ _ (genericString_parentPath_append _
    (slash_not_mem_generatorSuffixes hflat suffix hsuffix))

/-- The session after the edges of some entries were planned and submitted. -/
def afterSubmit (s : Session h) (protos : List Entry) (edges : List Edge) : Session h :=
  { s with
    disk := createAll h s.disk (outputDirs h protos)
    directives := s.directives ++ (edges.map fun e => .action e.toAction) ++
      [.includeDir h.outDir] }

theorem submissions_afterSubmit (s : Session h) (protos : List Entry) (edges : List Edge) :
    submissions (afterSubmit s protos edges) =
      submissions s ++ (edges.map Edge.toAction).map Directive.action ++
        [.includeDir h.outDir] := by
  have hactions : (edges.map fun e => Directive.action e.toAction).filter isSubmission =
      (edges.map Edge.toAction).map Directive.action := by
    rw [List.map_map]
    refine List.filter_eq_self.mpr fun d hd => ?_
    obtain ⟨e, -, rfl⟩ := List.mem_map.mp hd
    rfl
  rw [afterSubmit, submissions]
  simp only [List.filter_append, hactions]
  rfl

/-- Submitting the planned edges is all that is asked for exactly when the directories
are there. -/
theorem submitted_iff (hflat : FlatSuffixes opt) {before s : Session h}
    (hsame : Untouched before s) (protoc wkt : Text) :
    (∃ actions, Submitted protos before
        (afterSubmit s protos (protos.map (planEdge h opt protos protoc wkt))) actions) ↔
      ∀ dir ∈ outputDirs h protos,
        h.isDirectory (createAll h before.disk (outputDirs h protos)) dir = true := by
  have hdisk : (afterSubmit s protos (protos.map (planEdge h opt protos protoc wkt))).disk =
      createAll h before.disk (outputDirs h protos) := by
    rw [← hsame.disk_eq]
    rfl
  constructor
  · rintro ⟨actions, hsub⟩ dir hdir
    obtain ⟨ent, hent, rfl⟩ := List.mem_map.mp hdir
    -- the submitted actions are the planned edges
    have heq := hsub.submissions_eq
    rw [submissions_afterSubmit, hsame.submissions_eq] at heq
    have hactions := List.append_cancel_left (List.append_cancel_right heq)
    have hedge : (planEdge h opt protos protoc wkt ent).toAction ∈ actions := by
      have hinj : Function.Injective Directive.action := fun _ _ h => Directive.action.inj h
      rw [← List.map_injective_iff.mpr hinj hactions]
      exact List.mem_map_of_mem (List.mem_map_of_mem hent)
    have hfirst : outputBase h ent.name ++ lit ".pb.cc" ∈ edgeOutputs h opt ent.name :=
      List.mem_append_left _ List.mem_cons_self
    have hready := hsub.ready _ hedge _ hfirst
    rwa [isDirectory_of_mem_edgeOutputs hflat hfirst, hdisk] at hready
  · intro hdirs
    refine ⟨(protos.map (planEdge h opt protos protoc wkt)).map Edge.toAction, ?_, ?_, ?_⟩
    · rw [submissions_afterSubmit, hsame.submissions_eq]
    · rw [List.map_map, List.forall₂_map_right_iff, List.forall₂_same]
      exact fun ent _ => ⟨rfl, getLast?_planEdge protos protoc wkt ent⟩
    · intro a ha o ho
      rw [List.map_map] at ha
      obtain ⟨ent, hent, rfl⟩ := List.mem_map.mp ha
      rw [isDirectory_of_mem_edgeOutputs hflat ho, hdisk]
      exact hdirs _ (List.mem_map_of_mem hent)

/-- Planning explicit entries and submitting the edges. -/
theorem planEntries_allOrNothing_iff (hflat : FlatSuffixes opt) {before s : Session h}
    (hsame : Untouched before s) :
    AllOrNothing protos before ((do submit h (← planEntries h protos opt)).run s) ↔
      ¬SearchThrows h opt protos ∧ DirsMade h opt protos before.disk := by
  rw [EStateM.run_bind]
  rcases planEntries_cases h protos opt s with
    ⟨protoc, wkt, hc, hrun⟩ | ⟨hno, text, hrun⟩ | ⟨protoc, hs, herror, hrun⟩
  · have hne : protos.map (planEdge h opt protos protoc wkt) ≠ [] := by
      simpa using hc.protos_ne_nil
    have hsearch : ¬SearchThrows h opt protos := by
      rintro ⟨-, herror⟩
      rw [hc.wkt_eq] at herror
      cases herror
    have hdirs : DirsMade h opt protos before.disk ↔ ∀ dir ∈ outputDirs h protos,
        h.isDirectory (createAll h before.disk (outputDirs h protos)) dir = true :=
      ⟨fun hall => hall protoc wkt hc, fun hall _ _ _ => hall⟩
    rw [hrun, and_iff_right hsearch, hdirs, ← submitted_iff hflat hsame protoc wkt]
    simp only [run_submit hne]
    rfl
  · have hsearch : ¬SearchThrows h opt protos := by
      rintro ⟨⟨protoc, hs⟩, herror⟩
      rw [planEntries_of_surroundings hs, herror] at hrun
      cases hrun
    rw [hrun]
    exact iff_of_true ⟨hsame.submissions_eq, hsame.disk_eq⟩
      ⟨hsearch, fun protoc wkt hc => absurd hc (hno protoc wkt)⟩
  · rw [hrun]
    exact iff_of_false id fun hok => hok.1 ⟨⟨protoc, hs⟩, herror⟩

/-! ### The two functions -/

theorem dirsMade_of_not_surroundings (hno : ∀ protoc, ¬Surroundings h opt protos protoc)
    (disk : h.Disk) : ¬SearchThrows h opt protos ∧ DirsMade h opt protos disk := by
  constructor
  · rintro ⟨⟨protoc, hs⟩, -⟩
    exact hno protoc hs
  · intro protoc wkt hc
    exact absurd hc.toSurroundings (hno protoc)

theorem allOrNothing_of_stopped {x : Build h (List Edge)} {before after : Session h}
    (hrun : x.run before = .ok [] after) (hsame : Untouched before after) :
    AllOrNothing protos before ((do submit h (← x)).run before) := by
  rw [EStateM.run_bind, hrun]
  exact hsame

theorem allOrNothing_generate (hflat : FlatSuffixes opt) (names : List Text)
    (s : Session h) :
    AllOrNothing (namedEntries h opt names) s ((generate h names opt).run s) ↔
      ¬SearchThrows h opt (namedEntries h opt names) ∧
        DirsMade h opt (namedEntries h opt names) s.disk := by
  by_cases hroot : h.manifestDir = []
  · have hrun := plan_of_no_context hroot opt names s
    exact iff_of_true (allOrNothing_of_stopped hrun ⟨rfl, rfl⟩)
      (dirsMade_of_not_surroundings (fun _ hs => hs.manifestDir_ne_nil hroot) s.disk)
  · rw [generate, plan_eq hroot]
    exact planEntries_allOrNothing_iff hflat ⟨rfl, rfl⟩

theorem filter_globs (rs : List Text) : (globs rs).filter isSubmission = [] := by
  refine List.filter_eq_nil_iff.mpr fun d hd => ?_
  obtain ⟨r, -, rfl⟩ := List.mem_map.mp hd
  simp [isSubmission]

theorem untouched_globs (s : Session h) (diagnostics : List Text) (rs : List Text) :
    Untouched s
      { s with diagnostics := diagnostics, directives := s.directives ++ globs rs } := by
  refine ⟨?_, rfl⟩
  simp [submissions, filter_globs]

theorem allOrNothing_generateAll (hflat : FlatSuffixes opt) (s : Session h) :
    AllOrNothing (plannedEntries h opt) s ((generateAll h opt).run s) ↔
      (h.manifestDir ≠ [] → ¬EnumerationThrows h (generationRoots opt)) ∧
        ((∀ r ∈ generationRoots opt, Enumerates h r) →
          ¬SearchThrows h opt (plannedEntries h opt) ∧
            DirsMade h opt (plannedEntries h opt) s.disk) := by
  rw [generateAll]
  rcases planAll_cases h opt s with
    ⟨hnil, hrun⟩ | ⟨hroot, hall, hrun⟩ | ⟨hroot, hno, hthrows, text, before, hrun⟩ |
      ⟨hroot, hthrows, before, hrun⟩
  · exact iff_of_true (allOrNothing_of_stopped hrun ⟨rfl, rfl⟩)
      ⟨fun hroot => absurd hnil hroot, fun _ =>
        dirsMade_of_not_surroundings (fun _ hs => hs.manifestDir_ne_nil hnil) s.disk⟩
  · have hok : ¬EnumerationThrows h (generationRoots opt) :=
      fun hthrows => hthrows.not_enumerates hall
    rw [and_iff_right fun _ => hok, forall_prop_of_true hall]
    by_cases hnil : plannedEntries h opt = []
    · rw [if_pos hnil] at hrun
      exact iff_of_true (allOrNothing_of_stopped hrun (untouched_globs s _ _))
        (dirsMade_of_not_surroundings (fun _ hs => hs.protos_ne_nil hnil) s.disk)
    · -- from here on it is `planEntries` in a session that holds patterns besides
      rw [if_neg hnil] at hrun
      rw [EStateM.run_bind, hrun, ← EStateM.run_bind]
      exact planEntries_allOrNothing_iff hflat (untouched_globs s _ _)
  · exact iff_of_true (allOrNothing_of_stopped hrun (untouched_globs s _ _))
      ⟨fun _ => hthrows, fun hall => absurd hall hno⟩
  · rw [EStateM.run_bind, hrun]
    exact iff_of_false id fun hok => hok.1 hroot hthrows

/-- Calls that report no error make every directory. -/
theorem dirsMade_of_allCreated {disk : h.Disk}
    (hall : AllCreated h disk (outputDirs h protos)) : DirsMade h opt protos disk :=
  fun _ _ _ => isDirectory_createAll hall

/-- `generate` and `generate_all` do all or nothing exactly when no iterator increment
throws and the directories asked for are there at the end, which they are when no call
that makes one reports an error. -/
theorem generate_allOrNothing_iff (hflat : FlatSuffixes opt) (s : Session h) :
    (∀ names, AllOrNothing (namedEntries h opt names) s ((generate h names opt).run s) ↔
      ¬SearchThrows h opt (namedEntries h opt names) ∧
        DirsMade h opt (namedEntries h opt names) s.disk) ∧
    (AllOrNothing (plannedEntries h opt) s ((generateAll h opt).run s) ↔
      (h.manifestDir ≠ [] → ¬EnumerationThrows h (generationRoots opt)) ∧
        ((∀ r ∈ generationRoots opt, Enumerates h r) →
          ¬SearchThrows h opt (plannedEntries h opt) ∧
            DirsMade h opt (plannedEntries h opt) s.disk)) ∧
    ∀ protos, AllCreated h s.disk (outputDirs h protos) → DirsMade h opt protos s.disk :=
  ⟨fun names => allOrNothing_generate hflat names s, allOrNothing_generateAll hflat s,
    fun _ => dirsMade_of_allCreated⟩

theorem flatSuffixes_default : FlatSuffixes {} := by
  intro p hp
  simp at hp

/-- On a disk where no directory can be made, `sub/x` is submitted all the same. -/
theorem generate_without_directory :
    ¬AllOrNothing (namedEntries (fixedHost [] false) {} [lit "sub/x"]) (freshSession [] false)
      ((generate (fixedHost [] false) [lit "sub/x"] {}).run (freshSession [] false)) := by
  rw [allOrNothing_generate flatSuffixes_default]
  rintro ⟨-, hmade⟩
  have hdir : lit "/o/sub" ∈ outputDirs (fixedHost [] false)
      (namedEntries (fixedHost [] false) {} [lit "sub/x"]) := by
    decide +kernel
  have hc : Checked (fixedHost [] false) {} (namedEntries (fixedHost [] false) {} [lit "sub/x"])
      (lit "/bin/protoc") (lit "/p/pb/src") :=
    checked_fixedHost [] false (by simp) (List.cons_ne_nil _ _)
  have hthere := hmade _ _ hc _ hdir
  revert hthere
  decide +kernel

theorem generate_without_directory_iff :
    AllOrNothing (namedEntries (fixedHost [] false) {} [lit "sub/x"]) (freshSession [] false)
        ((generate (fixedHost [] false) [lit "sub/x"] {}).run (freshSession [] false)) ↔
      ¬SearchThrows (fixedHost [] false) {} (namedEntries (fixedHost [] false) {} [lit "sub/x"]) ∧
        DirsMade (fixedHost [] false) {} (namedEntries (fixedHost [] false) {} [lit "sub/x"])
          (freshSession [] false).disk :=
  (generate_allOrNothing_iff flatSuffixes_default (freshSession [] false)).1 [lit "sub/x"]

end GrpcM.Grpcgen
