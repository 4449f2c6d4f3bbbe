import GrpcM.Grpcgen.SubmitSpec
import GrpcM.Helloworld

/-!
The rule checked against the long form it replaces. With default options the
rule has one generation root, no search-only root and one plugin without
parameters, and on a normal manifest directory resolving `proto` is writing it
behind the directory; what remains is the long form.
-/

namespace GrpcM.Grpcgen

open GrpcM.Path GrpcM.FileSystem

variable {h : Host}

/-! ### The well-known types -/

/-- The descriptor's path, built in four steps or in one. -/
theorem append_descriptor (p : Text) :
    append (append (append (append p (lit "src")) (lit "google")) (lit "protobuf"))
        (lit "descriptor.proto") =
      append p (lit "src/google/protobuf/descriptor.proto") := by
  have hnames : (hasFilename (lit "src") = true ∧ isAbsolute (lit "src") = false) ∧
      isAbsolute (lit "google") = false ∧ isAbsolute (lit "protobuf") = false ∧
      isAbsolute (lit "descriptor.proto") = false := by
    decide +kernel
  have hpath : ((lit "src" ++ '/' :: lit "google") ++ '/' :: lit "protobuf") ++
      '/' :: lit "descriptor.proto" = lit "src/google/protobuf/descriptor.proto" := by
    decide +kernel
  have hfiles : hasFilename (lit "src" ++ '/' :: lit "google") = true ∧
      hasFilename ((lit "src" ++ '/' :: lit "google") ++ '/' :: lit "protobuf") = true := by
    decide +kernel
  have hrel : isAbsolute (lit "src" ++ '/' :: lit "google") = false ∧
      isAbsolute ((lit "src" ++ '/' :: lit "google") ++ '/' :: lit "protobuf") = false := by
    decide +kernel
  rw [append_append_of_hasFilename hnames.1.1 hnames.1.2 hnames.2.1,
    append_append_of_hasFilename hfiles.1 hrel.1 hnames.2.2.1,
    append_append_of_hasFilename hfiles.2 hrel.2 hnames.2.2.2, hpath]

theorem findDescriptor_eq (base : Text) (l : Listing Text) :
    findDescriptor h base l = Helloworld.firstWithDescriptor h base l := by
  induction l with
  | done => rfl
  | fault => rfl
  | entry name rest ih =>
      simp only [findDescriptor, Helloworld.firstWithDescriptor, append_descriptor, ih]

/-- Both search the protobuf package alike; without a package there is nothing to open. -/
theorem wellKnownTypesDir_eq (h : Host) :
    wellKnownTypesDir h = Helloworld.wellKnownTypesDir h := by
  rw [wellKnownTypesDir, Helloworld.wellKnownTypesDir]
  by_cases hbase : h.depDir (lit "protobuf") = []
  · rw [hbase, h.directoryIterator_nil]
    rfl
  · simp only [List.isEmpty_eq_false_iff.mpr hbase, Bool.false_eq_true, if_false]
    cases h.directoryIterator (h.depDir (lit "protobuf")) with
    | none => rfl
    | some listing => exact findDescriptor_eq _ listing

/-! ### One action -/

/-- What mcpp promises about the manifest directory. -/
structure NormalManifest (h : Host) : Prop where
  absolute : isAbsolute h.manifestDir = true
  normal : lexicallyNormal h.manifestDir = h.manifestDir
  no_trailing_slash : h.manifestDir.getLast? ≠ some '/'

theorem NormalManifest.ne_nil (hm : NormalManifest h) : h.manifestDir ≠ [] := by
  intro hnil
  have habs := hm.absolute
  rw [hnil] at habs
  cases habs

theorem absUnderRoot_proto (hm : NormalManifest h) :
    absUnderRoot h (lit "proto") = h.manifestDir ++ '/' :: lit "proto" := by
  have hproper : IsProperName (lit "proto") := by decide +kernel
  have hrel : isAbsolute (lit "proto") = false := by decide +kernel
  rw [absUnderRoot, hrel, if_neg (by simp),
    lexicallyNormal_append_of_normal hm.absolute hm.normal hm.no_trailing_slash hproper,
    genericString_append_of_normal hm.absolute hm.normal hm.no_trailing_slash hproper]

theorem source_proto (root n : Text) :
    Entry.source ⟨root ++ '/' :: lit "proto", n⟩ = Helloworld.protoPath root n := by
  have hdir : lit "/proto/" = '/' :: lit "proto" ++ ['/'] := rfl
  simp [Entry.source, Helloworld.protoPath, protoExtension, hdir]

theorem resolvePlugins_default : resolvePlugins h {} = [cpp h false] := rfl

theorem edgeCommand_default (hm : NormalManifest h) (protoc wkt n : Text) :
    edgeCommand h {} protoc wkt ⟨h.manifestDir ++ '/' :: lit "proto", n⟩ =
      [protoc, lit "-I" ++ h.manifestDir ++ lit "/proto", lit "-I" ++ wkt,
        lit "--cpp_out=" ++ h.outDir, lit "--grpc_out=" ++ h.outDir,
        lit "--plugin=protoc-gen-grpc=" ++ (cpp h false).binary,
        Helloworld.protoPath h.manifestDir n] := by
  have hroots : includeRoots h {} wkt = [h.manifestDir ++ '/' :: lit "proto", wkt] := by
    rw [← absUnderRoot_proto hm]
    rfl
  have hdir : lit "/proto" = '/' :: lit "proto" := rfl
  have hout : pluginOut h.outDir (cpp h false) = lit "--grpc_out=" ++ h.outDir := rfl
  have hplugin : pluginBinary (cpp h false) =
      lit "--plugin=protoc-gen-grpc=" ++ (cpp h false).binary := rfl
  simp only [edgeCommand, hroots, resolvePlugins_default, source_proto, List.map_cons,
    List.map_nil, List.flatMap_cons, List.flatMap_nil, hout, hplugin, hdir, List.append_assoc,
    List.cons_append, List.nil_append]

/-- An action but for the line the build prints. -/
def withoutDescription (a : Action) : Action := { a with description := [] }

/-- The rule's action for a name is the long form's, the description apart. -/
theorem toAction_planEdge_default (hm : NormalManifest h) (names : List Text)
    (protoc wkt n : Text) :
    withoutDescription (planEdge h {} (namedEntries h {} names) protoc wkt
        ⟨absUnderRoot h (lit "proto"), n⟩).toAction =
      withoutDescription (Helloworld.gen h.manifestDir h.outDir protoc (cpp h false).binary wkt
        names n) := by
  have hinputs : (namedEntries h {} names).map Entry.source =
      names.map (Helloworld.protoPath h.manifestDir) := by
    rw [namedEntries, List.map_map]
    refine List.map_congr_left fun m _ => ?_
    show Entry.source ⟨absUnderRoot h (lit "proto"), m⟩ = _
    rw [absUnderRoot_proto hm, source_proto]
  have houtputs : edgeOutputs h {} n = (Helloworld.gen h.manifestDir h.outDir protoc
      (cpp h false).binary wkt names n).outputs := by
    have hbase : outputBase h n = h.outDir ++ lit "/" ++ n := by
      rw [outputBase, List.append_assoc]
      rfl
    rw [edgeOutputs, resolvePlugins_default, hbase]
    rfl
  simp only [withoutDescription, Edge.toAction, planEdge, hinputs, houtputs,
    absUnderRoot_proto hm, edgeCommand_default hm]
  rfl

/-! ### Both programs -/

/-- Two runs from one session end alike: both fail or throw with nothing submitted, or
both submit the same actions and then the same include directory. -/
inductive SameOutcome (s : Session h) :
    EStateM.Result Fault (Session h) Bool → EStateM.Result Fault (Session h) Nat → Prop
  | failed {s₁ s₂ : Session h} (code : Nat) (hcode : code ≠ 0)
      (h₁ : s₁.directives = s.directives) (h₂ : s₂.directives = s.directives) :
      SameOutcome s (.ok false s₁) (.ok code s₂)
  | threw {s₁ s₂ : Session h} (e : Fault)
      (h₁ : s₁.directives = s.directives) (h₂ : s₂.directives = s.directives) :
      SameOutcome s (.error e s₁) (.error e s₂)
  | submitted {s₁ s₂ : Session h} (as as' : List Action)
      (h₁ : s₁.directives = s.directives ++ as.map .action ++ [.includeDir h.outDir])
      (h₂ : s₂.directives = s.directives ++ as'.map .action ++ [.includeDir h.outDir])
      (hsame : as.map withoutDescription = as'.map withoutDescription) :
      SameOutcome s (.ok true s₁) (.ok 0 s₂)

def ToolsFound (h : Host) (protoc : Text) : Prop :=
  (h.depBin (lit "protobuf") (lit "protoc")).getD [] = protoc ∧ protoc ≠ [] ∧
    (cpp h false).binary ≠ []

theorem main_of_not_toolsFound (hno : ∀ protoc, ¬ToolsFound h protoc) (names : List Text)
    (s : Session h) :
    (Helloworld.main h names).run s =
      .ok 1 { s with diagnostics := s.diagnostics ++ [Helloworld.missingToolText] } := by
  have hmissing : (((h.depBin (lit "protobuf") (lit "protoc")).getD []).isEmpty ||
      ((h.depBin (lit "grpc-plugin") (lit "grpc_cpp_plugin")).getD []).isEmpty) = true := by
    rw [Bool.or_eq_true, List.isEmpty_iff, List.isEmpty_iff]
    refine or_iff_not_imp_left.mpr fun hprotoc => ?_
    exact not_not.mp fun hplugin => hno _ ⟨rfl, hprotoc, hplugin⟩
  simp only [Helloworld.main, hmissing, if_true]
  rfl

theorem main_of_toolsFound {protoc : Text} (htools : ToolsFound h protoc) (names : List Text)
    (s : Session h) :
    (Helloworld.main h names).run s =
      match Helloworld.wellKnownTypesDir h with
      | .error e => .error e s
      | .ok wkt =>
          if wkt = [] then
            .ok 1 { s with diagnostics := s.diagnostics ++ [Helloworld.noWellKnownTypesText] }
          else
            .ok 0 { s with
              directives := s.directives ++
                (names.map fun n => Directive.action (Helloworld.gen h.manifestDir h.outDir
                  protoc (cpp h false).binary wkt names n)) ++
                [.includeDir h.outDir] } := by
  obtain ⟨rfl, hprotoc, hplugin⟩ := htools
  have hfound : (((h.depBin (lit "protobuf") (lit "protoc")).getD []).isEmpty ||
      ((h.depBin (lit "grpc-plugin") (lit "grpc_cpp_plugin")).getD []).isEmpty) = false := by
    rw [Bool.or_eq_false_iff, List.isEmpty_eq_false_iff, List.isEmpty_eq_false_iff]
    exact ⟨hprotoc, hplugin⟩
  simp only [Helloworld.main, hfound, Bool.false_eq_true, if_false, EStateM.run_bind]
  cases Helloworld.wellKnownTypesDir h with
  | error e => rfl
  | ok wkt =>
      simp only [run_liftExcept_ok, List.isEmpty_iff]
      split
      · rfl
      · simp only [EStateM.run_bind]
        rw [run_forIn_direct fun n => Directive.action (Helloworld.gen h.manifestDir h.outDir
          _ _ wkt names n)]
        rfl

theorem surroundings_default_iff (hm : NormalManifest h) (hout : h.outDir ≠ [])
    {names : List Text} (hnames : names ≠ []) (protoc : Text) :
    Surroundings h {} (namedEntries h {} names) protoc ↔ ToolsFound h protoc := by
  constructor
  · intro hs
    exact ⟨hs.protoc_eq, hs.protoc_ne_nil, hs.binary_ne_nil _ (by simp [resolvePlugins_default])⟩
  · rintro ⟨hprotoc, hne, hbinary⟩
    refine ⟨hm.ne_nil, hout, by simpa [namedEntries] using hnames, hprotoc, hne, ?_⟩
    simpa [resolvePlugins_default] using hbinary

/-- With default options the rule does what the long form does. -/
theorem generate_sameOutcome_main (hm : NormalManifest h) (hout : h.outDir ≠ [])
    {names : List Text} (hnames : names ≠ []) (s : Session h) :
    SameOutcome s ((generate h names {}).run s) ((Helloworld.main h names).run s) := by
  have htools := surroundings_default_iff hm hout hnames
  rw [generate, plan_eq hm.ne_nil, EStateM.run_bind]
  by_cases hs : ∃ protoc, ToolsFound h protoc
  · obtain ⟨protoc, hs⟩ := hs
    rw [planEntries_of_surroundings ((htools protoc).mpr hs), main_of_toolsFound hs,
      wellKnownTypesDir_eq]
    cases Helloworld.wellKnownTypesDir h with
    | error e => exact .threw e rfl rfl
    | ok wkt =>
        -- both look at the result once more before they do anything
        by_cases hnil : wkt = []
        · simp only [hnil, if_true]
          exact .failed 1 Nat.one_ne_zero rfl rfl
        · have hne : (namedEntries h {} names).map
              (planEdge h {} (namedEntries h {} names) protoc wkt) ≠ [] := by
            simpa [namedEntries] using hnames
          simp only [hnil, if_false, run_submit hne]
          refine .submitted
            (((namedEntries h {} names).map
              (planEdge h {} (namedEntries h {} names) protoc wkt)).map Edge.toAction)
            (names.map (Helloworld.gen h.manifestDir h.outDir protoc (cpp h false).binary wkt
              names)) ?_ ?_ ?_
          · simp only [List.map_map]
            rfl
          · rw [List.map_map]
            rfl
          · rw [List.map_map, List.map_map, List.map_map, namedEntries, List.map_map]
            refine List.map_congr_left fun n _ => ?_
            exact toAction_planEdge_default hm names protoc wkt n
  · have hno : ∀ protoc, ¬Surroundings h {} (namedEntries h {} names) protoc :=
      fun protoc hp => hs ⟨protoc, (htools protoc).mp hp⟩
    obtain ⟨text, hrun⟩ := planEntries_of_not_surroundings hno s
    rw [hrun, main_of_not_toolsFound fun protoc hp => hs ⟨protoc, hp⟩]
    exact .failed 1 Nat.one_ne_zero rfl rfl

theorem normalManifest_fixedHost (roots : List (Text × Listing DirectoryEntry))
    (writable : Bool) : NormalManifest (fixedHost roots writable) := by
  have hnormal : isAbsolute (lit "/m") = true ∧ lexicallyNormal (lit "/m") = lit "/m" ∧
      (lit "/m").getLast? ≠ some '/' := by
    decide +kernel
  exact ⟨hnormal.1, hnormal.2.1, hnormal.2.2⟩

theorem generate_helloworld_sameOutcome :
    SameOutcome (freshSession [] true)
      ((generate (fixedHost [] true) [lit "helloworld"] {}).run (freshSession [] true))
      ((Helloworld.main (fixedHost [] true) [lit "helloworld"]).run (freshSession [] true)) :=
  generate_sameOutcome_main (normalManifest_fixedHost [] true) (by decide +kernel)
    (List.cons_ne_nil _ _) (freshSession [] true)

end GrpcM.Grpcgen
