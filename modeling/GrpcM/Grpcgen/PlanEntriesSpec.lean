import GrpcM.Grpcgen.PlanEntries

/-!
What `planEntries` can do, said once. It returns one edge per entry when every
check passes (`Checked`), no edge and one diagnostic when one fails, and it
throws only out of the search for the well-known types. Every later result
about a planned edge starts from `planEntries_cases`.
-/

namespace GrpcM.Grpcgen

open GrpcM.Path GrpcM.FileSystem

/-- Everything `planEntries` asks for before it looks for the well-known types. -/
structure Surroundings (h : Host) (opt : Options) (protos : List Entry) (protoc : Text) :
    Prop where
  manifestDir_ne_nil : h.manifestDir ≠ []
  outDir_ne_nil : h.outDir ≠ []
  protos_ne_nil : protos ≠ []
  protoc_eq : (h.depBin (lit "protobuf") (lit "protoc")).getD [] = protoc
  protoc_ne_nil : protoc ≠ []
  binary_ne_nil : ∀ p ∈ resolvePlugins h opt, p.binary ≠ []

/-- All checks of `planEntries` pass, with this protoc and these well-known types. -/
structure Checked (h : Host) (opt : Options) (protos : List Entry) (protoc wkt : Text) : Prop
    extends Surroundings h opt protos protoc where
  wkt_eq : wellKnownTypesDir h = .ok wkt
  wkt_ne_nil : wkt ≠ []

def outputDirs (h : Host) (protos : List Entry) : List Text :=
  protos.map fun ent => parentPath (outputBase h ent.name)

theorem run_mapM_createDirectories {h : Host} {β : Type} (dir : Entry → Text)
    (f : Entry → β) (protos : List Entry) (s : Session h) :
    (protos.mapM fun ent => do createDirectories (dir ent); return f ent : Build h (List β)).run s
      = .ok (protos.map f) { s with disk := createAll h s.disk (protos.map dir) } := by
  induction protos generalizing s with
  | nil => rfl
  | cons ent rest ih =>
      rw [List.mapM_cons]
      simp only [bind_assoc, pure_bind, EStateM.run_bind, run_createDirectories, ih]
      rfl

variable {h : Host} {opt : Options} {protos : List Entry}

/-- Without the surroundings the first check that fails ends the run. -/
theorem planEntries_of_not_surroundings (hno : ∀ protoc, ¬Surroundings h opt protos protoc)
    (s : Session h) :
    ∃ text, (planEntries h protos opt).run s =
      .ok [] { s with diagnostics := s.diagnostics ++ [text] } := by
  cases hroot : h.manifestDir.isEmpty with
  | true => exact ⟨noContextText, by simp only [planEntries, hroot, Bool.true_or, if_true]; rfl⟩
  | false =>
  cases hout : h.outDir.isEmpty with
  | true => exact ⟨noContextText, by simp only [planEntries, hout, Bool.or_true, if_true]; rfl⟩
  | false =>
  cases hprotos : protos.isEmpty with
  | true =>
      refine ⟨noProtosText, ?_⟩
      simp only [planEntries, hroot, hout, hprotos, Bool.or_self, Bool.false_eq_true, if_false,
        if_true]
      rfl
  | false =>
  cases hprotoc : ((h.depBin (lit "protobuf") (lit "protoc")).getD []).isEmpty with
  | true =>
      refine ⟨noProtocText, ?_⟩
      simp only [planEntries, hroot, hout, hprotos, hprotoc, Bool.or_self, Bool.false_eq_true,
        if_false, if_true]
      rfl
  | false =>
  cases hfind : (resolvePlugins h opt).find? (·.binary.isEmpty) with
  | some p =>
      refine ⟨noExecutableText p.name, ?_⟩
      simp only [planEntries, hroot, hout, hprotos, hprotoc, hfind, Bool.or_self,
        Bool.false_eq_true, if_false]
      rfl
  | none =>
      -- every check passed, so these are the surroundings
      refine absurd ?_ (hno ((h.depBin (lit "protobuf") (lit "protoc")).getD []))
      have hbinary : ∀ p ∈ resolvePlugins h opt, p.binary ≠ [] := by
        simpa [List.find?_eq_none] using hfind
      exact ⟨List.isEmpty_eq_false_iff.mp hroot, List.isEmpty_eq_false_iff.mp hout,
        List.isEmpty_eq_false_iff.mp hprotos, rfl, List.isEmpty_eq_false_iff.mp hprotoc, hbinary⟩

/-- With the surroundings the run is decided by the search for the well-known types. -/
theorem planEntries_of_surroundings {protoc : Text}
    (hs : Surroundings h opt protos protoc) (s : Session h) :
    (planEntries h protos opt).run s =
      match wellKnownTypesDir h with
      | .error e => .error e s
      | .ok wkt =>
          if wkt = [] then
            .ok [] { s with diagnostics := s.diagnostics ++ [noWellKnownTypesText] }
          else
            .ok (protos.map (planEdge h opt protos protoc wkt))
              { s with disk := createAll h s.disk (outputDirs h protos) } := by
  have hfind : (resolvePlugins h opt).find? (·.binary.isEmpty) = none := by
    simpa [List.find?_eq_none] using hs.binary_ne_nil
  simp only [planEntries, List.isEmpty_eq_false_iff.mpr hs.manifestDir_ne_nil,
    List.isEmpty_eq_false_iff.mpr hs.outDir_ne_nil,
    List.isEmpty_eq_false_iff.mpr hs.protos_ne_nil, hs.protoc_eq,
    List.isEmpty_eq_false_iff.mpr hs.protoc_ne_nil, hfind, Bool.or_self, Bool.false_eq_true,
    if_false, EStateM.run_bind]
  cases wellKnownTypesDir h with
  | error e => rfl
  | ok wkt =>
      simp only [run_liftExcept_ok, List.isEmpty_iff]
      split
      · rfl
      · exact run_mapM_createDirectories _ _ _ _

theorem planEntries_cases (h : Host) (protos : List Entry) (opt : Options) (s : Session h) :
    (∃ protoc wkt, Checked h opt protos protoc wkt ∧
      (planEntries h protos opt).run s =
        .ok (protos.map (planEdge h opt protos protoc wkt))
          { s with disk := createAll h s.disk (outputDirs h protos) }) ∨
    ((∀ protoc wkt, ¬Checked h opt protos protoc wkt) ∧
      ∃ text, (planEntries h protos opt).run s =
        .ok [] { s with diagnostics := s.diagnostics ++ [text] }) ∨
    (∃ protoc, Surroundings h opt protos protoc ∧
      wellKnownTypesDir h = .error .filesystemError ∧
      (planEntries h protos opt).run s = .error .filesystemError s) := by
  by_cases hs : ∃ protoc, Surroundings h opt protos protoc
  · obtain ⟨protoc, hs⟩ := hs
    have hrun := planEntries_of_surroundings hs s
    cases hwkt : wellKnownTypesDir h with
    | error e =>
        rw [hwkt] at hrun
        exact .inr (.inr ⟨protoc, hs, rfl, hrun⟩)
    | ok wkt =>
        rw [hwkt] at hrun
        by_cases hnil : wkt = []
        · refine .inr (.inl ⟨?_, noWellKnownTypesText, by simpa [hnil] using hrun⟩)
          intro _ wkt' hc
          have hsame : wkt = wkt' := by simpa [hwkt] using hc.wkt_eq
          exact hc.wkt_ne_nil (hsame ▸ hnil)
        · exact .inl ⟨protoc, wkt, ⟨hs, hwkt, hnil⟩, by simpa [hnil] using hrun⟩
  · refine .inr (.inl ⟨?_, ?_⟩)
    · exact fun protoc _ hc => hs ⟨protoc, hc.toSurroundings⟩
    · exact planEntries_of_not_surroundings (fun protoc hp => hs ⟨protoc, hp⟩) s

/-- Two hosts to which mcpp gives the same values and where the search for the well-known
types ends alike. Everything else on their file systems may differ. -/
structure SameAnswers (h h' : Host) : Prop where
  toMcpp : h.toMcpp = h'.toMcpp
  wellKnownTypesDir : wellKnownTypesDir h = wellKnownTypesDir h'

theorem SameAnswers.refl (h : Host) : SameAnswers h h := ⟨rfl, rfl⟩

/-- What `planEntries` returns depends on nothing else, the session included. -/
theorem returned_planEntries_congr {h h' : Host} (hsame : SameAnswers h h')
    (protos : List Entry) (opt : Options) (s : Session h) (s' : Session h') :
    returned (planEntries h protos opt) s = returned (planEntries h' protos opt) s' := by
  have hwkt := hsame.wellKnownTypesDir
  obtain ⟨m, files⟩ := h
  obtain ⟨m', files'⟩ := h'
  obtain rfl : m = m' := hsame.toMcpp
  by_cases hs : ∃ protoc, Surroundings ⟨m, files⟩ opt protos protoc
  · obtain ⟨protoc, hs⟩ := hs
    have hs' : Surroundings ⟨m, files'⟩ opt protos protoc :=
      ⟨hs.1, hs.2, hs.3, hs.4, hs.5, hs.6⟩
    rw [returned, returned, planEntries_of_surroundings hs, planEntries_of_surroundings hs', hwkt]
    cases Grpcgen.wellKnownTypesDir ⟨m, files'⟩ with
    | error e => rfl
    | ok wkt =>
        by_cases hnil : wkt = []
        · simp only [hnil, if_true]
        · simp only [hnil, if_false]
          rfl
  · have hs' : ¬∃ protoc, Surroundings ⟨m, files'⟩ opt protos protoc := by
      rintro ⟨protoc, hs'⟩
      exact hs ⟨protoc, hs'.1, hs'.2, hs'.3, hs'.4, hs'.5, hs'.6⟩
    obtain ⟨_, hrun⟩ := planEntries_of_not_surroundings (fun p hp => hs ⟨p, hp⟩) s
    obtain ⟨_, hrun'⟩ := planEntries_of_not_surroundings (fun p hp => hs' ⟨p, hp⟩) s'
    rw [returned, returned, hrun, hrun']

/-- A run that returns edges is one whose checks passed. -/
theorem checked_of_planEntries {s : Session h} {edges : List Edge}
    (hrun : returned (planEntries h protos opt) s = some edges) (hne : edges ≠ []) :
    ∃ protoc wkt, Checked h opt protos protoc wkt ∧
      edges = protos.map (planEdge h opt protos protoc wkt) := by
  obtain ⟨s', hrun⟩ := returned_eq_some.mp hrun
  rcases planEntries_cases h protos opt s with
    ⟨protoc, wkt, hc, hok⟩ | ⟨-, text, hok⟩ | ⟨protoc, -, -, herror⟩
  · rw [hrun] at hok
    injection hok with hedges
    exact ⟨protoc, wkt, hc, hedges⟩
  · rw [hrun] at hok
    injection hok with hedges
    exact absurd hedges hne
  · rw [hrun] at herror
    cases herror

theorem returned_planEntries_of_checked {protoc wkt : Text}
    (hc : Checked h opt protos protoc wkt) (s : Session h) :
    returned (planEntries h protos opt) s =
      some (protos.map (planEdge h opt protos protoc wkt)) := by
  rw [returned, planEntries_of_surroundings hc.toSurroundings, hc.wkt_eq]
  simp only [hc.wkt_ne_nil, if_false]

theorem returned_planEntries_of_not_surroundings
    (hno : ∀ protoc, ¬Surroundings h opt protos protoc) (s : Session h) :
    returned (planEntries h protos opt) s = some [] := by
  obtain ⟨text, hrun⟩ := planEntries_of_not_surroundings hno s
  exact returned_eq_some.mpr ⟨_, hrun⟩

theorem returned_planEntries_of_no_context (hroot : h.manifestDir = []) (s : Session h) :
    returned (planEntries h protos opt) s = some [] :=
  returned_planEntries_of_not_surroundings (fun _ hs => hs.manifestDir_ne_nil hroot) s

theorem Checked.wkt_unique {protoc wkt wkt' : Text} (hc : Checked h opt protos protoc wkt')
    (hwkt : wellKnownTypesDir h = .ok wkt) : wkt' = wkt := by
  have hsame := hc.wkt_eq
  rw [hwkt] at hsame
  injection hsame with heq
  exact heq.symm

/-! ### On the host with fixed answers -/

theorem wellKnownTypesDir_fixedHost (roots : List (Text × Listing DirectoryEntry))
    (writable : Bool) : wellKnownTypesDir (fixedHost roots writable) = .ok (lit "/p/pb/src") := by
  have hexists : (fixedHost roots writable).fileExists
      (lit "/p/pb/src/google/protobuf/descriptor.proto") = true := by
    simp [fixedHost]
  have hpath : append (append (append (append (append (lit "/p") (lit "pb")) (lit "src"))
      (lit "google")) (lit "protobuf")) (lit "descriptor.proto") =
      lit "/p/pb/src/google/protobuf/descriptor.proto" := by
    decide +kernel
  have hfind : findDescriptor (fixedHost roots writable) (lit "/p") (.ofList [lit "pb"]) =
      .ok (genericString (append (append (lit "/p") (lit "pb")) (lit "src"))) := by
    rw [Listing.ofList, findDescriptor, hpath, if_pos hexists]
  have hgeneric : genericString (append (append (lit "/p") (lit "pb")) (lit "src")) =
      lit "/p/pb/src" := by
    decide +kernel
  rw [hgeneric] at hfind
  exact hfind

/-- It has all tools, so its checks pass for every list that is not empty. -/
theorem checked_fixedHost (roots : List (Text × Listing DirectoryEntry)) (writable : Bool)
    (hplugins : ∀ p ∈ opt.plugins, p.binary ≠ []) (hprotos : protos ≠ []) :
    Checked (fixedHost roots writable) opt protos (lit "/bin/protoc") (lit "/p/pb/src") := by
  refine ⟨⟨?_, ?_, hprotos, rfl, ?_, ?_⟩, wellKnownTypesDir_fixedHost roots writable, ?_⟩
  · exact List.cons_ne_nil _ _
  · exact List.cons_ne_nil _ _
  · exact List.cons_ne_nil _ _
  · intro p hp
    rw [resolvePlugins] at hp
    split at hp
    · exact hplugins p hp
    · split at hp
      · simp at hp
      · rw [List.mem_singleton.mp hp]
        exact List.cons_ne_nil _ _
  · exact List.cons_ne_nil _ _

end GrpcM.Grpcgen
