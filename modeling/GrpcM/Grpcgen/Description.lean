import GrpcM.Cut
import GrpcM.Grpcgen.Directories
import GrpcM.Grpcgen.PlanEntriesSpec

/-!
What the description of an edge tells of its command. It names the generators
and shows the directories the author chose; the arguments passed through to
protoc do not appear in it, and a directory that is written with ` -I` in its
name reads like two.
-/

namespace GrpcM.Grpcgen

open GrpcM.Cut GrpcM.Path GrpcM.FileSystem

variable {h : Host} {opt opt' : Options} {protos protos' : List Entry}

/-! ### The directories of a description -/

/-- What stands for a directory: the way to it from the manifest directory, unless that
way is empty or leads two levels up. -/
def shownFrom (manifestDir dir : Text) : Text :=
  let way := genericString (lexicallyRelative dir manifestDir)
  if way = [] ∨ lit "../.." <+: way then genericString dir else way

/-- What stands for directories in order. The comma that comes before the first of them
also comes before each one that is the first again. -/
def shownInOrder (manifestDir first : Text) : List Text → List Text
  | [] => []
  | [dir] => [shownFrom manifestDir dir]
  | dir :: next :: dirs =>
      (shownFrom manifestDir dir ++ if elements next = elements first then [','] else []) ::
        shownInOrder manifestDir first (next :: dirs)

/-- What a reader of the description sees of the directories in the options, taken apart
at each ` -I`. -/
def Options.shownPieces (opt : Options) (manifestDir : Text) : List Text :=
  (shownInOrder manifestDir (pathUnder manifestDir opt.protoDir)
    (opt.directories.map (pathUnder manifestDir))).flatMap (pieces ' ' (lit "-I"))

/-- The directories in the options as protoc takes them, element by element. -/
def Options.elementsInOrder (opt : Options) (manifestDir : Text) : List (List Text) :=
  opt.directories.map fun d => elements (pathUnder manifestDir d)

theorem describeRoot_genericString (dir root : Text) :
    describeRoot (genericString dir) root = shownFrom root dir := by
  have hway : lexicallyRelative (genericString dir) root = lexicallyRelative dir root := by
    simp [lexicallyRelative]
  rw [describeRoot, hway, shownFrom]
  simp [List.isEmpty_iff]

theorem flatMap_describeRoot (root first dir : Text) (dirs : List Text) :
    lit " -I" ++ describeRoot (genericString dir) root ++ (dirs.map genericString).flatMap
        (fun i => (if i = genericString first then lit ", -I" else lit " -I") ++
          describeRoot i root) =
      (shownInOrder root first (dir :: dirs)).flatMap (lit " -I" ++ ·) := by
  induction dirs generalizing dir with
  | nil => simp [shownInOrder, describeRoot_genericString]
  | cons next dirs ih =>
      have hcomma : (if genericString next = genericString first then lit ", -I" else lit " -I") =
          (if elements next = elements first then [','] else []) ++ lit " -I" := by
        simp only [genericString_eq_iff]
        split
        · rfl
        · rfl
      rw [shownInOrder, List.flatMap_cons, ← ih next, List.map_cons, List.flatMap_cons, hcomma,
        describeRoot_genericString]
      simp only [List.append_assoc]

/-! ### The parts of a description -/

def shownRoots (root : Text) (userIncs : List Text) : Text :=
  userIncs.flatMap fun i =>
    (if some i = userIncs.head? then lit ", -I" else lit " -I") ++ describeRoot i root

theorem shownRoots_eq (opt : Options) :
    shownRoots h.manifestDir (opt.directories.map (absUnderRoot h)) =
      ',' :: (shownInOrder h.manifestDir (pathUnder h.manifestDir opt.protoDir)
        (opt.directories.map (pathUnder h.manifestDir))).flatMap (lit " -I" ++ ·) := by
  have hmap : ∀ ds : List Text,
      ds.map (absUnderRoot h) = (ds.map (pathUnder h.manifestDir)).map genericString := by
    intro ds
    simp [absUnderRoot_eq_genericString]
  rw [hmap, Options.directories, List.map_cons, ← flatMap_describeRoot, shownRoots, List.map_cons,
    List.flatMap_cons, List.head?_cons, if_pos rfl]
  simp only [Option.some.injEq]
  rfl

def shownGenerators (plugins : List Plugin) : Text :=
  if plugins.isEmpty then lit "messages-only" else [' '].intercalate (plugins.map describePlugin)

/-- Two option values without plugins of their own run the same generators. -/
def SameGenerators (opt opt' : Options) : Prop :=
  opt.grpc = opt'.grpc ∧ (opt.grpc = true → opt.mock = opt'.mock)

theorem dropLast_includeRoots (wkt : Text) :
    (includeRoots h opt wkt).dropLast = opt.directories.map (absUnderRoot h) := by
  rw [includeRoots_eq, List.dropLast_concat]

theorem description_planEdge (protoc wkt : Text) (ent : Entry) :
    (planEdge h opt protos protoc wkt ent).description =
      lit "protoc:" ++ ent.name ++ lit " (" ++ shownGenerators (resolvePlugins h opt) ++
        shownRoots h.manifestDir (opt.directories.map (absUnderRoot h)) ++ lit ")" := by
  rw [planEdge, dropLast_includeRoots]
  rfl

theorem resolvePlugins_of_plugins_nil (hplugins : opt.plugins = []) :
    resolvePlugins h opt = if opt.grpc then [cpp h opt.mock] else [] := by
  rw [resolvePlugins, hplugins]
  cases opt.grpc with
  | false => rfl
  | true => rfl

theorem shownGenerators_of_plugins_nil (hplugins : opt.plugins = []) :
    shownGenerators (resolvePlugins h opt) =
      if opt.grpc then if opt.mock then lit "+grpc +mock" else lit "+grpc"
      else lit "messages-only" := by
  rw [resolvePlugins_of_plugins_nil hplugins]
  cases opt.grpc with
  | false => rfl
  | true =>
      cases opt.mock with
      | false => rfl
      | true => rfl

theorem shownGenerators_append_eq_iff (hplugins : opt.plugins = [])
    (hplugins' : opt'.plugins = []) (rest rest' : Text) :
    shownGenerators (resolvePlugins h opt) ++ ',' :: rest =
        shownGenerators (resolvePlugins h opt') ++ ',' :: rest' ↔
      SameGenerators opt opt' ∧ rest = rest' := by
  have hfree : ∀ grpc mock : Bool, ',' ∉ (if grpc then if mock then lit "+grpc +mock"
      else lit "+grpc" else lit "messages-only") := by
    decide +kernel
  have hinj : ∀ grpc mock grpc' mock' : Bool,
      ((if grpc then if mock then lit "+grpc +mock" else lit "+grpc" else lit "messages-only") =
        if grpc' then if mock' then lit "+grpc +mock" else lit "+grpc"
        else lit "messages-only") ↔ grpc = grpc' ∧ (grpc = true → mock = mock') := by
    decide +kernel
  rw [shownGenerators_of_plugins_nil hplugins, shownGenerators_of_plugins_nil hplugins',
    append_cons_eq_iff (hfree _ _) (hfree _ _), hinj, SameGenerators]

/-- Descriptions of one entry agree when generators and shown pieces do. -/
theorem description_eq_iff (hplugins : opt.plugins = []) (hplugins' : opt'.plugins = [])
    (protoc wkt : Text) (ent : Entry) :
    (planEdge h opt protos protoc wkt ent).description =
        (planEdge h opt' protos' protoc wkt ent).description ↔
      SameGenerators opt opt' ∧
        opt.shownPieces h.manifestDir = opt'.shownPieces h.manifestDir := by
  have hseparator : ' ' ∉ lit "-I" := by decide
  rw [description_planEdge, description_planEdge, shownRoots_eq, shownRoots_eq,
    List.append_left_inj, List.append_assoc,
    List.append_assoc (lit "protoc:" ++ ent.name ++ lit " ("), List.append_right_inj,
    shownGenerators_append_eq_iff hplugins hplugins']
  exact and_congr_right fun _ => flatMap_append_eq_iff hseparator _ _

/-! ### The parts of a command -/

theorem map_eq_map_iff {α β γ : Type} {f : α → β} {g : α → γ}
    (hpoint : ∀ x y, f x = f y ↔ g x = g y) (xs ys : List α) :
    xs.map f = ys.map f ↔ xs.map g = ys.map g := by
  induction xs generalizing ys with
  | nil => simp [eq_comm]
  | cons x xs ih =>
      cases ys with
      | nil => simp
      | cons y ys => simp only [List.map_cons, List.cons.injEq, hpoint, ih]

theorem map_absUnderRoot_eq_iff :
    opt.directories.map (absUnderRoot h) = opt'.directories.map (absUnderRoot h) ↔
      opt.elementsInOrder h.manifestDir = opt'.elementsInOrder h.manifestDir := by
  refine map_eq_map_iff (fun d d' => ?_) _ _
  rw [absUnderRoot_eq_genericString, absUnderRoot_eq_genericString, genericString_eq_iff]

/-- The roots end where the output options start, so they can be read off. -/
theorem command_eq_iff (hsame : resolvePlugins h opt = resolvePlugins h opt')
    (protoc wkt : Text) (ent : Entry) :
    (planEdge h opt protos protoc wkt ent).command =
        (planEdge h opt' protos' protoc wkt ent).command ↔
      opt.elementsInOrder h.manifestDir = opt'.elementsInOrder h.manifestDir ∧
        opt.protocArgs = opt'.protocArgs := by
  have hcommand : ∀ (o : Options) (ps : List Entry), (planEdge h o ps protoc wkt ent).command =
      protoc :: ((o.directories.map (absUnderRoot h) ++ [wkt]).map (lit "-I" ++ ·) ++
        (lit "--cpp_out=" ++ h.outDir) ::
          ((resolvePlugins h o).flatMap (fun p => [pluginOut h.outDir p, pluginBinary p]) ++
            (o.protocArgs ++ [ent.source]))) := by
    intro o ps
    simp only [planEdge, edgeCommand, includeRoots_eq, List.append_assoc, List.singleton_append]
    rfl
  have hout : ∀ roots : List Text,
      lit "--cpp_out=" ++ h.outDir ∉ roots.map (lit "-I" ++ ·) := by
    intro roots hmem
    obtain ⟨root, -, hroot⟩ := List.mem_map.mp hmem
    cases hroot
  have hinj : Function.Injective (lit "-I" ++ · : Text → Text) :=
    fun _ _ heq => List.append_cancel_left heq
  rw [hcommand, hcommand, List.cons.injEq, append_cons_eq_iff (hout _) (hout _),
    (List.map_injective_iff.mpr hinj).eq_iff, hsame, List.append_right_inj,
    List.append_left_inj, List.append_left_inj, map_absUnderRoot_eq_iff]
  simp

theorem SameGenerators.resolvePlugins_eq (hsame : SameGenerators opt opt')
    (hplugins : opt.plugins = []) (hplugins' : opt'.plugins = []) :
    resolvePlugins h opt = resolvePlugins h opt' := by
  rw [resolvePlugins_of_plugins_nil hplugins, resolvePlugins_of_plugins_nil hplugins',
    ← hsame.1]
  split
  case isTrue hgrpc => rw [hsame.2 hgrpc]
  case isFalse => rfl

/-! ### One entry planned twice -/

/-- Equal descriptions come with equal commands exactly when the generators differ, the
directories are shown in different pieces, or both the directories and the arguments for
protoc are equal. -/
theorem planEntries_command_determined_iff (hplugins : opt.plugins = [])
    (hplugins' : opt'.plugins = []) {s s' : Session h} {edges edges' : List Edge}
    (hrun : returned (planEntries h protos opt) s = some edges)
    (hrun' : returned (planEntries h protos' opt') s' = some edges')
    {i j : Nat} {ent : Entry} (hent : protos[i]? = some ent) (hent' : protos'[j]? = some ent)
    {e e' : Edge} (he : edges[i]? = some e) (he' : edges'[j]? = some e') :
    (e.description = e'.description → e.command = e'.command) ↔
      (SameGenerators opt opt' →
        opt.shownPieces h.manifestDir = opt'.shownPieces h.manifestDir →
        opt.elementsInOrder h.manifestDir = opt'.elementsInOrder h.manifestDir ∧
          opt.protocArgs = opt'.protocArgs) := by
  obtain ⟨protoc, wkt, hc, rfl⟩ := checked_of_planEntries hrun
    (List.ne_nil_of_mem (List.mem_of_getElem? he))
  obtain ⟨protoc', wkt', hc', rfl⟩ := checked_of_planEntries hrun'
    (List.ne_nil_of_mem (List.mem_of_getElem? he'))
  -- one environment has one protoc and one place of the well-known types
  obtain rfl : protoc = protoc' := hc.protoc_eq.symm.trans hc'.protoc_eq
  obtain rfl : wkt' = wkt := hc'.wkt_unique hc.wkt_eq
  rw [List.getElem?_map, hent, Option.map_some, Option.some.injEq] at he
  rw [List.getElem?_map, hent', Option.map_some, Option.some.injEq] at he'
  subst he he'
  rw [description_eq_iff hplugins hplugins', and_imp]
  refine imp_congr_right fun hsame => imp_congr_right fun _ => ?_
  exact command_eq_iff (hsame.resolvePlugins_eq hplugins hplugins') protoc wkt' ent

/-! ### An argument that leaves no trace -/

def entryX : Entry := ⟨lit "/m/proto", lit "x"⟩

def edgeX (opt : Options) : Edge :=
  planEdge (fixedHost [] true) opt [entryX] (lit "/bin/protoc") (lit "/p/pb/src") entryX

theorem planEntries_entryX (hplugins : opt.plugins = []) :
    returned (planEntries (fixedHost [] true) [entryX] opt) (freshSession [] true) =
      some [edgeX opt] :=
  returned_planEntries_of_checked
    (checked_fixedHost [] true (by simp [hplugins]) (List.cons_ne_nil _ _)) (freshSession [] true)

def hiddenOptions : Options := { protocArgs := [lit "--experimental_editions"] }

/-- An argument for protoc changes the command and not the description. -/
theorem planEntries_argument_hidden :
    ∃ e e', returned (planEntries (fixedHost [] true) [entryX] {}) (freshSession [] true) =
        some [e] ∧
      returned (planEntries (fixedHost [] true) [entryX] hiddenOptions)
        (freshSession [] true) = some [e'] ∧
      e.description = e'.description ∧ e.command ≠ e'.command := by
  refine ⟨_, _, planEntries_entryX rfl, planEntries_entryX rfl, rfl, fun heq => ?_⟩
  have hparts := (@command_eq_iff (fixedHost [] true) {} hiddenOptions [entryX] [entryX] rfl
    (lit "/bin/protoc") (lit "/p/pb/src") entryX).mp heq
  exact List.cons_ne_nil _ _ hparts.2.symm

theorem planEntries_entryX_determined_iff :
    ((edgeX {}).description = (edgeX hiddenOptions).description →
        (edgeX {}).command = (edgeX hiddenOptions).command) ↔
      (SameGenerators {} hiddenOptions →
        Options.shownPieces {} (lit "/m") = hiddenOptions.shownPieces (lit "/m") →
        Options.elementsInOrder {} (lit "/m") = hiddenOptions.elementsInOrder (lit "/m") ∧
          [] = hiddenOptions.protocArgs) :=
  planEntries_command_determined_iff (i := 0) (j := 0) rfl rfl
    (planEntries_entryX rfl) (planEntries_entryX rfl) rfl rfl rfl rfl

end GrpcM.Grpcgen
