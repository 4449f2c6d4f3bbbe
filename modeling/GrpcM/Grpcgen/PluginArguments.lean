import GrpcM.Grpcgen.PlanEntriesSpec
import GrpcM.Plugin.GeneratorHelpers

/-!
The parameters of a plugin on the command line. They are joined with commas and
put before the output directory with a colon between, and nothing is escaped,
so protoc reads them back when no colon stands where it is looked for first.
-/

namespace GrpcM.Grpcgen

open GrpcM.Path GrpcM.FileSystem GrpcM.Plugin

variable {h : Host} {opt : Options}

/-! ### What protoc and the generator make of a value -/

/-- protoc splits the value of an output option at its first colon into parameter text
and output location; without a colon it is the location. -/
def splitOut (value : Text) : Text × Text :=
  if ':' ∈ value then (value.takeWhile (· != ':'), (value.dropWhile (· != ':')).tail)
  else ([], value)

/-- The generator splits the parameter text, if there is any, on commas. -/
def decodeOut (value : Text) : List Text × Text :=
  let parts := splitOut value
  (if parts.1.isEmpty then [] else tokenize parts.1 [','], parts.2)

/-- The argument is the output option of this name, and its value means these. -/
def DecodesTo (argument name : Text) (params : List Text) (out : Text) : Prop :=
  ∃ value, argument = lit "--" ++ name ++ lit "_out=" ++ value ∧ decodeOut value = (params, out)

theorem splitOut_of_not_mem {value : Text} (hcolon : ':' ∉ value) :
    splitOut value = ([], value) := if_neg hcolon

theorem splitOut_append {text : Text} (location : Text) (hcolon : ':' ∉ text) :
    splitOut (text ++ ':' :: location) = (text, location) := by
  have hall := forall_bne_of_not_mem hcolon
  rw [splitOut, if_pos (by simp), List.takeWhile_append_of_pos hall,
    List.dropWhile_append_of_pos hall]
  simp

theorem splitOut_location_eq_iff (value : Text) : (splitOut value).2 = value ↔ ':' ∉ value := by
  constructor
  · intro heq hcolon
    obtain ⟨text, location, rfl, hfree⟩ := List.eq_append_cons_of_mem hcolon
    rw [splitOut_append location hfree] at heq
    have hlength := congrArg List.length heq
    simp only [List.length_append, List.length_cons] at hlength
    omega
  · intro hcolon
    rw [splitOut_of_not_mem hcolon]

/-- A text written before a location is read back only when it has no colon. -/
theorem splitOut_append_location_eq_iff (text location : Text) :
    (splitOut (text ++ ':' :: location)).2 = location ↔ ':' ∉ text := by
  constructor
  · intro heq
    have hcolon : ':' ∈ text ++ ':' :: location := by simp
    obtain ⟨text', location', hsplit, hfree⟩ := List.eq_append_cons_of_mem hcolon
    rw [hsplit, splitOut_append location' hfree] at heq
    obtain rfl : location' = location := heq
    rw [List.append_cancel_right hsplit]
    exact hfree
  · intro hcolon
    rw [splitOut_append location hcolon]

/-! ### The argument of a plugin -/

/-- Parameters that the commas between them keep apart. -/
def Separable (params : List Text) : Prop := ∀ q ∈ params, q ≠ [] ∧ ',' ∉ q

theorem foldl_spec (params : List Text) (hparams : ∀ q ∈ params, q ≠ []) {spec : Text}
    (hspec : spec ≠ []) :
    params.foldl (fun spec q => if spec.isEmpty then q else spec ++ ',' :: q) spec =
      [','].intercalate (spec :: params) := by
  induction params generalizing spec with
  | nil => simp
  | cons q params ih =>
      have hnext : spec ++ ',' :: q ≠ [] := by simp
      rw [List.foldl_cons, List.isEmpty_eq_false_iff.mpr hspec, if_neg (by simp),
        ih (fun r hr => hparams r (List.mem_cons_of_mem _ hr)) hnext]
      cases params with
      | nil => simp
      | cons r params => simp [List.intercalate_cons_cons]

theorem pluginSpec_eq {p : Plugin} (hparams : ∀ q ∈ p.params, q ≠ []) :
    pluginSpec p = [','].intercalate p.params := by
  rw [pluginSpec]
  cases hp : p.params with
  | nil => rfl
  | cons q params =>
      rw [hp] at hparams
      exact foldl_spec params (fun r hr => hparams r (List.mem_cons_of_mem _ hr))
        (hparams q List.mem_cons_self)

/-- What plan_entries writes after `--NAME_out=`. -/
def pluginValue (out : Text) (p : Plugin) : Text :=
  if (pluginSpec p).isEmpty then out else pluginSpec p ++ ':' :: out

theorem decodeOut_pluginValue_iff {p : Plugin} (out : Text) (hparams : Separable p.params) :
    decodeOut (pluginValue out p) = (p.params, out) ↔
      (p.params = [] → ':' ∉ out) ∧ ∀ q ∈ p.params, ':' ∉ q := by
  have hspec := pluginSpec_eq fun q hq => (hparams q hq).1
  cases hp : p.params with
  | nil =>
      have hvalue : pluginValue out p = out := by simp [pluginValue, hspec, hp]
      rw [hvalue, decodeOut]
      simp only [Prod.mk.injEq, true_implies, List.not_mem_nil, false_implies, implies_true,
        and_true, ← splitOut_location_eq_iff]
      constructor
      · exact fun hdecode => hdecode.2
      · intro hlocation
        refine ⟨?_, hlocation⟩
        rw [splitOut_of_not_mem ((splitOut_location_eq_iff out).mp hlocation)]
        rfl
  | cons q params =>
      rw [hp] at hspec hparams
      have hfree : ':' ∉ pluginSpec p ↔ ∀ r ∈ q :: params, ':' ∉ r := by
        rw [hspec, mem_intercalate_iff (by decide)]
        simp only [not_exists, not_and]
      -- with parameters there is a colon, and only they can hold an earlier one
      have hne : pluginSpec p ≠ [] := by
        rw [hspec]
        have hq := (hparams q List.mem_cons_self).1
        cases params with
        | nil => simpa using hq
        | cons r params => simp [List.intercalate_cons_cons]
      have hvalue : pluginValue out p = pluginSpec p ++ ':' :: out := by
        rw [pluginValue, List.isEmpty_eq_false_iff.mpr hne, if_neg (by simp)]
      rw [hvalue, decodeOut, ← hfree, ← splitOut_append_location_eq_iff (pluginSpec p) out]
      simp only [Prod.mk.injEq, List.cons_ne_nil, false_implies, true_and]
      refine and_iff_right_of_imp fun hlocation => ?_
      rw [splitOut_append out ((splitOut_append_location_eq_iff _ _).mp hlocation), hspec,
        if_neg (by simpa [hspec] using hne)]
      exact tokenize_intercalate (by simp) fun r hr => (hparams r hr).2

/-- The place of the i-th plugin's output option in a command. -/
def pluginIndex (opt : Options) (i : Nat) : Nat :=
  opt.extraDirs.length + opt.imports.length + 4 + 2 * i

theorem getElem?_flatMap_pair {α β : Type} (f g : α → β) (as : List α) (rest : List β) (i : Nat)
    (a : α) (ha : as[i]? = some a) :
    (as.flatMap (fun a => [f a, g a]) ++ rest)[2 * i]? = some (f a) := by
  induction as generalizing i with
  | nil => simp at ha
  | cons b as ih =>
      cases i with
      | zero =>
          obtain rfl : b = a := by simpa using ha
          simp
      | succ i =>
          have htail : as[i]? = some a := by simpa using ha
          have hnext : 2 * (i + 1) = 2 * i + 2 := by omega
          rw [hnext]
          simpa using ih i htail

theorem getElem?_command {protos : List Entry} {protoc wkt : Text} (ent : Entry) {i : Nat}
    {p : Plugin} (hp : (resolvePlugins h opt)[i]? = some p) :
    (planEdge h opt protos protoc wkt ent).command[pluginIndex opt i]? =
      some (pluginOut h.outDir p) := by
  have hcommand : (planEdge h opt protos protoc wkt ent).command =
      ([protoc] ++ (includeRoots h opt wkt).map (lit "-I" ++ ·) ++
        [lit "--cpp_out=" ++ h.outDir]) ++
      ((resolvePlugins h opt).flatMap (fun p => [pluginOut h.outDir p, pluginBinary p]) ++
        (opt.protocArgs ++ [ent.source])) := by
    simp only [planEdge, edgeCommand, List.append_assoc]
  have hlength : ([protoc] ++ (includeRoots h opt wkt).map (lit "-I" ++ ·) ++
      [lit "--cpp_out=" ++ h.outDir]).length + 2 * i = pluginIndex opt i := by
    simp only [includeRoots, pluginIndex, List.length_append, List.length_map,
      List.length_singleton]
    omega
  rw [hcommand, ← hlength, List.getElem?_append_right (Nat.le_add_right _ _),
    Nat.add_sub_cancel_left]
  exact getElem?_flatMap_pair _ _ _ _ i p hp

/-- A plugin's parameters and the output directory are read back from the command of every
edge exactly when no parameter has a colon and, without parameters, the directory has none. -/
theorem planEntries_params_decode_iff {protos : List Entry} {s : Session h}
    {edges : List Edge} (hrun : returned (planEntries h protos opt) s = some edges) {i : Nat}
    {p : Plugin} (hp : (resolvePlugins h opt)[i]? = some p) (hparams : Separable p.params) :
    ∀ e ∈ edges,
      (∃ argument, e.command[pluginIndex opt i]? = some argument ∧
          DecodesTo argument p.name p.params h.outDir) ↔
        (p.params = [] → ':' ∉ h.outDir) ∧ ∀ q ∈ p.params, ':' ∉ q := by
  intro e he
  obtain ⟨protoc, wkt, -, rfl⟩ := checked_of_planEntries hrun (List.ne_nil_of_mem he)
  obtain ⟨ent, -, rfl⟩ := List.mem_map.mp he
  rw [getElem?_command ent hp, ← decodeOut_pluginValue_iff h.outDir hparams]
  constructor
  · rintro ⟨argument, hargument, value, hvalue, hdecode⟩
    obtain rfl := Option.some.inj hargument
    have heq : pluginValue h.outDir p = value := List.append_cancel_left hvalue
    rw [heq, hdecode]
  · intro hdecode
    exact ⟨_, rfl, pluginValue h.outDir p, rfl, hdecode⟩

/-- The C++ plugin's list of additional headers, which it splits on colons itself. -/
def headersPlugin : Plugin :=
  { name := lit "grpc"
    binary := lit "/bin/grpc_cpp_plugin"
    params := [lit "additional_header_includes=a.h:b.h"]
    suffixes := [lit ".grpc.pb.cc", lit ".grpc.pb.h"] }

def headersOptions : Options := { plugins := [headersPlugin] }

def headersEdge : Edge :=
  let a : Entry := ⟨lit "/m/proto", lit "a"⟩
  planEdge (fixedHost [] true) headersOptions [a] (lit "/bin/protoc") (lit "/p/pb/src") a

theorem planEntries_headers :
    returned (planEntries (fixedHost [] true) [⟨lit "/m/proto", lit "a"⟩] headersOptions)
        (freshSession [] true) = some [headersEdge] ∧
      headersEdge.command[pluginIndex headersOptions 0]? =
        some (lit "--" ++ headersPlugin.name ++ lit "_out=" ++
          lit "additional_header_includes=a.h:b.h:/o") := by
  have hplugins : ∀ p ∈ headersOptions.plugins, p.binary ≠ [] := by decide +kernel
  refine ⟨returned_planEntries_of_checked
    (checked_fixedHost [] true hplugins (List.cons_ne_nil _ _)) (freshSession [] true), ?_⟩
  decide +kernel

/-- protoc takes `a.h` for the end of the parameters and `b.h:/o` for the directory. -/
theorem planEntries_headers_misread :
    ∃ edges, returned (planEntries (fixedHost [] true) [⟨lit "/m/proto", lit "a"⟩]
        headersOptions) (freshSession [] true) = some edges ∧
      Separable headersPlugin.params ∧
      ¬∀ e ∈ edges, ∃ argument, e.command[pluginIndex headersOptions 0]? = some argument ∧
        DecodesTo argument headersPlugin.name headersPlugin.params (lit "/o") := by
  refine ⟨[headersEdge], planEntries_headers.1, ?_, ?_⟩
  · rw [Separable]
    decide +kernel
  · intro hall
    obtain ⟨argument, hargument, value, hvalue, hdecode⟩ :=
      hall headersEdge List.mem_cons_self
    rw [planEntries_headers.2] at hargument
    obtain rfl := Option.some.inj hargument
    have hread : lit "additional_header_includes=a.h:b.h:/o" = value :=
      List.append_cancel_left hvalue
    rw [← hread] at hdecode
    revert hdecode
    decide +kernel

theorem headers_params_decode_iff :
    (∃ argument, headersEdge.command[pluginIndex headersOptions 0]? = some argument ∧
        DecodesTo argument headersPlugin.name headersPlugin.params (lit "/o")) ↔
      (headersPlugin.params = [] → ':' ∉ lit "/o") ∧ ∀ q ∈ headersPlugin.params, ':' ∉ q :=
  planEntries_params_decode_iff planEntries_headers.1 rfl (by rw [Separable]; decide +kernel)
    headersEdge List.mem_cons_self

end GrpcM.Grpcgen
