import GrpcM.Plugin.GeneratorHelpers

/-!
The shipped plugin: `CppGrpcGenerator::Generate` reads its parameter text and
opens one file for each text it generates. Whatever is wrong with the proto file
or with a parameter is found before the first file is opened.
-/

namespace GrpcM.Plugin

open GrpcM.Path

/-! ### Names -/

def toLower (s : Text) : Text := s.map Char.toLower

/-- The name without the suffix, which it may have in any case of letters. -/
def stripSuffix (filename suffix : Text) : Option Text :=
  if suffix.length ≤ filename.length then
    if toLower (filename.drop (filename.length - suffix.length)) = toLower suffix then
      some (filename.take (filename.length - suffix.length))
    else none
  else none

def stripProto (filename : Text) : Text :=
  match stripSuffix filename (lit ".protodevel") with
  | some stem => stem
  | none => (stripSuffix filename (lit ".proto")).getD filename

theorem stripSuffix_eq_some_iff {filename suffix stem : Text} :
    stripSuffix filename suffix = some stem ↔
      ∃ tail, filename = stem ++ tail ∧ toLower tail = toLower suffix := by
  constructor
  · intro hstrip
    rw [stripSuffix] at hstrip
    split at hstrip
    · split at hstrip
      case isTrue hequal =>
          obtain rfl := Option.some.inj hstrip
          exact ⟨_, (List.take_append_drop _ _).symm, hequal⟩
      case isFalse => cases hstrip
    · cases hstrip
  · rintro ⟨tail, rfl, hequal⟩
    have hlength : tail.length = suffix.length := by
      simpa [toLower] using congrArg List.length hequal
    rw [stripSuffix, List.length_append, hlength, if_pos (Nat.le_add_left _ _),
      Nat.add_sub_cancel, List.drop_left, if_pos hequal, List.take_left]

/-- However the stem ends, one `.proto` is taken off it and nothing more. -/
@[simp] theorem stripProto_append (n : Text) : stripProto (n ++ lit ".proto") = n := by
  have hdevel : stripSuffix (n ++ lit ".proto") (lit ".protodevel") = none := by
    refine Option.eq_none_iff_forall_ne_some.mpr fun stem hstrip => ?_
    obtain ⟨tail, hname, hequal⟩ := stripSuffix_eq_some_iff.mp hstrip
    -- the last letters are an o and an l
    have hlast : (toLower tail).getLast? = some 'o' := by
      have htail : tail ≠ [] := by
        rintro rfl
        cases hequal
      have hgetLast := congrArg List.getLast? hname
      rw [List.getLast?_append_of_ne_nil _ htail] at hgetLast
      rw [toLower, List.getLast?_map, ← hgetLast]
      simp [lit]
    rw [hequal] at hlast
    cases hlast
  rw [stripProto, hdevel, stripSuffix_eq_some_iff.mpr ⟨lit ".proto", rfl, rfl⟩,
    Option.getD_some]

/-! ### Parameters -/

structure Parameters where
  servicesNamespace : Text := []
  useSystemHeaders : Bool := true
  grpcSearchPath : Text := []
  generateMockCode : Bool := false
  gmockSearchPath : Text := []
  additionalHeaderIncludes : List Text := []
  messageHeaderExtension : Text := []
  includeImportHeaders : Bool := false
  allowSyncServerApi : Bool := true
  allowCqApi : Bool := true
  allowDeprecated : Bool := false
  deriving DecidableEq, Repr

/-- Why nothing is generated: an error text, or `param[1]` of a parameter without `=`,
which C++ leaves undefined. -/
inductive Failure where
  | error (text : Text)
  | outOfRange
  deriving DecidableEq, Repr

def genericServicesText : Text :=
  lit ("cpp grpc proto compiler plugin does not work with generic " ++
    "services. To generate cpp grpc APIs, please set \"" ++
    "cc_generic_service = false\".")

def invalidText (parameterString : Text) : Text :=
  lit "Invalid parameter: " ++ parameterString

def unknownText (parameterString : Text) : Text :=
  lit "Unknown parameter: " ++ parameterString

/-- `param[1]`. -/
def value (param : List Text) : Except Failure Text :=
  match param[1]? with
  | some v => .ok v
  | none => .error .outOfRange

def switch (parameterString : Text) (param : List Text) : Except Failure Bool := do
  let v ← value param
  if v = lit "true" then return true
  else if v = lit "false" then return false
  else throw (.error (invalidText parameterString))

def applyParameter (gp : Parameters) (parameterString : Text) : Except Failure Parameters := do
  let param := tokenize parameterString ['=']
  let key := param.headD []
  if key = lit "services_namespace" then
    return { gp with servicesNamespace := ← value param }
  else if key = lit "use_system_headers" then
    return { gp with useSystemHeaders := ← switch parameterString param }
  else if key = lit "grpc_search_path" then
    return { gp with grpcSearchPath := ← value param }
  else if key = lit "generate_mock_code" then
    -- `false` does not undo an earlier `true`
    return { gp with generateMockCode := gp.generateMockCode || (← switch parameterString param) }
  else if key = lit "allow_sync_server_api" then
    return { gp with allowSyncServerApi := ← switch parameterString param }
  else if key = lit "allow_cq_api" then
    return { gp with allowCqApi := ← switch parameterString param }
  else if key = lit "gmock_search_path" then
    return { gp with gmockSearchPath := ← value param }
  else if key = lit "additional_header_includes" then
    return { gp with additionalHeaderIncludes := tokenize (← value param) [':'] }
  else if key = lit "message_header_extension" then
    return { gp with messageHeaderExtension := ← value param }
  else if key = lit "include_import_headers" then
    -- nor here
    let on ← switch parameterString param
    return { gp with includeImportHeaders := gp.includeImportHeaders || on }
  else if key = lit "allow_deprecated" then
    return { gp with allowDeprecated := ← switch parameterString param }
  else throw (.error (unknownText parameterString))

def readParameters (parameter : Text) : Except Failure Parameters :=
  if parameter.isEmpty then .ok {}
  else (tokenize parameter [',']).foldlM applyParameter {}

theorem readParameters_nil : readParameters [] = .ok {} := rfl

theorem readParameters_mock :
    readParameters (lit "generate_mock_code=true") = .ok { generateMockCode := true } := by
  decide +kernel

/-! ### The files -/

/-- What the plugin asks of a proto file; `content` is the rest of its descriptor. -/
structure FileDescriptor (σ : Type) where
  name : Text
  ccGenericServices : Bool
  content : σ

structure Printer (σ : Type) where
  prologue : FileDescriptor σ → Parameters → Text
  includes : FileDescriptor σ → Parameters → Text
  services : FileDescriptor σ → Parameters → Text
  epilogue : FileDescriptor σ → Parameters → Text

/-- The code generator, one printer for each kind of file. -/
structure CodeGenerator (σ : Type) where
  header : Printer σ
  source : Printer σ
  mock : Printer σ

variable {σ : Type}

def Printer.code (printer : Printer σ) (file : FileDescriptor σ) (gp : Parameters) : Text :=
  printer.prologue file gp ++ printer.includes file gp ++ printer.services file gp ++
    printer.epilogue file gp

/-- The files `Generate` opens, in order, with what it writes to each. -/
def generate (gen : CodeGenerator σ) (file : FileDescriptor σ) (parameter : Text) :
    Except Failure (List (Text × Text)) := do
  if file.ccGenericServices then throw (.error genericServicesText)
  let gp ← readParameters parameter
  let fileName := stripProto file.name
  let header := (fileName ++ lit ".grpc.pb.h", gen.header.code file gp)
  let source := (fileName ++ lit ".grpc.pb.cc", gen.source.code file gp)
  if !gp.generateMockCode then return [header, source]
  return [header, source, (fileName ++ lit "_mock.grpc.pb.h", gen.mock.code file gp)]

/-- Only the parameters and the file's name decide which files are opened. -/
theorem opened_names (gen : CodeGenerator σ) {file : FileDescriptor σ} {parameter : Text}
    {gp : Parameters} (hservices : file.ccGenericServices = false)
    (hparameter : readParameters parameter = .ok gp) :
    (generate gen file parameter).map (·.map (·.1)) =
      .ok ([stripProto file.name ++ lit ".grpc.pb.h", stripProto file.name ++ lit ".grpc.pb.cc"] ++
        if gp.generateMockCode then [stripProto file.name ++ lit "_mock.grpc.pb.h"] else []) := by
  rw [generate, hservices, hparameter]
  cases hmock : gp.generateMockCode with
  | false => simp [hmock, Except.map, bind, Except.bind, pure, Except.pure]
  | true => simp [hmock, Except.map, bind, Except.bind, pure, Except.pure]

end GrpcM.Plugin
