import GrpcM.Grpcgen.Options

/-!
`plan_entries`: the edges for `.proto` files given as root and name. The
function checks its surroundings first, in the order of the source, and each
failed check prints a diagnostic and returns no edge; after the last check the
only effect left is the directory made for each edge's outputs.
-/

namespace GrpcM.Grpcgen

open GrpcM.Path GrpcM.FileSystem

/-! ### Diagnostics -/

def noContextText : Text :=
  lit "grpcgen: no mcpp build context — this runs from build.mcpp"

def noProtosText : Text := lit "grpcgen: no .proto files to plan"

def noProtocText : Text :=
  lit ("grpcgen: no protoc. It generates the PROTOBUF half of the output " ++
    "(.pb.cc/.pb.h), which is protobuf's, not gRPC's — so it is " ++
    "declared on protobuf:\n" ++
    "  compat.protobuf = \x7b version = \"35.1\", tools = [\"protoc\"] \x7d\n" ++
    "  (or simply  grpc = \x7b version = \"...\", features = [\"codegen\"] \x7d," ++
    " which hands you all of it)")

def noExecutableText (name : Text) : Text :=
  lit "grpcgen: plugin '" ++ name ++
    lit ("' has no executable. For the built-in gRPC C++ plugin declare:\n" ++
    "  grpc-plugin = \x7b version = \"...\", tools = [\"grpc_cpp_plugin\"] \x7d\n" ++
    "  (or grpcgen::generate_all(\x7b.grpc = false\x7d) for a " ++
    "protobuf-only project)")

def noWellKnownTypesText : Text :=
  lit ("grpcgen: cannot locate the well-known .proto files inside the " ++
    "protobuf package")

/-! ### The well-known types -/

/-- The first directory below `base` that holds descriptor.proto. -/
def findDescriptor (h : Host) (base : Text) : Listing Text → Except Fault Text
  | .done => .ok []
  | .fault => .error .filesystemError
  | .entry name rest =>
      let src := append (append base name) (lit "src")
      if h.fileExists (append (append (append src (lit "google")) (lit "protobuf"))
          (lit "descriptor.proto")) then
        .ok (genericString src)
      else findDescriptor h base rest

def wellKnownTypesDir (h : Host) : Except Fault Text :=
  let base := h.depDir (lit "protobuf")
  if base.isEmpty then .ok []
  else
    match h.directoryIterator base with
    | none => .ok []
    | some listing => findDescriptor h base listing

/-! ### One edge -/

/-- A directory of the options as protoc is told it. -/
def absUnderRoot (h : Host) (v : Text) : Text :=
  if isAbsolute v then genericString v
  else genericString (lexicallyNormal (append h.manifestDir v))

def includeRoots (h : Host) (opt : Options) (wkt : Text) : List Text :=
  [absUnderRoot h opt.protoDir] ++ opt.extraDirs.map (absUnderRoot h) ++
    opt.imports.map (absUnderRoot h) ++ [wkt]

/-- The parameters of a plugin in one text, a comma before each that follows text. -/
def pluginSpec (p : Plugin) : Text :=
  p.params.foldl (fun spec q => if spec.isEmpty then q else spec ++ ',' :: q) []

def pluginOut (out : Text) (p : Plugin) : Text :=
  lit "--" ++ p.name ++ lit "_out=" ++
    if (pluginSpec p).isEmpty then out else pluginSpec p ++ ':' :: out

def pluginBinary (p : Plugin) : Text :=
  lit "--plugin=protoc-gen-" ++ p.name ++ '=' :: p.binary

/-- `std::format("{}/{}", out, name)`, what every output of an edge starts with. -/
def outputBase (h : Host) (name : Text) : Text := h.outDir ++ '/' :: name

def edgeCommand (h : Host) (opt : Options) (protoc wkt : Text) (ent : Entry) : List Text :=
  [protoc] ++ (includeRoots h opt wkt).map (lit "-I" ++ ·) ++
    [lit "--cpp_out=" ++ h.outDir] ++
    (resolvePlugins h opt).flatMap (fun p => [pluginOut h.outDir p, pluginBinary p]) ++
    opt.protocArgs ++ [ent.source]

def edgeOutputs (h : Host) (opt : Options) (name : Text) : List Text :=
  [outputBase h name ++ lit ".pb.cc", outputBase h name ++ lit ".pb.h"] ++
    (resolvePlugins h opt).flatMap fun p => p.suffixes.map (outputBase h name ++ ·)

/-- The edge of one entry. Every entry is an input of every edge. -/
def planEdge (h : Host) (opt : Options) (protos : List Entry) (protoc wkt : Text)
    (ent : Entry) : Edge where
  id := lit "protoc:" ++ ent.name
  description := describe ent.name (resolvePlugins h opt) (includeRoots h opt wkt).dropLast
    h.manifestDir
  command := edgeCommand h opt protoc wkt ent
  inputs := protos.map Entry.source
  outputs := edgeOutputs h opt ent.name

/-! ### The function -/

def planEntries (h : Host) (protos : List Entry) (opt : Options) : Build h (List Edge) := do
  if h.manifestDir.isEmpty || h.outDir.isEmpty then
    println noContextText
    return []
  if protos.isEmpty then
    println noProtosText
    return []
  let protoc := (h.depBin (lit "protobuf") (lit "protoc")).getD []
  if protoc.isEmpty then
    println noProtocText
    return []
  match (resolvePlugins h opt).find? (·.binary.isEmpty) with
  | some p =>
      println (noExecutableText p.name)
      return []
  | none =>
      let wkt ← liftExcept (wellKnownTypesDir h)
      if wkt.isEmpty then
        println noWellKnownTypesText
        return []
      protos.mapM fun ent => do
        createDirectories (parentPath (outputBase h ent.name))
        return planEdge h opt protos protoc wkt ent

end GrpcM.Grpcgen
