import GrpcM.Session

/-!
The data of the codegen rule: plugins, options and planned edges, and the two
functions that need nothing else, `resolvePlugins` and `describe`.
-/

namespace GrpcM.Grpcgen

open GrpcM.Path GrpcM.FileSystem

/-- A protoc plugin. An empty `binary` is an unresolved plugin. -/
structure Plugin where
  name : Text
  binary : Text
  params : List Text
  suffixes : List Text
  deriving DecidableEq, Repr

structure Options where
  protoDir : Text := lit "proto"
  grpc : Bool := true
  extraDirs : List Text := []
  imports : List Text := []
  mock : Bool := false
  protocArgs : List Text := []
  plugins : List Plugin := []
  deriving DecidableEq, Repr

/-- A planned edge of the build graph, before it is submitted. -/
structure Edge where
  id : Text
  description : Text
  command : List Text
  inputs : List Text
  outputs : List Text
  deriving DecidableEq, Repr

/-- A `.proto` addressed by a root and a name without extension. -/
structure Entry where
  root : Text
  name : Text
  deriving DecidableEq, Repr

def cpp (h : Host) (mock : Bool) : Plugin :=
  let bin := h.depBin (lit "grpc-plugin") (lit "grpc_cpp_plugin")
  { name := lit "grpc"
    binary := bin.getD []
    params := if mock then [lit "generate_mock_code=true"] else []
    suffixes := [lit ".grpc.pb.cc", lit ".grpc.pb.h"] ++
      if mock then [lit "_mock.grpc.pb.h"] else [] }

def resolvePlugins (h : Host) (opt : Options) : List Plugin :=
  if !opt.plugins.isEmpty then opt.plugins
  else if !opt.grpc then []
  else [cpp h opt.mock]

/-- The plugin part of a description; `generate_mock_code=true` reads as `+mock`. -/
def describePlugin (p : Plugin) : Text :=
  '+' :: p.name ++
    p.params.flatMap fun q => if q = lit "generate_mock_code=true" then lit " +mock" else []

/-- A root relative to the manifest, unless that is empty or two levels up. -/
def describeRoot (i root : Text) : Text :=
  let r := genericString (lexicallyRelative i root)
  if r.isEmpty || (lit "../..").isPrefixOf r then i else r

def describe (name : Text) (plugins : List Plugin) (userIncs : List Text) (root : Text) : Text :=
  lit "protoc:" ++ name ++ lit " (" ++
    (if plugins.isEmpty then lit "messages-only"
      else [' '].intercalate (plugins.map describePlugin)) ++
    userIncs.flatMap (fun i =>
      (if some i = userIncs.head? then lit ", -I" else lit " -I") ++
        describeRoot i root) ++
    lit ")"

def protoExtension : Text := lit ".proto"

/-- `std::format("{}/{}.proto", root, name)`. -/
def Entry.source (e : Entry) : Text := e.root ++ '/' :: (e.name ++ protoExtension)

end GrpcM.Grpcgen
