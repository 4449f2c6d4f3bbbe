import GrpcM.Session

/-!
The long form of the rule, `main` of `examples/helloworld/build.mcpp`, with its
list of names as a parameter. It is the same work as the rule's written out by
hand, so nothing of the rule's own code is used here.
-/

namespace GrpcM.Helloworld

open GrpcM.Path GrpcM.FileSystem

def missingToolText : Text :=
  lit ("missing a codegen tool. Both are declared in mcpp.toml:\n" ++
    "  compat.protobuf = \x7b version = \"35.1\", tools = [\"protoc\"] \x7d\n" ++
    "  grpc-plugin     = \x7b version = \"...\",  tools = [\"grpc_cpp_plugin\"] \x7d")

def noWellKnownTypesText : Text := lit "no well-known .proto files in the protobuf package"

/-- The loop of `well_known_types_dir`. -/
def firstWithDescriptor (h : Host) (base : Text) : Listing Text → Except Fault Text
  | .done => .ok []
  | .fault => .error .filesystemError
  | .entry name rest =>
      if h.fileExists (append (append base name)
          (lit "src/google/protobuf/descriptor.proto")) then
        .ok (genericString (append (append base name) (lit "src")))
      else firstWithDescriptor h base rest

def wellKnownTypesDir (h : Host) : Except Fault Text :=
  match h.directoryIterator (h.depDir (lit "protobuf")) with
  | none => .ok []
  | some listing => firstWithDescriptor h (h.depDir (lit "protobuf")) listing

def protoPath (root name : Text) : Text := root ++ lit "/proto/" ++ name ++ lit ".proto"

def gen (root out protoc plugin wkt : Text) (kProtos : List Text) (name : Text) : Action :=
  let base := out ++ lit "/" ++ name
  { id := lit "protoc:" ++ name
    role := lit "source"
    description := lit "protoc:" ++ name
    command := [protoc, lit "-I" ++ root ++ lit "/proto", lit "-I" ++ wkt,
      lit "--cpp_out=" ++ out, lit "--grpc_out=" ++ out,
      lit "--plugin=protoc-gen-grpc=" ++ plugin, protoPath root name]
    inputs := kProtos.map (protoPath root)
    outputs := [base ++ lit ".pb.cc", base ++ lit ".pb.h", base ++ lit ".grpc.pb.cc",
      base ++ lit ".grpc.pb.h"] }

def main (h : Host) (kProtos : List Text) : Build h Nat := do
  let protoc := (h.depBin (lit "protobuf") (lit "protoc")).getD []
  let plugin := (h.depBin (lit "grpc-plugin") (lit "grpc_cpp_plugin")).getD []
  if protoc.isEmpty || plugin.isEmpty then
    println missingToolText
    return 1
  let wkt ← liftExcept (wellKnownTypesDir h)
  if wkt.isEmpty then
    println noWellKnownTypesText
    return 1
  for name in kProtos do
    direct (.action (gen h.manifestDir h.outDir protoc plugin wkt kProtos name))
  direct (.includeDir h.outDir)
  return 0

end GrpcM.Helloworld
