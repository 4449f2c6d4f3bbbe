import GrpcM.Grpcgen.PlanEntries
import GrpcM.Protoc
import GrpcM.Suffixes

/-!
A planned edge as the others see it. protoc takes the command apart into a
search path and a source file; the build tool sees the outputs, which are the
entry's name with each of the generators' suffixes.
-/

namespace GrpcM.Grpcgen

open GrpcM.Path GrpcM.Protoc GrpcM.Suffixes

variable {h : Host} {opt : Options}

/-! ### The command -/

@[simp] theorem getLast?_planEdge (protos : List Entry) (protoc wkt : Text) (ent : Entry) :
    (planEdge h opt protos protoc wkt ent).command.getLast? = some ent.source := by
  exact List.getLast?_concat

@[simp] theorem sourceFile_planEdge (protos : List Entry) (protoc wkt : Text) (ent : Entry) :
    sourceFile (planEdge h opt protos protoc wkt ent).command = ent.source :=
  sourceFile_concat _ _

def searchRoots (h : Host) (opt : Options) (wkt : Text) : List Text :=
  includeRoots h opt wkt ++ includeFlags opt.protocArgs

theorem searchPath_planEdge (protos : List Entry) (protoc wkt : Text) (ent : Entry) :
    searchPath (planEdge h opt protos protoc wkt ent).command = searchRoots h opt wkt := by
  have hcpp : includeFlags [lit "--cpp_out=" ++ h.outDir] = [] := by
    apply includeFlags_eq_nil
    intro a ha
    rw [List.mem_singleton.mp ha]
    exact ⟨lit "cpp_out=" ++ h.outDir, rfl⟩
  have hplugins : includeFlags ((resolvePlugins h opt).flatMap fun p =>
      [pluginOut h.outDir p, pluginBinary p]) = [] := by
    apply includeFlags_eq_nil
    intro a ha
    obtain ⟨p, -, ha⟩ := List.mem_flatMap.mp ha
    rcases List.mem_pair.mp ha with rfl | rfl
    · simp only [pluginOut, List.append_assoc]
      exact List.prefix_append _ _
    · exact ⟨lit "plugin=protoc-gen-" ++ p.name ++ '=' :: p.binary, rfl⟩
  show searchPath (edgeCommand h opt protoc wkt ent) = _
  have hcommand : edgeCommand h opt protoc wkt ent = protoc ::
      ((includeRoots h opt wkt).map (lit "-I" ++ ·) ++ [lit "--cpp_out=" ++ h.outDir] ++
        ((resolvePlugins h opt).flatMap fun p => [pluginOut h.outDir p, pluginBinary p]) ++
        opt.protocArgs) ++ [ent.source] := by
    simp only [edgeCommand, List.append_assoc, List.cons_append, List.nil_append]
  rw [hcommand, searchPath_eq]
  -- of the fixed arguments only the include roots name directories
  simp only [includeFlags_append, includeFlags_map, hcpp, hplugins, List.append_nil]
  rfl

/-! ### The outputs -/

def generatorSuffixes (h : Host) (opt : Options) : List Text :=
  [lit ".pb.cc", lit ".pb.h"] ++ (resolvePlugins h opt).flatMap (·.suffixes)

theorem edgeOutputs_eq (n : Text) :
    edgeOutputs h opt n = (generatorSuffixes h opt).map (outputBase h n ++ ·) := by
  simp [edgeOutputs, generatorSuffixes, List.map_flatMap]

/-- The rule declares for a name what protoc writes for it. -/
theorem writtenFiles_eq_edgeOutputs (n : Text) :
    writtenFiles h.outDir (generatorSuffixes h opt) (n ++ protoExtension) =
      edgeOutputs h opt n := by
  rw [edgeOutputs_eq, writtenFiles, protoExtension, stripProto_append]
  simp [outputBase]

theorem outputBase_injective (h : Host) : Function.Injective (outputBase h) := by
  intro n m heq
  have hcons := List.append_cancel_left heq
  injection hcons

theorem outputs_planEdge (protos : List Entry) (protoc wkt : Text) (ents : List Entry) :
    (ents.map (planEdge h opt protos protoc wkt)).flatMap (·.outputs) =
      (combine (ents.map (·.name)) (generatorSuffixes h opt)).map (outputBase h ·) := by
  rw [List.flatMap_map, combine, List.flatMap_map, List.map_flatMap]
  refine List.flatMap_congr fun ent _ => ?_
  show edgeOutputs h opt ent.name = _
  rw [edgeOutputs_eq, List.map_map]
  refine List.map_congr_left fun suffix _ => ?_
  simp [outputBase]

/-- What the built-in generators append to the stem of a `.proto`. -/
def builtinSuffixes (grpc mock : Bool) : List Text :=
  [lit ".pb.cc", lit ".pb.h"] ++
    if grpc then [lit ".grpc.pb.cc", lit ".grpc.pb.h"] ++
      (if mock then [lit "_mock.grpc.pb.h"] else [])
    else []

theorem generatorSuffixes_of_builtin (hplugins : opt.plugins = []) :
    generatorSuffixes h opt = builtinSuffixes opt.grpc opt.mock := by
  rw [generatorSuffixes, builtinSuffixes, resolvePlugins, hplugins]
  cases opt.grpc with
  | false => rfl
  | true => cases opt.mock <;> rfl

end GrpcM.Grpcgen
