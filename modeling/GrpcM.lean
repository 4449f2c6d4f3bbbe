import GrpcM.Grpcgen.Enumeration
import GrpcM.Grpcgen.ExplicitList
import GrpcM.Grpcgen.Staleness
import GrpcM.Grpcgen.UniqueOutputs
import GrpcM.Grpcgen.SourceName
import GrpcM.Grpcgen.HeaderClosure
import GrpcM.Grpcgen.PluginArguments
import GrpcM.Grpcgen.SubmitSpec
import GrpcM.Grpcgen.LongForm
import GrpcM.Grpcgen.StubFiles
import GrpcM.Grpcgen.Description
import GrpcM.GenSources.Regenerate
import GrpcM.GenSources.CMake
import GrpcM.GenSources.CheckSound
import GrpcM.Plugin.Generator.Complete
import GrpcM.Plugin.Generator.Output
import GrpcM.Plugin.Generator.Signatures
import GrpcM.Plugin.Generator.Linkage
import GrpcM.Plugin.Generator.ServerClasses
import GrpcM.Plugin.Generator.SynchronousVersions
import GrpcM.Hpack.WireSpec
import GrpcM.Hpack.TableBounds
