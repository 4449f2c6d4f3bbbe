import GrpcM.Plugin.Generator.HeaderService
import GrpcM.Plugin.Generator.MockService
import GrpcM.Plugin.Generator.SourceService
import GrpcM.Plugin.Generator.Identifier

/-!
The parts of the generated files. Each `Get` function of the generator makes a printer and
gives back the text that was printed; `PrintIncludes` has variables of its own, so a part
is a list of programs that run in turn.
-/

namespace GrpcM.Plugin

open GrpcM.Path GrpcM.Templates
open Var hiding filenameIdentifier

abbrev Part := List Program

/-! ### Includes -/

def searchDirectory (searchPath : Text) : Text :=
  if searchPath.isEmpty then []
  else if searchPath.getLast? = some '/' then searchPath
  else searchPath ++ ['/']

def printIncludes (headers : List Text) (useSystemHeaders : Bool) (searchPath : Text) :
    Program :=
  ([.set l ((if useSystemHeaders then '<' else '"') :: searchDirectory searchPath),
    .set r [if useSystemHeaders then '>' else '"']] : Program) ++
  headers.flatMap fun header => [.set h header, .print ["#include ", l, h, r, "\n"]]

def messageHeaderExtOf (params : Parameters) : Text :=
  if params.messageHeaderExtension.isEmpty then lit ".pb.h" else params.messageHeaderExtension

def serviceHeaderExtOf : Text := lit ".grpc.pb.h"

/-- `substr(0, size - 6)`: all of a name that is shorter. -/
def importInludeFromProtoName (protoName : Text) : Text :=
  lit "#include \"" ++
    (if protoName.length < 6 then protoName else protoName.take (protoName.length - 6)) ++
    lit "$message_header_ext$\"\n"

def printImports (file : File) (params : Parameters) : Program :=
  when params.includeImportHeaders
    ((File.getImportNames file).flatMap
      (fun importName => printTemplate (importInludeFromProtoName importName)) ++
    ([.printRaw ['\n']] : Program))

/-! ### Namespaces -/

def openNamespaces (file : File) : Program :=
  (File.packageParts file).flatMap fun p => [.set part p, .print ["namespace ", part, " \x7b\n"]]

def closeNamespaces (file : File) : Program :=
  (File.packageParts file).reverse.flatMap fun p =>
    [.set part p, .print ["\x7d  // namespace ", part, "\n"]]

/-! ### The header -/

def getHeaderPrologue (file : File) (params : Parameters) : Part :=
  [([.set filename file.name,
     .set .filenameIdentifier (filenameIdentifier file.name),
     .set filenameBase (File.filenameWithoutExt file),
     .set messageHeaderExt (messageHeaderExtOf params),
     .print ["// Generated by the gRPC C++ plugin.\n"],
     .print ["// If you make any local change, they will be lost.\n"],
     .print ["// source: ", filename, "\n"]] : Program) ++
   when (!(File.getLeadingComments file slashes).isEmpty)
    ([.print ["// Original file comments:\n"],
      .printRaw (File.getLeadingComments file slashes)] : Program) ++
   ([.print ["#ifndef GRPC_", Var.filenameIdentifier, "__INCLUDED\n"],
     .print ["#define GRPC_", Var.filenameIdentifier, "__INCLUDED\n"],
     .print ["\n"],
     .print ["#include \"", filenameBase, messageHeaderExt, "\"\n"]] : Program) ++
   printTemplate (File.additionalHeaders file) ++
   ([.print ["\n"]] : Program)]

def headerHeaders : List Text :=
  [lit "functional",
    lit "grpcpp/generic/async_generic_service.h",
    lit "grpcpp/support/async_stream.h",
    lit "grpcpp/support/async_unary_call.h",
    lit "grpcpp/support/client_callback.h",
    lit "grpcpp/client_context.h",
    lit "grpcpp/completion_queue.h",
    lit "grpcpp/support/message_allocator.h",
    lit "grpcpp/support/method_handler.h",
    lit "grpcpp/impl/proto_utils.h",
    lit "grpcpp/impl/rpc_method.h",
    lit "grpcpp/support/server_callback.h",
    lit "grpcpp/impl/server_callback_handlers.h",
    lit "grpcpp/server_context.h",
    lit "grpcpp/impl/service_type.h",
    lit "grpcpp/support/status.h",
    lit "grpcpp/support/stub_options.h",
    lit "grpcpp/support/sync_stream.h",
    -- must be included at last
    lit "grpcpp/ports_def.inc"]

def getHeaderIncludes (file : File) (params : Parameters) : Part :=
  [when (!params.additionalHeaderIncludes.isEmpty)
    (printIncludes params.additionalHeaderIncludes false []),
   printIncludes headerHeaders params.useSystemHeaders params.grpcSearchPath,
   ([.print ["\n"],
     .set messageHeaderExt (messageHeaderExtOf params)] : Program) ++
   printImports file params ++
   when (!(File.package file).isEmpty) (openNamespaces file ++ [.print ["\n"]])]

def qualifier (file : File) : Text :=
  if (File.package file).isEmpty then [] else File.package file ++ ['.']

def getHeaderServices (file : File) (params : Parameters) : Part :=
  [.set package (qualifier file) ::
   (when (!params.servicesNamespace.isEmpty)
      ([.set servicesNamespace params.servicesNamespace,
        .print ["\nnamespace ", servicesNamespace, " \x7b\n\n"]] : Program) ++
    file.content.services.flatMap
      (fun s => printHeaderService s params ++ [.print ["\n"]]) ++
    when (!params.servicesNamespace.isEmpty)
      [.print ["\x7d  // namespace ", servicesNamespace, "\n\n"]])]

def getHeaderEpilogue (file : File) (_params : Parameters) : Part :=
  [([.set filename file.name,
     .set .filenameIdentifier (filenameIdentifier file.name)] : Program) ++
   when (!(File.package file).isEmpty) (closeNamespaces file ++ [.print ["\n"]]) ++
   ([.print ["\n"],
     .print ["#include <grpcpp/ports_undef.inc>\n"],
     .print ["#endif  // GRPC_", Var.filenameIdentifier, "__INCLUDED\n"]] : Program) ++
   printText (File.getTrailingComments file slashes)]

/-! ### The source file -/

def getSourcePrologue (file : File) (params : Parameters) : Part :=
  [[.set filename file.name,
    .set filenameBase (File.filenameWithoutExt file),
    .set messageHeaderExt (messageHeaderExtOf params),
    .set serviceHeaderExt serviceHeaderExtOf,
    .print ["// Generated by the gRPC C++ plugin.\n"],
    .print ["// If you make any local change, they will be lost.\n"],
    .print ["// source: ", filename, "\n\n"],
    .print ["#include \"", filenameBase, messageHeaderExt, "\"\n"],
    .print ["#include \"", filenameBase, serviceHeaderExt, "\"\n"],
    .print ["\n"]]]

def sourceHeaders : List Text :=
  [lit "functional",
    lit "grpcpp/support/async_stream.h",
    lit "grpcpp/support/async_unary_call.h",
    lit "grpcpp/impl/channel_interface.h",
    lit "grpcpp/impl/client_unary_call.h",
    lit "grpcpp/support/client_callback.h",
    lit "grpcpp/support/message_allocator.h",
    lit "grpcpp/support/method_handler.h",
    lit "grpcpp/impl/rpc_service_method.h",
    lit "grpcpp/support/server_callback.h",
    lit "grpcpp/impl/server_callback_handlers.h",
    lit "grpcpp/server_context.h",
    lit "grpcpp/impl/service_type.h",
    lit "grpcpp/support/sync_stream.h",
    -- must be included as last
    lit "grpcpp/ports_def.inc"]

def getSourceIncludes (file : File) (params : Parameters) : Part :=
  [printIncludes sourceHeaders params.useSystemHeaders params.grpcSearchPath,
   when (!(File.package file).isEmpty) (openNamespaces file) ++ [.print ["\n"]]]

def namespaceQualifier (params : Parameters) : Text :=
  if params.servicesNamespace.isEmpty then [] else params.servicesNamespace ++ [':', ':']

def getSourceServices (file : File) (params : Parameters) : Part :=
  [.set package (qualifier file) ::
   .set ns (namespaceQualifier params) ::
   .set servicePrefix params.servicesNamespace ::
   file.content.services.flatMap (fun s => printSourceService s params ++ [.print ["\n"]])]

/-- Made without a printer. -/
def getSourceEpilogue (file : File) (_params : Parameters) : Text :=
  if (File.package file).isEmpty then []
  else
    (File.packageParts file).flatMap
      (fun p => lit "\x7d  // namespace " ++ p ++ ['\n']) ++
    lit "#include <grpcpp/ports_undef.inc>\n" ++ ['\n']

/-! ### The mock header -/

def getMockPrologue (file : File) (params : Parameters) : Part :=
  [([.set filename file.name,
     .set .filenameIdentifier (filenameIdentifier file.name),
     .set filenameBase (File.filenameWithoutExt file),
     .set messageHeaderExt (messageHeaderExtOf params),
     .set serviceHeaderExt serviceHeaderExtOf,
     .print ["// Generated by the gRPC C++ plugin.\n"],
     .print ["// If you make any local change, they will be lost.\n"],
     .print ["// source: ", filename, "\n\n"],
     .print ["#ifndef GRPC_MOCK_", Var.filenameIdentifier, "__INCLUDED\n"],
     .print ["#define GRPC_MOCK_", Var.filenameIdentifier, "__INCLUDED\n"],
     .print ["\n"],
     .print ["#include \"", filenameBase, messageHeaderExt, "\"\n"],
     .print ["#include \"", filenameBase, serviceHeaderExt, "\"\n"]] : Program) ++
   printImports file params ++
   printTemplate (File.additionalHeaders file) ++
   ([.print ["\n"]] : Program)]

def mockHeaders : List Text :=
  [lit "grpcpp/support/async_stream.h", lit "grpcpp/support/sync_stream.h"]

def getMockIncludes (file : File) (params : Parameters) : Part :=
  [printIncludes mockHeaders params.useSystemHeaders params.grpcSearchPath,
   -- local includes when there is a search path for gmock
   if params.gmockSearchPath.isEmpty then
     printIncludes [lit "gmock/gmock.h"] params.useSystemHeaders params.grpcSearchPath
   else printIncludes [lit "gmock.h"] false params.gmockSearchPath,
   when (!(File.package file).isEmpty) (openNamespaces file) ++ [.print ["\n"]]]

def getMockServices (file : File) (params : Parameters) : Part :=
  [.set package (qualifier file) ::
   (when (!params.servicesNamespace.isEmpty)
      ([.set servicesNamespace params.servicesNamespace,
        .print ["\nnamespace ", servicesNamespace, " \x7b\n\n"]] : Program) ++
    file.content.services.flatMap
      (fun s => printMockService s params ++ [.print ["\n"]]) ++
    when (!params.servicesNamespace.isEmpty)
      [.print ["\x7d // namespace ", servicesNamespace, "\n\n"]])]

def getMockEpilogue (file : File) (_params : Parameters) : Part :=
  [.set .filenameIdentifier (filenameIdentifier file.name) ::
   (when (!(File.package file).isEmpty) (closeNamespaces file ++ [.print ["\n"]]) ++
    ([.print ["\n"],
      .print ["#endif  // GRPC_MOCK_", Var.filenameIdentifier, "__INCLUDED\n"]] : Program))]

end GrpcM.Plugin
