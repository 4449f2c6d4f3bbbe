import GrpcM.Plugin.Generator.Program

/-!
The server side of a service in the header: the base class `Service`, and for each method
the class templates that replace its synchronous version. Such a template names its method
to the base class by the index `Idx`.
-/

namespace GrpcM.Plugin

open GrpcM.Path GrpcM.Templates
open Var hiding filenameIdentifier

/-- The text that closes the version of a method that a class template replaces; it stands
in the source once for each template. -/
def disabledMethod (version : String) (m : Method) : Program :=
  if m.noStreaming then
    [.print ["// disable ", version, " version of this method\n::grpc::Status ", method,
            "(::grpc::ServerContext* /*context*/, const ", request, "* /*request*/, ", response,
            "* /*response*/) override \x7b\n",
            "  abort();\n  return ::grpc::Status(::grpc::StatusCode::UNIMPLEMENTED, \"\");\n",
            "\x7d\n"]]
  else if m.clientOnlyStreaming then
    [.print ["// disable ", version, " version of this method\n::grpc::Status ", method,
            "(::grpc::ServerContext* /*context*/, ::grpc::ServerReader< ", request,
            ">* /*reader*/, ", response, "* /*response*/) override \x7b\n",
            "  abort();\n  return ::grpc::Status(::grpc::StatusCode::UNIMPLEMENTED, \"\");\n",
            "\x7d\n"]]
  else if m.serverOnlyStreaming then
    [.print ["// disable ", version, " version of this method\n::grpc::Status ", method,
            "(::grpc::ServerContext* /*context*/, const ", request,
            "* /*request*/, ::grpc::ServerWriter< ", response, ">* /*writer*/) override \x7b\n",
            "  abort();\n  return ::grpc::Status(::grpc::StatusCode::UNIMPLEMENTED, \"\");\n",
            "\x7d\n"]]
  else if m.bidiStreaming then
    [.print ["// disable ", version, " version of this method\n::grpc::Status ", method,
            "(::grpc::ServerContext* /*context*/, ::grpc::ServerReaderWriter< ", response, ", ",
            request, ">* /*stream*/)  override \x7b\n",
            "  abort();\n  return ::grpc::Status(::grpc::StatusCode::UNIMPLEMENTED, \"\");\n",
            "\x7d\n"]]
  else []

/-- The declaration in the base class `Service`, without its comments. -/
def serverMethodSync (m : Method) (params : Parameters) : Program :=
  when params.allowSyncServerApi ([.print ["virtual "]] : Program) ++
  (if m.noStreaming then
    [.print ["::grpc::Status ", method, "(::grpc::ServerContext* context, const ", request,
            "* request, ", response, "* response);\n"]]
  else if m.clientOnlyStreaming then
    [.print ["::grpc::Status ", method, "(::grpc::ServerContext* context, ::grpc::ServerReader< ",
            request, ">* reader, ", response, "* response);\n"]]
  else if m.serverOnlyStreaming then
    [.print ["::grpc::Status ", method, "(::grpc::ServerContext* context, const ", request,
            "* request, ::grpc::ServerWriter< ", response, ">* writer);\n"]]
  else if m.bidiStreaming then
    [.print ["::grpc::Status ", method,
            "(::grpc::ServerContext* context, ::grpc::ServerReaderWriter< ", response, ", ",
            request, ">* stream);\n"]]
  else [])

def printHeaderServerMethodSync (m : Method) (params : Parameters) : Program :=
  ([.set method m.name, .set request m.inputTypeName, .set response m.outputTypeName] : Program) ++
  printText (m.getLeadingComments slashes) ++
  serverMethodSync m params ++
  printText (m.getTrailingComments slashes)

/-- The async API for `RealRequest` and `RealResponse`. -/
def printHeaderServerAsyncMethodsHelper (m : Method) (params : Parameters) : Program :=
  (if m.noStreaming then
    when params.allowSyncServerApi (disabledMethod "synchronous" m) ++
    ([.print ["void Request", method, "(::grpc::ServerContext* context, ", realRequest,
             "* request, ::grpc::ServerAsyncResponseWriter< ", realResponse,
             ">* response, ::grpc::CompletionQueue* new_call_cq, ",
             "::grpc::ServerCompletionQueue* notification_cq, void *tag) \x7b\n"],
      .print ["  ::grpc::Service::RequestAsyncUnary(", idx,
             ", context, request, response, new_call_cq, notification_cq, tag);\n"],
      .print ["\x7d\n"]] : Program)
  else if m.clientOnlyStreaming then
    when params.allowSyncServerApi (disabledMethod "synchronous" m) ++
    ([.print ["void Request", method,
             "(::grpc::ServerContext* context, ::grpc::ServerAsyncReader< ", realResponse, ", ",
             realRequest, ">* reader, ::grpc::CompletionQueue* new_call_cq, ",
             "::grpc::ServerCompletionQueue* notification_cq, void *tag) \x7b\n"],
      .print ["  ::grpc::Service::RequestAsyncClientStreaming(", idx,
             ", context, reader, new_call_cq, notification_cq, tag);\n"],
      .print ["\x7d\n"]] : Program)
  else if m.serverOnlyStreaming then
    when params.allowSyncServerApi (disabledMethod "synchronous" m) ++
    ([.print ["void Request", method, "(::grpc::ServerContext* context, ", realRequest,
             "* request, ::grpc::ServerAsyncWriter< ", realResponse,
             ">* writer, ::grpc::CompletionQueue* new_call_cq, ",
             "::grpc::ServerCompletionQueue* notification_cq, void *tag) \x7b\n"],
      .print ["  ::grpc::Service::RequestAsyncServerStreaming(", idx,
             ", context, request, writer, new_call_cq, notification_cq, tag);\n"],
      .print ["\x7d\n"]] : Program)
  else if m.bidiStreaming then
    when params.allowSyncServerApi (disabledMethod "synchronous" m) ++
    ([.print ["void Request", method,
             "(::grpc::ServerContext* context, ::grpc::ServerAsyncReaderWriter< ", realResponse,
             ", ", realRequest, ">* stream, ::grpc::CompletionQueue* new_call_cq, ",
             "::grpc::ServerCompletionQueue* notification_cq, void *tag) \x7b\n"],
      .print ["  ::grpc::Service::RequestAsyncBidiStreaming(", idx,
             ", context, stream, new_call_cq, notification_cq, tag);\n"],
      .print ["\x7d\n"]] : Program)
  else [])

def printHeaderServerMethodAsync (m : Method) (params : Parameters) : Program :=
  ([.set method m.name, .set request m.inputTypeName, .set response m.outputTypeName,
    .set realRequest m.inputTypeName, .set realResponse m.outputTypeName,
    .print ["template <class BaseClass>\n"],
    .print ["class WithAsyncMethod_", method, " : public BaseClass \x7b\n"],
    .print [" private:\n  void BaseClassMustBeDerivedFromService(const Service* ",
           "/*service*/) \x7b\x7d\n"],
    .print [" public:\n"],
    .indent,
    .print ["WithAsyncMethod_", method, "() \x7b\n  ::grpc::Service::MarkMethodAsync(", idx,
           ");\n\x7d\n"],
    .print ["~WithAsyncMethod_", method,
           "() override \x7b\n  BaseClassMustBeDerivedFromService(this);\n\x7d\n"]] : Program) ++
  printHeaderServerAsyncMethodsHelper m params ++
  ([.outdent,
    .print ["\x7d;\n"]] : Program)

/-- The callback API for `RealRequest` and `RealResponse`. -/
def printHeaderServerCallbackMethodsHelper (m : Method) (params : Parameters) : Program :=
  (if m.noStreaming then
    when params.allowSyncServerApi (disabledMethod "synchronous" m) ++
    ([.print ["virtual ::grpc::ServerUnaryReactor* ", method,
             "(\n  ::grpc::CallbackServerContext* /*context*/, const ", realRequest,
             "* /*request*/, ", realResponse,
             "* /*response*/)  \x7b return nullptr; \x7d\n"]] : Program)
  else if m.clientOnlyStreaming then
    when params.allowSyncServerApi (disabledMethod "synchronous" m) ++
    ([.print ["virtual ::grpc::ServerReadReactor< ", realRequest, ">* ", method,
             "(\n  ::grpc::CallbackServerContext* /*context*/, ", realResponse,
             "* /*response*/)  \x7b return nullptr; \x7d\n"]] : Program)
  else if m.serverOnlyStreaming then
    when params.allowSyncServerApi (disabledMethod "synchronous" m) ++
    ([.print ["virtual ::grpc::ServerWriteReactor< ", realResponse, ">* ", method,
             "(\n  ::grpc::CallbackServerContext* /*context*/, const ", realRequest,
             "* /*request*/)  \x7b return nullptr; \x7d\n"]] : Program)
  else if m.bidiStreaming then
    when params.allowSyncServerApi (disabledMethod "synchronous" m) ++
    ([.print ["virtual ::grpc::ServerBidiReactor< ", realRequest, ", ", realResponse, ">* ", method,
             "(\n  ::grpc::CallbackServerContext* /*context*/)\n",
             "  \x7b return nullptr; \x7d\n"]] : Program)
  else [])

def printHeaderServerMethodCallback (m : Method) (params : Parameters) : Program :=
  ([.set method m.name, .set request m.inputTypeName, .set response m.outputTypeName,
    .set realRequest m.inputTypeName, .set realResponse m.outputTypeName,
    .print ["template <class BaseClass>\n"],
    .print ["class WithCallbackMethod_", method, " : public BaseClass \x7b\n"],
    .print [" private:\n  void BaseClassMustBeDerivedFromService(const Service* ",
           "/*service*/) \x7b\x7d\n"],
    .print [" public:\n"],
    .indent,
    .print ["WithCallbackMethod_", method, "() \x7b\n"]] : Program) ++
  (if m.noStreaming then
    [.print ["  ::grpc::Service::MarkMethodCallback(", idx,
            ",\n      new ::grpc::internal::CallbackUnaryHandler< ", realRequest, ", ",
            realResponse, ">(\n        [this](\n",
            "               ::grpc::CallbackServerContext* context, const ", realRequest,
            "* request, ", realResponse, "* response) \x7b return this->", method,
            "(context, request, response); \x7d));\x7d\n"],
     .print ["void SetMessageAllocatorFor_", method, "(\n    ::grpc::MessageAllocator< ",
            realRequest, ", ", realResponse, ">* allocator) \x7b\n",
            "  ::grpc::internal::MethodHandler* const handler = ", "::grpc::Service::GetHandler(",
            idx, ");\n  static_cast<::grpc::internal::CallbackUnaryHandler< ", realRequest, ", ",
            realResponse, ">*>(handler)\n          ->SetMessageAllocator(allocator);\n"]]
  else if m.clientOnlyStreaming then
    [.print ["  ::grpc::Service::MarkMethodCallback(", idx,
            ",\n      new ::grpc::internal::CallbackClientStreamingHandler< ", realRequest, ", ",
            realResponse,
            ">(\n        [this](\n               ::grpc::CallbackServerContext* context, ",
            realResponse, "* response) \x7b return this->", method,
            "(context, response); \x7d));\n"]]
  else if m.serverOnlyStreaming then
    [.print ["  ::grpc::Service::MarkMethodCallback(", idx,
            ",\n      new ::grpc::internal::CallbackServerStreamingHandler< ", realRequest, ", ",
            realResponse, ">(\n        [this](\n",
            "               ::grpc::CallbackServerContext* context, const ", realRequest,
            "* request) \x7b return this->", method, "(context, request); \x7d));\n"]]
  else if m.bidiStreaming then
    [.print ["  ::grpc::Service::MarkMethodCallback(", idx,
            ",\n      new ::grpc::internal::CallbackBidiHandler< ", realRequest, ", ",
            realResponse, ">(\n        [this](\n",
            "               ::grpc::CallbackServerContext* context) \x7b return this->", method,
            "(context); \x7d));\n"]]
  else []) ++
  ([.print ["\x7d\n"],
    .print ["~WithCallbackMethod_", method,
           "() override \x7b\n  BaseClassMustBeDerivedFromService(this);\n\x7d\n"]] : Program) ++
  printHeaderServerCallbackMethodsHelper m params ++
  ([.outdent,
    .print ["\x7d;\n"]] : Program)

def printHeaderServerMethodRawCallback (m : Method) (params : Parameters) : Program :=
  ([.set method m.name, .set request m.inputTypeName, .set response m.outputTypeName,
    .set realRequest (lit "::grpc::ByteBuffer"), .set realResponse (lit "::grpc::ByteBuffer"),
    .print ["template <class BaseClass>\n"],
    .print ["class WithRawCallbackMethod_", method, " : public BaseClass \x7b\n"],
    .print [" private:\n  void BaseClassMustBeDerivedFromService(const Service* ",
           "/*service*/) \x7b\x7d\n"],
    .print [" public:\n"],
    .indent,
    .print ["WithRawCallbackMethod_", method, "() \x7b\n"]] : Program) ++
  (if m.noStreaming then
    [.print ["  ::grpc::Service::MarkMethodRawCallback(", idx,
            ",\n      new ::grpc::internal::CallbackUnaryHandler< ", realRequest, ", ",
            realResponse, ">(\n        [this](\n",
            "               ::grpc::CallbackServerContext* context, const ", realRequest,
            "* request, ", realResponse, "* response) \x7b return this->", method,
            "(context, request, response); \x7d));\n"]]
  else if m.clientOnlyStreaming then
    [.print ["  ::grpc::Service::MarkMethodRawCallback(", idx,
            ",\n      new ::grpc::internal::CallbackClientStreamingHandler< ", realRequest, ", ",
            realResponse,
            ">(\n        [this](\n               ::grpc::CallbackServerContext* context, ",
            realResponse, "* response) \x7b return this->", method,
            "(context, response); \x7d));\n"]]
  else if m.serverOnlyStreaming then
    [.print ["  ::grpc::Service::MarkMethodRawCallback(", idx,
            ",\n      new ::grpc::internal::CallbackServerStreamingHandler< ", realRequest, ", ",
            realResponse, ">(\n        [this](\n",
            "               ::grpc::CallbackServerContext* context, const", realRequest,
            "* request) \x7b return this->", method, "(context, request); \x7d));\n"]]
  else if m.bidiStreaming then
    [.print ["  ::grpc::Service::MarkMethodRawCallback(", idx,
            ",\n      new ::grpc::internal::CallbackBidiHandler< ", realRequest, ", ",
            realResponse, ">(\n        [this](\n",
            "               ::grpc::CallbackServerContext* context) \x7b return this->", method,
            "(context); \x7d));\n"]]
  else []) ++
  ([.print ["\x7d\n"],
    .print ["~WithRawCallbackMethod_", method,
           "() override \x7b\n  BaseClassMustBeDerivedFromService(this);\n\x7d\n"]] : Program) ++
  printHeaderServerCallbackMethodsHelper m params ++
  ([.outdent,
    .print ["\x7d;\n"]] : Program)

def printHeaderServerMethodStreamedUnary (m : Method) : Program :=
  ([.set method m.name, .set request m.inputTypeName, .set response m.outputTypeName] : Program) ++
  when m.noStreaming
    (([.print ["template <class BaseClass>\n"],
       .print ["class WithStreamedUnaryMethod_", method, " : public BaseClass \x7b\n"],
       .print [" private:\n  void BaseClassMustBeDerivedFromService(const Service* ",
              "/*service*/) \x7b\x7d\n"],
       .print [" public:\n"],
       .indent,
       .print ["WithStreamedUnaryMethod_", method,
              "() \x7b\n  ::grpc::Service::MarkMethodStreamed(", idx,
              ",\n    new ::grpc::internal::StreamedUnaryHandler<\n      ", request, ", ",
              response, ">(\n        [this](::grpc::ServerContext* context,\n",
              "               ::grpc::ServerUnaryStreamer<\n                 ", request, ", ",
              response, ">* streamer) \x7b\n                   return this->Streamed", method,
              "(context,\n                     streamer);\n              \x7d));\n\x7d\n"],
       .print ["~WithStreamedUnaryMethod_", method,
              "() override \x7b\n  BaseClassMustBeDerivedFromService(this);\n\x7d\n"]] : Program) ++
     disabledMethod "regular" m ++
     ([.print ["// replace default version of method with streamed unary\n",
              "virtual ::grpc::Status Streamed", method,
              "(::grpc::ServerContext* context, ::grpc::ServerUnaryStreamer< ", request, ",",
              response, ">* server_unary_streamer) = 0;\n"],
       .outdent,
       .print ["\x7d;\n"]] : Program))

def printHeaderServerMethodSplitStreaming (m : Method) : Program :=
  ([.set method m.name, .set request m.inputTypeName, .set response m.outputTypeName] : Program) ++
  when m.serverOnlyStreaming
    (([.print ["template <class BaseClass>\n"],
       .print ["class WithSplitStreamingMethod_", method, " : public BaseClass \x7b\n"],
       .print [" private:\n  void BaseClassMustBeDerivedFromService(const Service* ",
              "/*service*/) \x7b\x7d\n"],
       .print [" public:\n"],
       .indent,
       .print ["WithSplitStreamingMethod_", method,
              "() \x7b\n  ::grpc::Service::MarkMethodStreamed(", idx,
              ",\n    new ::grpc::internal::SplitServerStreamingHandler<\n      ", request, ", ",
              response, ">(\n        [this](::grpc::ServerContext* context,\n",
              "               ::grpc::ServerSplitStreamer<\n                 ", request, ", ",
              response, ">* streamer) \x7b\n                   return this->Streamed", method,
              "(context,\n                     streamer);\n              \x7d));\n\x7d\n"],
       .print ["~WithSplitStreamingMethod_", method,
              "() override \x7b\n  BaseClassMustBeDerivedFromService(this);\n\x7d\n"]] : Program) ++
     disabledMethod "regular" m ++
     ([.print ["// replace default version of method with split streamed\n",
              "virtual ::grpc::Status Streamed", method,
              "(::grpc::ServerContext* context, ::grpc::ServerSplitStreamer< ", request, ",",
              response, ">* server_split_streamer) = 0;\n"],
       .outdent,
       .print ["\x7d;\n"]] : Program))

def printHeaderServerMethodGeneric (m : Method) (params : Parameters) : Program :=
  ([.set method m.name, .set request m.inputTypeName, .set response m.outputTypeName,
    .print ["template <class BaseClass>\n"],
    .print ["class WithGenericMethod_", method, " : public BaseClass \x7b\n"],
    .print [" private:\n  void BaseClassMustBeDerivedFromService(const Service* ",
           "/*service*/) \x7b\x7d\n"],
    .print [" public:\n"],
    .indent,
    .print ["WithGenericMethod_", method, "() \x7b\n  ::grpc::Service::MarkMethodGeneric(", idx,
           ");\n\x7d\n"],
    .print ["~WithGenericMethod_", method,
           "() override \x7b\n  BaseClassMustBeDerivedFromService(this);\n\x7d\n"]] : Program) ++
  when params.allowSyncServerApi (disabledMethod "synchronous" m) ++
  ([.outdent,
    .print ["\x7d;\n"]] : Program)

def printHeaderServerMethodRaw (m : Method) (params : Parameters) : Program :=
  ([.set method m.name, .set request m.inputTypeName, .set response m.outputTypeName,
    .set realRequest (lit "::grpc::ByteBuffer"), .set realResponse (lit "::grpc::ByteBuffer"),
    .print ["template <class BaseClass>\n"],
    .print ["class WithRawMethod_", method, " : public BaseClass \x7b\n"],
    .print [" private:\n  void BaseClassMustBeDerivedFromService(const Service* ",
           "/*service*/) \x7b\x7d\n"],
    .print [" public:\n"],
    .indent,
    .print ["WithRawMethod_", method, "() \x7b\n  ::grpc::Service::MarkMethodRaw(", idx,
           ");\n\x7d\n"],
    .print ["~WithRawMethod_", method,
           "() override \x7b\n  BaseClassMustBeDerivedFromService(this);\n\x7d\n"]] : Program) ++
  printHeaderServerAsyncMethodsHelper m params ++
  ([.outdent,
    .print ["\x7d;\n"]] : Program)

/-! ### Every method reads its own variables and its own index -/

section Closed

variable {packageName serviceName : Text} {outer : Option Text} {i : ℕ} (m : Method)
  (params : Parameters)

/-- What a method sets in the environment of its service. -/
def synchronousEnv (packageName serviceName : Text) (outer : Option Text) (m : Method) : Env Var :=
  Function.update (Function.update (Function.update (serviceEnv packageName outer serviceName)
    method (some m.name)) request (some m.inputTypeName)) response (some m.outputTypeName)

theorem closed_serverMethodSync :
    Closed (synchronousEnv packageName serviceName outer m) (serverMethodSync m params) := by
  obtain ⟨name, input, output, client, server, location⟩ := m
  obtain ⟨_, _, _, _, _, _, _, _, sync, _, _⟩ := params
  cases client <;> cases server <;> cases sync <;> exact .of_run (fun _ => ⟨_, _, rfl⟩) rfl

theorem closed_printHeaderServerMethodSync :
    Closed (serviceEnv packageName outer serviceName) (printHeaderServerMethodSync m params) := by
  have hbody : Closed (synchronousEnv packageName serviceName outer m)
      (printText (m.getLeadingComments slashes) ++ serverMethodSync m params ++
        printText (m.getTrailingComments slashes)) :=
    ((closed_comments _ _ _).append (closed_serverMethodSync m params)).append
      (closed_comments _ _ _)
  rw [printHeaderServerMethodSync, List.append_assoc, List.append_assoc, ← List.append_assoc
    (printText _)]
  exact .set rfl (.set rfl (.set rfl hbody))

theorem closed_printHeaderServerMethodAsync :
    Closed (methodEnv packageName outer serviceName i) (printHeaderServerMethodAsync m params) := by
  obtain ⟨name, input, output, client, server, location⟩ := m
  obtain ⟨_, _, _, _, _, _, _, _, sync, _, _⟩ := params
  cases client <;> cases server <;> cases sync <;> exact .of_run (fun _ => ⟨_, _, rfl⟩) rfl

theorem closed_printHeaderServerMethodCallback :
    Closed (methodEnv packageName outer serviceName i)
      (printHeaderServerMethodCallback m params) := by
  obtain ⟨name, input, output, client, server, location⟩ := m
  obtain ⟨_, _, _, _, _, _, _, _, sync, _, _⟩ := params
  cases client <;> cases server <;> cases sync <;> exact .of_run (fun _ => ⟨_, _, rfl⟩) rfl

theorem closed_printHeaderServerMethodRawCallback :
    Closed (methodEnv packageName outer serviceName i)
      (printHeaderServerMethodRawCallback m params) := by
  obtain ⟨name, input, output, client, server, location⟩ := m
  obtain ⟨_, _, _, _, _, _, _, _, sync, _, _⟩ := params
  cases client <;> cases server <;> cases sync <;> exact .of_run (fun _ => ⟨_, _, rfl⟩) rfl

theorem closed_printHeaderServerMethodStreamedUnary :
    Closed (methodEnv packageName outer serviceName i)
      (printHeaderServerMethodStreamedUnary m) := by
  obtain ⟨name, input, output, client, server, location⟩ := m
  cases client <;> cases server <;> exact .of_run (fun _ => ⟨_, _, rfl⟩) rfl

theorem closed_printHeaderServerMethodSplitStreaming :
    Closed (methodEnv packageName outer serviceName i)
      (printHeaderServerMethodSplitStreaming m) := by
  obtain ⟨name, input, output, client, server, location⟩ := m
  cases client <;> cases server <;> exact .of_run (fun _ => ⟨_, _, rfl⟩) rfl

theorem closed_printHeaderServerMethodGeneric :
    Closed (methodEnv packageName outer serviceName i)
      (printHeaderServerMethodGeneric m params) := by
  obtain ⟨name, input, output, client, server, location⟩ := m
  obtain ⟨_, _, _, _, _, _, _, _, sync, _, _⟩ := params
  cases client <;> cases server <;> cases sync <;> exact .of_run (fun _ => ⟨_, _, rfl⟩) rfl

theorem closed_printHeaderServerMethodRaw :
    Closed (methodEnv packageName outer serviceName i) (printHeaderServerMethodRaw m params) := by
  obtain ⟨name, input, output, client, server, location⟩ := m
  obtain ⟨_, _, _, _, _, _, _, _, sync, _, _⟩ := params
  cases client <;> cases server <;> cases sync <;> exact .of_run (fun _ => ⟨_, _, rfl⟩) rfl

end Closed

end GrpcM.Plugin
