import GrpcM.Plugin.Generator.Program

/-!
A service in the source file: the names of its methods, the stub, and the base class
`Service`, which adds one handler for each method. Stub and handlers take the name of a
method from one table, by its index.
-/

namespace GrpcM.Plugin

open GrpcM.Path GrpcM.Templates
open Var hiding filenameIdentifier

def sourceAsyncPrefixes : List AsyncPrefix :=
  [{ word := "Async", start := "true", methodParams := ", void* tag", createArgs := ", tag" },
    { word := "PrepareAsync", start := "false", methodParams := "", createArgs := ", nullptr" }]

def printSourceClientMethod (m : Method) (params : Parameters) : Program :=
  ([.set method m.name, .set request m.inputTypeName, .set response m.outputTypeName] : Program) ++
  (if m.noStreaming then
    ([.print ["::grpc::Status ", ns, service, "::Stub::", method,
             "(::grpc::ClientContext* context, const ", request, "& request, ", response,
             "* response) \x7b\n"],
      .print ["  return ::grpc::internal::BlockingUnaryCall< ", request, ", ", response,
             ", ::grpc::protobuf::MessageLite, ",
             "::grpc::protobuf::MessageLite>(channel_.get(), rpcmethod_", method,
             "_, context, request, response);\n\x7d\n\n"],
      .print ["void ", ns, service, "::Stub::async::", method,
             "(::grpc::ClientContext* context, const ", request, "* request, ", response,
             "* response, std::function<void(::grpc::Status)> f) \x7b\n"],
      .print ["  ::grpc::internal::CallbackUnaryCall< ", request, ", ", response,
             ", ::grpc::protobuf::MessageLite, ",
             "::grpc::protobuf::MessageLite>(stub_->channel_.get(), stub_->rpcmethod_", method,
             "_, context, request, response, std::move(f));\n\x7d\n\n"],
      .print ["void ", ns, service, "::Stub::async::", method,
             "(::grpc::ClientContext* context, const ", request, "* request, ", response,
             "* response, ::grpc::ClientUnaryReactor* reactor) \x7b\n"],
      .print ["  ::grpc::internal::ClientCallbackUnaryFactory::Create< ",
             "::grpc::protobuf::MessageLite, ",
             "::grpc::protobuf::MessageLite>(stub_->channel_.get(), stub_->rpcmethod_", method,
             "_, context, request, response, reactor);\n\x7d\n\n"]] : Program) ++
    when params.allowCqApi
      ([.print ["::grpc::ClientAsyncResponseReader< ", response, ">* ", ns, service,
               "::Stub::PrepareAsync", method, "Raw(::grpc::ClientContext* context, const ",
               request, "& request, ::grpc::CompletionQueue* cq) \x7b\n"],
        .print ["  return ::grpc::internal::ClientAsyncResponseReaderHelper::Create< ", response,
               ", ", request, ", ::grpc::protobuf::MessageLite, ",
               "::grpc::protobuf::MessageLite>(channel_.get(), cq, rpcmethod_", method,
               "_, context, request);\n\x7d\n\n"],
        .print ["::grpc::ClientAsyncResponseReader< ", response, ">* ", ns, service,
               "::Stub::Async", method, "Raw(::grpc::ClientContext* context, const ", request,
               "& request, ::grpc::CompletionQueue* cq) \x7b\n"],
        .print ["  auto* result =\n    this->PrepareAsync", method, "Raw(context, request, cq);\n",
               "  result->StartCall();\n  return result;\n\x7d\n\n"]])
  else if m.clientOnlyStreaming then
    ([.print ["::grpc::ClientWriter< ", request, ">* ", ns, service, "::Stub::", method,
             "Raw(::grpc::ClientContext* context, ", response, "* response) \x7b\n"],
      .print ["  return ::grpc::internal::ClientWriterFactory< ", request,
             ">::Create(channel_.get(), rpcmethod_", method, "_, context, response);\n\x7d\n\n"],
      .print ["void ", ns, service, "::Stub::async::", method, "(::grpc::ClientContext* context, ",
             response, "* response, ::grpc::ClientWriteReactor< ", request, ">* reactor) \x7b\n"],
      .print ["  ::grpc::internal::ClientCallbackWriterFactory< ", request,
             ">::Create(stub_->channel_.get(), stub_->rpcmethod_", method,
             "_, context, response, reactor);\n\x7d\n\n"]] : Program) ++
    when params.allowCqApi (sourceAsyncPrefixes.flatMap fun a =>
      [.set asyncPrefix (lit a.word), .set asyncStart (lit a.start),
       .set asyncMethodParams (lit a.methodParams), .set asyncCreateArgs (lit a.createArgs),
       .print ["::grpc::ClientAsyncWriter< ", request, ">* ", ns, service, "::Stub::", asyncPrefix,
              method, "Raw(::grpc::ClientContext* context, ", response,
              "* response, ::grpc::CompletionQueue* cq", asyncMethodParams, ") \x7b\n"],
       .print ["  return ::grpc::internal::ClientAsyncWriterFactory< ", request,
              ">::Create(channel_.get(), cq, rpcmethod_", method, "_, context, response, ",
              asyncStart, asyncCreateArgs, ");\n\x7d\n\n"]])
  else if m.serverOnlyStreaming then
    ([.print ["::grpc::ClientReader< ", response, ">* ", ns, service, "::Stub::", method,
             "Raw(::grpc::ClientContext* context, const ", request, "& request) \x7b\n"],
      .print ["  return ::grpc::internal::ClientReaderFactory< ", response,
             ">::Create(channel_.get(), rpcmethod_", method, "_, context, request);\n\x7d\n\n"],
      .print ["void ", ns, service, "::Stub::async::", method,
             "(::grpc::ClientContext* context, const ", request,
             "* request, ::grpc::ClientReadReactor< ", response, ">* reactor) \x7b\n"],
      .print ["  ::grpc::internal::ClientCallbackReaderFactory< ", response,
             ">::Create(stub_->channel_.get(), stub_->rpcmethod_", method,
             "_, context, request, reactor);\n\x7d\n\n"]] : Program) ++
    when params.allowCqApi (sourceAsyncPrefixes.flatMap fun a =>
      [.set asyncPrefix (lit a.word), .set asyncStart (lit a.start),
       .set asyncMethodParams (lit a.methodParams), .set asyncCreateArgs (lit a.createArgs),
       .print ["::grpc::ClientAsyncReader< ", response, ">* ", ns, service, "::Stub::", asyncPrefix,
              method, "Raw(::grpc::ClientContext* context, const ", request,
              "& request, ::grpc::CompletionQueue* cq", asyncMethodParams, ") \x7b\n"],
       .print ["  return ::grpc::internal::ClientAsyncReaderFactory< ", response,
              ">::Create(channel_.get(), cq, rpcmethod_", method, "_, context, request, ",
              asyncStart, asyncCreateArgs, ");\n\x7d\n\n"]])
  else if m.bidiStreaming then
    ([.print ["::grpc::ClientReaderWriter< ", request, ", ", response, ">* ", ns, service,
             "::Stub::", method, "Raw(::grpc::ClientContext* context) \x7b\n"],
      .print ["  return ::grpc::internal::ClientReaderWriterFactory< ", request, ", ", response,
             ">::Create(channel_.get(), rpcmethod_", method, "_, context);\n\x7d\n\n"],
      .print ["void ", ns, service, "::Stub::async::", method,
             "(::grpc::ClientContext* context, ::grpc::ClientBidiReactor< ", request, ",", response,
             ">* reactor) \x7b\n"],
      .print ["  ::grpc::internal::ClientCallbackReaderWriterFactory< ", request, ",", response,
             ">::Create(stub_->channel_.get(), stub_->rpcmethod_", method,
             "_, context, reactor);\n\x7d\n\n"]] : Program) ++
    when params.allowCqApi (sourceAsyncPrefixes.flatMap fun a =>
      [.set asyncPrefix (lit a.word), .set asyncStart (lit a.start),
       .set asyncMethodParams (lit a.methodParams), .set asyncCreateArgs (lit a.createArgs),
       .print ["::grpc::ClientAsyncReaderWriter< ", request, ", ", response, ">* ", ns, service,
              "::Stub::", asyncPrefix, method,
              "Raw(::grpc::ClientContext* context, ::grpc::CompletionQueue* cq", asyncMethodParams,
              ") \x7b\n"],
       .print ["  return ::grpc::internal::ClientAsyncReaderWriterFactory< ", request, ", ",
              response, ">::Create(channel_.get(), cq, rpcmethod_", method, "_, context, ",
              asyncStart, asyncCreateArgs, ");\n\x7d\n\n"]])
  else [])

def printSourceServerMethod (m : Method) (params : Parameters) : Program :=
  ([.set method m.name, .set request m.inputTypeName, .set response m.outputTypeName] : Program) ++
  (if m.noStreaming then
    ([.print ["::grpc::Status ", ns, service, "::Service::", method,
             "(::grpc::ServerContext* context, const ", request, "* request, ", response,
             "* response) \x7b\n"]] : Program) ++
    when (!params.allowSyncServerApi) ([.print ["  abort();\n"]] : Program) ++
    ([.print ["  (void) context;\n"],
      .print ["  (void) request;\n"],
      .print ["  (void) response;\n"],
      .print ["  return ::grpc::Status(::grpc::StatusCode::UNIMPLEMENTED, \"\");\n"],
      .print ["\x7d\n\n"]] : Program)
  else if m.clientOnlyStreaming then
    ([.print ["::grpc::Status ", ns, service, "::Service::", method,
             "(::grpc::ServerContext* context, ::grpc::ServerReader< ", request, ">* reader, ",
             response, "* response) \x7b\n"]] : Program) ++
    when (!params.allowSyncServerApi) ([.print ["  abort();\n"]] : Program) ++
    ([.print ["  (void) context;\n"],
      .print ["  (void) reader;\n"],
      .print ["  (void) response;\n"],
      .print ["  return ::grpc::Status(::grpc::StatusCode::UNIMPLEMENTED, \"\");\n"],
      .print ["\x7d\n\n"]] : Program)
  else if m.serverOnlyStreaming then
    ([.print ["::grpc::Status ", ns, service, "::Service::", method,
             "(::grpc::ServerContext* context, const ", request,
             "* request, ::grpc::ServerWriter< ", response, ">* writer) \x7b\n"]] : Program) ++
    when (!params.allowSyncServerApi) ([.print ["  abort();\n"]] : Program) ++
    ([.print ["  (void) context;\n"],
      .print ["  (void) request;\n"],
      .print ["  (void) writer;\n"],
      .print ["  return ::grpc::Status(::grpc::StatusCode::UNIMPLEMENTED, \"\");\n"],
      .print ["\x7d\n\n"]] : Program)
  else if m.bidiStreaming then
    ([.print ["::grpc::Status ", ns, service, "::Service::", method,
             "(::grpc::ServerContext* context, ::grpc::ServerReaderWriter< ", response, ", ",
             request, ">* stream) \x7b\n"]] : Program) ++
    when (!params.allowSyncServerApi) ([.print ["  abort();\n"]] : Program) ++
    ([.print ["  (void) context;\n"],
      .print ["  (void) stream;\n"],
      .print ["  return ::grpc::Status(::grpc::StatusCode::UNIMPLEMENTED, \"\");\n"],
      .print ["\x7d\n\n"]] : Program)
  else [])

/-! ### The parts of a service -/

def sourceMethodNames (s : Service) : Program :=
  when (!s.methods.isEmpty)
    (([.print ["static const char* ", servicePrefix, service,
             "_method_names[] = \x7b\n"]] : Program) ++
     (forMethods s fun _ m =>
       [.set method m.name,
        .print ["  \"/", package, service, "/", method, "\",\n"]]) ++
     ([.print ["\x7d;\n\n"]] : Program))

/-- The constant of `RpcMethod`; streamed unary is `NORMAL_RPC` on the client's side. -/
def streamingTypeName (m : Method) : String :=
  if m.noStreaming then "NORMAL_RPC"
  else if m.clientOnlyStreaming then "CLIENT_STREAMING"
  else if m.serverOnlyStreaming then "SERVER_STREAMING"
  else "BIDI_STREAMING"

def sourceStubMember (i : ℕ) (m : Method) : Program :=
  [.set method m.name, .set idx (asString i),
   .set streamingType (lit (streamingTypeName m)),
   .print [", rpcmethod_", method, "_(", servicePrefix, service, "_method_names[", idx,
          "], options.suffix_for_stats(),::grpc::internal::RpcMethod::", streamingType,
          ", channel)\n"]]

def sourceStub (s : Service) : Program :=
  ([.print ["std::unique_ptr< ", ns, service, "::Stub> ", ns, service,
           "::NewStub(const std::shared_ptr< ::grpc::ChannelInterface>& channel, const ",
           "::grpc::StubOptions& options) \x7b\n  (void)options;\n  std::unique_ptr< ", ns, service,
           "::Stub> stub(new ", ns, service, "::Stub(channel, options));\n  return stub;\n\x7d\n\n"],
    .print [ns, service,
           "::Stub::Stub(const std::shared_ptr< ::grpc::ChannelInterface>& channel, ",
           "const ::grpc::StubOptions& options)\n"],
    .indent,
    .print [": channel_(channel)"]] : Program) ++
  forMethods s sourceStubMember ++
  ([.print ["\x7b\x7d\n\n"],
    .outdent] : Program)

def sourceAddMethod (m : Method) : Program :=
  if m.noStreaming then
    [.print ["AddMethod(new ::grpc::internal::RpcServiceMethod(\n    ", servicePrefix, service,
            "_method_names[", idx, "],\n    ::grpc::internal::RpcMethod::NORMAL_RPC,\n",
            "    new ::grpc::internal::RpcMethodHandler< ", ns, service, "::Service, ", request,
            ", ", response, ", ::grpc::protobuf::MessageLite, ::grpc::protobuf::MessageLite>(\n",
            "        [](", ns, service, "::Service* service,\n",
            "           ::grpc::ServerContext* ctx,\n           const ", request,
            "* req,\n           ", response, "* resp) \x7b\n             return service->",
            method, "(ctx, req, resp);\n           \x7d, this)));\n"]]
  else if m.clientOnlyStreaming then
    [.print ["AddMethod(new ::grpc::internal::RpcServiceMethod(\n    ", servicePrefix, service,
            "_method_names[", idx, "],\n    ::grpc::internal::RpcMethod::CLIENT_STREAMING,\n",
            "    new ::grpc::internal::ClientStreamingHandler< ", ns, service, "::Service, ",
            request, ", ", response, ">(\n        [](", ns, service, "::Service* service,\n",
            "           ::grpc::ServerContext* ctx,\n           ::grpc::ServerReader<", request,
            ">* reader,\n           ", response, "* resp) \x7b\n             return service->",
            method, "(ctx, reader, resp);\n           \x7d, this)));\n"]]
  else if m.serverOnlyStreaming then
    [.print ["AddMethod(new ::grpc::internal::RpcServiceMethod(\n    ", servicePrefix, service,
            "_method_names[", idx, "],\n    ::grpc::internal::RpcMethod::SERVER_STREAMING,\n",
            "    new ::grpc::internal::ServerStreamingHandler< ", ns, service, "::Service, ",
            request, ", ", response, ">(\n        [](", ns, service, "::Service* service,\n",
            "           ::grpc::ServerContext* ctx,\n           const ", request,
            "* req,\n           ::grpc::ServerWriter<", response,
            ">* writer) \x7b\n             return service->", method,
            "(ctx, req, writer);\n           \x7d, this)));\n"]]
  else if m.bidiStreaming then
    [.print ["AddMethod(new ::grpc::internal::RpcServiceMethod(\n    ", servicePrefix, service,
            "_method_names[", idx, "],\n    ::grpc::internal::RpcMethod::BIDI_STREAMING,\n",
            "    new ::grpc::internal::BidiStreamingHandler< ", ns, service, "::Service, ",
            request, ", ", response, ">(\n        [](", ns, service, "::Service* service,\n",
            "           ::grpc::ServerContext* ctx,\n", "           ::grpc::ServerReaderWriter<",
            response, ",\n           ", request,
            ">* stream) \x7b\n             return service->", method,
            "(ctx, stream);\n           \x7d, this)));\n"]]
  else []

def sourceHandler (i : ℕ) (m : Method) : Program :=
  ([.set idx (asString i), .set method m.name, .set request m.inputTypeName,
    .set response m.outputTypeName] : Program) ++
  sourceAddMethod m

def sourceServiceConstructor (s : Service) : Program :=
  ([.print [ns, service, "::Service::Service() \x7b\n"],
    .indent] : Program) ++
  forMethods s sourceHandler ++
  ([.outdent,
    .print ["\x7d\n\n"],
    .print [ns, service, "::Service::~Service() \x7b\n\x7d\n\n"]] : Program)

def printSourceService (s : Service) (params : Parameters) : Program :=
  .set service s.name ::
  (sourceMethodNames s ++
  sourceStub s ++
  (forMethods s fun i m => .set idx (asString i) :: printSourceClientMethod m params) ++
  sourceServiceConstructor s ++
  (forMethods s fun i m => .set idx (asString i) :: printSourceServerMethod m params))

/-! ### The parts are closed -/

def sourceEnv (packageName nsText prefixText : Text) : Env Var :=
  Function.update (Function.update (packageEnv packageName none) ns (some nsText)) servicePrefix
    (some prefixText)

def sourceServiceEnv (packageName nsText prefixText serviceName : Text) : Env Var :=
  Function.update (sourceEnv packageName nsText prefixText) service (some serviceName)

def sourceMethodEnv (packageName nsText prefixText serviceName : Text) (i : ℕ) : Env Var :=
  Function.update (sourceServiceEnv packageName nsText prefixText serviceName) idx
    (some (asString i))

section Closed

variable {packageName nsText prefixText serviceName : Text} {i : ℕ} (m : Method) (s : Service)
  (params : Parameters)

theorem closed_printSourceClientMethod :
    Closed (sourceMethodEnv packageName nsText prefixText serviceName i)
      (printSourceClientMethod m params) := by
  obtain ⟨name, input, output, client, server, location⟩ := m
  obtain ⟨_, _, _, _, _, _, _, _, _, cq, _⟩ := params
  cases client <;> cases server <;> cases cq <;> exact .of_run (fun _ => ⟨_, _, rfl⟩) rfl

theorem closed_printSourceServerMethod :
    Closed (sourceMethodEnv packageName nsText prefixText serviceName i)
      (printSourceServerMethod m params) := by
  obtain ⟨name, input, output, client, server, location⟩ := m
  obtain ⟨_, _, _, _, _, _, _, _, sync, _, _⟩ := params
  cases client <;> cases server <;> cases sync <;> exact .of_run (fun _ => ⟨_, _, rfl⟩) rfl

theorem closed_sourceStubMember :
    Closed (sourceServiceEnv packageName nsText prefixText serviceName)
      (sourceStubMember i m) :=
  .of_run (fun _ => ⟨_, _, rfl⟩) rfl

theorem closed_sourceHandler :
    Closed (sourceServiceEnv packageName nsText prefixText serviceName) (sourceHandler i m) := by
  obtain ⟨name, input, output, client, server, location⟩ := m
  cases client <;> cases server <;> exact .of_run (fun _ => ⟨_, _, rfl⟩) rfl

theorem closed_sourceMethodNames :
    Closed (sourceServiceEnv packageName nsText prefixText serviceName)
      (sourceMethodNames s) :=
  closed_when (.append (.append (.of_run (fun _ => ⟨_, _, rfl⟩) rfl)
    (closed_forMethods fun _ _ _ => .of_run (fun _ => ⟨_, _, rfl⟩) rfl))
    (.of_run (fun _ => ⟨_, _, rfl⟩) rfl)) _

theorem prints_sourceStub (packageName nsText prefixText serviceName : Text) (d : ℕ) :
    ∃ ws : List (Write Var),
      Prints (sourceServiceEnv packageName nsText prefixText serviceName) d d (sourceStub s) ws ∧
      ws.map Write.chars =
        [lit "std::unique_ptr< " ++ nsText ++ serviceName ++ lit "::Stub> " ++ nsText ++
            serviceName ++
            lit "::NewStub(const std::shared_ptr< ::grpc::ChannelInterface>& channel, const " ++
            lit "::grpc::StubOptions& options) \x7b\n  (void)options;\n  std::unique_ptr< " ++
            nsText ++ serviceName ++ lit "::Stub> stub(new " ++ nsText ++ serviceName ++
            lit "::Stub(channel, options));\n  return stub;\n\x7d\n\n",
          nsText ++ serviceName ++
            lit "::Stub::Stub(const std::shared_ptr< ::grpc::ChannelInterface>& channel, " ++
            lit "const ::grpc::StubOptions& options)\n",
          lit ": channel_(channel)"] ++
        texts (sourceServiceEnv packageName nsText prefixText serviceName) (d + 1)
          (forMethods s sourceStubMember) ++
        [lit "\x7b\x7d\n\n"] := by
  have hmembers : Closed (sourceServiceEnv packageName nsText prefixText serviceName)
      (forMethods s sourceStubMember) :=
    closed_forMethods fun _ m _ => closed_sourceStubMember m
  exact ⟨_, .append (.append (.straight rfl rfl) (hmembers (d + 1))) (.straight rfl rfl),
    by simp [-String.reduceToList, texts, Write.chars, Span.chars, lit]⟩

theorem closed_sourceStub :
    Closed (sourceServiceEnv packageName nsText prefixText serviceName)
      (sourceStub s) := by
  refine .of_prints fun d => ?_
  obtain ⟨ws, h, -⟩ := prints_sourceStub s packageName nsText prefixText serviceName d
  exact ⟨ws, h⟩

theorem prints_sourceServiceConstructor (packageName nsText prefixText serviceName : Text)
    (d : ℕ) : ∃ ws : List (Write Var),
      Prints (sourceServiceEnv packageName nsText prefixText serviceName) d d
        (sourceServiceConstructor s) ws ∧
      ws.map Write.chars =
        [nsText ++ serviceName ++ lit "::Service::Service() \x7b\n"] ++
        texts (sourceServiceEnv packageName nsText prefixText serviceName) (d + 1)
          (forMethods s sourceHandler) ++
        [lit "\x7d\n\n", nsText ++ serviceName ++ lit "::Service::~Service() \x7b\n\x7d\n\n"] := by
  have hhandlers : Closed (sourceServiceEnv packageName nsText prefixText serviceName)
      (forMethods s sourceHandler) :=
    closed_forMethods fun _ m _ => closed_sourceHandler m
  exact ⟨_, .append (.append (.straight rfl rfl) (hhandlers (d + 1))) (.straight rfl rfl),
    by simp [-String.reduceToList, texts, Write.chars, Span.chars, lit]⟩

theorem closed_sourceServiceConstructor :
    Closed (sourceServiceEnv packageName nsText prefixText serviceName)
      (sourceServiceConstructor s) := by
  refine .of_prints fun d => ?_
  obtain ⟨ws, h, -⟩ := prints_sourceServiceConstructor s packageName nsText prefixText serviceName d
  exact ⟨ws, h⟩

def sourceParts : List Program :=
  [sourceMethodNames s, sourceStub s,
    forMethods s fun i m => .set idx (asString i) :: printSourceClientMethod m params,
    sourceServiceConstructor s,
    forMethods s fun i m => .set idx (asString i) :: printSourceServerMethod m params]

theorem closed_sourceParts {part : Program} (hpart : part ∈ sourceParts s params) :
    Closed (sourceServiceEnv packageName nsText prefixText serviceName) part := by
  simp only [sourceParts, List.mem_cons, List.not_mem_nil, or_false] at hpart
  rcases hpart with rfl | rfl | rfl | rfl | rfl
  · exact closed_sourceMethodNames s
  · exact closed_sourceStub s
  · exact closed_forMethods fun _ m _ => .set rfl (closed_printSourceClientMethod m params)
  · exact closed_sourceServiceConstructor s
  · exact closed_forMethods fun _ m _ => .set rfl (closed_printSourceServerMethod m params)

theorem printSourceService_eq : printSourceService s params =
    .set service s.name :: (sourceParts s params).flatMap id := by
  simp only [printSourceService, sourceParts, List.flatMap_cons, List.flatMap_nil, id_eq,
    List.append_assoc, List.append_nil]

theorem prints_printSourceService (d : ℕ) :
    Prints (sourceEnv packageName nsText prefixText) d d (printSourceService s params)
      ((sourceParts s params).flatMap
        (written (sourceServiceEnv packageName nsText prefixText s.name) d)) := by
  have hparts : Prints (sourceServiceEnv packageName nsText prefixText s.name) d d
      ((sourceParts s params).flatMap id) ((sourceParts s params).flatMap
        (written (sourceServiceEnv packageName nsText prefixText s.name) d)) :=
    .flatMap fun part hpart => closed_sourceParts s params hpart d
  rw [printSourceService_eq]
  exact .set rfl hparts

theorem closed_printSourceService :
    Closed (sourceEnv packageName nsText prefixText) (printSourceService s params) :=
  .of_prints fun d => ⟨_, prints_printSourceService s params d⟩

end Closed

end GrpcM.Plugin
