import GrpcM.Plugin.Generator.Program

/-!
The client side of a service in the header: the methods of `StubInterface`, of `Stub` and
of their callback classes. A public method that streams, or that is asynchronous, calls a
private one whose name ends in `Raw`.
-/

namespace GrpcM.Plugin

open GrpcM.Path GrpcM.Templates
open Var hiding filenameIdentifier

def headerAsyncPrefixes : List AsyncPrefix :=
  [{ word := "Async", methodParams := ", void* tag", rawArgs := ", tag" },
    { word := "PrepareAsync", methodParams := "", rawArgs := "" }]

/-- Part of `StubInterface`: what is pure is `virtual`, the rest calls it. -/
def printHeaderClientMethodInterfaces (m : Method) (params : Parameters) (isPublic : Bool) :
    Program :=
  ([.set method m.name, .set request m.inputTypeName, .set response m.outputTypeName] : Program) ++
  (if isPublic then
    (if m.noStreaming then
      ([.print ["virtual ::grpc::Status ", method, "(::grpc::ClientContext* context, const ",
               request, "& request, ", response, "* response) = 0;\n"]] : Program) ++
      when params.allowCqApi (headerAsyncPrefixes.flatMap fun a =>
        [.set asyncPrefix (lit a.word),
         .print ["std::unique_ptr< ::grpc::ClientAsyncResponseReaderInterface< ", response, ">> ",
                asyncPrefix, method, "(::grpc::ClientContext* context, const ", request,
                "& request, ::grpc::CompletionQueue* cq) \x7b\n"],
         .indent,
         .print ["return std::unique_ptr< ::grpc::ClientAsyncResponseReaderInterface< ", response,
                ">>(", asyncPrefix, method, "Raw(context, request, cq));\n"],
         .outdent,
         .print ["\x7d\n"]])
    else if m.clientOnlyStreaming then
      ([.print ["std::unique_ptr< ::grpc::ClientWriterInterface< ", request, ">> ", method,
               "(::grpc::ClientContext* context, ", response, "* response) \x7b\n"],
        .indent,
        .print ["return std::unique_ptr< ::grpc::ClientWriterInterface< ", request, ">>(", method,
               "Raw(context, response));\n"],
        .outdent,
        .print ["\x7d\n"]] : Program) ++
      when params.allowCqApi (headerAsyncPrefixes.flatMap fun a =>
        [.set asyncPrefix (lit a.word), .set asyncMethodParams (lit a.methodParams),
         .set asyncRawArgs (lit a.rawArgs),
         .print ["std::unique_ptr< ::grpc::ClientAsyncWriterInterface< ", request, ">> ",
                asyncPrefix, method, "(::grpc::ClientContext* context, ", response,
                "* response, ::grpc::CompletionQueue* cq", asyncMethodParams, ") \x7b\n"],
         .indent,
         .print ["return std::unique_ptr< ::grpc::ClientAsyncWriterInterface< ", request, ">>(",
                asyncPrefix, method, "Raw(context, response, cq", asyncRawArgs, "));\n"],
         .outdent,
         .print ["\x7d\n"]])
    else if m.serverOnlyStreaming then
      ([.print ["std::unique_ptr< ::grpc::ClientReaderInterface< ", response, ">> ", method,
               "(::grpc::ClientContext* context, const ", request, "& request) \x7b\n"],
        .indent,
        .print ["return std::unique_ptr< ::grpc::ClientReaderInterface< ", response, ">>(", method,
               "Raw(context, request));\n"],
        .outdent,
        .print ["\x7d\n"]] : Program) ++
      when params.allowCqApi (headerAsyncPrefixes.flatMap fun a =>
        [.set asyncPrefix (lit a.word), .set asyncMethodParams (lit a.methodParams),
         .set asyncRawArgs (lit a.rawArgs),
         .print ["std::unique_ptr< ::grpc::ClientAsyncReaderInterface< ", response, ">> ",
                asyncPrefix, method, "(::grpc::ClientContext* context, const ", request,
                "& request, ::grpc::CompletionQueue* cq", asyncMethodParams, ") \x7b\n"],
         .indent,
         .print ["return std::unique_ptr< ::grpc::ClientAsyncReaderInterface< ", response, ">>(",
                asyncPrefix, method, "Raw(context, request, cq", asyncRawArgs, "));\n"],
         .outdent,
         .print ["\x7d\n"]])
    else if m.bidiStreaming then
      ([.print ["std::unique_ptr< ::grpc::ClientReaderWriterInterface< ", request, ", ", response,
               ">> ", method, "(::grpc::ClientContext* context) \x7b\n"],
        .indent,
        .print ["return std::unique_ptr< ::grpc::ClientReaderWriterInterface< ", request, ", ",
               response, ">>(", method, "Raw(context));\n"],
        .outdent,
        .print ["\x7d\n"]] : Program) ++
      when params.allowCqApi (headerAsyncPrefixes.flatMap fun a =>
        [.set asyncPrefix (lit a.word), .set asyncMethodParams (lit a.methodParams),
         .set asyncRawArgs (lit a.rawArgs),
         .print ["std::unique_ptr< ::grpc::ClientAsyncReaderWriterInterface< ", request, ", ",
                response, ">> ", asyncPrefix, method,
                "(::grpc::ClientContext* context, ::grpc::CompletionQueue* cq", asyncMethodParams,
                ") \x7b\n"],
         .indent,
         .print ["return std::unique_ptr< ::grpc::ClientAsyncReaderWriterInterface< ", request,
                ", ", response, ">>(", asyncPrefix, method, "Raw(context, cq", asyncRawArgs,
                "));\n"],
         .outdent,
         .print ["\x7d\n"]])
    else [])
  else
    (if m.noStreaming then
      when params.allowCqApi (headerAsyncPrefixes.flatMap fun a =>
        [.set asyncPrefix (lit a.word),
         .print ["virtual ::grpc::ClientAsyncResponseReaderInterface< ", response, ">* ",
                asyncPrefix, method, "Raw(::grpc::ClientContext* context, const ", request,
                "& request, ::grpc::CompletionQueue* cq) = 0;\n"]])
    else if m.clientOnlyStreaming then
      ([.print ["virtual ::grpc::ClientWriterInterface< ", request, ">* ", method,
               "Raw(::grpc::ClientContext* context, ", response,
               "* response) = 0;\n"]] : Program) ++
      when params.allowCqApi (headerAsyncPrefixes.flatMap fun a =>
        [.set asyncPrefix (lit a.word), .set asyncMethodParams (lit a.methodParams),
         .print ["virtual ::grpc::ClientAsyncWriterInterface< ", request, ">* ", asyncPrefix,
                method, "Raw(::grpc::ClientContext* context, ", response,
                "* response, ::grpc::CompletionQueue* cq", asyncMethodParams, ") = 0;\n"]])
    else if m.serverOnlyStreaming then
      ([.print ["virtual ::grpc::ClientReaderInterface< ", response, ">* ", method,
               "Raw(::grpc::ClientContext* context, const ", request,
               "& request) = 0;\n"]] : Program) ++
      when params.allowCqApi (headerAsyncPrefixes.flatMap fun a =>
        [.set asyncPrefix (lit a.word), .set asyncMethodParams (lit a.methodParams),
         .print ["virtual ::grpc::ClientAsyncReaderInterface< ", response, ">* ", asyncPrefix,
                method, "Raw(::grpc::ClientContext* context, const ", request,
                "& request, ::grpc::CompletionQueue* cq", asyncMethodParams, ") = 0;\n"]])
    else if m.bidiStreaming then
      ([.print ["virtual ::grpc::ClientReaderWriterInterface< ", request, ", ", response, ">* ",
               method, "Raw(::grpc::ClientContext* context) = 0;\n"]] : Program) ++
      when params.allowCqApi (headerAsyncPrefixes.flatMap fun a =>
        [.set asyncPrefix (lit a.word), .set asyncMethodParams (lit a.methodParams),
         .print ["virtual ::grpc::ClientAsyncReaderWriterInterface< ", request, ", ", response,
                ">* ", asyncPrefix, method,
                "Raw(::grpc::ClientContext* context, ::grpc::CompletionQueue* cq",
                asyncMethodParams, ") = 0;\n"]])
    else []))

def printHeaderClientMethod (m : Method) (params : Parameters) (isPublic : Bool) : Program :=
  ([.set method m.name, .set request m.inputTypeName, .set response m.outputTypeName] : Program) ++
  (if isPublic then
    (if m.noStreaming then
      ([.print ["::grpc::Status ", method, "(::grpc::ClientContext* context, const ", request,
               "& request, ", response, "* response) override;\n"]] : Program) ++
      when params.allowCqApi (headerAsyncPrefixes.flatMap fun a =>
        [.set asyncPrefix (lit a.word),
         .print ["std::unique_ptr< ::grpc::ClientAsyncResponseReader< ", response, ">> ",
                asyncPrefix, method, "(::grpc::ClientContext* context, const ", request,
                "& request, ::grpc::CompletionQueue* cq) \x7b\n"],
         .indent,
         .print ["return std::unique_ptr< ::grpc::ClientAsyncResponseReader< ", response, ">>(",
                asyncPrefix, method, "Raw(context, request, cq));\n"],
         .outdent,
         .print ["\x7d\n"]])
    else if m.clientOnlyStreaming then
      ([.print ["std::unique_ptr< ::grpc::ClientWriter< ", request, ">> ", method,
               "(::grpc::ClientContext* context, ", response, "* response) \x7b\n"],
        .indent,
        .print ["return std::unique_ptr< ::grpc::ClientWriter< ", request, ">>(", method,
               "Raw(context, response));\n"],
        .outdent,
        .print ["\x7d\n"]] : Program) ++
      when params.allowCqApi (headerAsyncPrefixes.flatMap fun a =>
        [.set asyncPrefix (lit a.word), .set asyncMethodParams (lit a.methodParams),
         .set asyncRawArgs (lit a.rawArgs),
         .print ["std::unique_ptr< ::grpc::ClientAsyncWriter< ", request, ">> ", asyncPrefix,
                method, "(::grpc::ClientContext* context, ", response,
                "* response, ::grpc::CompletionQueue* cq", asyncMethodParams, ") \x7b\n"],
         .indent,
         .print ["return std::unique_ptr< ::grpc::ClientAsyncWriter< ", request, ">>(", asyncPrefix,
                method, "Raw(context, response, cq", asyncRawArgs, "));\n"],
         .outdent,
         .print ["\x7d\n"]])
    else if m.serverOnlyStreaming then
      ([.print ["std::unique_ptr< ::grpc::ClientReader< ", response, ">> ", method,
               "(::grpc::ClientContext* context, const ", request, "& request) \x7b\n"],
        .indent,
        .print ["return std::unique_ptr< ::grpc::ClientReader< ", response, ">>(", method,
               "Raw(context, request));\n"],
        .outdent,
        .print ["\x7d\n"]] : Program) ++
      when params.allowCqApi (headerAsyncPrefixes.flatMap fun a =>
        [.set asyncPrefix (lit a.word), .set asyncMethodParams (lit a.methodParams),
         .set asyncRawArgs (lit a.rawArgs),
         .print ["std::unique_ptr< ::grpc::ClientAsyncReader< ", response, ">> ", asyncPrefix,
                method, "(::grpc::ClientContext* context, const ", request,
                "& request, ::grpc::CompletionQueue* cq", asyncMethodParams, ") \x7b\n"],
         .indent,
         .print ["return std::unique_ptr< ::grpc::ClientAsyncReader< ", response, ">>(",
                asyncPrefix, method, "Raw(context, request, cq", asyncRawArgs, "));\n"],
         .outdent,
         .print ["\x7d\n"]])
    else if m.bidiStreaming then
      ([.print ["std::unique_ptr< ::grpc::ClientReaderWriter< ", request, ", ", response, ">> ",
               method, "(::grpc::ClientContext* context) \x7b\n"],
        .indent,
        .print ["return std::unique_ptr< ::grpc::ClientReaderWriter< ", request, ", ", response,
               ">>(", method, "Raw(context));\n"],
        .outdent,
        .print ["\x7d\n"]] : Program) ++
      when params.allowCqApi (headerAsyncPrefixes.flatMap fun a =>
        [.set asyncPrefix (lit a.word), .set asyncMethodParams (lit a.methodParams),
         .set asyncRawArgs (lit a.rawArgs),
         .print ["std::unique_ptr<  ::grpc::ClientAsyncReaderWriter< ", request, ", ", response,
                ">> ", asyncPrefix, method,
                "(::grpc::ClientContext* context, ::grpc::CompletionQueue* cq", asyncMethodParams,
                ") \x7b\n"],
         .indent,
         .print ["return std::unique_ptr< ::grpc::ClientAsyncReaderWriter< ", request, ", ",
                response, ">>(", asyncPrefix, method, "Raw(context, cq", asyncRawArgs, "));\n"],
         .outdent,
         .print ["\x7d\n"]])
    else [])
  else
    (if m.noStreaming then
      when params.allowCqApi (headerAsyncPrefixes.flatMap fun a =>
        [.set asyncPrefix (lit a.word),
         .print ["::grpc::ClientAsyncResponseReader< ", response, ">* ", asyncPrefix, method,
                "Raw(::grpc::ClientContext* context, const ", request,
                "& request, ::grpc::CompletionQueue* cq) override;\n"]])
    else if m.clientOnlyStreaming then
      ([.print ["::grpc::ClientWriter< ", request, ">* ", method,
               "Raw(::grpc::ClientContext* context, ", response,
               "* response) override;\n"]] : Program) ++
      when params.allowCqApi (headerAsyncPrefixes.flatMap fun a =>
        [.set asyncPrefix (lit a.word), .set asyncMethodParams (lit a.methodParams),
         .set asyncRawArgs (lit a.rawArgs),
         .print ["::grpc::ClientAsyncWriter< ", request, ">* ", asyncPrefix, method,
                "Raw(::grpc::ClientContext* context, ", response,
                "* response, ::grpc::CompletionQueue* cq", asyncMethodParams, ") override;\n"]])
    else if m.serverOnlyStreaming then
      ([.print ["::grpc::ClientReader< ", response, ">* ", method,
               "Raw(::grpc::ClientContext* context, const ", request,
               "& request) override;\n"]] : Program) ++
      when params.allowCqApi (headerAsyncPrefixes.flatMap fun a =>
        [.set asyncPrefix (lit a.word), .set asyncMethodParams (lit a.methodParams),
         .set asyncRawArgs (lit a.rawArgs),
         .print ["::grpc::ClientAsyncReader< ", response, ">* ", asyncPrefix, method,
                "Raw(::grpc::ClientContext* context, const ", request,
                "& request, ::grpc::CompletionQueue* cq", asyncMethodParams, ") override;\n"]])
    else if m.bidiStreaming then
      ([.print ["::grpc::ClientReaderWriter< ", request, ", ", response, ">* ", method,
               "Raw(::grpc::ClientContext* context) override;\n"]] : Program) ++
      when params.allowCqApi (headerAsyncPrefixes.flatMap fun a =>
        [.set asyncPrefix (lit a.word), .set asyncMethodParams (lit a.methodParams),
         .set asyncRawArgs (lit a.rawArgs),
         .print ["::grpc::ClientAsyncReaderWriter< ", request, ", ", response, ">* ", asyncPrefix,
                method, "Raw(::grpc::ClientContext* context, ::grpc::CompletionQueue* cq",
                asyncMethodParams, ") override;\n"]])
    else []))

def printHeaderClientMethodCallbackInterfacesStart : Program :=
  [.print ["class async_interface \x7b\n"],
   .print [" public:\n"],
   .indent,
   .print ["virtual ~async_interface() \x7b\x7d\n"]]

def printHeaderClientMethodCallbackInterfaces (m : Method) : Program :=
  ([.set method m.name, .set request m.inputTypeName, .set response m.outputTypeName] : Program) ++
  (if m.noStreaming then
    [.print ["virtual void ", method, "(::grpc::ClientContext* context, const ", request,
            "* request, ", response, "* response, std::function<void(::grpc::Status)>) = 0;\n"],
     .print ["virtual void ", method, "(::grpc::ClientContext* context, const ", request,
            "* request, ", response, "* response, ::grpc::ClientUnaryReactor* reactor) = 0;\n"]]
  else if m.clientOnlyStreaming then
    [.print ["virtual void ", method, "(::grpc::ClientContext* context, ", response,
            "* response, ::grpc::ClientWriteReactor< ", request, ">* reactor) = 0;\n"]]
  else if m.serverOnlyStreaming then
    [.print ["virtual void ", method, "(::grpc::ClientContext* context, const ", request,
            "* request, ::grpc::ClientReadReactor< ", response, ">* reactor) = 0;\n"]]
  else if m.bidiStreaming then
    [.print ["virtual void ", method,
            "(::grpc::ClientContext* context, ::grpc::ClientBidiReactor< ", request, ",", response,
            ">* reactor) = 0;\n"]]
  else [])

def printHeaderClientMethodCallbackInterfacesEnd : Program :=
  [.outdent,
   .print ["\x7d;\n"],
   .print ["typedef class async_interface experimental_async_interface;\n"],
   .print ["virtual class async_interface* async() \x7b return nullptr; \x7d\n"],
   .print ["class async_interface* experimental_async() \x7b return async(); \x7d\n"]]

def printHeaderClientMethodCallbackStart : Program :=
  [.print ["class async final :\n"],
   .print ["  public StubInterface::async_interface \x7b\n"],
   .print [" public:\n"],
   .indent]

def printHeaderClientMethodCallback (m : Method) : Program :=
  ([.set method m.name, .set request m.inputTypeName, .set response m.outputTypeName] : Program) ++
  (if m.noStreaming then
    [.print ["void ", method, "(::grpc::ClientContext* context, const ", request, "* request, ",
            response, "* response, std::function<void(::grpc::Status)>) override;\n"],
     .print ["void ", method, "(::grpc::ClientContext* context, const ", request, "* request, ",
            response, "* response, ::grpc::ClientUnaryReactor* reactor) override;\n"]]
  else if m.clientOnlyStreaming then
    [.print ["void ", method, "(::grpc::ClientContext* context, ", response,
            "* response, ::grpc::ClientWriteReactor< ", request, ">* reactor) override;\n"]]
  else if m.serverOnlyStreaming then
    [.print ["void ", method, "(::grpc::ClientContext* context, const ", request,
            "* request, ::grpc::ClientReadReactor< ", response, ">* reactor) override;\n"]]
  else if m.bidiStreaming then
    [.print ["void ", method, "(::grpc::ClientContext* context, ::grpc::ClientBidiReactor< ",
            request, ",", response, ">* reactor) override;\n"]]
  else [])

def printHeaderClientMethodCallbackEnd : Program :=
  [.outdent,
   .print [" private:\n"],
   .indent,
   .print ["friend class Stub;\n"],
   .print ["explicit async(Stub* stub): stub_(stub) \x7b \x7d\n"],
   .print ["Stub* stub() \x7b return stub_; \x7d\n"],
   .print ["Stub* stub_;\n"],
   .outdent,
   .print ["\x7d;\n"],
   .print ["class async* async() override \x7b return &async_stub_; \x7d\n"]]

def printHeaderClientMethodData (m : Method) : Program :=
  [.set method m.name,
   .print ["const ::grpc::internal::RpcMethod rpcmethod_", method, "_;\n"]]

/-! ### Every method reads its own variables -/

section Closed

variable {packageName serviceName : Text} {outer : Option Text} (m : Method) (params : Parameters)

theorem closed_printHeaderClientMethodInterfaces (isPublic : Bool) :
    Closed (serviceEnv packageName outer serviceName)
      (printHeaderClientMethodInterfaces m params isPublic) := by
  obtain ⟨name, input, output, client, server, location⟩ := m
  obtain ⟨_, _, _, _, _, _, _, _, _, cq, _⟩ := params
  cases isPublic <;> cases client <;> cases server <;> cases cq <;>
    exact .of_run (fun _ => ⟨_, _, rfl⟩) rfl

theorem closed_printHeaderClientMethod (isPublic : Bool) :
    Closed (serviceEnv packageName outer serviceName)
      (printHeaderClientMethod m params isPublic) := by
  obtain ⟨name, input, output, client, server, location⟩ := m
  obtain ⟨_, _, _, _, _, _, _, _, _, cq, _⟩ := params
  cases isPublic <;> cases client <;> cases server <;> cases cq <;>
    exact .of_run (fun _ => ⟨_, _, rfl⟩) rfl

theorem closed_printHeaderClientMethodCallbackInterfaces :
    Closed (serviceEnv packageName outer serviceName)
      (printHeaderClientMethodCallbackInterfaces m) := by
  obtain ⟨name, input, output, client, server, location⟩ := m
  cases client <;> cases server <;> exact .of_run (fun _ => ⟨_, _, rfl⟩) rfl

theorem closed_printHeaderClientMethodCallback :
    Closed (serviceEnv packageName outer serviceName) (printHeaderClientMethodCallback m) := by
  obtain ⟨name, input, output, client, server, location⟩ := m
  cases client <;> cases server <;> exact .of_run (fun _ => ⟨_, _, rfl⟩) rfl

theorem closed_printHeaderClientMethodData :
    Closed (serviceEnv packageName outer serviceName) (printHeaderClientMethodData m) :=
  .of_run (fun _ => ⟨_, _, rfl⟩) rfl

end Closed

end GrpcM.Plugin
