import GrpcM.Plugin.Generator.Program

/-!
A service in the mock header: a class that mocks what is pure in `StubInterface`.
-/

namespace GrpcM.Plugin

open GrpcM.Path GrpcM.Templates
open Var hiding filenameIdentifier

def mockAsyncPrefixes : List AsyncPrefix :=
  [{ word := "Async", methodParams := ", void* tag", extraMethodParamCount := 1 },
    { word := "PrepareAsync", methodParams := "", extraMethodParamCount := 0 }]

def printMockClientMethods (m : Method) (params : Parameters) : Program :=
  ([.set method m.name, .set request m.inputTypeName, .set response m.outputTypeName] : Program) ++
  (if m.noStreaming then
    ([.print ["MOCK_METHOD3(", method, ", ::grpc::Status(::grpc::ClientContext* context, const ",
             request, "& request, ", response, "* response));\n"]] : Program) ++
    when params.allowCqApi (mockAsyncPrefixes.flatMap fun a =>
      [.set asyncPrefix (lit a.word),
       .print ["MOCK_METHOD3(", asyncPrefix, method,
              "Raw, ::grpc::ClientAsyncResponseReaderInterface< ", response,
              ">*(::grpc::ClientContext* context, const ", request,
              "& request, ::grpc::CompletionQueue* cq));\n"]])
  else if m.clientOnlyStreaming then
    ([.print ["MOCK_METHOD2(", method, "Raw, ::grpc::ClientWriterInterface< ", request,
             ">*(::grpc::ClientContext* context, ", response, "* response));\n"]] : Program) ++
    when params.allowCqApi (mockAsyncPrefixes.flatMap fun a =>
      [.set asyncPrefix (lit a.word), .set asyncMethodParams (lit a.methodParams),
       .set mockArgs (asString (3 + a.extraMethodParamCount)),
       .print ["MOCK_METHOD", mockArgs, "(", asyncPrefix, method,
              "Raw, ::grpc::ClientAsyncWriterInterface< ", request,
              ">*(::grpc::ClientContext* context, ", response,
              "* response, ::grpc::CompletionQueue* cq", asyncMethodParams, "));\n"]])
  else if m.serverOnlyStreaming then
    ([.print ["MOCK_METHOD2(", method, "Raw, ::grpc::ClientReaderInterface< ", response,
             ">*(::grpc::ClientContext* context, const ", request, "& request));\n"]] : Program) ++
    when params.allowCqApi (mockAsyncPrefixes.flatMap fun a =>
      [.set asyncPrefix (lit a.word), .set asyncMethodParams (lit a.methodParams),
       .set mockArgs (asString (3 + a.extraMethodParamCount)),
       .print ["MOCK_METHOD", mockArgs, "(", asyncPrefix, method,
              "Raw, ::grpc::ClientAsyncReaderInterface< ", response,
              ">*(::grpc::ClientContext* context, const ", request,
              "& request, ::grpc::CompletionQueue* cq", asyncMethodParams, "));\n"]])
  else if m.bidiStreaming then
    ([.print ["MOCK_METHOD1(", method, "Raw, ::grpc::ClientReaderWriterInterface< ", request, ", ",
             response, ">*(::grpc::ClientContext* context));\n"]] : Program) ++
    when params.allowCqApi (mockAsyncPrefixes.flatMap fun a =>
      [.set asyncPrefix (lit a.word), .set asyncMethodParams (lit a.methodParams),
       .set mockArgs (asString (2 + a.extraMethodParamCount)),
       .print ["MOCK_METHOD", mockArgs, "(", asyncPrefix, method,
              "Raw, ::grpc::ClientAsyncReaderWriterInterface<", request, ", ", response,
              ">*(::grpc::ClientContext* context, ::grpc::CompletionQueue* cq", asyncMethodParams,
              "));\n"]])
  else [])

def printMockService (s : Service) (params : Parameters) : Program :=
  ([.set service s.name,
    .print ["class Mock", service, "Stub : public ", service, "::StubInterface \x7b\n public:\n"],
    .indent] : Program) ++
  (forMethods s fun _ m => printMockClientMethods m params) ++
  ([.outdent,
    .print ["\x7d;\n"]] : Program)

theorem closed_printMockClientMethods {packageName serviceName : Text} {outer : Option Text}
    (m : Method) (params : Parameters) :
    Closed (serviceEnv packageName outer serviceName) (printMockClientMethods m params) := by
  obtain ⟨name, input, output, client, server, location⟩ := m
  obtain ⟨_, _, _, _, _, _, _, _, _, cq, _⟩ := params
  cases client <;> cases server <;> cases cq <;> exact .of_run (fun _ => ⟨_, _, rfl⟩) rfl

theorem prints_printMockService (packageName : Text) (outer : Option Text) (s : Service)
    (params : Parameters) (d : ℕ) : ∃ ws : List (Write Var),
    Prints (packageEnv packageName outer) d d (printMockService s params) ws ∧
    ws.map Write.chars =
      [lit "class Mock" ++ s.name ++ lit "Stub : public " ++ s.name ++
        lit "::StubInterface \x7b\n public:\n"] ++
      texts (serviceEnv packageName outer s.name) (d + 1)
        (forMethods s fun _ m => printMockClientMethods m params) ++
      [lit "\x7d;\n"] := by
  have hmethods : Closed (serviceEnv packageName outer s.name)
      (forMethods s fun _ m => printMockClientMethods m params) :=
    closed_forMethods fun _ m _ => closed_printMockClientMethods m params
  exact ⟨_, .set rfl (.append (.append (.straight rfl rfl) (hmethods (d + 1)))
    (.straight rfl rfl)), by
      simp [-String.reduceToList, texts, serviceEnv, Write.chars, Span.chars, lit]⟩

theorem closed_printMockService {packageName : Text} {outer : Option Text} (s : Service)
    (params : Parameters) : Closed (packageEnv packageName outer) (printMockService s params) := by
  refine .of_prints fun d => ?_
  obtain ⟨ws, h, -⟩ := prints_printMockService packageName outer s params d
  exact ⟨ws, h⟩

end GrpcM.Plugin
