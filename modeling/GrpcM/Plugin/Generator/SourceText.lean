import GrpcM.Plugin.Generator.Linkage

/-!
The source file from its first line to its last. It has one table of the names of the methods;
the stub and the handlers of the base class take a name from it by the index of the method.
What class `Stub` declares is defined, each function once, and nothing else of it but how it
is made.
-/

namespace GrpcM.Plugin

open GrpcM.Path GrpcM.Templates
open Var hiding filenameIdentifier

/-! ### The stub -/

structure Definition where
  scope : String
  signature : Signature
  body : Text

def Definition.texts (serviceName : Text) (f : Definition) : List Text :=
  [f.signature.definition (serviceName ++ lit f.scope), f.body]

/-- The bodies for a method: of the call, or the stream, that blocks, of the callback versions
and of the asynchronous ones. -/
structure Bodies where
  blocking : List Text
  callback : List Text
  async : List Text

section Stub

variable (m : Method)

def messageLites : Text := lit "::grpc::protobuf::MessageLite, ::grpc::protobuf::MessageLite"

/-- A body that hands the call on to `function`, through the channel of `owner`. -/
def handOn (owner : String) (function : Text) (cq : String) (arguments : List String) : Text :=
  lit "  " ++ function ++ '(' :: lit owner ++ lit "channel_.get(), " ++ lit cq ++ lit owner ++
    lit "rpcmethod_" ++ m.name ++ lit "_, " ++ commas (arguments.map lit) ++ lit ");\n\x7d\n\n"

def unaryBodies : Bodies where
  blocking :=
    [handOn m "" (lit "return ::grpc::internal::BlockingUnaryCall< " ++ m.inputTypeName ++
      lit ", " ++ m.outputTypeName ++ lit ", " ++ messageLites ++ ['>']) ""
      ["context", "request", "response"]]
  callback :=
    [handOn m "stub_->" (lit "::grpc::internal::CallbackUnaryCall< " ++ m.inputTypeName ++
        lit ", " ++ m.outputTypeName ++ lit ", " ++ messageLites ++ ['>']) ""
        ["context", "request", "response", "std::move(f)"],
      handOn m "stub_->" (lit "::grpc::internal::ClientCallbackUnaryFactory::Create< " ++
        messageLites ++ ['>']) "" ["context", "request", "response", "reactor"]]
  async :=
    [handOn m "" (lit "return ::grpc::internal::ClientAsyncResponseReaderHelper::Create< " ++
        m.outputTypeName ++ lit ", " ++ m.inputTypeName ++ lit ", " ++ messageLites ++ ['>'])
        "cq, " ["context", "request"],
      lit "  auto* result =\n    this->PrepareAsync" ++ m.name ++
        lit "Raw(context, request, cq);\n  result->StartCall();\n  return result;\n\x7d\n\n"]

/-- The bodies for a stream such as `Writer`, each made by a factory; callbacks have the types
of the messages in a spelling of their own. -/
def streamBodies (stream : String) (types callbackTypes : Text) (arguments : List String) :
    Bodies where
  blocking :=
    [handOn m "" (lit "return ::grpc::internal::Client" ++ lit stream ++ lit "Factory< " ++ types ++
      lit ">::Create") "" arguments]
  callback :=
    [handOn m "stub_->" (lit "::grpc::internal::ClientCallback" ++ lit stream ++ lit "Factory< " ++
      callbackTypes ++ lit ">::Create") "" (arguments ++ ["reactor"])]
  async :=
    [["true", "tag"], ["false", "nullptr"]].map fun start =>
      handOn m "" (lit "return ::grpc::internal::ClientAsync" ++ lit stream ++ lit "Factory< " ++
        types ++ lit ">::Create") "cq, " (arguments ++ start)

def stubBodies : Bodies :=
  if m.noStreaming then unaryBodies m
  else if m.clientOnlyStreaming then
    streamBodies m "Writer" m.inputTypeName m.inputTypeName ["context", "response"]
  else if m.serverOnlyStreaming then
    streamBodies m "Reader" m.outputTypeName m.outputTypeName ["context", "request"]
  else
    streamBodies m "ReaderWriter" (m.inputTypeName ++ lit ", " ++ m.outputTypeName)
      (m.inputTypeName ++ ',' :: m.outputTypeName) ["context"]

def blockingFunctions (cq : Bool) : List Signature :=
  if m.noStreaming then unaryFunctions m
  else ((rawFunctions m "" cq).map RawFunction.signature).take 1

/-- A unary call is prepared before it is started. -/
def asyncFunctions (cq : Bool) : List Signature :=
  if m.noStreaming then ((rawFunctions m "" cq).map RawFunction.signature).reverse
  else ((rawFunctions m "" cq).map RawFunction.signature).drop 1

def stubDefinitions (cq : Bool) : List Definition :=
  List.zipWith (Definition.mk "::Stub::") (blockingFunctions m cq) (stubBodies m).blocking ++
    List.zipWith (Definition.mk "::Stub::async::") (callbackFunctions m) (stubBodies m).callback ++
    List.zipWith (Definition.mk "::Stub::") (asyncFunctions m cq) (stubBodies m).async

theorem zipWith_pair {scope : String} {sigs : List Signature} {bodies : List Text}
    (h : sigs.length ≤ bodies.length) :
    (List.zipWith (Definition.mk scope) sigs bodies).map (fun f => (f.scope, f.signature)) =
      sigs.map (Prod.mk scope) := by
  induction sigs generalizing bodies with
  | nil => rfl
  | cons sig sigs ih =>
      cases bodies with
      | nil => simp at h
      | cons body bodies =>
          have hlength : sigs.length ≤ bodies.length := by simpa using h
          have hrest := ih hlength
          rw [List.zipWith_cons_cons, List.map_cons, List.map_cons, hrest]

theorem length_stubBodies (cq : Bool) :
    (blockingFunctions m cq).length ≤ (stubBodies m).blocking.length ∧
      (callbackFunctions m).length ≤ (stubBodies m).callback.length ∧
      (asyncFunctions m cq).length ≤ (stubBodies m).async.length := by
  obtain ⟨name, input, output, client, server, location⟩ := m
  cases client <;> cases server <;> cases cq <;>
    exact ⟨Nat.le_of_ble_eq_true rfl, Nat.le_of_ble_eq_true rfl, Nat.le_of_ble_eq_true rfl⟩

theorem stubFunctions_perm (cq : Bool) :
    (blockingFunctions m cq ++ asyncFunctions m cq).Perm
      (unaryFunctions m ++ (rawFunctions m "" cq).map RawFunction.signature) := by
  rw [blockingFunctions, asyncFunctions]
  split
  · exact (List.reverse_perm _).append_left _
  case isFalse hstream =>
      rw [unaryFunctions, if_neg hstream, List.nil_append, List.take_append_drop]

theorem stubDefinitions_perm (cq : Bool) :
    ((stubDefinitions m cq).map fun f => (f.scope, f.signature)).Perm
      ((unaryFunctions m ++ (rawFunctions m "" cq).map RawFunction.signature).map
          (Prod.mk "::Stub::") ++ (callbackFunctions m).map (Prod.mk "::Stub::async::")) := by
  obtain ⟨hblocking, hcallback, hasync⟩ := length_stubBodies m cq
  rw [stubDefinitions, List.map_append, List.map_append, zipWith_pair hblocking,
    zipWith_pair hcallback, zipWith_pair hasync, List.append_assoc]
  refine (List.perm_append_comm.append_left _).trans ?_
  rw [← List.append_assoc, ← List.map_append]
  exact ((stubFunctions_perm m cq).map _).append_right _

set_option maxRecDepth 2000 in
attribute [local simp] toList_literal lit Write.chars Span.chars commas asyncVersions
  Method.noStreaming Method.clientOnlyStreaming Method.serverOnlyStreaming Method.bidiStreaming
  Argument.definition Signature.definition RawFunction.signature contextArgument cqArgument
  requestReference requestPointer responsePointer unaryFunctions streamFunctions rawFunctions
  callbackFunctions blockingFunctions asyncFunctions stubDefinitions stubBodies unaryBodies
  streamBodies handOn messageLites Definition.texts in
theorem texts_printSourceClientMethod (packageName nsText prefixText serviceName : Text)
    (params : Parameters) (i d : ℕ) :
    texts (sourceMethodEnv packageName nsText prefixText serviceName i) d
      (printSourceClientMethod m params) =
      (stubDefinitions m params.allowCqApi).flatMap
        (Definition.texts (nsText ++ serviceName)) := by
  obtain ⟨name, input, output, client, server, location⟩ := m
  obtain ⟨_, _, _, _, _, _, _, _, _, cq, _⟩ := params
  cases client <;> cases server <;> cases cq <;> refine (texts_of_run rfl).trans ?_ <;>
    simp [-String.reduceToList]

end Stub

/-! ### The base class -/

def serverContextArgument : Argument :=
  { type := lit "::grpc::ServerContext*", name := lit "context" }

def serverArguments (m : Method) : List Argument :=
  if m.noStreaming then [requestPointer m, responsePointer m]
  else if m.clientOnlyStreaming then
    [{ type := lit "::grpc::ServerReader< " ++ m.inputTypeName ++ lit ">*", name := lit "reader" },
      responsePointer m]
  else if m.serverOnlyStreaming then
    [requestPointer m,
      { type := lit "::grpc::ServerWriter< " ++ m.outputTypeName ++ lit ">*"
        name := lit "writer" }]
  else if m.bidiStreaming then
    [{ type := lit "::grpc::ServerReaderWriter< " ++ m.outputTypeName ++ lit ", " ++
        m.inputTypeName ++ lit ">*", name := lit "stream" }]
  else []

def serverFunction (m : Method) : Signature :=
  { result := lit "::grpc::Status"
    name := m.name
    arguments := serverContextArgument :: serverArguments m }

section Server

variable (m : Method) (params : Parameters)

/-- The definition of the synchronous version of a method; without the synchronous API it
aborts. -/
def serverDefinition (serviceName : Text) : List Text :=
  [(serverFunction m).definition (serviceName ++ lit "::Service::")] ++
    (if params.allowSyncServerApi then [] else [lit "  abort();\n"]) ++
    (serverFunction m).arguments.map (fun a => lit "  (void) " ++ a.name ++ lit ";\n") ++
    [lit "  return ::grpc::Status(::grpc::StatusCode::UNIMPLEMENTED, \"\");\n", lit "\x7d\n\n"]

set_option maxRecDepth 2000 in
attribute [local simp] toList_literal lit Write.chars Span.chars commas Method.noStreaming
  Method.clientOnlyStreaming Method.serverOnlyStreaming Method.bidiStreaming
  Argument.definition Signature.definition requestPointer responsePointer serverContextArgument
  serverArguments serverFunction serverDefinition in
theorem texts_printSourceServerMethod (packageName nsText prefixText serviceName : Text)
    (i d : ℕ) :
    texts (sourceMethodEnv packageName nsText prefixText serviceName i) d
      (printSourceServerMethod m params) = serverDefinition m params (nsText ++ serviceName) := by
  obtain ⟨name, input, output, client, server, location⟩ := m
  obtain ⟨_, _, _, _, _, _, _, _, sync, _, _⟩ := params
  cases client <;> cases server <;> cases sync <;> refine (texts_of_run rfl).trans ?_ <;>
    simp [-String.reduceToList]

end Server

/-! ### The table of names -/

section Table

def nameEntry (prefixText serviceName : Text) (i : ℕ) : Text :=
  prefixText ++ serviceName ++ lit "_method_names[" ++ asString i ++ [']']

def methodPath (packageName serviceName : Text) (m : Method) : Text :=
  '/' :: packageName ++ serviceName ++ '/' :: m.name

/-- There is a table when there is a method. -/
def nameTable (packageName prefixText : Text) (s : Service) : List Text :=
  if s.methods.isEmpty then []
  else
    [lit "static const char* " ++ prefixText ++ s.name ++ lit "_method_names[] = \x7b\n"] ++
      s.methods.map (fun m => lit "  \"" ++ methodPath packageName s.name m ++ lit "\",\n") ++
      [lit "\x7d;\n\n"]

def stubMember (prefixText serviceName : Text) (i : ℕ) (m : Method) : Text :=
  lit ", rpcmethod_" ++ m.name ++ lit "_(" ++ nameEntry prefixText serviceName i ++
    lit ", options.suffix_for_stats(),::grpc::internal::RpcMethod::" ++ lit (streamingTypeName m) ++
    lit ", channel)\n"

/-- The class of a handler, with the message types it is instantiated with by default. -/
def handlerClass (m : Method) : String × String :=
  if m.noStreaming then ("RpcMethodHandler",
    ", ::grpc::protobuf::MessageLite, ::grpc::protobuf::MessageLite")
  else if m.clientOnlyStreaming then ("ClientStreamingHandler", "")
  else if m.serverOnlyStreaming then ("ServerStreamingHandler", "")
  else ("BidiStreamingHandler", "")

/-- A handler has short names for the messages, and blanks of its own in their types. -/
def handlerArguments (m : Method) : List Argument :=
  let req : Argument := { type := lit "const " ++ m.inputTypeName ++ ['*'], name := lit "req" }
  let resp : Argument := { type := m.outputTypeName ++ ['*'], name := lit "resp" }
  if m.noStreaming then [req, resp]
  else if m.clientOnlyStreaming then
    [{ type := lit "::grpc::ServerReader<" ++ m.inputTypeName ++ lit ">*", name := lit "reader" },
      resp]
  else if m.serverOnlyStreaming then
    [req,
      { type := lit "::grpc::ServerWriter<" ++ m.outputTypeName ++ lit ">*", name := lit "writer" }]
  else if m.bidiStreaming then
    [{ type := lit "::grpc::ServerReaderWriter<" ++ m.outputTypeName ++ lit ",\n           " ++
        m.inputTypeName ++ lit ">*", name := lit "stream" }]
  else []

def handler (nsText prefixText serviceName : Text) (i : ℕ) (m : Method) : Text :=
  lit "AddMethod(new ::grpc::internal::RpcServiceMethod(\n    " ++
    nameEntry prefixText serviceName i ++ lit ",\n    ::grpc::internal::RpcMethod::" ++
    lit (streamingTypeName m) ++ lit ",\n    new ::grpc::internal::" ++ lit (handlerClass m).1 ++
    lit "< " ++ nsText ++ serviceName ++ lit "::Service, " ++ m.inputTypeName ++ lit ", " ++
    m.outputTypeName ++ lit (handlerClass m).2 ++ lit ">(\n        [](" ++ nsText ++ serviceName ++
    lit "::Service* service,\n           ::grpc::ServerContext* ctx" ++
    (handlerArguments m).flatMap (fun a => lit ",\n           " ++ a.definition) ++
    lit ") \x7b\n             return service->" ++ m.name ++ lit "(ctx" ++
    (handlerArguments m).flatMap (fun a => lit ", " ++ a.name) ++
    lit ");\n           \x7d, this)));\n"

variable (packageName nsText prefixText serviceName : Text) (s : Service) (m : Method) (i d : ℕ)

set_option maxRecDepth 2000 in
attribute [local simp] toList_literal lit Write.chars Span.chars nameEntry handlerClass
  streamingTypeName handlerArguments Argument.definition Method.noStreaming
  Method.clientOnlyStreaming Method.serverOnlyStreaming Method.bidiStreaming in
theorem texts_sourceHandler :
    texts (sourceServiceEnv packageName nsText prefixText serviceName) d (sourceHandler i m) =
      [handler nsText prefixText serviceName i m] := by
  obtain ⟨name, input, output, client, server, location⟩ := m
  unfold handler
  cases client <;> cases server <;> refine (texts_of_run rfl).trans ?_ <;>
    simp [-String.reduceToList]

attribute [local simp] lit Write.chars Span.chars nameEntry in
theorem texts_sourceStubMember :
    texts (sourceServiceEnv packageName nsText prefixText serviceName) d (sourceStubMember i m) =
      [stubMember prefixText serviceName i m] := by
  refine (texts_of_run rfl).trans ?_
  simp [-String.reduceToList, stubMember, toList_literal]

theorem texts_sourceMethodNames :
    texts (sourceServiceEnv packageName nsText prefixText s.name) d (sourceMethodNames s) =
      nameTable packageName prefixText s := by
  rw [sourceMethodNames, nameTable]
  cases s.methods.isEmpty with
  | true => rfl
  | false =>
      have hentry (m : Method) : Closed (sourceServiceEnv packageName nsText prefixText s.name)
          [.set method m.name, .print ["  \"/", package, service, "/", method, "\",\n"]] :=
        .of_run (fun _ => ⟨_, _, rfl⟩) rfl
      have hentries := closed_forMethods (s := s) fun _ m _ => hentry m
      have hhead : Closed (sourceServiceEnv packageName nsText prefixText s.name)
          [.print ["static const char* ", servicePrefix, service, "_method_names[] = \x7b\n"]] :=
        .of_run (fun _ => ⟨_, _, rfl⟩) rfl
      have hheadText : texts (sourceServiceEnv packageName nsText prefixText s.name) d
          [.print ["static const char* ", servicePrefix, service, "_method_names[] = \x7b\n"]] =
          [lit "static const char* " ++ prefixText ++ s.name ++
            lit "_method_names[] = \x7b\n"] := by
        refine (texts_of_run rfl).trans ?_
        simp [-String.reduceToList, Write.chars, Span.chars, lit]
      rw [when, Bool.not_false, if_pos rfl, if_neg Bool.false_ne_true,
        texts_append (hhead.append hentries) (closed_print _ _), texts_append hhead hentries,
        texts_forMethods hentry, texts_print, List.map_eq_flatMap, hheadText]
      congr 2
      refine List.flatMap_congr fun m _ => (texts_of_run rfl).trans ?_
      simp [-String.reduceToList, toList_literal, Write.chars, Span.chars, methodPath, lit]

theorem texts_forMethods_map {β : Env Var} {d : ℕ} {body : ℕ → Method → Program}
    (read : ℕ → Method → Text) (h : ∀ i m, Closed β (body i m))
    (hbody : ∀ i m, texts β d (body i m) = [read i m]) :
    texts β d (forMethods s body) = s.methods.zipIdx.map fun p => read p.2 p.1 := by
  rw [forMethods, texts_flatMap fun p _ => h p.2 p.1, List.map_eq_flatMap]
  exact List.flatMap_congr fun p _ => hbody p.2 p.1

theorem texts_forMethods_read {β : Env Var} {d : ℕ} {body : Method → Program}
    {read : Method → List Text} (hidx : β idx = none)
    (h : ∀ i m, Closed (Function.update β idx (some (asString i))) (body m))
    (hbody : ∀ i m, texts (Function.update β idx (some (asString i))) d (body m) = read m) :
    texts β d (forMethods s fun i m => .set idx (asString i) :: body m) =
      s.methods.flatMap read := by
  rw [texts_forMethods_idx hidx h, ← flatMap_zipIdx_fst read]
  exact List.flatMap_congr fun p _ => hbody p.2 p.1

end Table

/-! ### A service -/

section Service

variable (file : File) (params : Parameters) (s : Service)

/-- How a stub is made: what makes one, and the constructor with a member for each method. -/
def stubConstructor : List Text :=
  let name := namespaceQualifier params ++ s.name
  [lit "std::unique_ptr< " ++ name ++ lit "::Stub> " ++ name ++
      lit "::NewStub(const std::shared_ptr< ::grpc::ChannelInterface>& channel, const " ++
      lit "::grpc::StubOptions& options) \x7b\n  (void)options;\n  std::unique_ptr< " ++ name ++
      lit "::Stub> stub(new " ++ name ++ lit "::Stub(channel, options));\n  return stub;\n\x7d\n\n",
    name ++ lit "::Stub::Stub(const std::shared_ptr< ::grpc::ChannelInterface>& channel, " ++
      lit "const ::grpc::StubOptions& options)\n",
    lit ": channel_(channel)"] ++
  s.methods.zipIdx.map (fun p => stubMember params.servicesNamespace s.name p.2 p.1) ++
  [lit "\x7b\x7d\n\n"]

def serviceConstructor : List Text :=
  let name := namespaceQualifier params ++ s.name
  [name ++ lit "::Service::Service() \x7b\n"] ++
  s.methods.zipIdx.map
    (fun p => handler (namespaceQualifier params) params.servicesNamespace s.name p.2 p.1) ++
  [lit "\x7d\n\n"]

def sourceText : List Text :=
  let name := namespaceQualifier params ++ s.name
  nameTable (qualifier file) params.servicesNamespace s ++
  stubConstructor params s ++
  s.methods.flatMap
    (fun m => (stubDefinitions m params.allowCqApi).flatMap (Definition.texts name)) ++
  serviceConstructor params s ++
  [name ++ lit "::Service::~Service() \x7b\n\x7d\n\n"] ++
  s.methods.flatMap (fun m => serverDefinition m params name)

theorem texts_sourceStub :
    texts (sourceServiceEnv (qualifier file) (namespaceQualifier params) params.servicesNamespace
      s.name) 0 (sourceStub s) = stubConstructor params s := by
  obtain ⟨ws, hprints, htexts⟩ := prints_sourceStub s (qualifier file) (namespaceQualifier params)
    params.servicesNamespace s.name 0
  rw [texts, hprints.written_eq, htexts, texts_forMethods_map s
    (stubMember params.servicesNamespace s.name) (fun i m => closed_sourceStubMember m)
    (fun i m => texts_sourceStubMember _ _ _ _ m i _)]
  simp only [stubConstructor, List.append_assoc]

theorem texts_sourceServiceConstructor :
    texts (sourceServiceEnv (qualifier file) (namespaceQualifier params) params.servicesNamespace
      s.name) 0 (sourceServiceConstructor s) = serviceConstructor params s ++
        [namespaceQualifier params ++ s.name ++ lit "::Service::~Service() \x7b\n\x7d\n\n"] := by
  obtain ⟨ws, hprints, htexts⟩ := prints_sourceServiceConstructor s (qualifier file)
    (namespaceQualifier params) params.servicesNamespace s.name 0
  rw [texts, hprints.written_eq, htexts, texts_forMethods_map s
    (handler (namespaceQualifier params) params.servicesNamespace s.name)
    (fun i m => closed_sourceHandler m) (fun i m => texts_sourceHandler _ _ _ _ m i _)]
  simp only [serviceConstructor, List.append_assoc]
  rfl

theorem texts_printSourceService :
    texts (sourceEnv (qualifier file) (namespaceQualifier params) params.servicesNamespace) 0
      (printSourceService s params) = sourceText file params s := by
  have hclient : texts (sourceServiceEnv (qualifier file) (namespaceQualifier params)
      params.servicesNamespace s.name) 0
      (forMethods s fun i m => .set idx (asString i) :: printSourceClientMethod m params) =
      s.methods.flatMap fun m => (stubDefinitions m params.allowCqApi).flatMap
        (Definition.texts (namespaceQualifier params ++ s.name)) :=
    texts_forMethods_read s rfl (fun i m => closed_printSourceClientMethod m params)
      fun i m => texts_printSourceClientMethod m _ _ _ s.name params i 0
  have hserver : texts (sourceServiceEnv (qualifier file) (namespaceQualifier params)
      params.servicesNamespace s.name) 0
      (forMethods s fun i m => .set idx (asString i) :: printSourceServerMethod m params) =
      s.methods.flatMap fun m => serverDefinition m params (namespaceQualifier params ++ s.name) :=
    texts_forMethods_read s rfl (fun i m => closed_printSourceServerMethod m params)
      fun i m => texts_printSourceServerMethod m params _ _ _ s.name i 0
  rw [texts, (prints_printSourceService s params 0).written_eq, List.map_flatMap]
  show (sourceParts s params).flatMap (texts (sourceServiceEnv (qualifier file)
    (namespaceQualifier params) params.servicesNamespace s.name) 0) = _
  simp only [sourceParts, List.flatMap_cons, List.flatMap_nil, hclient, hserver,
    texts_sourceMethodNames, texts_sourceStub, texts_sourceServiceConstructor, sourceText,
    List.append_assoc, List.append_nil]

end Service

/-! ### The whole file -/

section File

variable (file : File) (params : Parameters)

/-- The source file is the texts of its services, each followed by an empty line. -/
theorem textsOf_source : textsOf (getSourceServices file params) =
    (file.content.services.flatMap fun s => sourceText file params s ++ [lit "\n"]).map tight := by
  rw [getSourceServices, textsOf_singleton (prints_sourceServices _ _ _), tightTexts,
    List.map_flatMap, List.map_flatMap]
  refine List.flatMap_congr fun s _ => ?_
  rw [← texts_printSourceService, List.map_append, List.map_append, texts, List.map_map]
  rfl

/-- What a service needs defined elsewhere than in the class, with the class it is in. -/
def stubMembers (s : Service) : List (String × Signature) :=
  (s.methods.flatMap unaryFunctions).map (Prod.mk "::Stub::") ++
    (s.methods.flatMap callbackFunctions).map (Prod.mk "::Stub::async::") ++
    (rawSignatures s params "").map (Prod.mk "::Stub::")

theorem map_snd_stubMembers (s : Service) :
    (stubMembers params s).map Prod.snd = stubFunctions s "" params.allowCqApi := by
  have hsnd (scope : String) (sigs : List Signature) :
      (sigs.map (Prod.mk scope)).map Prod.snd = sigs := by
    rw [List.map_map]
    exact List.map_id sigs
  rw [stubMembers, List.map_append, List.map_append, hsnd, hsnd, hsnd]
  rfl

theorem definitions_perm (s : Service) :
    (s.methods.flatMap fun m => (stubDefinitions m params.allowCqApi).map fun f =>
      (f.scope, f.signature)).Perm (stubMembers params s) := by
  have hmethods := List.Perm.flatMap_left s.methods fun m _ =>
    stubDefinitions_perm m params.allowCqApi
  have hclasses := (List.flatMap_append_perm s.methods
    (fun m => (unaryFunctions m ++ (rawFunctions m "" params.allowCqApi).map
      RawFunction.signature).map (Prod.mk "::Stub::"))
    fun m => (callbackFunctions m).map (Prod.mk "::Stub::async::")).symm
  have hstub := (List.flatMap_append_perm s.methods unaryFunctions fun m =>
    (rawFunctions m "" params.allowCqApi).map RawFunction.signature).symm
  refine (hmethods.trans hclasses).trans ?_
  rw [← List.map_flatMap, ← List.map_flatMap]
  refine ((hstub.map (Prod.mk "::Stub::")).append_right _).trans ?_
  rw [List.map_append, stubMembers, List.append_assoc, List.append_assoc]
  exact List.perm_append_comm.append_left _

/-- In the source file of every file, for each service: the functions that class `Stub` and its
callback class declare are defined, each once and with its signature, and with the constructor
they are all that is defined of them. -/
theorem stub_is_defined :
    textsOf (getSourceServices file params) =
        (file.content.services.flatMap fun s => sourceText file params s ++ [lit "\n"]).map tight ∧
      ∀ s ∈ file.content.services,
        (stubClass s params).map tight <:+: textsOf (getHeaderServices file params) ∧
        ((stubClass s params).map tight).filter isDeclared =
          ((stubMembers params s).map fun f => f.2.override).map tight ∧
        (s.methods.flatMap fun m => (stubDefinitions m params.allowCqApi).map fun f =>
          (f.scope, f.signature)).Perm (stubMembers params s) := by
  refine ⟨textsOf_source file params, fun s hs => ⟨infix_stubClass file params hs, ?_,
    definitions_perm params s⟩⟩
  rw [filter_isDeclared, ← map_snd_stubMembers, List.map_map (f := Prod.snd)]
  rfl

theorem stub_is_defined_orders :
    (orders.methods.flatMap fun m => (stubDefinitions m true).map fun f =>
        (f.scope, f.signature)).Perm (stubMembers {} orders) ∧
      (((stubClass orders {}).map tight).filter isDeclared).length = 17 := by
  obtain ⟨-, hservices⟩ := stub_is_defined ordersFile {}
  obtain ⟨-, hdeclared, hperm⟩ := hservices orders (List.mem_cons_of_mem _ List.mem_cons_self)
  exact ⟨hperm, by rw [hdeclared]; rfl⟩

theorem infix_sourceText {s : Service} (hs : s ∈ file.content.services) :
    (sourceText file params s).map tight <:+: textsOf (getSourceServices file params) := by
  rw [textsOf_source]
  exact ((List.prefix_append _ _).isInfix.trans
    (infix_flatMap (fun s => sourceText file params s ++ [lit "\n"]) hs)).map tight

theorem getElem?_middle {α : Type} {a b c : List α} {i : ℕ} {x : α} (h : b[i]? = some x) :
    (a ++ b ++ c)[a.length + i]? = some x := by
  obtain ⟨hlt, -⟩ := List.getElem?_eq_some_iff.mp h
  rw [List.append_assoc, List.getElem?_append_right (Nat.le_add_right _ _),
    Nat.add_sub_cancel_left, List.getElem?_append_left hlt, h]

theorem getElem?_zipIdx_map {α β : Type} {f : α × ℕ → β} {xs : List α} {i : ℕ} {x : α}
    (h : xs[i]? = some x) : (xs.zipIdx.map f)[i]? = some (f (x, i)) := by
  simp [h]

/-- In the source file of every file, for each service: at the place of a method in the table
stands its path, and its member of the stub and its handler, which the constructors have at this
place, both read that place. -/
theorem methods_share_index {s : Service} (hs : s ∈ file.content.services) :
    (nameTable (qualifier file) params.servicesNamespace s ++
        stubConstructor params s).map tight <:+: textsOf (getSourceServices file params) ∧
      (serviceConstructor params s).map tight <:+: textsOf (getSourceServices file params) ∧
      ∀ i m, s.methods[i]? = some m →
        (nameTable (qualifier file) params.servicesNamespace s)[1 + i]? =
          some (lit "  \"" ++ methodPath (qualifier file) s.name m ++ lit "\",\n") ∧
        (stubConstructor params s)[3 + i]? =
          some (stubMember params.servicesNamespace s.name i m) ∧
        (serviceConstructor params s)[1 + i]? = some
          (handler (namespaceQualifier params) params.servicesNamespace s.name i m) := by
  refine ⟨?_, ?_, fun i m hm => ⟨?_, getElem?_middle (getElem?_zipIdx_map hm),
    getElem?_middle (getElem?_zipIdx_map hm)⟩⟩
  · refine List.IsInfix.trans (List.IsInfix.map tight ?_) (infix_sourceText file params hs)
    simp only [sourceText, List.append_assoc]
    exact (List.prefix_append_right_inj _ |>.mpr (List.prefix_append _ _)).isInfix
  · refine List.IsInfix.trans (List.IsInfix.map tight ?_) (infix_sourceText file params hs)
    simp only [sourceText, List.append_assoc]
    have hrest {a b c d : List Text} : d <:+ a ++ (b ++ (c ++ d)) :=
      (List.suffix_append c d).trans ((List.suffix_append b _).trans (List.suffix_append a _))
    exact (List.prefix_append _ _).isInfix.trans hrest.isInfix
  · have hmethods : s.methods.isEmpty = false := by
      cases hempty : s.methods with
      | nil => simp [hempty] at hm
      | cons m methods => rfl
    rw [nameTable, hmethods, if_neg Bool.false_ne_true]
    exact getElem?_middle (by simp [hm])

theorem methods_share_index_orders :
    (serviceConstructor {} orders).map tight <:+: textsOf (getSourceServices ordersFile {}) ∧
      (nameTable (lit "orders.") [] orders)[2]? = some (lit "  \"/orders.Orders/Watch\",\n") ∧
      (stubConstructor {} orders)[4]? = some (stubMember [] (lit "Orders") 1 watch) ∧
      (serviceConstructor {} orders)[2]? = some (handler [] [] (lit "Orders") 1 watch) := by
  have horders : orders ∈ ordersFile.content.services := List.mem_cons_of_mem _ List.mem_cons_self
  obtain ⟨-, hhandlers, hentries⟩ := methods_share_index ordersFile {} horders
  exact ⟨hhandlers, hentries 1 _ rfl⟩

end File

end GrpcM.Plugin
