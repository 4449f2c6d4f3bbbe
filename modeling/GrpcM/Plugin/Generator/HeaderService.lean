import GrpcM.Plugin.Generator.HeaderClient
import GrpcM.Plugin.Generator.HeaderServer

/-!
A service in the header, part by part in the order of the source. Each part returns to the
indentation it starts from and reads the package and the service, no variable of another
part.
-/

namespace GrpcM.Plugin

open GrpcM.Path GrpcM.Templates
open Var hiding filenameIdentifier

/-! ### The parts -/

/-- Client side: the interface of the stub. -/
def headerStubInterface (s : Service) (params : Parameters) : Program :=
  ([.print ["class StubInterface \x7b\n public:\n"],
    .indent,
    .print ["virtual ~StubInterface() \x7b\x7d\n"]] : Program) ++
  (forMethods s fun _ m =>
    printText (m.getLeadingComments slashes) ++
    printHeaderClientMethodInterfaces m params true ++
    printText (m.getTrailingComments slashes)) ++
  printHeaderClientMethodCallbackInterfacesStart ++
  (forMethods s fun _ m =>
    printText (m.getLeadingComments slashes) ++
    printHeaderClientMethodCallbackInterfaces m ++
    printText (m.getTrailingComments slashes)) ++
  printHeaderClientMethodCallbackInterfacesEnd ++
  ([.outdent,
    .print [" private:\n"],
    .indent] : Program) ++
  (forMethods s fun _ m => printHeaderClientMethodInterfaces m params false) ++
  ([.outdent,
    .print ["\x7d;\n"]] : Program)

def headerStub (s : Service) (params : Parameters) : Program :=
  ([.print ["class Stub final : public StubInterface \x7b\n public:\n"],
    .indent,
    .print ["Stub(const std::shared_ptr< ::grpc::ChannelInterface>& channel, const ",
           "::grpc::StubOptions& options = ::grpc::StubOptions());\n"]] : Program) ++
  (forMethods s fun _ m => printHeaderClientMethod m params true) ++
  printHeaderClientMethodCallbackStart ++
  (forMethods s fun _ m => printHeaderClientMethodCallback m) ++
  printHeaderClientMethodCallbackEnd ++
  ([.outdent,
    .print ["\n private:\n"],
    .indent,
    .print ["std::shared_ptr< ::grpc::ChannelInterface> channel_;\n"],
    .print ["class async async_stub_\x7bthis\x7d;\n"]] : Program) ++
  (forMethods s fun _ m => printHeaderClientMethod m params false) ++
  (forMethods s fun _ m => printHeaderClientMethodData m) ++
  ([.outdent,
    .print ["\x7d;\n"],
    .print ["static std::unique_ptr<Stub> NewStub(const std::shared_ptr< ",
           "::grpc::ChannelInterface>& channel, const ::grpc::StubOptions& options = ",
           "::grpc::StubOptions());\n"],
    .print ["\n"]] : Program)

def headerServerBase (s : Service) (params : Parameters) : Program :=
  ([.print ["class Service : public ::grpc::Service \x7b\n public:\n"],
    .indent,
    .print ["Service();\n"],
    .print ["virtual ~Service();\n"]] : Program) ++
  (forMethods s fun _ m => printHeaderServerMethodSync m params) ++
  ([.outdent,
    .print ["\x7d;\n"]] : Program)

def headerServerAsync (s : Service) (params : Parameters) : Program :=
  (forMethods s fun i m => .set idx (asString i) :: printHeaderServerMethodAsync m params) ++
  ([.print ["typedef "]] : Program) ++
  (forMethods s fun _ m =>
    [.set methodName m.name, .print ["WithAsyncMethod_", methodName, "<"]]) ++
  ([.print ["Service"]] : Program) ++
  (forMethods s fun _ _ => [.print [" >"]]) ++
  ([.print [" AsyncService;\n"]] : Program)

def headerServerCallback (s : Service) (params : Parameters) : Program :=
  (forMethods s fun i m => .set idx (asString i) :: printHeaderServerMethodCallback m params) ++
  ([.print ["typedef "]] : Program) ++
  (forMethods s fun _ m =>
    [.set methodName m.name, .print ["WithCallbackMethod_", methodName, "<"]]) ++
  ([.print ["Service"]] : Program) ++
  (forMethods s fun _ _ => [.print [" >"]]) ++
  ([.print [" CallbackService;\n"],
    .print ["typedef CallbackService ExperimentalCallbackService;\n"]] : Program)

def headerServerRaw (s : Service) (params : Parameters) : Program :=
  (forMethods s fun i m => .set idx (asString i) :: printHeaderServerMethodGeneric m params) ++
  when params.allowCqApi
    (forMethods s fun i m => .set idx (asString i) :: printHeaderServerMethodRaw m params) ++
  (forMethods s fun i m =>
    .set idx (asString i) :: printHeaderServerMethodRawCallback m params)

/-- Server side: streamed unary, controlled server-side streaming, and both. -/
def headerServerStreamed (s : Service) : Program :=
  (forMethods s fun i m => .set idx (asString i) :: printHeaderServerMethodStreamedUnary m) ++
  ([.print ["typedef "]] : Program) ++
  (forMethods s fun _ m =>
    .set methodName m.name ::
    when m.noStreaming [.print ["WithStreamedUnaryMethod_", methodName, "<"]]) ++
  ([.print ["Service"]] : Program) ++
  (forMethods s fun _ m => when m.noStreaming [.print [" >"]]) ++
  ([.print [" StreamedUnaryService;\n"]] : Program) ++
  (forMethods s fun i m => .set idx (asString i) :: printHeaderServerMethodSplitStreaming m) ++
  ([.print ["typedef "]] : Program) ++
  (forMethods s fun _ m =>
    .set methodName m.name ::
    when m.serverOnlyStreaming [.print ["WithSplitStreamingMethod_", methodName, "<"]]) ++
  ([.print ["Service"]] : Program) ++
  (forMethods s fun _ m => when m.serverOnlyStreaming [.print [" >"]]) ++
  ([.print [" SplitStreamedService;\n"],
    .print ["typedef "]] : Program) ++
  (forMethods s fun _ m =>
    .set methodName m.name ::
    (when m.serverOnlyStreaming [.print ["WithSplitStreamingMethod_", methodName, "<"]] ++
    when m.noStreaming [.print ["WithStreamedUnaryMethod_", methodName, "<"]])) ++
  ([.print ["Service"]] : Program) ++
  (forMethods s fun _ m => when (m.noStreaming || m.serverOnlyStreaming) [.print [" >"]]) ++
  ([.print [" StreamedService;\n"]] : Program)

def printHeaderService (s : Service) (params : Parameters) : Program :=
  .set service s.name ::
  (printText (s.getLeadingComments slashes) ++
  (if params.allowDeprecated && s.deprecated then
    [.print ["class [[deprecated]] ", service, " final \x7b\n public:\n"]]
  else
    [.print ["class ", service, " final \x7b\n public:\n"]]) ++
  ([.indent,
    .print ["static constexpr char const* service_full_name() \x7b\n  return \"", package, service,
           "\";\n\x7d\n"]] : Program) ++
  headerStubInterface s params ++
  headerStub s params ++
  headerServerBase s params ++
  when params.allowCqApi (headerServerAsync s params) ++
  headerServerCallback s params ++
  headerServerRaw s params ++
  when params.allowSyncServerApi (headerServerStreamed s) ++
  ([.outdent,
    .print ["\x7d;\n"]] : Program) ++
  printText (s.getTrailingComments slashes))

/-! ### The parts are closed -/

section Closed

variable {packageName serviceName : Text} {outer : Option Text} (s : Service) (params : Parameters)

theorem closed_forMethods_idx {body : Method → Program}
    (h : ∀ i m, Closed (methodEnv packageName outer serviceName i) (body m)) :
    Closed (serviceEnv packageName outer serviceName)
      (forMethods s fun i m => .set idx (asString i) :: body m) :=
  closed_forMethods fun i m _ => .set rfl (h i m)

/-- A loop that sets `method_name` and prints at most some templates with it. -/
theorem closed_forMethods_name {body : Method → Program}
    (h : ∀ m, Closed (Function.update (serviceEnv packageName outer serviceName) methodName
      (some m.name)) (body m)) :
    Closed (serviceEnv packageName outer serviceName)
      (forMethods s fun _ m => .set methodName m.name :: body m) :=
  closed_forMethods fun _ m _ => .set rfl (h m)

theorem prints_headerStubInterface (packageName serviceName : Text) (outer : Option Text)
    (d : ℕ) : ∃ ws : List (Write Var),
    Prints (serviceEnv packageName outer serviceName) d d (headerStubInterface s params) ws ∧
    ws.map Write.chars =
      [lit "class StubInterface \x7b\n public:\n", lit "virtual ~StubInterface() \x7b\x7d\n"] ++
      texts (serviceEnv packageName outer serviceName) (d + 1) (forMethods s fun _ m =>
        printText (m.getLeadingComments slashes) ++
        printHeaderClientMethodInterfaces m params true ++
        printText (m.getTrailingComments slashes)) ++
      [lit "class async_interface \x7b\n", lit " public:\n",
        lit "virtual ~async_interface() \x7b\x7d\n"] ++
      texts (serviceEnv packageName outer serviceName) (d + 2) (forMethods s fun _ m =>
        printText (m.getLeadingComments slashes) ++
        printHeaderClientMethodCallbackInterfaces m ++
        printText (m.getTrailingComments slashes)) ++
      [lit "\x7d;\n", lit "typedef class async_interface experimental_async_interface;\n",
        lit "virtual class async_interface* async() \x7b return nullptr; \x7d\n",
        lit "class async_interface* experimental_async() \x7b return async(); \x7d\n",
        lit " private:\n"] ++
      texts (serviceEnv packageName outer serviceName) (d + 1)
        (forMethods s fun _ m => printHeaderClientMethodInterfaces m params false) ++
      [lit "\x7d;\n"] := by
  have hpublic : Closed (serviceEnv packageName outer serviceName) (forMethods s fun _ m =>
      printText (m.getLeadingComments slashes) ++
      printHeaderClientMethodInterfaces m params true ++
      printText (m.getTrailingComments slashes)) :=
    closed_forMethods fun _ m _ => ((closed_comments _ _ _).append
      (closed_printHeaderClientMethodInterfaces m params true)).append (closed_comments _ _ _)
  have hcallback : Closed (serviceEnv packageName outer serviceName) (forMethods s fun _ m =>
      printText (m.getLeadingComments slashes) ++ printHeaderClientMethodCallbackInterfaces m ++
      printText (m.getTrailingComments slashes)) :=
    closed_forMethods fun _ m _ => ((closed_comments _ _ _).append
      (closed_printHeaderClientMethodCallbackInterfaces m)).append (closed_comments _ _ _)
  have hprivate : Closed (serviceEnv packageName outer serviceName) (forMethods s fun _ m =>
      printHeaderClientMethodInterfaces m params false) :=
    closed_forMethods fun _ m _ => closed_printHeaderClientMethodInterfaces m params false
  exact ⟨_, .append (.append (.append (.append (.append (.append (.append
    (.straight rfl rfl) (hpublic (d + 1))) (.straight rfl rfl)) (hcallback (d + 2)))
    (.straight rfl rfl)) (.straight rfl rfl)) (hprivate (d + 1))) (.straight rfl rfl),
    by simp [-String.reduceToList, texts, Write.chars, Span.chars, lit]⟩

theorem prints_headerStub (packageName serviceName : Text) (outer : Option Text)
    (d : ℕ) : ∃ ws : List (Write Var),
    Prints (serviceEnv packageName outer serviceName) d d (headerStub s params) ws ∧
    ws.map Write.chars =
      [lit "class Stub final : public StubInterface \x7b\n public:\n",
        lit "Stub(const std::shared_ptr< ::grpc::ChannelInterface>& channel, const " ++
          lit "::grpc::StubOptions& options = ::grpc::StubOptions());\n"] ++
      texts (serviceEnv packageName outer serviceName) (d + 1)
        (forMethods s fun _ m => printHeaderClientMethod m params true) ++
      [lit "class async final :\n", lit "  public StubInterface::async_interface \x7b\n",
        lit " public:\n"] ++
      texts (serviceEnv packageName outer serviceName) (d + 2)
        (forMethods s fun _ m => printHeaderClientMethodCallback m) ++
      [lit " private:\n", lit "friend class Stub;\n",
        lit "explicit async(Stub* stub): stub_(stub) \x7b \x7d\n",
        lit "Stub* stub() \x7b return stub_; \x7d\n", lit "Stub* stub_;\n", lit "\x7d;\n",
        lit "class async* async() override \x7b return &async_stub_; \x7d\n",
        lit "\n private:\n", lit "std::shared_ptr< ::grpc::ChannelInterface> channel_;\n",
        lit "class async async_stub_\x7bthis\x7d;\n"] ++
      texts (serviceEnv packageName outer serviceName) (d + 1)
        (forMethods s fun _ m => printHeaderClientMethod m params false) ++
      texts (serviceEnv packageName outer serviceName) (d + 1)
        (forMethods s fun _ m => printHeaderClientMethodData m) ++
      [lit "\x7d;\n",
        lit "static std::unique_ptr<Stub> NewStub(const std::shared_ptr< " ++
          lit "::grpc::ChannelInterface>& channel, const ::grpc::StubOptions& options = " ++
          lit "::grpc::StubOptions());\n",
        lit "\n"] := by
  have hmethods (isPublic : Bool) : Closed (serviceEnv packageName outer serviceName)
      (forMethods s fun _ m => printHeaderClientMethod m params isPublic) :=
    closed_forMethods fun _ m _ => closed_printHeaderClientMethod m params isPublic
  have hcallback : Closed (serviceEnv packageName outer serviceName) (forMethods s fun _ m =>
      printHeaderClientMethodCallback m) :=
    closed_forMethods fun _ m _ => closed_printHeaderClientMethodCallback m
  have hdata : Closed (serviceEnv packageName outer serviceName) (forMethods s fun _ m =>
      printHeaderClientMethodData m) :=
    closed_forMethods fun _ m _ => closed_printHeaderClientMethodData m
  exact ⟨_, .append (.append (.append (.append (.append (.append (.append
    (.append (.straight rfl rfl) (hmethods true (d + 1))) (.straight rfl rfl))
    (hcallback (d + 2))) (.straight rfl rfl)) (.straight rfl rfl)) (hmethods false (d + 1)))
    (hdata (d + 1))) (.straight rfl rfl),
    by simp [-String.reduceToList, texts, Write.chars, Span.chars, lit]⟩

theorem prints_headerServerBase (packageName serviceName : Text) (outer : Option Text)
    (d : ℕ) : ∃ ws : List (Write Var),
    Prints (serviceEnv packageName outer serviceName) d d (headerServerBase s params) ws ∧
    ws.map Write.chars =
      [lit "class Service : public ::grpc::Service \x7b\n public:\n", lit "Service();\n",
        lit "virtual ~Service();\n"] ++
      texts (serviceEnv packageName outer serviceName) (d + 1)
        (forMethods s fun _ m => printHeaderServerMethodSync m params) ++
      [lit "\x7d;\n"] := by
  have hsync : Closed (serviceEnv packageName outer serviceName) (forMethods s fun _ m =>
      printHeaderServerMethodSync m params) :=
    closed_forMethods fun _ m _ => closed_printHeaderServerMethodSync m params
  exact ⟨_, .append (.append (.straight rfl rfl) (hsync (d + 1))) (.straight rfl rfl),
    by simp [-String.reduceToList, texts, Write.chars, Span.chars, lit]⟩

theorem closed_headerStubInterface :
    Closed (serviceEnv packageName outer serviceName) (headerStubInterface s params) := by
  refine .of_prints fun d => ?_
  obtain ⟨ws, h, -⟩ := prints_headerStubInterface s params packageName serviceName outer d
  exact ⟨ws, h⟩

theorem closed_headerStub :
    Closed (serviceEnv packageName outer serviceName) (headerStub s params) := by
  refine .of_prints fun d => ?_
  obtain ⟨ws, h, -⟩ := prints_headerStub s params packageName serviceName outer d
  exact ⟨ws, h⟩

theorem closed_headerServerBase :
    Closed (serviceEnv packageName outer serviceName) (headerServerBase s params) := by
  refine .of_prints fun d => ?_
  obtain ⟨ws, h, -⟩ := prints_headerServerBase s params packageName serviceName outer d
  exact ⟨ws, h⟩

theorem closed_headerServerAsync :
    Closed (serviceEnv packageName outer serviceName) (headerServerAsync s params) :=
  .append (.append (.append (.append (.append
    (closed_forMethods_idx s fun _ m => closed_printHeaderServerMethodAsync m params)
    (.of_run (fun _ => ⟨_, _, rfl⟩) rfl))
    (closed_forMethods_name s fun _ => .of_run (fun _ => ⟨_, _, rfl⟩) rfl))
    (.of_run (fun _ => ⟨_, _, rfl⟩) rfl))
    (closed_forMethods fun _ _ _ => .of_run (fun _ => ⟨_, _, rfl⟩) rfl))
    (.of_run (fun _ => ⟨_, _, rfl⟩) rfl)

theorem closed_headerServerCallback :
    Closed (serviceEnv packageName outer serviceName) (headerServerCallback s params) :=
  .append (.append (.append (.append (.append
    (closed_forMethods_idx s fun _ m => closed_printHeaderServerMethodCallback m params)
    (.of_run (fun _ => ⟨_, _, rfl⟩) rfl))
    (closed_forMethods_name s fun _ => .of_run (fun _ => ⟨_, _, rfl⟩) rfl))
    (.of_run (fun _ => ⟨_, _, rfl⟩) rfl))
    (closed_forMethods fun _ _ _ => .of_run (fun _ => ⟨_, _, rfl⟩) rfl))
    (.of_run (fun _ => ⟨_, _, rfl⟩) rfl)

theorem closed_headerServerRaw :
    Closed (serviceEnv packageName outer serviceName) (headerServerRaw s params) :=
  .append (.append
    (closed_forMethods_idx s fun _ m => closed_printHeaderServerMethodGeneric m params)
    (closed_when (closed_forMethods_idx s fun _ m => closed_printHeaderServerMethodRaw m params) _))
    (closed_forMethods_idx s fun _ m => closed_printHeaderServerMethodRawCallback m params)

theorem closed_headerServerStreamed :
    Closed (serviceEnv packageName outer serviceName) (headerServerStreamed s) := by
  have hprint (template : Template Var) (hfill : (fill (serviceEnv packageName outer serviceName)
      template).isSome = true) :
      Closed (serviceEnv packageName outer serviceName) [.print template] :=
    .of_prints fun d => ⟨_, .print (Option.some_get hfill).symm⟩
  have hname (m : Method) (b : Bool) (wrapper : String) : Closed (Function.update
      (serviceEnv packageName outer serviceName) methodName (some m.name))
      (when b [.print [wrapper, methodName, "<"]]) :=
    closed_when (.of_run (fun _ => ⟨_, _, rfl⟩) rfl) b
  have hclose (b : Method → Bool) : Closed (serviceEnv packageName outer serviceName)
      (forMethods s fun _ m => when (b m) [.print [" >"]]) :=
    closed_forMethods fun _ m _ => closed_when (hprint _ rfl) _
  have hunary : Closed (serviceEnv packageName outer serviceName) (forMethods s fun i m =>
      .set idx (asString i) :: printHeaderServerMethodStreamedUnary m) :=
    closed_forMethods_idx s fun _ m => closed_printHeaderServerMethodStreamedUnary m
  have hsplit : Closed (serviceEnv packageName outer serviceName) (forMethods s fun i m =>
      .set idx (asString i) :: printHeaderServerMethodSplitStreaming m) :=
    closed_forMethods_idx s fun _ m => closed_printHeaderServerMethodSplitStreaming m
  exact .append (.append (.append (.append (.append (.append (.append (.append (.append (.append
    (.append (.append (.append (.append (.append hunary (hprint _ rfl))
    (closed_forMethods_name s fun m => hname m _ _)) (hprint _ rfl)) (hclose _)) (hprint _ rfl))
    hsplit) (hprint _ rfl)) (closed_forMethods_name s fun m => hname m _ _)) (hprint _ rfl))
    (hclose _)) (.of_run (fun _ => ⟨_, _, rfl⟩) rfl))
    (closed_forMethods_name s fun m => (hname m _ _).append (hname m _ _)))
    (hprint _ rfl)) (hclose _)) (hprint _ rfl)

def headerParts : List Program :=
  [headerStubInterface s params, headerStub s params, headerServerBase s params,
    when params.allowCqApi (headerServerAsync s params), headerServerCallback s params,
    headerServerRaw s params, when params.allowSyncServerApi (headerServerStreamed s)]

theorem closed_headerParts {part : Program} (hpart : part ∈ headerParts s params) :
    Closed (serviceEnv packageName outer serviceName) part := by
  simp only [headerParts, List.mem_cons, List.not_mem_nil, or_false] at hpart
  rcases hpart with rfl | rfl | rfl | rfl | rfl | rfl | rfl
  · exact closed_headerStubInterface s params
  · exact closed_headerStub s params
  · exact closed_headerServerBase s params
  · exact closed_when (closed_headerServerAsync s params) _
  · exact closed_headerServerCallback s params
  · exact closed_headerServerRaw s params
  · exact closed_when (closed_headerServerStreamed s) _

def headerServiceOpening : Program :=
  printText (s.getLeadingComments slashes) ++
  (if params.allowDeprecated && s.deprecated then
    [.print ["class [[deprecated]] ", service, " final \x7b\n public:\n"]]
  else [.print ["class ", service, " final \x7b\n public:\n"]]) ++
  ([.indent, .print ["static constexpr char const* service_full_name() \x7b\n  return \"", package,
     service, "\";\n\x7d\n"]] : Program)

def headerServiceEnding : Program :=
  ([.outdent, .print ["\x7d;\n"]] : Program) ++ printText (s.getTrailingComments slashes)

theorem printHeaderService_eq : printHeaderService s params = .set service s.name ::
    (headerServiceOpening s params ++ (headerParts s params).flatMap id ++
      headerServiceEnding s) := by
  simp only [printHeaderService, headerServiceOpening, headerServiceEnding, headerParts,
    List.flatMap_cons, List.flatMap_nil, id_eq, List.append_assoc, List.append_nil,
    List.cons_append, List.nil_append]

theorem prints_headerServiceOpening (d : ℕ) : ∃ ws, Prints
    (serviceEnv packageName outer serviceName) d (d + 1) (headerServiceOpening s params) ws := by
  have hclass : Closed (serviceEnv packageName outer serviceName)
      (if params.allowDeprecated && s.deprecated then
        [.print ["class [[deprecated]] ", service, " final \x7b\n public:\n"]]
      else [.print ["class ", service, " final \x7b\n public:\n"]]) := by
    split
    · exact .of_run (fun _ => ⟨_, _, rfl⟩) rfl
    · exact .of_run (fun _ => ⟨_, _, rfl⟩) rfl
  exact ⟨_, .append (.append (closed_comments _ _ _ d) (hclass d)) (.straight rfl rfl)⟩

theorem prints_headerServiceEnding (d : ℕ) : ∃ ws, Prints
    (serviceEnv packageName outer serviceName) (d + 1) d (headerServiceEnding s) ws :=
  ⟨_, .append (.straight rfl rfl) (closed_comments _ _ _ d)⟩

theorem prints_printHeaderService (d : ℕ) : ∃ opening ending : List (Write Var),
    Prints (packageEnv packageName outer) d d (printHeaderService s params)
      (opening ++ (headerParts s params).flatMap
        (written (serviceEnv packageName outer s.name) (d + 1)) ++ ending) := by
  have hparts : Prints (serviceEnv packageName outer s.name) (d + 1) (d + 1)
      ((headerParts s params).flatMap id) ((headerParts s params).flatMap
        (written (serviceEnv packageName outer s.name) (d + 1))) :=
    .flatMap fun part hpart => closed_headerParts s params hpart (d + 1)
  obtain ⟨opening, hopening⟩ := prints_headerServiceOpening s params d
  obtain ⟨ending, hending⟩ := prints_headerServiceEnding s d
  have hall := (hopening.append hparts).append hending
  rw [printHeaderService_eq]
  exact ⟨opening, ending, .set rfl hall⟩

/-- A service reads the package and nothing that an earlier service has left. -/
theorem closed_printHeaderService :
    Closed (packageEnv packageName outer) (printHeaderService s params) := by
  refine .of_prints fun d => ?_
  obtain ⟨opening, ending, h⟩ := prints_printHeaderService s params d
  exact ⟨_, h⟩

end Closed

end GrpcM.Plugin
