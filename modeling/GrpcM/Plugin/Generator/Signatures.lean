import Mathlib.Data.List.Forall2
import Mathlib.Data.List.Perm.Basic
import GrpcM.Plugin.Generator.Output

/-!
The functions of a stub. One table of signatures says what a stub offers for a method:
`StubInterface` declares them pure, `Stub` overrides them, the source file defines them and
the mock class mocks them. The generator writes each of the four from templates of its own;
they are readings of the table, up to blanks.
-/

namespace GrpcM.Plugin

open GrpcM.Path GrpcM.Templates
open Var hiding filenameIdentifier

/-- A text without its blanks; the templates space the classes of a bidirectional stream
in three ways. -/
def tight (t : Text) : Text := t.filter (· != ' ')

theorem tight_append (a b : Text) : tight (a ++ b) = tight a ++ tight b := List.filter_append ..

def tightTexts (ws : List (Write Var)) : List Text := ws.map fun w => tight w.chars

/-! ### Signatures -/

/-- An argument without a name in the declaration has one in the definition. -/
structure Argument where
  type : Text
  name : Text
  anonymous : Bool := false

structure Signature where
  result : Text
  name : Text
  arguments : List Argument

def Argument.definition (a : Argument) : Text := a.type ++ ' ' :: a.name

def Argument.declaration (a : Argument) : Text := if a.anonymous then a.type else a.definition

def commas (ts : List Text) : Text := (lit ", ").intercalate ts

namespace Signature

variable (sig : Signature)

def declaration : Text :=
  sig.result ++ ' ' :: sig.name ++ '(' :: commas (sig.arguments.map Argument.declaration) ++ [')']

def pure : Text := lit "virtual " ++ sig.declaration ++ lit " = 0;\n"

def override : Text := sig.declaration ++ lit " override;\n"

def definition (scope : Text) : Text :=
  sig.result ++ ' ' :: scope ++ sig.name ++ '(' ::
    commas (sig.arguments.map Argument.definition) ++ lit ") \x7b\n"

/-- A `MOCK_METHOD` macro has the number of its arguments in its name. -/
def mock : Text :=
  lit "MOCK_METHOD" ++ asString sig.arguments.length ++ '(' :: sig.name ++ lit ", " ++
    sig.result ++ '(' :: commas (sig.arguments.map Argument.declaration) ++ lit "));\n"

end Signature

/-- A private function that gives back a reader or a writer of the class `stream`. -/
structure RawFunction where
  stream : Text
  name : Text
  arguments : List Argument

namespace RawFunction

variable (f : RawFunction)

def signature : Signature :=
  { result := f.stream ++ ['*'], name := f.name ++ lit "Raw", arguments := f.arguments }

/-- The public function that calls it and owns what it gives back. -/
def wrapper : List Text :=
  let owner := lit "std::unique_ptr< " ++ f.stream ++ ['>']
  [owner ++ ' ' :: f.name ++ '(' :: commas (f.arguments.map Argument.declaration) ++
     lit ") \x7b\n",
   lit "return " ++ owner ++ '(' :: f.name ++ lit "Raw(" ++
     commas (f.arguments.map Argument.name) ++ lit "));\n",
   lit "\x7d\n"]

end RawFunction

/-! ### The table -/

section Table

variable (m : Method)

def contextArgument : Argument := { type := lit "::grpc::ClientContext*", name := lit "context" }

def cqArgument : Argument := { type := lit "::grpc::CompletionQueue*", name := lit "cq" }

def requestReference : Argument :=
  { type := lit "const " ++ m.inputTypeName ++ ['&'], name := lit "request" }

def requestPointer : Argument :=
  { type := lit "const " ++ m.inputTypeName ++ ['*'], name := lit "request" }

def responsePointer : Argument := { type := m.outputTypeName ++ ['*'], name := lit "response" }

/-- The asynchronous versions; a stream is started with a tag or prepared without one. -/
def asyncVersions : List (String × List Argument) :=
  [("Async", [{ type := lit "void*", name := lit "tag" }]), ("PrepareAsync", [])]

/-- The synchronous call of a method without streams. -/
def unaryFunctions : List Signature :=
  if m.noStreaming then
    [{ result := lit "::grpc::Status"
       name := m.name
       arguments := [contextArgument, requestReference m, responsePointer m] }]
  else []

/-- A stream such as `Writer` over the types `types`, opened with `arguments`. -/
def streamFunctions (suffix stream : String) (types : Text) (arguments : List Argument)
    (cq : Bool) : List RawFunction :=
  { stream := lit "::grpc::Client" ++ lit stream ++ lit suffix ++ lit "< " ++ types ++ ['>']
    name := m.name
    arguments := contextArgument :: arguments } ::
  if cq then
    asyncVersions.map fun version =>
      { stream :=
          lit "::grpc::ClientAsync" ++ lit stream ++ lit suffix ++ lit "< " ++ types ++ ['>']
        name := lit version.1 ++ m.name
        arguments := contextArgument :: arguments ++ cqArgument :: version.2 }
  else []

def rawFunctions (suffix : String) (cq : Bool) : List RawFunction :=
  if m.noStreaming then
    if cq then
      asyncVersions.map fun version =>
        { stream := lit "::grpc::ClientAsyncResponseReader" ++ lit suffix ++ lit "< " ++
            m.outputTypeName ++ ['>']
          name := lit version.1 ++ m.name
          arguments := [contextArgument, requestReference m, cqArgument] }
    else []
  else if m.clientOnlyStreaming then
    streamFunctions m suffix "Writer" m.inputTypeName [responsePointer m] cq
  else if m.serverOnlyStreaming then
    streamFunctions m suffix "Reader" m.outputTypeName [requestReference m] cq
  else if m.bidiStreaming then
    streamFunctions m suffix "ReaderWriter" (m.inputTypeName ++ lit ", " ++ m.outputTypeName)
      [] cq
  else []

def callbackFunctions : List Signature :=
  let reactor (arguments : List Argument) (type : Text) : Signature :=
    { result := lit "void"
      name := m.name
      arguments := contextArgument :: arguments ++ [{ type := type, name := lit "reactor" }] }
  if m.noStreaming then
    [{ result := lit "void"
       name := m.name
       arguments := [contextArgument, requestPointer m, responsePointer m,
         { type := lit "std::function<void(::grpc::Status)>", name := lit "f",
           anonymous := true }] },
     reactor [requestPointer m, responsePointer m] (lit "::grpc::ClientUnaryReactor*")]
  else if m.clientOnlyStreaming then
    [reactor [responsePointer m]
      (lit "::grpc::ClientWriteReactor< " ++ m.inputTypeName ++ lit ">*")]
  else if m.serverOnlyStreaming then
    [reactor [requestPointer m]
      (lit "::grpc::ClientReadReactor< " ++ m.outputTypeName ++ lit ">*")]
  else if m.bidiStreaming then
    [reactor [] (lit "::grpc::ClientBidiReactor< " ++ m.inputTypeName ++ ',' ::
      m.outputTypeName ++ lit ">*")]
  else []

end Table

/-- The functions of a stub and of its callback class, in the order of the header. -/
def stubFunctions (s : Service) (suffix : String) (cq : Bool) : List Signature :=
  s.methods.flatMap unaryFunctions ++ s.methods.flatMap callbackFunctions ++
    s.methods.flatMap fun m => (rawFunctions m suffix cq).map RawFunction.signature

/-- What overrides `f` has its name and its arguments, and it gives back the same or, where
`f` gives back an interface, the class that implements it. -/
def Covariant (f g : Signature) : Prop :=
  g.name = f.name ∧ g.arguments = f.arguments ∧
    (g.result = f.result ∨ ∃ base interface rest, interface ∈ [lit "Interface", lit "_interface"] ∧
      f.result = base ++ interface ++ rest ∧ g.result = base ++ rest)

theorem covariant_refl (f : Signature) : Covariant f f := ⟨rfl, rfl, .inl rfl⟩

theorem covariant_signature (stream types name : Text) (arguments : List Argument) :
    Covariant
      (RawFunction.signature
        ⟨stream ++ lit "Interface" ++ lit "< " ++ types ++ ['>'], name, arguments⟩)
      (RawFunction.signature
        ⟨stream ++ lit "" ++ lit "< " ++ types ++ ['>'], name, arguments⟩) := by
  refine ⟨rfl, rfl, .inr ⟨stream, _, lit "< " ++ types ++ ['>'] ++ ['*'], List.mem_cons_self,
    ?_, ?_⟩⟩
  · simp only [RawFunction.signature, List.append_assoc]
  · have hempty : lit "" = [] := rfl
    simp only [RawFunction.signature, hempty, List.append_nil, List.append_assoc]

theorem covariant_streamFunctions (m : Method) (stream : String) (types : Text)
    (arguments : List Argument) (cq : Bool) :
    List.Forall₂ Covariant
      ((streamFunctions m "Interface" stream types arguments cq).map RawFunction.signature)
      ((streamFunctions m "" stream types arguments cq).map RawFunction.signature) := by
  refine .cons (covariant_signature _ _ _ _) ?_
  cases cq with
  | false => exact .nil
  | true => exact .cons (covariant_signature _ _ _ _) (.cons (covariant_signature _ _ _ _) .nil)

theorem covariant_rawFunctions (m : Method) (cq : Bool) :
    List.Forall₂ Covariant ((rawFunctions m "Interface" cq).map RawFunction.signature)
      ((rawFunctions m "" cq).map RawFunction.signature) := by
  rw [rawFunctions, rawFunctions]
  split
  · cases cq with
    | false => exact .nil
    | true => exact .cons (covariant_signature _ _ _ _) (.cons (covariant_signature _ _ _ _) .nil)
  · split
    · exact covariant_streamFunctions m _ _ _ cq
    · split
      · exact covariant_streamFunctions m _ _ _ cq
      · split
        · exact covariant_streamFunctions m _ _ _ cq
        · exact .nil

/-! ### Method by method -/

section Methods

variable (packageName serviceName : Text) (outer : Option Text) (m : Method)
  (params : Parameters) (d : ℕ)

attribute [local simp] toList_literal lit tight Write.chars Span.chars commas asyncVersions
  Method.noStreaming Method.clientOnlyStreaming Method.serverOnlyStreaming Method.bidiStreaming
  Argument.declaration Argument.definition Signature.declaration Signature.pure
  Signature.override Signature.definition Signature.mock RawFunction.signature
  RawFunction.wrapper contextArgument cqArgument requestReference requestPointer
  responsePointer unaryFunctions streamFunctions rawFunctions callbackFunctions

/-- What a public section holds for a method. -/
def publicTexts (suffix : String) (cq : Bool) (read : Signature → Text) : List Text :=
  (unaryFunctions m).map read ++ (rawFunctions m suffix cq).flatMap RawFunction.wrapper

theorem texts_interfacePublic :
    (texts (serviceEnv packageName outer serviceName) d
      (printHeaderClientMethodInterfaces m params true)).map tight =
      (publicTexts m "Interface" params.allowCqApi Signature.pure).map tight := by
  obtain ⟨name, input, output, client, server, location⟩ := m
  obtain ⟨_, _, _, _, _, _, _, _, _, cq, _⟩ := params
  cases client <;> cases server <;> cases cq <;>
    refine (congrArg (List.map tight) (texts_of_run rfl)).trans ?_ <;>
    simp [-String.reduceToList, publicTexts]

theorem texts_stubPublic :
    (texts (serviceEnv packageName outer serviceName) d
      (printHeaderClientMethod m params true)).map tight =
      (publicTexts m "" params.allowCqApi Signature.override).map tight := by
  obtain ⟨name, input, output, client, server, location⟩ := m
  obtain ⟨_, _, _, _, _, _, _, _, _, cq, _⟩ := params
  cases client <;> cases server <;> cases cq <;>
    refine (congrArg (List.map tight) (texts_of_run rfl)).trans ?_ <;>
    simp [-String.reduceToList, publicTexts]

theorem texts_interfacePrivate :
    (texts (serviceEnv packageName outer serviceName) d
      (printHeaderClientMethodInterfaces m params false)).map tight =
      (((rawFunctions m "Interface" params.allowCqApi).map RawFunction.signature).map
        Signature.pure).map tight := by
  obtain ⟨name, input, output, client, server, location⟩ := m
  obtain ⟨_, _, _, _, _, _, _, _, _, cq, _⟩ := params
  cases client <;> cases server <;> cases cq <;>
    refine (congrArg (List.map tight) (texts_of_run rfl)).trans ?_ <;>
    simp [-String.reduceToList]

theorem texts_stubPrivate :
    (texts (serviceEnv packageName outer serviceName) d
      (printHeaderClientMethod m params false)).map tight =
      (((rawFunctions m "" params.allowCqApi).map RawFunction.signature).map
        Signature.override).map tight := by
  obtain ⟨name, input, output, client, server, location⟩ := m
  obtain ⟨_, _, _, _, _, _, _, _, _, cq, _⟩ := params
  cases client <;> cases server <;> cases cq <;>
    refine (congrArg (List.map tight) (texts_of_run rfl)).trans ?_ <;>
    simp [-String.reduceToList]

theorem texts_callbackInterface :
    (texts (serviceEnv packageName outer serviceName) d
      (printHeaderClientMethodCallbackInterfaces m)).map tight =
      ((callbackFunctions m).map Signature.pure).map tight := by
  obtain ⟨name, input, output, client, server, location⟩ := m
  cases client <;> cases server <;>
    refine (congrArg (List.map tight) (texts_of_run rfl)).trans ?_ <;>
    simp [-String.reduceToList]

theorem texts_callback :
    (texts (serviceEnv packageName outer serviceName) d
      (printHeaderClientMethodCallback m)).map tight =
      ((callbackFunctions m).map Signature.override).map tight := by
  obtain ⟨name, input, output, client, server, location⟩ := m
  cases client <;> cases server <;>
    refine (congrArg (List.map tight) (texts_of_run rfl)).trans ?_ <;>
    simp [-String.reduceToList]

theorem texts_mockClientMethods :
    (texts (serviceEnv packageName outer serviceName) d
      (printMockClientMethods m params)).map tight =
      ((unaryFunctions m ++ (rawFunctions m "Interface" params.allowCqApi).map
        RawFunction.signature).map Signature.mock).map tight := by
  obtain ⟨name, input, output, client, server, location⟩ := m
  obtain ⟨_, _, _, _, _, _, _, _, _, cq, _⟩ := params
  cases client <;> cases server <;> cases cq <;>
    refine (congrArg (List.map tight) (texts_of_run rfl)).trans ?_ <;>
    simp [-String.reduceToList, asString, Nat.toDigits, Nat.toDigitsCore, Nat.digitChar]

end Methods

end GrpcM.Plugin
