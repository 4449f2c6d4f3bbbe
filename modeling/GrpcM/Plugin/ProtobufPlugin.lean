import GrpcM.Lines
import GrpcM.Templates
import GrpcM.Plugin.CppPlugin

/-!
What the code generator sees of a proto file: services, methods, the C++ names of their
message types, and the comments around them as they go into the generated code.
-/

namespace GrpcM.Plugin

open GrpcM.Path GrpcM.Templates

/-! ### Texts -/

/-- Every place of `source`, which is not empty, from left to right; the search goes on
after the replacement. -/
def stringReplace (source target : Text) : Text → Text
  | [] => []
  | c :: str =>
      if source.isPrefixOf (c :: str) then
        target ++ stringReplace source target (str.drop (source.length - 1))
      else c :: stringReplace source target str
termination_by str => str.length
decreasing_by
  · simp only [List.length_drop, List.length_cons]
    omega
  · simp

def dotsToColons (name : Text) : Text := stringReplace ['.'] [':', ':'] name

def dotsToUnderscores (name : Text) : Text := stringReplace ['.'] ['_'] name

/-- The pieces that `getline` reads: nothing is read after the last line feed. -/
def split (s : Text) : List Text :=
  let pieces := s.splitOn '\n'
  if pieces.getLast? = some [] then pieces.dropLast else pieces

def escapeVariableDelimiters (original : Text) : Text := escape '$' original

/-! ### Message types -/

/-- A message type at the top level of a package or inside another message type. -/
inductive Descriptor where
  | topLevel (package : List Text) (name : Text)
  | nested (containingType : Descriptor) (name : Text)
  deriving DecidableEq, Repr

namespace Descriptor

def name : Descriptor → Text
  | topLevel _ name => name
  | nested _ name => name

def fullName : Descriptor → Text
  | topLevel package name => ['.'].intercalate (package ++ [name])
  | nested containingType name => containingType.fullName ++ '.' :: name

def outer : Descriptor → Descriptor
  | topLevel package name => topLevel package name
  | nested containingType _ => containingType.outer

end Descriptor

def className (descriptor : Descriptor) (qualified : Bool) : Text :=
  let outer := descriptor.outer
  let outerName := outer.fullName
  let innerName := descriptor.fullName.drop outerName.length
  if qualified then lit "::" ++ dotsToColons outerName ++ dotsToUnderscores innerName
  else outer.name ++ dotsToUnderscores innerName

/-! ### Comments -/

structure SourceLocation where
  leadingComments : Text
  trailingComments : Text
  leadingDetachedComments : List Text
  deriving DecidableEq, Repr

inductive CommentType where
  | leading
  | trailing
  | leadingDetached
  deriving DecidableEq, Repr

/-- `GetComment` of a service or a method; it may have no source location. -/
def getComment (location : Option SourceLocation) (type : CommentType) : List Text :=
  match location with
  | none => []
  | some location =>
      match type with
      | .leading => split location.leadingComments
      | .trailing => split location.trailingComments
      | .leadingDetached => location.leadingDetachedComments.flatMap fun c => split c ++ [[]]

/-- `GetComment` of a file: the comments above the syntax line, and no trailing ones. -/
def getFileComment (syntaxLocation : Option SourceLocation) (type : CommentType) : List Text :=
  match type with
  | .trailing => []
  | .leading => getComment syntaxLocation .leading
  | .leadingDetached => getComment syntaxLocation .leadingDetached

/-- One comment line without its line feed. A blank follows the slashes unless the line is
empty or starts with one. -/
def prefixed (slashes elem : Text) : Text :=
  match elem with
  | [] => slashes
  | c :: rest =>
      if c = ' ' then slashes ++ escapeVariableDelimiters (c :: rest)
      else slashes ++ ' ' :: escapeVariableDelimiters (c :: rest)

def generateCommentsWithPrefix (lines : List Text) (slashes : Text) : Text :=
  lines.flatMap fun elem => prefixed slashes elem ++ ['\n']

def getPrefixedComments (comment : CommentType → List Text) (leading : Bool)
    (slashes : Text) : Text :=
  generateCommentsWithPrefix
    (if leading then comment .leadingDetached ++ comment .leading else comment .trailing) slashes

/-! ### Files -/

structure Method where
  name : Text
  inputType : Descriptor
  outputType : Descriptor
  clientStreaming : Bool
  serverStreaming : Bool
  location : Option SourceLocation
  deriving DecidableEq, Repr

structure Service where
  name : Text
  deprecated : Bool
  methods : List Method
  location : Option SourceLocation
  deriving DecidableEq, Repr

/-- What the generator reads of a file besides its name. -/
structure Content where
  package : Text
  dependencies : List Text
  services : List Service
  syntaxLocation : Option SourceLocation
  deriving DecidableEq, Repr

abbrev File := FileDescriptor Content

namespace Method

variable (m : Method)

def inputTypeName : Text := className m.inputType true

def outputTypeName : Text := className m.outputType true

def noStreaming : Bool := !m.clientStreaming && !m.serverStreaming

def bidiStreaming : Bool := m.clientStreaming && m.serverStreaming

def clientOnlyStreaming : Bool := m.clientStreaming && !m.serverStreaming

def serverOnlyStreaming : Bool := !m.clientStreaming && m.serverStreaming

def getLeadingComments (slashes : Text) : Text :=
  getPrefixedComments (getComment m.location) true slashes

def getTrailingComments (slashes : Text) : Text :=
  getPrefixedComments (getComment m.location) false slashes

end Method

namespace Service

variable (s : Service)

def getLeadingComments (slashes : Text) : Text :=
  getPrefixedComments (getComment s.location) true slashes

def getTrailingComments (slashes : Text) : Text :=
  getPrefixedComments (getComment s.location) false slashes

end Service

namespace File

variable (file : File)

def filenameWithoutExt : Text := stripProto file.name

def package : Text := file.content.package

def packageParts : List Text := tokenize (package file) ['.']

def additionalHeaders (_file : File) : Text := []

def getImportNames : List Text := file.content.dependencies

def getLeadingComments (slashes : Text) : Text :=
  getPrefixedComments (getFileComment file.content.syntaxLocation) true slashes

def getTrailingComments (slashes : Text) : Text :=
  getPrefixedComments (getFileComment file.content.syntaxLocation) false slashes

end File

/-! ### Examples -/

def sayHello : Method :=
  { name := lit "SayHello"
    inputType := .topLevel [lit "helloworld"] (lit "HelloRequest")
    outputType := .topLevel [lit "helloworld"] (lit "HelloReply")
    clientStreaming := false
    serverStreaming := false
    location := some
      { leadingComments := lit " Sends a greeting.\n"
        trailingComments := []
        leadingDetachedComments := [] } }

def greeter : Service :=
  { name := lit "Greeter", deprecated := false, methods := [sayHello], location := none }

def helloworld : File :=
  { name := lit "helloworld.proto"
    ccGenericServices := false
    content :=
      { package := lit "helloworld"
        dependencies := []
        services := [greeter]
        syntaxLocation := none } }

def ordersMethod (name request reply : String) (clientStreaming serverStreaming : Bool) : Method :=
  { name := lit name
    inputType := .topLevel [lit "orders"] (lit request)
    outputType := .topLevel [lit "orders"] (lit reply)
    clientStreaming := clientStreaming
    serverStreaming := serverStreaming
    location := none }

def place : Method := ordersMethod "Place" "PlaceRequest" "PlaceReply" false false

def watch : Method := ordersMethod "Watch" "PlaceReply" "PlaceReply" false true

def collect : Method := ordersMethod "Collect" "PlaceRequest" "PlaceReply" true false

def negotiate : Method := ordersMethod "Negotiate" "PlaceRequest" "PlaceReply" true true

def orders : Service :=
  { name := lit "Orders"
    deprecated := false
    methods := [place, watch, collect, negotiate]
    location := none }

def ordersFile : File :=
  { name := lit "orders.proto"
    ccGenericServices := false
    content :=
      { package := lit "orders"
        dependencies := [lit "common/types.proto"]
        services := [greeter, orders]
        syntaxLocation := none } }

end GrpcM.Plugin
