import GrpcM.Plugin.ProtobufPlugin

/-!
The code generator as programs that print templates. Which commands it runs depends on the
file and the parameters alone, never on a variable, so each function of the generator is
the list of the commands it runs.
-/

namespace GrpcM.Plugin

open GrpcM.Path GrpcM.Templates

/-- The keys of `vars`. -/
inductive Var where
  | method
  | request
  | response
  | asyncPrefix
  | asyncMethodParams
  | asyncRawArgs
  | asyncStart
  | asyncCreateArgs
  | realRequest
  | realResponse
  | idx
  | methodName
  | mockArgs
  | streamingType
  | service
  | package
  | ns
  | servicePrefix
  | servicesNamespace
  | filename
  | filenameIdentifier
  | filenameBase
  | messageHeaderExt
  | serviceHeaderExt
  | part
  | l
  | h
  | r
  deriving DecidableEq, Repr

namespace Var

def key : Var → Text
  | method => lit "Method"
  | request => lit "Request"
  | response => lit "Response"
  | asyncPrefix => lit "AsyncPrefix"
  | asyncMethodParams => lit "AsyncMethodParams"
  | asyncRawArgs => lit "AsyncRawArgs"
  | asyncStart => lit "AsyncStart"
  | asyncCreateArgs => lit "AsyncCreateArgs"
  | realRequest => lit "RealRequest"
  | realResponse => lit "RealResponse"
  | idx => lit "Idx"
  | methodName => lit "method_name"
  | mockArgs => lit "MockArgs"
  | streamingType => lit "StreamingType"
  | service => lit "Service"
  | package => lit "Package"
  | ns => lit "ns"
  | servicePrefix => lit "prefix"
  | servicesNamespace => lit "services_namespace"
  | filename => lit "filename"
  | filenameIdentifier => lit "filename_identifier"
  | filenameBase => lit "filename_base"
  | messageHeaderExt => lit "message_header_ext"
  | serviceHeaderExt => lit "service_header_ext"
  | part => lit "part"
  | l => lit "l"
  | h => lit "h"
  | r => lit "r"

def all : List Var :=
  [messageHeaderExt, serviceHeaderExt, method, request, response, asyncPrefix,
    asyncMethodParams, asyncRawArgs, asyncStart, asyncCreateArgs, realRequest, realResponse,
    idx, methodName, mockArgs, streamingType, service, package, ns, servicePrefix,
    servicesNamespace, filename, filenameIdentifier, filenameBase, part, l, h, r]

def ofKey (t : Text) : Option Var := all.find? fun v => v.key = t

end Var

abbrev Program := List (Command Var)

def when (b : Bool) (program : Program) : Program := if b then program else []

def printText (t : Text) : Program := [.print (parse (fun _ => none) '$' t)]

def printTemplate (t : Text) : Program := [.print (parse Var.ofKey '$' t)]

def asString (i : ℕ) : Text := Nat.toDigits 10 i

/-- A loop over the methods of a service, with its counter. -/
def forMethods (s : Service) (body : ℕ → Method → Program) : Program :=
  s.methods.zipIdx.flatMap fun p => body p.2 p.1

/-- A row of the tables called `async_prefixes`; each table fills the columns it has. -/
structure AsyncPrefix where
  word : String
  start : String := ""
  methodParams : String
  rawArgs : String := ""
  createArgs : String := ""
  extraMethodParamCount : ℕ := 0

/-- What every comment in the generated code starts with. -/
def slashes : Text := ['/', '/']

open Var hiding filenameIdentifier

/-! ### What the parts of the generator may read -/

/-- The environment of all services of a header; `outer` is the namespace around them. -/
def packageEnv (packageName : Text) (outer : Option Text) : Env Var :=
  Function.update (Function.update (fun _ => none) package (some packageName))
    servicesNamespace outer

def serviceEnv (packageName : Text) (outer : Option Text) (serviceName : Text) : Env Var :=
  Function.update (packageEnv packageName outer) service (some serviceName)

def methodEnv (packageName : Text) (outer : Option Text) (serviceName : Text) (i : ℕ) :
    Env Var :=
  Function.update (serviceEnv packageName outer serviceName) idx (some (asString i))

theorem packageEnv_none (packageName : Text) : packageEnv packageName none =
    Function.update (fun _ => none) package (some packageName) := by
  funext v
  by_cases hv : v = servicesNamespace
  · subst hv
    rfl
  · rw [packageEnv, Function.update_of_ne hv]

theorem closed_forMethods {β : Env Var} {s : Service} {body : ℕ → Method → Program}
    (h : ∀ i m, s.methods[i]? = some m → Closed β (body i m)) :
    Closed β (forMethods s body) := by
  refine .flatMap fun p hp => h p.2 p.1 ?_
  exact List.mem_zipIdx_iff_getElem?.mp hp

theorem flatMap_zipIdx_fst {α β : Type} (f : α → List β) (xs : List α) :
    (xs.zipIdx.flatMap fun p => f p.1) = xs.flatMap f := by
  have hfst := congrArg (List.flatMap f) (List.zipIdx_map_fst 0 xs)
  rwa [List.flatMap_map] at hfst

theorem texts_forMethods {β : Env Var} {s : Service} {body : Method → Program}
    (h : ∀ m, Closed β (body m)) (d : ℕ) : texts β d (forMethods s fun _ m => body m) =
      s.methods.flatMap fun m => texts β d (body m) := by
  rw [forMethods, texts_flatMap fun p _ => h p.1]
  exact flatMap_zipIdx_fst (fun m => texts β d (body m)) s.methods

theorem texts_forMethods_idx {β : Env Var} {s : Service} {body : ℕ → Method → Program}
    (hidx : β idx = none)
    (h : ∀ i m, Closed (Function.update β idx (some (asString i))) (body i m)) (d : ℕ) :
    texts β d (forMethods s fun i m => .set idx (asString i) :: body i m) =
      s.methods.zipIdx.flatMap fun p =>
        texts (Function.update β idx (some (asString p.2))) d (body p.2 p.1) := by
  rw [forMethods, texts_flatMap fun p _ => .set hidx (h p.2 p.1)]
  exact List.flatMap_congr fun p _ => texts_set β idx _ _ d

theorem closed_when {β : Env Var} {program : Program} (h : Closed β program) (b : Bool) :
    Closed β (when b program) := by
  cases b with
  | false => exact .nil
  | true => exact h

/-- The texts of a program that is run by computation. -/
theorem texts_pred {β : Env Var} {d : ℕ} {cmds : Program} {ws : List (Write Var)}
    {σ : State Var} {P : List Text → Prop} (hrun : run cmds ⟨β, d⟩ = some (ws, σ))
    (h : P (ws.map Write.chars)) : P (texts β d cmds) := by
  rwa [texts_of_run hrun]

theorem texts_print (β : Env Var) (d : ℕ) (t : String) : texts β d [.print [t]] = [lit t] := by
  simp [texts, written, run, step, fill, Piece.fill, Write.chars, Span.chars, lit]

theorem closed_print (β : Env Var) (t : String) : Closed β [.print [t]] :=
  .of_prints fun _ => ⟨_, .print rfl⟩

/-! ### Comments -/

theorem generateCommentsWithPrefix_eq (lines : List Text) (slashes : Text) :
    generateCommentsWithPrefix lines slashes =
      Lines.unlines '\n' (lines.map (prefixed slashes)) := by
  rw [generateCommentsWithPrefix, Lines.unlines, List.flatMap_map]

theorem escape_append (a b : Text) : escape '$' (a ++ b) = escape '$' a ++ escape '$' b :=
  List.flatMap_append

def commentLine (slashes elem : Text) : Text :=
  match elem with
  | [] => slashes
  | c :: rest => if c = ' ' then slashes ++ c :: rest else slashes ++ ' ' :: c :: rest

/-- A compiler reads none of it. -/
theorem commentLine_eq (slashes elem : Text) : ∃ t, commentLine slashes elem = slashes ++ t := by
  cases elem with
  | nil => exact ⟨[], (List.append_nil slashes).symm⟩
  | cons c rest =>
      rw [commentLine]
      split
      · exact ⟨c :: rest, rfl⟩
      · exact ⟨' ' :: c :: rest, rfl⟩

theorem escape_of_not_mem {t : Text} (ht : '$' ∉ t) : escape '$' t = t := by
  induction t with
  | nil => rfl
  | cons c t ih =>
      obtain ⟨hc, ht⟩ := not_or.mp (fun hmem => ht (List.mem_cons.mpr hmem))
      change (if c = '$' then [c, c] else [c]) ++ escape '$' t = c :: t
      rw [if_neg (Ne.symm hc), ih ht]
      rfl

theorem prefixed_eq (elem : Text) :
    prefixed slashes elem = escape '$' (commentLine slashes elem) := by
  have hself : escape '$' slashes = slashes := escape_of_not_mem (by decide)
  cases elem with
  | nil => exact hself.symm
  | cons c rest =>
      by_cases hc : c = ' '
      · simp only [prefixed, commentLine, if_pos hc, escape_append, hself,
          escapeVariableDelimiters]
      · have hblank : escape '$' (' ' :: c :: rest) = ' ' :: escape '$' (c :: rest) := rfl
        simp only [prefixed, commentLine, if_neg hc, escape_append, hself, hblank,
          escapeVariableDelimiters]

/-- The comments go into the printer escaped, so they come out as they are meant. -/
theorem generateCommentsWithPrefix_eq_escape (lines : List Text) :
    generateCommentsWithPrefix lines slashes =
      escape '$' (Lines.unlines '\n' (lines.map (commentLine slashes))) := by
  rw [generateCommentsWithPrefix_eq]
  induction lines with
  | nil => rfl
  | cons elem lines ih =>
      have hbreak : escape '$' ('\n' :: Lines.unlines '\n' (lines.map (commentLine slashes))) =
          '\n' :: escape '$' (Lines.unlines '\n' (lines.map (commentLine slashes))) := rfl
      rw [List.map_cons, List.map_cons, Lines.unlines_cons, Lines.unlines_cons, ih,
        prefixed_eq, escape_append, hbreak]

/-- Comments are printed whatever stands in them. -/
theorem printText_comments (β : Env Var) (d : ℕ) (lines : List Text) :
    Prints β d d (printText (generateCommentsWithPrefix lines slashes))
      [⟨d, (Lines.unlines '\n' (lines.map (commentLine slashes))).map fun c => .text [c]⟩] := by
  rw [generateCommentsWithPrefix_eq_escape]
  exact .print (fill_parse_escape _ _)

/-- The comments before a declaration, or those after it, as they come out. -/
def commentText (comment : CommentType → List Text) (leading : Bool) : Text :=
  Lines.unlines '\n'
    ((if leading then comment .leadingDetached ++ comment .leading else comment .trailing).map
      (commentLine slashes))

theorem texts_comments (β : Env Var) (d : ℕ) (comment : CommentType → List Text)
    (leading : Bool) : texts β d (printText (getPrefixedComments comment leading slashes)) =
      [commentText comment leading] := by
  rw [texts, getPrefixedComments, (printText_comments β d _).written_eq, List.map_cons,
    List.map_nil, Write.chars, chars_texts]
  rfl

theorem closed_comments (β : Env Var) (comment : CommentType → List Text) (leading : Bool) :
    Closed β (printText (getPrefixedComments comment leading slashes)) :=
  .of_prints fun d => ⟨_, printText_comments β d _⟩

end GrpcM.Plugin
