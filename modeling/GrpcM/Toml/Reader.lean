import GrpcM.Toml.Document

/-!
A reader of TOML 1.0 that takes one character at a time, so that the state it is
in behind a part of a text can be named. It accepts every valid text and reads it
as TOML does; it also accepts some texts that are not valid, where the difference
does not touch what a valid text means (the spelling of numbers and dates, control
characters, tables opened through dotted keys).
-/

namespace GrpcM.Toml

open GrpcM.Path

def isWs (c : Char) : Bool := c = ' ' || c = '\t'

def isBareKey (c : Char) : Bool := c.isAlphanum || c = '_' || c = '-'

/-- Numbers, booleans, dates and times; a date and a time may have a blank between them. -/
def isScalar (c : Char) : Bool := isBareKey c || isWs c || c = '+' || c = '.' || c = ':'

/-! ### Strings -/

inductive Quote where
  | basic
  | literal
  deriving DecidableEq, Repr

def Quote.char : Quote → Char
  | .basic => '"'
  | .literal => '\''

inductive Escape where
  | no
  /-- Behind a backslash. -/
  | slash
  | hex (left value : Nat)
  /-- Behind a backslash at the end of a line. -/
  | trim
  deriving DecidableEq, Repr

structure Str where
  quote : Quote
  text : Text := []
  escape : Escape := .no
  deriving DecidableEq, Repr

def escaped (c : Char) : Option Char :=
  [('b', Char.ofNat 8), ('t', '\t'), ('n', '\n'), ('f', Char.ofNat 12), ('r', '\r'),
    ('"', '"'), ('\\', '\\')].lookup c

def hexDigit (c : Char) : Option Nat :=
  if '0' ≤ c && c ≤ '9' then some (c.toNat - '0'.toNat)
  else if 'a' ≤ c && c ≤ 'f' then some (c.toNat - 'a'.toNat + 10)
  else if 'A' ≤ c && c ≤ 'F' then some (c.toNat - 'A'.toNat + 10)
  else none

def Str.plain (s : Str) (multi : Bool) (c : Char) : Option Str :=
  if c = '\\' && s.quote = .basic then some { s with escape := .slash }
  else if c = '\n' && !multi then none
  else some { s with text := s.text ++ [c], escape := .no }

/-- A character that does not end the string. -/
def Str.push (s : Str) (multi : Bool) (c : Char) : Option Str :=
  match s.escape with
  | .no => s.plain multi c
  | .slash =>
      if c = 'u' then some { s with escape := .hex 4 0 }
      else if c = 'U' then some { s with escape := .hex 8 0 }
      else if multi && (isWs c || c = '\n') then some { s with escape := .trim }
      else (escaped c).map fun e => { s with text := s.text ++ [e], escape := .no }
  | .hex left value =>
      (hexDigit c).bind fun digit =>
        if 1 < left then some { s with escape := .hex (left - 1) (value * 16 + digit) }
        else if (value * 16 + digit).isValidChar then
          some { s with text := s.text ++ [Char.ofNat (value * 16 + digit)], escape := .no }
        else none
  | .trim => if isWs c || c = '\n' then some s else s.plain multi c

/-! ### The state -/

/-- An array or an inline table that is not closed. -/
inductive Frame where
  | array (items : List Value)
  | table (entries : List (Address × Value)) (key : Address)

/-- A value that is being read, with the arrays and inline tables it is in, the innermost
first; `target` is where the outermost value goes. -/
structure Pending where
  target : Address
  frames : List Frame

inductive KeyUse where
  | assign
  | header
  | element
  | member (p : Pending)

inductive KeyMode where
  | part
  | bare (text : Text)
  | quoted (s : Str)
  | behind

inductive Mode where
  | start
  | comment
  /-- Behind a value or a header, up to the end of the line. -/
  | after
  /-- Behind the bracket that starts a line. -/
  | bracket
  | key (parts : List Text) (km : KeyMode) (use : KeyUse)
  /-- Behind the first of two closing brackets. -/
  | close (parts : List Text)
  | value (p : Pending)
  /-- Behind a value in an array or an inline table. -/
  | next (p : Pending)
  | commentIn (p : Pending) (behind : Bool)
  | quoteOne (quote : Quote) (p : Pending)
  | quoteTwo (quote : Quote) (p : Pending)
  | single (s : Str) (p : Pending)
  /-- `quotes` of the closing quotes have been read. -/
  | multi (s : Str) (fresh : Bool) (quotes : Nat) (p : Pending)
  | bare (text : Text) (p : Pending)

structure Reader where
  doc : Document := {}
  table : Address := []
  mode : Mode := .start

/-! ### Steps -/

namespace Reader

def setMode (r : Reader) (mode : Mode) : Reader := { r with mode := mode }

def emit (r : Reader) (p : Pending) (v : Value) : Option Reader :=
  match p.frames with
  | [] => (r.doc.assign p.target v).map fun doc => { r with doc := doc, mode := .after }
  | .array items :: frames =>
      some (r.setMode (.next { p with frames := .array (items ++ [v]) :: frames }))
  | .table entries key :: frames =>
      if entries.any (·.1 = key) then none
      else
        some (r.setMode (.next
          { p with frames := .table (entries ++ Document.expand key v) [] :: frames }))

def stepAfter (r : Reader) (c : Char) : Option Reader :=
  if isWs c then some r
  else if c = '#' then some (r.setMode .comment)
  else if c = '\n' then some (r.setMode .start)
  else none

def stepNext (r : Reader) (p : Pending) (c : Char) : Option Reader :=
  match p.frames with
  | [] => none
  | .array items :: frames =>
      if isWs c || c = '\n' then some r
      else if c = '#' then some (r.setMode (.commentIn p true))
      else if c = ',' then some (r.setMode (.value p))
      else if c = ']' then r.emit { p with frames := frames } (.array items)
      else none
  | .table entries _ :: frames =>
      if isWs c then some r
      else if c = ',' then some (r.setMode (.key [] .part (.member p)))
      else if c = '}' then r.emit { p with frames := frames } (.table entries)
      else none

/-- The value ended before this character. -/
def emitBefore (r : Reader) (p : Pending) (v : Value) (c : Char) : Option Reader :=
  (r.emit p v).bind fun r' =>
    match r'.mode with
    | .after => r'.stepAfter c
    | .next p' => r'.stepNext p' c
    | _ => none

def stepValue (r : Reader) (p : Pending) (c : Char) : Option Reader :=
  if isWs c then some r
  else if c = '"' then some (r.setMode (.quoteOne .basic p))
  else if c = '\'' then some (r.setMode (.quoteOne .literal p))
  else if c = '[' then some (r.setMode (.value { p with frames := .array [] :: p.frames }))
  else if c = '{' then
    some (r.setMode (.key [] .part (.member { p with frames := .table [] [] :: p.frames })))
  else if isScalar c then some (r.setMode (.bare [c] p))
  else
    match p.frames with
    | .array items :: frames =>
        if c = '\n' then some r
        else if c = '#' then some (r.setMode (.commentIn p false))
        else if c = ']' then r.emit { p with frames := frames } (.array items)
        else none
    | _ => none

def stepSingle (r : Reader) (s : Str) (p : Pending) (c : Char) : Option Reader :=
  if s.escape = .no && c = s.quote.char then r.emit p (.string s.text)
  else (s.push false c).map fun s' => r.setMode (.single s' p)

def stepMulti (r : Reader) (s : Str) (fresh : Bool) (quotes : Nat) (p : Pending) (c : Char) :
    Option Reader :=
  if (s.escape = .no || s.escape = .trim) && c = s.quote.char then
    if quotes < 5 then some (r.setMode (.multi { s with escape := .no } false (quotes + 1) p))
    else none
  else if 3 ≤ quotes then
    r.emitBefore p (.string (s.text ++ List.replicate (quotes - 3) s.quote.char)) c
  else if fresh && c = '\n' then some (r.setMode (.multi s false 0 p))
  else
    (({ s with text := s.text ++ List.replicate quotes s.quote.char } : Str).push true c).map
      fun s' => r.setMode (.multi s' false 0 p)

def endKey (r : Reader) (parts : List Text) (use : KeyUse) (c : Char) : Option Reader :=
  match use with
  | .assign =>
      if c = '=' then some (r.setMode (.value ⟨r.table ++ address parts, []⟩)) else none
  | .header =>
      if c = ']' then
        (r.doc.openTable parts).map fun opened => ⟨opened.1, opened.2, .after⟩
      else none
  | .element => if c = ']' then some (r.setMode (.close parts)) else none
  | .member p =>
      match p.frames with
      | .table entries _ :: frames =>
          if c = '=' then
            some (r.setMode (.value { p with frames := .table entries (address parts) :: frames }))
          else none
      | _ => none

def stepKey (r : Reader) (parts : List Text) (km : KeyMode) (use : KeyUse) (c : Char) :
    Option Reader :=
  match km with
  | .part =>
      if isWs c then some r
      else if c = '"' then some (r.setMode (.key parts (.quoted { quote := .basic }) use))
      else if c = '\'' then some (r.setMode (.key parts (.quoted { quote := .literal }) use))
      else if isBareKey c then some (r.setMode (.key parts (.bare [c]) use))
      else
        match parts, use with
        | [], .member p => if c = '}' then r.stepNext p c else none
        | _, _ => none
  | .bare text =>
      if isBareKey c then some (r.setMode (.key parts (.bare (text ++ [c])) use))
      else if isWs c then some (r.setMode (.key (parts ++ [text]) .behind use))
      else if c = '.' then some (r.setMode (.key (parts ++ [text]) .part use))
      else r.endKey (parts ++ [text]) use c
  | .quoted s =>
      if s.escape = .no && c = s.quote.char then
        some (r.setMode (.key (parts ++ [s.text]) .behind use))
      else (s.push false c).map fun s' => r.setMode (.key parts (.quoted s') use)
  | .behind =>
      if isWs c then some r
      else if c = '.' then some (r.setMode (.key parts .part use))
      else r.endKey parts use c

def step (r : Reader) (c : Char) : Option Reader :=
  match r.mode with
  | .start =>
      if c = '\n' || isWs c then some r
      else if c = '#' then some (r.setMode .comment)
      else if c = '[' then some (r.setMode .bracket)
      else r.stepKey [] .part .assign c
  | .comment => if c = '\n' then some (r.setMode .start) else some r
  | .after => r.stepAfter c
  | .bracket =>
      if c = '[' then some (r.setMode (.key [] .part .element))
      else (r.setMode (.key [] .part .header)).stepKey [] .part .header c
  | .key parts km use => r.stepKey parts km use c
  | .close parts =>
      if c = ']' then
        (r.doc.openElement parts).map fun opened => ⟨opened.1, opened.2, .after⟩
      else none
  | .value p => r.stepValue p c
  | .next p => r.stepNext p c
  | .commentIn p behind =>
      if c = '\n' then some (r.setMode (if behind then .next p else .value p)) else some r
  | .quoteOne quote p =>
      if c = quote.char then some (r.setMode (.quoteTwo quote p))
      else r.stepSingle { quote := quote } p c
  | .quoteTwo quote p =>
      if c = quote.char then some (r.setMode (.multi { quote := quote } true 0 p))
      else r.emitBefore p (.string []) c
  | .single s p => r.stepSingle s p c
  | .multi s fresh quotes p => r.stepMulti s fresh quotes p c
  | .bare text p =>
      if isScalar c then some (r.setMode (.bare (text ++ [c]) p))
      else r.emitBefore p (.scalar text) c

def run (r : Reader) (text : Text) : Option Reader := text.foldlM step r

end Reader

/-- A document ends at the end of a line. -/
def parse (text : Text) : Option Document :=
  (Reader.run {} (text ++ ['\n'])).bind fun r =>
    match r.mode with
    | .start => some r.doc
    | _ => none

end GrpcM.Toml
