import GrpcM.Grpcgen.PlanEntries
import Mathlib.Data.List.Lex
import Mathlib.Data.List.Sort
import Mathlib.Data.Char

/-!
`plan`, which addresses files below `proto_dir` by name, and `plan_all`, which
enumerates every generation root; both end in `planEntries`.

One error code is shared by the existence test, the iterator and every status
query of the enumeration, and the loop stops when it finds it set. The loop is
`collectNames`, with the code as its first argument.
-/

namespace GrpcM.Grpcgen

open GrpcM.Path GrpcM.FileSystem

def plan (h : Host) (protos : List Text) (opt : Options) : Build h (List Edge) := do
  if h.manifestDir.isEmpty then
    println noContextText
    return []
  let pd := opt.protoDir
  let base :=
    if isAbsolute pd then genericString pd
    else genericString (lexicallyNormal (append h.manifestDir pd))
  planEntries h (protos.map fun n => ⟨base, n⟩) opt

/-! ### Enumerating a root -/

def rootDir (h : Host) (r : Text) : Text :=
  if isAbsolute r then r else lexicallyNormal (append h.manifestDir r)

/-- The name of a listed file: its path relative to the root, without extension. -/
def protoName (dir : Text) (e : DirectoryEntry) : Text :=
  genericString (replaceExtension (lexicallyRelative (e.path dir) dir))

/-- The loop over the entries of one root, started with a clear error code. -/
def collectNames (dir : Text) : Bool → Listing DirectoryEntry → List Text →
    Except Fault (List Text)
  | _, .done, names => .ok names
  | _, .fault, _ => .error .filesystemError
  | ec, .entry e rest, names =>
      -- `if (ec) break;` comes before the entry is looked at
      if ec then .ok names
      else if !e.isRegularFile.1 then collectNames dir e.isRegularFile.2 rest names
      else if extension (e.path dir) != protoExtension then
        collectNames dir e.isRegularFile.2 rest names
      else collectNames dir e.isRegularFile.2 rest (names ++ [protoName dir e])

/-- The names one root contributes, in enumeration order. -/
def rootNames (h : Host) (r : Text) : Except Fault (List Text) :=
  match h.recursiveDirectoryIterator (rootDir h r) with
  | none => .ok []
  | some listing => collectNames (rootDir h r) false listing []

/-- `std::ranges::sort` with its default comparison: no name is less than one before it. -/
def sortNames (names : List Text) : List Text := names.insertionSort fun a b => ¬b < a

/-! ### The function -/

def noDirectoryText (r root : Text) : Text :=
  lit "grpcgen::plan_all(): no '" ++ r ++ lit "' directory under " ++ root

def noFilesText (protoDir : Text) : Text :=
  lit "grpcgen::plan_all(): no .proto files under " ++ protoDir

/-- The directories code is generated from: `proto_dir`, then `extra_dirs`. -/
def generationRoots (opt : Options) : List Text := opt.protoDir :: opt.extraDirs

def globPattern (r : Text) : Text := r ++ lit "/**/*.proto"

/-- The loop over the generation roots; `none` after a root that does not exist. -/
def enumerateRoots (h : Host) : List Text → List Entry → Build h (Option (List Entry))
  | [], entries => return some entries
  | r :: rs, entries => do
      direct (.rerunIfChangedGlob (globPattern r))
      if !h.fileExists (rootDir h r) then
        println (noDirectoryText r h.manifestDir)
        return none
      let names ← liftExcept (rootNames h r)
      enumerateRoots h rs
        (entries ++ (sortNames names).map fun n => ⟨genericString (rootDir h r), n⟩)

def planAll (h : Host) (opt : Options) : Build h (List Edge) := do
  if h.manifestDir.isEmpty then
    println noContextText
    return []
  match ← enumerateRoots h (generationRoots opt) [] with
  | none => return []
  | some entries =>
      if entries.isEmpty then
        println (noFilesText opt.protoDir)
        return []
      planEntries h entries opt

end GrpcM.Grpcgen
