import GrpcM.Path.Filename
import GrpcM.Path.Location

/-!
What iterating over a directory yields. An iterator position is a `Listing`:
the end, an increment that throws, or an entry and the position after it. The
entries of a recursive iteration are known by the names that lead to them from
the iterated directory, so a valid entry path is a structure of its own.
-/

namespace GrpcM.FileSystem

open GrpcM.Path

inductive FileType
  | regular
  | directory
  | other
  deriving DecidableEq, Repr

/-- The way from an iterated directory down to one of its entries. -/
structure RelativePath where
  names : List Text
  nonempty : names ≠ []
  proper : ∀ n ∈ names, IsProperName n
  deriving DecidableEq

def RelativePath.ofNames (ns : List Text) : Option RelativePath :=
  if hns : ns ≠ [] ∧ ∀ n ∈ ns, IsProperName n then some ⟨ns, hns.1, hns.2⟩ else none

def RelativePath.text (r : RelativePath) : Text := join r.names

/-- An entry and the type of the file it names once links are followed; `none`
when that status cannot be read, as for a link whose target is missing. -/
structure DirectoryEntry where
  relative : RelativePath
  status : Option FileType
  deriving DecidableEq

def DirectoryEntry.path (dir : Text) (e : DirectoryEntry) : Text :=
  append dir e.relative.text

/-- `is_regular_file(ec)`: the answer, and whether it leaves `ec` set. -/
def DirectoryEntry.isRegularFile (e : DirectoryEntry) : Bool × Bool :=
  (e.status == some .regular, e.status.isNone)

def DirectoryEntry.readable (e : DirectoryEntry) : Bool := e.status.isSome

/-- An iterator position. -/
inductive Listing (α : Type)
  | done
  | fault
  | entry (e : α) (rest : Listing α)
  deriving DecidableEq

variable {α : Type}

def Listing.entries : Listing α → List α
  | .done | .fault => []
  | .entry e rest => e :: rest.entries

/-- An iteration over the given entries in order that ends without an error. -/
def Listing.ofList : List α → Listing α
  | [] => .done
  | e :: es => .entry e (ofList es)

@[simp] theorem Listing.entries_ofList (es : List α) : (ofList es).entries = es := by
  induction es with
  | nil => rfl
  | cons e es ih => simp [ofList, entries, ih]

/-! ### Entry paths -/

theorem RelativePath.isFilename (r : RelativePath) : ∀ n ∈ r.names, IsFilename n :=
  fun n hn => (r.proper n hn).1

theorem RelativePath.text_injective {r r' : RelativePath} (h : r.text = r'.text) : r = r' := by
  have hnames : r.names = r'.names := by
    rw [← filenames_join r.isFilename, ← filenames_join r'.isFilename]
    exact congrArg filenames h
  cases r
  cases r'
  simpa using hnames

theorem RelativePath.isAbsolute_text (r : RelativePath) : isAbsolute r.text = false :=
  isAbsolute_join r.isFilename

theorem RelativePath.locate_text (r : RelativePath) : locate r.text = ⟨false, r.names⟩ :=
  locate_join r.proper

theorem DirectoryEntry.lexicallyRelative_path {dir : Text} (e : DirectoryEntry)
    (hdir : dir ≠ []) : lexicallyRelative (e.path dir) dir = e.relative.text :=
  lexicallyRelative_append_join hdir e.relative.nonempty e.relative.isFilename

theorem DirectoryEntry.extension_path {dir : Text} (e : DirectoryEntry) :
    extension (e.path dir) = extension e.relative.text :=
  extension_append_path e.relative.isAbsolute_text

theorem DirectoryEntry.locate_path {dir : Text} (e : DirectoryEntry) (hdir : dir ≠ []) :
    locate (e.path dir) = ⟨isAbsolute dir, (locate dir).names ++ e.relative.names⟩ := by
  rw [DirectoryEntry.path, locate_append hdir e.relative.isAbsolute_text,
    e.relative.locate_text]

end GrpcM.FileSystem
