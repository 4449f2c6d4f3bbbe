import GrpcM.FileSystem.Listing

/-!
What a build program runs against. `Mcpp` is what the build tool tells it,
`Files` what the file system answers, and a `Session` is what a run changes:
the disk, the diagnostics on standard error and the directives handed to mcpp.
Everything is read before the first directory is created, so only
`createDirectories` sees the changing disk.
-/

namespace GrpcM

open GrpcM.Path GrpcM.FileSystem

/-- The values of `mcpp::manifest_dir`, `out_dir`, `dep_bin` and `dep_dir`. A tool
that was not declared is a null pointer, here `none`. -/
structure Mcpp where
  manifestDir : Text
  outDir : Text
  depBin : Text → Text → Option Text
  depDir : Text → Text

/-- The file system calls of the rule. An iterator that cannot open its
directory sets the error code and is empty, here `none`. -/
structure Files where
  Disk : Type
  fileExists : Text → Bool
  directoryIterator : Text → Option (Listing Text)
  recursiveDirectoryIterator : Text → Option (Listing DirectoryEntry)
  /-- The disk after the call, and whether it reported no error. -/
  createDirectories : Disk → Text → Disk × Bool
  isDirectory : Disk → Text → Bool
  directoryIterator_nil : directoryIterator [] = none
  isDirectory_of_created : ∀ d p,
    (createDirectories d p).2 = true → isDirectory (createDirectories d p).1 p = true
  isDirectory_mono : ∀ d p q,
    isDirectory d q = true → isDirectory (createDirectories d p).1 q = true
  /-- Separators may be written more than once. -/
  isDirectory_congr : ∀ d p q,
    genericString p = genericString q → isDirectory d p = isDirectory d q

structure Host extends Mcpp, Files

/-- `mcpp::action`. -/
structure Action where
  id : Text
  role : Text
  description : Text
  command : List Text
  inputs : List Text
  outputs : List Text
  deriving DecidableEq, Repr

inductive Directive
  | rerunIfChangedGlob (pattern : Text)
  | action (a : Action)
  | includeDir (dir : Text)
  deriving DecidableEq, Repr

structure Session (h : Host) where
  disk : h.Disk
  diagnostics : List Text
  directives : List Directive

/-- The exception an iterator increment throws. -/
inductive Fault
  | filesystemError
  deriving DecidableEq, Repr

/-- A step of a build program. An exception keeps what was done before it. -/
abbrev Build (h : Host) := EStateM Fault (Session h)

def returned {h : Host} {α : Type} (x : Build h α) (s : Session h) : Option α :=
  match x.run s with
  | .ok a _ => some a
  | .error _ _ => none

theorem returned_eq_some {h : Host} {α : Type} {x : Build h α} {s : Session h} {a : α} :
    returned x s = some a ↔ ∃ s', x.run s = .ok a s' := by
  rw [returned]
  cases x.run s with
  | ok b s' => simp
  | error e s' => simp

section Primitives

variable {h : Host}

def println (text : Text) : Build h Unit :=
  modify fun s => { s with diagnostics := s.diagnostics ++ [text] }

def direct (d : Directive) : Build h Unit :=
  modify fun s => { s with directives := s.directives ++ [d] }

/-- `create_directories(p, ec)` by a caller that does not look at `ec`. -/
def createDirectories (p : Text) : Build h Unit :=
  modify fun s => { s with disk := (h.createDirectories s.disk p).1 }

def liftExcept {α : Type} : Except Fault α → Build h α
  | .ok a => pure a
  | .error e => throw e

@[simp] theorem run_direct (d : Directive) (s : Session h) :
    (direct d).run s = .ok () { s with directives := s.directives ++ [d] } := rfl

@[simp] theorem run_createDirectories (p : Text) (s : Session h) :
    (createDirectories p).run s =
      .ok () { s with disk := (h.createDirectories s.disk p).1 } := rfl

@[simp] theorem run_liftExcept_ok {α : Type} (a : α) (s : Session h) :
    (liftExcept (.ok a)).run s = .ok a s := rfl

/-- A loop that tells mcpp one thing for each element. -/
theorem run_forIn_direct {α : Type} (f : α → Directive) (xs : List α) (s : Session h) :
    (forIn xs PUnit.unit fun x _ => do
        direct (f x)
        pure (ForInStep.yield PUnit.unit) : Build h PUnit).run s =
      .ok PUnit.unit { s with directives := s.directives ++ xs.map f } := by
  induction xs generalizing s with
  | nil => simp
  | cons x xs ih =>
      rw [List.forIn_cons]
      simp only [bind_assoc, pure_bind, EStateM.run_bind, run_direct, ih]
      simp

end Primitives

/-- The disk after `create_directories` was called on each of some paths. -/
def createAll (h : Host) (d : h.Disk) (ps : List Text) : h.Disk :=
  ps.foldl (fun d p => (h.createDirectories d p).1) d

/-- No call of the sequence reports an error. -/
def AllCreated (h : Host) (d : h.Disk) : List Text → Prop
  | [] => True
  | p :: ps => (h.createDirectories d p).2 = true ∧
      AllCreated h (h.createDirectories d p).1 ps

theorem isDirectory_createAll_of_isDirectory {h : Host} {q : Text} (ps : List Text)
    {d : h.Disk} (hq : h.isDirectory d q = true) :
    h.isDirectory (createAll h d ps) q = true := by
  induction ps generalizing d with
  | nil => exact hq
  | cons p ps ih => exact ih (h.isDirectory_mono d p q hq)

/-- Directories whose creation reported no error are there at the end. -/
theorem isDirectory_createAll {h : Host} {d : h.Disk} {ps : List Text}
    (hall : AllCreated h d ps) : ∀ p ∈ ps, h.isDirectory (createAll h d ps) p = true := by
  induction ps generalizing d with
  | nil => simp
  | cons q ps ih =>
      intro p hp
      rcases List.mem_cons.mp hp with rfl | hp
      · exact isDirectory_createAll_of_isDirectory ps
          (h.isDirectory_of_created d p hall.1)
      · exact ih hall.2 p hp

/-! ### A host with fixed answers -/

def entriesOf (files : List (List Text × Option FileType)) : List DirectoryEntry :=
  files.filterMap fun f => (RelativePath.ofNames f.1).map (⟨·, f.2⟩)

theorem mem_entriesOf {files : List (List Text × Option FileType)} {e : DirectoryEntry} :
    e ∈ entriesOf files ↔ (e.relative.names, e.status) ∈ files := by
  rw [entriesOf, List.mem_filterMap]
  constructor
  · rintro ⟨⟨ns, status⟩, hf, heq⟩
    obtain ⟨r, hr, rfl⟩ := Option.map_eq_some_iff.mp heq
    have hnames : r.names = ns := by
      rw [RelativePath.ofNames] at hr
      split at hr
      · cases hr
        rfl
      · cases hr
    rwa [hnames]
  · intro hf
    refine ⟨_, hf, ?_⟩
    rw [RelativePath.ofNames, dif_pos ⟨e.relative.nonempty, e.relative.proper⟩]
    rfl

/-- All tools are there, the roots are the given ones, and directories can be created
when `writable` says so. -/
def fixedHost (roots : List (Text × Listing DirectoryEntry)) (writable : Bool) : Host where
  manifestDir := lit "/m"
  outDir := lit "/o"
  depBin _ tool := some (lit "/bin/" ++ tool)
  depDir _ := lit "/p"
  Disk := List Text
  fileExists p := roots.any (·.1 = p) || p = lit "/p/pb/src/google/protobuf/descriptor.proto"
  directoryIterator p :=
    if p = lit "/p" then some (.ofList [lit "pb"]) else none
  recursiveDirectoryIterator p := (roots.find? (·.1 = p)).map (·.2)
  createDirectories d p := (if writable then p :: d else d, writable)
  isDirectory d p := d.any fun q => genericString q = genericString p
  directoryIterator_nil := by decide +kernel
  isDirectory_of_created := by
    intro d p hw
    simp only at hw
    simp [hw]
  isDirectory_mono := by
    intro d p q hq
    cases writable
    · exact hq
    · simp_all
  isDirectory_congr := by
    intro d p q heq
    simp only [heq]

def freshSession (roots : List (Text × Listing DirectoryEntry)) (writable : Bool) :
    Session (fixedHost roots writable) :=
  ⟨[], [], []⟩

end GrpcM
