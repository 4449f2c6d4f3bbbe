import GrpcM.Grpcgen.PlanEntries

/-!
The directories an author names in the options, and where they lie. A relative
one counts from the manifest directory, and `..` in it takes back a name.
-/

namespace GrpcM.Grpcgen

open GrpcM.Path

variable {h : Host} {opt : Options}

/-- `proto_dir`, `extra_dirs` and `imports`, as they are written. -/
def Options.directories (opt : Options) : List Text :=
  opt.protoDir :: (opt.extraDirs ++ opt.imports)

def placeUnder (manifestDir v : Text) : Location :=
  if isAbsolute v then locate v else ((locate manifestDir).along (locate v)).normal

/-- The same as a path, which keeps a separator at the end. -/
def pathUnder (manifestDir v : Text) : Text :=
  if isAbsolute v then v else lexicallyNormal (append manifestDir v)

/-- Where the file of an entry is looked for: below the root as that is written. -/
def Entry.place (ent : Entry) : Location :=
  (locate (ent.root ++ ['/'])).along (locate (ent.name ++ protoExtension))

theorem includeRoots_eq (wkt : Text) :
    includeRoots h opt wkt = opt.directories.map (absUnderRoot h) ++ [wkt] := by
  simp [includeRoots, Options.directories]

theorem absUnderRoot_eq_genericString (v : Text) :
    absUnderRoot h v = genericString (pathUnder h.manifestDir v) := by
  rw [absUnderRoot, pathUnder]
  split
  case isTrue => rfl
  case isFalse => rfl

theorem locate_absUnderRoot (hroot : h.manifestDir ≠ []) (v : Text) :
    locate (absUnderRoot h v) = placeUnder h.manifestDir v := by
  rw [absUnderRoot, placeUnder]
  split
  case isTrue => exact locate_genericString v
  case isFalse hrel =>
    have hrel : isAbsolute v = false := by simpa using hrel
    rw [locate_genericString, locate_lexicallyNormal (append_ne_nil v hroot),
      locate_append hroot hrel]
    rfl

theorem locate_source_eq (ent : Entry) : locate ent.source = ent.place := by
  have hsource : ent.source = (ent.root ++ ['/']) ++ (ent.name ++ protoExtension) := by
    simp [Entry.source]
  rw [hsource, locate, isAbsolute_append_text _ (by simp), List.append_assoc,
    List.singleton_append, filenames_append_slash, List.filter_append, Entry.place]
  simp [locate, Location.along]

end GrpcM.Grpcgen
