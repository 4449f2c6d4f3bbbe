import GrpcM.Path.Location
import Mathlib.Data.List.TakeWhile
import Mathlib.Logic.Relation

/-!
What is assumed of protoc, which the rule only hands a command to: how it takes
the command apart, which files it reads for it, and under which name it knows
the source file.

Files are places, so that two spellings of one path are one file.
-/

namespace GrpcM.Protoc

open GrpcM.Path

/-- The files protoc can open, and the imports written in them. -/
structure SourceTree where
  holds : Location → Bool
  imports : Location → List Text

def SourceTree.ofFiles (files : List (Text × List Text)) : SourceTree where
  holds l := files.any fun f => locate f.1 = l
  imports l := (files.find? fun f => locate f.1 = l).elim [] (·.2)

/-! ### The command -/

/-- The `-I` roots of a command line in order. -/
def includeFlags (args : List Text) : List Text :=
  args.filterMap ((lit "-I").isPrefixOf? ·)

/-- The program comes first and the source file last. -/
def searchPath (command : List Text) : List Text := includeFlags command.tail.dropLast

def sourceFile (command : List Text) : Text := command.getLast?.getD []

theorem includeFlags_append (as bs : List Text) :
    includeFlags (as ++ bs) = includeFlags as ++ includeFlags bs :=
  List.filterMap_append

theorem includeFlags_map (roots : List Text) :
    includeFlags (roots.map (lit "-I" ++ ·)) = roots := by
  rw [includeFlags, List.filterMap_map]
  have hsome : ∀ r : Text, (lit "-I").isPrefixOf? (lit "-I" ++ r) = some r :=
    fun r => List.isPrefixOf?_eq_some_iff_append_eq.mpr rfl
  simp only [Function.comp_def, hsome, List.filterMap_some]

/-- Long options name no include root. -/
theorem includeFlags_eq_nil {args : List Text} (hlong : ∀ a ∈ args, lit "--" <+: a) :
    includeFlags args = [] := by
  refine List.filterMap_eq_nil_iff.mpr fun a ha => ?_
  obtain ⟨rest, rfl⟩ := hlong a ha
  rfl

theorem searchPath_eq (program source : Text) (args : List Text) :
    searchPath (program :: args ++ [source]) = includeFlags args := by
  rw [searchPath, List.cons_append, List.tail_cons, List.dropLast_concat]

@[simp] theorem sourceFile_concat (command : List Text) (source : Text) :
    sourceFile (command ++ [source]) = source := by
  simp [sourceFile]

/-! ### The files a run reads -/

def inRoot (r v : Text) : Location := locate (r ++ '/' :: v)

/-- An import is looked for below each root in turn. -/
def resolve (tree : SourceTree) (roots : List Text) (v : Text) : Option Location :=
  (roots.find? fun r => tree.holds (inRoot r v)).map (inRoot · v)

/-- Reading one file makes protoc open another. -/
def Imports (tree : SourceTree) (roots : List Text) (file file' : Location) : Prop :=
  ∃ v ∈ tree.imports file, resolve tree roots v = some file'

/-- The files protoc reads when it runs a command. -/
def Reads (tree : SourceTree) (command : List Text) (file : Location) : Prop :=
  Relation.ReflTransGen (Imports tree (searchPath command)) (locate (sourceFile command)) file

/-! ### The name of the source file -/

/-- The roots before the first one that is a directory prefix of the source. -/
def rootsBefore (roots : List Text) (source : Text) : List Text :=
  roots.takeWhile fun q => ¬(locate q).IsPrefix (locate source)

/-- That first root decides the name. The source is refused when there is none, or when
a root before it holds a file of that name. -/
def virtualName (tree : SourceTree) (roots : List Text) (source : Text) :
    Option (List Text) :=
  match roots.find? fun r => (locate r).IsPrefix (locate source) with
  | none => none
  | some r =>
      -- a file of this name below an earlier root shadows the source
      let v := (locate r).below (locate source)
      if (rootsBefore roots source).any fun q => tree.holds (inRoot q (join v)) then none
      else some v

/-- The roots before the first one at the place of `r`. -/
def rootsOutside (roots : List Text) (r : Text) : List Text :=
  roots.takeWhile fun q => locate q ≠ locate r

theorem exists_split_rootsOutside {roots : List Text} {r : Text} (hr : r ∈ roots) :
    ∃ r' after, locate r' = locate r ∧ roots = rootsOutside roots r ++ r' :: after := by
  induction roots with
  | nil => simp at hr
  | cons q roots ih =>
      by_cases hq : locate q = locate r
      · exact ⟨q, roots, hq, by simp [rootsOutside, hq]⟩
      · have hne : r ≠ q := fun h => hq (h ▸ rfl)
        obtain ⟨r', after, hr', hsplit⟩ := ih ((List.mem_cons.mp hr).resolve_left hne)
        refine ⟨r', after, hr', ?_⟩
        have hstep : rootsOutside (q :: roots) r = q :: rootsOutside roots r := by
          simp [rootsOutside, hq]
        rw [hstep, List.cons_append, ← hsplit]

theorem ne_of_mem_rootsOutside {roots : List Text} {q r : Text}
    (hq : q ∈ rootsOutside roots r) : locate q ≠ locate r := by
  simpa using List.mem_takeWhile_imp hq

/-- No root outside `r` takes the source, so `r` names it. -/
theorem virtualName_of_outside (tree : SourceTree) {roots : List Text} {r source : Text}
    (hr : r ∈ roots) (hpre : (locate r).IsPrefix (locate source))
    (hout : ∀ q ∈ rootsOutside roots r, ¬(locate q).IsPrefix (locate source)) :
    virtualName tree roots source =
      if (rootsOutside roots r).any fun q =>
          tree.holds (inRoot q (join ((locate r).below (locate source)))) then none
      else some ((locate r).below (locate source)) := by
  obtain ⟨r', after, hr', hsplit⟩ := exists_split_rootsOutside hr
  have hpre_r' : (locate r').IsPrefix (locate source) := hr' ▸ hpre
  have hfind : roots.find? (fun q => (locate q).IsPrefix (locate source)) = some r' := by
    rw [hsplit, List.find?_append, List.find?_eq_none.mpr (by simpa using hout)]
    simp [hpre_r']
  have hbefore : rootsBefore roots source = rootsOutside roots r := by
    conv_lhs => rw [hsplit]
    rw [rootsBefore, List.takeWhile_append_of_pos (by simpa using hout)]
    simp [hpre_r']
  simp only [virtualName, hfind, hbefore, hr']

/-- The source gets its name from the place of `r` exactly when no root outside that
place is a prefix of it or holds a file of that name. -/
theorem virtualName_eq_below_iff (tree : SourceTree) {roots : List Text} {r source : Text}
    (hr : r ∈ roots) (hpre : (locate r).IsPrefix (locate source)) :
    virtualName tree roots source = some ((locate r).below (locate source)) ↔
      ∀ q ∈ rootsOutside roots r, ¬(locate q).IsPrefix (locate source) ∧
        ¬tree.holds (inRoot q (join ((locate r).below (locate source)))) = true := by
  by_cases hout : ∀ q ∈ rootsOutside roots r, ¬(locate q).IsPrefix (locate source)
  · rw [virtualName_of_outside tree hr hpre hout]
    constructor
    · intro hname q hq
      refine ⟨hout q hq, fun hholds => ?_⟩
      rw [if_pos (List.any_eq_true.mpr ⟨q, hq, hholds⟩)] at hname
      cases hname
    · intro hall
      refine if_neg fun hany => ?_
      obtain ⟨q, hq, hholds⟩ := List.any_eq_true.mp hany
      exact (hall q hq).2 hholds
  · refine iff_of_false (fun hname => ?_) (fun hall => hout fun q hq => (hall q hq).1)
    -- the first prefix lies elsewhere, so the rest of the path below it is another one
    push Not at hout
    obtain ⟨q, hq, hqpre⟩ := hout
    obtain ⟨r', after, -, hsplit⟩ := exists_split_rootsOutside hr
    obtain ⟨q', hq'⟩ : ∃ q', (rootsOutside roots r).find?
        (fun q => (locate q).IsPrefix (locate source)) = some q' :=
      Option.isSome_iff_exists.mp (List.find?_isSome.mpr ⟨q, hq, by simpa using hqpre⟩)
    have hfind : roots.find? (fun q => (locate q).IsPrefix (locate source)) = some q' := by
      rw [hsplit, List.find?_append, hq', Option.some_or]
    have hbelow : (locate q').below (locate source) = (locate r).below (locate source) := by
      simp only [virtualName, hfind] at hname
      split at hname
      · cases hname
      · exact Option.some.inj hname
    have hpre' : (locate q').IsPrefix (locate source) := by
      simpa using List.find?_some hq'
    exact ne_of_mem_rootsOutside (List.mem_of_find?_eq_some hq')
      (Location.eq_of_below_eq hpre' hpre hbelow)

theorem rootsOutside_append {roots more : List Text} {r : Text} (hr : r ∈ roots) :
    rootsOutside (roots ++ more) r = rootsOutside roots r := by
  obtain ⟨r', after, hr', hsplit⟩ := exists_split_rootsOutside hr
  have hall : ∀ q ∈ rootsOutside roots r, decide (locate q ≠ locate r) = true :=
    fun q hq => by simpa using ne_of_mem_rootsOutside hq
  conv_lhs => rw [hsplit]
  rw [List.append_assoc, rootsOutside, List.takeWhile_append_of_pos hall]
  simp [hr']

/-! ### The files a run writes -/

def stripProto (v : Text) : Text := ((lit ".proto").isSuffixOf? v).getD v

def writtenFiles (out : Text) (suffixes : List Text) (v : Text) : List Text :=
  suffixes.map fun suffix => out ++ '/' :: (stripProto v ++ suffix)

/-- The files a command's generators write, when the source is not refused. -/
def written (tree : SourceTree) (out : Text) (suffixes command : List Text) :
    Option (List Text) :=
  (virtualName tree (searchPath command) (sourceFile command)).map fun v =>
    writtenFiles out suffixes (join v)

@[simp] theorem stripProto_append (n : Text) : stripProto (n ++ lit ".proto") = n := by
  have hsuffix : (lit ".proto").isSuffixOf? (n ++ lit ".proto") = some n :=
    List.isSuffixOf?_eq_some_iff_append_eq.mpr rfl
  rw [stripProto, hsuffix, Option.getD_some]

end GrpcM.Protoc
