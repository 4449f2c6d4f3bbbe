import GrpcM.GenSources.Collect
import GrpcM.Lines

/-!
A CMakeLists.txt as lines, some of them in `add_library` blocks. The expression
of `target_sources` finds the block of a target and no other, also where the name
of one target starts with the name of another, so `collect` divides the sources of
its targets among the two lists and the one file it leaves out.
-/

namespace GrpcM.GenSources

open GrpcM.Cut GrpcM.FirstOccurrence GrpcM.Lines GrpcM.Path GrpcM.Python

/-! ### The file -/

def addLibrary : Text := lit "add_library("

/-- `add_library(NAME ARGUMENTS`, more lines, and a line that is just `)`. -/
structure Block where
  name : Text
  arguments : Text
  lines : List Text
  name_free : ∀ c ∈ name, isSpace c = false
  arguments_head : ∀ c ∈ arguments.head?, isSpace c = true
  arguments_free : '\n' ∉ arguments
  lines_free : ∀ l ∈ lines, '\n' ∉ l ∧ lit ")" ≠ l ∧ ¬addLibrary <+: l
  nonempty : ∃ c ∈ arguments ++ lines.flatten, isSpace c = false

inductive Item where
  | line (l : Text) (free : '\n' ∉ l) (other : ¬addLibrary <+: l)
  | block (b : Block)

/-- What stands between the name and the closing line. -/
def Block.body (b : Block) : Text := b.arguments ++ b.lines.flatMap ('\n' :: ·)

def Block.sources (b : Block) : List Text := sourceLines b.body

def Item.lines : Item → List Text
  | .line l _ _ => [l]
  | .block b => (addLibrary ++ b.name ++ b.arguments) :: (b.lines ++ [lit ")"])

def fileText (items : List Item) : Text := ['\n'].intercalate (items.flatMap Item.lines)

def names (items : List Item) : List Text :=
  items.filterMap fun
    | .line _ _ _ => none
    | .block b => some b.name

theorem head?_flatMap_cons (ls : List Text) :
    ∀ c ∈ (ls.flatMap ('\n' :: ·)).head?, c = '\n' := by
  cases ls with
  | nil => simp
  | cons l ls => simp

/-! ### The search -/

theorem search_cons (marker : Text) (c : Char) (t : Text) :
    search marker (c :: t) = ((marker.isPrefixOf? (c :: t)).bind matchBody).or (search marker t) :=
  rfl

theorem search_append_of_not_mem {w l : Text} (hl : '\n' ∉ l) (t : Text) :
    search ('\n' :: w) (l ++ t) = search ('\n' :: w) t := by
  induction l with
  | nil => rfl
  | cons c l ih =>
      rw [List.mem_cons, not_or] at hl
      have hno : ('\n' :: w).isPrefixOf? (c :: (l ++ t)) = none := by
        refine Option.eq_none_iff_forall_ne_some.mpr fun rest hrest => hl.1 ?_
        have heq := List.isPrefixOf?_eq_some_iff_append_eq.mp hrest
        exact (List.cons.inj heq).1
      rw [List.cons_append, search_cons, hno, Option.bind_none, Option.none_or, ih hl.2]

theorem search_line {w l : Text} (hw : '\n' ∉ w) (hl : '\n' ∉ l) (hno : ¬w <+: l)
    (ls : List Text) :
    search ('\n' :: w) ('\n' :: (l ++ ls.flatMap ('\n' :: ·))) =
      search ('\n' :: w) (ls.flatMap ('\n' :: ·)) := by
  have hprefix : ('\n' :: w).isPrefixOf? ('\n' :: (l ++ ls.flatMap ('\n' :: ·))) = none := by
    refine Option.eq_none_iff_forall_ne_some.mpr fun rest hrest => hno ?_
    have heq := List.isPrefixOf?_eq_some_iff_append_eq.mp hrest
    have hpre : w <+: l ++ ls.flatMap ('\n' :: ·) := ⟨rest, (List.cons.inj heq).2⟩
    refine prefix_of_prefix_append (q := (· = '\n')) ?_ (head?_flatMap_cons ls) hpre
    rintro c hc rfl
    exact hw hc
  rw [search_cons, hprefix, Option.bind_none, Option.none_or, search_append_of_not_mem hl]

theorem search_lines {w : Text} (hw : '\n' ∉ w) {ls : List Text}
    (hls : ∀ l ∈ ls, '\n' ∉ l ∧ ¬w <+: l) (rest : List Text) :
    search ('\n' :: w) ((ls ++ rest).flatMap ('\n' :: ·)) =
      search ('\n' :: w) (rest.flatMap ('\n' :: ·)) := by
  induction ls with
  | nil => rfl
  | cons l ls ih =>
      obtain ⟨hl, hno⟩ := hls l List.mem_cons_self
      rw [List.cons_append, List.flatMap_cons, List.cons_append, search_line hw hl hno]
      exact ih fun l' hl' => hls l' (List.mem_cons_of_mem _ hl')

/-! ### The group -/

/-- Without the last line feed the close is not there. -/
theorem not_infix_unclosed {body : Text} (hfirst : First blockEnd body) :
    ¬blockEnd <:+: body ++ lit "\n)" := by
  rintro ⟨u, v, heq⟩
  have hlength : (lit "\n)").length < blockEnd.length := by decide +kernel
  rw [List.append_assoc] at heq
  rcases List.append_eq_append_iff.mp heq.symm with ⟨c, rfl, hc⟩ | ⟨c, rfl, hc⟩
  · have hshort := congrArg List.length hc
    rw [List.length_append, List.length_append] at hshort
    omega
  · cases c with
    | nil =>
        have hshort := congrArg List.length hc
        rw [List.length_append, List.nil_append] at hshort
        omega
    | cons a c =>
        refine hfirst (a :: c) (List.cons_ne_nil _ _) (List.suffix_append _ _) ?_
        have hclose : blockEnd = lit "\n)" ++ ['\n'] := rfl
        refine ⟨v ++ ['\n'], ?_⟩
        conv_rhs => rw [hclose]
        rw [← List.append_assoc, hc, List.append_assoc]

/-- The group is the body behind its leading blanks. -/
theorem matchBody_eq_some {body rest x : Text} (hfirst : First blockEnd body)
    (hbody : ∃ c ∈ body, isSpace c = false) (hrest : ∀ c ∈ rest.head?, c = '\n')
    (hmatch : matchBody (body ++ (lit "\n)" ++ rest)) = some x) :
    x = body.dropWhile isSpace := by
  cases rest with
  | nil =>
      rw [List.append_nil, matchBody] at hmatch
      obtain ⟨k, -, hcut⟩ := List.exists_of_findSome?_eq_some hmatch
      obtain ⟨parts, hcut, -⟩ := Option.map_eq_some_iff.mp hcut
      obtain ⟨hdrop, -⟩ := cut_eq_some_iff.mp hcut
      have hinside : blockEnd <:+: (body ++ lit "\n)").drop (k + 1) :=
        ⟨parts.1, parts.2, by rw [hdrop, List.append_assoc]⟩
      exact absurd (hinside.trans (List.drop_suffix _ _).isInfix) (not_infix_unclosed hfirst)
  | cons a rest =>
      obtain rfl : a = '\n' := hrest a (by simp)
      -- the blanks end inside the body
      obtain ⟨c, hc, hspace⟩ := hbody
      have hne : body.dropWhile isSpace ≠ [] := by
        intro hnil
        have hall := List.dropWhile_eq_nil_iff.mp hnil c hc
        rw [hspace] at hall
        cases hall
      obtain ⟨b, tail, htail⟩ := List.exists_cons_of_ne_nil hne
      have hb : isSpace b = false := by
        have hhead := List.head_dropWhile_not isSpace hne
        simpa [htail] using hhead
      have hsplit := List.takeWhile_append_dropWhile (p := isSpace) (l := body)
      rw [htail] at hsplit ⊢
      generalize hspaces : body.takeWhile isSpace = spaces at hsplit
      have hall : ∀ c ∈ spaces, isSpace c = true := fun c hc =>
        List.mem_takeWhile_imp (hspaces ▸ hc)
      have hend : lit "\n)" ++ '\n' :: rest = blockEnd ++ rest := rfl
      rw [hend, ← hsplit, List.append_assoc, matchBody, List.takeWhile_append_of_pos hall,
        List.cons_append, List.takeWhile_cons_of_neg (by simp [hb]), List.append_nil] at hmatch
      cases hn : spaces.length with
      | zero =>
          rw [hn] at hmatch
          cases hmatch
      | succ n =>
          have hcut : cut blockEnd ((spaces ++ b :: (tail ++ (blockEnd ++ rest))).drop (n + 1)) =
              some (b :: tail, rest) := by
            rw [← hn, List.drop_left, ← List.cons_append]
            exact cut_eq_some_iff.mpr
              ⟨rfl, hfirst.of_suffix (hsplit ▸ List.suffix_append _ _)⟩
          rw [hn, List.range_succ, List.reverse_append, List.reverse_singleton,
            List.singleton_append, List.findSome?_cons, hcut] at hmatch
          exact (Option.some.inj hmatch).symm

theorem sourceLines_cons {c : Char} (hc : isSpace c = true) (t : Text) :
    sourceLines (c :: t) = sourceLines t := by
  have hnil : isSource (strip []) = false := by decide +kernel
  have hstep : ∀ ls : List Text,
      (([] :: ls).map strip).filter isSource = (ls.map strip).filter isSource := by
    intro ls
    rw [List.map_cons, List.filter_cons_of_neg (by simp [hnil])]
  by_cases hpair : ∃ t', c = '\r' ∧ t = '\n' :: t'
  · obtain ⟨t, rfl, rfl⟩ := hpair
    have hfeed : splitlines ('\n' :: t) = [] :: splitlines t :=
      splitlines_cons fun _ hreturn => absurd hreturn (by decide)
    have hboth : splitlines ('\r' :: '\n' :: t) = [] :: splitlines t := rfl
    rw [sourceLines, sourceLines, hboth, hfeed, hstep]
  · rw [sourceLines, sourceLines,
      splitlines_cons fun t' hreturn ht => hpair ⟨t', hreturn, ht⟩]
    split
    · exact hstep _
    · split
      case h_1 hsplit =>
          rw [List.map_singleton, strip_cons hc, hsplit, ← List.map_singleton, hstep]
      case h_2 l ls hsplit =>
          rw [hsplit, List.map_cons, List.map_cons, strip_cons hc]

theorem sourceLines_dropWhile (t : Text) :
    sourceLines (t.dropWhile isSpace) = sourceLines t := by
  induction t with
  | nil => rfl
  | cons c t ih =>
      cases hc : isSpace c with
      | true => rw [List.dropWhile_cons_of_pos hc, ih, sourceLines_cons hc]
      | false => rw [List.dropWhile_cons_of_neg (by simp [hc])]

/-! ### The block of a target -/

def targetMarker (target : Text) : Text := addLibrary ++ target

theorem targetMarker_free {target : Text} (htarget : ∀ c ∈ target, isSpace c = false) :
    '\n' ∉ targetMarker target := by
  rw [targetMarker, List.mem_append, not_or]
  refine ⟨by decide +kernel, fun hmem => ?_⟩
  have hspace := htarget _ hmem
  revert hspace
  decide

theorem not_addLibrary_prefix {target l : Text} (hl : ¬addLibrary <+: l) :
    ¬targetMarker target <+: l :=
  fun hpre => hl ((List.prefix_append _ _).trans hpre)

theorem Block.inner_lines (b : Block) {target : Text} :
    ∀ l ∈ b.lines ++ [lit ")"], '\n' ∉ l ∧ ¬targetMarker target <+: l := by
  intro l hl
  rcases List.mem_append.mp hl with hl | hl
  · obtain ⟨hfree, -, hno⟩ := b.lines_free l hl
    exact ⟨hfree, not_addLibrary_prefix hno⟩
  · obtain rfl := List.mem_singleton.mp hl
    exact ⟨by decide +kernel, not_addLibrary_prefix (by decide +kernel)⟩

theorem Block.header_free (b : Block) : '\n' ∉ addLibrary ++ b.name ++ b.arguments := by
  have hname : '\n' ∉ b.name := fun hmem => by
    have hspace := b.name_free _ hmem
    revert hspace
    decide
  simp only [List.mem_append, not_or]
  exact ⟨⟨by decide +kernel, hname⟩, b.arguments_free⟩

theorem Block.first_close (b : Block) : First blockEnd b.body :=
  first_header (m := lit ")") (by decide +kernel) b.arguments_free fun l hl =>
    ⟨(b.lines_free l hl).1, (b.lines_free l hl).2.1⟩

theorem Block.exists_body (b : Block) : ∃ c ∈ b.body, isSpace c = false := by
  obtain ⟨c, hc, hspace⟩ := b.nonempty
  refine ⟨c, ?_, hspace⟩
  rw [Block.body, List.mem_append]
  rcases List.mem_append.mp hc with hc | hc
  · exact Or.inl hc
  · obtain ⟨l, hl, hc⟩ := List.mem_flatten.mp hc
    exact Or.inr (List.mem_flatMap.mpr ⟨l, hl, List.mem_cons_of_mem _ hc⟩)

theorem Block.arguments_append (b : Block) (ls : List Text) :
    b.body ++ (lit "\n)" ++ ls.flatMap ('\n' :: ·)) =
      b.arguments ++ (b.lines ++ [lit ")"] ++ ls).flatMap ('\n' :: ·) := by
  have hend : lit "\n)" = '\n' :: lit ")" := rfl
  simp [Block.body, hend]

theorem Block.head_body (b : Block) (t : Text) : ∀ c ∈ (b.body ++ t).head?, isSpace c = true := by
  obtain ⟨a, ha, -⟩ := b.exists_body
  intro c hc
  rw [Block.body] at ha hc
  cases harguments : b.arguments with
  | cons c' arguments =>
      refine b.arguments_head c ?_
      simpa [harguments] using hc
  | nil =>
      rw [harguments, List.nil_append] at ha hc
      obtain ⟨l, ls, hlines⟩ : ∃ l ls, b.lines = l :: ls :=
        List.exists_cons_of_ne_nil fun hnil => by simp [hnil] at ha
      obtain rfl : '\n' = c := by simpa [hlines] using hc
      decide

/-- The expression matches at a block only for its own name, and then its group is the
block's body. -/
theorem search_block {b : Block} {target : Text} (htarget : ∀ c ∈ target, isSpace c = false)
    {ls : List Text} {x : Text}
    (hsearch : search ('\n' :: targetMarker target)
      (((Item.block b).lines ++ ls).flatMap ('\n' :: ·)) = some x) :
    (b.name = target ∧ x = b.body.dropWhile isSpace) ∨
      search ('\n' :: targetMarker target) (ls.flatMap ('\n' :: ·)) = some x := by
  have hinner := search_lines (targetMarker_free htarget) b.inner_lines ls
  have hrest : ∀ c ∈ (ls.flatMap ('\n' :: ·)).head?, c = '\n' := head?_flatMap_cons ls
  -- the text from the header on
  have htext : ((Item.block b).lines ++ ls).flatMap ('\n' :: ·) =
      '\n' :: (addLibrary ++ b.name ++ b.arguments ++
        (b.lines ++ [lit ")"] ++ ls).flatMap ('\n' :: ·)) := by
    simp [Item.lines]
  rw [htext, search_cons, search_append_of_not_mem b.header_free, hinner] at hsearch
  rcases Option.or_eq_some_iff.mp hsearch with hmatch | ⟨-, hlater⟩
  · left
    obtain ⟨rest, hprefix, hmatch⟩ := Option.bind_eq_some_iff.mp hmatch
    have hfound := (List.cons.inj (List.isPrefixOf?_eq_some_iff_append_eq.mp hprefix)).2
    have hwhole : addLibrary ++ (target ++ rest) =
        addLibrary ++ (b.name ++ (b.body ++ (lit "\n)" ++ ls.flatMap ('\n' :: ·)))) := by
      rw [b.arguments_append, ← List.append_assoc, ← List.append_assoc, ← List.append_assoc]
      exact hfound
    have heq := List.append_cancel_left hwhole
    obtain ⟨v, hv⟩ := prefix_of_prefix_append (q := (isSpace · = true)) (by simpa using htarget)
      (b.head_body _) ⟨rest, heq⟩
    rw [← hv, List.append_assoc, List.append_right_inj] at heq
    cases v with
    | nil =>
        rw [List.append_nil] at hv
        rw [heq, List.nil_append] at hmatch
        exact ⟨hv.symm, matchBody_eq_some b.first_close b.exists_body hrest hmatch⟩
    | cons c v =>
        -- the name goes on, so no blank follows
        have hc : isSpace c = false := b.name_free c (by simp [← hv])
        rw [heq, List.cons_append, matchBody, List.takeWhile_cons_of_neg (by simp [hc])] at hmatch
        cases hmatch
  · exact Or.inr hlater

/-! ### The whole file -/

theorem search_items {target : Text} (htarget : ∀ c ∈ target, isSpace c = false)
    {items : List Item} {x : Text}
    (hsearch : search ('\n' :: targetMarker target)
      ((items.flatMap Item.lines).flatMap ('\n' :: ·)) = some x) :
    ∃ b, Item.block b ∈ items ∧ b.name = target ∧ x = b.body.dropWhile isSpace := by
  induction items with
  | nil => cases hsearch
  | cons item items ih =>
      rw [List.flatMap_cons] at hsearch
      have hlater : search ('\n' :: targetMarker target)
          ((items.flatMap Item.lines).flatMap ('\n' :: ·)) = some x →
          ∃ b, Item.block b ∈ item :: items ∧ b.name = target ∧ x = b.body.dropWhile isSpace := by
        intro hrest
        obtain ⟨b, hb, hname⟩ := ih hrest
        exact ⟨b, List.mem_cons_of_mem _ hb, hname⟩
      cases item with
      | line l free other =>
          rw [Item.lines, search_lines (targetMarker_free htarget) (by
            simpa using ⟨free, not_addLibrary_prefix other⟩)] at hsearch
          exact hlater hsearch
      | block b =>
          rcases search_block htarget hsearch with ⟨hname, hx⟩ | hrest
          · exact ⟨b, List.mem_cons_self, hname, hx⟩
          · exact hlater hrest

/-- A block on the first line has no line feed before it and is not found. -/
theorem search_fileText {target : Text} (htarget : ∀ c ∈ target, isSpace c = false)
    {items : List Item} {x : Text}
    (hsearch : search ('\n' :: targetMarker target) (fileText items) = some x) :
    ∃ b, Item.block b ∈ items ∧ b.name = target ∧ x = b.body.dropWhile isSpace := by
  cases items with
  | nil => cases hsearch
  | cons item items =>
      have hlater : search ('\n' :: targetMarker target)
          ((items.flatMap Item.lines).flatMap ('\n' :: ·)) = some x := by
        rw [fileText, List.flatMap_cons] at hsearch
        cases item with
        | line l free other =>
            rwa [Item.lines, List.singleton_append, intercalate_cons_eq,
              search_append_of_not_mem free] at hsearch
        | block b =>
            rwa [Item.lines, List.cons_append, intercalate_cons_eq,
              search_append_of_not_mem b.header_free,
              search_lines (targetMarker_free htarget) b.inner_lines] at hsearch
      obtain ⟨b, hb, hname⟩ := search_items htarget hlater
      exact ⟨b, List.mem_cons_of_mem _ hb, hname⟩

theorem isSpace_of_mem_targets {target : Text} (htarget : target ∈ targets) :
    ∀ c ∈ target, isSpace c = false := by
  have hall : targets.all (fun t => !t.any isSpace) = true := by decide +kernel
  have hany := List.all_eq_true.mp hall target htarget
  simpa using hany

/-- What the script lists for a target is what its block holds. -/
theorem targetSources_fileText {items : List Item} {target : Text} (htarget : target ∈ targets)
    {files : List Text} (hsources : targetSources (fileText items) target = .ok files) :
    ∃ b, Item.block b ∈ items ∧ b.name = target ∧ files = b.sources := by
  have hmarker : lit "\nadd_library(" ++ target = '\n' :: targetMarker target := rfl
  rw [targetSources, hmarker] at hsources
  split at hsources
  case h_1 body hsearch =>
      obtain ⟨b, hb, hname, rfl⟩ := search_fileText (isSpace_of_mem_targets htarget) hsearch
      refine ⟨b, hb, hname, ?_⟩
      rw [← Except.ok.inj hsources, sourceLines_dropWhile, Block.sources]
  case h_2 => cases hsources

/-! ### The two lists -/

/-- The sources of a target's blocks. -/
def sourcesOf (items : List Item) (target : Text) : List Text :=
  items.flatMap fun
    | .line _ _ _ => []
    | .block b => if b.name = target then b.sources else []

def allSources (items : List Item) : List Text := targets.flatMap (sourcesOf items)

theorem mem_sourcesOf {items : List Item} {target f : Text} :
    f ∈ sourcesOf items target ↔ ∃ b, Item.block b ∈ items ∧ b.name = target ∧ f ∈ b.sources := by
  rw [sourcesOf, List.mem_flatMap]
  constructor
  · rintro ⟨item, hitem, hf⟩
    cases item with
    | line => cases hf
    | block b =>
        by_cases hname : b.name = target
        · exact ⟨b, hitem, hname, by simpa [hname] using hf⟩
        · simp [hname] at hf
  · rintro ⟨b, hb, hname, hf⟩
    exact ⟨Item.block b, hb, by simpa [hname] using hf⟩

theorem name_mem_names {items : List Item} {b : Block} (hb : Item.block b ∈ items) :
    b.name ∈ names items :=
  List.mem_filterMap.mpr ⟨Item.block b, hb, rfl⟩

theorem sourcesOf_eq_nil {items : List Item} {target : Text} (htarget : target ∉ names items) :
    sourcesOf items target = [] := by
  refine List.eq_nil_iff_forall_not_mem.mpr fun f hf => ?_
  obtain ⟨b, hb, rfl, -⟩ := mem_sourcesOf.mp hf
  exact htarget (name_mem_names hb)

theorem sourcesOf_eq {items : List Item} (hnames : (names items).Nodup) {b : Block}
    (hb : Item.block b ∈ items) : sourcesOf items b.name = b.sources := by
  induction items with
  | nil => cases hb
  | cons item items ih =>
      cases item with
      | line l free other =>
          have hrest : Item.block b ∈ items := by simpa using hb
          exact ih hnames hrest
      | block b' =>
          have hcons : (b'.name :: names items).Nodup := hnames
          obtain ⟨hfresh, hnodup⟩ := List.nodup_cons.mp hcons
          have hsplit : sourcesOf (Item.block b' :: items) b.name =
              (if b'.name = b.name then b'.sources else []) ++ sourcesOf items b.name := rfl
          rcases List.mem_cons.mp hb with heq | hrest
          · obtain rfl := Item.block.inj heq
            rw [hsplit, if_pos rfl, sourcesOf_eq_nil hfresh, List.append_nil]
          · have hne : b'.name ≠ b.name := fun heq => hfresh (heq ▸ name_mem_names hrest)
            rw [hsplit, if_neg hne, ih hnodup hrest, List.nil_append]

/-- `core` and `ares` divide the sources of the targets' blocks. -/
structure Partition (items : List Item) (core ares : List Text) : Prop where
  covered : ∀ b, Item.block b ∈ items → b.name ∈ targets → ∀ f ∈ b.sources,
    (f ∈ core ∧ f ∉ ares ∧ f ≠ dupDescriptor) ∨ (f ∉ core ∧ f ∈ ares ∧ f ≠ dupDescriptor) ∨
      (f ∉ core ∧ f ∉ ares ∧ f = dupDescriptor)
  nodup : (core ++ ares).Nodup
  origin : ∀ f ∈ core ++ ares, ∃ b, Item.block b ∈ items ∧ b.name ∈ targets ∧ f ∈ b.sources
  core_ordered : core.Pairwise fun f g => (allSources items).idxOf f < (allSources items).idxOf g
  ares_ordered : ares.Pairwise fun f g => (allSources items).idxOf f < (allSources items).idxOf g

theorem kept_gather {items : List Item} (hnames : (names items).Nodup) {ordered : List Text}
    (hgather : gather (fileText items) = .ok ordered) : Kept (allSources items) ordered := by
  obtain ⟨htargets, hkept⟩ := gather_eq_ok hgather
  have hlisted : ∀ target ∈ targets, listed (fileText items) target = sourcesOf items target := by
    intro target htarget
    obtain ⟨b, hb, rfl, hfiles⟩ := targetSources_fileText htarget (htargets target htarget)
    rw [hfiles, sourcesOf_eq hnames hb]
  rwa [List.flatMap_congr hlisted] at hkept

/-- Whenever `collect` returns, the lists are the sources of its targets without the one file
that is left out, each once and in order. -/
theorem collect_partition {items : List Item} (hnames : (names items).Nodup)
    {core ares : List Text} (hcollect : collect (fileText items) = .ok (core, ares)) :
    Partition items core ares := by
  obtain ⟨ordered, hgather, -, hares, -, hcore⟩ := collect_eq_ok hcollect
  have hkept := kept_gather hnames hgather
  have hmem : ∀ f, f ∈ ordered ↔ ∃ b, Item.block b ∈ items ∧ b.name ∈ targets ∧ f ∈ b.sources := by
    intro f
    rw [hkept.mem_iff, allSources, List.mem_flatMap]
    constructor
    · rintro ⟨target, htarget, hf⟩
      obtain ⟨b, hb, rfl, hsource⟩ := mem_sourcesOf.mp hf
      exact ⟨b, hb, htarget, hsource⟩
    · rintro ⟨b, hb, htarget, hf⟩
      exact ⟨b.name, htarget, mem_sourcesOf.mpr ⟨b, hb, rfl, hf⟩⟩
  have hinCore : ∀ f, f ∈ core ↔ f ∈ ordered ∧ f ≠ dupDescriptor ∧ f ∉ ares := by
    intro f
    rw [hcore]
    simp
  have hinAres : ∀ f, f ∈ ares ↔ f ∈ ordered ∧ isAres f = true := by
    intro f
    rw [hares, List.mem_filter]
  have hdup : dupDescriptor ∉ ares := by
    have hno : isAres dupDescriptor = false := by decide +kernel
    simp [hinAres, hno]
  refine ⟨?_, ?_, ?_, ?_, ?_⟩
  · intro b hb htarget f hf
    have hordered := (hmem f).mpr ⟨b, hb, htarget, hf⟩
    by_cases heq : f = dupDescriptor
    · subst heq
      exact Or.inr (Or.inr ⟨fun hcore => ((hinCore _).mp hcore).2.1 rfl, hdup, rfl⟩)
    · by_cases hfares : f ∈ ares
      · exact Or.inr (Or.inl ⟨fun hcore => ((hinCore f).mp hcore).2.2 hfares, hfares, heq⟩)
      · exact Or.inl ⟨(hinCore f).mpr ⟨hordered, heq, hfares⟩, hfares, heq⟩
  · refine List.nodup_append.mpr ⟨?_, ?_, ?_⟩
    · rw [hcore]
      exact hkept.nodup.filter _
    · rw [hares]
      exact hkept.nodup.filter _
    · rintro f hf g hg rfl
      exact ((hinCore f).mp hf).2.2 hg
  · intro f hf
    refine (hmem f).mp ?_
    rcases List.mem_append.mp hf with hf | hf
    · exact ((hinCore f).mp hf).1
    · exact ((hinAres f).mp hf).1
  · rw [hcore]
    exact hkept.ordered_filter _
  · rw [hares]
    exact hkept.ordered_filter _

def sampleBlock (name : Text) (lines : List Text) (hname : name.any isSpace = false)
    (hlines : ∀ l ∈ lines, '\n' ∉ l ∧ lit ")" ≠ l ∧ ¬addLibrary <+: l)
    (hne : lines.flatten.all isSpace = false) : Item :=
  .block ⟨name, [], lines, by simpa using hname, nofun, by simp, hlines,
    by simpa using List.all_eq_false.mp hne⟩

/-- The targets in another order than the script's, two of them with a source in common. -/
def sampleItems : List Item :=
  [.line (lit "project(grpc)") (by decide +kernel) (by decide +kernel),
    sampleBlock (lit "grpc++") [lit "  src/cpp/a.cc", lit "  src/core/b.cc"]
      (by decide +kernel) (by decide +kernel) (by decide +kernel),
    sampleBlock (lit "grpc_unsecure") [lit "  src/core/u.cc"]
      (by decide +kernel) (by decide +kernel) (by decide +kernel),
    sampleBlock (lit "gpr") [lit "  src/core/b.cc"]
      (by decide +kernel) (by decide +kernel) (by decide +kernel),
    sampleBlock (lit "grpc") [lit "  src/core/c_ares/c.cc", lit "  " ++ dupDescriptor]
      (by decide +kernel) (by decide +kernel) (by decide +kernel),
    sampleBlock (lit "address_sorting") [lit "  sort.c"]
      (by decide +kernel) (by decide +kernel) (by decide +kernel),
    .line [] (by decide) (by decide +kernel)]

theorem collect_sampleItems :
    collect (fileText sampleItems) =
      .ok ([lit "src/core/b.cc", lit "src/cpp/a.cc", lit "sort.c"],
        [lit "src/core/c_ares/c.cc"]) := by
  decide +kernel

theorem collect_sampleItems_partition :
    Partition sampleItems [lit "src/core/b.cc", lit "src/cpp/a.cc", lit "sort.c"]
      [lit "src/core/c_ares/c.cc"] :=
  collect_partition (by decide +kernel) collect_sampleItems

end GrpcM.GenSources
