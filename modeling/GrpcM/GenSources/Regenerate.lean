import GrpcM.GenSources.ReplaceArray

/-!
Regenerating a manifest line by line. Each of the two sections has its array
where the script looks for it, before and after either array is rewritten: no
line that is written is a section header, opens an array or ends in a bracket.
-/

namespace GrpcM.GenSources

open GrpcM.Cut GrpcM.Lines GrpcM.Path GrpcM.Python

/-! ### One section -/

def opening : Text := lit "sources = ["

/-- A section up to its array: the lines of `mid`, then `opener` before the opening. -/
structure Section where
  header : Text
  mid : List Text
  opener : Text

namespace Section

def marker (s : Section) : Text := '\n' :: (s.header ++ ['\n'])

def head (s : Section) : Text := unlines '\n' (s.header :: s.mid) ++ s.opener

def textWith (s : Section) (body : Text) : Text :=
  s.head ++ (beginCore ++ (body ++ closing))

/-- The array is opened behind `opener` and not before. -/
structure Opens (s : Section) : Prop where
  header_free : '\n' ∉ s.header
  opener_free : '\n' ∉ s.opener
  lines : ∀ l ∈ s.header :: s.mid, '\n' ∉ l ∧ ¬opening <:+ l

end Section

/-- The text of an array of which no line but the last ends in a bracket, and where no
line is the header of another section. -/
def IsBody (other body : Text) : Prop :=
  ∃ ls c, body = unlines '\n' ls ++ c ∧
    (∀ l ∈ ls, '\n' ∉ l ∧ ¬lit "]" <:+ l ∧ other ≠ l) ∧ '\n' ∉ c ∧ other ≠ c ++ lit "]"

theorem beginCore_eq : beginCore = opening ++ ['\n'] := rfl

theorem bracket_eq : lit "]" = [']'] := by decide +kernel

theorem closing_eq : closing = lit "]" ++ ['\n'] := rfl

theorem IsBody.first_closing {other body : Text} (hbody : IsBody other body) :
    First closing body := by
  obtain ⟨ls, c, rfl, hls, hc, -⟩ := hbody
  have hbracket : '\n' ∉ lit "]" := by decide +kernel
  rw [closing_eq]
  exact first_unlines_append hbracket (fun l hl => ⟨(hls l hl).1, (hls l hl).2.1⟩)
    (first_of_not_mem hbracket hc)

theorem arrayAt_section {l0 : Text} {pre : List Text} {s : Section} {other body : Text}
    (hl0 : '\n' ∉ l0) (hpre : ∀ l ∈ pre, '\n' ∉ l ∧ s.header ≠ l) (hs : s.Opens)
    (hbody : IsBody other body) (rest : Text) :
    ArrayAt (unlines '\n' (l0 :: pre) ++ (s.textWith body ++ rest)) s.marker
      (unlines '\n' (l0 :: pre) ++ s.head) body rest := by
  have hopening : '\n' ∉ opening := by decide +kernel
  refine ⟨by simp only [Section.textWith, List.append_assoc], ?_, hbody.first_closing⟩
  -- the line feed before the header ends the line before it
  refine ⟨l0 ++ pre.flatMap ('\n' :: ·), '\n' :: s.head,
    unlines '\n' s.mid ++ (s.opener ++ (beginCore ++ (body ++ closing))) ++ rest,
    ?_, ?_, first_header hs.header_free hl0 hpre, ?_⟩
  · rw [unlines_cons_eq, List.append_assoc, List.singleton_append]
  · rw [unlines_cons_eq]
    simp only [Section.textWith, Section.head, Section.marker, unlines_cons, List.append_assoc,
      List.cons_append, List.nil_append]
  · rw [beginCore_eq]
    refine first_line_append (l := []) hopening (by simp) (by decide +kernel) ?_
    exact first_unlines_append hopening hs.lines (first_of_not_mem hopening hs.opener_free)

theorem textWith_unlines (s : Section) (ls : List Text) (c : Text) :
    s.textWith (unlines '\n' ls ++ c) =
      unlines '\n' (s.header :: (s.mid ++ (s.opener ++ opening) :: (ls ++ [c ++ lit "]"]))) := by
  simp only [Section.textWith, Section.head, beginCore_eq, closing_eq, unlines_cons,
    unlines_append, unlines_nil, List.append_assoc, List.cons_append, List.nil_append]

/-! ### Two sections -/

structure Sections where
  line : Text
  before : List Text
  first : Section
  gap : List Text
  second : Section
  rest : Text
  line_free : '\n' ∉ line
  before_free : ∀ l ∈ before, '\n' ∉ l ∧ first.header ≠ l ∧ second.header ≠ l
  first_opens : first.Opens
  second_not_mem : second.header ∉ first.header :: (first.mid ++ [first.opener ++ opening])
  gap_free : ∀ l ∈ gap, '\n' ∉ l ∧ second.header ≠ l
  second_opens : second.Opens

namespace Sections

variable {m : Sections} {body body' : Text}

def textWith (m : Sections) (body body' : Text) : Text :=
  unlines '\n' (m.line :: m.before) ++ (m.first.textWith body ++
    (unlines '\n' m.gap ++ (m.second.textWith body' ++ m.rest)))

theorem replaceArray_first (hbody : IsBody m.second.header body) (new : Text) :
    replaceArray (m.textWith body body') m.first.marker new = .ok (m.textWith new body') := by
  have harray := arrayAt_section m.line_free
    (fun l hl => ⟨(m.before_free l hl).1, (m.before_free l hl).2.1⟩) m.first_opens hbody
    (unlines '\n' m.gap ++ (m.second.textWith body' ++ m.rest))
  rw [textWith, harray.replaceArray new]
  simp only [textWith, Section.textWith, List.append_assoc]

/-- The lines of the first section, whatever its array holds, come before the second. -/
theorem replaceArray_second (hbody : IsBody m.second.header body)
    (hbody' : IsBody m.first.header body') (new : Text) :
    replaceArray (m.textWith body body') m.second.marker new = .ok (m.textWith body new) := by
  obtain ⟨ls, c, rfl, hls, hc, hlast⟩ := hbody
  have htext : ∀ b, m.textWith (unlines '\n' ls ++ c) b =
      unlines '\n' (m.line :: (m.before ++ (m.first.header :: (m.first.mid ++
        (m.first.opener ++ opening) :: (ls ++ (c ++ lit "]") :: m.gap))))) ++
        (m.second.textWith b ++ m.rest) := by
    intro b
    simp only [textWith, textWith_unlines, unlines_cons, unlines_append, unlines_nil,
      List.append_assoc, List.cons_append, List.nil_append]
  have hfree : ∀ l ∈ m.before ++ (m.first.header :: (m.first.mid ++
      (m.first.opener ++ opening) :: (ls ++ (c ++ lit "]") :: m.gap))),
      '\n' ∉ l ∧ m.second.header ≠ l := by
    have hother := m.second_not_mem
    simp only [List.mem_cons, List.mem_append, List.not_mem_nil, or_false, not_or] at hother
    simp only [List.mem_append, List.mem_cons]
    rintro l (hl | rfl | hl | rfl | hl | rfl | hl)
    · exact ⟨(m.before_free l hl).1, (m.before_free l hl).2.2⟩
    · exact ⟨m.first_opens.header_free, hother.1⟩
    · refine ⟨(m.first_opens.lines l (List.mem_cons_of_mem _ hl)).1, ?_⟩
      rintro rfl
      exact hother.2.1 hl
    · refine ⟨?_, hother.2.2⟩
      rw [List.mem_append, not_or]
      exact ⟨m.first_opens.opener_free, by decide +kernel⟩
    · exact ⟨(hls l hl).1, (hls l hl).2.2⟩
    · refine ⟨?_, hlast⟩
      rw [List.mem_append, not_or]
      exact ⟨hc, by decide +kernel⟩
    · exact m.gap_free l hl
  have harray := arrayAt_section m.line_free hfree m.second_opens hbody' m.rest
  rw [htext, harray.replaceArray new, htext]
  simp only [Section.textWith, List.append_assoc]

end Sections

/-! ### The rendered bodies -/

def pathLine (p : Text) : Text := lit "    \"" ++ vendor ++ '/' :: (p ++ lit "\",")

theorem render_eq_unlines (paths : List Text) (withLibRoot : Bool) :
    render paths withLibRoot =
      unlines '\n' ((if withLibRoot then preambleLines else []) ++ paths.map pathLine) := by
  have hpaths : paths.flatMap renderPath = unlines '\n' (paths.map pathLine) := by
    rw [unlines, List.flatMap_map]
    refine List.flatMap_congr fun p _ => ?_
    have hquote : lit "\",\n" = lit "\"," ++ ['\n'] := rfl
    simp only [renderPath, pathLine, hquote, List.append_assoc, List.cons_append]
  cases withLibRoot with
  | false => exact hpaths
  | true =>
      simp only [render, if_true, libRootPreamble, hpaths, unlines_append]

theorem preambleLines_free : ∀ l ∈ preambleLines,
    '\n' ∉ l ∧ '\r' ∉ l ∧ ¬lit "]" <:+ l ∧ l.head? = some ' ' := by
  decide +kernel

theorem isBody_render {other : Text} (hother : other.head? = some '[') {paths : List Text}
    (hpaths : ∀ p ∈ paths, '\n' ∉ p) (withLibRoot : Bool) :
    IsBody other (render paths withLibRoot) := by
  have hindent : ∀ l : Text, l.head? = some ' ' → other ≠ l := by
    rintro l hl rfl
    rw [hl] at hother
    cases hother
  refine ⟨_, [], by rw [render_eq_unlines, List.append_nil], fun l hl => ?_, by simp, ?_⟩
  · rcases List.mem_append.mp hl with hl | hl
    · have hmem : l ∈ preambleLines := by
        split at hl
        · exact hl
        · cases hl
      obtain ⟨hfree, -, hbracket, hhead⟩ := preambleLines_free l hmem
      exact ⟨hfree, hbracket, hindent l hhead⟩
    · obtain ⟨p, hp, rfl⟩ := List.mem_map.mp hl
      refine ⟨?_, ?_, hindent _ rfl⟩
      · simp only [pathLine, List.mem_append, List.mem_cons, not_or]
        exact ⟨⟨by decide, by decide +kernel⟩, by decide, hpaths p hp, by decide⟩
      · intro hsuffix
        have hquote : lit "\"," <:+ pathLine p :=
          ⟨lit "    \"" ++ vendor ++ '/' :: p,
            by simp only [pathLine, List.append_assoc, List.cons_append]⟩
        have hcomma : [','] <:+ pathLine p := List.IsSuffix.trans (by decide +kernel) hquote
        rw [bracket_eq] at hsuffix
        exact absurd (eq_of_suffix_singleton hsuffix hcomma) (by decide)
  · rintro rfl
    cases hother

/-! ### A manifest with both sections -/

def buildHeader : Text := lit "[build]"

def aresHeader : Text := lit "[features.ares]"

/-- The first line `header` among the lines of a text, the line after it that opens an array,
and the first line from there that ends in a bracket. The section `other` does not start
between them. -/
structure HasArray (ls : List Text) (header other : Text) where
  before : List Text
  mid : List Text
  opener : Text
  body : List Text
  closer : Text
  after : List Text
  lines_eq : ls = before ++ (header :: (mid ++ (opener ++ opening) ::
    (body ++ (closer ++ lit "]") :: after)))
  before_ne_nil : before ≠ []
  header_not_mem : header ∉ before
  other_not_mem : other ∉ mid
  other_ne_closer : other ≠ closer ++ lit "]"
  mid_not_open : ∀ l ∈ mid, ¬opening <:+ l
  body_not_closed : ∀ l ∈ body, ¬lit "]" <:+ l

namespace HasArray

variable {ls : List Text} {header other : Text}

def bodyText (a : HasArray ls header other) : Text := unlines '\n' a.body ++ a.closer

def headText (a : HasArray ls header other) : Text :=
  unlines '\n' (a.before ++ header :: a.mid) ++ (a.opener ++ beginCore)

def restText (a : HasArray ls header other) : Text := closing ++ unlines '\n' a.after

/-- The lines from the header to the closing bracket. -/
def span (a : HasArray ls header other) : List Text :=
  header :: (a.mid ++ (a.opener ++ opening) :: (a.body ++ [a.closer ++ lit "]"]))

def toSection (a : HasArray ls header other) : Section := ⟨header, a.mid, a.opener⟩

theorem lines_eq_span (a : HasArray ls header other) : ls = a.before ++ (a.span ++ a.after) :=
  a.lines_eq.trans (by simp [span])

theorem unlines_eq (a : HasArray ls header other) :
    unlines '\n' ls = a.headText ++ (a.bodyText ++ a.restText) := by
  refine (congrArg (unlines '\n') a.lines_eq).trans ?_
  simp only [headText, bodyText, restText, beginCore_eq, closing_eq, unlines_cons,
    unlines_append, List.append_assoc, List.cons_append, List.nil_append]

theorem free (a : HasArray ls header other) (hls : ∀ l ∈ ls, '\n' ∉ l) {l : Text}
    (hl : l ∈ a.before ∨ l ∈ a.span ∨ l ∈ a.after) : '\n' ∉ l := by
  refine hls l ?_
  rw [a.lines_eq_span, List.mem_append, List.mem_append]
  exact hl

theorem isBody (a : HasArray ls header other) (hls : ∀ l ∈ ls, '\n' ∉ l)
    (hother : lit "]" <:+ other) : IsBody other a.bodyText := by
  refine ⟨a.body, a.closer, rfl, fun l hl => ⟨?_, a.body_not_closed l hl, ?_⟩, ?_,
    a.other_ne_closer⟩
  · exact a.free hls (Or.inr (Or.inl (by simp [span, hl])))
  · rintro rfl
    exact a.body_not_closed _ hl hother
  · have hcloser : '\n' ∉ a.closer ++ lit "]" := a.free hls (Or.inr (Or.inl (by simp [span])))
    exact fun hmem => hcloser (List.mem_append_left _ hmem)

theorem opens (a : HasArray ls header other) (hls : ∀ l ∈ ls, '\n' ∉ l)
    (hheader : ¬opening <:+ header) : a.toSection.Opens := by
  refine ⟨a.free hls (Or.inr (Or.inl (by simp [span, toSection]))), ?_, ?_⟩
  · have hopener : '\n' ∉ a.opener ++ opening := a.free hls (Or.inr (Or.inl (by simp [span])))
    exact fun hmem => hopener (List.mem_append_left _ hmem)
  · intro l hl
    rcases List.mem_cons.mp hl with rfl | hl
    · exact ⟨a.free hls (Or.inr (Or.inl (by simp [span]))), hheader⟩
    · have hmid : l ∈ a.mid := hl
      exact ⟨a.free hls (Or.inr (Or.inl (by simp [span, hmid]))), a.mid_not_open l hmid⟩

theorem other_not_mem_span (a : HasArray ls header other) (hne : other ≠ header)
    (hother : lit "]" <:+ other) : other ∉ a.span := by
  have hopener : other ≠ a.opener ++ opening := by
    intro heq
    rw [heq] at hother
    have hlast : ['['] <:+ a.opener ++ opening :=
      List.IsSuffix.trans (by decide +kernel) (List.suffix_append _ _)
    rw [bracket_eq] at hother
    exact absurd (eq_of_suffix_singleton hother hlast) (by decide)
  simp only [span, List.mem_cons, List.mem_append, List.not_mem_nil, or_false, not_or]
  refine ⟨hne, a.other_not_mem, hopener, fun hmem => a.body_not_closed _ hmem hother,
    a.other_ne_closer⟩

/-- Two arrays, the second one behind the first. -/
theorem exists_sections (a : HasArray ls header other) (b : HasArray ls other header)
    (hls : ∀ l ∈ ls, '\n' ∉ l) (hheader : ¬opening <:+ header) (hother : ¬opening <:+ other)
    (hne : other ≠ header) (hbracket : lit "]" <:+ other)
    {gap : List Text} (hgap : b.before = a.before ++ (a.span ++ gap)) (tail : Text) :
    ∃ m : Sections, m.first.header = header ∧ m.second.header = other ∧ ∃ between,
      (∀ x y, m.textWith x y =
        a.headText ++ (x ++ (between ++ (y ++ (b.restText ++ tail))))) ∧
      unlines '\n' ls ++ tail = m.textWith a.bodyText b.bodyText := by
  have hnot : ∀ l ∈ b.before, other ≠ l := fun l hl heq => b.header_not_mem (heq ▸ hl)
  rw [hgap] at hnot
  have hspan := a.other_not_mem_span hne hbracket
  cases hbefore : a.before with
  | nil => exact absurd hbefore a.before_ne_nil
  | cons line before =>
  have hfree : ∀ l ∈ line :: before, '\n' ∉ l ∧ header ≠ l ∧ other ≠ l := by
    rw [← hbefore]
    intro l hl
    refine ⟨a.free hls (Or.inl hl), ?_, hnot l (List.mem_append_left _ hl)⟩
    rintro rfl
    exact a.header_not_mem hl
  have hgapFree : ∀ l ∈ gap, '\n' ∉ l ∧ other ≠ l := by
    intro l hl
    have hmem : l ∈ a.before ++ (a.span ++ gap) := by simp [hl]
    exact ⟨b.free hls (Or.inl (hgap ▸ hmem)), hnot l hmem⟩
  have hmid : other ∉ header :: (a.mid ++ [a.opener ++ opening]) := by
    intro hmem
    refine hspan ?_
    simp only [span, List.mem_cons, List.mem_append, List.not_mem_nil, or_false] at hmem ⊢
    tauto
  refine ⟨⟨line, before, a.toSection, gap, b.toSection, unlines '\n' b.after ++ tail,
    (hfree line List.mem_cons_self).1, fun l hl => hfree l (List.mem_cons_of_mem _ hl),
    a.opens hls hheader, hmid, hgapFree, b.opens hls hother⟩, rfl, rfl,
    closing ++ unlines '\n' gap ++ b.toSection.head ++ beginCore, ?_, ?_⟩
  · intro x y
    simp only [Sections.textWith, Section.textWith, headText, restText, hbefore, Section.head,
      toSection, unlines_append, unlines_cons, List.append_assoc, List.cons_append]
  · rw [b.unlines_eq]
    simp only [Sections.textWith, Section.textWith, headText, bodyText, restText, hgap, hbefore,
      span, Section.head, toSection, beginCore_eq, closing_eq, unlines_append, unlines_cons,
      List.append_assoc, List.cons_append, List.nil_append]

end HasArray

/-! ### The fixed point -/

theorem regenerate_eq {original core' out : Text} {core ares : List Text}
    (hcore : replaceArray original buildMarker (render core true) = .ok core')
    (hares : replaceArray core' aresMarker (render ares false) = .ok out) :
    regenerate original core ares = .ok out := by
  rw [regenerate, hcore]
  exact hares

/-- Whatever the two arrays hold, both are set, when [build] comes first. -/
theorem regenerate_build_first {m : Sections} (hfirst : m.first.header = buildHeader)
    (hsecond : m.second.header = aresHeader) {body body' : Text}
    (hbody : IsBody aresHeader body) (hbody' : IsBody buildHeader body') {core ares : List Text}
    (hcore : ∀ p ∈ core, '\n' ∉ p) :
    regenerate (m.textWith body body') core ares =
      .ok (m.textWith (render core true) (render ares false)) := by
  have hbuildMarker : m.first.marker = buildMarker := by rw [Section.marker, hfirst]; rfl
  have haresMarker : m.second.marker = aresMarker := by rw [Section.marker, hsecond]; rfl
  have hcoreRun : replaceArray (m.textWith body body') buildMarker (render core true) =
      .ok (m.textWith (render core true) body') := by
    rw [← hbuildMarker]
    exact m.replaceArray_first (hsecond ▸ hbody) _
  refine regenerate_eq hcoreRun ?_
  rw [← haresMarker]
  exact m.replaceArray_second (hsecond ▸ isBody_render rfl hcore true) (hfirst ▸ hbody') _

theorem regenerate_ares_first {m : Sections} (hfirst : m.first.header = aresHeader)
    (hsecond : m.second.header = buildHeader) {body body' : Text}
    (hbody : IsBody buildHeader body) (hbody' : IsBody aresHeader body') {core ares : List Text} :
    regenerate (m.textWith body body') core ares =
      .ok (m.textWith (render ares false) (render core true)) := by
  have haresMarker : m.first.marker = aresMarker := by rw [Section.marker, hfirst]; rfl
  have hbuildMarker : m.second.marker = buildMarker := by rw [Section.marker, hsecond]; rfl
  have hcoreRun : replaceArray (m.textWith body body') buildMarker (render core true) =
      .ok (m.textWith body (render core true)) := by
    rw [← hbuildMarker]
    exact m.replaceArray_second (hsecond ▸ hbody) (hfirst ▸ hbody') _
  refine regenerate_eq hcoreRun ?_
  rw [← haresMarker]
  exact m.replaceArray_first (hsecond ▸ hbody) _

/-- The array bodies `x` and `y` of [build] and [features.ares] in a text, in either order. -/
def Framed (ls : List Text) (tail : Text) (build : HasArray ls buildHeader aresHeader)
    (ares : HasArray ls aresHeader buildHeader) (out : Text → Text → Text) : Prop :=
  (∃ between, ∀ x y,
    out x y = build.headText ++ (x ++ (between ++ (y ++ (ares.restText ++ tail))))) ∨
  ∃ between, ∀ x y,
    out x y = ares.headText ++ (y ++ (between ++ (x ++ (build.restText ++ tail))))

theorem exists_framed {ls : List Text} (hls : ∀ l ∈ ls, '\n' ∉ l) (tail : Text)
    (build : HasArray ls buildHeader aresHeader) (ares : HasArray ls aresHeader buildHeader) :
    ∃ out, Framed ls tail build ares out ∧
      unlines '\n' ls ++ tail = out build.bodyText ares.bodyText ∧
      ∀ x y, IsBody aresHeader x → IsBody buildHeader y →
        ∀ core aresPaths : List Text, (∀ p ∈ core, '\n' ∉ p) →
          regenerate (out x y) core aresPaths =
            .ok (out (render core true) (render aresPaths false)) := by
  have hbuildOpen : ¬opening <:+ buildHeader := by decide +kernel
  have haresOpen : ¬opening <:+ aresHeader := by decide +kernel
  have hne : aresHeader ≠ buildHeader := by decide +kernel
  have hbuildEnd : lit "]" <:+ buildHeader := by decide +kernel
  have haresEnd : lit "]" <:+ aresHeader := by decide +kernel
  have heq := build.lines_eq_span.symm.trans ares.lines_eq_span
  rcases exists_gap heq (build.other_not_mem_span hne haresEnd)
    (ares.other_not_mem_span hne.symm hbuildEnd) with ⟨gap, hgap⟩ | ⟨gap, hgap⟩
  · obtain ⟨m, hfirst, hsecond, between, htext, hlines⟩ := build.exists_sections ares hls
      hbuildOpen haresOpen hne haresEnd hgap tail
    exact ⟨m.textWith, Or.inl ⟨between, htext⟩, hlines, fun x y hx hy core aresPaths hcore =>
      regenerate_build_first hfirst hsecond hx hy hcore⟩
  · obtain ⟨m, hfirst, hsecond, between, htext, hlines⟩ := ares.exists_sections build hls
      haresOpen hbuildOpen hne.symm hbuildEnd hgap tail
    exact ⟨fun x y => m.textWith y x, Or.inr ⟨between, fun x y => htext y x⟩, hlines,
      fun x y hx hy core aresPaths _ => regenerate_ares_first hfirst hsecond hy hx⟩

theorem Framed.not_mem {ls : List Text} {tail : Text} {build : HasArray ls buildHeader aresHeader}
    {ares : HasArray ls aresHeader buildHeader} {out : Text → Text → Text}
    (hout : Framed ls tail build ares out) {c : Char} {x y x' y' : Text} (hc : c ∉ out x y)
    (hx' : c ∉ x') (hy' : c ∉ y') : c ∉ out x' y' := by
  rcases hout with ⟨between, htext⟩ | ⟨between, htext⟩
  · rw [htext] at hc ⊢
    simp only [List.mem_append, not_or] at hc ⊢
    exact ⟨hc.1, hx', hc.2.2.1, hy', hc.2.2.2.2⟩
  · rw [htext] at hc ⊢
    simp only [List.mem_append, not_or] at hc ⊢
    exact ⟨hc.1, hy', hc.2.2.1, hx', hc.2.2.2.2⟩

theorem not_mem_render {paths : List Text} (hpaths : ∀ p ∈ paths, '\r' ∉ p)
    (withLibRoot : Bool) : '\r' ∉ render paths withLibRoot := by
  have hbody : '\r' ∉ paths.flatMap renderPath := by
    intro hmem
    obtain ⟨p, hp, hmem⟩ := List.mem_flatMap.mp hmem
    have hfree : '\r' ∉ renderPath p := by
      simp only [renderPath, List.mem_append, List.mem_cons, not_or]
      exact ⟨⟨by decide +kernel, by decide +kernel⟩, by decide, hpaths p hp, by decide +kernel⟩
    exact hfree hmem
  cases withLibRoot with
  | false => exact hbody
  | true =>
      have hpreamble : '\r' ∉ libRootPreamble := by
        rw [libRootPreamble, mem_unlines]
        rintro ⟨l, hl, hmem | heq⟩
        · exact (preambleLines_free l hl).2.1 hmem
        · exact absurd heq (by decide)
      simp only [render, if_true, List.mem_append, not_or]
      exact ⟨hpreamble, hbody⟩

/-- Regenerating sets the two array bodies to the rendered lists and leaves the rest of the
text; a second time it changes nothing. So a check passes after a write. A line ends in a
line feed, and `tail` is what comes after the last one. -/
def FixedPoint (ls : List Text) (tail : Text) (build : HasArray ls buildHeader aresHeader)
    (ares : HasArray ls aresHeader buildHeader) (core aresPaths : List Text) : Prop :=
  ∃ out, Framed ls tail build ares out ∧
    unlines '\n' ls ++ tail = out build.bodyText ares.bodyText ∧
    regenerate (unlines '\n' ls ++ tail) core aresPaths =
      .ok (out (render core true) (render aresPaths false)) ∧
    regenerate (out (render core true) (render aresPaths false)) core aresPaths =
      .ok (out (render core true) (render aresPaths false)) ∧
    ∀ cmakeFile manifestFile, universalNewlines manifestFile = unlines '\n' ls ++ tail →
      collect (universalNewlines cmakeFile) = .ok (core, aresPaths) →
      main false cmakeFile manifestFile =
          (.updated core.length aresPaths.length,
            out (render core true) (render aresPaths false)) ∧
        main true cmakeFile (out (render core true) (render aresPaths false)) =
          (.upToDate core.length aresPaths.length,
            out (render core true) (render aresPaths false))

theorem regenerate_fixedPoint {ls : List Text} (hls : ∀ l ∈ ls, '\n' ∉ l) (tail : Text)
    (build : HasArray ls buildHeader aresHeader) (ares : HasArray ls aresHeader buildHeader)
    {core aresPaths : List Text} (hpaths : ∀ p ∈ core ++ aresPaths, '\n' ∉ p) :
    FixedPoint ls tail build ares core aresPaths := by
  obtain ⟨out, hframed, htext, hregenerate⟩ := exists_framed hls tail build ares
  have hcore : ∀ p ∈ core, '\n' ∉ p := fun p hp => hpaths p (List.mem_append_left _ hp)
  have haresPaths : ∀ p ∈ aresPaths, '\n' ∉ p := fun p hp =>
    hpaths p (List.mem_append_right _ hp)
  have hfirst := hregenerate build.bodyText ares.bodyText
    (build.isBody hls (by decide +kernel)) (ares.isBody hls (by decide +kernel)) core aresPaths
    hcore
  have hsecond := hregenerate (render core true) (render aresPaths false)
    (isBody_render rfl hcore true) (isBody_render rfl haresPaths false) core aresPaths hcore
  rw [← htext] at hfirst
  refine ⟨out, hframed, htext, hfirst, hsecond, ?_⟩
  intro cmakeFile manifestFile hmanifest hcollect
  -- what was written has no carriage return, so it is read as it is
  have hreturn : ∀ p ∈ core ++ aresPaths, '\r' ∉ p := by
    intro p hp hmem
    have hbreak := isLineBreak_of_mem_collect hcollect hp hmem
    revert hbreak
    decide
  have hread : '\r' ∉ out (render core true) (render aresPaths false) := by
    refine hframed.not_mem (x := build.bodyText) (y := ares.bodyText) ?_ ?_ ?_
    · rw [← htext, ← hmanifest]
      exact not_mem_universalNewlines manifestFile
    · exact not_mem_render (fun p hp => hreturn p (List.mem_append_left _ hp)) true
    · exact not_mem_render (fun p hp => hreturn p (List.mem_append_right _ hp)) false
  constructor
  · simp only [main, hmanifest, hcollect, hfirst, Bool.false_eq_true, if_false]
  · simp only [main, universalNewlines_of_not_mem hread, hcollect, hsecond, if_true, ne_eq,
      not_true_eq_false, if_false]

/-- A manifest whose [features.ares] comes first. -/
def aresFirstLines : List Text :=
  [lit "[package]", lit "[features.ares]", lit "sources = [", lit "]", lit "[build]",
    lit "flags = []", lit "sources = [", lit "    \"old.cc\",", lit "]"]

def aresFirstBuild : HasArray aresFirstLines buildHeader aresHeader where
  before := aresFirstLines.take 4
  mid := [lit "flags = []"]
  opener := []
  body := [lit "    \"old.cc\","]
  closer := []
  after := []
  lines_eq := by decide +kernel
  before_ne_nil := by decide +kernel
  header_not_mem := by decide +kernel
  other_not_mem := by decide +kernel
  other_ne_closer := by decide +kernel
  mid_not_open := by decide +kernel
  body_not_closed := by decide +kernel

def aresFirstAres : HasArray aresFirstLines aresHeader buildHeader where
  before := [lit "[package]"]
  mid := []
  opener := []
  body := []
  closer := []
  after := aresFirstLines.drop 4
  lines_eq := by decide +kernel
  before_ne_nil := by decide +kernel
  header_not_mem := by decide +kernel
  other_not_mem := by decide +kernel
  other_ne_closer := by decide +kernel
  mid_not_open := by decide +kernel
  body_not_closed := by decide +kernel

theorem regenerate_aresFirst_fixedPoint :
    FixedPoint aresFirstLines [] aresFirstBuild aresFirstAres [lit "src/core/a.cc"]
      [lit "src/core/c_ares/b.cc"] :=
  regenerate_fixedPoint (by decide +kernel) [] aresFirstBuild aresFirstAres (by decide +kernel)

end GrpcM.GenSources
