import GrpcM.GenSources.Regenerate

/-!
What a passed check says about the text. The two rewritings may find their arrays
anywhere, and the first one may move the second; still, where the text comes out as
it was, both arrays hold what is written to them.
-/

namespace GrpcM.GenSources

open GrpcM.Cut GrpcM.Lines GrpcM.Path

/-- A marker is a whole line that ends in a bracket and opens no array. -/
structure IsMarker (marker header : Text) : Prop where
  marker_eq : marker = '\n' :: (header ++ ['\n'])
  header_free : '\n' ∉ header
  header_bracket : lit "]" <:+ header
  header_not_open : ¬opening <:+ header

theorem isMarker_build : IsMarker buildMarker buildHeader where
  marker_eq := rfl
  header_free := by decide +kernel
  header_bracket := by decide +kernel
  header_not_open := by decide +kernel

theorem isMarker_ares : IsMarker aresMarker aresHeader where
  marker_eq := rfl
  header_free := by decide +kernel
  header_bracket := by decide +kernel
  header_not_open := by decide +kernel

variable {text marker header head old rest : Text}

theorem IsMarker.closing_suffix (hmarker : IsMarker marker header) : closing <:+ marker := by
  obtain ⟨name, hname⟩ := hmarker.header_bracket
  refine ⟨'\n' :: name, ?_⟩
  rw [hmarker.marker_eq, closing_eq, ← hname]
  simp

theorem IsMarker.prefix_gap (hmarker : IsMarker marker header) {gap x y : Text}
    (htext : marker ++ x = gap ++ (beginCore ++ y)) : marker <+: gap := by
  have hline : '\n' :: header ++ '\n' :: x = gap ++ (opening ++ '\n' :: y) := by
    rw [hmarker.marker_eq, beginCore_eq] at htext
    simpa only [List.append_assoc, List.cons_append, List.nil_append] using htext
  have hopening : '\n' ∉ opening := by decide +kernel
  rcases List.append_eq_append_iff.mp hline with ⟨c, rfl, hrest⟩ | ⟨c, hsplit, hrest⟩
  · cases c with
    | nil =>
        have hpre : opening <+: [] := prefix_of_append_cons hrest hopening
        exact absurd (List.prefix_nil.mp hpre) (by decide +kernel)
    | cons a c =>
        obtain rfl := (List.cons.inj hrest).1
        rw [hmarker.marker_eq]
        exact ⟨c, by simp⟩
  · -- what is left of the line would be an opening
    obtain ⟨d, rfl⟩ := prefix_of_append_cons hrest.symm hopening
    rw [List.append_assoc, List.append_cancel_left_eq] at hrest
    have hsuffix : opening ++ d <:+ header :=
      (List.suffix_cons_iff.mp ⟨gap, hsplit.symm⟩).resolve_left nofun
    cases d with
    | nil => exact absurd (by simpa using hsuffix) hmarker.header_not_open
    | cons a d =>
        obtain rfl := (List.cons.inj hrest).1
        exact absurd (hsuffix.subset (by simp)) hmarker.header_free

/-! ### One array -/

theorem ArrayAt.unique {head' old' rest' : Text} (harray : ArrayAt text marker head old rest)
    (harray' : ArrayAt text marker head' old' rest') :
    head = head' ∧ old = old' ∧ rest = rest' := by
  obtain ⟨htext, ⟨before, gap, after, rfl, hmarker, hbefore, hgap⟩, hclosing⟩ := harray
  obtain ⟨htext', ⟨before', gap', after', rfl, hmarker', hbefore', hgap'⟩, hclosing'⟩ := harray'
  obtain ⟨rfl, rfl⟩ := hbefore.unique hbefore' (hmarker.symm.trans hmarker')
  have hopened := htext.symm.trans htext'
  rw [List.append_assoc, List.append_assoc, List.append_cancel_left_eq] at hopened
  obtain ⟨rfl, hbody⟩ := hgap.unique hgap' hopened
  obtain ⟨rfl, rfl⟩ := hclosing.unique hclosing' hbody
  exact ⟨rfl, rfl, rfl⟩

theorem ArrayAt.eq_of_replace (harray : ArrayAt text marker head old rest) {body : Text}
    (hbody : First closing body)
    (hreplace : GenSources.replaceArray text marker body = .ok text) : old = body := by
  have htext := Except.ok.inj ((harray.replaceArray body).symm.trans hreplace)
  have hbodies := htext.trans harray.text_eq
  simp only [List.append_cancel_left_eq] at hbodies
  exact (hbody.unique harray.first_closing hbodies).1.symm

theorem ArrayAt.exists_marker (hmarker : IsMarker marker header)
    (harray : ArrayAt text marker head old rest) :
    ∃ before gap, head = before ++ (marker ++ gap) ∧ First marker before ∧
      First beginCore (marker ++ gap) := by
  obtain ⟨htext, ⟨before, gap, after, rfl, hafter, hbefore, hgap⟩, -⟩ := harray
  rw [htext, List.append_assoc, List.append_cancel_left_eq] at hafter
  obtain ⟨gap', rfl⟩ := hmarker.prefix_gap hafter.symm
  exact ⟨before, gap', rfl, hbefore, hgap⟩

theorem ArrayAt.move (hmarker : IsMarker marker header)
    (harray : ArrayAt text marker head old rest) {body : Text} (hbody : First closing body)
    (rest' : Text) :
    ArrayAt (head ++ (beginCore ++ (body ++ (closing ++ rest')))) marker head body rest' := by
  obtain ⟨before, gap, rfl, hbefore, hgap⟩ := harray.exists_marker hmarker
  refine ⟨rfl, ⟨before, marker ++ gap, gap ++ (beginCore ++ (body ++ (closing ++ rest'))), rfl,
    ?_, hbefore, hgap⟩, hbody⟩
  simp only [List.append_assoc]

/-! ### Two arrays -/

variable {marker' header' head' old' rest' before gap : Text}

/-- The marker of the later one of two arrays stands behind the opening of the other. -/
theorem ArrayAt.opened_before (harray : ArrayAt text marker head old rest)
    (harray' : ArrayAt text marker' (before ++ (marker' ++ gap)) old' rest')
    (hmarker' : IsMarker marker' header') (hfirst : First beginCore (marker' ++ gap))
    (hlength : head.length < (before ++ (marker' ++ gap)).length) :
    head ++ opening <+: before := by
  have htext := harray.text_eq.symm.trans harray'.text_eq
  rw [List.append_assoc] at htext
  rcases List.append_eq_append_iff.mp htext with ⟨c, rfl, hrest⟩ | ⟨c, rfl, hrest⟩
  · rw [hmarker'.marker_eq, beginCore_eq] at hrest
    simp only [List.append_assoc, List.cons_append] at hrest
    obtain ⟨d, rfl⟩ := prefix_of_append_cons hrest.symm (by decide +kernel : '\n' ∉ opening)
    exact ⟨d, List.append_assoc _ _ _⟩
  · have hle := (hfirst.prefix_of hrest).length_le
    rw [List.length_append, List.length_append] at hlength
    omega

/-- Behind the opening comes a line feed, which may be that of the marker. -/
theorem ArrayAt.exists_lineFeed (harray : ArrayAt text marker head old rest)
    (hmarker' : IsMarker marker' header') {c : Text}
    (hlater : head ++ opening ++ c ++ marker' <+: text) :
    ∃ z, c ++ marker' = '\n' :: z ∧ z <+: old ++ (closing ++ rest) := by
  obtain ⟨y, rfl⟩ := hlater
  have hbody : c ++ marker' ++ y = '\n' :: (old ++ (closing ++ rest)) := by
    have htext := harray.text_eq
    rw [beginCore_eq] at htext
    simpa only [List.append_assoc, List.append_cancel_left_eq, List.cons_append, List.nil_append]
      using htext
  rw [hmarker'.marker_eq] at hbody ⊢
  cases c with
  | nil => exact ⟨_, rfl, y, (List.cons.inj hbody).2⟩
  | cons a c =>
      obtain ⟨rfl, hrest⟩ := List.cons.inj hbody
      exact ⟨_, rfl, y, hrest⟩

/-- An array that is opened before a later marker is closed before the end of it. -/
theorem ArrayAt.closed_before (harray : ArrayAt text marker head old rest)
    (hmarker' : IsMarker marker' header') (hopened : head ++ opening <+: before)
    (hlater : before ++ marker' <+: text) :
    head ++ (beginCore ++ (old ++ closing)) <+: before ++ marker' := by
  obtain ⟨c, rfl⟩ := hopened
  obtain ⟨z, hz, y, hy⟩ := harray.exists_lineFeed hmarker' hlater
  have hsuffix : closing <:+ c ++ marker' := hmarker'.closing_suffix.trans (List.suffix_append _ _)
  rw [hz] at hsuffix
  have hin : closing <:+ z := (List.suffix_cons_iff.mp hsuffix).resolve_left nofun
  obtain ⟨e, rfl⟩ := harray.first_closing.append_prefix hy.symm hin
  refine ⟨e, ?_⟩
  rw [List.append_assoc _ c, hz, beginCore_eq]
  simp only [List.append_assoc, List.cons_append, List.nil_append]

/-! ### A text that stays as it is -/

variable {body body' : Text}

theorem eq_of_first (hmarker : IsMarker marker header) (hmarker' : IsMarker marker' header')
    (harray : ArrayAt text marker head old rest)
    (harray' : ArrayAt text marker' head' old' rest') (hlength : head.length < head'.length)
    (hbody : First closing body)
    (hsecond : replaceArray (head ++ (beginCore ++ (body ++ (closing ++ rest)))) marker' body' =
      .ok text) :
    old = body := by
  have hmoved := harray.move hmarker hbody rest
  obtain ⟨before, gap, rfl, hbefore, hgap⟩ := harray'.exists_marker hmarker'
  obtain ⟨c, rfl⟩ := harray.opened_before harray' hmarker' hgap hlength
  obtain ⟨found, foundOld, foundRest, hfound, htext⟩ := replaceArray_eq_ok_iff.mp hsecond
  obtain ⟨before', gap', rfl, -, -⟩ := hfound.exists_marker hmarker'
  -- the other marker does not move in front of the opening
  have hopened : head ++ opening <+: before' := by
    obtain ⟨z, hz, -⟩ := harray.exists_lineFeed hmarker' (c := c)
      ⟨_, by rw [harray'.text_eq]; simp only [List.append_assoc]; rfl⟩
    have heq := hfound.text_eq
    rw [beginCore_eq, hmarker'.marker_eq] at heq
    rw [hmarker'.marker_eq] at hbefore hz
    have hline : head ++ opening ++ '\n' :: (body ++ (closing ++ rest)) = before' ++
        ('\n' :: (header' ++ ['\n']) ++
          (gap' ++ (beginCore ++ (foundOld ++ (closing ++ foundRest))))) := by
      simpa only [beginCore_eq, List.append_assoc, List.cons_append, List.nil_append] using heq
    exact header_prefix_of_first hmarker'.header_free hbefore hz hline
  have hlater : before' ++ marker' <+: text :=
    ⟨gap' ++ (beginCore ++ (body' ++ (closing ++ foundRest))),
      by rw [htext]; simp only [List.append_assoc]⟩
  have hlater' : before' ++ marker' <+: head ++ (beginCore ++ (body ++ (closing ++ rest))) :=
    ⟨gap' ++ (beginCore ++ (foundOld ++ (closing ++ foundRest))),
      by rw [hfound.text_eq]; simp only [List.append_assoc]⟩
  -- so both texts agree up to the end of the array
  obtain ⟨e, hold⟩ := harray.closed_before hmarker' hopened hlater
  obtain ⟨e', hnew⟩ := hmoved.closed_before hmarker' hopened hlater'
  have hbodies := hold.trans hnew.symm
  simp only [List.append_assoc, List.append_cancel_left_eq] at hbodies
  exact (harray.first_closing.unique hbody hbodies).1

theorem eq_of_second (hmarker : IsMarker marker header) (hmarker' : IsMarker marker' header')
    (harray : ArrayAt text marker head old rest)
    (harray' : ArrayAt text marker' head' old' rest') (hlength : head'.length < head.length)
    (hbody' : First closing body')
    (hsecond : replaceArray (head ++ (beginCore ++ (body ++ (closing ++ rest)))) marker' body' =
      .ok text) :
    old' = body' ∧ head ++ (beginCore ++ (body ++ (closing ++ rest))) = text := by
  obtain ⟨before, gap, rfl, -, hgap⟩ := harray.exists_marker hmarker
  have hopened := harray'.opened_before harray hmarker hgap hlength
  have hlater : before ++ marker <+: text :=
    ⟨gap ++ (beginCore ++ (old ++ (closing ++ rest))),
      by rw [harray.text_eq]; simp only [List.append_assoc]⟩
  -- the first rewriting leaves the second array as it is
  obtain ⟨e, hclosed⟩ := harray'.closed_before hmarker hopened hlater
  have hkept : before ++ (marker ++ gap) ++ (beginCore ++ (body ++ (closing ++ rest))) =
      head' ++ (beginCore ++ (old' ++ (closing ++
        (e ++ (gap ++ (beginCore ++ (body ++ (closing ++ rest)))))))) := by
    calc
      _ = before ++ marker ++ (gap ++ (beginCore ++ (body ++ (closing ++ rest)))) := by
        simp only [List.append_assoc]
      _ = _ := by
        rw [← hclosed]
        simp only [List.append_assoc]
  rw [hkept] at hsecond ⊢
  have hmoved := harray'.move hmarker' harray'.first_closing
    (e ++ (gap ++ (beginCore ++ (body ++ (closing ++ rest)))))
  have htext := Except.ok.inj ((hmoved.replaceArray body').symm.trans hsecond)
  have hbodies := htext.trans harray'.text_eq
  simp only [List.append_cancel_left_eq] at hbodies
  obtain ⟨rfl, hrest⟩ := hbody'.unique harray'.first_closing hbodies
  exact ⟨rfl, htext⟩

/-- A text that stays as it is holds what is written to its arrays. -/
theorem eq_of_regenerate {core ares : List Text}
    (hbuild : ArrayAt text buildMarker head old rest)
    (hares : ArrayAt text aresMarker head' old' rest') (hne : head ≠ head')
    (hcore : First closing (render core true)) (haresBody : First closing (render ares false))
    (hregenerate : regenerate text core ares = .ok text) :
    old = render core true ∧ old' = render ares false := by
  rw [regenerate, hbuild.replaceArray] at hregenerate
  have hsecond : replaceArray (head ++ (beginCore ++ (render core true ++ (closing ++ rest))))
      aresMarker (render ares false) = .ok text := hregenerate
  have hlength : head.length ≠ head'.length := by
    intro heq
    have hpre : head <+: text := ⟨_, hbuild.text_eq.symm⟩
    have hpre' : head' <+: text := ⟨_, hares.text_eq.symm⟩
    exact hne ((List.prefix_of_prefix_length_le hpre hpre' heq.le).eq_of_length heq)
  rcases Nat.lt_or_gt_of_ne hlength with hlt | hgt
  · obtain rfl := eq_of_first isMarker_build isMarker_ares hbuild hares hlt hcore hsecond
    rw [← hbuild.text_eq] at hsecond
    exact ⟨rfl, hares.eq_of_replace haresBody hsecond⟩
  · obtain ⟨rfl, htext⟩ :=
      eq_of_second isMarker_build isMarker_ares hbuild hares hgt haresBody hsecond
    refine ⟨hbuild.eq_of_replace hcore ?_, rfl⟩
    rw [hbuild.replaceArray, htext]
end GrpcM.GenSources
