import GrpcM.Path.Lexical
import Mathlib.Data.List.TakeWhile

/-!
The last filename of a path: its extension, the path without the extension,
and the directory that holds it. Text appended to a path without a separator
in it changes the last filename only, which is what `genericString_parentPath_append` and
`filename_append` say.
-/

namespace GrpcM.Path

def filename (p : Text) : Text := (p.reverse.takeWhile (· != '/')).reverse

def directoryPart (p : Text) : Text := (p.reverse.dropWhile (· != '/')).reverse

def afterLastDot (f : Text) : Text := (f.reverse.takeWhile (· != '.')).reverse

/-- `extension`: from the last dot of the filename on. `.` and `..` have none,
nor has a name whose only dot is its first character. -/
def extension (p : Text) : Text :=
  if filename p = dot ∨ filename p = dotDot ∨ '.' ∉ filename p ∨
      (filename p).length = (afterLastDot (filename p)).length + 1 then []
  else '.' :: afterLastDot (filename p)

/-- `replace_extension()` with its empty default argument. -/
def replaceExtension (p : Text) : Text := p.take (p.length - (extension p).length)

/-- `parent_path`: without the last filename and the separators before it. A path of
separators only is its own parent, and below it the parent is the root directory. -/
def parentPath (p : Text) : Text :=
  let stripped := ((directoryPart p).reverse.dropWhile (· == '/')).reverse
  if !stripped.isEmpty then stripped
  else if (filename p).isEmpty then p
  else (directoryPart p).take 1

/-! ### The last filename -/

theorem directoryPart_append_filename (p : Text) : directoryPart p ++ filename p = p := by
  rw [directoryPart, filename, ← List.reverse_append, List.takeWhile_append_dropWhile,
    List.reverse_reverse]

theorem filename_append {s : Text} (p : Text) (hs : '/' ∉ s) :
    filename (p ++ s) = filename p ++ s := by
  have hall : ∀ c ∈ s.reverse, (c != '/') = true :=
    forall_bne_of_not_mem fun hc => hs (List.mem_reverse.mp hc)
  rw [filename, List.reverse_append, List.takeWhile_append_of_pos hall, List.reverse_append,
    List.reverse_reverse]
  rfl

theorem filename_append_slash (p q : Text) : filename (p ++ '/' :: q) = filename q := by
  have hcut : ∀ l : Text, (l ++ '/' :: p.reverse).takeWhile (· != '/') =
      l.takeWhile (· != '/') := by
    intro l
    induction l with
    | nil => simp
    | cons c l ih =>
        rw [List.cons_append, List.takeWhile_cons, List.takeWhile_cons, ih]
  rw [filename, List.reverse_append, List.reverse_cons, List.append_assoc,
    List.singleton_append, hcut]
  rfl

theorem filename_append_path {p q : Text} (hq : isAbsolute q = false) :
    filename (append p q) = filename q := by
  cases hp : hasFilename p with
  | true => rw [append_of_hasFilename hp hq, filename_append_slash]
  | false =>
      rw [append_of_not_hasFilename hp hq]
      by_cases hne : p = []
      · rw [hne, List.nil_append]
      · obtain ⟨p', rfl⟩ := eq_snoc_slash hne hp
        rw [List.append_assoc, List.singleton_append, filename_append_slash]

theorem filename_of_no_slash {n : Text} (h : '/' ∉ n) : filename n = n := by
  simpa [filename] using filename_append [] h

theorem filename_join_concat {ns : List Text} {n : Text} (h : '/' ∉ n) :
    filename (join (ns ++ [n])) = n := by
  cases ns with
  | nil => simpa using filename_of_no_slash h
  | cons m ms =>
      rw [join_append (by simp) (by simp), join_singleton, filename_append_slash,
        filename_of_no_slash h]

theorem directoryPart_append {s : Text} (p : Text) (hs : '/' ∉ s) :
    directoryPart (p ++ s) = directoryPart p := by
  have hall : ∀ c ∈ s.reverse, (c != '/') = true :=
    forall_bne_of_not_mem fun hc => hs (List.mem_reverse.mp hc)
  rw [directoryPart, List.reverse_append, List.dropWhile_append_of_pos hall]
  rfl

theorem genericString_replicate_slash (k : Nat) :
    genericString (List.replicate (k + 1) '/') = ['/'] := by
  have hnames : ∀ k, filenames (List.replicate k '/') = [] := by
    intro k
    induction k with
    | zero => rfl
    | succ k ih => rw [List.replicate_succ, filenames_slash_cons, ih]
  simp [genericString, render, hasTrailingSlash, hnames, isAbsolute, List.replicate_succ]

/-- The parent of a path without a name before its last separator is `/` or nothing. -/
theorem genericString_parentPath_of_stripped {p : Text}
    (hstripped : ((directoryPart p).reverse.dropWhile (· == '/')).reverse = []) :
    genericString (parentPath p) = genericString (directoryPart p) := by
  have hslashes : directoryPart p = List.replicate (directoryPart p).length '/' := by
    refine List.eq_replicate_iff.mpr ⟨rfl, fun c hc => ?_⟩
    have hall := List.dropWhile_eq_nil_iff.mp (List.reverse_eq_nil_iff.mp hstripped)
    simpa using hall c (List.mem_reverse.mpr hc)
  simp only [parentPath, hstripped, List.isEmpty_nil, Bool.not_true, Bool.false_eq_true, if_false]
  split
  case isTrue hname =>
    conv_lhs => rw [← directoryPart_append_filename p, List.isEmpty_iff.mp hname, List.append_nil]
  case isFalse =>
    generalize directoryPart p = d at hslashes
    cases d with
    | nil => rfl
    | cons c d =>
        rw [hslashes, List.length_cons, genericString_replicate_slash]
        exact genericString_replicate_slash 0

/-- Files that differ after the last separator only lie in one directory. -/
theorem genericString_parentPath_append {s : Text} (p : Text) (hs : '/' ∉ s) :
    genericString (parentPath (p ++ s)) = genericString (parentPath p) := by
  by_cases hstripped : ((directoryPart p).reverse.dropWhile (· == '/')).reverse = []
  · rw [genericString_parentPath_of_stripped hstripped, genericString_parentPath_of_stripped,
      directoryPart_append p hs]
    rwa [directoryPart_append p hs]
  · have hne := Bool.not_eq_true' _ ▸ List.isEmpty_eq_false_iff.mpr hstripped
    rw [parentPath, parentPath, directoryPart_append p hs]
    simp only [hne, if_true]

/-! ### The extension -/

theorem afterLastDot_suffix {f : Text} (h : '.' ∈ f) :
    ∃ stem, f = stem ++ '.' :: afterLastDot f := by
  have hmem : '.' ∈ f.reverse := List.mem_reverse.mpr h
  have hdrop : f.reverse.dropWhile (· != '.') ≠ [] := by
    intro hnil
    simpa using List.dropWhile_eq_nil_iff.mp hnil '.' hmem
  obtain ⟨c, rest, hc⟩ := List.exists_cons_of_ne_nil hdrop
  have hdot : c = '.' := by
    have := List.head_dropWhile_not (· != '.') hdrop
    simpa [hc] using this
  refine ⟨rest.reverse, ?_⟩
  have hsplit := List.takeWhile_append_dropWhile (p := (· != '.')) (l := f.reverse)
  rw [hc, hdot] at hsplit
  rw [afterLastDot]
  calc
    f = f.reverse.reverse := (List.reverse_reverse f).symm
    _ = (f.reverse.takeWhile (· != '.') ++ '.' :: rest).reverse := by rw [hsplit]
    _ = rest.reverse ++ '.' :: (f.reverse.takeWhile (· != '.')).reverse := by simp

theorem extension_append_path {p q : Text} (hq : isAbsolute q = false) :
    extension (append p q) = extension q := by
  rw [extension, extension, filename_append_path hq]

theorem exists_stem (p : Text) :
    ∃ stem, filename p = stem ++ extension p ∧ (extension p ≠ [] → stem ≠ []) := by
  rw [extension]
  split
  · exact ⟨filename p, by simp⟩
  · next h =>
      push Not at h
      obtain ⟨-, -, hdot, hlength⟩ := h
      obtain ⟨stem, hstem⟩ := afterLastDot_suffix hdot
      refine ⟨stem, hstem, ?_⟩
      rintro - rfl
      apply hlength
      conv_lhs => rw [hstem]
      simp

theorem replaceExtension_append_extension (p : Text) :
    replaceExtension p ++ extension p = p := by
  obtain ⟨stem, hstem, -⟩ := exists_stem p
  have hp : p = directoryPart p ++ stem ++ extension p := by
    rw [List.append_assoc, ← hstem, directoryPart_append_filename]
  rw [replaceExtension]
  generalize extension p = e at hp ⊢
  generalize directoryPart p ++ stem = q at hp
  subst hp
  simp

theorem replaceExtension_join {ns : List Text} (hne : ns ≠ []) (h : ∀ n ∈ ns, IsFilename n) :
    ∃ ms, (∀ m ∈ ms, IsFilename m) ∧ replaceExtension (join ns) = join ms := by
  obtain ⟨init, n, rfl⟩ : ∃ init n, ns = init ++ [n] :=
    ⟨ns.dropLast, ns.getLast hne, (List.dropLast_append_getLast hne).symm⟩
  have hn : IsFilename n := h n (by simp)
  have hinit : ∀ m ∈ init, IsFilename m := fun m hm => h m (by simp [hm])
  obtain ⟨stem, hstem, hnonempty⟩ := exists_stem (join (init ++ [n]))
  rw [filename_join_concat hn.2] at hstem
  have hne_stem : stem ≠ [] := by
    by_cases he : extension (join (init ++ [n])) = []
    · rintro rfl
      rw [he] at hstem
      exact hn.1 hstem
    · exact hnonempty he
  have hslash : '/' ∉ stem := fun hc => hn.2 (hstem ▸ List.mem_append_left _ hc)
  refine ⟨init ++ [stem], ?_, ?_⟩
  · intro m hm
    rcases List.mem_append.mp hm with hm | hm
    · exact hinit m hm
    · rw [List.mem_singleton.mp hm]
      exact ⟨hne_stem, hslash⟩
  · -- only the last filename has lost anything
    have htext : join (init ++ [n]) =
        join (init ++ [stem]) ++ extension (join (init ++ [n])) := by
      conv_lhs => rw [hstem]
      exact join_concat_append _ _ _
    exact List.append_cancel_right
      ((replaceExtension_append_extension (join (init ++ [n]))).trans htext)

end GrpcM.Path
