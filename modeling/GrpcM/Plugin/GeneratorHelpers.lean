import GrpcM.Path.Basic

/-!
Text helpers shared by the generators of the plugin.
-/

namespace GrpcM.Plugin

open GrpcM.Path

/-- The pieces between the delimiters, the text after the last one included. -/
def tokenize (input delimiters : Text) : List Text := input.splitOnP (delimiters.contains ·)

theorem tokenize_intercalate {c : Char} {tokens : List Text} (hne : tokens ≠ [])
    (hfree : ∀ t ∈ tokens, c ∉ t) : tokenize ([c].intercalate tokens) [c] = tokens := by
  have hdelimiter : (fun x => [c].contains x) = (· == c) := by
    ext x
    rw [List.contains_cons, List.contains_nil, Bool.or_false]
  rw [tokenize, hdelimiter]
  exact List.splitOn_intercalate c hfree hne

theorem mem_intercalate_iff {c d : Char} (hcd : c ≠ d) (tokens : List Text) :
    c ∈ [d].intercalate tokens ↔ ∃ t ∈ tokens, c ∈ t := by
  induction tokens with
  | nil => simp
  | cons t tokens ih =>
      cases tokens with
      | nil => simp
      | cons t' tokens =>
          rw [List.intercalate_cons_cons, List.mem_append, List.mem_append, ih]
          simp [hcd]

end GrpcM.Plugin
