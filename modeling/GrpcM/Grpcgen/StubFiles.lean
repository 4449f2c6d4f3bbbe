import GrpcM.Grpcgen.PluginArguments
import GrpcM.Plugin.CppPlugin

/-!
The files the rule declares for its own plugin are the files the shipped plugin
opens. The rule writes the parameter text and a list of suffixes; the plugin
reads the text and takes the extension off the name it is given.
-/

namespace GrpcM.Grpcgen

open GrpcM.Path GrpcM.FileSystem GrpcM.Plugin

variable {σ : Type} {h : Host}

theorem pluginSpec_cpp (h : Host) (mock : Bool) :
    pluginSpec (cpp h mock) = if mock then lit "generate_mock_code=true" else [] := by
  cases mock with
  | false => rfl
  | true => rfl

theorem readParameters_cpp (h : Host) (mock : Bool) :
    readParameters (pluginSpec (cpp h mock)) = .ok { generateMockCode := mock } := by
  rw [pluginSpec_cpp]
  cases mock with
  | false => exact readParameters_nil
  | true => exact readParameters_mock

/-- The text reaches the plugin, unless there is none and a colon in the output directory
makes protoc see one. -/
theorem splitOut_cpp_iff (h : Host) (mock : Bool) (out : Text) :
    splitOut (pluginValue out (cpp h mock)) = (pluginSpec (cpp h mock), out) ↔
      mock = true ∨ ':' ∉ out := by
  cases mock with
  | false =>
      have hvalue : pluginValue out (cpp h false) = out := rfl
      rw [hvalue]
      constructor
      · intro hsplit
        exact Or.inr ((splitOut_location_eq_iff out).mp (congrArg Prod.snd hsplit))
      · rintro (hmock | hcolon)
        · cases hmock
        · exact splitOut_of_not_mem hcolon
  | true =>
      have hvalue : pluginValue out (cpp h true) = pluginSpec (cpp h true) ++ ':' :: out := rfl
      have hcolon : ':' ∉ pluginSpec (cpp h true) := by
        rw [pluginSpec_cpp]
        decide +kernel
      rw [hvalue, splitOut_append out hcolon]
      simp

/-- Given what plan_entries encodes, the plugin opens the declared files, each once. -/
theorem opened_perm_declared (gen : CodeGenerator σ) (h : Host) (mock : Bool) (n out : Text)
    {file : FileDescriptor σ} (hname : file.name = n ++ lit ".proto")
    (hservices : file.ccGenericServices = false) :
    (splitOut (pluginValue out (cpp h mock)) = (pluginSpec (cpp h mock), out) ↔
      mock = true ∨ ':' ∉ out) ∧
    ∃ opened, generate gen file (pluginSpec (cpp h mock)) = .ok opened ∧
      (opened.map (·.1)).Perm ((cpp h mock).suffixes.map (n ++ ·)) := by
  refine ⟨splitOut_cpp_iff h mock out, ?_⟩
  have hnames := opened_names gen hservices (readParameters_cpp h mock)
  rw [hname, stripProto_append] at hnames
  cases hgenerate : generate gen file (pluginSpec (cpp h mock)) with
  | error failure =>
      rw [hgenerate] at hnames
      cases hnames
  | ok opened =>
      rw [hgenerate] at hnames
      refine ⟨opened, rfl, ?_⟩
      have hopened : opened.map (·.1) = _ := Except.ok.inj hnames
      rw [hopened]
      -- the plugin opens the header first, the rule declares the source first
      cases mock with
      | false => exact List.Perm.swap _ _ _
      | true => exact List.Perm.swap _ _ _

theorem opened_perm_declared_protodevel :
    (splitOut (pluginValue (lit "/o") (cpp (fixedHost [] true) true)) =
        (pluginSpec (cpp (fixedHost [] true) true), lit "/o") ↔ true = true ∨ ':' ∉ lit "/o") ∧
    ∃ opened,
      generate (σ := Unit)
          { header := ⟨fun _ _ => [], fun _ _ => [], fun _ _ => [], fun _ _ => []⟩
            source := ⟨fun _ _ => [], fun _ _ => [], fun _ _ => [], fun _ _ => []⟩
            mock := ⟨fun _ _ => [], fun _ _ => [], fun _ _ => [], fun _ _ => []⟩ }
          { name := lit "a.protodevel" ++ lit ".proto"
            ccGenericServices := false
            content := () }
          (pluginSpec (cpp (fixedHost [] true) true)) = .ok opened ∧
        (opened.map (·.1)).Perm
          ((cpp (fixedHost [] true) true).suffixes.map (lit "a.protodevel" ++ ·)) :=
  opened_perm_declared _ (fixedHost [] true) true (lit "a.protodevel") (lit "/o") rfl rfl

end GrpcM.Grpcgen
