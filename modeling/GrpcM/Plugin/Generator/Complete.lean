import GrpcM.Plugin.Generator.Parts

/-!
Every part of the generated files is printed to its end. No template meets a variable
without a value, no outdent goes below the margin, and each part ends at the margin. The
one text that is not under the control of the generator is the name of an imported file.
-/

namespace GrpcM.Plugin

open GrpcM.Path GrpcM.Templates
open Var hiding filenameIdentifier

/-! ### Includes and namespaces -/

theorem closed_printIncludes (headers : List Text) (useSystemHeaders : Bool)
    (searchPath : Text) :
    Closed (fun _ => none) (printIncludes headers useSystemHeaders searchPath) :=
  .set rfl (.set rfl (.flatMap fun _ _ => .set rfl (.of_run (fun _ => ⟨_, _, rfl⟩) rfl)))

theorem parse_messageHeaderExt : parse Var.ofKey '$' (lit "$message_header_ext$\"\n") =
    [.var messageHeaderExt, .text ['"'], .text ['\n']] := by
  rfl

theorem parse_importInlude {protoName : Text} (hname : '$' ∉ protoName) :
    ∃ t : Text, parse Var.ofKey '$' (importInludeFromProtoName protoName) =
      t.map (fun c => .text [c]) ++ [.var messageHeaderExt, .text ['"'], .text ['\n']] := by
  have hfree : '$' ∉ lit "#include \"" ++ (if protoName.length < 6 then protoName
      else protoName.take (protoName.length - 6)) := by
    rw [List.mem_append, not_or]
    refine ⟨by decide +kernel, ?_⟩
    split
    · exact hname
    · exact fun hmem => hname (List.mem_of_mem_take hmem)
  rw [importInludeFromProtoName, parse_append_of_not_mem hfree, parse_messageHeaderExt]
  exact ⟨_, rfl⟩

section Closed

variable {β : Env Var} {file : File} {params : Parameters}

/-- The imports that are printed can be printed. -/
def PrintableImports (file : File) (params : Parameters) : Prop :=
  params.includeImportHeaders = true → ∀ n ∈ File.getImportNames file, '$' ∉ n

theorem closed_printImports {ext : Text} (hext : β messageHeaderExt = some ext)
    (himports : PrintableImports file params) : Closed β (printImports file params) := by
  rw [printImports]
  cases hinclude : params.includeImportHeaders with
  | false => exact .nil
  | true =>
      refine .append (.flatMap fun n hn => .of_prints fun d => ?_)
        (.of_run (fun _ => ⟨_, _, rfl⟩) rfl)
      obtain ⟨t, ht⟩ := parse_importInlude (himports hinclude n hn)
      have htail : fill β [.var messageHeaderExt, .text ['"'], .text ['\n']] =
          some [.value messageHeaderExt ext, .text ['"'], .text ['\n']] := by
        simp [fill, Piece.fill, hext]
      exact ⟨_, .print (ht ▸ fill_append (fill_texts β t) htail)⟩

theorem closed_openNamespaces (hpart : β part = none) : Closed β (openNamespaces file) :=
  .flatMap fun _ _ => .set hpart (.of_prints fun _ => ⟨_, .print rfl⟩)

theorem closed_closeNamespaces (hpart : β part = none) : Closed β (closeNamespaces file) :=
  .flatMap fun _ _ => .set hpart (.of_prints fun _ => ⟨_, .print rfl⟩)

theorem closed_literal {template : Template Var} (h : (fill β template).isSome = true) :
    Closed β [.print template] :=
  .of_prints fun _ => ⟨_, .print (Option.some_get h).symm⟩

/-! ### Part by part -/

/-- Every program of a part is closed without anything given. -/
def Complete (part : Part) : Prop := ∀ program ∈ part, Closed (fun _ => none) program

theorem complete_nil : Complete [] := fun _ h => (List.not_mem_nil h).elim

theorem complete_cons {program : Program} {rest : Part} (h : Closed (fun _ => none) program)
    (hrest : Complete rest) : Complete (program :: rest) := by
  intro p hp
  rcases List.mem_cons.mp hp with rfl | hp
  · exact h
  · exact hrest p hp

theorem complete_singleton {program : Program} (h : Closed (fun _ => none) program) :
    Complete [program] :=
  complete_cons h complete_nil

theorem complete_getHeaderPrologue : Complete (getHeaderPrologue file params) := by
  refine complete_singleton (.set rfl (.set rfl (.set rfl (.set rfl ?_))))
  exact .append (.append (.append (.append (.of_run (fun _ => ⟨_, _, rfl⟩) rfl)
    (closed_when (.of_run (fun _ => ⟨_, _, rfl⟩) rfl) _)) (.of_run (fun _ => ⟨_, _, rfl⟩) rfl))
    (.of_run (fun _ => ⟨_, _, rfl⟩) rfl)) (closed_literal rfl)

theorem complete_getHeaderIncludes (himports : PrintableImports file params) :
    Complete (getHeaderIncludes file params) := by
  refine complete_cons (closed_when (closed_printIncludes _ _ _) _)
    (complete_cons (closed_printIncludes _ _ _) (complete_singleton ?_))
  refine .append (a := [.print ["\n"]]) (closed_literal rfl) (.set rfl ?_)
  exact .append (closed_printImports rfl himports)
    (closed_when (.append (closed_openNamespaces rfl) (closed_literal rfl)) _)

theorem closed_services {services : Program} {closing : Template Var}
    (hservices : ∀ outer, Closed (packageEnv (qualifier file) outer) services)
    (hclosing : ∀ t, (fill (packageEnv (qualifier file) (some t)) closing).isSome = true) :
    Closed (fun _ => none) (.set package (qualifier file) ::
      (when (!params.servicesNamespace.isEmpty)
        [.set servicesNamespace params.servicesNamespace,
         .print ["\nnamespace ", servicesNamespace, " \x7b\n\n"]] ++ services ++
      when (!params.servicesNamespace.isEmpty) [.print closing])) := by
  refine .set rfl ?_
  cases hempty : params.servicesNamespace.isEmpty with
  | true =>
      rw [← packageEnv_none]
      exact .append (.append .nil (hservices none)) .nil
  | false =>
      refine .set rfl (.append (a := [.print _]) (closed_literal rfl) ?_)
      exact (hservices (some params.servicesNamespace)).append (closed_literal (hclosing _))

theorem complete_getHeaderServices : Complete (getHeaderServices file params) :=
  complete_singleton (closed_services
    (fun _ => .flatMap fun s _ => (closed_printHeaderService s params).append (closed_literal rfl))
    fun _ => rfl)

theorem complete_getHeaderEpilogue : Complete (getHeaderEpilogue file params) := by
  refine complete_singleton (.set rfl (.set rfl ?_))
  exact .append (.append (closed_when (.append (closed_closeNamespaces rfl)
    (closed_literal rfl)) _) (.of_run (fun _ => ⟨_, _, rfl⟩) rfl)) (closed_comments _ _ _)

theorem complete_getSourcePrologue : Complete (getSourcePrologue file params) :=
  complete_singleton (.of_run (fun _ => ⟨_, _, rfl⟩) rfl)

theorem complete_getSourceIncludes : Complete (getSourceIncludes file params) :=
  complete_cons (closed_printIncludes _ _ _) (complete_singleton
    (.append (closed_when (closed_openNamespaces rfl) _) (closed_literal rfl)))

theorem complete_getSourceServices : Complete (getSourceServices file params) := by
  refine complete_singleton (.set rfl (.set rfl (.set rfl ?_)))
  rw [← packageEnv_none]
  exact .flatMap fun s _ => (closed_printSourceService s params).append (closed_literal rfl)

theorem complete_getMockPrologue (himports : PrintableImports file params) :
    Complete (getMockPrologue file params) := by
  refine complete_singleton (.set rfl (.set rfl (.set rfl (.set rfl (.set rfl ?_)))))
  exact .append (.append (.append (.of_run (fun _ => ⟨_, _, rfl⟩) rfl)
    (closed_printImports rfl himports)) (.of_run (fun _ => ⟨_, _, rfl⟩) rfl)) (closed_literal rfl)

theorem complete_getMockIncludes : Complete (getMockIncludes file params) := by
  have hgmock : Closed (fun _ => none) (if params.gmockSearchPath.isEmpty then
      printIncludes [lit "gmock/gmock.h"] params.useSystemHeaders params.grpcSearchPath
      else printIncludes [lit "gmock.h"] false params.gmockSearchPath) := by
    split
    · exact closed_printIncludes _ _ _
    · exact closed_printIncludes _ _ _
  exact complete_cons (closed_printIncludes _ _ _) (complete_cons hgmock (complete_singleton
    (.append (closed_when (closed_openNamespaces rfl) _) (closed_literal rfl))))

theorem complete_getMockServices : Complete (getMockServices file params) :=
  complete_singleton (closed_services
    (fun _ => .flatMap fun s _ => (closed_printMockService s params).append (closed_literal rfl))
    fun _ => rfl)

theorem complete_getMockEpilogue : Complete (getMockEpilogue file params) :=
  complete_singleton (.set rfl (.append (closed_when (.append (closed_closeNamespaces rfl)
    (closed_literal rfl)) _) (.of_run (fun _ => ⟨_, _, rfl⟩) rfl)))

end Closed

end GrpcM.Plugin
