import GrpcM.Plugin.Generator.Complete

/-!
The generated files as texts. A part that is printed to its end gives a text, and the texts
of the services stand in it one after the other, each as it would stand alone.
-/

namespace GrpcM.Plugin

open GrpcM.Path GrpcM.Templates
open Var hiding filenameIdentifier

/-- The text of a part, or nothing when the printer gives up. -/
def printed (part : Part) : Option Text := (runScopes part 0).map fun r => layout r.1

def printedParts : List (File → Parameters → Part) :=
  [getHeaderPrologue, getHeaderIncludes, getHeaderServices, getHeaderEpilogue,
    getSourcePrologue, getSourceIncludes, getSourceServices,
    getMockPrologue, getMockIncludes, getMockServices, getMockEpilogue]

theorem complete_of_mem {file : File} {params : Parameters}
    (himports : PrintableImports file params) {part : File → Parameters → Part}
    (hpart : part ∈ printedParts) : Complete (part file params) := by
  simp only [printedParts, List.mem_cons, List.not_mem_nil, or_false] at hpart
  rcases hpart with rfl | rfl | rfl | rfl | rfl | rfl | rfl | rfl | rfl | rfl | rfl
  · exact complete_getHeaderPrologue
  · exact complete_getHeaderIncludes himports
  · exact complete_getHeaderServices
  · exact complete_getHeaderEpilogue
  · exact complete_getSourcePrologue
  · exact complete_getSourceIncludes
  · exact complete_getSourceServices
  · exact complete_getMockPrologue himports
  · exact complete_getMockIncludes
  · exact complete_getMockServices
  · exact complete_getMockEpilogue

/-- Every part is printed to its end, and the printer is back at the margin. -/
theorem printed_to_the_end (file : File) (params : Parameters)
    (himports : PrintableImports file params) :
    ∀ part ∈ printedParts, ∃ ws, runScopes (part file params) 0 = some (ws, 0) :=
  fun _ hpart => ⟨_, runScopes_closed (complete_of_mem himports hpart) 0⟩

theorem printed_to_the_end_import : ∃ ws,
    runScopes (getHeaderIncludes
      { helloworld with content.dependencies := [lit "common.proto"] }
      { includeImportHeaders := true }) 0 = some (ws, 0) := by
  refine printed_to_the_end _ _ (fun _ n hn => ?_) getHeaderIncludes (by simp [printedParts])
  obtain rfl := List.mem_singleton.mp hn
  decide +kernel

theorem printed_singleton {program : Program} {ws : List (Write Var)}
    (h : Prints (fun _ => none) 0 0 program ws) : printed [program] = some (layout ws) := by
  obtain ⟨β', -, hrun⟩ := h.run
  simp [printed, runScopes, hrun]

/-! ### Guards -/

def guardLines (guard : Text) : Text :=
  lit "#ifndef " ++ guard ++ lit "\n" ++ (lit "#define " ++ guard ++ lit "\n")

/-- A guard that is printed at the margin, whatever comes before and after it. -/
theorem printed_guard {program : Program} {guard : Text} {before lines after : List (Write Var)}
    (h : Prints (fun _ => none) 0 0 program (before ++ (lines ++ after)))
    (hmargin : ∀ w ∈ lines, w.depth = 0) (hlines : lines.flatMap Write.chars = guardLines guard) :
    ∃ textBefore textAfter,
      printed [program] = some (textBefore ++ guardLines guard ++ textAfter) := by
  obtain ⟨textBefore, textAfter, htext⟩ := layout_margin hmargin before after
  rw [← List.append_assoc] at h
  exact ⟨textBefore, textAfter, by rw [printed_singleton h, htext, hlines]⟩

/-- The header is guarded by `headerGuard` of its name. -/
theorem printed_headerGuard (file : File) (params : Parameters) : ∃ before after,
    printed (getHeaderPrologue file params) =
      some (before ++ guardLines (headerGuard file.name) ++ after) := by
  rw [getHeaderPrologue, List.append_assoc, List.append_assoc]
  refine printed_guard (.set rfl (.set rfl (.set rfl (.set rfl (.append (.append
    (.straight rfl rfl) (closed_when (.of_run (fun _ => ⟨_, _, rfl⟩) rfl) _ 0))
    (.append (a := [.print _, .print _]) (.straight rfl rfl)
      (.append (a := [.print _, .print _]) (.straight rfl rfl)
        (.append (.straight rfl rfl) (.straight rfl rfl))))))))) ?_ ?_
  · simp
  · simp [Write.chars, Span.chars, guardLines, headerGuard, lit]

/-- The mock header is guarded by `mockGuard` of the same name. -/
theorem printed_mockGuard (file : File) (params : Parameters)
    (himports : PrintableImports file params) : ∃ before after,
    printed (getMockPrologue file params) =
      some (before ++ guardLines (mockGuard file.name) ++ after) := by
  rw [getMockPrologue, List.append_assoc, List.append_assoc]
  refine printed_guard (.set rfl (.set rfl (.set rfl (.set rfl (.set rfl
    (.append (a := [.print _, .print _, .print _]) (.straight rfl rfl)
      (.append (a := [.print _, .print _]) (.straight rfl rfl)
        (.append (a := [.print _, .print _, .print _]) (.straight rfl rfl)
          (.append (closed_printImports rfl himports 0)
            (.append (.straight rfl rfl) (.straight rfl rfl))))))))))) ?_ ?_
  · simp
  · simp [Write.chars, Span.chars, guardLines, mockGuard, lit]

/-! ### Services one after the other -/

theorem layoutFrom_line (start : Bool) (ws : List (Write Var)) :
    layoutFrom start (ws ++ [⟨0, [.text ['\n']]⟩]) = ((layoutFrom start ws).1 ++ ['\n'], true) := by
  rw [layoutFrom_append]
  simp [layoutFrom, layoutChars, Write.chars, Span.chars]

theorem layoutFrom_blocks {α : Type} (block : α → List (Write Var)) (xs : List α) :
    layoutFrom true (xs.flatMap fun x => block x ++ [⟨0, [.text ['\n']]⟩]) =
      (xs.flatMap fun x => layout (block x) ++ ['\n'], true) := by
  induction xs with
  | nil => rfl
  | cons x xs ih =>
      rw [List.flatMap_cons, layoutFrom_append, layoutFrom_line, ih, List.flatMap_cons]
      rfl

theorem layoutChars_line (depth : ℕ) (start : Bool) (t : Text) :
    (layoutChars depth start (t ++ ['\n'])).2 = true := by
  induction t generalizing start with
  | nil => rfl
  | cons c t ih => exact ih _

theorem prints_serviceLoop {β : Env Var} {body : Service → Program}
    (hbody : ∀ s, Closed β (body s)) (services : List Service) :
    Prints β 0 0 (services.flatMap fun s => body s ++ [.print ["\n"]])
      (services.flatMap fun s => written β 0 (body s) ++ [⟨0, [.text ['\n']]⟩]) :=
  .flatMap fun s _ => (hbody s 0).append (.print rfl)

def namespaceOf (params : Parameters) : Option Text :=
  if params.servicesNamespace.isEmpty then none else some params.servicesNamespace

/-- Services in a header: what opens their namespace and what closes it does not depend on
them, and each is written in the environment of the package. -/
theorem prints_services (packageName : Text) (params : Parameters) (closing : Template Var)
    {body : Service → Program} (hbody : ∀ outer s, Closed (packageEnv packageName outer) (body s))
    (hclosing : ∀ t, (fill (packageEnv packageName (some t)) closing).isSome = true) :
    ∃ opening ending : List (Write Var),
      (layoutFrom true opening).2 = true ∧
      ∀ services : List Service,
        Prints (fun _ => none) 0 0 (.set package packageName ::
          (when (!params.servicesNamespace.isEmpty)
            [.set servicesNamespace params.servicesNamespace,
             .print ["\nnamespace ", servicesNamespace, " \x7b\n\n"]] ++
          services.flatMap (fun s => body s ++ [.print ["\n"]]) ++
          when (!params.servicesNamespace.isEmpty) [.print closing]))
        (opening ++ ((services.flatMap fun s =>
          written (packageEnv packageName (namespaceOf params)) 0 (body s) ++
            [⟨0, [.text ['\n']]⟩]) ++ ending)) := by
  cases hempty : params.servicesNamespace.isEmpty with
  | true =>
      refine ⟨[], [], rfl, fun services => .set rfl ?_⟩
      have hnone : namespaceOf params = none := by rw [namespaceOf, hempty]; rfl
      rw [hnone, ← packageEnv_none]
      have hloop := (prints_serviceLoop (hbody none) services).append Prints.nil
      exact hloop
  | false =>
      have hsome : namespaceOf params = some params.servicesNamespace := by
        rw [namespaceOf, hempty]
        rfl
      obtain ⟨spans, hspans⟩ := Option.isSome_iff_exists.mp (hclosing params.servicesNamespace)
      refine ⟨[⟨0, [.text "\nnamespace ".toList, .value servicesNamespace params.servicesNamespace,
        .text " \x7b\n\n".toList]⟩], [⟨0, spans⟩], ?_, fun services => .set rfl (.set rfl ?_)⟩
      · have hchars : Write.chars (⟨0, [.text "\nnamespace ".toList,
            .value servicesNamespace params.servicesNamespace,
            .text " \x7b\n\n".toList]⟩ : Write Var) =
            ("\nnamespace ".toList ++ (params.servicesNamespace ++ " \x7b\n".toList)) ++
              ['\n'] := by
          simp [Write.chars, Span.chars]
        rw [layoutFrom, hchars]
        exact layoutChars_line 0 true _
      · have hloop := (prints_serviceLoop (hbody (some params.servicesNamespace)) services).append
          (.print hspans)
        rw [hsome]
        exact Prints.append (a := [.print _]) (.print rfl) hloop

theorem prints_sourceServices (packageName : Text) (params : Parameters)
    (services : List Service) : Prints (fun _ => none) 0 0 (.set package packageName ::
      .set ns (namespaceQualifier params) :: .set servicePrefix params.servicesNamespace ::
      services.flatMap (fun s => printSourceService s params ++ [.print ["\n"]]))
      (services.flatMap fun s =>
        written (sourceEnv packageName (namespaceQualifier params) params.servicesNamespace) 0
          (printSourceService s params) ++ [⟨0, [.text ['\n']]⟩]) := by
  have hloop (β : Env Var) (hβ : β = sourceEnv packageName (namespaceQualifier params)
      params.servicesNamespace) := prints_serviceLoop
    (fun s => hβ ▸ closed_printSourceService s params) services
  have henv : sourceEnv packageName (namespaceQualifier params) params.servicesNamespace =
      Function.update (Function.update (Function.update (fun _ => none) package (some packageName))
        ns (some (namespaceQualifier params))) servicePrefix (some params.servicesNamespace) := by
    rw [sourceEnv, packageEnv_none]
  rw [henv]
  exact .set rfl (.set rfl (.set rfl (hloop _ henv.symm)))

theorem printed_services {program : Program} {opening ending : List (Write Var)}
    {block : Service → List (Write Var)} {services : List Service}
    (hopening : (layoutFrom true opening).2 = true)
    (h : Prints (fun _ => none) 0 0 program (opening ++
      ((services.flatMap fun s => block s ++ [⟨0, [.text ['\n']]⟩]) ++ ending))) :
    printed [program] = some (layout opening ++
      services.flatMap (fun s => layout (block s) ++ ['\n']) ++ layout ending) := by
  rw [printed_singleton h, layout, layoutFrom_append, hopening, layoutFrom_append,
    layoutFrom_blocks, List.append_assoc]
  rfl

/-- The text of a service does not depend on the file it stands in, beyond its package, nor
on the services before and after it. -/
theorem services_are_independent (packageName : Text) (params : Parameters) :
    ∃ (headerOpening headerEnding mockOpening mockEnding : Text)
      (headerCode sourceCode mockCode : Service → Text),
      ∀ file : File, File.package file = packageName →
        printed (getHeaderServices file params) = some (headerOpening ++
          file.content.services.flatMap headerCode ++ headerEnding) ∧
        printed (getSourceServices file params) =
          some (file.content.services.flatMap sourceCode) ∧
        printed (getMockServices file params) = some (mockOpening ++
          file.content.services.flatMap mockCode ++ mockEnding) := by
  have hqualifier (file : File) (hfile : File.package file = packageName) :
      qualifier file = if packageName.isEmpty then [] else packageName ++ ['.'] := by
    rw [qualifier, hfile]
  generalize (if packageName.isEmpty then [] else packageName ++ ['.']) = q at hqualifier
  obtain ⟨ho, he, hstart, hheader⟩ := prints_services q params
    ["\x7d  // namespace ", servicesNamespace, "\n\n"]
    (fun _ s => closed_printHeaderService s params) fun _ => rfl
  obtain ⟨mo, me, mstart, hmock⟩ := prints_services q params
    ["\x7d // namespace ", servicesNamespace, "\n\n"]
    (fun _ s => closed_printMockService s params) fun _ => rfl
  refine ⟨layout ho, layout he, layout mo, layout me,
    fun s => layout (written (packageEnv q (namespaceOf params)) 0 (printHeaderService s params)) ++
      ['\n'],
    fun s => layout (written (sourceEnv q (namespaceQualifier params) params.servicesNamespace) 0
      (printSourceService s params)) ++ ['\n'],
    fun s => layout (written (packageEnv q (namespaceOf params)) 0 (printMockService s params)) ++
      ['\n'],
    fun file hfile => ⟨?_, ?_, ?_⟩⟩
  · rw [getHeaderServices, hqualifier file hfile]
    exact printed_services hstart (hheader file.content.services)
  · rw [getSourceServices, hqualifier file hfile]
    refine (printed_singleton (prints_sourceServices q params _)).trans ?_
    rw [layout, layoutFrom_blocks]
  · rw [getMockServices, hqualifier file hfile]
    exact printed_services mstart (hmock file.content.services)

theorem services_are_independent_orders :
    ∃ (headerOpening headerEnding mockOpening mockEnding : Text)
      (headerCode sourceCode mockCode : Service → Text),
      printed (getHeaderServices ordersFile {}) =
        some (headerOpening ++ (headerCode greeter ++ headerCode orders) ++ headerEnding) ∧
      printed (getSourceServices ordersFile {}) = some (sourceCode greeter ++ sourceCode orders) ∧
      printed (getMockServices ordersFile {}) =
        some (mockOpening ++ (mockCode greeter ++ mockCode orders) ++ mockEnding) := by
  obtain ⟨headerOpening, headerEnding, mockOpening, mockEnding, headerCode, sourceCode, mockCode,
    hfile⟩ := services_are_independent (lit "orders") {}
  have hprinted := hfile ordersFile rfl
  simp only [show ordersFile.content.services = [greeter, orders] from rfl, List.flatMap_cons,
    List.flatMap_nil, List.append_nil] at hprinted
  exact ⟨_, _, _, _, _, _, _, hprinted⟩

end GrpcM.Plugin
