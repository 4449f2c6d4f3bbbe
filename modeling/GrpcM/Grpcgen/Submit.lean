import GrpcM.Grpcgen.PlanAll

/-!
Handing planned edges to mcpp: `submit`, and `generate` and `generate_all`, which
plan and submit with nothing in between.
-/

namespace GrpcM.Grpcgen

open GrpcM.Path GrpcM.FileSystem

def Edge.toAction (e : Edge) : Action where
  id := e.id
  role := lit "source"
  description := e.description
  command := e.command
  inputs := e.inputs
  outputs := e.outputs

def submit (h : Host) (edges : List Edge) : Build h Bool := do
  if edges.isEmpty then return false
  for e in edges do
    direct (.action e.toAction)
  direct (.includeDir h.outDir)
  return true

def generate (h : Host) (protos : List Text) (opt : Options) : Build h Bool := do
  submit h (← plan h protos opt)

def generateAll (h : Host) (opt : Options) : Build h Bool := do
  submit h (← planAll h opt)

end GrpcM.Grpcgen
