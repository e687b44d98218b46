import DocGrid.Intake.Items
import DocGrid.Pipeline.Stage

/-! Pipelines: stages one after the other, each with one operator. -/

namespace DocGrid

namespace Pipeline

def partCount (stage : Value) : Result Nat :=
  stage.iterate.map List.length

def runStage (stage : Value) (docs : List Document) : Result (List Document) := do
  if (← partCount stage) = 1 then
    match ← Stage.entries stage with
    | (name, spec) :: _ => Stage.run name spec docs
    | [] => throw .missingMember
  else throw (.stageSize (← stage.toDocument))

def runStages : List Value → List Document → Result (List Document)
  | [], docs => .ok docs
  | stage :: rest, docs => do runStages rest (← runStage stage docs)

def run (pipeline : List Value) (docs : List Document) : Result (List Document) :=
  runStages pipeline docs

/-- Runs a pipeline over documents that may be given in any form. -/
def runValues (pipeline records : Value) : Result (List Document) := do
  let docs ← (← records.iterate).mapM Value.toDocument
  runStages (← pipeline.iterate) docs

end Pipeline

end DocGrid
