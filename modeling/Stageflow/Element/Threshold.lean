import Stageflow.Element.Reading

/-!
# Metric thresholds

A threshold limits one flow metric of an item.
-/

namespace Stageflow

/-- A flow metric of an item. -/
inductive Metric where
  | stageDuration
  | cycleTime
  | loopBackRate
  deriving DecidableEq, Repr

/-- The limit of a metric. The stage is that whose duration is limited. -/
structure Threshold where
  id : String
  metric : Metric
  limit : Binary64
  stage : Json
  deriving Repr

namespace Metric

/-- The name of a metric. -/
def name : Metric → String
  | .stageDuration => "stage_duration"
  | .cycleTime => "cycle_time"
  | .loopBackRate => "loop_back_rate"

/-- The metric of a name. -/
def ofName? : String → Option Metric
  | "stage_duration" => some .stageDuration
  | "cycle_time" => some .cycleTime
  | "loop_back_rate" => some .loopBackRate
  | _ => none

end Metric

namespace Threshold

/-- Reads a threshold. -/
def parse (raw : Json) : Except Defect Threshold := do
  let fields ← raw.elementFields
  let id ← identifier "metric threshold" (← fields.require "id")
  let word ← (fields.getOrNull "metric").wordAmong
    ["stage_duration", "cycle_time", "loop_back_rate"]
  match word.bind Metric.ofName? with
  | none => throw (.metric id)
  | some metric =>
    return {
      id, metric
      limit := ← (← fields.require "threshold").number
      stage := fields.getOrNull "stage" }

end Threshold

end Stageflow
