import ClashSubParser.ResolveMembers
import ClashSubParser.ProbeBatches
import ClashSubParser.StoredObservations

/-! The conditions on probes read the newest observation of a pair. What a run that did not execute the pair has
stored of it can be that observation. -/
namespace ClashSubParser

open List

/-- A row of `probe_observations`. -/
structure ObservationRow where
  id : String
  nodeLogicalID : String
  observation : ProbeObservation

/-- `Create`, which writes the time in whole seconds. -/
def RunObservation.row (o : RunObservation) (id : String) (now : Time) (latencyMS : Int) : ObservationRow :=
  ⟨id, o.nodeLogicalID, ⟨o.kind, o.verdict, now.truncate, latencyMS⟩⟩

namespace ObservationRow

/-- `ORDER BY observed_at DESC, id DESC`. -/
def isNewer (row old : ObservationRow) : Bool :=
  old.observation.observedAt < row.observation.observedAt ∨
    (old.observation.observedAt = row.observation.observedAt ∧ old.id < row.id)

def newest : Option ObservationRow → ObservationRow → Option ObservationRow
  | none, row => some row
  | some best, row => if row.isNewer best then some row else some best

end ObservationRow

section

variable (rt : Runtime) (c : FilterCondition)

variable {rt c}

end

section

variable {rt : Runtime} {c : FilterCondition} {field : FilterField} {kind : ProbeKind} {n : Node}
  {rows run : List ObservationRow} {sources : List NodeSource} {asOf : Time}

section

variable (hfield : (parseFilterField rt c.field).toOption = some field)
  (hprobe : field = .probeVerdict ∨ field = .probeLatencyMS) (hkind : c.probeKind = some kind)
include hfield hprobe hkind

end

end

end ClashSubParser
