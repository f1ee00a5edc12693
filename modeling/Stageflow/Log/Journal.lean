import Stageflow.Json.Printer
import Stageflow.Log.Book
import Stageflow.System.Notice

/-!
# Journals as logs

The notices of a run as the records of a log, and the lines that they are written in.
-/

namespace Stageflow

/-- The level that notices of a severity are logged at. -/
def Severity.level : Severity → Log.Level
  | .warning => .warning
  | .error => .error

/-- The record of a printed notice. -/
def Notice.record? (notice : Notice) : Option Log.Record :=
  (notice.print? Fault.message).map fun (severity, part, text) =>
    { logger := Log.family ++ "." ++ part, level := severity.level, message := text }

/-- The lines of a journal in a log, the oldest notice first. -/
def Log.linesOf (journal : List Notice) : List String :=
  (journal.reverse.filterMap Notice.record?).filterMap fun record =>
    (record.written? "MainThread").map Json.compact

end Stageflow
