import Stageflow.Text.Message

/-!
# Log books

A log is kept in files, one entry a record. Records go to the file that was set up last, and only
those of a logger of the family and of enough weight. Of the fields that a record carries the known
ones are written beside its message.
-/

namespace Stageflow.Log

/-- The weight of a record. -/
inductive Level where
  | debug
  | info
  | warning
  | error
  | critical
  deriving DecidableEq, Repr

namespace Level

/-- The word for a level. -/
def word : Level → String
  | .debug => "DEBUG"
  | .info => "INFO"
  | .warning => "WARNING"
  | .error => "ERROR"
  | .critical => "CRITICAL"

/-- The level of a word. -/
def ofWord? (s : String) : Option Level :=
  [Level.debug, .info, .warning, .error, .critical].find? (·.word = s)

/-- Whether records of a level are written. -/
def isWritten : Level → Bool
  | .debug => false
  | _ => true

end Level

/-- The logger that the others descend from. -/
def family : String := "idlc"

/-- Whether a logger is that of the family or descends from it. -/
def isOfFamily (logger : String) : Bool :=
  logger = family || (family ++ ".").toList.isPrefixOf logger.toList

/-- Something to be logged. -/
structure Record where
  logger : String := family
  level : Level
  message : String
  arguments : List Json := []
  extra : Fields := []
  fault : Option String := none
  deriving Repr

/-- The fields that are written beside a message. -/
def extraNames : List String := ["item", "rule", "action", "event", "duration_ms", "error"]

/-- The entry of a record written by a thread; none if the arguments do not fit the message. -/
def Record.written? (thread : String) (record : Record) : Option Json :=
  (Message.fill? record.message record.arguments).map fun text =>
    .obj ([("level", .str record.level.word), ("logger", .str record.logger),
      ("thread", .str thread), ("msg", .str text)] ++
      (extraNames.filterMap fun name => (record.extra.get? name).map (name, ·)) ++
      match record.fault with
      | some text => [("exception", .str text)]
      | none => [])

/-- The files of a log with their entries, the oldest first, and the one that is written to. -/
structure Book where
  files : Table String (List Json) := []
  current : Option String := none
  deriving Repr

namespace Book

/-- Sets up a file: it is written to from now on, behind what it holds. -/
def setUp (book : Book) (file : String) : Book :=
  { files := if book.files.has file then book.files else book.files.put file []
    current := some file }

/-- Writes a record. -/
def write (book : Book) (thread : String) (record : Record) : Book :=
  match book.current with
  | none => book
  | some file =>
    if isOfFamily record.logger && record.level.isWritten then
      match record.written? thread with
      | some entry =>
        { book with files := book.files.put file ((book.files.get? file).getD [] ++ [entry]) }
      | none => book
    else book

/-- How many files are open. -/
def openCount (book : Book) : Nat := if book.current.isSome then 1 else 0

end Book

end Stageflow.Log
