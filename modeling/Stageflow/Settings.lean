import Stageflow.Json.Display
import Stageflow.Number.Decimal

/-!
# Settings

Budgets and limits of a running system, and how they are read from a settings file. Each value that
cannot be used is replaced by its default, whatever the other values are.
-/

namespace Stageflow

/-- Budgets in seconds, the limit of automation cascades, and the built-in templates that serve. -/
structure Settings where
  subscriberTimeout : Binary64 := .ofQuotient 5 1
  actionTimeout : Binary64 := .ofQuotient 10 1
  tickInterval : Binary64 := .ofQuotient 30 1
  lockWait : Binary64 := .zero false
  maxCascadeDepth : Int := 8
  enabledTemplates : List String := ["default"]
  deriving DecidableEq, Repr

namespace Settings

/-! ## Waiting -/

/-- The longest time that can be waited for, in seconds. -/
def longestWait : Rat := 9223372036854775 / 1000000

/-- Whether a number of seconds is too long a time to wait for. -/
def isTooLong (seconds : Binary64) : Bool :=
  Binary64.compared Extended.lt (some (.at longestWait)) seconds.place?

/-- Whether the time to wait for a lock is out of range. -/
def waitsTooLong (s : Settings) : Bool := isTooLong s.lockWait

/-- Whether the budget of subscribers is out of range. -/
def deliversTooLong (s : Settings) : Bool := isTooLong s.subscriberTimeout

/-- Whether the budget of actions is out of range. -/
def actsTooLong (s : Settings) : Bool := isTooLong s.actionTimeout

/-- Whether all that a request waits for can be waited for: the lock of its item, and the calls of
subscribers. -/
structure InTime (s : Settings) : Prop where
  locks : s.waitsTooLong = false
  deliveries : s.deliversTooLong = false

/-! ## Reading -/

/-- A value of a settings file that cannot be used. -/
inductive Problem where
  | badBudget (key : String) (value : Json) (standard : Binary64)
  | badValue (key : String) (value : Json)
  deriving Repr

/-- The wording of a problem in a file. -/
def Problem.message (file : String) : Problem → String
  | .badBudget key value standard =>
    s!"Invalid {key} {value.quoted} in {file}, using default {standard.toText}"
  | .badValue key value => s!"Invalid {key} {value.quoted} in {file}, using default"

/-- A number out of the range of floating point. -/
inductive Unreadable where
  | tooLarge
  deriving DecidableEq, Repr

/-- What a reading gives: the problems met, and a value unless a number is too large to go on. -/
structure Reading (α : Type) where
  problems : List Problem
  value : Except Unreadable α

namespace Reading

variable {α β : Type}

/-- A value without a problem. -/
def clean (value : α) : Reading α := ⟨[], .ok value⟩

/-- Two readings in turn; the second is not begun where the first gives no value. -/
def andThen (first : Reading α) (next : α → Reading β) : Reading β :=
  match first.value with
  | .ok value => ⟨first.problems ++ (next value).problems, (next value).value⟩
  | .error e => ⟨first.problems, .error e⟩

instance : Monad Reading where
  pure := clean
  bind := andThen

end Reading

/-- A number of seconds that passes a test on its place; `none` if the value is no such number. -/
def seconds? (test : Extended → Bool) (value : Json) : Except Unreadable (Option Binary64) :=
  match value with
  | .int n =>
    if test (.at n) then
      match Binary64.ofInt? n with
      | some x => .ok (some x)
      | none => .error .tooLarge
    else .ok none
  | .real x =>
    .ok (match x.place? with
      | some place => if test place then some x else none
      | none => some x)
  | _ => .ok none

/-- Reads a number of seconds that passes a test. -/
def readSeconds (test : Extended → Bool) (problem : Json → Problem) (raw : Fields) (key : String)
    (standard : Binary64) : Reading Binary64 :=
  match raw.get? key with
  | none => .clean standard
  | some value =>
    match seconds? test value with
    | .ok (some x) => .clean x
    | .ok none => ⟨[problem value], .ok standard⟩
    | .error e => ⟨[], .error e⟩

/-- Reads a budget, which has to be positive. -/
def readBudget (raw : Fields) (key : String) (standard : Binary64) : Reading Binary64 :=
  readSeconds (fun p => !p.le (.at 0)) (.badBudget key · standard) raw key standard

/-- Reads the time to wait for a lock, which must not be negative. -/
def readWait (raw : Fields) (key : String) (standard : Binary64) : Reading Binary64 :=
  readSeconds (fun p => !p.lt (.at 0)) (.badValue key ·) raw key standard

/-- Reads the limit of cascades, an integer of at least one. -/
def readDepth (raw : Fields) (key : String) (standard : Int) : Reading Int :=
  match raw.get? key with
  | none => .clean standard
  | some (.int n) => if n < 1 then ⟨[.badValue key (.int n)], .ok standard⟩ else .clean n
  | some value => ⟨[.badValue key value], .ok standard⟩

/-- Reads a list of texts. -/
def readTexts (raw : Fields) (key : String) (standard : List String) : Reading (List String) :=
  match raw.get? key with
  | none => .clean standard
  | some (.arr xs) =>
    match xs.mapM Json.text? with
    | some texts => .clean texts
    | none => ⟨[.badValue key (.arr xs)], .ok standard⟩
  | some value => ⟨[.badValue key value], .ok standard⟩

/-- The settings in the fields of a file, with the problems found. -/
def ofFields (raw : Fields) : Reading Settings := do
  let standard : Settings := {}
  let subscriberTimeout ← readBudget raw "subscriber_timeout" standard.subscriberTimeout
  let actionTimeout ← readBudget raw "action_timeout" standard.actionTimeout
  let tickInterval ← readBudget raw "tick_interval" standard.tickInterval
  let lockWait ← readWait raw "lock_wait" standard.lockWait
  let maxCascadeDepth ← readDepth raw "max_cascade_depth" standard.maxCascadeDepth
  let enabledTemplates ← readTexts raw "enabled_templates" standard.enabledTemplates
  return {
    subscriberTimeout, actionTimeout, tickInterval, lockWait, maxCascadeDepth, enabledTemplates }

/-- Settings as they are written to a file. -/
def toJson (s : Settings) : Json := .obj [
  ("subscriber_timeout", .real s.subscriberTimeout),
  ("action_timeout", .real s.actionTimeout),
  ("tick_interval", .real s.tickInterval),
  ("lock_wait", .real s.lockWait),
  ("max_cascade_depth", .int s.maxCascadeDepth),
  ("enabled_templates", Json.strings s.enabledTemplates)]

end Settings

end Stageflow
