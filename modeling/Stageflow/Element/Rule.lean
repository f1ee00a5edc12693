import Stageflow.Element.Reading

/-!
# Automation rules

A rule has a trigger and actions. With a duration it is deferred: the trigger arms a watch, the
actions run when the duration is over, and the events named in `breakOn` end the watch and run the
`onBreak` actions instead.
-/

namespace Stageflow

/-- What an action does. -/
inductive ActionType where
  | assign
  | createNode
  | createEdge
  | createDocument
  | notify
  | rollback
  | autoTransition
  deriving DecidableEq, Repr

/-- A step of a rule, with its parameters as written. -/
structure Action where
  type : ActionType
  params : Fields
  deriving Repr

/-- An automation rule. -/
structure Rule where
  id : String
  trigger : String
  sources : List String
  target : Option String
  duration : Option Binary64
  breakOn : List String
  actions : List Action
  onBreak : List Action
  deriving Repr

namespace ActionType

/-- The name of a type. -/
def name : ActionType → String
  | .assign => "assign"
  | .createNode => "create_node"
  | .createEdge => "create_edge"
  | .createDocument => "create_document"
  | .notify => "notify"
  | .rollback => "rollback"
  | .autoTransition => "auto_transition"

/-- All types. -/
def all : List ActionType :=
  [.assign, .createNode, .createEdge, .createDocument, .notify, .rollback, .autoTransition]

/-- The type of a name. -/
def ofName? (s : String) : Option ActionType := all.find? (·.name = s)

end ActionType

namespace Action

/-- Reads an action; the fields other than its type are its parameters. -/
def parse (raw : Json) : Except Defect Action := do
  match raw.fields? with
  | none => throw (.actionShape raw)
  | some fields =>
    match fields.get? "type" with
    | none => throw (.actionShape raw)
    | some value =>
      match (← value.wordAmong (ActionType.all.map (·.name))).bind ActionType.ofName? with
      | some type => return ⟨type, fields.erase "type"⟩
      | none => throw (.actionType (← value.written))

end Action

namespace Rule

/-- Whether the actions wait for a duration. -/
def deferred (rule : Rule) : Bool := rule.duration.isSome

/-- The trigger that stands for a change of status. -/
def transitionTrigger : String := "transition"

/-- Whether a change of status triggers the rule. -/
def onTransition (rule : Rule) : Bool := rule.trigger = transitionTrigger

/-- The trigger of a rule: a text that is not empty. -/
def parseTrigger (what : String) : Json → Except Defect String
  | .str s => if s.isEmpty then .error (.trigger what) else .ok s
  | _ => .error (.trigger what)

/-- The target of a rule: null or a text. -/
def parseTarget (what : String) : Json → Except Defect (Option String)
  | .null => .ok none
  | .str s => .ok (some s)
  | _ => .error (.ruleTarget what)

/-- The duration of a rule, if it is given. -/
def parseDuration : Json → Except Defect (Option Binary64)
  | .null => .ok none
  | time => (Duration.parse time).map some

/-- Reads a rule. -/
def parse (raw : Json) : Except Defect Rule := do
  let fields ← raw.elementFields
  let id ← identifier "automation rule" (← fields.require "id")
  let what := s!"Rule '{id}'"
  let trigger ← parseTrigger what (fields.getOr "trigger" (.str transitionTrigger))
  let target ← parseTarget what (fields.getOrNull "to")
  let onBreak ← (← fields.membersOf "on_break").mapM Action.parse
  let breakOn ← fields.texts "break_on" what
  if (fields.getOrNull "duration").isNull && !(onBreak.isEmpty && breakOn.isEmpty) then
    throw (.breakWithoutDuration what)
  let sources ← fields.texts "from" what
  let duration ← parseDuration (fields.getOrNull "duration")
  let actions ← (← fields.membersOf "actions").mapM Action.parse
  return { id, trigger, sources, target, duration, breakOn, actions, onBreak }

end Rule

end Stageflow
