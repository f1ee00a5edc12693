import Stageflow.Text.Character
import Stageflow.Text.Template.Fault

/-!
# Scanning templates

A template is text with fields in braces; a doubled brace stands for itself. `scan` reads it from
left to right into pieces. A fault of the text is the last piece, so that what stands before it is
filled in first. Inside a field, `steps` reads the attributes and items that a name is followed by.
-/

namespace Stageflow.Template

/-- A field: the text that names a value, a conversion, and a specification of its layout. -/
structure Field where
  name : List Char
  conversion : Option Char := none
  spec : List Char := []
  nested : Bool := false
  deriving DecidableEq, Repr

/-- A piece of a template. -/
inductive Piece where
  | char (c : Char)
  | field (f : Field)
  | broken (fault : Fault)
  deriving DecidableEq, Repr

/-- Where a scan is: in the text, in the name of a field, in brackets inside a name, at a
conversion, behind it, or in a specification with the number of braces that are open. -/
inductive Mode where
  | text
  | name (read : List Char)
  | bracket (read : List Char)
  | conversion (name : List Char)
  | converted (name : List Char) (conversion : Char)
  | spec (field : Field) (depth : Nat)
  deriving DecidableEq, Repr

/-- Reads the pieces of a template from a mode on. -/
def scanFrom : Mode → List Char → List Piece
  | .text, [] => []
  | .text, ['\x7b'] => [.broken .loneOpen]
  | .text, '\x7b' :: '\x7b' :: rest => .char '\x7b' :: scanFrom .text rest
  | .text, '\x7b' :: rest => scanFrom (.name []) rest
  | .text, '\x7d' :: '\x7d' :: rest => .char '\x7d' :: scanFrom .text rest
  | .text, '\x7d' :: _ => [.broken .loneClose]
  | .text, c :: rest => .char c :: scanFrom .text rest
  | .name _, [] => [.broken .unclosed]
  | .name read, c :: rest =>
    if c = '\x7b' then [.broken .openInName]
    else if c = '\x7d' then .field ⟨read, none, [], false⟩ :: scanFrom .text rest
    else if c = ':' then scanFrom (.spec ⟨read, none, [], false⟩ 0) rest
    else if c = '!' then scanFrom (.conversion read) rest
    else if c = '[' then scanFrom (.bracket (read ++ [c])) rest
    else scanFrom (.name (read ++ [c])) rest
  | .bracket _, [] => [.broken .unclosed]
  | .bracket read, c :: rest =>
    if c = ']' then scanFrom (.name (read ++ [c])) rest else scanFrom (.bracket (read ++ [c])) rest
  | .conversion _, [] => [.broken .conversionMissing]
  | .conversion name, c :: rest => scanFrom (.converted name c) rest
  | .converted _ _, [] => [.broken .specUnclosed]
  | .converted name conversion, c :: rest =>
    if c = '\x7d' then .field ⟨name, some conversion, [], false⟩ :: scanFrom .text rest
    else if c = ':' then scanFrom (.spec ⟨name, some conversion, [], false⟩ 0) rest
    else [.broken .conversionEnd]
  | .spec _ _, [] => [.broken .specUnclosed]
  | .spec field depth, c :: rest =>
    let longer := field.spec ++ [c]
    if c = '\x7b' then
      scanFrom (.spec ⟨field.name, field.conversion, longer, true⟩ (depth + 1)) rest
    else if c = '\x7d' then
      match depth with
      | 0 => .field field :: scanFrom .text rest
      | depth + 1 =>
        scanFrom (.spec ⟨field.name, field.conversion, longer, field.nested⟩ depth) rest
    else scanFrom (.spec ⟨field.name, field.conversion, longer, field.nested⟩ depth) rest

/-- The pieces of a template. -/
def scan (template : List Char) : List Piece := scanFrom .text template

/-! ## Names -/

/-- The greatest index. -/
def greatestIndex : Nat := Nat.pow 2 63 - 1

/-- A run of digits as an index; `none` if it is not one. -/
def index? (cs : List Char) : Except Fault (Option Nat) :=
  if cs.isEmpty || !cs.all Text.isDecimal then .ok none
  else if greatestIndex < Text.digitsValue cs then .error .tooManyDigits
  else .ok (some (Text.digitsValue cs))

/-- A step from a value to a part of it. -/
inductive Step where
  | attr (name : List Char)
  | item (name : List Char)
  | broken (fault : Fault)
  deriving DecidableEq, Repr

/-- Where a reading of steps is. -/
inductive StepMode where
  | between
  | attr (read : List Char)
  | item (read : List Char)
  deriving DecidableEq, Repr

/-- Reads steps from a mode on. -/
def stepsFrom : StepMode → List Char → List Step
  | .between, [] => []
  | .between, c :: rest =>
    if c = '.' then stepsFrom (.attr []) rest
    else if c = '[' then stepsFrom (.item []) rest
    else [.broken .stepExpected]
  | .attr read, [] => [if read.isEmpty then .broken .emptyStep else .attr read]
  | .attr read, c :: rest =>
    if c = '.' || c = '[' then
      if read.isEmpty then [.broken .emptyStep]
      else .attr read :: stepsFrom (if c = '.' then .attr [] else .item []) rest
    else stepsFrom (.attr (read ++ [c])) rest
  | .item _, [] => [.broken .bracketMissing]
  | .item read, c :: rest =>
    if c = ']' then
      if read.isEmpty then [.broken .emptyStep] else .item read :: stepsFrom .between rest
    else stepsFrom (.item (read ++ [c])) rest

/-- The variable that the name of a field starts with, and the steps behind it. -/
def splitName (name : List Char) : List Char × List Step :=
  let isStep (c : Char) : Bool := c = '.' || c = '['
  (name.takeWhile fun c => !isStep c, stepsFrom .between (name.dropWhile fun c => !isStep c))

end Stageflow.Template
