import Stageflow.Json.Display

/-!
# Faults of templates

Why a template cannot be filled in.
-/

namespace Stageflow.Template

/-- The sorts of faults: a text that is no template, a position or a field that does not exist, a
value that has no such attribute, a value that cannot be used that way, a number out of range, and a
text that there is no room for. -/
inductive FaultKind where
  | invalid
  | position
  | attribute
  | mistyped
  | field
  | overflow
  | room
  deriving DecidableEq, Repr

/-- A fault of a template. -/
inductive Fault where
  | loneOpen
  | loneClose
  | unclosed
  | openInName
  | conversionMissing
  | conversionEnd
  | specUnclosed
  | conversionUnknown (conversion : Char)
  | positional
  | tooManyDigits
  | emptyStep
  | stepExpected
  | bracketMissing
  | tooDeep
  | noAttribute (kind name : String)
  | outOfRange (kind : String)
  | textIndex (kind : String)
  | noField (key : String)
  | noPosition (index : Nat)
  | noItems (kind : String)
  | specRefused (kind : String)
  | specUnread (spec kind : String)
  | codeUnknown (code : Char) (kind : String)
  | groupingCode (mark code : Char)
  | groupingTwice
  | precisionMissing
  | signOnText
  | spaceOnText
  | zeroOnText
  | alternateOnText
  | alignOnText
  | precisionOnInteger
  | zeroOnInteger
  | signOnCharacter
  | alternateOnCharacter
  | characterRange
  | tooLarge
  | precisionTooBig
  | tooWide
  | unwritable
  deriving DecidableEq, Repr

namespace Fault

/-- The sort of a fault. -/
def kind : Fault → FaultKind
  | .outOfRange _ => .position
  | .noAttribute .. => .attribute
  | .textIndex _ | .noItems _ | .specRefused _ => .mistyped
  | .noField _ | .noPosition _ => .field
  | .characterRange | .tooLarge => .overflow
  | .tooWide => .room
  | _ => .invalid

/-- A character as messages name it: by its code outside of printable ASCII. -/
def charName (c : Char) : String :=
  if 32 < c.val && c.val < 127 then c.toString
  else "\\x" ++ String.ofList (Nat.toDigits 16 c.toNat)

/-- The wording of a fault. -/
def message : Fault → String
  | .loneOpen => "Single '\x7b' encountered in format string"
  | .loneClose => "Single '\x7d' encountered in format string"
  | .unclosed => "expected '\x7d' before end of string"
  | .openInName => "unexpected '\x7b' in field name"
  | .conversionMissing => "end of string while looking for conversion specifier"
  | .conversionEnd => "expected ':' after conversion specifier"
  | .specUnclosed => "unmatched '\x7b' in format spec"
  | .conversionUnknown c => "Unknown conversion specifier " ++ charName c
  | .positional => "Format string contains positional fields"
  | .tooManyDigits => "Too many decimal digits in format string"
  | .emptyStep => "Empty attribute in format string"
  | .stepExpected => "Only '.' or '[' may follow ']' in format field specifier"
  | .bracketMissing => "Missing ']' in format string"
  | .tooDeep => "Max string recursion exceeded"
  | .noAttribute kind name => s!"'{kind}' object has no attribute '{name}'"
  | .outOfRange "str" => "string index out of range"
  | .outOfRange kind => s!"{kind} index out of range"
  | .textIndex "str" => "string indices must be integers, not 'str'"
  | .textIndex kind => s!"{kind} indices must be integers or slices, not str"
  | .noField key => key
  | .noPosition index => toString index
  | .noItems kind => s!"'{kind}' object is not subscriptable"
  | .specRefused kind => s!"unsupported format string passed to {kind}.__format__"
  | .specUnread spec kind => s!"Invalid format specifier '{spec}' for object of type '{kind}'"
  | .codeUnknown c kind => s!"Unknown format code '{charName c}' for object of type '{kind}'"
  | .groupingCode mark c => s!"Cannot specify '{mark}' with '{charName c}'."
  | .groupingTwice => "Cannot specify both ',' and '_'."
  | .precisionMissing => "Format specifier missing precision"
  | .signOnText => "Sign not allowed in string format specifier"
  | .spaceOnText => "Space not allowed in string format specifier"
  | .zeroOnText => "Negative zero coercion (z) not allowed in string format specifier"
  | .alternateOnText => "Alternate form (#) not allowed in string format specifier"
  | .alignOnText => "'=' alignment not allowed in string format specifier"
  | .precisionOnInteger => "Precision not allowed in integer format specifier"
  | .zeroOnInteger => "Negative zero coercion (z) not allowed in integer format specifier"
  | .signOnCharacter => "Sign not allowed with integer format specifier 'c'"
  | .alternateOnCharacter => "Alternate form (#) not allowed with integer format specifier 'c'"
  | .characterRange => "%c arg not in range(0x110000)"
  | .tooLarge => "int too large to convert to float"
  | .precisionTooBig => "precision too big"
  | .tooWide => ""
  | .unwritable => Json.unwritable

end Fault

end Stageflow.Template
