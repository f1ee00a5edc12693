import Stageflow.Element.Defect
import Stageflow.Number.Binary64

/-!
# Instants

Points in time with microseconds, in the years 1 to 9999. One that is zoned is given in universal
time; of one that is not, nobody knows the zone, so the two can neither be compared nor subtracted.
A span of time is a whole number of microseconds; `Span.ofSeconds` rounds seconds to it, and
`Span.hours` is what durations are reported in.
-/

namespace Stageflow

/-- A point in time, as the microseconds since the year 1 began, and whether its zone is known. -/
structure Instant where
  micros : Int
  zoned : Bool := true
  deriving DecidableEq, Repr

namespace Instant

/-- Whether two instants cannot be compared: the zone of one of them is known, and of the other not.
-/
def mixes (a b : Instant) : Bool := a.zoned != b.zoned

/-- An instant is not later than another one if they can be compared, and then as their microseconds
say. -/
instance : LE Instant := ⟨fun a b => a.mixes b = false ∧ a.micros ≤ b.micros⟩

instance (a b : Instant) : Decidable (a ≤ b) :=
  inferInstanceAs (Decidable (a.mixes b = false ∧ a.micros ≤ b.micros))

end Instant

/-- A span of time in microseconds. -/
abbrev Span := Int

namespace Span

/-- The microseconds of a second. -/
def second : Nat := 1000000

/-- The microseconds of a day. -/
def day : Nat := 86400 * second

/-- The integral part of the magnitude of a finite number. -/
def wholePart (significand : Nat) (exponent : Int) : Nat :=
  significand * Nat.pow 2 exponent.toNat / Nat.pow 2 (-exponent).toNat

/-- Admits a span of at most 999999999 days. -/
def check (micros : Int) : Except Defect Span :=
  if micros.fdiv day < -999999999 || 999999999 < micros.fdiv day then .error .tooLarge
  else .ok micros

/-- The span of a number of seconds: whole seconds count exactly, the fraction is scaled to
microseconds and rounded to the nearest one, a tie to the even one. -/
def ofSeconds : Binary64 → Except Defect Span
  | .nan => .error .undefinedNumber
  | .infinite _ => .error .tooLarge
  | .finite s m e =>
    let whole := wholePart m e
    let scale := Nat.pow 2 (-e).toNat
    let fraction := Binary64.ofRatio false (m * Nat.pow 2 e.toNat - whole * scale) scale
    match fraction.mul (Binary64.ofQuotient second 1) with
    | .finite _ n f =>
      let micros : Int :=
        whole * second + Binary64.nearestEven (n * Nat.pow 2 f.toNat) (Nat.pow 2 (-f).toNat)
      check (if s then -micros else micros)
    | _ => .error .tooLarge

/-- The span of a number of seconds in a document. -/
def ofJson : Json → Except Defect Span
  | .bool b => .ok (if b then second else 0)
  | .int n => check (n * second)
  | .real x => ofSeconds x
  | value => .error (.numberKind value.kindName)

/-- A span in seconds, rounded once. -/
def seconds (span : Span) : Binary64 := Binary64.ofQuotient span second

/-- A span in hours: the seconds, divided and rounded once more. -/
def hours (span : Span) : Binary64 := span.seconds.divNat 3600

end Span

namespace Instant

/-- The first instant past the last year. -/
def limit : Int := 3652059 * Span.day

/-- The instant after a span, of the same zone. -/
def shift (t : Instant) (span : Span) : Instant := { t with micros := t.micros + span }

@[simp] theorem micros_shift (t : Instant) (span : Span) :
    (t.shift span).micros = t.micros + span := rfl

/-- The instant after a span, if it lies in the years 1 to 9999. -/
def add (t : Instant) (span : Span) : Except Defect Instant :=
  let later := t.shift span
  if 0 ≤ later.micros ∧ later.micros < limit then .ok later else .error .tooLarge

theorem add_eq_ok {t later : Instant} {span : Span} (h : t.add span = .ok later) :
    later = t.shift span := by
  unfold add at h
  dsimp only at h
  split at h
  · exact (Except.ok.inj h).symm
  · cases h

/-- The span from one instant to another, if they can be subtracted. -/
def spanTo (start finish : Instant) : Span := finish.micros - start.micros

/-! ## Text -/

/-- The year, month and day of a number of days since the year 1 began. Months are counted from
March, so that a leap day ends a year. -/
def civil (days : Nat) : Nat × Nat × Nat :=
  let z := days + 306
  let era := z / 146097
  let doe := z % 146097
  let yoe := (doe - doe / 1460 + doe / 36524 - doe / 146096) / 365
  let doy := doe - (365 * yoe + yoe / 4 - yoe / 100)
  let mp := (5 * doy + 2) / 153
  let month := if mp < 10 then mp + 3 else mp - 9
  (yoe + era * 400 + (if month ≤ 2 then 1 else 0), month, doy - (153 * mp + 2) / 5 + 1)

/-- A number with at least `width` digits. -/
def padded (width n : Nat) : String :=
  let digits := toString n
  String.ofList (List.replicate (width - digits.length) '0') ++ digits

/-- Date and time of day; microseconds only where there are any, and the offset of universal time if
the zone is known. -/
def toText (t : Instant) : String :=
  let micros := t.micros.toNat
  let (year, month, dayOfMonth) := civil (micros / Span.day)
  let rest := micros % Span.day
  let seconds := rest / Span.second
  let fraction := rest % Span.second
  padded 4 year ++ "-" ++ padded 2 month ++ "-" ++ padded 2 dayOfMonth ++ "T" ++
    padded 2 (seconds / 3600) ++ ":" ++ padded 2 (seconds / 60 % 60) ++ ":" ++
    padded 2 (seconds % 60) ++
    (if fraction = 0 then "" else "." ++ padded 6 fraction) ++
    (if t.zoned then "+00:00" else "")

end Instant

end Stageflow
