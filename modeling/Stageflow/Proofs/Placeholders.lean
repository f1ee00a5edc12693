import Mathlib.Data.List.TakeWhile
import Stageflow.Proofs.Results
import Stageflow.Text.Template

/-!
# Templates of placeholders

A template that is put together from texts, with every brace in them doubled, and from placeholders
fills in to the texts and the values of the placeholders, in that order. The scan passes one segment
after the other: it comes to the end of each in the text, whatever follows, so that no brace of one
segment is taken for a brace of the next.

## Main statements

* `scanFrom_segment` — a segment is scanned to its own pieces.
* `fillPieces_segment` — the pieces of a segment are filled in to what stands for it.
* `fillValue_segments` — a template of segments is filled in segment by segment.
-/

namespace Stageflow.Template

/-! ## Segments -/

/-- The name of a variable: letters, digits and underscores of ASCII, with no digit in front. -/
structure VariableName where
  first : Char
  others : List Char
  first_starts : first.isAlpha || first = '_'
  others_continue : ∀ c ∈ others, c.isAlphanum || c = '_'

/-- The characters of a name. -/
def VariableName.chars (name : VariableName) : List Char := name.first :: name.others

/-- The text of a name. -/
def VariableName.text (name : VariableName) : String := String.ofList name.chars

/-- A part of a template: a text that stands for itself, or the place of a value. -/
inductive Segment where
  | literal (text : String)
  | placeholder (name : VariableName)

/-- A character of a text as a template has it: a brace is doubled. -/
def doubled (c : Char) : List Char := if c = '\x7b' || c = '\x7d' then [c, c] else [c]

namespace Segment

/-- A segment as a template has it. -/
def written : Segment → String
  | literal text => String.ofList (text.toList.flatMap doubled)
  | placeholder name => "\x7b" ++ name.text ++ "\x7d"

/-- What stands for a segment in the end: the text, or the value, or else the name in braces. -/
def filled (values : Table String String) : Segment → String
  | literal text => text
  | placeholder name => (values.get? name.text).getD ("\x7b" ++ name.text ++ "\x7d")

/-- The pieces that a segment is scanned to. -/
def pieces : Segment → List Piece
  | literal text => text.toList.map .char
  | placeholder name => [.field ⟨name.chars, none, [], false⟩]

/-- The texts that the pieces of a segment are filled in to. -/
def texts (values : Table String String) : Segment → List String
  | literal text => text.toList.map Char.toString
  | segment => [segment.filled values]

theorem join_texts (values : Table String String) (segment : Segment) :
    String.join (segment.texts values) = segment.filled values := by
  cases segment with
  | literal text =>
    rw [← String.toList_inj, String.toList_join, texts, List.flatMap_map]
    simp [filled, Char.toString]
  | placeholder name => simp [texts, String.join]

end Segment

/-! ## Scanning -/

/-- A doubled character is scanned to the one that it stands for. -/
theorem scanFrom_doubled (c : Char) (rest : List Char) :
    scanFrom .text (doubled c ++ rest) = .char c :: scanFrom .text rest := by
  unfold doubled
  split
  · rename_i hbrace
    obtain rfl | rfl : c = '\x7b' ∨ c = '\x7d' := by simpa using hbrace
    · rfl
    · rfl
  · rename_i hbrace
    obtain ⟨hopen, hclose⟩ : c ≠ '\x7b' ∧ c ≠ '\x7d' := by simpa using hbrace
    simp [scanFrom, hopen, hclose]

theorem scanFrom_literal (cs rest : List Char) :
    scanFrom .text (cs.flatMap doubled ++ rest) = cs.map .char ++ scanFrom .text rest := by
  induction cs with
  | nil => rfl
  | cons c cs ih =>
    rw [List.flatMap_cons, List.append_assoc, scanFrom_doubled, ih]
    rfl

/-- A character without a meaning inside of a field. -/
structure IsPlain (c : Char) : Prop where
  opens : c ≠ '\x7b'
  closes : c ≠ '\x7d'
  specifies : c ≠ ':'
  converts : c ≠ '!'
  indexes : c ≠ '['
  steps : c ≠ '.'

/-- Plain characters belong to the name of the field that they stand in. -/
theorem scanFrom_name {cs : List Char} (plain : ∀ c ∈ cs, IsPlain c) (read rest : List Char) :
    scanFrom (.name read) (cs ++ '\x7d' :: rest) =
      .field ⟨read ++ cs, none, [], false⟩ :: scanFrom .text rest := by
  induction cs generalizing read with
  | nil => simp [scanFrom]
  | cons c cs ih =>
    obtain ⟨hc, hcs⟩ := List.forall_mem_cons.1 plain
    rw [List.cons_append, scanFrom, if_neg hc.opens, if_neg hc.closes, if_neg hc.specifies,
      if_neg hc.converts, if_neg hc.indexes, ih hcs, List.append_assoc]
    rfl

theorem VariableName.plain (name : VariableName) : ∀ c ∈ name.chars, IsPlain c := by
  have hplain (c : Char) (hc : c.isAlphanum || c = '_') : IsPlain c := by
    constructor <;> rintro rfl <;> simp at hc
  rintro c (_ | ⟨_, hc⟩)
  · have hfirst := name.first_starts
    exact hplain name.first (by grind [Char.isAlphanum])
  · exact hplain c (name.others_continue c hc)

/-- A segment is scanned to its own pieces, whatever follows it. -/
theorem scanFrom_segment (segment : Segment) (rest : List Char) :
    scanFrom .text (segment.written.toList ++ rest) = segment.pieces ++ scanFrom .text rest := by
  cases segment with
  | literal text =>
    rw [Segment.written, String.toList_ofList, scanFrom_literal]
    rfl
  | placeholder name =>
    have hwritten : (Segment.placeholder name).written.toList ++ rest =
        '\x7b' :: name.first :: (name.others ++ '\x7d' :: rest) := by
      simp [Segment.written, VariableName.text, VariableName.chars]
    have hopen : name.first ≠ '\x7b' := (name.plain _ List.mem_cons_self).opens
    -- the brace is not doubled, so that it opens a field
    have hname : scanFrom .text ('\x7b' :: name.first :: (name.others ++ '\x7d' :: rest)) =
        scanFrom (.name []) (name.chars ++ '\x7d' :: rest) := by
      simp [scanFrom, hopen, VariableName.chars]
    rw [hwritten, hname, scanFrom_name name.plain]
    rfl

theorem scan_segments (segments : List Segment) :
    scan (String.join (segments.map Segment.written)).toList = segments.flatMap Segment.pieces := by
  rw [scan, String.toList_join, List.flatMap_map]
  induction segments with
  | nil => rfl
  | cons segment rest ih => rw [List.flatMap_cons, scanFrom_segment, ih, List.flatMap_cons]

/-! ## Filling in -/

section Filling

variable (values : Table String String)

/-- The values as variables of a template. -/
def textBindings : Fields := values.map fun p => (p.1, .str p.2)

theorem get?_textBindings (name : String) :
    (textBindings values).get? name = (values.get? name).map .str := by
  induction values with
  | nil => rfl
  | cons p rest ih =>
    by_cases h : p.1 = name
    · simp [textBindings, Table.get?, h]
    · simpa [textBindings, Table.get?, h] using ih

/-- A name is that of a variable, with no steps behind it. -/
theorem splitName_chars (name : VariableName) : splitName name.chars = (name.chars, []) := by
  have hnone : ∀ c ∈ name.chars, !(c = '.' || c = '[') := fun c hc => by
    simp [(name.plain c hc).steps, (name.plain c hc).indexes]
  simp only [splitName, Prod.mk.injEq]
  constructor
  · exact List.takeWhile_eq_self_iff.2 hnone
  · rw [List.dropWhile_eq_nil_iff.2 hnone]
    rfl

/-- A name is no position: it starts with no digit. -/
theorem index?_chars (name : VariableName) : index? name.chars = .ok none := by
  have hascii : name.first.isDigit = false ∧ name.first.val < 0x80 := by
    have hupper (h : name.first.isUpper) : 65 ≤ name.first.val ∧ name.first.val ≤ 90 :=
      of_decide_eq_true h
    have hlower (h : name.first.isLower) : 97 ≤ name.first.val ∧ name.first.val ≤ 122 :=
      ⟨of_decide_eq_true (Bool.and_eq_true_iff.1 h).1,
        of_decide_eq_true (Bool.and_eq_true_iff.1 h).2⟩
    have hletter (h : name.first.isAlpha) : name.first.isUpper ∨ name.first.isLower :=
      Bool.or_eq_true_iff.1 h
    have hstarts := name.first_starts
    simp only [Char.isDigit, Bool.or_eq_true, decide_eq_true_eq, Char.ext_iff] at *
    grind
  have hfirst : Text.isDecimal name.first = false := by
    simp [Text.isDecimal, Text.digitValue?, hascii]
  simp [index?, VariableName.chars, hfirst]

theorem resolve_chars (name : VariableName) : resolve (textBindings values) name.chars =
    .ok (.value (.str ((Segment.placeholder name).filled values))) := by
  have hbinding : binding (textBindings values) name.chars =
      .str ((Segment.placeholder name).filled values) := by
    rw [binding, get?_textBindings, Segment.filled, VariableName.text]
    cases values.get? (String.ofList name.chars) with
    | none => simp [← String.toList_inj]
    | some value => rfl
  unfold resolve
  rw [splitName_chars]
  dsimp only
  rw [index?_chars, hbinding]
  rfl

/-- The pieces of a segment are filled in to what stands for it. -/
theorem fillPieces_segment (inner : List Char → Except Fault String) (segment : Segment) :
    segment.pieces.mapM (fillPiece (textBindings values) inner) = .ok (segment.texts values) := by
  cases segment with
  | literal text =>
    rw [Segment.pieces, List.mapM_map]
    exact List.mapM_pure
  | placeholder name =>
    have hfield : fillPiece (textBindings values) inner (.field ⟨name.chars, none, [], false⟩) =
        .ok ((Segment.placeholder name).filled values) := by
      rw [fillPiece, resolve_chars]
      rfl
    simp [Segment.pieces, hfield]
    rfl

theorem fillPieces_segments (inner : List Char → Except Fault String) (segments : List Segment) :
    (segments.flatMap Segment.pieces).mapM (fillPiece (textBindings values) inner) =
      .ok (segments.flatMap (Segment.texts values)) := by
  induction segments with
  | nil => rfl
  | cons segment rest ih =>
    rw [List.flatMap_cons, List.mapM_append, fillPieces_segment, ih]
    rfl

end Filling

/-- A template of segments is filled in segment by segment: the texts come with their braces single,
the values of variables as they are, whatever braces there are in them, and the names of unknown
variables in braces. -/
theorem fillValue_segments (values : Table String String) (segments : List Segment) :
    fillValue (textBindings values) (.str (String.join (segments.map Segment.written))) =
      .ok (.str (String.join (segments.map (Segment.filled values)))) := by
  have htexts : String.join (segments.flatMap (Segment.texts values)) =
      String.join (segments.map (Segment.filled values)) := by
    rw [← String.toList_inj, String.toList_join, String.toList_join, List.flatMap_assoc,
      List.flatMap_map]
    simp only [← Segment.join_texts, String.toList_join]
  have hfill : fill (textBindings values) (String.join (segments.map Segment.written)) =
      .ok (String.join (segments.flatMap (Segment.texts values))) := by
    rw [fill, fillTo, scan_segments, fillPieces_segments]
    rfl
  rw [← htexts]
  exact congrArg (Except.map Json.str) hfill

/-- Braces in a row: doubled ones around a placeholder, with a value that has some itself. -/
example : fillValue (textBindings [("item_id", "\x7bteam\x7d")])
    (.str "\x7b\x7b\x7bitem_id\x7d\x7d\x7d \x7bteam\x7d") =
      .ok (.str "\x7b\x7bteam\x7d\x7d \x7bteam\x7d") := by rfl

end Stageflow.Template
