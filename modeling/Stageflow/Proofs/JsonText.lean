import Stageflow.Json.Parser
import Stageflow.Json.Printer
import Stageflow.Proofs.Tables

/-!
# JSON text is read back

A value that is written as JSON text is what is read from the text, if there are no numbers in it
and no object has a key twice. A string is read back character by character, whatever the characters
are. The fuel of the reader is no less than the length of the text, so what is left of it is enough
for each part.

## Main statements

* `Json.stringBody?_escapeChar` — a character is read back from its escape.
* `Json.readsBack` — a value is read back from its text, whatever follows the text.
* `Json.read_textAt` — a text holds the value that was written.
-/

namespace Stageflow.Json

/-! ## Numbers of characters -/

theorem hexValue?_digitChar : ∀ d < 16, hexValue? (Nat.digitChar d) = some d := by decide

/-- The digits of a number with leading zeros are those of its sixteenth part, and a last one. -/
theorem toList_hexDigits_succ {width n : Nat} (h : 0 < width) :
    (Text.hexDigits (width + 1) n).toList =
      (Text.hexDigits width (n / 16)).toList ++ [Nat.digitChar (n % 16)] := by
  simp only [Text.hexDigits, String.toList_ofList]
  by_cases hn : n < 16
  · have hquotient : n / 16 = 0 := Nat.div_eq_of_lt hn
    rw [hquotient, Nat.toDigits_of_lt_base hn, Nat.mod_eq_of_lt hn, Nat.toDigits_zero]
    obtain ⟨width, rfl⟩ := Nat.exists_eq_add_one.2 h
    simp [List.replicate_succ']
  · rw [Nat.toDigits_of_base_le (by decide) (Nat.le_of_not_lt hn)]
    simp

theorem toList_hexDigits {n : Nat} (h : n < 0x10000) : (Text.hexDigits 4 n).toList =
    [Nat.digitChar (n / 16 / 16 / 16), Nat.digitChar (n / 16 / 16 % 16),
      Nat.digitChar (n / 16 % 16), Nat.digitChar (n % 16)] := by
  have hfirst : (Text.hexDigits 1 (n / 16 / 16 / 16)).toList =
      [Nat.digitChar (n / 16 / 16 / 16)] := by
    simp [Text.hexDigits, Nat.toDigits_of_lt_base (show n / 16 / 16 / 16 < 16 by omega)]
  rw [toList_hexDigits_succ (by decide), toList_hexDigits_succ (by decide),
    toList_hexDigits_succ (by decide), hfirst]
  rfl

theorem unit?_hexDigits {n : Nat} (h : n < 0x10000) (rest : List Char) :
    unit? ((Text.hexDigits 4 n).toList ++ rest) = some (n, rest) := by
  rw [toList_hexDigits h]
  simp only [List.cons_append, List.nil_append, unit?]
  rw [hexValue?_digitChar _ (by omega), hexValue?_digitChar _ (by omega),
    hexValue?_digitChar _ (by omega), hexValue?_digitChar _ (by omega)]
  simp only [Option.bind_eq_bind, Option.bind_some, Option.pure_def, Option.some.injEq,
    Prod.mk.injEq, and_true]
  omega

/-- A character of the basic plane is read back from its number, which is none of a pair. -/
theorem unicodeEscape?_unit {c : Char} (h : c.toNat < 0x10000) (rest : List Char) :
    unicodeEscape? ((Text.hexDigits 4 c.toNat).toList ++ rest) = some (c, rest) := by
  have hvalid : c.toNat < 0xd800 ∨ 0xdfff < c.toNat := by
    obtain hlow | ⟨hhigh, -⟩ := c.valid
    · exact .inl hlow
    · exact .inr hhigh
  have hhigh : ¬ (0xd800 ≤ c.toNat ∧ c.toNat < 0xdc00) := by omega
  have hlow : ¬ (0xdc00 ≤ c.toNat ∧ c.toNat < 0xe000) := by omega
  simp [unicodeEscape?, unit?_hexDigits h, hhigh, hlow]

/-- Two numbers of a pair, one behind the other, give one character. -/
theorem unicodeEscape?_of_units {c : Char} {cs more rest : List Char} {high low : Nat}
    (hhigh : 0xd800 ≤ high ∧ high < 0xdc00) (hlow : 0xdc00 ≤ low ∧ low < 0xe000)
    (hc : 0x10000 + (high - 0xd800) * 0x400 + (low - 0xdc00) = c.toNat)
    (first : unit? cs = some (high, '\\' :: 'u' :: more)) (second : unit? more = some (low, rest)) :
    unicodeEscape? cs = some (c, rest) := by
  simp [unicodeEscape?, first, second, hhigh, hlow, hc]

/-- A character beyond the basic plane is read back from the two numbers of its pair. -/
theorem unicodeEscape?_pair {c : Char} (h : ¬ c.toNat < 0x10000) (rest : List Char) :
    unicodeEscape? ((Text.hexDigits 4 (0xd800 + (c.toNat - 0x10000) / 0x400)).toList ++
      '\\' :: 'u' :: ((Text.hexDigits 4 (0xdc00 + (c.toNat - 0x10000) % 0x400)).toList ++ rest)) =
        some (c, rest) := by
  have hmost : c.toNat < 0x110000 := by
    obtain hlow | ⟨-, hmost⟩ := c.valid
    · exact Nat.lt_trans hlow (by decide)
    · exact hmost
  exact unicodeEscape?_of_units (by omega) (by omega) (by omega) (unit?_hexDigits (by omega) _)
    (unit?_hexDigits (by omega) _)

/-! ## Strings -/

theorem toList_unitEscape (n : Nat) (rest : List Char) :
    (unitEscape n).toList ++ rest = '\\' :: 'u' :: ((Text.hexDigits 4 n).toList ++ rest) := by
  simp [unitEscape]

theorem stringBody?_unicode {c : Char} {cs rest : List Char}
    (h : unicodeEscape? cs = some (c, rest)) (fuel : Nat) (done : List Char) :
    stringBody? (fuel + 1) done ('\\' :: 'u' :: cs) = stringBody? fuel (c :: done) rest := by
  simp [stringBody?, h]

theorem stringBody?_plain {c : Char} (hquote : c ≠ '"') (hslash : c ≠ '\\') (hprints : 0x20 ≤ c.val)
    (fuel : Nat) (done rest : List Char) :
    stringBody? (fuel + 1) done (c :: rest) = stringBody? fuel (c :: done) rest := by
  have hcontrol : ¬ c.val < 0x20 := by simpa using hprints
  simp [stringBody?, hslash, hcontrol]

/-- A character is read back from its escape. -/
theorem stringBody?_escapeChar (c : Char) (fuel : Nat) (done rest : List Char) :
    stringBody? (fuel + 1) done ((escapeChar c).toList ++ rest) =
      stringBody? fuel (c :: done) rest := by
  unfold escapeChar
  -- the characters that are escaped by a letter
  iterate 7 (split; · subst_vars; rfl)
  split
  · rename_i hquote hslash _ _ _ _ _ hprints
    rw [Bool.and_eq_true, decide_eq_true_eq] at hprints
    simpa using stringBody?_plain hquote hslash hprints.1 fuel done rest
  split
  · rename_i hunit
    rw [toList_unitEscape]
    exact stringBody?_unicode (unicodeEscape?_unit hunit rest) fuel done
  · rename_i hunit
    rw [String.toList_append, List.append_assoc, toList_unitEscape, toList_unitEscape]
    exact stringBody?_unicode (unicodeEscape?_pair hunit rest) fuel done

/-- The characters of a string as they stand between its quotes. -/
def escaped (cs : List Char) : List Char := cs.flatMap fun c => (escapeChar c).toList

theorem toList_stringText (s : String) :
    (stringText s).toList = '"' :: (escaped s.toList ++ ['"']) := by
  simp [stringText, escaped, String.toList_join, List.flatMap_map]

theorem length_le_escaped (cs : List Char) : cs.length ≤ (escaped cs).length := by
  induction cs with
  | nil => exact Nat.le_refl _
  | cons c cs ih =>
    have hsome : (escapeChar c).toList ≠ [] := by
      intro hnil
      -- else a quote behind the character would be the end of the string
      have hread := stringBody?_escapeChar c 1 [] ['"']
      rw [hnil] at hread
      simp [stringBody?] at hread
    have hlength := List.length_pos_iff.2 hsome
    rw [escaped, List.flatMap_cons, List.length_append, List.length_cons, ← escaped]
    omega

/-- A string is read back from its escaped characters. -/
theorem stringBody?_escaped {cs : List Char} {fuel : Nat} (enough : cs.length < fuel)
    (done rest : List Char) :
    stringBody? fuel done (escaped cs ++ '"' :: rest) =
      some (String.ofList (done.reverse ++ cs), rest) := by
  induction cs generalizing fuel done with
  | nil =>
    obtain ⟨fuel, rfl⟩ := Nat.exists_eq_add_one.2 enough
    simp [escaped, stringBody?]
  | cons c cs ih =>
    obtain ⟨fuel, rfl⟩ := Nat.exists_eq_add_one.2 (Nat.zero_lt_of_lt enough)
    rw [escaped, List.flatMap_cons, List.append_assoc, stringBody?_escapeChar]
    have hrest := ih (Nat.lt_of_succ_lt_succ enough) (c :: done)
    rw [escaped] at hrest
    rw [hrest]
    simp

/-- A string is read back up to its closing quote, with fuel for the length of the text. -/
theorem stringBody?_quoted (s : String) (rest : List Char) :
    stringBody? ((escaped s.toList ++ '"' :: rest).length + 1) []
      (escaped s.toList ++ '"' :: rest) = some (s, rest) := by
  have hlength := length_le_escaped s.toList
  rw [stringBody?_escaped (by rw [List.length_append]; omega)]
  simp

/-! ## Blanks -/

/-- Whether the parts of a container are set apart by blanks only, beside comma and colon. -/
structure Spacing.Legible (spacing : Spacing) : Prop where
  line : ∀ level, ∀ c ∈ (spacing.line level).toList, isSpace c
  afterComma : ∀ level, ∃ blanks, (∀ c ∈ blanks, isSpace c) ∧
    (spacing.afterComma level).toList = ',' :: blanks
  afterKey : ∃ blanks, (∀ c ∈ blanks, isSpace c) ∧ spacing.afterKey.toList = ':' :: blanks

theorem legible_indented : Spacing.indented.Legible := by
  have hline (level : Nat) : ∀ c ∈ (Spacing.indented.line level).toList, isSpace c := by
    intro c hc
    simp only [Spacing.indented, String.toList_append, String.toList_ofList, List.mem_append,
      List.mem_replicate] at hc
    obtain hc | ⟨-, rfl⟩ := hc
    · obtain rfl : c = '\n' := by simpa using hc
      rfl
    · rfl
  refine ⟨hline, fun level => ⟨(Spacing.indented.line level).toList, hline level, ?_⟩, [' '], ?_,
    rfl⟩
  · simp [Spacing.indented]
  · simp [isSpace]

theorem skipSpace_append {blanks : List Char} (h : ∀ c ∈ blanks, isSpace c) (cs : List Char) :
    skipSpace (blanks ++ cs) = skipSpace cs := List.dropWhile_append_of_pos h

theorem skipSpace_cons {c : Char} (h : isSpace c = false) (cs : List Char) :
    skipSpace (c :: cs) = c :: cs := by
  simp [skipSpace, h]

/-- The next token behind blanks. -/
theorem skipSpace_token {blanks : List Char} (h : ∀ c ∈ blanks, isSpace c) {c : Char}
    (hc : isSpace c = false) (cs : List Char) : skipSpace (blanks ++ c :: cs) = c :: cs := by
  rw [skipSpace_append h, skipSpace_cons hc]

/-! ## Values -/

mutual

/-- Whether there is no number in a value, and each key of an object occurs once. -/
def IsPlain : Json → Prop
  | .null | .bool _ | .str _ => True
  | .int _ | .real _ => False
  | .arr xs => ArePlain xs
  | .obj fields => (fields.map (·.1)).Nodup ∧ HavePlain fields

/-- Whether the elements of an array are such values. -/
def ArePlain : List Json → Prop
  | [] => True
  | x :: xs => IsPlain x ∧ ArePlain xs

/-- Whether the fields of an object have such values. -/
def HavePlain : List (String × Json) → Prop
  | [] => True
  | (_, value) :: fields => IsPlain value ∧ HavePlain fields

end

section Layout

variable (spacing : Spacing) (level : Nat)

theorem toList_textAt_arr (x : Json) (xs : List Json) :
    (textAt spacing level (.arr (x :: xs))).toList =
      '[' :: ((spacing.line (level + 1)).toList ++ ((textAt spacing (level + 1) x).toList ++
        ((elementsAt spacing (level + 1) xs).toList ++
          ((spacing.line level).toList ++ [']'])))) := by
  simp [textAt]

theorem toList_textAt_obj (key : String) (value : Json) (fields : List (String × Json)) :
    (textAt spacing level (.obj ((key, value) :: fields))).toList =
      '\x7b' :: ((spacing.line (level + 1)).toList ++ ((stringText key).toList ++
        (spacing.afterKey.toList ++ ((textAt spacing (level + 1) value).toList ++
          ((fieldsAt spacing (level + 1) fields).toList ++
            ((spacing.line level).toList ++ ['\x7d'])))))) := by
  simp [textAt]

theorem toList_elementsAt_cons (x : Json) (xs : List Json) :
    (elementsAt spacing level (x :: xs)).toList =
      (spacing.afterComma level).toList ++ ((textAt spacing level x).toList ++
        (elementsAt spacing level xs).toList) := by
  simp [elementsAt]

theorem toList_fieldsAt_cons (key : String) (value : Json) (fields : List (String × Json)) :
    (fieldsAt spacing level ((key, value) :: fields)).toList =
      (spacing.afterComma level).toList ++ ((stringText key).toList ++
        (spacing.afterKey.toList ++ ((textAt spacing level value).toList ++
          (fieldsAt spacing level fields).toList))) := by
  simp [fieldsAt]

/-- What the text of such a value starts with: no blank, and nothing that ends an array. -/
theorem textAt_starts {value : Json} (plain : value.IsPlain) :
    ∃ c cs, (textAt spacing level value).toList = c :: cs ∧ isSpace c = false ∧ c ≠ ']' := by
  match value, plain with
  | .null, _ => exact ⟨'n', ['u', 'l', 'l'], by rw [textAt]; rfl, rfl, by decide⟩
  | .bool true, _ => exact ⟨'t', ['r', 'u', 'e'], by rw [textAt]; rfl, rfl, by decide⟩
  | .bool false, _ => exact ⟨'f', ['a', 'l', 's', 'e'], by rw [textAt]; rfl, rfl, by decide⟩
  | .str s, _ => exact ⟨'"', _, by rw [textAt, toList_stringText], rfl, by decide⟩
  | .arr [], _ => exact ⟨'[', [']'], by rw [textAt]; rfl, rfl, by decide⟩
  | .arr (x :: xs), _ => exact ⟨'[', _, toList_textAt_arr spacing level x xs, rfl, by decide⟩
  | .obj [], _ => exact ⟨'\x7b', ['\x7d'], by rw [textAt]; rfl, rfl, by decide⟩
  | .obj ((key, value) :: fields), _ =>
    exact ⟨'\x7b', _, toList_textAt_obj spacing level key value fields, rfl, by decide⟩

end Layout

/-! ## Reading values -/

section Tokens

variable {blanks : List Char} (hblanks : ∀ c ∈ blanks, isSpace c) (fuel : Nat) (rest : List Char)

include hblanks in
/-- The blanks in front of a value do not count. -/
theorem readValue_behind {c : Char} (hc : isSpace c = false) (cs : List Char) :
    readValue (fuel + 1) (blanks ++ c :: cs) = readValue (fuel + 1) (c :: cs) := by
  rw [readValue, readValue, skipSpace_token hblanks hc, skipSpace_cons hc]

theorem readValue_string (s : String) :
    readValue (fuel + 1) ((stringText s).toList ++ rest) = .ok (.str s, rest) := by
  have hread (cs : List Char) : readValue (fuel + 1) ('"' :: cs) =
      (found (stringBody? (cs.length + 1) [] cs)).map fun p => (.str p.1, p.2) := rfl
  rw [toList_stringText, List.cons_append, hread]
  simp only [List.append_assoc, List.cons_append, List.nil_append]
  rw [stringBody?_quoted]
  rfl

theorem readValue_array {body : List Char} {c : Char} {cs : List Char} {xs : List Json}
    (hbody : skipSpace body = c :: cs) (hc : c ≠ ']')
    (h : readElements fuel [] (c :: cs) = .ok (xs, rest)) :
    readValue (fuel + 1) ('[' :: body) = .ok (.arr xs, rest) := by
  rw [readValue, skipSpace_cons rfl]
  simp [hbody, h, hc, Except.map]

theorem readValue_object {body : List Char} {c : Char} {cs : List Char}
    {fields : List (String × Json)}
    (hbody : skipSpace body = c :: cs) (hc : c ≠ '\x7d')
    (h : readMembers fuel [] (c :: cs) = .ok (fields, rest)) (nodup : (fields.map (·.1)).Nodup) :
    readValue (fuel + 1) ('\x7b' :: body) = .ok (.obj fields, rest) := by
  rw [readValue, skipSpace_cons rfl]
  simp [hbody, h, hc, Except.map, Table.ofPairs_of_nodup nodup]

/-- What comes of the elements is decided by what stands behind the first. -/
theorem readElements_of_value {done : List Json} {body behind : List Char} {x : Json}
    (hx : readValue fuel body = .ok (x, behind)) :
    (skipSpace behind = ',' :: rest →
      readElements (fuel + 1) done body = readElements fuel (x :: done) rest) ∧
    (skipSpace behind = ']' :: rest →
      readElements (fuel + 1) done body = .ok ((x :: done).reverse, rest)) := by
  rw [readElements, hx]
  exact ⟨fun hnext => by simp [hnext], fun hend => by simp [hend]⟩

include hblanks in
/-- What comes of the fields is decided by what stands behind the first. -/
theorem readMembers_of_value {done : List (String × Json)} {body text behind : List Char}
    {value : Json} (key : String) (hcolon : skipSpace body = ':' :: text)
    (hvalue : readValue fuel text = .ok (value, behind)) :
    (skipSpace behind = ',' :: rest →
      readMembers (fuel + 1) done (blanks ++ ((stringText key).toList ++ body)) =
        readMembers fuel ((key, value) :: done) rest) ∧
    (skipSpace behind = '\x7d' :: rest →
      readMembers (fuel + 1) done (blanks ++ ((stringText key).toList ++ body)) =
        .ok (((key, value) :: done).reverse, rest)) := by
  rw [toList_stringText, List.cons_append, readMembers, skipSpace_token hblanks rfl]
  simp only [List.append_assoc, List.cons_append, List.nil_append]
  rw [stringBody?_quoted]
  exact ⟨fun hnext => by simp [hcolon, hvalue, hnext], fun hend => by simp [hcolon, hvalue, hend]⟩

end Tokens

/-- Whether what is written can be read back with some fuel, whatever follows: a value from its
text, the elements of an array up to the bracket that closes it, and the fields of an object up to
the brace. -/
structure ReadsBack (spacing : Spacing) (fuel : Nat) : Prop where
  value : ∀ value : Json, value.IsPlain → ∀ level,
    (textAt spacing level value).length ≤ fuel → ∀ blanks, (∀ c ∈ blanks, isSpace c) → ∀ rest,
    readValue fuel (blanks ++ ((textAt spacing level value).toList ++ rest)) = .ok (value, rest)
  elements : ∀ x xs, ArePlain (x :: xs) → ∀ level,
    (textAt spacing level x).length + (elementsAt spacing level xs).length < fuel →
    ∀ blanks, (∀ c ∈ blanks, isSpace c) → ∀ close, (∀ c ∈ close, isSpace c) → ∀ done rest,
    readElements fuel done (blanks ++ ((textAt spacing level x).toList ++
      ((elementsAt spacing level xs).toList ++ (close ++ ']' :: rest)))) =
        .ok (done.reverse ++ x :: xs, rest)
  members : ∀ key value fields, HavePlain ((key, value) :: fields) → ∀ level,
    (textAt spacing level value).length + (fieldsAt spacing level fields).length < fuel →
    ∀ blanks, (∀ c ∈ blanks, isSpace c) → ∀ close, (∀ c ∈ close, isSpace c) → ∀ done rest,
    readMembers fuel done (blanks ++ ((stringText key).toList ++ (spacing.afterKey.toList ++
      ((textAt spacing level value).toList ++ ((fieldsAt spacing level fields).toList ++
        (close ++ '\x7d' :: rest)))))) = .ok (done.reverse ++ (key, value) :: fields, rest)

namespace ReadsBack

variable {spacing : Spacing} (legible : spacing.Legible) {fuel : Nat}
  (reads : ReadsBack spacing fuel)

theorem value_zero (value : Json) (plain : value.IsPlain) (level : Nat) :
    ¬ (textAt spacing level value).length ≤ 0 := by
  obtain ⟨_, _, htext, -⟩ := textAt_starts spacing level plain
  have hlength := congrArg List.length htext
  rw [String.length_toList, List.length_cons] at hlength
  omega

include reads legible

/-- A value is read back with one more, if its parts are read back. -/
theorem value_succ (value : Json) (plain : value.IsPlain) (level : Nat)
    (enough : (textAt spacing level value).length ≤ fuel + 1) (blanks : List Char)
    (hblanks : ∀ c ∈ blanks, isSpace c) (rest : List Char) :
    readValue (fuel + 1) (blanks ++ ((textAt spacing level value).toList ++ rest)) =
      .ok (value, rest) := by
  match value, plain with
  | .null, _ =>
    rw [textAt]
    exact readValue_behind hblanks fuel rfl _
  | .bool true, _ =>
    rw [textAt]
    exact readValue_behind hblanks fuel rfl _
  | .bool false, _ =>
    rw [textAt]
    exact readValue_behind hblanks fuel rfl _
  | .str s, _ =>
    rw [textAt, ← readValue_string fuel rest s, toList_stringText]
    exact readValue_behind hblanks fuel rfl _
  | .arr [], _ =>
    rw [textAt]
    exact readValue_behind hblanks fuel rfl _
  | .arr (x :: xs), plain =>
    have hlength := congrArg List.length (toList_textAt_arr spacing level x xs)
    simp only [String.length_toList, List.length_cons, List.length_append] at hlength
    obtain ⟨c, cs, hx, hc, hne⟩ := textAt_starts spacing (level + 1) plain.1
    have hread := reads.elements x xs plain (level + 1) (by omega) [] (List.forall_mem_nil _) _
      (legible.line level) [] rest
    simp only [hx, List.nil_append, List.cons_append, List.reverse_nil] at hread
    rw [toList_textAt_arr, List.cons_append, readValue_behind hblanks fuel rfl]
    refine readValue_array fuel rest ?_ hne hread
    simp only [hx, List.append_assoc, List.cons_append]
    exact skipSpace_token (legible.line (level + 1)) hc _
  | .obj [], _ =>
    rw [textAt]
    exact readValue_behind hblanks fuel rfl _
  | .obj ((key, value) :: fields), ⟨nodup, plain⟩ =>
    have hlength := congrArg List.length (toList_textAt_obj spacing level key value fields)
    simp only [String.length_toList, List.length_cons, List.length_append] at hlength
    have hread := reads.members key value fields plain (level + 1) (by omega) []
      (List.forall_mem_nil _) _ (legible.line level) [] rest
    simp only [toList_stringText, List.nil_append, List.cons_append, List.reverse_nil] at hread
    rw [toList_textAt_obj, List.cons_append, readValue_behind hblanks fuel rfl]
    refine readValue_object fuel rest ?_ (by decide) hread nodup
    simp only [toList_stringText, List.append_assoc, List.cons_append]
    exact skipSpace_token (legible.line (level + 1)) rfl _

/-- The elements of an array are read back with one more, if the parts are read back. -/
theorem elements_succ (x : Json) (xs : List Json) (plain : ArePlain (x :: xs)) (level : Nat)
    (enough : (textAt spacing level x).length + (elementsAt spacing level xs).length < fuel + 1)
    (blanks : List Char) (hblanks : ∀ c ∈ blanks, isSpace c) (close : List Char)
    (hclose : ∀ c ∈ close, isSpace c) (done : List Json) (rest : List Char) :
    readElements (fuel + 1) done (blanks ++ ((textAt spacing level x).toList ++
      ((elementsAt spacing level xs).toList ++ (close ++ ']' :: rest)))) =
        .ok (done.reverse ++ x :: xs, rest) := by
  have hx := reads.value x plain.1 level (by omega) blanks hblanks
  cases xs with
  | nil =>
    rw [elementsAt, String.toList_empty, List.nil_append,
      (readElements_of_value fuel rest (hx _)).2 (skipSpace_token hclose rfl rest)]
    simp
  | cons y ys =>
    obtain ⟨blanks', hblanks', hcomma⟩ := legible.afterComma level
    have hlength := congrArg List.length (toList_elementsAt_cons spacing level y ys)
    rw [hcomma] at hlength
    simp only [String.length_toList, List.length_append, List.length_cons] at hlength
    have hnext := reads.elements y ys plain.2 level (by omega) blanks' hblanks' close hclose
      (x :: done) rest
    rw [toList_elementsAt_cons, hcomma]
    simp only [List.cons_append, List.append_assoc]
    rw [(readElements_of_value fuel _ (hx _)).1 (skipSpace_cons rfl _), hnext]
    simp

/-- The fields of an object are read back with one more, if the parts are read back. -/
theorem members_succ (key : String) (value : Json) (fields : List (String × Json))
    (plain : HavePlain ((key, value) :: fields)) (level : Nat)
    (enough : (textAt spacing level value).length + (fieldsAt spacing level fields).length <
      fuel + 1)
    (blanks : List Char) (hblanks : ∀ c ∈ blanks, isSpace c) (close : List Char)
    (hclose : ∀ c ∈ close, isSpace c) (done : List (String × Json)) (rest : List Char) :
    readMembers (fuel + 1) done (blanks ++ ((stringText key).toList ++ (spacing.afterKey.toList ++
      ((textAt spacing level value).toList ++ ((fieldsAt spacing level fields).toList ++
        (close ++ '\x7d' :: rest)))))) = .ok (done.reverse ++ (key, value) :: fields, rest) := by
  obtain ⟨blanksKey, hblanksKey, hcolon⟩ := legible.afterKey
  have hvalue := reads.value value plain.1 level (by omega) blanksKey hblanksKey
  rw [hcolon, List.cons_append]
  cases fields with
  | nil =>
    rw [fieldsAt, String.toList_empty, List.nil_append,
      (readMembers_of_value hblanks fuel rest key (skipSpace_cons rfl _) (hvalue _)).2
        (skipSpace_token hclose rfl rest)]
    simp
  | cons field fields =>
    obtain ⟨next, nextValue⟩ := field
    obtain ⟨blanks', hblanks', hcomma⟩ := legible.afterComma level
    have hlength := congrArg List.length
      (toList_fieldsAt_cons spacing level next nextValue fields)
    rw [hcomma] at hlength
    simp only [String.length_toList, List.length_append, List.length_cons] at hlength
    have hnext := reads.members next nextValue fields plain.2 level (by omega) blanks' hblanks'
      close hclose ((key, value) :: done) rest
    rw [toList_fieldsAt_cons, hcomma]
    simp only [List.cons_append, List.append_assoc]
    rw [(readMembers_of_value hblanks fuel _ key (skipSpace_cons rfl _) (hvalue _)).1
      (skipSpace_cons rfl _), hnext]
    simp

end ReadsBack

/-- Whatever is written is read back, with fuel for the length of the text. -/
theorem readsBack {spacing : Spacing} (legible : spacing.Legible) (fuel : Nat) :
    ReadsBack spacing fuel := by
  induction fuel with
  | zero =>
    exact ⟨fun value plain level enough => absurd enough (ReadsBack.value_zero value plain level),
      fun _ _ _ _ enough => absurd enough (Nat.not_lt_zero _),
      fun _ _ _ _ _ enough => absurd enough (Nat.not_lt_zero _)⟩
  | succ fuel ih => exact ⟨ih.value_succ legible, ih.elements_succ legible, ih.members_succ legible⟩

/-- A text holds the value that was written, with blanks behind it or without. -/
theorem read_textAt {spacing : Spacing} (legible : spacing.Legible) {value : Json}
    (plain : value.IsPlain) (level : Nat) {blanks : List Char} (hblanks : ∀ c ∈ blanks, isSpace c) :
    read (textAt spacing level value ++ String.ofList blanks) = .ok value := by
  have henough : (textAt spacing level value).length ≤
      2 * ((textAt spacing level value).toList ++ blanks).length + 2 := by
    rw [List.length_append, String.length_toList]
    omega
  have hread := (readsBack legible _).value value plain level henough [] (List.forall_mem_nil _)
    blanks
  have hrest : skipSpace blanks = [] := by
    simpa [skipSpace] using skipSpace_append hblanks []
  rw [read, String.toList_append, String.toList_ofList]
  rw [List.nil_append] at hread
  simp only [hread, hrest]
  rfl

end Stageflow.Json
