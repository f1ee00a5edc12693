import Stageflow.Element.Predicate
import Stageflow.Proofs.Tables

/-!
# What predicates compare

Values are compared by what they mean: numbers of all kinds, the truth values among them, by their
place on the number line, lists element by element, and objects key by key in whatever order.
`Json.Same` says so without a computation, and `Json.alike` decides it for values that have no
undefined number in them. A predicate asks this of the attribute that it looks at, and of a missing
one as if it were null.

A configured list is kept as its members, and as such it is compared with nothing: the members
serve to look a value up among them only.

## Main statements

* `Json.alike_iff_same` — which values are found to be alike.
* `predicates_compare` — what predicates hold of, as they are written.
* `Predicate.holds_list` — a list equals no attribute.
-/

namespace Stageflow

namespace Json

/-! ## The same value -/

/-- Whether two values are the same: both null, numbers in one place, one text, lists that are the
same element by element, or objects with the same keys that have the same value under each. -/
inductive Same : Json → Json → Prop
  | null : Same .null .null
  | number {a b : Json} {place : Extended} (first : a.place? = some (some place))
      (second : b.place? = some (some place)) : Same a b
  | text (s : String) : Same (.str s) (.str s)
  | list {xs ys : List Json} (length : xs.length = ys.length)
      (elements : ∀ (i : Nat) x y, xs[i]? = some x → ys[i]? = some y → Same x y) :
      Same (.arr xs) (.arr ys)
  | object {fields others : Fields} (keys : ∀ key, fields.has key = others.has key)
      (values : ∀ key v w, fields.get? key = some v → others.get? key = some w → Same v w) :
      Same (.obj fields) (.obj others)

mutual

/-- Whether each key of an object occurs once, wherever an object is in a value. -/
def IsKeyed : Json → Prop
  | .arr xs => AreKeyed xs
  | .obj fields => (fields.map (·.1)).Nodup ∧ HaveKeyed fields
  | _ => True

/-- Whether the elements of a list are such values. -/
def AreKeyed : List Json → Prop
  | [] => True
  | x :: xs => IsKeyed x ∧ AreKeyed xs

/-- Whether the fields of an object have such values. -/
def HaveKeyed : List (String × Json) → Prop
  | [] => True
  | (_, value) :: fields => IsKeyed value ∧ HaveKeyed fields

end

mutual

/-- Whether there is no undefined number in a value. -/
def IsDefined : Json → Prop
  | .real x => x ≠ .nan
  | .arr xs => AreDefined xs
  | .obj fields => HaveDefined fields
  | _ => True

/-- Whether the elements of a list are such values. -/
def AreDefined : List Json → Prop
  | [] => True
  | x :: xs => IsDefined x ∧ AreDefined xs

/-- Whether the fields of an object have such values. -/
def HaveDefined : List (String × Json) → Prop
  | [] => True
  | (_, value) :: fields => IsDefined value ∧ HaveDefined fields

end

theorem areKeyed_iff {xs : List Json} : AreKeyed xs ↔ ∀ x ∈ xs, IsKeyed x := by
  induction xs with
  | nil => simp [AreKeyed]
  | cons x xs ih => simp [AreKeyed, ih]

theorem haveKeyed_iff {fields : Fields} : HaveKeyed fields ↔ ∀ p ∈ fields, IsKeyed p.2 := by
  induction fields with
  | nil => simp [HaveKeyed]
  | cons p fields ih => simp [HaveKeyed, ih]

theorem areDefined_iff {xs : List Json} : AreDefined xs ↔ ∀ x ∈ xs, IsDefined x := by
  induction xs with
  | nil => simp [AreDefined]
  | cons x xs ih => simp [AreDefined, ih]

theorem haveDefined_iff {fields : Fields} : HaveDefined fields ↔ ∀ p ∈ fields, IsDefined p.2 := by
  induction fields with
  | nil => simp [HaveDefined]
  | cons p fields ih => simp [HaveDefined, ih]

/-- The undefined number is not among the values that are defined. -/
theorem IsDefined.isUndefined_eq {v : Json} (h : v.IsDefined) : v.isUndefined = false := by
  cases v with
  | real x => cases x <;> simp_all [IsDefined, isUndefined]
  | _ => rfl

/-! ## Which values are found to be alike -/

section Alike

variable {a b : Json}

/-- Numbers are alike exactly if they are the same. -/
theorem alike_number {p : Option Extended} (ha : a.place? = some p) :
    a.alike b ↔ Same a b := by
  have halike : a.alike b = (b.place?.any fun q => samePlace p q) := by
    cases a <;> cases ha <;> cases b <;> simp [alike, place?]
  have hsame : Same a b ↔ ∃ place, p = some place ∧ b.place? = some (some place) := by
    constructor
    · rintro (_ | ⟨hfirst, hsecond⟩ | _ | _ | _) <;> simp_all [place?]
    · rintro ⟨place, rfl, hb⟩
      exact .number ha hb
  rw [halike, hsame]
  cases hb : b.place? with
  | none => simp
  | some q => cases p <;> cases q <;> simp [samePlace, eq_comm]

theorem alike_null : Json.null.alike b ↔ Same .null b := by
  cases b with
  | null => exact iff_of_true rfl .null
  | _ =>
    refine iff_of_false (by simp [alike, place?]) fun h => ?_
    cases h with | number hfirst => cases hfirst

theorem alike_text {s : String} : (Json.str s).alike b ↔ Same (.str s) b := by
  constructor
  · intro h
    cases b with
    | str t =>
      obtain rfl : s = t := by simpa [alike] using h
      exact .text s
    | _ => simp [alike, place?] at h
  · rintro (_ | ⟨hfirst, -⟩ | _ | _ | _)
    · cases hfirst
    · simp [alike]

/-- Objects that have the same keys are the same exactly if each value of the one has its like in
the other. -/
theorem same_object {fields others : Fields} (nodup : fields.keys.Nodup)
    (second : others.keys.Nodup) :
    Same (.obj fields) (.obj others) ↔ fields.length = others.length ∧
      ∀ p ∈ fields, ∃ w, others.get? p.1 = some w ∧ Same p.2 w := by
  constructor
  · rintro (_ | ⟨hfirst, -⟩ | _ | _ | ⟨hkeys, hvalues⟩)
    · cases hfirst
    obtain ⟨hlength, hsubset⟩ := (Table.has_eq_iff nodup second).1 hkeys
    refine ⟨hlength, fun p hp => ?_⟩
    obtain ⟨w, hw⟩ := Table.exists_get? (hsubset (List.mem_map_of_mem hp))
    exact ⟨w, hw, hvalues _ _ _ (Table.get?_of_mem nodup hp) hw⟩
  · rintro ⟨hlength, hvalues⟩
    refine .object ((Table.has_eq_iff nodup second).2 ⟨hlength, fun key hkey => ?_⟩) ?_
    · obtain ⟨p, hp, rfl⟩ := List.mem_map.1 hkey
      obtain ⟨w, hw, -⟩ := hvalues p hp
      exact Table.mem_keys_iff.2 ⟨w, hw⟩
    · intro key v w hv hw
      obtain ⟨w', hw', hsame⟩ := hvalues _ (Table.mem_of_get? hv)
      obtain rfl : w' = w := Option.some.inj (hw'.symm.trans hw)
      exact hsame

theorem same_list {xs ys : List Json} :
    Same (.arr xs) (.arr ys) ↔ xs.length = ys.length ∧
      ∀ (i : Nat) x y, xs[i]? = some x → ys[i]? = some y → Same x y := by
  constructor
  · rintro (_ | ⟨hfirst, -⟩ | _ | ⟨hlength, helements⟩ | _)
    · cases hfirst
    · exact ⟨hlength, helements⟩
  · exact fun h => .list h.1 h.2

mutual

/-- Values are alike exactly if they are the same. -/
theorem alike_iff_same {a b : Json} (ha : a.IsKeyed) (hb : b.IsKeyed) (defined : b.IsDefined) :
    a.alike b ↔ Same a b := by
  match a with
  | .null => exact alike_null
  | .str s => exact alike_text
  | .bool _ | .int _ | .real _ => exact alike_number rfl
  | .arr xs =>
    cases b with
    | arr ys => rw [same_list, ← alikeAll_iff_same ha hb defined, alike]
    | _ =>
      refine iff_of_false (by simp [alike, place?]) fun h => ?_
      cases h with | number hfirst => cases hfirst
  | .obj fields =>
    cases b with
    | obj others =>
      rw [same_object ha.1 hb.1, ← alikeFields_iff_same ha.2 hb.2 defined, alike]
      simp
    | _ =>
      refine iff_of_false (by simp [alike, place?]) fun h => ?_
      cases h with | number hfirst => cases hfirst

/-- Lists are alike exactly if they are the same element by element. -/
theorem alikeAll_iff_same {xs ys : List Json} (hx : AreKeyed xs) (hy : AreKeyed ys)
    (defined : AreDefined ys) :
    alikeAll xs ys ↔ xs.length = ys.length ∧
      ∀ (i : Nat) x y, xs[i]? = some x → ys[i]? = some y → Same x y := by
  match xs, ys with
  | [], [] => simp [alikeAll]
  | [], _ :: _ => simp [alikeAll]
  | _ :: _, [] => simp [alikeAll]
  | x :: xs, y :: ys =>
    have hhead := alike_iff_same hx.1 hy.1 defined.1
    have htail := alikeAll_iff_same hx.2 hy.2 defined.2
    rw [alikeAll, defined.1.isUndefined_eq, Bool.and_false, Bool.or_false, Bool.and_eq_true, hhead,
      htail, List.length_cons, List.length_cons, Nat.add_right_cancel_iff, and_left_comm]
    refine and_congr_right' ⟨fun ⟨hfirst, hrest⟩ => ?_, fun h => ?_⟩
    · rintro (_ | i) v w hv hw
      · cases hv
        cases hw
        exact hfirst
      · exact hrest i v w hv hw
    · exact ⟨h 0 x y rfl rfl, fun i => h (i + 1)⟩

/-- Objects have alike fields exactly if each value of the one has its like in the other. -/
theorem alikeFields_iff_same {fields : List (String × Json)} {others : Fields}
    (hf : HaveKeyed fields) (ho : HaveKeyed others) (defined : HaveDefined others) :
    alikeFields fields others ↔ ∀ p ∈ fields, ∃ w, others.get? p.1 = some w ∧ Same p.2 w := by
  match fields with
  | [] => simp [alikeFields]
  | (key, v) :: rest =>
    have htail := alikeFields_iff_same hf.2 ho defined
    rw [alikeFields, Bool.and_eq_true, htail, List.forall_mem_cons]
    refine and_congr_left' ?_
    cases hw : others.get? key with
    | none => simp
    | some w =>
      have hmem := Table.mem_of_get? hw
      have hdefined := haveDefined_iff.1 defined _ hmem
      have hhead := alike_iff_same hf.1 (haveKeyed_iff.1 ho _ hmem) hdefined
      simp [hhead, hdefined.isUndefined_eq]

end

theorem place?_of_defined {x : Binary64} (defined : x ≠ .nan) :
    ∃ place, x.place? = some place := by
  cases x with
  | finite => exact ⟨_, rfl⟩
  | infinite negative => cases negative <;> exact ⟨_, rfl⟩
  | nan => exact absurd rfl defined

/-- A value is the same as itself. -/
theorem same_self {v : Json} (keyed : v.IsKeyed) (defined : v.IsDefined) : Same v v := by
  match v with
  | .null => exact .null
  | .bool _ => exact .number rfl rfl
  | .int _ => exact .number rfl rfl
  | .real x =>
    obtain ⟨place, hplace⟩ := place?_of_defined defined
    exact .number (congrArg some hplace) (congrArg some hplace)
  | .str s => exact .text s
  | .arr xs =>
    refine .list rfl fun i x y hx hy => ?_
    obtain rfl : x = y := Option.some.inj (hx.symm.trans hy)
    have hmem := List.mem_of_getElem? hx
    exact same_self (areKeyed_iff.1 keyed x hmem) (areDefined_iff.1 defined x hmem)
  | .obj fields =>
    refine .object (fun _ => rfl) fun key v w hv hw => ?_
    obtain rfl : v = w := Option.some.inj (hv.symm.trans hw)
    have hmem := Table.mem_of_get? hv
    have hinner : sizeOf v < 1 + sizeOf fields := by
      have hfield := List.sizeOf_lt_of_mem hmem
      simp only [Prod.mk.sizeOf_spec] at hfield
      omega
    exact same_self (haveKeyed_iff.1 keyed.2 _ hmem) (haveDefined_iff.1 defined _ hmem)

end Alike

end Json

/-! ## What predicates hold of -/

namespace Predicate

/-- How a test is written: the attribute, the name of the operator and the value. -/
def written (name : String) (operator : Operator) (value : Json) : Json :=
  .obj [("attribute", .str name), ("op", .str operator.name), ("value", value)]

/-- What an operator asks of what is found under an attribute, if anything is. -/
def Operator.Asks (value : Json) (found : Option Json) : Operator → Prop
  | .equals => (found.getD .null).Same value
  | .notEquals => ¬ (found.getD .null).Same value
  | .within => ∃ xs, value = .arr xs ∧ ∃ x ∈ xs, (found.getD .null).Same x
  | .present => found.isSome

theorem parse?_written (name : String) (operator : Operator) (value : Json) :
    parse? (written name operator value) =
      .ok (some ⟨.str name, operator, .ofJson value⟩) := by
  cases operator <;> rfl

variable {name : String} {value actual : Json} {attributes : Fields}

/-- What comes of each operator. -/
theorem holds_apply (operator : Operator) (operand : Operand) :
    holds ⟨.str name, operator, operand⟩ attributes =
      .ok (match operator with
        | .equals => operand.alike ((attributes.get? name).getD .null)
        | .notEquals => !operand.alike ((attributes.get? name).getD .null)
        | .within => operand.has ((attributes.get? name).getD .null)
        | .present => (attributes.get? name).isSome) := by
  cases operator <;> rfl

/-- A list equals no attribute: it is there for the operator that looks among its members. -/
theorem holds_list (xs : List Json) :
    holds ⟨.str name, .equals, .ofJson (.arr xs)⟩ attributes = .ok false ∧
      holds ⟨.str name, .notEquals, .ofJson (.arr xs)⟩ attributes = .ok true := by
  simp [holds_apply, Operand.ofJson, Operand.alike]

/-- Anything but a list is compared as it is. -/
theorem Operand.alike_iff (keyed : value.IsKeyed) (defined : value.IsDefined)
    (held : actual.IsKeyed) (apart : ∀ xs, value = .arr xs → ¬ actual.Same value) :
    (Operand.ofJson value).alike actual ↔ actual.Same value := by
  cases value with
  | arr xs => exact iff_of_false (by simp [ofJson, Operand.alike]) (apart xs rfl)
  | _ => exact Json.alike_iff_same held keyed defined

theorem Operand.has_iff (keyed : value.IsKeyed) (defined : value.IsDefined)
    (held : actual.IsKeyed) :
    (Operand.ofJson value).has actual ↔ ∃ xs, value = .arr xs ∧ ∃ x ∈ xs, actual.Same x := by
  cases value with
  | arr xs =>
    have helement : ∀ x ∈ xs, (actual.alike x || (actual.isUndefined && x.isUndefined)) ↔
        actual.Same x := by
      intro x hx
      have hdefined := Json.areDefined_iff.1 defined x hx
      rw [hdefined.isUndefined_eq, Bool.and_false, Bool.or_false]
      exact Json.alike_iff_same held (Json.areKeyed_iff.1 keyed x hx) hdefined
    simp only [ofJson, Operand.has, List.any_eq_true]
    constructor
    · rintro ⟨x, hx, h⟩
      exact ⟨xs, rfl, x, hx, (helement x hx).1 h⟩
    · rintro ⟨_, ⟨⟩, x, hx, h⟩
      exact ⟨x, hx, (helement x hx).2 h⟩
  | _ => simp [ofJson, Operand.has]

theorem isKeyed_found (name : String) (held : Json.HaveKeyed attributes) :
    ((attributes.get? name).getD .null).IsKeyed := by
  cases hfound : attributes.get? name with
  | none => trivial
  | some v => exact Json.haveKeyed_iff.1 held _ (Table.mem_of_get? hfound)

end Predicate

open Predicate in
/-- A predicate with an attribute, an operator and a value can be read, and it holds of attributes
exactly if these are as the operator asks, where no list is compared as a whole with the same list.
What is not a list equals itself. -/
theorem predicates_compare (name : String) (operator : Operator) {value : Json}
    {attributes : Fields} (keyed : value.IsKeyed) (defined : value.IsDefined)
    (held : Json.HaveKeyed attributes) :
    ∃ p, Predicate.parse? (written name operator value) = .ok (some p) ∧
      ∃ passes, p.holds attributes = .ok passes ∧
        ((operator = .equals ∨ operator = .notEquals →
            ∀ xs, value = .arr xs → ¬ ((attributes.get? name).getD .null).Same value) →
          (passes ↔ operator.Asks value (attributes.get? name))) ∧
        (operator = .equals → (∀ xs, value ≠ .arr xs) → attributes.get? name = some value →
          passes) := by
  have hfound := isKeyed_found name held
  refine ⟨_, parse?_written name operator value, _, holds_apply operator _, fun apart => ?_, ?_⟩
  · cases operator with
    | equals => exact Operand.alike_iff keyed defined hfound (apart (.inl rfl))
    | notEquals =>
      simp only [Operator.Asks, Bool.not_eq_true',
        ← Operand.alike_iff keyed defined hfound (apart (.inr rfl)), Bool.not_eq_true]
    | within => exact Operand.has_iff keyed defined hfound
    | present => rfl
  · rintro rfl single hvalue
    have hself : ((attributes.get? name).getD .null).Same value := by
      rw [hvalue]
      exact Json.same_self keyed defined
    exact (Operand.alike_iff keyed defined hfound fun xs h => absurd h (single xs)).2 hself

/-- A size. -/
def givenSize : Json := .obj [("width", .int 2), ("flags", .arr [.bool true, .null])]

/-- The size, written in another way. -/
def otherSize : Json :=
  .obj [("flags", .arr [.int 1, .null]), ("width", .real (Binary64.ofQuotient 2 1))]

open Predicate in
/-- A size equals the same size, however it is written. -/
theorem predicates_compare_size :
    ∃ p, Predicate.parse? (written "size" .equals givenSize) = .ok (some p) ∧
      p.holds [("size", otherSize)] = .ok true := by
  have keyed : givenSize.IsKeyed := by
    simp [givenSize, Json.IsKeyed, Json.HaveKeyed, Json.AreKeyed]
  have defined : givenSize.IsDefined := by
    simp [givenSize, Json.IsDefined, Json.HaveDefined, Json.AreDefined]
  have held : Json.HaveKeyed [("size", otherSize)] := by
    simp [otherSize, Json.IsKeyed, Json.HaveKeyed, Json.AreKeyed]
  have hsame : otherSize.Same givenSize :=
    (Json.alike_iff_same held.1 keyed defined).1 (by decide +kernel)
  obtain ⟨p, hp, passes, hpasses, hasks, -⟩ :=
    predicates_compare "size" .equals keyed defined held
  have hpass : passes = true := (hasks (by simp [givenSize])).2 hsame
  exact ⟨p, hp, hpass ▸ hpasses⟩

open Predicate in
/-- A list of areas does not equal itself. -/
theorem list_unequal :
    ∃ p, Predicate.parse? (written "areas" .equals (.arr [.str "ui"])) = .ok (some p) ∧
      (Json.arr [.str "ui"]).Same (.arr [.str "ui"]) ∧
      p.holds [("areas", .arr [.str "ui"])] = .ok false := by
  refine ⟨_, parse?_written .., Json.same_self ?_ ?_, (holds_list _).1⟩
  · simp [Json.IsKeyed, Json.AreKeyed]
  · simp [Json.IsDefined, Json.AreDefined]

end Stageflow
