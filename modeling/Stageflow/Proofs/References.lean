import Mathlib.Data.List.Nodup
import Mathlib.Data.List.Perm.Subperm
import Mathlib.Logic.Relation
import Stageflow.Proofs.Inheritance

/-!
# References spliced out

What a list of raw elements stands for. A chain of references leads from elements through fragments
to further elements; where every chain is sound, each reference is replaced where it stands by what
its fragment stands for, and otherwise something is complained about. A complaint names what it is
about: a reference or a key that cannot be written ends the resolution without a complaint.

## Main statements

* `Resolution.causes_expand` — when nothing is complained about.
* `Resolution.circular_of_chain` — a chain that comes back to a fragment is complained about.
* `Resolution.resolve_of_named` — where all can be named, a document is resolved or has issues.
* `Resolution.expand_splices` — what an expansion gives, and what it means for a document.
-/

namespace Stageflow

namespace Resolution

variable {source : Source} {sect : Section} {stack names : List String} {room : Nat}
  {elements content reached : List Json}

/-! ## Chains of references -/

/-- Whether a raw element is a reference to a fragment. -/
def RefersTo (raw : Json) (name : String) : Prop :=
  ∃ fields, raw = .obj fields ∧ Table.get? "$ref" fields = some (.str name)

/-- A chain of nested references: from elements, through the lists that the named fragments hold for
a section, to the elements that are reached. -/
inductive Chain (source : Source) (sect : Section) : List Json → List String → List Json → Prop
  | here (elements : List Json) : Chain source sect elements [] elements
  | follow {raw : Json} {name : String} {elements content reached : List Json}
    {names : List String} (mem : raw ∈ elements) (refers : RefersTo raw name)
    (known : fragmentSection source sect name = some (.arr content))
    (rest : Chain source sect content names reached) :
    Chain source sect elements (name :: names) reached

/-- Whether a raw element has fields, and names a fragment with a list for a section if it is a
reference. -/
def Sound (source : Source) (sect : Section) (raw : Json) : Prop :=
  ∃ fields, raw = .obj fields ∧ ∀ value, Table.get? "$ref" fields = some value →
    ∃ name content, value = .str name ∧ fragmentSection source sect name = some (.arr content)

/-- Whether the references of some elements can be followed, where `stack` leads to the elements and
`room` more references may be nested. -/
structure Followable (source : Source) (sect : Section) (room : Nat) (stack : List String)
    (elements : List Json) : Prop where
  sound : ∀ names reached, Chain source sect elements names reached →
    ∀ raw ∈ reached, Sound source sect raw
  distinct : ∀ names reached, Chain source sect elements names reached → (stack ++ names).Nodup
  shallow : ∀ names reached, Chain source sect elements names reached → names.length ≤ room

/-- Whether elements are referenced well: every one that is met has fields, every reference names a
fragment with a list, and no chain of references repeats a name or is too long. -/
def WellReferenced (source : Source) (sect : Section) (elements : List Json) : Prop :=
  Followable source sect deepestReference [] elements

/-- Whether some chain of references comes back to a fragment. -/
def Cyclic (source : Source) (sect : Section) (elements : List Json) : Prop :=
  ∃ names reached, Chain source sect elements names reached ∧ ¬ names.Nodup

/-- Whether a raw element can be named in a complaint: its reference and what its key is read from
can be written. -/
def Nameable (raw : Json) : Prop :=
  ∀ fields, raw = .obj fields → ∀ field ∈ ["$ref", "id", "from"], ∀ value,
    Table.get? field fields = some value → value.isWritable

/-- Whether all elements that chains of references lead to can be named. -/
def Named (source : Source) (sect : Section) (elements : List Json) : Prop :=
  ∀ names reached, Chain source sect elements names reached → ∀ raw ∈ reached, Nameable raw

/-- What raw elements stand for: each reference is replaced where it stands by what the list of its
fragment stands for. -/
inductive Spliced (source : Source) (sect : Section) : List Json → List Fields → Prop
  | nil : Spliced source sect [] []
  | plain {fields : Fields} {rest : List Json} {out : List Fields}
    (plain : Table.get? "$ref" fields = none) (tail : Spliced source sect rest out) :
    Spliced source sect (.obj fields :: rest) (fields :: out)
  | reference {fields : Fields} {name : String} {content rest : List Json}
    {inner out : List Fields} (refers : Table.get? "$ref" fields = some (.str name))
    (known : fragmentSection source sect name = some (.arr content))
    (inside : Spliced source sect content inner) (tail : Spliced source sect rest out) :
    Spliced source sect (.obj fields :: rest) (inner ++ out)

/-- Elements stand for one list only. -/
theorem Spliced.unique {out out' : List Fields} (h : Spliced source sect elements out)
    (h' : Spliced source sect elements out') : out = out' := by
  induction h generalizing out' with
  | nil => cases h'; rfl
  | plain hplain _ ih =>
    cases h' with
    | plain _ htail => rw [ih htail]
    | reference hrefers => cases hplain.symm.trans hrefers
  | reference hrefers hknown _ _ ihInside ihTail =>
    cases h' with
    | plain hplain => cases hplain.symm.trans hrefers
    | reference hrefers' hknown' hinside htail =>
      obtain rfl : _ = _ := Json.str.inj (Option.some.inj (hrefers.symm.trans hrefers'))
      obtain rfl : _ = _ := Json.arr.inj (Option.some.inj (hknown.symm.trans hknown'))
      rw [ihInside hinside, ihTail htail]

/-! ## One round of an expansion -/

/-- Nothing is complained about exactly if every element has fields and nothing is complained about
its reference. -/
theorem causes_expandWith {reference : Json → Expansion} {index : Nat} :
    (expandWith sect reference index elements).causes = [] ↔
      ∀ raw ∈ elements, ∃ fields, raw = .obj fields ∧
        ∀ value, Table.get? "$ref" fields = some value → (reference value).causes = [] := by
  induction elements generalizing index with
  | nil => simp [expandWith]
  | cons raw rest ih =>
    rw [List.forall_mem_cons, ← @ih (index + 1)]
    cases raw with
    | obj fields =>
      cases href : Table.get? "$ref" fields <;>
        simp [expandWith, Expansion.append, href]
    | _ => simp [expandWith, Expansion.append]

/-- What an element is complained about stands among the complaints about all. -/
theorem mem_causes_expandWith {reference : Json → Expansion} {index : Nat} {fields : Fields}
    {value : Json} {cause : ResolutionCause} (hmem : .obj fields ∈ elements)
    (href : Table.get? "$ref" fields = some value) (hcause : cause ∈ (reference value).causes) :
    cause ∈ (expandWith sect reference index elements).causes := by
  induction elements generalizing index with
  | nil => cases hmem
  | cons raw rest ih =>
    obtain rfl | hrest := List.mem_cons.1 hmem
    · simp [expandWith, Expansion.append, href, hcause]
    · cases raw <;> simp [expandWith, Expansion.append, ih hrest]

/-- An element of the result is one of the elements, or comes from the reference of one. -/
theorem mem_elements_expandWith {reference : Json → Expansion} {index : Nat} {fields : Fields}
    (h : fields ∈ (expandWith sect reference index elements).elements) :
    (.obj fields ∈ elements ∧ Table.get? "$ref" fields = none) ∨
      ∃ own value, .obj own ∈ elements ∧ Table.get? "$ref" own = some value ∧
        fields ∈ (reference value).elements := by
  induction elements generalizing index with
  | nil => cases h
  | cons raw rest ih =>
    -- what the rest gives is found further on
    have further {index} (h : fields ∈ (expandWith sect reference index rest).elements) :
        (.obj fields ∈ raw :: rest ∧ Table.get? "$ref" fields = none) ∨
          ∃ own value, .obj own ∈ raw :: rest ∧ Table.get? "$ref" own = some value ∧
            fields ∈ (reference value).elements := by
      obtain ⟨hmem, hplain⟩ | ⟨own, value, hmem, hvalue⟩ := ih h
      · exact .inl ⟨List.mem_cons_of_mem _ hmem, hplain⟩
      · exact .inr ⟨own, value, List.mem_cons_of_mem _ hmem, hvalue⟩
    cases raw with
    | obj own =>
      cases href : Table.get? "$ref" own with
      | none =>
        simp only [expandWith, href, Expansion.append, List.mem_append, List.mem_singleton] at h
        obtain rfl | h := h
        · exact .inl ⟨List.mem_cons_self, href⟩
        · exact further h
      | some value =>
        simp only [expandWith, href, Expansion.append, List.mem_append] at h
        obtain h | h := h
        · exact .inr ⟨own, value, List.mem_cons_self, href, h⟩
        · exact further h
    | _ => exact further (by simpa [expandWith, Expansion.append] using h)

/-- What cannot be written is about the reference of an element. -/
theorem unwritable_expandWith {reference : Json → Expansion} {index : Nat}
    {cause : ResolutionCause} (unwritable : cause.isUnwritable)
    (h : cause ∈ (expandWith sect reference index elements).causes) :
    ∃ own value, .obj own ∈ elements ∧ Table.get? "$ref" own = some value ∧
      cause ∈ (reference value).causes := by
  induction elements generalizing index with
  | nil => cases h
  | cons raw rest ih =>
    have further {index} (h : cause ∈ (expandWith sect reference index rest).causes) :
        ∃ own value, .obj own ∈ raw :: rest ∧ Table.get? "$ref" own = some value ∧
          cause ∈ (reference value).causes := by
      obtain ⟨own, value, hmem, hvalue⟩ := ih h
      exact ⟨own, value, List.mem_cons_of_mem _ hmem, hvalue⟩
    cases raw with
    | obj own =>
      cases href : Table.get? "$ref" own with
      | none => exact further (by simpa [expandWith, Expansion.append, href] using h)
      | some value =>
        simp only [expandWith, href, Expansion.append, List.mem_append] at h
        obtain h | h := h
        · exact ⟨own, value, List.mem_cons_self, href, h⟩
        · exact further h
    | _ =>
      simp only [expandWith, Expansion.append, List.mem_append, List.mem_singleton] at h
      obtain rfl | h := h
      · cases unwritable
      · exact further h

theorem alike_text {value : Json} {text : String} :
    value.alike (.str text) ↔ value = .str text := by
  cases value <;> simp [Json.alike, Json.place?]

theorem any_alike {text : String} :
    (stack.any fun s => (Json.str text).alike (.str s)) ↔ text ∈ stack := by
  simp [List.any_eq_true, alike_text]

/-- Nothing is complained about a reference exactly if it names a fragment with a list that does not
lead to it, and nothing is complained about in there. -/
theorem causes_splice {deeper : Option (List String → List Json → Expansion)} {value : Json} :
    (splice source sect stack deeper value).causes = [] ↔
      ∃ name content, value = .str name ∧ fragmentSection source sect name = some (.arr content) ∧
        name ∉ stack ∧ ∃ inside, deeper = some inside ∧
          (inside (stack ++ [name]) content).causes = [] := by
  unfold splice
  dsimp only
  split
  · simp
  · split
    · rename_i hany
      simp only [causes_fault, List.cons_ne_nil, false_iff, not_exists, not_and]
      rintro name _ rfl - hfresh
      exact absurd (any_alike.1 hany) hfresh
    · rename_i hany
      cases value with
      | str text =>
        have hfresh : text ∉ stack := fun h => hany (any_alike.2 h)
        dsimp only
        split
        · rename_i content hknown
          simp [hfresh, hknown]
        · rename_i hother hknown
          simp only [List.cons_ne_nil, false_iff]
          rintro ⟨_, content, heq, hcontent, -⟩
          cases heq
          exact hother content (Option.some.inj (hknown.symm.trans hcontent))
        · rename_i hunknown
          simp [hunknown]
      | _ => simp

/-- A reference to a fragment with a list that does not lead to it stands for what is in there. -/
theorem splice_of_known {deeper : List String → List Json → Expansion} {name : String}
    (fresh : name ∉ stack) (known : fragmentSection source sect name = some (.arr content)) :
    splice source sect stack (some deeper) (.str name) = deeper (stack ++ [name]) content := by
  have hfresh : ¬ (stack.any fun s => (Json.str name).alike (.str s)) := fun h =>
    fresh (any_alike.1 h)
  simp only [splice, if_neg hfresh, known]

/-- A reference to a fragment that leads to it is circular. -/
theorem splice_of_mem {deeper : Option (List String → List Json → Expansion)} {name : String}
    (mem : name ∈ stack) :
    splice source sect stack deeper (.str name) =
      { causes := [.circularReference sect (stack ++ [name])] } := by
  unfold splice
  cases deeper with
  | none => simp [fault, Json.display]
  | some _ =>
    dsimp only
    rw [if_pos (any_alike.2 mem)]
    simp [fault, Json.display]

/-- A reference to a number that cannot be written is complained about, without naming it. -/
theorem splice_of_number {deeper : Option (List String → List Json → Expansion)} {n : Int}
    (unwritable : (Json.int n).isWritable = false) :
    splice source sect stack deeper (.int n) = { causes := [.unwritable sect] } := by
  unfold splice
  cases deeper with
  | none => simp [fault, unwritable]
  | some _ =>
    dsimp only
    split <;> simp [fault, unwritable]

/-- What stands in place of a reference comes from the list of its fragment. -/
theorem mem_elements_splice {deeper : Option (List String → List Json → Expansion)} {value : Json}
    {fields : Fields} (h : fields ∈ (splice source sect stack deeper value).elements) :
    ∃ inside name content, deeper = some inside ∧ value = .str name ∧
      fragmentSection source sect name = some (.arr content) ∧
      fields ∈ (inside (stack ++ [name]) content).elements := by
  unfold splice at h
  dsimp only at h
  split at h
  · cases h
  · rename_i inside
    split at h
    · cases h
    · split at h
      · rename_i text _
        split at h
        · rename_i content hknown
          exact ⟨inside, text, content, rfl, rfl, hknown, h⟩
        · cases h
        · cases h
      · cases h

theorem unwritable_fault {name : Json} {cause said : ResolutionCause}
    (unwritable : cause.isUnwritable) (writable : ¬ said.isUnwritable)
    (h : cause ∈ (fault sect name said).causes) : ¬ name.isWritable := by
  intro hname
  rw [causes_fault, if_pos hname, List.mem_singleton] at h
  exact writable (h ▸ unwritable)

/-- What cannot be written is a reference, or lies in the list of its fragment. -/
theorem unwritable_splice {deeper : Option (List String → List Json → Expansion)} {value : Json}
    {cause : ResolutionCause} (unwritable : cause.isUnwritable)
    (h : cause ∈ (splice source sect stack deeper value).causes) :
    ¬ value.isWritable ∨
      ∃ inside name content, deeper = some inside ∧ value = .str name ∧
        fragmentSection source sect name = some (.arr content) ∧
        cause ∈ (inside (stack ++ [name]) content).causes := by
  unfold splice at h
  dsimp only at h
  split at h
  · exact .inl (unwritable_fault unwritable (by simp [ResolutionCause.isUnwritable]) h)
  · rename_i inside
    split at h
    · exact .inl (unwritable_fault unwritable (by simp [ResolutionCause.isUnwritable]) h)
    · split at h
      · rename_i text _
        split at h
        · rename_i content hknown
          exact .inr ⟨inside, text, content, rfl, rfl, hknown, h⟩
        all_goals
          obtain rfl := List.mem_singleton.1 h
          cases unwritable
      · exact .inl (unwritable_fault unwritable (by simp [ResolutionCause.isUnwritable]) h)

/-- Elements are replaced where they stand if each reference is replaced by what its list stands
for. -/
theorem spliced_expandWith {reference : Json → Expansion} {index : Nat}
    (h : ∀ raw ∈ elements, ∃ fields, raw = .obj fields ∧
      ∀ value, Table.get? "$ref" fields = some value → ∃ name content, value = .str name ∧
        fragmentSection source sect name = some (.arr content) ∧
        Spliced source sect content (reference value).elements) :
    Spliced source sect elements (expandWith sect reference index elements).elements := by
  induction elements generalizing index with
  | nil => exact .nil
  | cons raw rest ih =>
    obtain ⟨⟨fields, rfl, hfirst⟩, hrest⟩ := List.forall_mem_cons.1 h
    unfold expandWith
    cases href : Table.get? "$ref" fields with
    | none => exact .plain href (ih hrest)
    | some value =>
      obtain ⟨name, content, rfl, hknown, hinside⟩ := hfirst value href
      exact .reference href hknown hinside (ih hrest)

/-- What holds of the reference of an element, if there is one, holds of every fragment that a sound
element refers to. -/
theorem sound_and_iff {raw : Json} {P : String → List Json → Prop} :
    (∃ fields, raw = .obj fields ∧ ∀ value, Table.get? "$ref" fields = some value →
      ∃ name content, value = .str name ∧ fragmentSection source sect name = some (.arr content) ∧
        P name content) ↔
      Sound source sect raw ∧ ∀ name content, RefersTo raw name →
        fragmentSection source sect name = some (.arr content) → P name content := by
  constructor
  · rintro ⟨fields, rfl, h⟩
    refine ⟨⟨fields, rfl, fun value hvalue => ?_⟩, ?_⟩
    · obtain ⟨name, content, hname, hknown, -⟩ := h value hvalue
      exact ⟨name, content, hname, hknown⟩
    · rintro name content ⟨_, heq, hrefers⟩ hknown
      cases heq
      obtain ⟨_, _, heq, hknown', hP⟩ := h _ hrefers
      cases heq
      cases hknown.symm.trans hknown'
      exact hP
  · rintro ⟨⟨fields, rfl, h⟩, hP⟩
    refine ⟨fields, rfl, fun value hvalue => ?_⟩
    obtain ⟨name, content, rfl, hknown⟩ := h value hvalue
    exact ⟨name, content, rfl, hknown, hP name content ⟨fields, rfl, hvalue⟩ hknown⟩

/-! ## Whole expansions -/

/-- Elements whose references can be followed are sound, and those of each fragment they name can be
followed one reference deeper. -/
theorem followable_iff (nodup : stack.Nodup) :
    Followable source sect room stack elements ↔
      ∀ raw ∈ elements, Sound source sect raw ∧ ∀ name content, RefersTo raw name →
        fragmentSection source sect name = some (.arr content) → name ∉ stack ∧
          ∃ left, room = left + 1 ∧ Followable source sect left (stack ++ [name]) content := by
  constructor
  · intro h raw hraw
    refine ⟨h.sound [] elements (.here _) raw hraw, fun name content hrefers hknown => ?_⟩
    have hfollow {names reached} (hrest : Chain source sect content names reached) :
        Chain source sect elements (name :: names) reached :=
      .follow hraw hrefers hknown hrest
    have hroom := h.shallow _ _ (hfollow (.here content))
    have hdistinct := h.distinct _ _ (hfollow (.here content))
    obtain ⟨left, rfl⟩ : ∃ left, room = left + 1 := Nat.exists_eq_add_of_le' hroom
    refine ⟨fun hmem => ?_, left, rfl, ?_⟩
    · exact (List.nodup_append.1 hdistinct).2.2 name hmem name (by simp) rfl
    · constructor
      · exact fun names reached hrest => h.sound _ _ (hfollow hrest)
      · exact fun names reached hrest => by simpa using h.distinct _ _ (hfollow hrest)
      · exact fun names reached hrest => by simpa using h.shallow _ _ (hfollow hrest)
  · intro h
    constructor
    · rintro names reached (_ | ⟨hraw, hrefers, hknown, hrest⟩)
      · exact fun raw hraw => (h raw hraw).1
      · obtain ⟨-, left, -, hcontent⟩ := (h _ hraw).2 _ _ hrefers hknown
        exact hcontent.sound _ _ hrest
    · rintro names reached (_ | ⟨hraw, hrefers, hknown, hrest⟩)
      · simpa using nodup
      · obtain ⟨-, left, -, hcontent⟩ := (h _ hraw).2 _ _ hrefers hknown
        simpa using hcontent.distinct _ _ hrest
    · rintro names reached (_ | ⟨hraw, hrefers, hknown, hrest⟩)
      · exact Nat.zero_le _
      · obtain ⟨-, left, rfl, hcontent⟩ := (h _ hraw).2 _ _ hrefers hknown
        simpa using hcontent.shallow _ _ hrest

/-- The expansion one reference deeper, if the depth allows it. -/
def inside (source : Source) (sect : Section) : Nat → Option (List String → List Json → Expansion)
  | 0 => none
  | room + 1 => some (expand source sect room)

theorem inside_eq_some {deeper : List String → List Json → Expansion} :
    inside source sect room = some deeper ↔
      ∃ left, room = left + 1 ∧ deeper = expand source sect left := by
  cases room <;> simp [inside, eq_comm]

theorem expand_eq : expand source sect room stack elements =
    expandWith sect (splice source sect stack (inside source sect room)) 0 elements := by
  cases room <;> rfl

/-- Nothing is complained about exactly where references can be followed. -/
theorem causes_expand (nodup : stack.Nodup) :
    (expand source sect room stack elements).causes = [] ↔
      Followable source sect room stack elements := by
  induction room using Nat.strongRecOn generalizing stack elements with
  | ind room ih =>
    rw [expand_eq, causes_expandWith, followable_iff nodup]
    simp only [causes_splice, sound_and_iff]
    refine forall₂_congr fun raw _ => and_congr_right fun _ => ?_
    refine forall₄_congr fun name content _ _ => and_congr_right fun hfresh => ?_
    have hnodup : (stack ++ [name]).Nodup := List.nodup_append_comm.1 (by simp [hfresh, nodup])
    constructor
    · rintro ⟨deeper, hdeeper, hclean⟩
      obtain ⟨left, rfl, rfl⟩ := inside_eq_some.1 hdeeper
      exact ⟨left, rfl, (ih left (Nat.lt_succ_self left) hnodup).1 hclean⟩
    · rintro ⟨left, rfl, hfollow⟩
      exact ⟨_, rfl, (ih left (Nat.lt_succ_self left) hnodup).2 hfollow⟩

/-- Where nothing is complained about, the references are replaced where they stand. -/
theorem spliced_expand (clean : (expand source sect room stack elements).causes = []) :
    Spliced source sect elements (expand source sect room stack elements).elements := by
  induction room using Nat.strongRecOn generalizing stack elements with
  | ind room ih =>
    rw [expand_eq] at clean ⊢
    refine spliced_expandWith fun raw hraw => ?_
    obtain ⟨fields, rfl, hreference⟩ := causes_expandWith.1 clean raw hraw
    refine ⟨fields, rfl, fun value hvalue => ?_⟩
    obtain ⟨name, content, rfl, hknown, hfresh, deeper, hdeeper, hclean⟩ :=
      causes_splice.1 (hreference value hvalue)
    obtain ⟨left, rfl, rfl⟩ := inside_eq_some.1 hdeeper
    rw [hdeeper, splice_of_known hfresh hknown]
    exact ⟨name, content, rfl, hknown, ih left (Nat.lt_succ_self left) hclean⟩

/-- An element of the result is no reference, and a chain leads to it. -/
theorem reached_of_mem_expand {fields : Fields}
    (h : fields ∈ (expand source sect room stack elements).elements) :
    Table.get? "$ref" fields = none ∧
      ∃ names reached, Chain source sect elements names reached ∧ .obj fields ∈ reached := by
  induction room using Nat.strongRecOn generalizing stack elements with
  | ind room ih =>
    rw [expand_eq] at h
    obtain ⟨hmem, hplain⟩ | ⟨own, value, hmem, href, hvalue⟩ := mem_elements_expandWith h
    · exact ⟨hplain, [], elements, .here _, hmem⟩
    · obtain ⟨deeper, name, content, hdeeper, rfl, hknown, hinside⟩ := mem_elements_splice hvalue
      obtain ⟨left, rfl, rfl⟩ := inside_eq_some.1 hdeeper
      obtain ⟨hplain, names, reached, hchain, hreached⟩ := ih left (Nat.lt_succ_self left) hinside
      exact ⟨hplain, name :: names, reached, .follow hmem ⟨own, rfl, href⟩ hknown hchain, hreached⟩

/-- Where what is met can be named, every complaint about references can be written. -/
theorem writable_of_named {cause : ResolutionCause} (named : Named source sect elements)
    (h : cause ∈ (expand source sect room stack elements).causes) : ¬ cause.isUnwritable := by
  intro unwritable
  induction room using Nat.strongRecOn generalizing stack elements with
  | ind room ih =>
    rw [expand_eq] at h
    obtain ⟨own, value, hmem, href, hvalue⟩ := unwritable_expandWith unwritable h
    obtain hwritable | ⟨deeper, name, content, hdeeper, rfl, hknown, hinside⟩ :=
      unwritable_splice unwritable hvalue
    · exact hwritable (named [] elements (.here _) _ hmem own rfl "$ref" (by simp) value href)
    · obtain ⟨left, rfl, rfl⟩ := inside_eq_some.1 hdeeper
      refine ih left (Nat.lt_succ_self left) (fun names reached hchain => ?_) hinside
      exact named (name :: names) reached (.follow hmem ⟨own, rfl, href⟩ hknown hchain)

/-- A chain of references that comes back to a fragment is complained about. -/
theorem circular_of_chain (chain : Chain source sect elements names reached)
    (nodup : stack.Nodup) (repeats : ¬ (stack ++ names).Nodup) :
    ∃ path, ResolutionCause.circularReference sect path ∈
      (expand source sect room stack elements).causes := by
  induction chain generalizing room stack with
  | here => exact absurd (by simpa using nodup) repeats
  | @follow raw name elements content reached names hraw hrefers hknown _ ih =>
    obtain ⟨fields, rfl, href⟩ := hrefers
    -- it is enough that the first reference is complained about
    suffices h : ∃ path, ResolutionCause.circularReference sect path ∈
        (splice source sect stack (inside source sect room) (.str name)).causes by
      obtain ⟨path, hpath⟩ := h
      exact ⟨path, expand_eq ▸ mem_causes_expandWith hraw href hpath⟩
    by_cases hfresh : name ∈ stack
    · rw [splice_of_mem hfresh]
      exact ⟨_, List.mem_singleton_self _⟩
    · cases hdeeper : inside source sect room with
      | none => exact ⟨_, List.mem_singleton_self _⟩
      | some deeper =>
        obtain ⟨left, rfl, rfl⟩ := inside_eq_some.1 hdeeper
        rw [splice_of_known hfresh hknown]
        refine ih (List.nodup_append_comm.1 (by simp [hfresh, nodup])) ?_
        simpa using repeats

/-- A chain leads to the elements it starts from, or to the list of a fragment. -/
theorem Chain.reached_eq (chain : Chain source sect elements names reached) :
    reached = elements ∨ ∃ name, fragmentSection source sect name = some (.arr reached) := by
  induction chain with
  | here => exact .inl rfl
  | follow _ _ known _ ih =>
    obtain rfl | hlist := ih
    · exact .inr ⟨_, known⟩
    · exact .inr hlist

/-- What can be written can be named. -/
theorem nameable_of_isWritable {raw : Json} (writable : raw.isWritable) : Nameable raw := by
  rintro fields rfl field - value hvalue
  exact Json.haveWritable_iff.1 (by simpa [Json.isWritable] using writable) _
    (Table.mem_of_get? hvalue)

/-- Where the elements and the lists of the fragments can be written, all that is met can be named.
-/
theorem named_of_isWritable (own : ∀ raw ∈ elements, raw.isWritable)
    (fragments : ∀ name content, fragmentSection source sect name = some (.arr content) →
      ∀ raw ∈ content, raw.isWritable) : Named source sect elements := by
  intro names reached hchain raw hraw
  obtain rfl | ⟨name, hknown⟩ := hchain.reached_eq
  · exact nameable_of_isWritable (own raw hraw)
  · exact nameable_of_isWritable (fragments name reached hknown raw hraw)

end Resolution

/-! ## Lineages -/

namespace Source

variable {source : Source} {document d : TeamDocument} {documents : List TeamDocument}

/-- Whether a document extends another one directly. -/
def Extends (source : Source) (document parent : TeamDocument) : Prop :=
  ∃ team, document.base = some team ∧ source.document? team = some parent

/-- Whether the extension of a document is sound: it ends with a document that extends none, and no
two documents on the way have the same id. -/
def ExtendsSoundly (source : Source) (document : TeamDocument) : Prop :=
  ∃ documents, source.Lineage documents document ∧ (documents.map (·.id)).Nodup

/-- What a document extends stands in its lineage. -/
theorem Lineage.mem_of_extends (lineage : source.Lineage documents document)
    (h : Relation.ReflTransGen source.Extends document d) : d ∈ documents := by
  induction h using Relation.ReflTransGen.head_induction_on generalizing documents with
  | refl => cases lineage <;> simp
  | head hextends _ ih =>
    obtain ⟨team, hbase, hfound⟩ := hextends
    cases lineage with
    | root base => cases base.symm.trans hbase
    | extend base found inherited =>
      obtain rfl : _ = _ := Option.some.inj (base.symm.trans hbase)
      obtain rfl : _ = _ := Option.some.inj (found.symm.trans hfound)
      exact List.mem_append_left _ (ih inherited)

/-- What stands in a lineage is extended, directly or not. -/
theorem Lineage.extends_of_mem (lineage : source.Lineage documents document) (hd : d ∈ documents) :
    Relation.ReflTransGen source.Extends document d := by
  induction lineage with
  | root => exact List.mem_singleton.1 hd ▸ .refl
  | extend base found _ ih =>
    obtain hd | hd := List.mem_append.1 hd
    · exact .head ⟨_, base, found⟩ (ih hd)
    · exact List.mem_singleton.1 hd ▸ .refl

/-- What is found in a source was stored there, or is built in. -/
theorem mem_of_document? {team : String} (found : source.document? team = some document) :
    document ∈ source.documents.values ++ source.templates.values := by
  unfold document? at found
  cases hstored : source.documents.get? team with
  | some stored =>
    obtain rfl : stored = document := by simpa [hstored] using found
    exact List.mem_append_left _ (List.mem_map_of_mem (Table.mem_of_get? hstored))
  | none =>
    have htemplate : source.templates.get? team = some document := by simpa [hstored] using found
    exact List.mem_append_right _ (List.mem_map_of_mem (Table.mem_of_get? htemplate))

/-- All documents of a lineage but the last one were found in the source. -/
theorem Lineage.exists_bases (lineage : source.Lineage documents document) :
    ∃ bases, documents = bases ++ [document] ∧
      ∀ parent ∈ bases, parent ∈ source.documents.values ++ source.templates.values := by
  induction lineage with
  | root => exact ⟨[], rfl, by simp⟩
  | @extend documents parent document team _ found _ ih =>
    obtain ⟨bases, rfl, hbases⟩ := ih
    refine ⟨_, rfl, fun other hother => ?_⟩
    obtain hother | hother := List.mem_append.1 hother
    · exact hbases other hother
    · obtain rfl := List.mem_singleton.1 hother
      exact mem_of_document? found

/-- Where no id repeats, a lineage is no longer than the bases there can be. -/
theorem Lineage.length_le (lineage : source.Lineage documents document)
    (nodup : (documents.map (·.id)).Nodup) :
    documents.length ≤ Resolution.mostBases source := by
  obtain ⟨bases, rfl, hbases⟩ := lineage.exists_bases
  have hnodup : bases.Nodup := (List.Nodup.of_map _ nodup).of_append_left
  have hlength := (List.Nodup.subperm hnodup hbases).length_le
  simpa [Resolution.mostBases, Table.values] using hlength

end Source

namespace Resolution

variable {source : Source} {sect : Section} {document d : TeamDocument}
  {documents : List TeamDocument}

/-- A lineage without repeated ids is followed to its root. -/
theorem lineage_of_nodup {fuel : Nat} {chain : List String}
    (h : source.Lineage documents document)
    (nodup : (chain ++ (documents.map (·.id)).reverse).Nodup)
    (enough : documents.length ≤ fuel + 1) :
    lineage source fuel chain document = .ok documents := by
  induction h generalizing fuel chain with
  | @root document base =>
    have hfresh : document.id ∉ chain := fun hmem =>
      (List.nodup_append.1 nodup).2.2 _ hmem document.id (by simp) rfl
    unfold lineage
    rw [if_neg hfresh]
    simp [base]
  | @extend documents parent document team base found inherited ih =>
    rw [List.map_append, List.reverse_append, ← List.append_assoc] at nodup
    have hfresh : document.id ∉ chain := fun hmem =>
      (List.nodup_append.1 nodup.of_append_left).2.2 _ hmem document.id (by simp) rfl
    obtain ⟨bases, rfl, -⟩ := inherited.exists_bases
    obtain ⟨fuel, rfl⟩ : ∃ left, fuel = left + 1 := Nat.exists_eq_add_of_le' (by
      simp only [List.length_append, List.length_singleton] at enough
      omega)
    have hparent := ih nodup (by simpa using enough)
    unfold lineage
    rw [if_neg hfresh]
    simp only [List.map_singleton, List.reverse_singleton] at hparent
    simp only [base, found, hparent, Except.map]

/-- A key that is there and cannot be read is one that cannot be written. -/
theorem missing_of_key {name : String} {fields : Fields} {defect : Defect}
    (nameable : Nameable (.obj fields)) (h : Fields.key name fields = .error defect) :
    defect.kind = .missing := by
  have hwritten {field : String} {value : Json} (hfield : field ∈ ["$ref", "id", "from"])
      (hvalue : Table.get? field fields = some value) : value.written = .ok value.display :=
    if_pos (nameable fields rfl field hfield value hvalue)
  unfold Fields.key at h
  split at h
  · rename_i hid
    cases (hwritten (by simp) hid).symm.trans h
  · split at h
    · rename_i hsource
      split at hsource
      · cases (hwritten (by simp) hsource).symm.trans h
      · cases hsource
    · cases h
      rfl

/-- Elements that can be named are laid over others without a complaint that cannot be written. -/
theorem writable_layOver {seen : List String} {inherited : Table String Fields}
    {own : List Fields} {cause : ResolutionCause}
    (nameable : ∀ fields ∈ own, Nameable (.obj fields))
    (h : cause ∈ (layOver sect seen inherited own).2) : ¬ cause.isUnwritable := by
  induction own generalizing seen inherited with
  | nil => cases h
  | cons fields rest ih =>
    obtain ⟨hfields, hrest⟩ := List.forall_mem_cons.1 nameable
    unfold layOver at h
    split at h
    · rename_i hkey
      rw [if_pos (missing_of_key hfields hkey)] at h
      obtain rfl | h := List.mem_cons.1 h
      · simp [ResolutionCause.isUnwritable]
      · exact ih hrest h
    · split at h
      · obtain rfl | h := List.mem_cons.1 h
        · simp [ResolutionCause.isUnwritable]
        · exact ih hrest h
      · exact ih hrest h

/-- What is complained about a section of a document that can be named can be written. -/
theorem writable_mergeSection {inherited : Table String Fields} {cause : ResolutionCause}
    (named : Named source sect (d.sections.of sect))
    (h : cause ∈ (mergeSection source d inherited sect).2) : ¬ cause.isUnwritable := by
  obtain h | h := List.mem_append.1 h
  · exact writable_of_named named h
  · refine writable_layOver (fun fields hfields => ?_) h
    obtain ⟨-, names, reached, hchain, hreached⟩ := reached_of_mem_expand hfields
    exact named names reached hchain _ hreached

theorem issues_subset_merge {layers : Layers} :
    layers.issues ⊆ (documents.foldl (Layers.add source) layers).issues := by
  induction documents generalizing layers with
  | nil => exact List.Subset.refl _
  | cons first rest ih => exact fun issue hissue => ih (List.mem_append_left _ hissue)

/-- Every complaint about a document of a lineage is an issue of the merged lineage. -/
theorem mem_issues_merge {cause : ResolutionCause} {layers : Layers} (hd : d ∈ documents)
    (hcause : cause ∈ (expand source sect deepestReference [] (d.sections.of sect)).causes) :
    ⟨d.id, cause⟩ ∈ (documents.foldl (Layers.add source) layers).issues := by
  induction documents generalizing layers with
  | nil => cases hd
  | cons first rest ih =>
    obtain rfl | hrest := List.mem_cons.1 hd
    · rw [List.foldl_cons]
      refine issues_subset_merge (List.mem_append_right _ (List.mem_flatMap.2 ⟨sect, ?_, ?_⟩))
      · cases sect <;> decide
      · rw [PerSection.of_ofFunction]
        exact List.mem_map_of_mem (List.mem_append_left _ hcause)
    · exact ih hrest

/-- The issues of a merged lineage of documents that can be named can be written. -/
theorem writable_merge {layers : Layers} {issue : ResolutionIssue}
    (named : ∀ d ∈ documents, ∀ sect, Named source sect (d.sections.of sect))
    (before : ∀ issue ∈ layers.issues, ¬ issue.cause.isUnwritable)
    (h : issue ∈ (documents.foldl (Layers.add source) layers).issues) :
    ¬ issue.cause.isUnwritable := by
  induction documents generalizing layers with
  | nil => exact before issue h
  | cons first rest ih =>
    obtain ⟨hfirst, hrest⟩ := List.forall_mem_cons.1 named
    refine ih hrest (fun issue hissue => ?_) h
    obtain hissue | hissue := List.mem_append.1 hissue
    · exact before issue hissue
    · obtain ⟨sect, -, hissue⟩ := List.mem_flatMap.1 hissue
      rw [PerSection.of_ofFunction] at hissue
      obtain ⟨cause, hcause, rfl⟩ := List.mem_map.1 hissue
      exact writable_mergeSection (hfirst sect) hcause

/-- Whether all elements that chains of references lead to can be named, in every section of a
document and of those that it extends. -/
def NamedThroughout (source : Source) (document : TeamDocument) : Prop :=
  ∀ d, Relation.ReflTransGen source.Extends document d →
    ∀ sect, Named source sect (d.sections.of sect)

theorem any_unwritable_merge (named : NamedThroughout source document)
    (lineage : source.Lineage documents document) :
    (merge source documents).issues.any (·.cause.isUnwritable) = false :=
  List.any_eq_false.2 fun _ hissue =>
    writable_merge (fun d hd => named d (lineage.extends_of_mem hd)) (by simp) hissue

/-- A document is resolved, or issues are found, if all that is met can be named. -/
theorem resolve_of_named (named : NamedThroughout source document) {unresolved : Unresolved}
    (h : source.resolve document = .error unresolved) : ∃ issues, unresolved = .issues issues := by
  unfold Source.resolve at h
  split at h
  · cases h
    exact ⟨_, rfl⟩
  · rename_i documents hlineage
    have hwritable := any_unwritable_merge named (lineage_ok hlineage)
    simp only [hwritable, Bool.false_eq_true, if_false] at h
    split at h
    · cases h
    · cases h
      exact ⟨_, rfl⟩

/-- A document that extends soundly, and has a document in its lineage with a complaint, is not
resolved, and the complaint is among the issues. -/
theorem resolve_of_mem_causes {cause : ResolutionCause} (named : NamedThroughout source document)
    (sound : source.ExtendsSoundly document)
    (hd : Relation.ReflTransGen source.Extends document d)
    (hcause : cause ∈ (expand source sect deepestReference [] (d.sections.of sect)).causes) :
    ∃ issues, source.resolve document = .error (.issues issues) ∧ ⟨d.id, cause⟩ ∈ issues := by
  obtain ⟨documents, hlineage, hnodup⟩ := sound
  have hfollowed : lineage source (mostBases source) [] document = .ok documents :=
    lineage_of_nodup hlineage (by simpa using hnodup)
      (Nat.le_succ_of_le (hlineage.length_le hnodup))
  have hissue : ⟨d.id, cause⟩ ∈ (merge source documents).issues :=
    mem_issues_merge (hlineage.mem_of_extends hd) hcause
  have hwritable := any_unwritable_merge named hlineage
  refine ⟨(merge source documents).issues, ?_, hissue⟩
  have hsome : (merge source documents).issues.isEmpty = false := by
    simpa using List.ne_nil_of_mem hissue
  simp [Source.resolve, hfollowed, hwritable, hsome]

/-- All documents that a resolved document extends are referenced well. -/
theorem wellReferenced_of_resolve {merged : MergedDocument}
    (resolved : source.resolve document = .ok merged)
    (hd : Relation.ReflTransGen source.Extends document d) :
    WellReferenced source sect (d.sections.of sect) := by
  obtain ⟨documents, hlineage, hissues, -⟩ := Source.resolve_eq_ok resolved
  refine (causes_expand List.nodup_nil).1 (List.eq_nil_iff_forall_not_mem.2 fun cause hcause => ?_)
  have hissue : ⟨d.id, cause⟩ ∈ (merge source documents).issues :=
    mem_issues_merge ((lineage_ok hlineage).mem_of_extends hd) hcause
  rw [hissues] at hissue
  cases hissue

/-- References are replaced where they stand. An expansion of elements complains of nothing exactly
if they are referenced well, and then gives what they stand for; no element of it is a reference. A
document is not resolved if it, or one that it extends, is not referenced well. Where all that is
met can be named, every complaint can be written: such a document then has an issue, and where it
extends soundly, a chain that comes back to a fragment is among the issues. -/
theorem expand_splices (source : Source) (sect : Section) :
    (∀ elements,
      ((expand source sect deepestReference [] elements).causes = [] ↔
        WellReferenced source sect elements) ∧
      (WellReferenced source sect elements → ∀ out, Spliced source sect elements out ↔
        out = (expand source sect deepestReference [] elements).elements) ∧
      (∀ fields ∈ (expand source sect deepestReference [] elements).elements,
        Table.get? "$ref" fields = none) ∧
      (Named source sect elements →
        ∀ cause ∈ (expand source sect deepestReference [] elements).causes,
          ¬ cause.isUnwritable)) ∧
    ∀ document d, Relation.ReflTransGen source.Extends document d →
      (¬ WellReferenced source sect (d.sections.of sect) →
        ∃ unresolved, source.resolve document = .error unresolved) ∧
      (NamedThroughout source document →
        (¬ WellReferenced source sect (d.sections.of sect) →
          ∃ issue issues, source.resolve document = .error (.issues (issue :: issues))) ∧
        (source.ExtendsSoundly document → Cyclic source sect (d.sections.of sect) →
          ∃ issues, source.resolve document = .error (.issues issues) ∧
            ∃ issue ∈ issues, issue.kind = "circular_ref")) := by
  refine ⟨fun elements => ⟨causes_expand List.nodup_nil, fun hwell out => ?_, fun fields hfields =>
    (reached_of_mem_expand hfields).1, fun hnamed cause => writable_of_named hnamed⟩,
    fun document d hd => ?_⟩
  · have hspliced := spliced_expand ((causes_expand List.nodup_nil).2 hwell)
    constructor
    · exact fun h => h.unique hspliced
    · rintro rfl
      exact hspliced
  · have hill : ¬ WellReferenced source sect (d.sections.of sect) →
        ∃ unresolved, source.resolve document = .error unresolved := by
      intro hill
      cases hresolve : source.resolve document with
      | ok merged => exact absurd (wellReferenced_of_resolve hresolve hd) hill
      | error unresolved => exact ⟨unresolved, rfl⟩
    refine ⟨hill, fun hnamed => ⟨fun h => ?_, ?_⟩⟩
    · obtain ⟨unresolved, hresolve⟩ := hill h
      obtain ⟨issues, rfl⟩ := resolve_of_named hnamed hresolve
      cases issues with
      | nil => exact absurd rfl (Source.resolve_issues_ne_nil hresolve)
      | cons issue issues => exact ⟨issue, issues, hresolve⟩
    · rintro hsound ⟨names, reached, hchain, hrepeats⟩
      obtain ⟨path, hpath⟩ := circular_of_chain hchain List.nodup_nil (by simpa using hrepeats)
      obtain ⟨issues, hresolve, hissue⟩ := resolve_of_mem_causes hnamed hsound hd hpath
      exact ⟨issues, hresolve, _, hissue, rfl⟩

end Resolution

/-- Fragments: one that another one refers to twice, and one that refers to itself. -/
def sampleFragments : Source where
  fragments := [
    ("common", .arr [.obj [("id", .str "C")]]),
    ("pair", .obj [("statuses", .arr [.obj [("$ref", .str "common")], .obj [("id", .str "B")],
      .obj [("$ref", .str "common")]])]),
    ("loop", .arr [.obj [("id", .str "L")], .obj [("$ref", .str "loop")]])]

theorem sampleFragments_writable {sect : Section} {name : String} {content : List Json}
    (h : Resolution.fragmentSection sampleFragments sect name = some (.arr content)) :
    ∀ raw ∈ content, raw.isWritable := by
  have hfragment (fragment : Json) (h : sampleFragments.fragment? name = some fragment) :
      fragment.isWritable := by
    have hmem : (name, fragment) ∈ sampleFragments.fragments := by
      unfold Source.fragment? at h
      split at h
      · cases h
      · cases h
      · rename_i hfound
        cases h
        exact Table.mem_of_get? hfound
    have hwritable : ∀ p ∈ sampleFragments.fragments, p.2.isWritable := by
      simp [sampleFragments, Json.isWritable, Json.areWritable, Json.haveWritable]
    exact hwritable _ hmem
  unfold Resolution.fragmentSection at h
  split at h
  · rename_i elements hlist
    cases h
    exact Json.areWritable_iff.1 (by simpa [Json.isWritable] using hfragment _ hlist)
  · rename_i fields hfields
    have hwritable := Json.haveWritable_iff.1 (by simpa [Json.isWritable] using hfragment _ hfields)
    split at h
    · cases h
    · cases h
    · rename_i hcontent
      cases h
      exact Json.areWritable_iff.1
        (by simpa [Json.isWritable] using hwritable _ (Table.mem_of_get? hcontent))
  · cases h

/-- A fragment may occur on several branches, while one that refers to itself is circular. -/
theorem expand_splices_pair :
    (Resolution.Spliced sampleFragments .statuses
      [.obj [("id", .str "A")], .obj [("$ref", .str "pair")]]
      [[("id", .str "A")], [("id", .str "C")], [("id", .str "B")], [("id", .str "C")]]) ∧
      ∃ issues, sampleFragments.resolve (sampleTeam "t" none [.obj [("$ref", .str "loop")]]) =
        .error (.issues issues) ∧ ∃ issue ∈ issues, issue.kind = "circular_ref" := by
  obtain ⟨hexpand, hdocuments⟩ := Resolution.expand_splices sampleFragments .statuses
  obtain ⟨hclean, hspliced, -⟩ :=
    hexpand [.obj [("id", .str "A")], .obj [("$ref", .str "pair")]]
  have hnamed : Resolution.NamedThroughout sampleFragments
      (sampleTeam "t" none [.obj [("$ref", .str "loop")]]) := by
    rintro d hd sect
    obtain rfl | ⟨_, ⟨_, hbase, -⟩, -⟩ := Relation.ReflTransGen.cases_head hd
    · refine Resolution.named_of_isWritable (fun raw hraw => ?_) fun _ _ => sampleFragments_writable
      cases sect <;> simp_all [sampleTeam, PerSection.of, Json.isWritable, Json.haveWritable]
    · cases hbase
  obtain ⟨-, hcircular⟩ :=
    (hdocuments (sampleTeam "t" none [.obj [("$ref", .str "loop")]]) _ .refl).2 hnamed
  refine ⟨(hspliced (hclean.1 (by rfl)) _).2 (by rfl), hcircular ⟨_, .root rfl, by simp⟩ ?_⟩
  have hloop : Resolution.fragmentSection sampleFragments .statuses "loop" =
      some (.arr [.obj [("id", .str "L")], .obj [("$ref", .str "loop")]]) := by rfl
  have hrefers : Resolution.RefersTo (.obj [("$ref", .str "loop")]) "loop" := ⟨_, rfl, by rfl⟩
  -- the fragment refers to itself, so it is met twice
  exact ⟨["loop", "loop"], _, .follow (List.mem_singleton_self _) hrefers hloop
    (.follow (by simp) hrefers hloop (.here _)), by simp⟩

/-- A document with a reference to a number of one digit more than can be written. -/
def longReference : TeamDocument :=
  sampleTeam "t" none [.obj [("$ref", Json.tooLong)]]

/-- The reference is to no fragment, and no issue says so: it ends the resolution. -/
theorem unnamed_reference :
    ¬ Resolution.WellReferenced {} .statuses (longReference.sections.of .statuses) ∧
      Source.resolve {} longReference = .error (.defect .unwritable) := by
  refine ⟨fun hwell => ?_, ?_⟩
  · obtain ⟨_, heq, hsound⟩ := hwell.sound [] _ (.here _) _ (List.mem_singleton_self _)
    cases heq
    obtain ⟨name, _, hname, -⟩ := hsound _ rfl
    cases hname
  · have hcause : ResolutionCause.unwritable .statuses ∈ (Resolution.expand {} .statuses
        Resolution.deepestReference [] (longReference.sections.of .statuses)).causes := by
      rw [Resolution.expand_eq]
      refine Resolution.mem_causes_expandWith (List.mem_singleton_self _) rfl ?_
      rw [Json.tooLong, Resolution.splice_of_number Json.isWritable_tooLong]
      exact List.mem_singleton_self _
    have hlineage : Resolution.lineage {} (Resolution.mostBases {}) [] longReference =
        .ok [longReference] :=
      Resolution.lineage_of_nodup (.root rfl) (List.nodup_singleton _) (Nat.le_add_left _ _)
    have hany : (Resolution.merge {} [longReference]).issues.any (·.cause.isUnwritable) :=
      List.any_eq_true.2 ⟨_, Resolution.mem_issues_merge (List.mem_singleton_self _) hcause, rfl⟩
    simp only [Source.resolve, hlineage, hany, if_true]

end Stageflow
