import Stageflow.Proofs.Identifiers
import Stageflow.Proofs.VersionHistories

/-!
# Rule books

The rules of an activated workflow have different ids, so no two share a watch of an item.
Automation keeps the rules of a version from their first use on; whatever has happened until then,
it keeps those of that version.

## Main statements

* `distinct_rules` — the rules that are built of a document have different ids.
* `RuleBook.rule?_of_mem` — then each is the rule that a watch of its id has.
* `System.Attained.book` — what automation holds as the rules of a version are its rules.
-/

namespace Stageflow

/-! ## Ids of rules -/

/-- The rules that are built of a document have different ids. -/
theorem distinct_rules {source : Source} {team : String} {version : Int} {w : Workflow}
    (h : source.build team version = .ok w) : (w.rules.map (·.id)).Nodup := (build_distinct h).rules

/-- Where rules have different ids, each is the rule of its id. -/
theorem RuleBook.rule?_of_mem {book : RuleBook} (distinct : (book.map (·.id)).Nodup) {rule : Rule}
    (h : rule ∈ book) : book.rule? rule.id = some rule := by
  have hfound : (book.rule? rule.id).isSome := List.find?_isSome.2 ⟨rule, by simpa using h, by simp⟩
  obtain ⟨other, hother⟩ := Option.isSome_iff_exists.1 hfound
  have hmem : other ∈ book := List.mem_reverse.1 (List.mem_of_find?_eq_some hother)
  have hid : other.id = rule.id := by simpa using List.find?_some hother
  rw [hother, List.inj_on_of_nodup_map distinct hmem h hid]

/-! ## Kept rules -/

/-- A step keeps the rule books, or opens that of a version. -/
theorem Step.rules {terms : Terms} {v v' : View} (h : Step terms v v') :
    v'.rules = v.rules ∨ ∃ team version w, v.registry.version? team version = some w ∧
      v'.rules = v.rules.put (team, version) w.rules := by
  cases h with
  | @learned w team version bound => exact .inr ⟨team, version, w, bound, rfl⟩
  | _ =>
    exact .inl (by simp [View.store, View.create, View.commit, View.log, View.heed, View.arm,
      View.collect, View.disarm, View.logAll])

/-- Whether every rule book holds the rules of its version. -/
structure View.WellRead (v : View) : Prop where
  coherent : v.registry.Coherent
  books : ∀ key book, v.rules.get? key = some book →
    ∃ w, v.registry.version? key.1 key.2 = some w ∧ book = w.rules

theorem View.WellRead.step {terms : Terms} {v v' : View} (hv : v.WellRead) (hs : Step terms v v') :
    v'.WellRead := by
  refine ⟨hs.coherent hv.coherent, ?_⟩
  have hkept (key : String × Int) (book : RuleBook) (hbook : v.rules.get? key = some book) :
      ∃ w, v'.registry.version? key.1 key.2 = some w ∧ book = w.rules := by
    obtain ⟨w, hw, rfl⟩ := hv.books key book hbook
    exact ⟨w, hs.version? hv.coherent hw, rfl⟩
  obtain heq | ⟨team, version, w, hw, heq⟩ := hs.rules
  · exact heq ▸ hkept
  · rw [heq]
    exact Table.forall_get?_put ⟨w, hs.version? hv.coherent hw, rfl⟩ fun key book _ =>
      hkept key book

/-- Whether a system has the versions of workflows and the rule books of some view that is reached
from a new system, and items that stand under their ids. That is all that is asked of a state in
which an event is taken in: within an operation, an item may be written already while not all
subscribers have been told. -/
structure System.Attained (s : System) : Prop where
  keyed : ∀ id item, s.items.get? id = some item → item.id = id
  reached : ∃ (start : System) (v : View), start.New ∧ start.registry.Coherent ∧
    start.automation.rules = [] ∧ Steps ⟨False, fun _ => False⟩ (start.view []) v ∧
      s.registry = v.registry ∧ s.automation.rules = v.rules

/-- Every session leads to such a state. -/
theorem attained_through {s : System} (new : s.New) (coherent : s.registry.Coherent)
    (unread : s.automation.rules = []) (ops : List Operation) : (s.through ops).Attained := by
  have hreaches : Reaches .loose s (s.through ops) := reaches_loose new.sound ops
  exact ⟨hreaches.sound.items, s, _, new, coherent, unread, hreaches.steps, rfl, rfl⟩

/-- What automation holds are the rules of versions. -/
theorem System.Attained.version {s : System} (h : s.Attained) {key : String × Int} {book : RuleBook}
    (known : s.automation.rules.get? key = some book) :
    ∃ w, s.registry.version? key.1 key.2 = some w ∧ book = w.rules := by
  obtain ⟨start, v, new, coherent, unread, steps, hregistry, hrules⟩ := h.reached
  have hstart : (start.view []).WellRead :=
    ⟨coherent, fun key book hbook => by simp [System.view, unread] at hbook⟩
  have hend : v.WellRead := steps.invariant (fun _ _ => View.WellRead.step) hstart
  rw [hregistry]
  exact hend.books key book (hrules ▸ known)

/-- What automation holds as the rules of a version are its rules. -/
theorem System.Attained.book {s : System} (h : s.Attained) {team : String} {version : Int}
    {w : Workflow} (bound : s.registry.version? team version = some w) {book : RuleBook}
    (known : s.automation.rules.get? (team, version) = some book) : book = w.rules := by
  obtain ⟨w', hw', rfl⟩ := h.version known
  rw [Option.some.inj (hw'.symm.trans bound)]

/-- The rule of a watch is one of the version that the watch has. -/
theorem System.Attained.rule {s : System} (h : s.Attained) {watch : Watch} {rule : Rule}
    (hrule : Run.ruleOf? s.automation watch = some rule) :
    ∃ w, s.registry.version? watch.team watch.workflowVersion = some w ∧
      RuleBook.rule? w.rules watch.rule = some rule := by
  obtain ⟨book, hbook, hfound⟩ := Option.bind_eq_some_iff.1 hrule
  obtain ⟨w, hw, rfl⟩ := h.version hbook
  exact ⟨w, hw, hfound⟩

end Stageflow
