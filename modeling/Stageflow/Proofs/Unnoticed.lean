import Stageflow.Proofs.ItemSteps
import Stageflow.Proofs.Publications
import Stageflow.Proofs.Twins.Session

/-!
# Activations that nothing notices

Items are bound to versions that stay, and so is what is measured of them. So operations on items go
on as if documents were not edited and teams not activated meanwhile: the system with these edits
and activations is in step with the one without them.
-/

namespace Stageflow

/-! ## Operations and their results -/

namespace Operation

/-- Whether an operation is on stored items, or lets time go by, and binds no item to a version. -/
def isOnItems : Operation → Bool
  | .move .. | .signOff .. | .setCriterion .. | .choices _ | .gate .. | .ingest _ | .disarm ..
  | .tick _ | .advance _ => true
  | _ => false

/-- The answer of an operation, or how it ends without one. -/
def result (op : Operation) (s : System) : Except Halt Answer :=
  match op.answer Run.publish s with
  | .ok answer _ => .ok answer
  | .error halt _ => .error halt

end Operation

/-- The results of the operations on items in a session. -/
def System.results (s : System) : List Operation → List (Except Halt Answer)
  | [] => []
  | op :: ops =>
    if op.isOnItems then op.result s :: (op.perform.after s).results ops
    else (op.perform.after s).results ops

/-! ## Versions that stay -/

/-- Whether a registry has the versions of another one, under their numbers. -/
structure Registry.Extends (registry' registry : Registry) : Prop where
  coherent : registry'.Coherent
  numbered : ∀ team version w, registry'.versions.get? (team, version) = some w →
    w.version = version
  kept : ∀ team version w, registry.version? team version = some w →
    registry'.version? team version = some w

/-- The terms of the items of a system: they are bound to versions of their own teams. -/
def System.pact (s : System) : Pact where
  bound id team version :=
    (∃ item, s.items.get? id = some item ∧ item.team = team) ∧
      (s.registry.version? team version).isSome
  reacts _ := True
  asks _ := True
  deepens _ := trivial
  mixes h h' := by
    obtain ⟨⟨item, hitem, rfl⟩, -⟩ := h
    obtain ⟨⟨item', hitem', rfl⟩, hversion⟩ := h'
    cases hitem.symm.trans hitem'
    exact ⟨⟨item, hitem, rfl⟩, hversion⟩

/-- What holds between operations: no action is running, documents stand under their names, and
items and tracks are bound to versions that were published. -/
structure System.Anchored (s : System) : Prop where
  idle : s.runner.inside = false
  source : s.source.Keyed
  registry : s.registry.Extends s.registry
  items : ∀ id item, s.items.get? id = some item → item.id = id ∧ s.pact.Takes item
  tracks : ∀ p ∈ s.metrics.tracks, s.pact.bound p.1 p.2.team p.2.workflowVersion

/-- Whether a system is another one but for documents, notes and further versions. -/
structure System.Shadows (t s : System) : Prop where
  same : t = s.behind t []
  source : t.source.Keyed
  registry : t.registry.Extends s.registry

namespace Registry.Extends

variable {registry registry' registry'' : Registry}

theorem publish (h : registry'.Extends registry) {w : Workflow}
    (next : w.version = registry'.nextVersion w.team) :
    (registry'.publish w).Extends registry where
  coherent := h.coherent.publish w
  numbered team version found hfound := by
    simp only [Registry.publish, Table.get?_put] at hfound
    split at hfound
    · rename_i hkey
      cases hfound
      exact (Prod.mk.inj hkey).2.symm
    · exact h.numbered team version found hfound
  kept team version found hfound := by
    have hkept := h.kept team version found hfound
    rw [h.coherent.version?_eq] at hkept
    rw [(h.coherent.publish w).version?_eq]
    exact get?_publish next hkept

theorem of_published {teams : String → Prop} (h : registry'.Extends registry)
    (published : Relation.ReflTransGen (Registry.Publishes teams) registry' registry'') :
    registry''.Extends registry := by
  induction published with
  | refl => exact h
  | tail _ hstep ih =>
    obtain ⟨w, -, next, rfl⟩ := hstep
    exact ih.publish next

end Registry.Extends

/-! ## Operations in step -/

namespace System.Anchored

variable {s t : System} {op : Operation}

theorem shadows_self (h : s.Anchored) : s.Shadows s := ⟨rfl, h.source, h.registry⟩

theorem inStep (h : s.Anchored) (shadows : t.Shadows s) : s.pact.InStep s t false s t :=
  ⟨s, [], rfl, shadows.same, rfl, h.idle, rfl, id, fun _ => id, h.items, h.tracks,
    fun _ _ => trivial,
    by simp⟩

theorem agrees (shadows : t.Shadows s) : s.pact.Agrees s t := by
  rintro id team version ⟨-, hversion⟩
  obtain ⟨w, hw⟩ := Option.isSome_iff_exists.1 hversion
  rw [hw, shadows.registry.kept team version w hw]

theorem rebinds (h : s.Anchored) : s.pact.Rebinds s where
  found {id team version version' w} hbound hw := by
    refine ⟨hbound.1, ?_⟩
    rw [h.registry.coherent.version?_eq] at hw ⊢
    rw [h.registry.numbered team version' w hw, hw]
    rfl
  active {id team version w} hbound hw := by
    refine ⟨hbound.1, ?_⟩
    rw [h.registry.coherent.version?_eq, (h.registry.coherent.active team w hw).2]
    rfl

/-- A system in step with an anchored one is anchored. -/
theorem of_holds (h : s.Anchored) {u : System} {notices : List Notice}
    (hu : s.pact.Holds s false u notices) : (u.behind s notices).Anchored where
  idle := hu.inside
  source := h.source
  registry := h.registry
  items id item hitem := by
    obtain ⟨rfl, -, hversion⟩ := hu.items id item hitem
    exact ⟨rfl, ⟨item, hitem, rfl⟩, hversion⟩
  tracks p hp := by
    -- The item of a track was known before, and it is still there with the same team.
    obtain ⟨⟨item, hitem, hteam⟩, hversion⟩ := hu.tracks p hp
    have hknown : u.items.has p.1 := hu.known p.1 (by rw [Table.has, hitem]; rfl)
    obtain ⟨item', hitem'⟩ := Option.isSome_iff_exists.1 hknown
    obtain ⟨hid, ⟨item'', hitem'', hteam''⟩, -⟩ := hu.items p.1 item' hitem'
    rw [hid] at hitem''
    cases hitem.symm.trans hitem''
    exact ⟨⟨item', hitem', hteam''.symm.trans hteam⟩, hversion⟩

theorem alike (h : s.Anchored) (shadows : t.Shadows s) (admits : s.pact.Admits s t op) :
    Run.Alike (s.pact.InStep s t false) (false = true) (fun _ => True)
      (op.answer Run.publish s) (op.answer Run.publish t) :=
  Run.twins_answer (agrees shadows) (Run.announces_publish (agrees shadows))
    (fun _ _ _ _ _ => trivial) admits s t (h.inStep shadows)

theorem admits_of_isOnItems (onItems : op.isOnItems) : s.pact.Admits s t op := by
  cases op with
  | signOff | setCriterion | choices | gate | disarm | advance => trivial
  | move | ingest | tick => exact fun _ _ _ => trivial
  | _ => cases onItems

/-- An operation on items has the same result, and leads to a system that is in step again. -/
theorem onItems (h : s.Anchored) (shadows : t.Shadows s) (onItems : op.isOnItems) :
    op.result t = op.result s ∧ (op.perform.after s).Anchored ∧
      (op.perform.after t).Shadows (op.perform.after s) := by
  have hrun := h.alike shadows (admits_of_isOnItems onItems)
  rw [Operation.after_perform, Operation.after_perform]
  obtain ⟨u, notices, hs, ht, hu⟩ := hrun.after
  refine ⟨?_, hs ▸ h.of_holds hu, ?_⟩
  · unfold Operation.result
    generalize op.answer Run.publish s = r, op.answer Run.publish t = r' at hrun
    cases hrun <;> rfl
  · rw [hs, ht]
    exact ⟨rfl, shadows.source, shadows.registry⟩

end System.Anchored

/-- Operations on documents leave a system in step. -/
theorem System.Shadows.onDocuments {s t : System} {op : Operation} (h : t.Shadows s)
    (onDocuments : op.isOnDocuments) : (op.perform.after t).Shadows s := by
  obtain ⟨keyed, published, -, rest⟩ := Operation.prepares_perform onDocuments h.source
  refine ⟨?_, keyed, h.registry.of_published published⟩
  rw [rest, h.same]
  rfl

/-! ## Reachable systems -/

namespace System.Anchored

variable {s t : System} {op : Operation}

/-- Another system with the same items and tracks, and no fewer versions, is anchored too. -/
theorem of_shadows (h : s.Anchored) (shadows : t.Shadows s) : t.Anchored := by
  have hitems : t.items = s.items := (congrArg System.items shadows.same).trans rfl
  have hmetrics : t.metrics = s.metrics := (congrArg System.metrics shadows.same).trans rfl
  have hrunner : t.runner = s.runner := (congrArg System.runner shadows.same).trans rfl
  have hbound {id team : String} {version : Int} (hs : s.pact.bound id team version) :
      t.pact.bound id team version := by
    obtain ⟨hitem, hversion⟩ := hs
    obtain ⟨w, hw⟩ := Option.isSome_iff_exists.1 hversion
    exact ⟨hitems ▸ hitem, Option.isSome_iff_exists.2 ⟨w, shadows.registry.kept team version w hw⟩⟩
  refine ⟨hrunner ▸ h.idle, shadows.source, ?_, fun id item hitem => ?_, fun p hp => ?_⟩
  · exact ⟨shadows.registry.coherent, shadows.registry.numbered, fun _ _ _ => id⟩
  · obtain ⟨hid, htakes⟩ := h.items id item (hitems ▸ hitem)
    exact ⟨hid, hbound htakes⟩
  · exact hbound (h.tracks p (hmetrics ▸ hp))

theorem leads_publish (h : s.Anchored) {m : Moved} (tells : s.pact.Tells m) :
    Run.Leads Anchored (Run.publish (.moved m)) s fun _ t => t.Anchored := by
  refine (Run.announces_publish (agrees h.shadows_self) false (.moved m) tells
    (fun _ _ _ => trivial) s s (h.inStep h.shadows_self)).leads ?_
  rintro _ ⟨u, notices, rfl, -, hu⟩
  exact h.of_holds hu

/-- A new item is bound to the active version of its team. -/
theorem stored (h : s.Anchored) (item : Item) {w : Workflow}
    (active : s.registry.active.get? item.team = some w)
    (version : item.workflowVersion = w.version) (free : s.items.get? item.id = none) (nextId : Nat)
    (journal : List Notice) :
    let s₁ := { s with nextId, items := s.items.put item.id item, journal }
    s₁.Anchored ∧ s₁.pact.Takes item := by
  intro s₁
  have hnew : s₁.pact.Takes item := by
    refine ⟨⟨item, Table.get?_put_self .., rfl⟩, ?_⟩
    rw [version, h.registry.coherent.version?_eq, (h.registry.coherent.active _ w active).2]
    rfl
  have hbound {id team : String} {version : Int} (hs : s.pact.bound id team version) :
      s₁.pact.bound id team version := by
    obtain ⟨⟨other, hother, hteam⟩, hversion⟩ := hs
    refine ⟨⟨other, ?_, hteam⟩, hversion⟩
    have hne : id ≠ item.id := by
      rintro rfl
      cases free.symm.trans hother
    exact (Table.get?_put_of_ne hne ..).trans hother
  refine ⟨⟨h.idle, h.source, h.registry, ?_, fun p hp => hbound (h.tracks p hp)⟩, hnew⟩
  refine Table.forall_get?_put ⟨rfl, hnew⟩ fun id other _ hother => ?_
  obtain ⟨hid, htakes⟩ := h.items id other hother
  exact ⟨hid, hbound htakes⟩

theorem leads_createItem (h : s.Anchored) (request : Run.NewItem) :
    Run.Leads Anchored (Run.createItem Run.publish request) s fun _ t => t.Anchored := by
  simp only [Run.createItem, Run.leads_bind, Run.leads_get, Run.leads_ofExcept,
    Registry.activeFor]
  cases hw : s.registry.active.get? request.team with
  | none => exact h
  | some w =>
    refine (Run.leads_levelFor h).mono ?_
    rintro complexity t ⟨rfl, -⟩
    cases hstage : w.stageOf w.initialStatus with
    | error _ => exact h
    | ok stage =>
      refine Run.leads_idFor.mono ?_
      rintro id _ ⟨nextId, rfl⟩
      simp only [Items.create, Workflow.newItem]
      by_cases hid : t.items.has id
      · simp only [hid, if_true]
        exact ⟨h.idle, h.source, h.registry, h.items, h.tracks⟩
      · have hfree : t.items.get? id = none := by simpa [Table.has] using hid
        have hteam : w.team = request.team := (h.registry.coherent.active _ w hw).1
        rw [← hteam] at hw ⊢
        simp only [hid, Bool.false_eq_true, if_false, Run.leads_modify, Run.leads_note,
          Run.leads_pure]
        obtain ⟨hanchored, htakes⟩ := h.stored
          { w.newItem id complexity request.attributes stage.id t.clock with version := 1 }
          hw rfl hfree nextId _
        exact hanchored.leads_publish htakes

theorem perform (h : s.Anchored) (unforged : op.isUnforged) : (op.perform.after s).Anchored := by
  rw [Operation.after_perform]
  have other (admits : s.pact.Admits s s op) : ((op.answer Run.publish).after s).Anchored := by
    obtain ⟨u, notices, hu, -, holds⟩ := (h.alike h.shadows_self admits).after
    exact hu ▸ h.of_holds holds
  have hdocuments (onDocuments : op.isOnDocuments) :
      ((op.answer Run.publish).after s).Anchored := by
    rw [← Operation.after_perform]
    exact h.of_shadows (h.shadows_self.onDocuments onDocuments)
  cases op with
  | create request =>
    refine Run.Leads.after (I := Anchored) ?_
    exact Run.leads_bind.2 ((h.leads_createItem request).mono fun _ _ ht => ht)
  | putDocument | saveDocument | putFragment | activate | activateAll | check =>
    exact hdocuments rfl
  | migrate => exact other ⟨rfl, h.rebinds⟩
  | act => exact other ⟨trivial, fun _ _ _ => trivial⟩
  | checkThresholds | move | ingest | tick => exact other fun _ _ _ => trivial
  | deliver event | publish event =>
    cases event with
    | moved m => cases unforged
    | signal signal => exact other ⟨trivial, fun _ _ _ => trivial⟩
  | signOff | setCriterion | choices | gate | disarm | advance | startEvaluator | stopEvaluator =>
    exact other trivial

theorem through (h : s.Anchored) {ops : List Operation} (unforged : ∀ op ∈ ops, op.isUnforged) :
    (s.through ops).Anchored := by
  induction ops generalizing s with
  | nil => exact h
  | cons op rest ih =>
    obtain ⟨hop, hrest⟩ := List.forall_mem_cons.1 unforged
    exact ih (h.perform hop) hrest

end System.Anchored

/-- A new system without versions, in which nothing has been measured. -/
theorem System.New.anchored {s : System} (new : s.New) (idle : s.runner.inside = false)
    (unpublished : s.registry = {}) (unmeasured : s.metrics.tracks = []) : s.Anchored where
  idle
  source := new.source
  registry := by
    rw [unpublished]
    exact ⟨Registry.coherent_empty, fun _ _ _ h => (nomatch h), fun _ _ _ => id⟩
  items id item h := by simp [new.items] at h
  tracks p h := by simp [unmeasured] at h

/-! ## Sessions -/

/-- A session with operations on documents goes as the one without them. -/
theorem System.Shadows.through {s t : System} (h : t.Shadows s) (anchored : s.Anchored)
    {ops : List Operation} (mixed : ∀ op ∈ ops, op.isOnItems ∨ op.isOnDocuments) :
    t.results ops = s.results (ops.filter (·.isOnItems)) ∧
      (t.through ops).Shadows (s.through (ops.filter (·.isOnItems))) := by
  induction ops generalizing s t with
  | nil => exact ⟨rfl, h⟩
  | cons op rest ih =>
    obtain ⟨hop, hrest⟩ := List.forall_mem_cons.1 mixed
    cases onItems : op.isOnItems with
    | true =>
      obtain ⟨hresult, hanchored, hshadows⟩ := anchored.onItems h onItems
      obtain ⟨hresults, hend⟩ := ih hshadows hanchored hrest
      simp only [System.results, List.filter_cons, onItems, if_true, hresult, hresults]
      exact ⟨trivial, hend⟩
    | false =>
      have hshadows := h.onDocuments (hop.resolve_left (by simp [onItems]))
      obtain ⟨hresults, hend⟩ := ih hshadows anchored hrest
      simp only [System.results, List.filter_cons, onItems, Bool.false_eq_true, if_false, hresults]
      exact ⟨trivial, hend⟩

/-- Editing documents and activating teams changes nothing for items that are there: the operations
on them have the same results, and lead to the same items, watches, records and metrics. -/
theorem activations_unnoticed {s : System} (new : s.New) (idle : s.runner.inside = false)
    (unpublished : s.registry = {}) (unmeasured : s.metrics.tracks = []) {before : List Operation}
    (unforged : ∀ op ∈ before, op.isUnforged) {ops : List Operation}
    (mixed : ∀ op ∈ ops, op.isOnItems ∨ op.isOnDocuments) :
    let t := s.through before
    let plain := ops.filter (·.isOnItems)
    t.results ops = t.results plain ∧
      (t.through ops).items = (t.through plain).items ∧
      (t.through ops).automation = (t.through plain).automation ∧
      (t.through ops).records = (t.through plain).records ∧
      (t.through ops).metrics = (t.through plain).metrics ∧
      (t.through ops).alerts = (t.through plain).alerts := by
  intro t plain
  have ht : t.Anchored := (new.anchored idle unpublished unmeasured).through unforged
  obtain ⟨hresults, hend⟩ := ht.shadows_self.through ht mixed
  have hsame {α : Type} (f : System → α)
      (hf : ∀ s base notices, f (System.behind s base notices) = f s) :
      f (t.through ops) = f (t.through plain) :=
    (congrArg f hend.same).trans (hf ..)
  exact ⟨hresults, hsame (·.items) fun _ _ _ => rfl, hsame (·.automation) fun _ _ _ => rfl,
    hsame (·.records) fun _ _ _ => rfl, hsame (·.metrics) fun _ _ _ => rfl,
    hsame (·.alerts) fun _ _ _ => rfl⟩

/-- An item moves while its team gets a rule that would move it on, and an activation fails. -/
def revisedMeanwhile : List Operation :=
  [.move "i" (.str "B") {}, .putDocument (sampleDocument [onwardRule "C" "D"] []), .activate "t",
    .activate "nobody", .move "i" (.str "C") {}, .tick none]

theorem activations_unnoticed_revised :
    let t := System.through {} (sampleSession [] ++ [.create { team := "t", id := some "i" }])
    let plain : List Operation := [.move "i" (.str "B") {}, .move "i" (.str "C") {}, .tick none]
    ((t.through revisedMeanwhile).registry.active.get? "t").map (·.rules.length) = some 1 ∧
      ((t.through revisedMeanwhile).items.get? "i").map (·.status) = some "C" ∧
      t.results revisedMeanwhile = t.results plain ∧
      (t.through revisedMeanwhile).items = (t.through plain).items := by
  intro t plain
  have hactive : ((t.through revisedMeanwhile).registry.active.get? "t").map (·.rules.length) =
      some 1 := by decide +kernel
  have hstatus : ((t.through revisedMeanwhile).items.get? "i").map (·.status) = some "C" := by
    decide +kernel
  have hunforged : ∀ op ∈ sampleSession [] ++ [.create { team := "t", id := some "i" }],
      op.isUnforged := by decide +kernel
  have hmixed : ∀ op ∈ revisedMeanwhile, op.isOnItems ∨ op.isOnDocuments := by decide +kernel
  obtain ⟨hresults, hitems, -⟩ :=
    activations_unnoticed (System.new_default {}) rfl rfl rfl hunforged hmixed
  exact ⟨hactive, hstatus, hresults, hitems⟩

end Stageflow
