import Stageflow.Proofs.ItemSteps
import Stageflow.Proofs.Vaults

/-!
# The versions a registry holds

A registry that started empty holds one version for each successful activation, numbered from one
for each team, and the last one is active. `Registry.Records` says so of a registry and the history
of its activations; a publication of the next version adds to the history, and everything else that
is done to documents leaves both as they are.

The registry may work over any store of versions that takes what it is handed, or over none.

## Main statement

* `versions_through` — the versions after any session of edits, checks and activations.
-/

namespace Stageflow

/-- Successful activations, in order, each with the team it was asked for. -/
abbrev History := List (String × Workflow)

namespace History

/-- The workflows that the activations of a team returned, in order. -/
def of (history : History) (team : String) : List Workflow :=
  (history.filter (·.1 = team)).map (·.2)

variable (history later : History) (team : String)

@[simp] theorem of_nil : of [] team = [] := rfl

theorem of_append : of (history ++ later) team = history.of team ++ later.of team := by
  simp [of]

theorem of_singleton (w : Workflow) (other : String) :
    of [(team, w)] other = if other = team then [w] else [] := by
  by_cases h : other = team
  · simp [of, h]
  · simp [of, h, Ne.symm h]

end History

/-! ## Registries -/

/-- A registry that holds what a history tells: for each team the versions from one on, in the order
of its activations, the last one active. -/
structure Registry.Records (registry : Registry) (history : History) : Prop where
  numbered : ∀ (team : String) (k : Nat) w, (history.of team)[k]? = some w →
    w.team = team ∧ w.version = k + 1
  versions : ∀ (team : String) (version : Int) w,
    registry.versions.get? (team, version) = some w ↔
      ∃ k : Nat, version = k + 1 ∧ (history.of team)[k]? = some w
  active : ∀ team, registry.active.get? team = (history.of team).getLast?

namespace Registry

variable {registry : Registry} {history : History}

/-- What the search for the greatest version of a team finds is where it started, or a version. -/
theorem foldl_versions_mem (team : String) (versions : Versions) (start : Int) :
    let last := versions.foldl (fun n p => if p.1.1 = team then max n p.1.2 else n) start
    last = start ∨ (team, last) ∈ versions.keys := by
  induction versions generalizing start with
  | nil => exact .inl rfl
  | cons p rest ih =>
    simp only [List.foldl_cons, Table.keys, List.map_cons, List.mem_cons]
    obtain heq | hmem := ih (if p.1.1 = team then max start p.1.2 else start)
    · rw [heq]
      by_cases hteam : p.1.1 = team
      · obtain hmax | hmax : max start p.1.2 = start ∨ max start p.1.2 = p.1.2 := by omega
        · simp [hteam, hmax]
        · exact .inr (.inl (by simp [← hteam, hmax]))
      · simp [hteam]
    · exact .inr (.inr hmem)

/-- The next version of a team is one more than its activations so far. -/
theorem Records.nextVersion_eq (h : registry.Records history) (team : String) :
    registry.nextVersion team = (history.of team).length + 1 := by
  have hle : registry.nextVersion team ≤ (history.of team).length + 1 := by
    obtain hstart | hmem := foldl_versions_mem team registry.versions 0
    · unfold nextVersion
      omega
    · obtain ⟨w, hw⟩ := Table.exists_get? hmem
      obtain ⟨k, hversion, hk⟩ := (h.versions team _ w).1 hw
      obtain ⟨hlt, -⟩ := List.getElem?_eq_some_iff.1 hk
      unfold nextVersion
      omega
  have hge : (history.of team).length + 1 ≤ registry.nextVersion team := by
    cases hlength : (history.of team).length with
    | zero =>
      have hstart : 0 ≤ registry.versions.foldl
          (fun n p => if p.1.1 = team then max n p.1.2 else n) 0 :=
        (le_foldl_versions registry.versions 0).1
      unfold nextVersion
      omega
    | succ n =>
      have hn : n < (history.of team).length := by omega
      have := lt_nextVersion ((h.versions team (n + 1) _).2
        ⟨n, rfl, List.getElem?_eq_getElem hn⟩)
      omega
  omega

/-- An entry of a list with one more at its end. -/
theorem getElem?_concat {α : Type} {xs : List α} {x y : α} {k : Nat} :
    (xs ++ [x])[k]? = some y ↔ xs[k]? = some y ∨ k = xs.length ∧ y = x := by
  grind

/-- Taking the next version of a team into memory adds it to the history. -/
theorem Records.enter (h : registry.Records history) {w : Workflow}
    (next : w.version = registry.nextVersion w.team) :
    (registry.enter w).Records (history ++ [(w.team, w)]) := by
  rw [h.nextVersion_eq] at next
  have hself : History.of (history ++ [(w.team, w)]) w.team = history.of w.team ++ [w] := by
    simp [History.of_append, History.of_singleton]
  have hother {team : String} (hne : team ≠ w.team) :
      History.of (history ++ [(w.team, w)]) team = history.of team := by
    simp [History.of_append, History.of_singleton, hne]
  refine ⟨fun team k found hfound => ?_, fun team version found => ?_, fun team => ?_⟩
  · by_cases hteam : team = w.team
    · subst hteam
      rw [hself, getElem?_concat] at hfound
      obtain hold | ⟨rfl, rfl⟩ := hfound
      · exact h.numbered _ k found hold
      · exact ⟨rfl, next⟩
    · exact h.numbered team k found (hother hteam ▸ hfound)
  · simp only [Registry.enter, Table.get?_put, Prod.mk.injEq]
    by_cases hteam : team = w.team
    · subst hteam
      simp only [hself, getElem?_concat, true_and]
      split
      · rename_i hversion
        constructor
        · intro heq
          cases heq
          exact ⟨_, hversion.trans next, .inr ⟨rfl, rfl⟩⟩
        · rintro ⟨k, hk, hold | ⟨-, rfl⟩⟩
          · obtain ⟨hlt, -⟩ := List.getElem?_eq_some_iff.1 hold
            omega
          · rfl
      · rename_i hversion
        rw [h.versions]
        refine exists_congr fun k => and_congr_right fun hk => ?_
        have hlast : k ≠ (history.of w.team).length := by omega
        simp [hlast]
    · simp only [hteam, false_and, if_false, hother hteam]
      exact h.versions team version found
  · simp only [Registry.enter, Table.get?_put]
    by_cases hteam : team = w.team
    · subst hteam
      simp [hself]
    · simp only [hteam, if_false, hother hteam]
      exact h.active team

/-- Publishing the next version of a team adds it to the history. -/
theorem Records.publish (h : registry.Records history) {w : Workflow}
    (next : w.version = registry.nextVersion w.team) :
    (registry.publish w).Records (history ++ [(w.team, w)]) :=
  ⟨(h.enter next).numbered, (h.enter next).versions, (h.enter next).active⟩

/-- An empty registry holds what an empty history tells. -/
theorem records_nil (versions : registry.versions = []) (active : registry.active = []) :
    registry.Records [] := by
  refine ⟨by simp, by simp [versions], by simp [active]⟩

end Registry

/-! ## Activations -/

namespace Vaulted

variable {σ : Type} (vault : Option (Vault σ))

/-- The activations that succeed while teams are activated one after another. -/
def activationsOf (d : Vaulted σ) : List String → History
  | [] => []
  | team :: rest =>
    match activate vault d team with
    | (.ok w, d') => (team, w) :: activationsOf d' rest
    | (.error (.raised fault), d') =>
      if Run.isLocal fault then
        activationsOf { d' with system.journal := .notActivated team fault :: d'.system.journal }
          rest
      else []
    | (.error .hung, _) => []

/-- The activations that succeed while an operation is performed. -/
def activationsIn (d : Vaulted σ) : Operation → History
  | .activate team =>
    match activate vault d team with
    | (.ok w, _) => [(team, w)]
    | (.error _, _) => []
  | .activateAll => activationsOf vault d d.system.source.teamIds
  | _ => []

/-- The activations that succeed in a session. -/
def activations (d : Vaulted σ) : List Operation → History
  | [] => []
  | op :: ops => activationsIn vault d op ++ activations (perform vault d op) ops

end Vaulted

/-- A system whose registry holds what a history tells, and whose documents stand under their
ids. -/
structure System.Recorded (s : System) (history : History) : Prop where
  keyed : s.source.Keyed
  records : s.registry.Records history

namespace Run

variable {s : System} {history : History}

/-- What is built of a team bears its name. -/
theorem build_names {source : Source} (keyed : source.Keyed) {team : String} {version : Int}
    {w : Workflow} (h : source.build team version = .ok w) :
    w.team = team ∧ w.version = version := by
  obtain ⟨document, merged, hdocument, hmerged, hcompile⟩ := build_eq_ok.1 h
  obtain ⟨hteam, hversion⟩ := compile_names hcompile
  exact ⟨(hteam.trans (team_resolve hmerged)).trans (keyed team document hdocument), hversion⟩

theorem recorded_edit (h : s.Recorded history) {change : Source → Source}
    (hchange : ∀ source : Source, source.Keyed → (change source).Keyed) :
    (s.edit change).Recorded history := by
  unfold System.edit
  split
  · exact ⟨h.keyed, h.records⟩
  · exact ⟨hchange _ h.keyed, h.records⟩

theorem recorded_storeDocument (document : TeamDocument) (version : Int) :
    Stays (·.Recorded history) (fun _ => False) (storeDocument document version) := by
  refine .modify fun s h => ?_
  have hedit : (s.edit (·.putDocument document)).Recorded history :=
    recorded_edit h fun _ hsource => keyed_putDocument hsource document
  exact ⟨hedit.keyed, hedit.records⟩

end Run

/-! ## Sessions -/

/-- An operation on documents that activates no team leaves a registry as it is. -/
theorem System.Recorded.perform {s : System} {history : History} (h : s.Recorded history)
    {op : Operation} (documents : op.isOnDocuments) (one : ∀ team, op ≠ .activate team)
    (all : op ≠ .activateAll) : (op.perform.after s).Recorded history := by
  have hkept {action : Run Unit} (hstays : Run.Stays (·.Recorded history) (fun _ => False) action) :
      (action.after s).Recorded history :=
    (hstays s h).after fun _ => False.elim
  cases op with
  | activate team => exact absurd rfl (one team)
  | activateAll => exact absurd rfl all
  | putDocument raw =>
    exact hkept (.bind (.bind .ofReading fun _ => .bind .get fun _ =>
      .bind (Run.recorded_storeDocument _ _) fun _ => .pure) fun _ => .pure)
  | saveDocument raw expected =>
    refine hkept (.bind (.bind .ofReading fun document => .bind .get fun _ => ?_) fun _ => .pure)
    dsimp only
    split
    · exact .raise
    · exact .bind (Run.recorded_storeDocument _ _) fun _ => .pure
  | putFragment name fragment =>
    exact hkept (.modify fun _ hs => Run.recorded_edit hs fun _ hsource => hsource)
  | check team =>
    refine hkept (.bind (fun t ht => ?_) fun _ => .pure)
    obtain ⟨notices, hcheck⟩ := Run.check_apply team t
    unfold Run.Ends
    rw [hcheck]
    cases t.source.check team <;> exact ⟨ht.keyed, ht.records⟩
  | _ => cases documents

namespace Vaulted

variable {σ : Type} {vault : Option (Vault σ)} {d : Vaulted σ} {history : History}

/-- An activation that succeeds adds to the history. -/
theorem recorded_activate (takes : ∀ v ∈ vault, v.Takes) (h : d.system.Recorded history)
    {team : String} {w : Workflow} {d' : Vaulted σ} (hw : activate vault d team = (.ok w, d')) :
    d'.system.Recorded (history ++ [(team, w)]) := by
  obtain ⟨notices, held, hactivate⟩ := activate_taken takes d team
  cases hbuild : d.system.source.build team (d.system.registry.nextVersion team) with
  | error fault => cases hw.symm.trans (hactivate.trans (by rw [hbuild]))
  | ok built =>
    cases hw.symm.trans (hactivate.trans (by rw [hbuild]))
    obtain ⟨rfl, hversion⟩ := Run.build_names h.keyed hbuild
    exact ⟨h.keyed, h.records.enter hversion⟩

/-- An activation that fails changes nothing but the journal. -/
theorem activate_eq_error (takes : ∀ v ∈ vault, v.Takes) {team : String} {halt : Halt}
    {d' : Vaulted σ} (h : activate vault d team = (.error halt, d')) :
    (∃ fault, halt = .raised fault) ∧
      d' = { d with system.journal := d'.system.journal } := by
  obtain ⟨notices, held, hactivate⟩ := activate_taken takes d team
  cases hbuild : d.system.source.build team (d.system.registry.nextVersion team) with
  | error fault =>
    cases h.symm.trans (hactivate.trans (by rw [hbuild]))
    exact ⟨⟨fault, rfl⟩, rfl⟩
  | ok built => cases h.symm.trans (hactivate.trans (by rw [hbuild]))

/-- Activating teams one after another adds those activations to the history that succeed. -/
theorem recorded_activateTeams (takes : ∀ v ∈ vault, v.Takes) (h : d.system.Recorded history)
    (teams : List String) :
    (activateTeams vault d teams).system.Recorded (history ++ activationsOf vault d teams) := by
  induction teams generalizing d history with
  | nil => simpa [activateTeams, activationsOf] using h
  | cons team rest ih =>
    rcases hactivate : activate vault d team with ⟨result, d'⟩
    simp only [activateTeams, activationsOf, hactivate]
    cases result with
    | ok w => simpa using ih (recorded_activate takes h hactivate)
    | error halt =>
      obtain ⟨⟨fault, rfl⟩, hkept⟩ := activate_eq_error takes hactivate
      have hrecorded : d'.system.Recorded history := hkept ▸ ⟨h.keyed, h.records⟩
      by_cases hlocal : Run.isLocal fault
      · simp only [hlocal, if_true]
        exact ih ⟨hrecorded.keyed, hrecorded.records⟩
      · simpa [hlocal] using hrecorded

/-- An operation on documents adds the activations to the history that succeed. -/
theorem recorded_perform (takes : ∀ v ∈ vault, v.Takes) (h : d.system.Recorded history)
    {op : Operation} (documents : op.isOnDocuments) :
    (perform vault d op).system.Recorded (history ++ activationsIn vault d op) := by
  cases op with
  | activate team =>
    rcases hactivate : activate vault d team with ⟨result, d'⟩
    simp only [perform, activationsIn, hactivate]
    cases result with
    | ok w => exact recorded_activate takes h hactivate
    | error halt =>
      obtain ⟨-, hkept⟩ := activate_eq_error takes hactivate
      rw [List.append_nil, hkept]
      exact ⟨h.keyed, h.records⟩
  | activateAll => exact recorded_activateTeams takes h d.system.source.teamIds
  | putDocument | saveDocument | putFragment | check =>
    exact (List.append_nil history).symm ▸ h.perform documents (by simp) (by simp)
  | _ => cases documents

/-- A session on documents adds its successful activations to the history. -/
theorem recorded_through (takes : ∀ v ∈ vault, v.Takes) (h : d.system.Recorded history)
    {ops : List Operation} (documents : ∀ op ∈ ops, op.isOnDocuments) :
    (through vault d ops).system.Recorded (history ++ activations vault d ops) := by
  induction ops generalizing d history with
  | nil => simpa [through, activations] using h
  | cons op ops ih =>
    obtain ⟨hop, hops⟩ := List.forall_mem_cons.1 documents
    simpa [through, activations] using ih (recorded_perform takes h hop) hops

end Vaulted

/-- A system that works over the store in memory adds its successful activations as well. -/
theorem System.Recorded.through {s : System} {history : History} (h : s.Recorded history)
    {ops : List Operation} (documents : ∀ op ∈ ops, op.isOnDocuments) :
    (s.through ops).Recorded
      (history ++ (Vaulted.ofSystem s).activations (some .memory) ops) := by
  have hrecorded := Vaulted.recorded_through Vault.takes_memory (d := Vaulted.ofSystem s)
    ⟨h.keyed, h.records.numbered, h.records.versions, h.records.active⟩ documents
  rw [Vaulted.through_ofSystem s documents] at hrecorded
  exact ⟨hrecorded.keyed, hrecorded.records.numbered, hrecorded.records.versions,
    hrecorded.records.active⟩

end Stageflow
