import Stageflow.Proofs.ItemSteps
import Stageflow.Proofs.Publications
import Stageflow.System.Archive

/-!
# Versions that registries share

A registry numbers versions by its own memory. As long as it has all saved versions of a team there,
its next version is a new one, and what was published stays. A registry that does not, because it is
new or was closed, publishes a version anew that others bound their items to.
-/

namespace Stageflow

open Run

/-! ## Registries that know what is saved -/

namespace Registry

variable {teams : String → Prop} {registry registry' : Registry}

/-- Whether a registry has all saved versions of a team in its memory. -/
def Knows (registry : Registry) (team : String) : Prop :=
  ∀ version w, registry.saved.get? (team, version) = some w →
    registry.versions.get? (team, version) = some w

/-- Whether all that a registry has in its memory is saved. -/
def Backed (registry : Registry) : Prop :=
  ∀ key w, registry.versions.get? key = some w → registry.saved.get? key = some w

/-- What activations through a registry lead to while it knows its teams. -/
structure Grows (teams : String → Prop) (registry registry' : Registry) : Prop where
  knows : ∀ team, teams team → registry'.Knows team
  backed : registry'.Backed
  kept : ∀ key w, registry.saved.get? key = some w → registry'.saved.get? key = some w

/-- A registry that knows a team publishes a version that is not saved yet. -/
theorem Grows.publish (h : registry.Grows teams registry') {w : Workflow} (hteam : teams w.team)
    (next : w.version = registry'.nextVersion w.team) :
    registry.Grows teams (registry'.publish w) := by
  have hfree : registry'.saved.get? (w.team, w.version) = none := by
    refine Option.eq_none_iff_forall_ne_some.2 fun found hfound => ?_
    have := lt_nextVersion (h.knows _ hteam _ _ hfound)
    omega
  refine ⟨fun team hknown version found hfound => ?_, fun key found hfound => ?_,
    fun key found hfound => ?_⟩
  · simp only [Registry.publish, Table.get?_put] at hfound ⊢
    split at hfound
    · rename_i hkey
      rw [if_pos hkey, hfound]
    · rename_i hkey
      rw [if_neg hkey]
      exact h.knows team hknown version found hfound
  · simp only [Registry.publish, Table.get?_put] at hfound ⊢
    split at hfound
    · rename_i hkey
      rw [if_pos hkey, hfound]
    · rename_i hkey
      rw [if_neg hkey]
      exact h.backed key found hfound
  · have hkept := h.kept key found hfound
    have hne : key ≠ (w.team, w.version) := by
      rintro rfl
      rw [hfree] at hkept
      cases hkept
    exact (Table.get?_put_of_ne hne ..).trans hkept

theorem grows_of_published (knows : ∀ team, teams team → registry.Knows team)
    (backed : registry.Backed)
    (published : Relation.ReflTransGen (Registry.Publishes teams) registry registry') :
    registry.Grows teams registry' := by
  induction published with
  | refl => exact ⟨knows, backed, fun _ _ h => h⟩
  | tail _ hlast ih =>
    obtain ⟨w, hteam, next, rfl⟩ := hlast
    exact ih.publish hteam next

end Registry

/-! ## Errands -/

namespace Errand

/-- The teams that an errand may activate. -/
def teams : Errand → String → Prop
  | .activate _ team => (· = team)
  | .activateAll _ => fun _ => True
  | _ => fun _ => False

/-- Whether an errand activates teams only through a registry that knows them. -/
def Informed (errand : Errand) (archive : Archive) : Prop :=
  ∀ team, errand.teams team → (archive.registry errand.registry).Knows team

/-- Whether an errand leaves publishing to one registry and does not close that one. -/
def leavesTo (i : Nat) : Errand → Bool
  | .activate j _ | .activateAll j => j = i
  | .close j => j ≠ i
  | _ => true

/-- Errands publish versions of their teams, unless they close a registry. -/
theorem prepares {s : System} {errand : Errand} (h : ∀ i, errand ≠ .close i) :
    Stays (s.Prepares errand.teams) (fun _ => False) errand.perform := by
  cases errand with
  | putDocument raw => exact .bind (prepares_putDocument raw) fun _ => .pure
  | saveDocument raw expected => exact .bind (prepares_saveDocument raw expected) fun _ => .pure
  | putFragment name fragment => exact prepares_putFragment name fragment
  | activate i team => exact .bind (prepares_activate rfl) fun _ => .pure
  | activateAll i => exact .bind (prepares_activateAll fun _ => trivial) fun _ => .pure
  | close i => exact absurd rfl (h i)

/-- A registry that knows all teams is informed. -/
theorem informed_of_knows {archive : Archive} {i : Nat}
    (knows : ∀ team, (archive.registry i).Knows team) {errand : Errand} (h : errand.leavesTo i) :
    errand.Informed archive := by
  intro team hteam
  cases errand with
  | putDocument | saveDocument | putFragment | close => exact hteam.elim
  | activate j | activateAll j =>
    obtain rfl : j = i := of_decide_eq_true h
    exact knows team

end Errand

namespace Archive

variable {archive : Archive}

/-- What errands keep true: documents stand under their names, and memories are saved. -/
structure Agrees (archive : Archive) : Prop where
  keyed : archive.system.source.Keyed
  backed : ∀ i, (archive.registry i).Backed

/-- What an errand makes of its registry while that one knows some teams, if it activates no others
and closes nothing. -/
theorem Agrees.grows (agrees : archive.Agrees) {errand : Errand} (h : ∀ i, errand ≠ .close i)
    {teams : String → Prop} (hteams : ∀ team, errand.teams team → teams team)
    (knows : ∀ team, teams team → (archive.registry errand.registry).Knows team) :
    let t := errand.perform.after (archive.systemOf errand.registry)
    t.source.Keyed ∧ (archive.registry errand.registry).Grows teams t.registry := by
  have hstart : (archive.systemOf errand.registry).Prepares errand.teams
      (archive.systemOf errand.registry) := .refl agrees.keyed
  obtain ⟨keyed, published, -⟩ := ((Errand.prepares h) _ hstart).after fun _ => False.elim
  refine ⟨keyed, Registry.grows_of_published knows (agrees.backed _) ?_⟩
  refine Relation.ReflTransGen.mono ?_ _ _ published
  rintro _ _ ⟨w, hw, hpublish⟩
  exact ⟨w, hteams _ hw, hpublish⟩

/-- What an informed errand leads to with its registry. -/
theorem Agrees.errand (agrees : archive.Agrees) {errand : Errand}
    (informed : errand.Informed archive) :
    let t := errand.perform.after (archive.systemOf errand.registry)
    t.source.Keyed ∧ t.registry.Backed ∧
      ∀ key w, archive.saved.get? key = some w → t.registry.saved.get? key = some w := by
  by_cases hclose : ∃ i, errand = .close i
  · obtain ⟨i, rfl⟩ := hclose
    exact ⟨agrees.keyed, fun _ _ h => (nomatch h), fun _ _ h => h⟩
  · obtain ⟨keyed, -, backed, kept⟩ :=
      agrees.grows (fun i heq => hclose ⟨i, heq⟩) (fun _ => id) informed
    exact ⟨keyed, backed, kept⟩

/-- An informed errand keeps the saved versions. -/
theorem Agrees.run (agrees : archive.Agrees) {errand : Errand}
    (informed : errand.Informed archive) :
    (archive.run errand).Agrees ∧
      ∀ key w, archive.saved.get? key = some w → (archive.run errand).saved.get? key = some w := by
  obtain ⟨keyed, backed, kept⟩ := agrees.errand informed
  refine ⟨⟨keyed, fun i key w hw => ?_⟩, kept⟩
  simp only [registry, Archive.run, Table.get?_put] at hw ⊢
  split at hw
  · exact backed key w hw
  · exact kept key w (agrees.backed i key w hw)

theorem Agrees.through (agrees : archive.Agrees) {errands : List Errand}
    (informed : ∀ before errand later, errands = before ++ errand :: later →
      errand.Informed (archive.through before)) :
    (archive.through errands).Agrees ∧
      ∀ key w, archive.saved.get? key = some w →
        (archive.through errands).saved.get? key = some w := by
  induction errands generalizing archive with
  | nil => exact ⟨agrees, fun _ _ h => h⟩
  | cons errand rest ih =>
    obtain ⟨hagrees, hkept⟩ := agrees.run (informed [] errand rest rfl)
    obtain ⟨hend, hrest⟩ := ih hagrees fun before next later heq =>
      informed (errand :: before) next later (by rw [heq]; rfl)
    exact ⟨hend, fun key w h => hrest key w (hkept key w h)⟩

/-- The only registry that publishes knows all teams. -/
theorem Agrees.knows_run (agrees : archive.Agrees) {i : Nat}
    (knows : ∀ team, (archive.registry i).Knows team) {errand : Errand}
    (h : errand.leavesTo i) : ∀ team, ((archive.run errand).registry i).Knows team := by
  have edited (hclose : ∀ j, errand ≠ .close j) (hteams : errand.teams = fun _ => False) :
      ∀ team, ((archive.run errand).registry i).Knows team := by
    have hstart : (archive.systemOf errand.registry).Prepares errand.teams
        (archive.systemOf errand.registry) := .refl agrees.keyed
    obtain ⟨-, published, -⟩ := ((Errand.prepares hclose) _ hstart).after fun _ => False.elim
    have hsame : (errand.perform.after (archive.systemOf errand.registry)).registry =
        archive.registry errand.registry := by
      obtain heq | ⟨_, -, w, hw, -⟩ := published.cases_tail
      · exact heq
      · exact absurd hw (by simp [hteams])
    simp only [registry, Archive.run, Table.get?_put, hsame]
    split
    · rename_i hi
      exact hi ▸ knows
    · exact knows
  have published (hregistry : errand.registry = i) (hclose : ∀ j, errand ≠ .close j) :
      ∀ team, ((archive.run errand).registry i).Knows team := by
    subst hregistry
    obtain ⟨-, hknows, -⟩ :=
      agrees.grows hclose (fun _ _ => trivial) fun team (_ : True) => knows team
    simp only [registry, Archive.run, Table.get?_put_self, Option.getD_some]
    exact fun team => hknows team trivial
  cases errand with
  | putDocument | saveDocument | putFragment => exact edited (by simp) rfl
  | activate | activateAll => exact published (of_decide_eq_true h) (by simp)
  | close j =>
    have hne : i ≠ j := Ne.symm (of_decide_eq_true h)
    simp only [registry, Archive.run, Errand.registry, Table.get?_put_of_ne hne]
    exact knows

theorem Agrees.alone (agrees : archive.Agrees) {i : Nat}
    (knows : ∀ team, (archive.registry i).Knows team) {errands : List Errand}
    (alone : ∀ errand ∈ errands, errand.leavesTo i) :
    (archive.through errands).Agrees ∧
      ∀ team, ((archive.through errands).registry i).Knows team := by
  induction errands generalizing archive with
  | nil => exact ⟨agrees, knows⟩
  | cons errand rest ih =>
    obtain ⟨herrand, hrest⟩ := List.forall_mem_cons.1 alone
    obtain ⟨hagrees, -⟩ := agrees.run (Errand.informed_of_knows knows herrand)
    exact ih hagrees (agrees.knows_run knows herrand) hrest

/-- What is saved is what every registry looks up. -/
theorem Agrees.version? (agrees : archive.Agrees) (i : Nat) {team : String} {version : Int}
    {w : Workflow} (h : archive.saved.get? (team, version) = some w) :
    (archive.registry i).version? team version = some w := by
  unfold Registry.version?
  cases hfound : (archive.registry i).versions.get? (team, version) with
  | none => exact h
  | some found => exact (agrees.backed i _ _ hfound).symm.trans h

/-- What was saved at some point of informed errands is saved after them, and found by all. -/
theorem Agrees.stays (agrees : archive.Agrees) {before later : List Errand}
    (informed : ∀ earlier errand rest, before ++ later = earlier ++ errand :: rest →
      errand.Informed (archive.through earlier))
    {team : String} {version : Int} {w : Workflow}
    (published : (archive.through before).saved.get? (team, version) = some w) :
    (archive.through (before ++ later)).saved.get? (team, version) = some w ∧
      ∀ i, ((archive.through (before ++ later)).registry i).version? team version = some w := by
  have hfirst : ∀ earlier errand rest, before = earlier ++ errand :: rest →
      errand.Informed (archive.through earlier) := by
    rintro earlier errand rest rfl
    exact informed earlier errand (rest ++ later) (by simp)
  have hsecond : ∀ earlier errand rest, later = earlier ++ errand :: rest →
      errand.Informed ((archive.through before).through earlier) := by
    rintro earlier errand rest rfl
    rw [← through_append]
    exact informed (before ++ earlier) errand rest (by simp)
  obtain ⟨hbefore, -⟩ := agrees.through hfirst
  obtain ⟨hend, hkept⟩ := hbefore.through hsecond
  rw [← through_append] at hend hkept
  have hsaved := hkept _ _ published
  exact ⟨hsaved, fun i => hend.version? i hsaved⟩

theorem agrees_new {system : System} (keyed : system.source.Keyed) :
    ({ system } : Archive).Agrees := ⟨keyed, fun _ _ _ h => (nomatch h)⟩

/-- Where one registry publishes, and is not closed, all errands are informed. -/
theorem informed_alone {system : System} (keyed : system.source.Keyed) {i : Nat}
    {errands : List Errand} (alone : ∀ errand ∈ errands, errand.leavesTo i)
    {before later : List Errand} {errand : Errand} (split : errands = before ++ errand :: later) :
    errand.Informed (({ system } : Archive).through before) := by
  subst split
  have hbefore : ∀ other ∈ before, other.leavesTo i :=
    fun other hother => alone other (by simp [hother])
  obtain ⟨-, hknows⟩ := (agrees_new keyed).alone (fun _ _ _ h => (nomatch h)) hbefore
  exact Errand.informed_of_knows hknows (alone errand (by simp))

end Archive

/-- A published version is never replaced, as long as teams are activated only through registries
that know them: it stays saved, and every registry looks it up, whether it published it itself, is
new, or was closed. -/
theorem published_stays {system : System} (keyed : system.source.Keyed) {before later : List Errand}
    (informed : ∀ earlier errand rest, before ++ later = earlier ++ errand :: rest →
      errand.Informed (({ system } : Archive).through earlier))
    {team : String} {version : Int} {w : Workflow}
    (published : (({ system } : Archive).through before).saved.get? (team, version) = some w) :
    (({ system } : Archive).through (before ++ later)).saved.get? (team, version) = some w ∧
      ∀ i, ((({ system } : Archive).through (before ++ later)).registry i).version? team version =
        some w :=
  (Archive.agrees_new keyed).stays informed published

/-! ## Registries that do not know what is saved -/

/-- A registry publishes the first version of the sample team. -/
def publishedOnce : List Errand := [.putDocument (sampleDocument [] []), .activate 0 "t"]

/-- The sample team gets a rule. -/
def ruledDocument : Json :=
  sampleDocument [.obj [("id", .str "slow"), ("trigger", .str "ping"), ("duration", .str "1h"),
    ("actions", .arr [.obj [("type", .str "notify"),
      ("params", .obj [("channel", .str "c")])]])]] []

/-- How many rules a registry finds in the first version of the sample team. -/
def Archive.rulesFound (archive : Archive) (i : Nat) : Option Nat :=
  ((archive.registry i).version? "t" 1).map (·.rules.length)

/-- The registry that published a version publishes the next one, and a new one finds both. -/
theorem published_stays_revised :
    let revised : List Errand := [.putDocument ruledDocument, .activate 0 "t"]
    (({} : Archive).through publishedOnce).rulesFound 1 = some 0 ∧
      (({} : Archive).through (publishedOnce ++ revised)).rulesFound 1 = some 0 ∧
      ∃ w, (({} : Archive).through publishedOnce).saved.get? ("t", 1) = some w ∧
        (({} : Archive).through (publishedOnce ++ revised)).saved.get? ("t", 1) = some w := by
  intro revised
  have hfound : (({} : Archive).through publishedOnce).rulesFound 1 = some 0 := by decide +kernel
  obtain ⟨w, hw, hrules⟩ := Option.map_eq_some_iff.1 hfound
  have hsaved : (({} : Archive).through publishedOnce).saved.get? ("t", 1) = some w := hw
  have keyed : ({} : System).source.Keyed := fun _ _ h => (nomatch h)
  have alone : ∀ errand ∈ publishedOnce ++ revised, errand.leavesTo 0 := by decide +kernel
  obtain ⟨hkept, hevery⟩ := published_stays keyed
    (fun _ _ _ split => Archive.informed_alone keyed alone split) hsaved
  refine ⟨hfound, ?_, w, hsaved, hkept⟩
  rw [Archive.rulesFound, hevery 1, Option.map_some, hrules]

/-- A new registry, and one that was closed, publish the first version anew, and the saved one is
replaced. A registry that was not closed goes on with the version that it published. -/
theorem published_replaced :
    let once := ({} : Archive).through publishedOnce
    let restarted := once.through [.putDocument ruledDocument, .activate 1 "t"]
    let reopened := once.through [.close 0, .putDocument ruledDocument, .activate 0 "t"]
    (once.saved.get? ("t", 1)).map (·.rules.length) = some 0 ∧
      (restarted.saved.get? ("t", 1)).map (·.rules.length) = some 1 ∧
      restarted.rulesFound 0 = some 0 ∧ restarted.rulesFound 1 = some 1 ∧
      (reopened.saved.get? ("t", 1)).map (·.rules.length) = some 1 ∧
      reopened.rulesFound 0 = some 1 ∧ reopened.rulesFound 1 = some 1 := by
  decide +kernel

end Stageflow
