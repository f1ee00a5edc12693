import Stageflow.System.Session

/-!
# A registry over any store

A registry hands each version that it publishes to a store of versions, if it has one, and asks it
for the versions that it has not in memory. When the store is handed a version, the registry has
taken it into memory and made it active already: an activation that fails because the store does has
published a version all the same.
-/

namespace Stageflow

/-- A store of versions, by what it holds. It is handed new versions and asked for old ones, and may
fail at both; one that fails to take a version may have changed. -/
structure Vault (σ : Type) where
  save : Workflow → σ → Except Fault Unit × σ
  load : String → Int → σ → Except Fault (Option Workflow)

namespace Vault

/-- The store in memory. -/
def memory : Vault Versions where
  save w held := (.ok (), held.put (w.team, w.version) w)
  load team version held := .ok (held.get? (team, version))

/-- Whether a store takes every version that it is handed. The contract of saving a version knows no
failure, and the store in memory, the only one that a whole system gives its registry, keeps to it.
-/
def Takes {σ : Type} (vault : Vault σ) : Prop := ∀ w held, (vault.save w held).1 = .ok ()

theorem takes_memory : ∀ vault ∈ some memory, vault.Takes := by
  rintro _ ⟨⟩ w held
  rfl

end Vault

/-- A system with other saved copies. -/
def System.withSaved (s : System) (saved : Versions) : System :=
  { s with registry.saved := saved }

/-- A system whose registry works over a store, and what the store holds. -/
structure Vaulted (σ : Type) where
  system : System := {}
  held : σ

namespace Vaulted

variable {σ : Type} (vault : Option (Vault σ))

/-- Hands a version to the store, if there is one. -/
def handOver (w : Workflow) (held : σ) : Except Fault Unit × σ :=
  match vault with
  | none => (.ok (), held)
  | some vault => vault.save w held

/-- Makes the document of a team the next version of its workflow, and that one active, and hands it
to the store. -/
def activate (d : Vaulted σ) (team : String) : Except Halt Workflow × Vaulted σ :=
  match Run.renew team d.system with
  | .error halt s => (.error halt, { d with system := s })
  | .ok w s =>
    match handOver vault w d.held with
    | (.ok (), held) => (.ok w, { system := s, held })
    | (.error fault, held) => (.error (.raised fault), { system := s, held })

/-- Activates teams one after another. It goes on after a failure of one team's own. -/
def activateTeams (d : Vaulted σ) : List String → Vaulted σ
  | [] => d
  | team :: rest =>
    match activate vault d team with
    | (.ok _, d') => activateTeams d' rest
    | (.error (.raised fault), d') =>
      if Run.isLocal fault then
        activateTeams { d' with system.journal := .notActivated team fault :: d'.system.journal }
          rest
      else d'
    | (.error .hung, d') => d'

/-- What an operation leads to. -/
def perform (d : Vaulted σ) : Operation → Vaulted σ
  | .activate team => (activate vault d team).2
  | .activateAll => activateTeams vault d d.system.source.teamIds
  | op => { d with system := op.perform.after d.system }

/-- What a session leads to. -/
def through (d : Vaulted σ) (ops : List Operation) : Vaulted σ := ops.foldl (perform vault) d

/-- A version of a team's workflow, from memory or else from the store. -/
def version (d : Vaulted σ) (team : String) (version : Int) : Except Fault Workflow :=
  match d.system.registry.versions.get? (team, version) with
  | some w => .ok w
  | none =>
    match vault with
    | none => .error (.noVersion team version)
    | some vault => do
      let some w ← vault.load team version d.held | .error (.noVersion team version)
      return w

/-- A system as one whose registry works over the store in memory: the saved copies are what the
store holds. -/
def ofSystem (s : System) : Vaulted Versions where
  system := s.withSaved []
  held := s.registry.saved

end Vaulted

end Stageflow
