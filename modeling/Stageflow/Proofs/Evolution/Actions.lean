import Stageflow.Proofs.Actions
import Stageflow.Proofs.Evolution.Moves

/-!
# How actions evolve a system

What actions do themselves is out of view; a move that they ask for is announced one level deeper
than what they run in response to.
-/

namespace Stageflow.Run

variable {terms : Terms} {s₀ : System} {announce : Event → Run Unit} {context : ActionContext}

theorem tolerates_evolves (item : String) : Tolerates (Evolves terms s₀) item where
  note h hs := hs.unseen (view_note (Notice.not_isTraced_of_isOfAction h) _) rfl
  drawn _ hs := hs.unseen (fun _ => rfl) rfl
  recorded _ hs := hs.unseen (fun _ => rfl) rfl
  runner _ hs := hs.unseen (fun _ => rfl) rfl

theorem keeps_runActions {actions : List Action}
    (ha : Announces terms s₀ (context.depth + 1) announce) :
    Keeps (Evolves terms s₀) (runActions announce context actions) :=
  (tolerates_evolves context.item).keeps_runActions fun _ =>
    (tolerates_evolves context.item).keeps_carryOut
      (fun h hs => hs.unseen (view_note (Notice.not_isTraced_of_isMark h) _) rfl)
      (keeps_loadItem _) fun _ => keeps_moveItem ha

end Stageflow.Run
