import Stageflow.System.Notice

/-!
# Pools of workers

Events are handed to subscribers by a pool of workers. The calls for an event are put into a queue,
in the order of subscription, and each worker takes up the first call there whenever it is free. A
subscriber may come back at once, late or never; one that never does holds its worker for good. The
publisher waits for the calls of its event as long as its budget lasts and then goes on, and calls
that are late may end behind its back. A pool that is closed cancels the calls that no worker has
taken up. Events that automation causes are handed over on the spot.
-/

namespace Stageflow.Dispatch

/-- How a subscriber takes an event: it receives it, it receives it and fails, or it never comes
back. -/
inductive Reception where
  | receives
  | fails
  | hangs
  deriving DecidableEq, Repr

/-- A subscriber by name. -/
structure Subscription where
  name : String
  reception : Reception
  deriving DecidableEq, Repr

/-- Whether a subscriber never comes back. -/
def Subscription.hangs (s : Subscription) : Bool := s.reception = .hangs

/-- A call of a subscriber. Events have numbers, in the order in which they are published. -/
structure Call where
  event : Nat
  subscription : Subscription
  deriving DecidableEq, Repr

namespace Call

/-- Whether a call never comes back. -/
def hangs (c : Call) : Bool := c.subscription.hangs

/-- Whether a call is for an event, and its subscriber fails. -/
def failsOn (event : Nat) (c : Call) : Bool :=
  c.event = event && decide (c.subscription.reception = .fails)

end Call

/-- A pool: its budget in seconds and its workers; its subscribers, and the number of events that
were handed to workers; the calls that wait for a worker, those that a worker runs, those that came
back, in order, and those that were cancelled; and whom events reached on the spot, in order. -/
structure Pool where
  budget : Binary64 := .ofQuotient 5 1
  workers : Nat := 8
  subscriptions : List Subscription := []
  closed : Bool := false
  events : Nat := 0
  waiting : List Call := []
  running : List Call := []
  ended : List Call := []
  cancelled : List Call := []
  onSpot : List String := []
  deriving Repr

namespace Pool

/-- Adds a subscriber. -/
def subscribe (pool : Pool) (s : Subscription) : Pool :=
  { pool with subscriptions := pool.subscriptions ++ [s] }

/-- Takes the subscribers of a name off. -/
def unsubscribe (pool : Pool) (name : String) : Pool :=
  { pool with subscriptions := pool.subscriptions.filter (·.name ≠ name) }

/-- Puts the calls for an event into the queue, unless the pool is closed. -/
def submit (pool : Pool) : Pool :=
  if pool.closed then pool
  else
    { pool with
      events := pool.events + 1
      waiting := pool.waiting ++ pool.subscriptions.map (⟨pool.events, ·⟩) }

/-- Closes the pool: its subscribers are taken off, nothing is handed over any more, and the calls
that wait are cancelled. -/
def close (pool : Pool) : Pool :=
  { pool with
    subscriptions := [], closed := true
    waiting := [], cancelled := pool.cancelled ++ pool.waiting }

/-! ## Workers -/

/-- A free worker takes up the first call that waits. -/
def start (pool : Pool) : Pool :=
  match pool.waiting with
  | [] => pool
  | call :: rest =>
    if pool.running.length < pool.workers then
      { pool with waiting := rest, running := pool.running ++ [call] }
    else pool

/-- A worker is done with a call. -/
def finish (pool : Pool) (call : Call) : Pool :=
  if call ∈ pool.running ∧ call.hangs = false then
    { pool with running := pool.running.erase call, ended := pool.ended ++ [call] }
  else pool

/-- What the calls that wait come to if subscribers come back at once or never. -/
def work (pool : Pool) : Pool :=
  pool.waiting.foldl (fun pool call => pool.start.finish call) pool

/-! ## Publishers -/

/-- What becomes of a publisher: it goes on, with what is to be noted, it cannot wait for so long as
its budget is, or it does not come back from a subscriber. -/
inductive Publication where
  | done (notices : List Notice)
  | refused
  | stuck
  deriving Repr

/-- The calls for an event that have not come back. -/
def overdue (pool : Pool) (event : Nat) : List Call :=
  (pool.running ++ pool.waiting).filter (·.event = event)

/-- What becomes of the publisher of an event, when it has waited as long as it does. -/
def await (pool : Pool) (event : Nat) (type : String) : Publication :=
  if Settings.isTooLong pool.budget && !(pool.overdue event).isEmpty then .refused
  else
    .done (((pool.ended.filter (·.failsOn event)).map fun c =>
        .subscriberFailed c.subscription.name type) ++
      (pool.overdue event).map fun c =>
        .subscriberOverdue c.subscription.name type pool.budget)

/-- Hands an event over on the spot: to one subscriber after another, up to one that does not come
back. -/
def deliverHere (pool : Pool) (type : String) : Publication × Pool :=
  let reached := pool.subscriptions.takeWhile (! ·.hangs)
  let failed := reached.filter (·.reception = .fails)
  (if reached.length < pool.subscriptions.length then .stuck
    else .done (failed.map fun s => .subscriberFailed s.name type),
    { pool with onSpot := pool.onSpot ++ reached.map (·.name) })

/-- Publishes an event of a type, on the spot if its depth is above zero, where subscribers come
back at once or never. -/
def publish (pool : Pool) (type : String) (depth : Int) : Publication × Pool :=
  if pool.closed then (.done [], pool)
  else if 0 < depth then pool.deliverHere type
  else
    let after := pool.submit.work
    (after.await pool.events type, after)

/-- How often each subscriber was reached. -/
def received (pool : Pool) : Table String Nat :=
  (pool.ended.map (·.subscription.name) ++ pool.onSpot).foldl
    (fun counts name => counts.put name ((counts.get? name).getD 0 + 1)) []

end Pool

end Stageflow.Dispatch
