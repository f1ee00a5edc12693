import Stageflow.System.Moves

/-!
# Engines over one store

Several engines may work on one store of items, each with a lock table of its own. A request then
takes two turns: it loads its item under its engine's lock, and later it saves what comes of it,
based on the version that it loaded. The turns of different requests interleave in any order, and
each one goes by the workflows and the clock that it finds.
-/

namespace Stageflow

/-- A change of an item that an engine is asked for. -/
inductive Request where
  | move (item : String) (target : Json) (actor : Actor)
  | signOff (item stage role : String) (approver : Json)
  | setCriterion (item criterion : String) (satisfied : Json)
  | migrate (item : String) (version : Option Int)

namespace Request

/-- The item that a request is about. -/
def item : Request → String
  | .move item .. | .signOff item .. | .setCriterion item .. | .migrate item _ => item

open Run in
/-- The computation that a request asks an engine for. A move is announced after it. -/
def perform : Request → Run Unit
  | .move item target actor => do let _ ← underLock item (commitMove item target actor)
  | .signOff item stage role approver => do let _ ← Run.signOff item stage role approver
  | .setCriterion item criterion satisfied => do
    let _ ← Run.setCriterion item criterion satisfied
  | .migrate item version => do let _ ← Run.migrate item version

/-- The version of a team's workflow that is asked for, or the active one. -/
def wanted (registry : Registry) (team : String) (version : Option Int) : Except Fault Workflow :=
  match version with
  | some version => registry.version team version
  | none => registry.activeFor team

/-- What a request plans to write, from the item as it was loaded; nothing, if it is to stay. -/
def plan (registry : Registry) (now : Instant) (item : Item) : Request → Except Fault (Option Item)
  | .move _ target _ => do
    let w ← registry.version item.team item.workflowVersion
    let move ← w.decide item target
    return some (item.moveTo move.route.target move.target.id now)
  | .signOff _ stage role approver => do
    let w ← registry.version item.team item.workflowVersion
    w.signOff item stage role approver now
  | .setCriterion _ criterion satisfied => .ok (item.setCriterion criterion satisfied now)
  | .migrate _ version => do
    let w ← wanted registry item.team version
    w.rebind item now

/-- Plans a request from the item as it was loaded, and saves what is planned. -/
def settle (request : Request) (loaded : Item) : Run (Option Item) := do
  let s ← get
  match ← Run.ofExcept (request.plan s.registry s.clock loaded) with
  | some updated => return some (← Run.writeItem updated loaded.version)
  | none => return none

/-- Serves a request without a break: it loads its item under the lock, and settles. -/
def serve (request : Request) : Run (Option Item) :=
  Run.underLock request.item do request.settle (← Run.loadItem request.item)

end Request

/-- A request between its turns: it has loaded its item, and holds its engine's lock. -/
structure Flight where
  engine : Nat
  request : Request
  loaded : Item

/-- A request that had both its turns: what it went by, and the item that it saved, if any. -/
structure Landing where
  flight : Flight
  registry : Registry
  time : Instant
  answer : Except Halt (Option Item)

/-- Whether a request saved an item. -/
def Landing.accepted (landing : Landing) : Bool :=
  match landing.answer with
  | .ok (some _) => true
  | _ => false

/-- The store that engines share, the requests between their turns, and the landed ones, newest
first. -/
structure Fleet where
  items : Items := []
  flights : List Flight := []
  landings : List Landing := []

namespace Fleet

/-- A turn of an engine. The scene is what the engine goes by at that moment. -/
inductive Turn where
  | create (scene : System) (engine : Nat) (request : Run.NewItem)
  | load (scene : System) (engine : Nat) (request : Request)
  | save (scene : System) (flight : Nat)

/-- The items that an engine holds locks of. -/
def locks (fleet : Fleet) (engine : Nat) : List String :=
  (fleet.flights.filter fun flight => flight.engine = engine).map (·.request.item)

/-- An engine as a system: its scene over the shared store, with its locks. -/
def engine (fleet : Fleet) (scene : System) (engine : Nat) : System :=
  { scene with items := fleet.items, held := fleet.locks engine, rival := none }

/-- Settles a request that is between its turns. -/
def land (fleet : Fleet) (scene : System) (flight : Flight) : Landing × Items :=
  match flight.request.settle flight.loaded (fleet.engine scene flight.engine) with
  | .ok saved t => (⟨flight, scene.registry, scene.clock, .ok saved⟩, t.items)
  | .error halt t => (⟨flight, scene.registry, scene.clock, .error halt⟩, t.items)

/-- The fleet after a turn. A load that fails ends its request. -/
def turn (fleet : Fleet) : Turn → Fleet
  | .create scene engine request =>
    let create := Run.createItem (fun _ => pure ()) request
    { fleet with items := (create.after (fleet.engine scene engine)).items }
  | .load scene engine request =>
    match Run.underLock request.item (Run.loadItem request.item) (fleet.engine scene engine) with
    | .ok loaded _ => { fleet with flights := fleet.flights ++ [⟨engine, request, loaded⟩] }
    | .error .. => fleet
  | .save scene i =>
    match fleet.flights[i]? with
    | none => fleet
    | some flight =>
      let (landing, items) := fleet.land scene flight
      { items, flights := fleet.flights.eraseIdx i, landings := landing :: fleet.landings }

/-- The fleet after some turns. -/
def through (fleet : Fleet) (turns : List Turn) : Fleet := turns.foldl turn fleet

/-- How many saves of an item were accepted. -/
def saves (fleet : Fleet) (id : String) : Nat :=
  fleet.landings.countP fun landing => landing.accepted && landing.flight.request.item = id

/-- Whether the record that a request loaded has been replaced: another one that loaded the same
version of the item saved. -/
def replaced (fleet : Fleet) (flight : Flight) : Bool :=
  fleet.landings.any fun landing =>
    landing.accepted && landing.flight.request.item = flight.request.item &&
      landing.flight.loaded.version = flight.loaded.version

end Fleet

end Stageflow
