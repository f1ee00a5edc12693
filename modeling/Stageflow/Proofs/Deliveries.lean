import Mathlib.Data.List.Perm.Basic
import Stageflow.Dispatch.Pool

/-!
# Deliveries by a pool

A pool owes every event that is published while it is open to every subscription that it has then.
Publishers and workers go on side by side, so a run is any sequence of what is asked of a pool and
of what its workers do; how long a publisher waits only decides how much of the latter comes before
it goes on. No call is ever lost or made twice. A call that never comes back holds its worker for
good; where there are more workers than such calls, the others come to rest with nothing left to do,
and every call that was not cancelled has then come back, if it ever does.

## Main statements

* `Pool.exists_publish_eq` — what a publication does is such a run.
* `Pool.perm_calls_run` — every call that is owed waits, runs, has come back or was cancelled.
* `Pool.answered_of_spare` — once the workers are at rest, whoever comes back has been called once
  for each event.
* `Pool.starved`, `Pool.cut_off` — calls that are owed and never made: all workers are held, or the
  pool is closed before a slow subscriber lets go of the only one.
-/

namespace Stageflow.Dispatch

/-- Whether a call comes back. -/
def Call.comesBack (c : Call) : Bool := ! c.hangs

namespace Pool

variable {pool : Pool} {c : Call} {workers : Nat} {budget : Binary64} {steps : List Step}

/-- What is asked of a pool, and what its workers do. Events are published that no automation
caused. -/
inductive Step where
  | subscribe (s : Subscription)
  | unsubscribe (name : String)
  | publish
  | close
  | start
  | finish (call : Call)
  deriving DecidableEq, Repr

/-- Whether a step is a worker's. -/
def Step.isWork : Step → Bool
  | .start | .finish _ => true
  | _ => false

/-- A pool after a step. -/
def perform (pool : Pool) : Step → Pool
  | .subscribe s => pool.subscribe s
  | .unsubscribe name => pool.unsubscribe name
  | .publish => pool.submit
  | .close => pool.close
  | .start => pool.start
  | .finish call => pool.finish call

/-- A pool after steps in turn. -/
def performAll (pool : Pool) (steps : List Step) : Pool := steps.foldl perform pool

/-- A new pool of some workers after steps in turn. -/
def run (workers : Nat) (budget : Binary64) (steps : List Step) : Pool :=
  performAll { workers, budget } steps

/-- The calls that steps owe, in turn, from the subscriptions and the number of events at the start:
one for each event that is published before the pool is closed and each subscription of that time.
-/
def owed : List Subscription → Nat → List Step → List Call
  | _, _, [] => []
  | audience, events, .subscribe s :: rest => owed (audience ++ [s]) events rest
  | audience, events, .unsubscribe name :: rest =>
    owed (audience.filter (·.name ≠ name)) events rest
  | audience, events, .publish :: rest =>
    audience.map (⟨events, ·⟩) ++ owed audience (events + 1) rest
  | _, _, .close :: _ => []
  | audience, events, .start :: rest => owed audience events rest
  | audience, events, .finish _ :: rest => owed audience events rest

/-! ## No call is lost or made twice -/

/-- All calls that were put into the queue. -/
def calls (pool : Pool) : List Call :=
  pool.ended ++ (pool.running ++ (pool.waiting ++ pool.cancelled))

/-- The calls that a pool will owe for steps. -/
def owes (pool : Pool) (steps : List Step) : List Call :=
  if pool.closed then [] else owed pool.subscriptions pool.events steps

/-- Workers change nothing but where calls are. -/
theorem work_keeps (pool : Pool) {step : Step} (work : step.isWork) :
    (pool.perform step).workers = pool.workers ∧
      (pool.perform step).subscriptions = pool.subscriptions ∧
      (pool.perform step).closed = pool.closed ∧ (pool.perform step).events = pool.events ∧
      (pool.perform step).cancelled = pool.cancelled := by
  cases step with
  | start =>
    simp only [perform, start]
    split
    · simp
    · split <;> simp
  | finish call =>
    simp only [perform, finish]
    split <;> simp
  | _ => cases work

/-- A call is moved on by a worker. -/
theorem perm_calls_work {step : Step} (work : step.isWork) :
    (pool.perform step).calls.Perm pool.calls := by
  cases step with
  | start =>
    simp only [perform, start]
    split
    · exact .refl _
    · rename_i call rest hwaiting
      split
      · simp [calls, hwaiting]
      · exact .refl _
  | finish call =>
    simp only [perform, finish]
    split
    · rename_i hruns
      have hrunning : (call :: pool.running.erase call).Perm pool.running :=
        (List.perm_cons_erase hruns.1).symm
      simpa [calls] using (hrunning.append_right (pool.waiting ++ pool.cancelled)).append_left
        pool.ended
    · exact .refl _
  | _ => cases work

/-- The calls that a step owes. -/
def owing (pool : Pool) : Step → List Call
  | .publish => if pool.closed then [] else pool.subscriptions.map (⟨pool.events, ·⟩)
  | _ => []

/-- What a step adds to the calls is what it owes. -/
theorem perm_calls_perform (pool : Pool) (step : Step) :
    (pool.perform step).calls.Perm (pool.calls ++ pool.owing step) := by
  cases step with
  | publish =>
    simp only [perform, submit, owing]
    split
    · simp
    · simp only [calls, List.append_assoc]
      exact ((List.perm_append_comm.append_left _).append_left _).append_left _
  | close =>
    simp only [perform, close, calls, owing, List.nil_append, List.append_nil]
    exact (List.perm_append_comm.append_left _).append_left _
  | start | finish call => exact (perm_calls_work rfl).trans (.of_eq (List.append_nil _).symm)
  | _ => simp [calls, perform, subscribe, unsubscribe, owing]

/-- What steps owe is what the first one owes, and what the others owe after it. -/
theorem owes_cons (pool : Pool) (step : Step) (rest : List Step) :
    pool.owes (step :: rest) = pool.owing step ++ (pool.perform step).owes rest := by
  cases step with
  | publish => cases hclosed : pool.closed <;> simp [owes, owed, owing, perform, submit, hclosed]
  | close => simp [owes, owed, owing, perform, close]
  | start =>
    obtain ⟨-, hsubscriptions, hclosed, hevents, -⟩ :=
      pool.work_keeps (rfl : Step.start.isWork)
    simp [owes, owed, owing, hsubscriptions, hclosed, hevents]
  | finish call =>
    obtain ⟨-, hsubscriptions, hclosed, hevents, -⟩ :=
      pool.work_keeps (rfl : (Step.finish call).isWork)
    simp [owes, owed, owing, hsubscriptions, hclosed, hevents]
  | _ => rfl

@[simp] theorem owes_nil (pool : Pool) : pool.owes [] = [] := by
  simp [owes, owed]

theorem perm_calls_performAll (pool : Pool) (steps : List Step) :
    (pool.performAll steps).calls.Perm (pool.calls ++ pool.owes steps) := by
  induction steps generalizing pool with
  | nil => simp [performAll]
  | cons step rest ih =>
    refine (ih (pool.perform step)).trans ?_
    rw [owes_cons, ← List.append_assoc]
    exact (pool.perm_calls_perform step).append_right _

/-- Every call that is owed waits, runs, has come back or was cancelled. -/
theorem perm_calls_run (workers : Nat) (budget : Binary64) (steps : List Step) :
    (run workers budget steps).calls.Perm (owed [] 0 steps) := by
  simpa [run, calls, owes] using perm_calls_performAll { workers, budget } steps

/-- What has come back never hung. -/
theorem comesBack_of_ended (before : ∀ c ∈ pool.ended, c.comesBack)
    (h : c ∈ (pool.performAll steps).ended) : c.comesBack := by
  induction steps generalizing pool with
  | nil => exact before c h
  | cons step rest ih =>
    refine ih (fun d hd => ?_) h
    cases step with
    | publish =>
      simp only [perform, submit] at hd
      split at hd <;> exact before d hd
    | start =>
      simp only [perform, start] at hd
      split at hd
      · exact before d hd
      · split at hd <;> exact before d hd
    | finish call =>
      simp only [perform, finish] at hd
      split at hd
      · rename_i hruns
        obtain hd | hd := List.mem_append.1 hd
        · exact before d hd
        · obtain rfl := List.mem_singleton.1 hd
          simp [Call.comesBack, hruns.2]
      · exact before d hd
    | _ => exact before d hd

/-- The number of workers stays. -/
theorem workers_performAll (pool : Pool) (steps : List Step) :
    (pool.performAll steps).workers = pool.workers := by
  induction steps generalizing pool with
  | nil => rfl
  | cons step rest ih =>
    refine (ih (pool.perform step)).trans ?_
    cases step with
    | publish =>
      simp only [perform, submit]
      split <;> rfl
    | start | finish call => exact (work_keeps _ rfl).1
    | _ => rfl

/-! ## Rest -/

/-- Whether there is nothing that a worker could do. -/
def AtRest (pool : Pool) : Prop := ∀ step : Step, step.isWork → pool.perform step = pool

/-- Workers are at rest exactly if no call waits that a free one could take up, and none that they
run comes back. -/
theorem atRest_iff : pool.AtRest ↔
    (pool.waiting = [] ∨ pool.workers ≤ pool.running.length) ∧ ∀ c ∈ pool.running, c.hangs := by
  constructor
  · refine fun h => ⟨?_, fun c hc => ?_⟩
    · have hstart := h .start rfl
      simp only [perform, start] at hstart
      split at hstart
      · rename_i hwaiting
        exact .inl hwaiting
      · rename_i call rest hwaiting
        split at hstart
        · have hsame := congrArg (·.waiting.length) hstart
          simp [hwaiting] at hsame
        · rename_i hbusy
          exact .inr (Nat.not_lt.1 hbusy)
    · by_contra hback
      have hends : c ∈ pool.running ∧ c.hangs = false := ⟨hc, by simpa using hback⟩
      have hfinish := congrArg (·.ended.length) (h (.finish c) rfl)
      simp [perform, finish, if_pos hends] at hfinish
  · rintro ⟨hidle, hhung⟩ step work
    cases step with
    | start =>
      simp only [perform, start]
      split
      · rfl
      · rename_i call rest hwaiting
        obtain hnone | hbusy := hidle
        · cases hwaiting.symm.trans hnone
        · exact if_neg (Nat.not_lt.2 hbusy)
    | finish call =>
      refine if_neg fun hruns => ?_
      simp [hhung call hruns.1] at hruns
    | _ => cases work

/-- What workers have still to do at most: each call that waits is to be taken up and done with, and
each that they run to be done with. -/
def toil (pool : Pool) : Nat := 2 * pool.waiting.length + pool.running.length

/-- A worker that does something has less to do. -/
theorem toil_perform {step : Step} (work : step.isWork) (effect : pool.perform step ≠ pool) :
    (pool.perform step).toil < pool.toil := by
  cases step with
  | start =>
    simp only [perform, start] at effect ⊢
    split at effect
    · exact absurd rfl effect
    · rename_i call rest hwaiting
      split at effect
      · rename_i hfree
        simp only [hfree, if_true, toil, hwaiting, List.length_append, List.length_cons,
          List.length_nil]
        omega
      · exact absurd rfl effect
  | finish call =>
    simp only [perform, finish] at effect ⊢
    split at effect
    · rename_i hruns
      have hpos := List.length_pos_of_mem hruns.1
      simp only [hruns, and_self, if_true, toil, List.length_erase_of_mem]
      omega
    · exact absurd rfl effect
  | _ => cases work

/-- Whether each of some steps is a worker's that does something. -/
def Toils : Pool → List Step → Prop
  | _, [] => True
  | pool, step :: rest =>
    step.isWork ∧ pool.perform step ≠ pool ∧ Toils (pool.perform step) rest

/-- Workers come to rest: they cannot go on doing something for ever. -/
theorem length_le_of_toils {works : List Step} (toils : pool.Toils works) :
    works.length ≤ pool.toil := by
  induction works generalizing pool with
  | nil => exact Nat.zero_le _
  | cons step rest ih =>
    obtain ⟨work, effect, hrest⟩ := toils
    exact Nat.lt_of_le_of_lt (ih hrest) (toil_perform work effect)

/-- Workers can come to rest. -/
theorem exists_atRest (pool : Pool) :
    ∃ works, pool.Toils works ∧ (pool.performAll works).AtRest := by
  induction h : pool.toil using Nat.strongRecOn generalizing pool with
  | ind n ih =>
    by_cases hrest : pool.AtRest
    · exact ⟨[], trivial, hrest⟩
    · simp only [AtRest, not_forall] at hrest
      obtain ⟨step, work, effect⟩ := hrest
      obtain ⟨works, htoils, hrest⟩ :=
        ih _ (h ▸ toil_perform work effect) (pool.perform step) rfl
      exact ⟨step :: works, ⟨work, effect, htoils⟩, hrest⟩

/-! ## Whom events are owed to -/

/-- What steps in a row owe is what they owe one after another. -/
theorem owes_append (pool : Pool) (before after : List Step) :
    pool.owes (before ++ after) = pool.owes before ++ (pool.performAll before).owes after := by
  induction before generalizing pool with
  | nil => simp [performAll]
  | cons step rest ih =>
    rw [List.cons_append, owes_cons, owes_cons, ih, List.append_assoc]
    rfl

/-- Each call of an event has its number, and only an event takes one. -/
theorem events_perform (pool : Pool) (step : Step) :
    pool.events ≤ (pool.perform step).events ∧
      ∀ c ∈ pool.owing step, c.event = pool.events ∧ c.event < (pool.perform step).events := by
  cases step with
  | publish =>
    cases hclosed : pool.closed with
    | true => simp [owing, perform, submit, hclosed]
    | false => simp +contextual [owing, perform, submit, hclosed]
  | start => exact ⟨Nat.le_of_eq (work_keeps _ rfl).2.2.2.1.symm, nofun⟩
  | finish call => exact ⟨Nat.le_of_eq (work_keeps _ rfl).2.2.2.1.symm, nofun⟩
  | _ => exact ⟨Nat.le_refl _, nofun⟩

/-- Steps owe calls of the events that they publish. -/
theorem event_of_owes (h : c ∈ pool.owes steps) :
    pool.events ≤ c.event ∧ c.event < (pool.performAll steps).events := by
  have hgrows (pool : Pool) (steps : List Step) :
      pool.events ≤ (pool.performAll steps).events := by
    induction steps generalizing pool with
    | nil => exact Nat.le_refl _
    | cons step rest ih => exact Nat.le_trans (pool.events_perform step).1 (ih _)
  induction steps generalizing pool with
  | nil => simp at h
  | cons step rest ih =>
    obtain ⟨hle, hnumbers⟩ := pool.events_perform step
    rw [owes_cons] at h
    obtain h | h := List.mem_append.1 h
    · obtain ⟨heq, hlt⟩ := hnumbers c h
      exact ⟨Nat.le_of_eq heq.symm, Nat.lt_of_lt_of_le hlt (hgrows _ rest)⟩
    · obtain ⟨hfirst, hlast⟩ := ih h
      exact ⟨Nat.le_trans hle hfirst, hlast⟩

/-- An event that is published while the pool is open is owed to every subscription of that time,
once, and to no other. -/
theorem owed_of_publish {before after : List Step}
    (h : steps = before ++ .publish :: after)
    (isOpen : (run workers budget before).closed = false) :
    (owed [] 0 steps).filter (·.event = (run workers budget before).events) =
      (run workers budget before).subscriptions.map
        (⟨(run workers budget before).events, ·⟩) := by
  have howed : owed [] 0 steps = owes { workers, budget } steps := rfl
  rw [howed, h, owes_append, owes_cons, List.filter_append, List.filter_append]
  change _ ++ (List.filter _ ((run workers budget before).owing .publish) ++
    List.filter _ (((run workers budget before).perform .publish).owes after)) = _
  have hearlier : (owes { workers, budget } before).filter
      (·.event = (run workers budget before).events) = [] := by
    refine List.filter_eq_nil_iff.2 fun c hc => ?_
    have hlt : c.event < (run workers budget before).events := (event_of_owes hc).2
    simpa using Nat.ne_of_lt hlt
  have hlater : (((run workers budget before).perform .publish).owes after).filter
      (·.event = (run workers budget before).events) = [] := by
    refine List.filter_eq_nil_iff.2 fun c hc => ?_
    have hle := (event_of_owes hc).1
    simp only [perform, submit, isOpen, Bool.false_eq_true, if_false] at hle
    simpa using Nat.ne_of_gt hle
  rw [hearlier, hlater, List.nil_append, List.append_nil]
  simp [owing, isOpen]

/-! ## Whether anybody misses an event -/

/-- What is published, with subscribers that come back at once or never, is a publication and then
what workers do. -/
theorem exists_publish_eq (type : String) {depth : Int} (top : depth ≤ 0)
    (isOpen : pool.closed = false) :
    ∃ works : List Step, (∀ step ∈ works, step.isWork) ∧
      (pool.publish type depth).2 = pool.performAll (.publish :: works) := by
  have hworks (calls : List Call) (pool : Pool) :
      ∃ works : List Step, (∀ step ∈ works, step.isWork) ∧
      calls.foldl (fun pool call => pool.start.finish call) pool = pool.performAll works := by
    induction calls generalizing pool with
    | nil => exact ⟨[], nofun, rfl⟩
    | cons call rest ih =>
      obtain ⟨works, hwork, heq⟩ := ih (pool.start.finish call)
      exact ⟨.start :: .finish call :: works, by simpa [Step.isWork] using hwork, heq⟩
  obtain ⟨works, hwork, heq⟩ := hworks pool.submit.waiting pool.submit
  refine ⟨works, hwork, ?_⟩
  simp only [publish, isOpen, Bool.false_eq_true, if_false, Int.not_lt.2 top]
  exact heq

/-- The number of calls that hang is less than that of workers; then some worker is free or has a
call that comes back, so workers at rest have left none waiting. -/
theorem waiting_eq_nil_of_spare (spare : pool.calls.countP Call.hangs < pool.workers)
    (rest : pool.AtRest) : pool.waiting = [] := by
  obtain ⟨hidle, hhung⟩ := atRest_iff.1 rest
  refine hidle.resolve_right fun hbusy => ?_
  have hcount : pool.running.length ≤ pool.calls.countP Call.hangs := by
    simp only [calls, List.countP_append, List.countP_eq_length.2 hhung]
    omega
  omega

theorem calls_performAll_work {works : List Step} (work : ∀ step ∈ works, step.isWork) :
    (pool.performAll works).calls.Perm pool.calls ∧
      (pool.performAll works).cancelled = pool.cancelled := by
  induction works generalizing pool with
  | nil => exact ⟨.refl _, rfl⟩
  | cons step rest ih =>
    obtain ⟨hstep, hrest⟩ := List.forall_mem_cons.1 work
    obtain ⟨hcalls, hcancelled⟩ := @ih (pool.perform step) hrest
    exact ⟨hcalls.trans (perm_calls_work hstep), hcancelled.trans (work_keeps _ hstep).2.2.2.2⟩

/-- Whoever comes back misses no event because of those who do not, as long as there are more
workers than calls that hang. An event that is published while the pool is open is owed to each
subscription of that time once; each call that is owed waits, runs, has come back or was cancelled,
and is there once. Workers come to rest, whatever they do first, and the calls that have come back
then are, with those that were cancelled, all calls that are owed and come back. -/
theorem answered_of_spare (workers : Nat) (budget : Binary64) {steps : List Step}
    (spare : (owed [] 0 steps).countP Call.hangs < workers) :
    let pool := run workers budget steps
    (∀ before after, steps = before ++ .publish :: after →
      (run workers budget before).closed = false →
        (owed [] 0 steps).filter (·.event = (run workers budget before).events) =
          (run workers budget before).subscriptions.map
            (⟨(run workers budget before).events, ·⟩)) ∧
      pool.calls.Perm (owed [] 0 steps) ∧
      (∃ works, pool.Toils works ∧ (pool.performAll works).AtRest) ∧
      (∀ works, pool.Toils works → works.length ≤ pool.toil) ∧
      ∀ works : List Step, (∀ step ∈ works, step.isWork) → (pool.performAll works).AtRest →
        ((pool.performAll works).ended ++ pool.cancelled.filter Call.comesBack).Perm
          ((owed [] 0 steps).filter Call.comesBack) := by
  intro pool
  have howed : pool.calls.Perm (owed [] 0 steps) := perm_calls_run workers budget steps
  refine ⟨fun before after => owed_of_publish, howed, exists_atRest pool,
    fun works => length_le_of_toils, fun works work rest => ?_⟩
  obtain ⟨hcalls, hcancelled⟩ := calls_performAll_work work
  have hworkers : (pool.performAll works).workers = workers :=
    (workers_performAll pool works).trans (workers_performAll _ steps)
  have hwaiting : (pool.performAll works).waiting = [] := by
    refine waiting_eq_nil_of_spare ?_ rest
    rwa [(hcalls.trans howed).countP_eq, hworkers]
  have hended : (pool.performAll works).ended.filter Call.comesBack =
      (pool.performAll works).ended := by
    refine List.filter_eq_self.2 fun c hc => ?_
    have hrun : (pool.performAll works).ended =
        (performAll { workers, budget } (steps ++ works)).ended := by
      simp [pool, run, performAll]
    exact comesBack_of_ended (fun _ h => absurd h List.not_mem_nil) (hrun ▸ hc)
  have hrunning : (pool.performAll works).running.filter Call.comesBack = [] := by
    refine List.filter_eq_nil_iff.2 fun c hc => ?_
    simp [Call.comesBack, (atRest_iff.1 rest).2 c hc]
  have hall := (hcalls.trans howed).filter Call.comesBack
  simpa [calls, hended, hrunning, hwaiting, hcancelled] using hall

/-- A subscriber that never comes back, before one that does and one that fails, and events. -/
def blocked (events : Nat) : List Step :=
  [.subscribe ⟨"slow", .hangs⟩, .subscribe ⟨"quick", .receives⟩, .subscribe ⟨"broken", .fails⟩] ++
    List.replicate events .publish

/-- Workers take up the calls for events, and are done with those that come back. -/
def taken (events : Nat) : List Step :=
  (List.range events).flatMap fun event =>
    [.start, .start, .finish ⟨event, ⟨"quick", .receives⟩⟩,
      .start, .finish ⟨event, ⟨"broken", .fails⟩⟩]

/-- Seven events leave one of eight workers, and reach whoever comes back. -/
theorem answered_blocked :
    (owed [] 0 (blocked 7)).countP Call.hangs < 8 ∧
      ((run 8 (.ofQuotient 5 1) (blocked 7)).performAll (taken 7)).AtRest ∧
      ((run 8 (.ofQuotient 5 1) (blocked 7)).performAll (taken 7)).ended.Perm
        ((List.range 7).flatMap fun event =>
          [⟨event, ⟨"quick", .receives⟩⟩, ⟨event, ⟨"broken", .fails⟩⟩]) := by
  have hspare : (owed [] 0 (blocked 7)).countP Call.hangs < 8 := by decide
  have hrest : ((run 8 (.ofQuotient 5 1) (blocked 7)).performAll (taken 7)).AtRest :=
    atRest_iff.2 (by decide +kernel)
  obtain ⟨-, -, -, -, hended⟩ := answered_of_spare 8 (.ofQuotient 5 1) hspare
  have hcancelled : (run 8 (.ofQuotient 5 1) (blocked 7)).cancelled = [] := by decide
  have howed : (owed [] 0 (blocked 7)).filter Call.comesBack = (List.range 7).flatMap fun event =>
      [⟨event, ⟨"quick", .receives⟩⟩, ⟨event, ⟨"broken", .fails⟩⟩] := by decide
  have hall := hended (taken 7) (by decide) hrest
  rw [hcancelled, howed] at hall
  exact ⟨hspare, hrest, by simpa using hall⟩

/-- The eighth event does not: the subscriber that never comes back has taken the last worker, and
the calls of the others, who come back, are never taken up. -/
theorem starved :
    let pool := (run 8 (.ofQuotient 5 1) (blocked 8)).performAll (taken 8)
    pool.AtRest ∧ pool.closed = false ∧
      pool.waiting = [⟨7, ⟨"quick", .receives⟩⟩, ⟨7, ⟨"broken", .fails⟩⟩] ∧
      (owed [] 0 (blocked 8)).countP (·.subscription.name = "quick") = 8 ∧
      pool.ended.countP (·.subscription.name = "quick") = 7 ∧
      (owed [] 0 (blocked 8)).countP (·.subscription.name = "broken") = 8 ∧
      pool.ended.countP (·.subscription.name = "broken") = 7 :=
  ⟨atRest_iff.2 (by decide +kernel), by decide +kernel⟩

/-- A pool that is closed while its only worker has a call that comes back late cancels the call
behind it. Nobody hangs. -/
theorem cut_off :
    let steps := [.subscribe ⟨"late", .receives⟩, .subscribe ⟨"quick", .receives⟩, .publish, .start,
      .close, .finish ⟨0, ⟨"late", .receives⟩⟩]
    (run 1 (.ofQuotient 5 1) steps).AtRest ∧ (owed [] 0 steps).countP Call.hangs = 0 ∧
      ⟨0, ⟨"quick", .receives⟩⟩ ∈ owed [] 0 steps ∧
      (run 1 (.ofQuotient 5 1) steps).ended = [⟨0, ⟨"late", .receives⟩⟩] ∧
      (run 1 (.ofQuotient 5 1) steps).cancelled = [⟨0, ⟨"quick", .receives⟩⟩] :=
  ⟨atRest_iff.2 (by decide +kernel), by decide +kernel⟩

end Pool

end Stageflow.Dispatch
