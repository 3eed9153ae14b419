import Nl2Sql.Lib.Method

/-!
# Bounded capacity

`infra/governance/semaphore.py`: a FIFO resource capacity with a bounded queue of waiters. Its methods run without an await and so
are atomic on the event loop; what interleaves is the calls of `acquire`. A call is suspended in one place only, where it awaits the
future of its waiter under a timeout. Cancelling the task, and the timeout's expiry, cancel that future if it is pending; if the
releaser has already set its result, the task is marked and the exception is thrown when it resumes.

A call is known by its number, in the order of arrival; its phase is the state of its task and of its waiter.
-/

namespace Nl2Sql

open Py

/-- The state of an `asyncio.Future` that carries no value. -/
inductive FutureState where
  | pending | result | cancelled
  deriving DecidableEq, Repr

/-- `Future.done`. -/
def FutureState.done : FutureState → Bool
  | .pending => false
  | .result => true
  | .cancelled => true

/-- `Future.cancel`: nothing happens to a future that is done. -/
def FutureState.cancel (f : FutureState) : FutureState := if f.done then f else .cancelled

/-- `_CapacityWaiter`, with what its suspended task has been sent: a cancellation, or the expiry of its timeout. -/
structure CapacityWaiter where
  future : FutureState
  granted : Bool
  cancelRequested : Bool
  expired : Bool
  deriving DecidableEq, Repr

/-- A waiter as `_reserve_or_enqueue` creates it. -/
def CapacityWaiter.fresh : CapacityWaiter := ⟨.pending, false, false, false⟩

/-- What one call of `acquire` is doing. -/
inductive CallPhase where
  /-- suspended at `await waiter.future` -/
  | waiting (w : CapacityWaiter)
  /-- inside the body of the `async with` -/
  | holding
  /-- the body ended and the `finally` gave the slot back -/
  | released
  /-- raised `CapacityExceededError("queue_full")` -/
  | queueFull
  /-- raised `CapacityExceededError("wait_timeout")` -/
  | waitTimeout
  /-- `CancelledError` passed on -/
  | cancelled
  deriving DecidableEq, Repr

/-- What the methods raise. -/
inductive CapacityError where
  | queueFull
  | waitTimeout
  | cancelled
  | releasedWithoutHolder
  deriving DecidableEq, Repr

/-- The limits a `_BoundedCapacity` is built with. A constructor argument out of range raises, so no such value exists. -/
structure CapacityLimits where
  activeLimit : Nat
  waitQueueSize : Nat
  activeLimit_pos : 1 ≤ activeLimit

/-- The fields of a `_BoundedCapacity` and the calls made on it. No method reads `grants` and `releases`: they are the calls that
were given a slot, and those that gave one back, in order. -/
structure CapacityState where
  active : Nat
  waiters : List Nat
  calls : List CallPhase
  grants : List Nat
  releases : List Nat
  deriving DecidableEq, Repr

/-- A capacity as its constructor leaves it. -/
def CapacityState.initial : CapacityState := ⟨0, [], [], [], []⟩

abbrev CapacityM : Type → Type := EStateM CapacityError CapacityState

namespace CapacityState

variable (s : CapacityState)

/-- The waiter of a call that is suspended. -/
def waiter? (t : Nat) : Option CapacityWaiter :=
  match s.calls[t]? with
  | some (.waiting w) => some w
  | _ => none

/-- `waiter.future.done()`, of an entry of the queue. -/
def isDone (t : Nat) : Bool := ((s.waiter? t).map (·.future.done)).getD true

/-- The phase of a call after it has changed. -/
def setPhase (t : Nat) (p : CallPhase) : CapacityState := { s with calls := s.calls.set t p }

end CapacityState

/-- `_discard_cancelled_waiters`. -/
def discardCancelledWaiters (s : CapacityState) : CapacityState :=
  if s.waiters.any s.isDone then { s with waiters := s.waiters.filter fun t => !s.isDone t } else s

/-- `_reserve_or_enqueue`, of the call that arrives: none for a slot at once, or the waiter. -/
def reserveOrEnqueue (c : CapacityLimits) : CapacityM (Option CapacityWaiter) := do
  modify discardCancelledWaiters
  let s ← get
  if s.active < c.activeLimit ∧ s.waiters = [] then
    set { s with active := s.active + 1, grants := s.grants ++ [s.calls.length] }
    return none
  if c.waitQueueSize ≤ s.waiters.length then
    throw .queueFull
  set { s with waiters := s.waiters ++ [s.calls.length] }
  return some CapacityWaiter.fresh

/-- The loop of `_release`: entries are taken from the left until a live one is granted the slot. -/
def grantNext (s : CapacityState) : List Nat → CapacityState
  | [] => { s with waiters := [] }
  | t :: rest =>
    match s.waiter? t with
    | none => grantNext s rest
    | some w =>
      if w.future.done then
        grantNext s rest
      else
        { s.setPhase t (.waiting { w with granted := true, future := .result }) with
          waiters := rest, active := s.active + 1, grants := s.grants ++ [t] }

/-- `_release`. -/
def release : CapacityM Unit := do
  let s ← get
  if s.active < 1 then
    throw .releasedWithoutHolder
  set (grantNext { s with active := s.active - 1 } s.waiters)

/-- The slot of a call, given back by the call. -/
def giveBack (t : Nat) : CapacityM Unit := do
  release
  modify fun s => { s with releases := s.releases ++ [t] }

/-- `_withdraw`. -/
def withdraw (t : Nat) (w : CapacityWaiter) : CapacityM Unit := do
  if w.granted then
    giveBack t
    return
  modify fun s => { s with waiters := s.waiters.erase t }
  if !w.future.done then
    modify fun s => s.setPhase t (.waiting { w with future := w.future.cancel })

/-- `acquire`, up to its `yield` or to its await. A call that raises is one that is over. -/
def acquire (c : CapacityLimits) : CapacityM Unit := do
  let waiter ← tryCatch (reserveOrEnqueue c) fun e => do
    modify fun s => { s with calls := s.calls ++ [CallPhase.queueFull] }
    throw e
  match waiter with
  | none => modify fun s => { s with calls := s.calls ++ [CallPhase.holding] }
  | some w => modify fun s => { s with calls := s.calls ++ [CallPhase.waiting w] }

/-- `acquire`, from its await on: the task resumes with the result of the future or with an exception. A cancellation wins over the
timeout: `asyncio.timeout` turns into `TimeoutError` only a cancellation that is its own. -/
def resume (t : Nat) (w : CapacityWaiter) : CapacityM Unit := do
  if w.cancelRequested then
    withdraw t w
    modify fun s => s.setPhase t .cancelled
    throw .cancelled
  if w.expired then
    withdraw t w
    modify fun s => s.setPhase t .waitTimeout
    throw .waitTimeout
  modify fun s => s.setPhase t .holding

/-- `acquire`, from the end of its body on: the `finally`. -/
def exit (t : Nat) : CapacityM Unit := do
  giveBack t
  modify fun s => s.setPhase t .released

/-- What can happen next to the calls of one capacity. -/
inductive CapacityEvent where
  | acquire
  | cancel (t : Nat)
  | expire (t : Nat)
  | resume (t : Nat)
  | exit (t : Nat)
  deriving DecidableEq, Repr

/-- One event, where it can happen: a suspended task is cancelled, or its timer fires once; the loop resumes a task whose future is
done; a body ends. -/
def capacityStep (c : CapacityLimits) (s : CapacityState) :
    CapacityEvent → Option (EStateM.Result CapacityError CapacityState Unit)
  | .acquire => some ((acquire c).run s)
  | .cancel t =>
    (s.waiter? t).map fun w => .ok () (s.setPhase t (.waiting { w with future := w.future.cancel, cancelRequested := true }))
  | .expire t =>
    match s.waiter? t with
    | some w =>
      if w.expired then none
      else some (.ok () (s.setPhase t (.waiting { w with future := w.future.cancel, expired := true })))
    | none => none
  | .resume t =>
    match s.waiter? t with
    | some w => if w.future.done then some ((resume t w).run s) else none
    | none => none
  | .exit t => if s.calls[t]? = some .holding then some ((exit t).run s) else none

/-- The state an event leaves, raised or not. -/
def stateAfter {ε σ α : Type} : EStateM.Result ε σ α → σ
  | .ok _ s => s
  | .error _ s => s

/-- The states of a capacity under any interleaving of its calls. -/
inductive CapacityReachable (c : CapacityLimits) : CapacityState → Prop where
  | initial : CapacityReachable c .initial
  | step {s : CapacityState} {r : EStateM.Result CapacityError CapacityState Unit} (event : CapacityEvent) :
    CapacityReachable c s → capacityStep c s event = some r → CapacityReachable c (stateAfter r)

end Nl2Sql
