import DbosTransact.Lib.Transition
import DbosTransact.SysDb.Waiters
import Mathlib.Data.Fintype.Basic
import Mathlib.Data.Fintype.Option
import Mathlib.Logic.Function.Basic

/-!
# The completion of a workflow against its suspending waiters

One workflow, the awaited one, completes in `UpdateWorkflowOutcome` while any number of others suspend on its
result in `suspendForResult`, under READ COMMITTED; nothing crashes and every transaction commits.

* The completion: the status `UPDATE`, committed by itself, and then `WakeWorkflowWaiters`.
* A waiter: the `UPDATE` to `DELAYED`, the `INSERT` of the waiter row and the commit; then it reads
  the status of the awaited workflow and, if that is terminal, runs `WakeWorkflowWaiters` itself.
* `WakeWorkflowWaiters`: the `EXISTS` read and, if there is a waiter row, a transaction with the `UPDATE` of
  the `DELAYED` waiters and the `DELETE` of all waiter rows, which select their rows when they start.
-/

namespace Dbos.ResultWake

open Relational ReadCommitted Lts

/-- The awaited workflow and `n` other workflows that wait for it, with their fallback delays. -/
structure Config (n : Nat) where
  awaitedID : String
  waiterID : Fin n → String
  delayUntil : Fin n → Int
  waiterID_injective : Function.Injective waiterID
  waiterID_ne : ∀ i, waiterID i ≠ awaitedID

/-- The waiter row of the waiter `i`. -/
def Config.row {n : Nat} (c : Config n) (i : Fin n) : WaiterRow := ⟨c.waiterID i, c.awaitedID⟩

inductive WaiterPc
  | running
  | suspending
  | registered
  | suspended
  | rechecked
  | refused
  deriving DecidableEq, Repr

/-- Where a call of `WakeWorkflowWaiters` stands: `ids` are the workflows that its `UPDATE`
selected, `rows` the waiter rows that its `DELETE` selected. -/
inductive WakePc
  | idle
  | reading
  | begun
  | updating (ids : List String) (now : Int)
  | updated (ids : List String) (now : Int)
  | deleting (ids : List String) (now : Int) (rows : List WaiterRow)
  | deleted (ids : List String) (now : Int) (rows : List WaiterRow)
  | done
  deriving DecidableEq, Repr

/-- Who calls `WakeWorkflowWaiters`: the completion (`none`) or the waiter `i` (`some i`). -/
abbrev Waker (n : Nat) := Option (Fin n)

inductive Txn (n : Nat)
  | suspension (i : Fin n)
  | wake (p : Waker n)
  deriving DecidableEq, Repr

structure State (n : Nat) where
  store : Store Db (Txn n) Write
  waiters : Fin n → WaiterPc
  wakes : Waker n → WakePc

inductive Action (n : Nat)
  | complete (status : Status) (output error : Option String) (now : Int)
  | suspend (i : Fin n) (now : Int)
  | register (i : Fin n)
  | commitSuspension (i : Fin n)
  | recheck (i : Fin n)
  | read (p : Waker n)
  | update (p : Waker n) (now : Int)
  | updateDone (p : Waker n)
  | delete (p : Waker n)
  | deleteDone (p : Waker n)
  | commit (p : Waker n)
  deriving DecidableEq, Repr

variable {n : Nat}

/-- The waiter `i` moves on to `pc`. -/
def State.setWaiter (s : State n) (i : Fin n) (pc : WaiterPc) : State n :=
  { s with waiters := Function.update s.waiters i pc }

/-- The waker `p` moves on to `pc`. -/
def State.setWake (s : State n) (p : Waker n) (pc : WakePc) : State n :=
  { s with wakes := Function.update s.wakes p pc }

def Config.terminal (c : Config n) (db : Db) : Bool :=
  (db.statusOf c.awaitedID).any Status.isTerminal

/-- One statement, if it is the turn of that statement and no row lock keeps it waiting. -/
def step (c : Config n) (s : State n) : Action n → Option (State n)
  | .complete status output error now =>
    -- an execution records SUCCESS or ERROR; a refused outcome wakes the waiters all the same
    if s.wakes none = .idle ∧ (status = .success ∨ status = .error) ∧
        s.store.Free schema (.wake none) [.status c.awaitedID] then
      let store :=
        if s.store.committed.statusOf c.awaitedID = some .pending then
          s.store.autocommit schema (.outcome c.awaitedID status output error now)
        else s.store
      some ({ s with store := store }.setWake none .reading)
    else none
  | .suspend i now =>
    if s.waiters i = .running then
      if (s.store.view schema (.suspension i)).suspendable (c.waiterID i) = false then
        some (s.setWaiter i .refused)
      else if s.store.Free schema (.suspension i) [.status (c.waiterID i)] then
        let w := Write.suspend (c.waiterID i) (c.delayUntil i) now
        some ({ s with store := s.store.write (.suspension i) w }.setWaiter i .suspending)
      else none
    else none
  | .register i =>
    if s.waiters i = .suspending ∧ s.store.Free schema (.suspension i) [.waiter (c.row i)] then
      -- ON CONFLICT DO NOTHING: a row which is there is neither written nor locked
      let store :=
        if s.store.committed.hasWaiter (c.row i) then s.store
        else s.store.write (.suspension i) (.insertWaiter (c.row i))
      some ({ s with store := store }.setWaiter i .registered)
    else none
  | .commitSuspension i =>
    if s.waiters i = .registered then
      some ({ s with store := s.store.commit schema (.suspension i) }.setWaiter i .suspended)
    else none
  | .recheck i =>
    if s.waiters i = .suspended then
      let pc := if c.terminal s.store.committed then .reading else .done
      some ((s.setWaiter i .rechecked).setWake (some i) pc)
    else none
  | .read p =>
    if s.wakes p = .reading then
      some (s.setWake p (if s.store.committed.waitersOf c.awaitedID = [] then .done else .begun))
    else none
  | .update p now =>
    if s.wakes p = .begun then
      let ids := (s.store.view schema (.wake p)).delayedWaiters c.awaitedID
      -- the delays of the waiters it wakes are still in the future
      if ∀ i, c.waiterID i ∈ ids → now < c.delayUntil i then
        some (s.setWake p (.updating ids now))
      else none
    else none
  | .updateDone p =>
    match s.wakes p with
    | .updating ids now =>
      if s.store.Free schema (.wake p) (ids.map .status) then
        let ids := (s.store.view schema (.wake p)).stillDelayed ids
        some ({ s with store := s.store.write (.wake p) (.wake ids now) }.setWake p
          (.updated ids now))
      else none
    | _ => none
  | .delete p =>
    match s.wakes p with
    | .updated ids now =>
      some (s.setWake p
        (.deleting ids now ((s.store.view schema (.wake p)).waitersOf c.awaitedID)))
    | _ => none
  | .deleteDone p =>
    match s.wakes p with
    | .deleting ids now rows =>
      if s.store.Free schema (.wake p) (rows.map .waiter) then
        some ({ s with store := s.store.write (.wake p) (.deleteWaiters rows) }.setWake p
          (.deleted ids now rows))
      else none
    | _ => none
  | .commit p =>
    match s.wakes p with
    | .deleted _ _ _ => some ({ s with store := s.store.commit schema (.wake p) }.setWake p .done)
    | _ => none

def Init (c : Config n) (s : State n) : Prop :=
  s.store.committed.statusOf c.awaitedID = some .pending ∧
    (∀ i, s.store.committed.statusOf (c.waiterID i) = some .pending) ∧ s.store.pending = [] ∧
    (∀ i, s.waiters i = .running) ∧ ∀ p, s.wakes p = .idle

def system (c : Config n) : System (State n) (Action n) where
  init := Init c
  step := step c

/-- Everybody is done: the completion, and every waiter with its suspension and its own wake-up. -/
def Finished (s : State n) : Prop :=
  s.wakes none = .done ∧
    ∀ i, s.waiters i = .refused ∨ s.waiters i = .rechecked ∧ s.wakes (some i) = .done

/-- The waiter `i` sleeps until its own delay although the awaited workflow is terminal. -/
def Lost (c : Config n) (s : State n) (i : Fin n) : Prop :=
  s.store.committed.statusOf (c.waiterID i) = some .delayed ∧
    s.store.committed.delayOf (c.waiterID i) = some (c.delayUntil i) ∧
    c.terminal s.store.committed = true

instance (s : State n) : Decidable (Finished s) :=
  inferInstanceAs (Decidable (_ ∧ ∀ _, _ ∨ _))

instance (c : Config n) (s : State n) (i : Fin n) : Decidable (Lost c s i) :=
  inferInstanceAs (Decidable (_ ∧ _))

/-- The workflows selected by an `UPDATE` which has started and is not committed. -/
def WakePc.selected? : WakePc → Option (List String)
  | .updating ids _ | .updated ids _ | .deleting ids _ _ | .deleted ids _ _ => some ids
  | .idle | .reading | .begun | .done => none

def WaiterPc.asleep : WaiterPc → Bool
  | .suspended | .rechecked => true
  | .running | .suspending | .registered | .refused => false

/-- A waiter has not run the `INSERT` of its waiter row. -/
def WaiterPc.unregistered : WaiterPc → Bool
  | .running | .suspending | .refused => true
  | .registered | .suspended | .rechecked => false

/-- The waiter `i` has been woken, or an open wake-up has selected it. -/
def Saved (c : Config n) (s : State n) (i : Fin n) : Prop :=
  s.store.committed.delayOf (c.waiterID i) ≠ some (c.delayUntil i) ∨
    ∃ p, ∃ ids ∈ (s.wakes p).selected?, c.waiterID i ∈ ids

/-- The waiter `i` can do without its waiter row. -/
def Dispensable (c : Config n) (s : State n) (i : Fin n) : Prop :=
  (s.waiters i).unregistered = true ∨ (s.waiters i).asleep = true ∧ Saved c s i

/-- The condition on the `DELETE`: every waiter row it takes away is one that its waiter has not
registered yet, or whose waiter is woken or selected by an open wake-up. -/
def DeleteCovered (c : Config n) (s : State n) (a : Action n) : Prop :=
  match a with
  | .deleteDone p =>
    match s.wakes p with
    | .deleting _ _ rows => ∀ i, c.row i ∈ rows → Dispensable c s i
    | _ => True
  | _ => True

instance (c : Config n) (s : State n) (i : Fin n) : Decidable (Dispensable c s i) :=
  inferInstanceAs (Decidable ((s.waiters i).unregistered = true ∨ (s.waiters i).asleep = true ∧
    (s.store.committed.delayOf (c.waiterID i) ≠ some (c.delayUntil i) ∨
      ∃ p, ∃ ids ∈ (s.wakes p).selected?, c.waiterID i ∈ ids)))

instance (c : Config n) (s : State n) (a : Action n) : Decidable (DeleteCovered c s a) := by
  unfold DeleteCovered
  split
  · split <;> infer_instance
  · infer_instance

/-! ### A wake-up that nobody interferes with -/

theorem stillDelayed_delayedWaiters (db : Db) (awaitedID : String) :
    db.stillDelayed (db.delayedWaiters awaitedID) = db.delayedWaiters awaitedID := by
  unfold Db.stillDelayed
  rw [List.filter_eq_self]
  intro id hid
  simpa using (Db.mem_delayedWaiters.1 hid).1

end Dbos.ResultWake
