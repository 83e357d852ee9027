import DbosTransact.Lib.Transition
import DbosTransact.SysDb.Waiters
import Mathlib.Data.Fintype.Basic
import Mathlib.Logic.Function.Basic

/-!
# Messages and events against a suspending receiver

One workflow, the receiver, suspends in `suspendForRecv` or `suspendForEvent` while any number of `Send`s and
`SetEvent`s run, each inside its own transaction, under READ COMMITTED; nothing crashes and every transaction
commits. The receiver sets itself `DELAYED`, inserts the waiter row, commits, and rechecks. A signal inserts
the message, or upserts the event, and wakes: its `UPDATE` selects its rows when it starts (`waking`) and
changes those which are still `DELAYED` once it holds their locks (`woke`). Every clock reading comes before
the delay set by the suspension has passed.
-/

namespace Dbos.MessageWake

open Relational ReadCommitted Lts

/-- What the receiver waits for: `suspendForRecv` or `suspendForEvent`. -/
inductive Wait
  | recv (topic : String)
  | event (targetID key : String)
  deriving DecidableEq, Repr

/-- A call of `Send` (with the random identifier it draws) or `SetEvent`. -/
inductive Signal
  | send (input : SendInput) (fresh : String)
  | setEvent (input : SetEventInput)
  deriving DecidableEq, Repr

/-- The receiver, what it waits for, the delay of its suspension, and `n` signals. -/
structure Config (n : Nat) where
  receiverID : String
  wait : Wait
  delayUntil : Int
  signal : Fin n → Signal

namespace Config

variable {n : Nat} (c : Config n)

/-- The waiter row of the suspension: a receiver of messages waits on itself. -/
def waiter : WaiterRow where
  waiterID := c.receiverID
  awaitedID :=
    match c.wait with
    | .recv _ => c.receiverID
    | .event targetID _ => targetID

/-- The recheck: `HasUnconsumedNotification` or `HasWorkflowEvent`. -/
def found (db : Db) : Bool :=
  match c.wait with
  | .recv topic => db.hasUnconsumedNotification c.receiverID topic
  | .event targetID key => db.hasWorkflowEvent targetID key

def Relevant (i : Fin n) : Prop :=
  match c.wait, c.signal i with
  | .recv topic, .send input _ =>
    input.destinationID = c.receiverID ∧ normalizeTopic input.topic = normalizeTopic topic
  | .event targetID key, .setEvent input => input.workflowID = targetID ∧ input.key = key
  | _, _ => False

instance (i : Fin n) : Decidable (c.Relevant i) := by
  unfold Relevant
  split <;> infer_instance

end Config

/-- The first `INSERT` of a signal. -/
def Signal.insert (now : Int) : Signal → Write
  | .send input fresh => .insertNotification (input.notification fresh now)
  | .setEvent input => .upsertEvent input.event

/-- The workflow that the row inserted first refers to; a foreign key asks for it to exist. -/
def Signal.owner : Signal → String
  | .send input _ => input.destinationID
  | .setEvent input => input.workflowID

def Signal.targets (db : Db) : Signal → List String
  | .send input _ => db.sendTargets input.destinationID
  | .setEvent input => db.delayedWaiters input.workflowID

inductive ReceiverPc
  | running
  | suspending
  | registered
  | suspended
  | found
  | waking (ids : List String) (now : Int)
  | finished
  | refused
  deriving DecidableEq, Repr

/-- Where a signal stands; `ids` are the workflows that its wake-up selected. -/
inductive SignalPc
  | idle
  | inserted
  | recorded
  | waking (ids : List String) (now : Int)
  | woke (ids : List String) (now : Int)
  | committed
  deriving DecidableEq, Repr

inductive Txn (n : Nat)
  | receiver
  | signal (i : Fin n)
  deriving DecidableEq, Repr

structure State (n : Nat) where
  store : Store Db (Txn n) Write
  receiver : ReceiverPc
  signals : Fin n → SignalPc

/-- The next statement of the receiver or of a signal, with the clock reading it takes. -/
inductive Action (n : Nat)
  | suspend (now : Int)
  | register
  | commitSuspension
  | recheck
  | selfWake (now : Int)
  | selfWakeDone
  | insert (i : Fin n) (now : Int)
  | record (i : Fin n)
  | wake (i : Fin n) (now : Int)
  | wakeDone (i : Fin n)
  | commit (i : Fin n)
  deriving DecidableEq, Repr

variable {n : Nat}

/-- The signal `i` moves on to `pc`. -/
def State.setSignal (s : State n) (i : Fin n) (pc : SignalPc) : State n :=
  { s with signals := Function.update s.signals i pc }

/-- One statement, if it is the turn of that statement and no row lock keeps it waiting. -/
def step (c : Config n) (s : State n) : Action n → Option (State n)
  | .suspend now =>
    if s.receiver = .running ∧ now < c.delayUntil then
      -- no row updated: the suspension is given up and the caller waits in-process
      if (s.store.view schema .receiver).suspendable c.receiverID = false then
        some { s with receiver := .refused }
      else if s.store.Free schema .receiver [.status c.receiverID] then
        some { s with
          store := s.store.write .receiver (.suspend c.receiverID c.delayUntil now)
          receiver := .suspending }
      else none
    else none
  | .register =>
    if s.receiver = .suspending ∧ s.store.Free schema .receiver [.waiter c.waiter] then
      some { s with
        store := s.store.write .receiver (.insertWaiter c.waiter)
        receiver := .registered }
    else none
  | .commitSuspension =>
    if s.receiver = .registered then
      some { s with store := s.store.commit schema .receiver, receiver := .suspended }
    else none
  | .recheck =>
    if s.receiver = .suspended then
      some { s with receiver := if c.found s.store.committed then .found else .finished }
    else none
  | .selfWake now =>
    if s.receiver = .found ∧ now < c.delayUntil then
      some { s with
        receiver := .waking (s.store.committed.suspendedTarget c.receiverID) now }
    else none
  | .selfWakeDone =>
    match s.receiver with
    | .waking ids now =>
      if s.store.Free schema .receiver (ids.map .status) then
        some { s with
          store := s.store.autocommit schema (.wake (s.store.committed.stillDelayed ids) now)
          receiver := .finished }
      else none
    | _ => none
  | .insert i now =>
    let w := (c.signal i).insert now
    if s.signals i = .idle ∧ (s.store.committed.statusOf (c.signal i).owner).isSome ∧
        s.store.Free schema (.signal i) (schema.rows w) then
      some ({ s with store := s.store.write (.signal i) w }.setSignal i .inserted)
    else none
  | .record i =>
    match s.signals i, c.signal i with
    | .inserted, .setEvent input =>
      let w := Write.upsertEventHistory input.history
      if s.store.Free schema (.signal i) (schema.rows w) then
        some ({ s with store := s.store.write (.signal i) w }.setSignal i .recorded)
      else none
    | _, _ => none
  | .wake i now =>
    let ready : SignalPc :=
      match c.signal i with
      | .send _ _ => .inserted
      | .setEvent _ => .recorded
    if s.signals i = ready ∧ now < c.delayUntil then
      let db := s.store.view schema (.signal i)
      some (s.setSignal i (.waking ((c.signal i).targets db) now))
    else none
  | .wakeDone i =>
    match s.signals i with
    | .waking ids now =>
      if s.store.Free schema (.signal i) (ids.map .status) then
        let ids := (s.store.view schema (.signal i)).stillDelayed ids
        some ({ s with store := s.store.write (.signal i) (.wake ids now) }.setSignal i
          (.woke ids now))
      else none
    | _ => none
  | .commit i =>
    match s.signals i with
    | .woke _ _ => some ({ s with store := s.store.commit schema (.signal i) }.setSignal i .committed)
    | _ => none

def Init (c : Config n) (s : State n) : Prop :=
  s.store.committed.statusOf c.receiverID = some .pending ∧ s.store.pending = [] ∧
    s.receiver = .running ∧ ∀ i, s.signals i = .idle

def system (c : Config n) : System (State n) (Action n) where
  init := Init c
  step := step c

def Finished (s : State n) : Prop :=
  (s.receiver = .finished ∨ s.receiver = .refused) ∧ ∀ i, s.signals i = .committed

/-- The receiver sleeps until its own delay although what it waits for is there. -/
def Lost (c : Config n) (s : State n) : Prop :=
  s.store.committed.statusOf c.receiverID = some .delayed ∧
    s.store.committed.delayOf c.receiverID = some c.delayUntil ∧
    c.found s.store.committed = true

instance (s : State n) : Decidable (Finished s) :=
  inferInstanceAs (Decidable (_ ∧ _))

instance (c : Config n) (s : State n) : Decidable (Lost c s) :=
  inferInstanceAs (Decidable (_ ∧ _))

/-- The workflows selected by a wake-up which has started and is not committed. -/
def SignalPc.selected? : SignalPc → Option (List String)
  | .waking ids _ | .woke ids _ => some ids
  | .idle | .inserted | .recorded | .committed => none

/-- The signal `i` has started its wake-up, selected the receiver and not committed yet. -/
def Reaching (c : Config n) (s : State n) (i : Fin n) : Prop :=
  ∃ ids, (s.signals i).selected? = some ids ∧ c.receiverID ∈ ids

/-- The signal `i` is relevant, has started its wake-up and not committed, and passed over the
receiver. -/
def PassedOver (c : Config n) (s : State n) (i : Fin n) : Prop :=
  c.Relevant i ∧ ∃ ids, (s.signals i).selected? = some ids ∧ c.receiverID ∉ ids

/-- The condition on the recheck: it finds something, or some open signal is about to wake the
receiver, or no open signal has passed it over. -/
def RecheckCovered (c : Config n) (s : State n) (a : Action n) : Prop :=
  a = .recheck → c.found s.store.committed = true ∨ (∃ i, Reaching c s i) ∨ ∀ i, ¬ PassedOver c s i

instance (c : Config n) (s : State n) (i : Fin n) : Decidable (Reaching c s i) :=
  inferInstanceAs (Decidable (∃ _ ∈ (s.signals i).selected?, _))

instance (c : Config n) (s : State n) (i : Fin n) : Decidable (PassedOver c s i) :=
  inferInstanceAs (Decidable (_ ∧ _))

instance (c : Config n) (s : State n) (a : Action n) : Decidable (RecheckCovered c s a) :=
  inferInstanceAs (Decidable (_ → _))

end Dbos.MessageWake
