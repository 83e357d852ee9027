import DbosTransact.Messages.Recv

/-!
# Each message once

A message is consumed in the transaction that checkpoints the `Recv`, and a second checkpoint of the same
step is refused, so executions at the same `Recv` deliver a message once. The `UPDATE` itself does not
protect it: one that waited for another transaction changes and returns the message even if it was consumed.
So two executions at different `Recv`s can deliver the same message, or none. They get there when one of
them goes on after an error that left no checkpoint.
-/

namespace Dbos.Recv

open Relational ReadCommitted Lts

variable {n : ℕ} {cfg : Config} {s t : State n}

/-- What holds of the messages and the checkpoints: a message is consumed precisely if it is the
payload of exactly one checkpoint; no two checkpoints carry the same message; a checkpoint holds the
payload of a message, or else a timeout error. -/
structure ExactlyOnce (cfg : Config) (d : Data) : Prop where
  consumed_iff : ∀ m ∈ d.sys.notifications.rows, m.destinationID = cfg.workflowID →
    (m.consumed = true ↔ ∃! k, (⟨k, m.messageUUID⟩ : Receipt) ∈ d.receipts)
  unique : ∀ ρ ∈ d.receipts, ∀ ρ' ∈ d.receipts, ρ.messageUUID = ρ'.messageUUID → ρ = ρ'
  checkpoint : ∀ ρ ∈ d.receipts, ∃ m ∈ d.sys.notifications.rows, m.messageUUID = ρ.messageUUID ∧
    m.destinationID = cfg.workflowID ∧ ∃ row, d.row? cfg ρ.stepID = some row ∧
      row.functionName = "DBOS.recv" ∧ row.output = m.message ∧ row.error = none
  payload : ∀ row ∈ d.sys.operations.rows, row.workflowID = cfg.workflowID →
    row.functionName = "DBOS.recv" →
      (row.output.isSome = true ∧ ∃! messageUUID, (⟨row.functionID, messageUUID⟩ : Receipt) ∈ d.receipts) ∨
      (row.output = none ∧ ∃ timeout, row.error = some (cfg.timeoutError timeout))

def Phase.refused? (cfg : Config) : Phase → Option RecordOperationResultInput
  | .conflicted a message completedAt => some (cfg.recordInput a message completedAt)
  | _ => none

/-- Two executions never build the same checkpoint: one that is refused is not the one there. -/
def Distinct (cfg : Config) (s : State n) : Action n → Prop
  | .readBack e => ∀ i ∈ (s.phases e).refused? cfg,
      (s.store.committed.row? cfg i.stepID).any i.sameWrite = false
  | _ => True

instance (cfg : Config) (s : State n) (a : Action n) : Decidable (Distinct cfg s a) := by
  unfold Distinct
  split <;> infer_instance

/-- **The condition.** An execution enters a `Recv` only if every `Recv` that an execution is in at
another step has its checkpoint. -/
def Aligned (cfg : Config) (s : State n) : Action n → Prop
  | .enter _ c => ∀ j, ∀ c' ∈ (s.phases j).call?, c'.stepID ≠ c.stepID →
      (s.store.committed.row? cfg c'.stepID).isSome = true
  | _ => True

instance (cfg : Config) (s : State n) (a : Action n) : Decidable (Aligned cfg s a) := by
  unfold Aligned
  split <;> infer_instance

/-! ### What an execution knows -/

def Phase.writes (cfg : Config) : Phase → List RecvWrite
  | .consumed _ message | .conflicted _ message _ =>
    message.toList.map fun m => .consume m.messageUUID
  | .recorded a message completedAt =>
    message.toList.map (fun m => .consume m.messageUUID) ++
      [.record (cfg.recordInput a message completedAt).row (message.map (·.messageUUID))]
  | _ => []

/-- What an execution that has looked for a message counts on: a timeout, or such an unread message. -/
structure Need where
  call : Call
  timeoutOccurred : Bool
  message : NotificationRow → Prop

def Attempt.need (a : Attempt) : Option NotificationRow → Need
  | none => ⟨a.call, a.timeoutOccurred, fun _ => False⟩
  | some r => ⟨a.call, false, fun m => m.messageUUID = r.messageUUID ∧ m.message = r.message⟩

def Phase.need? : Phase → Option Need
  | .ready c timeoutOccurred => some ⟨c, timeoutOccurred, fun _ => True⟩
  | .begun a | .checked a => some ⟨a.call, a.timeoutOccurred, fun _ => True⟩
  | .locking a messageUUID => some ⟨a.call, false, (·.messageUUID = messageUUID)⟩
  | .consumed a message | .conflicted a message _ | .recorded a message _ => some (a.need message)
  | _ => none

abbrev Data.unread (cfg : Config) (d : Data) (topic : String) : List NotificationRow :=
  NotificationTable.unconsumed d.sys.notifications cfg.workflowID topic

/-- Once the step has its checkpoint, nothing else matters. -/
def Need.Met (cfg : Config) (d : Data) (x : Need) : Prop :=
  (d.row? cfg x.call.stepID).isSome = true ∨ x.timeoutOccurred = true ∨
    ∃ m ∈ d.unread cfg x.call.topic, x.message m

def Phase.Needs (cfg : Config) (d : Data) (p : Phase) : Prop := p.need?.elim True (Need.Met cfg d)

/-- The checkpoint of the `Recv` is among the writes of the transaction. -/
def Phase.recordsAt? : Phase → Option Int
  | .recorded a _ _ => some a.call.stepID
  | _ => none

structure ExecOk (cfg : Config) (d : Data) (p : Phase) : Prop where
  records : ∀ k ∈ p.recordsAt?, d.row? cfg k = none
  needs : p.Needs cfg d

/-- Of two executions at different steps one has its checkpoint, and they do not record at the same one. -/
def Apart (cfg : Config) (d : Data) (p q : Phase) : Prop :=
  (∀ c ∈ p.call?, ∀ c' ∈ q.call?, c.stepID ≠ c'.stepID →
    (d.row? cfg c.stepID).isSome = true ∨ (d.row? cfg c'.stepID).isSome = true) ∧
  ∀ k ∈ p.recordsAt?, k ∉ q.recordsAt?

structure Inv (cfg : Config) (s : State n) : Prop where
  once : ExactlyOnce cfg s.store.committed
  messages : ∀ m ∈ s.store.committed.sys.notifications.rows, m.message.isSome = true
  own : ∀ e, s.store.own (.exec e) = (s.phases e).writes cfg
  senders : ∀ k, ∀ w ∈ s.store.own (.sender k), ∃ row, w = .sys (.insertNotification row) ∧
    row.consumed = false ∧ row.message.isSome = true
  execs : ∀ e, ExecOk cfg s.store.committed (s.phases e)
  apart : ∀ e j, e ≠ j → Apart cfg s.store.committed (s.phases e) (s.phases j)

theorem mem_unread {d : Data} {topic : String} {m : NotificationRow} : m ∈ d.unread cfg topic ↔
    m ∈ d.sys.notifications.rows ∧ m.addressed cfg.workflowID topic = true ∧ m.consumed = false := by
  simp [NotificationTable.unconsumed]

theorem Phase.needs_iff {d : Data} {p : Phase} : p.Needs cfg d ↔ ∀ x ∈ p.need?, x.Met cfg d := by
  unfold Phase.Needs
  cases p.need? <;> simp

theorem Phase.call?_of_need? {p : Phase} {x : Need} (h : x ∈ p.need?) : p.call? = some x.call := by
  cases p with
  | consumed a message | conflicted a message completedAt | recorded a message completedAt =>
    cases h
    cases message <;> rfl
  | idle | entered | probed | sleepChecked | waiting => cases h
  | ready | begun | checked | locking =>
    cases h
    rfl

theorem Need.Met.weaken {d : Data} {x y : Need} (h : x.Met cfg d) (hcall : y.call = x.call)
    (htimeout : x.timeoutOccurred = true → y.timeoutOccurred = true)
    (hmessage : ∀ m, x.message m → y.message m) : y.Met cfg d := by
  unfold Need.Met
  rw [hcall]
  exact h.imp_right (Or.imp htimeout fun ⟨m, hm, hx⟩ => ⟨m, hm, hmessage m hx⟩)

/-- More messages, and checkpoints at other steps than the one being recorded. -/
theorem ExecOk.mono {d d' : Data} {p : Phase} (h : ExecOk cfg d p)
    (hrows : ∀ k, (d.row? cfg k).isSome = true → (d'.row? cfg k).isSome = true)
    (hmessages : d.sys.notifications.rows ⊆ d'.sys.notifications.rows)
    (hrecords : ∀ k ∈ p.recordsAt?, d.row? cfg k = none → d'.row? cfg k = none) : ExecOk cfg d' p where
  records k hk := hrecords k hk (h.records k hk)
  needs := by
    refine Phase.needs_iff.2 fun x hx => ?_
    refine (Phase.needs_iff.1 h.needs x hx).imp (hrows _) (Or.imp_right ?_)
    rintro ⟨m, hm, hmessage⟩
    exact ⟨m, mem_unread.2 ((mem_unread.1 hm).imp_left (@hmessages m)), hmessage⟩

theorem Apart.symm {d : Data} {p q : Phase} (h : Apart cfg d p q) : Apart cfg d q p :=
  ⟨fun c hc c' hc' hne => (h.1 c' hc' c hc hne.symm).symm, fun k hk hk' => h.2 k hk' hk⟩

/-! ### What a commit does -/

section Commit

variable {d : Data} {a : Attempt} {completedAt : Int}

theorem row?_insertOperation (d : Db) (row : OperationRow) (receipts : List Receipt) (k : Int) :
    (⟨Write.apply (.insertOperation row) d, receipts⟩ : Data).row? cfg k =
      (d.operation? cfg.workflowID k).or
        (if (row.workflowID, row.functionID) = (cfg.workflowID, k) then some row else none) :=
  Table.find?_insert _ _ _

theorem mem_insertOperation {d : Db} {row x : OperationRow}
    (h : x ∈ (Write.apply (.insertOperation row) d).operations.rows) :
    x ∈ d.operations.rows ∨ x = row :=
  Table.mem_of_mem_insert h

theorem row?_of_mem {row : OperationRow} (h : row ∈ d.sys.operations.rows)
    (hid : row.workflowID = cfg.workflowID) : d.row? cfg row.functionID = some row := by
  have := Table.find?_of_mem h
  rwa [hid] at this

theorem row?_record {i : RecordOperationResultInput} (hid : i.workflowID = cfg.workflowID)
    (m : Option String) (hnone : d.row? cfg i.stepID = none) :
    (recvSchema.apply (.record i.row m) d).row? cfg i.stepID = some i.row := by
  refine (row?_insertOperation d.sys i.row _ i.stepID).trans ?_
  rw [show d.sys.operation? cfg.workflowID i.stepID = none from hnone]
  simp [RecordOperationResultInput.row, hid]

theorem row?_record_of_some {i : RecordOperationResultInput} (m : Option String) {k : Int}
    {row : OperationRow} (h : d.row? cfg k = some row) :
    (recvSchema.apply (.record i.row m) d).row? cfg k = some row := by
  refine (row?_insertOperation d.sys i.row _ k).trans ?_
  rw [show d.sys.operation? cfg.workflowID k = some row from h]
  rfl

theorem ExactlyOnce.no_receipt (h : ExactlyOnce cfg d) {m : NotificationRow}
    (hm : m ∈ d.sys.notifications.rows) (hdest : m.destinationID = cfg.workflowID)
    (hconsumed : m.consumed = false) : ∀ ρ ∈ d.receipts, ρ.messageUUID ≠ m.messageUUID := by
  intro ρ hρ huuid
  have hex : ∃! k, (⟨k, m.messageUUID⟩ : Receipt) ∈ d.receipts := by
    refine ⟨ρ.stepID, by rwa [← huuid], fun k hk => ?_⟩
    exact congrArg Receipt.stepID (h.unique _ hk ρ hρ huuid.symm)
  simp [(h.consumed_iff m hm hdest).2 hex] at hconsumed

theorem ExactlyOnce.no_receipt_at (h : ExactlyOnce cfg d) {k : Int} (hnone : d.row? cfg k = none) :
    ∀ ρ ∈ d.receipts, ρ.stepID ≠ k := by
  rintro ρ hρ rfl
  obtain ⟨m, _, _, _, row, hrow, _⟩ := h.checkpoint ρ hρ
  rw [hnone] at hrow
  cases hrow

theorem ExactlyOnce.record_none (h : ExactlyOnce cfg d)
    (htimeout : a.timeoutOccurred = true) :
    ExactlyOnce cfg (recvSchema.apply (.record (cfg.recordInput a none completedAt).row none) d) where
  consumed_iff := by simpa [recvSchema, Write.apply] using h.consumed_iff
  unique := by simpa [recvSchema] using h.unique
  checkpoint ρ hρ := by
    have hρ : ρ ∈ d.receipts := by simpa [recvSchema] using hρ
    obtain ⟨m, hm, huuid, hdest, row, hrow, hname⟩ := h.checkpoint ρ hρ
    exact ⟨m, hm, huuid, hdest, row, row?_record_of_some none hrow, hname⟩
  payload row hrow hid hname := by
    obtain hrow | rfl := mem_insertOperation hrow
    · simpa [recvSchema] using h.payload row hrow hid hname
    · exact .inr ⟨rfl, a.call.timeout, if_pos ⟨rfl, htimeout⟩⟩

theorem ExactlyOnce.record_some (h : ExactlyOnce cfg d) (hnone : d.row? cfg a.call.stepID = none)
    {m r : NotificationRow} (hm : m ∈ d.sys.notifications.rows) (huuid : m.messageUUID = r.messageUUID)
    (hmessage : m.message = r.message) (hdest : m.destinationID = cfg.workflowID)
    (hconsumed : m.consumed = false) (hsome : m.message.isSome = true) :
    ExactlyOnce cfg (recvSchema.apply
      (.record (cfg.recordInput a (some r) completedAt).row (some r.messageUUID))
      (recvSchema.apply (.consume r.messageUUID) d)) := by
  have hfresh := h.no_receipt hm hdest hconsumed
  rw [huuid] at hfresh
  have hfreshStep := h.no_receipt_at hnone
  have hreceipts : ∀ k u, (⟨k, u⟩ : Receipt) ∈ d.receipts ++ [⟨a.call.stepID, r.messageUUID⟩] ↔
      (⟨k, u⟩ : Receipt) ∈ d.receipts ∨ k = a.call.stepID ∧ u = r.messageUUID := by
    simp
  constructor
  case consumed_iff =>
    intro x hx hxdest
    obtain ⟨m₀, hm₀, rfl⟩ := NotificationTable.mem_consume.1 hx
    show _ ↔ ∃! k, (⟨k, _⟩ : Receipt) ∈ d.receipts ++ [⟨a.call.stepID, r.messageUUID⟩]
    split_ifs at hxdest ⊢ with heq
    · refine ⟨fun _ => ⟨a.call.stepID, ?_, fun k hk => ?_⟩, fun _ => rfl⟩
      · exact (hreceipts _ _).2 (.inr ⟨rfl, heq⟩)
      · rcases (hreceipts _ _).1 hk with hk | hk
        · exact (hfresh _ hk heq).elim
        · exact hk.1
    · rw [h.consumed_iff m₀ hm₀ hxdest]
      simp only [hreceipts, heq, and_false, or_false]
  case unique =>
    intro ρ hρ ρ' hρ' hsame
    rcases List.mem_append.1 hρ with hρ | hρ <;> rcases List.mem_append.1 hρ' with hρ' | hρ'
    · exact h.unique ρ hρ ρ' hρ' hsame
    · obtain rfl := List.mem_singleton.1 hρ'
      exact (hfresh ρ hρ hsame).elim
    · obtain rfl := List.mem_singleton.1 hρ
      exact (hfresh ρ' hρ' hsame.symm).elim
    · rw [List.mem_singleton.1 hρ, List.mem_singleton.1 hρ']
  case checkpoint =>
    intro ρ hρ
    rcases List.mem_append.1 hρ with hρ | hρ
    · obtain ⟨m₀, hm₀, huuid₀, hdest₀, row, hrow, hname, houtput, herror⟩ := h.checkpoint ρ hρ
      refine ⟨_, NotificationTable.mem_consume.2 ⟨m₀, hm₀, rfl⟩, ?_⟩
      rw [if_neg (huuid₀ ▸ hfresh ρ hρ)]
      exact ⟨huuid₀, hdest₀, row, row?_record_of_some _ hrow, hname, houtput, herror⟩
    · obtain rfl := List.mem_singleton.1 hρ
      refine ⟨_, NotificationTable.mem_consume.2 ⟨m, hm, rfl⟩, ?_⟩
      rw [if_pos huuid]
      refine ⟨huuid, hdest, _, row?_record (i := cfg.recordInput a (some r) completedAt) rfl _ hnone,
        rfl, hmessage.symm, if_neg fun hn => ?_⟩
      rw [Option.bind_some, ← hmessage] at hn
      simp [hn.1] at hsome
  case payload =>
    intro row hrow hid hname
    obtain hrow | rfl := mem_insertOperation hrow
    · have hne : row.functionID ≠ a.call.stepID := by
        intro heq
        have : d.row? cfg row.functionID = some row := row?_of_mem hrow hid
        rw [heq] at this
        exact Option.some_ne_none _ (this.symm.trans hnone)
      refine (h.payload row hrow hid hname).imp_left fun hpayload => ⟨hpayload.1, ?_⟩
      show ∃! u, (⟨_, u⟩ : Receipt) ∈ d.receipts ++ [⟨a.call.stepID, r.messageUUID⟩]
      simpa only [hreceipts, hne, false_and, or_false] using hpayload.2
    · rw [hmessage] at hsome
      refine .inl ⟨hsome, r.messageUUID, (hreceipts _ _).2 (.inr ⟨rfl, rfl⟩), fun u hu => ?_⟩
      rcases (hreceipts _ _).1 hu with hu | hu
      · exact (hfreshStep _ hu rfl).elim
      · exact hu.2

theorem ExactlyOnce.insertOperation (h : ExactlyOnce cfg d) {row : OperationRow}
    (hname : row.functionName ≠ "DBOS.recv") :
    ExactlyOnce cfg (recvSchema.apply (.sys (.insertOperation row)) d) where
  consumed_iff := h.consumed_iff
  unique := h.unique
  checkpoint ρ hρ := by
    obtain ⟨m, hm, huuid, hdest, r, hr, hspec⟩ := h.checkpoint ρ hρ
    refine ⟨m, hm, huuid, hdest, r, ?_, hspec⟩
    refine (row?_insertOperation d.sys row _ ρ.stepID).trans ?_
    rw [show d.sys.operation? cfg.workflowID ρ.stepID = some r from hr]
    rfl
  payload r hr hid hrecv := by
    obtain hr | rfl := mem_insertOperation hr
    · exact h.payload r hr hid hrecv
    · exact (hname hrecv).elim

theorem ExactlyOnce.insertNotification (h : ExactlyOnce cfg d) {row : NotificationRow}
    (hconsumed : row.consumed = false) :
    ExactlyOnce cfg (recvSchema.apply (.sys (.insertNotification row)) d) := by
  have hrows := Table.rows_insert d.sys.notifications row
  split_ifs at hrows with hnew
  · -- no checkpoint was made from a message that was not there
    have hfresh : ∀ ρ ∈ d.receipts, ρ.messageUUID ≠ row.messageUUID := by
      intro ρ hρ huuid
      obtain ⟨m, hm, hmuuid, -⟩ := h.checkpoint ρ hρ
      exact Table.find?_eq_none.1 hnew m hm (hmuuid.trans huuid)
    refine ⟨fun m hm hdest => ?_, h.unique, fun ρ hρ => ?_, h.payload⟩
    · rw [show (recvSchema.apply (.sys (.insertNotification row)) d).sys.notifications.rows = _
        from hrows] at hm
      rcases List.mem_append.1 hm with hm | hm
      · exact h.consumed_iff m hm hdest
      · obtain rfl := List.mem_singleton.1 hm
        refine ⟨fun hc => by simp [hconsumed] at hc, fun hex => ?_⟩
        obtain ⟨k, hk, -⟩ := hex
        exact (hfresh _ hk rfl).elim
    · obtain ⟨m, hm, hspec⟩ := h.checkpoint ρ hρ
      refine ⟨m, ?_, hspec⟩
      rw [show (recvSchema.apply (.sys (.insertNotification row)) d).sys.notifications.rows = _
        from hrows]
      exact List.mem_append_left _ hm
  · have hsame : (recvSchema.apply (.sys (.insertNotification row)) d).sys.notifications.rows =
        d.sys.notifications.rows := hrows
    refine ⟨?_, h.unique, ?_, h.payload⟩
    · rw [hsame]
      exact h.consumed_iff
    · rw [hsame]
      exact h.checkpoint

/-- An execution commits: the messages are those of before, except that one may be consumed. -/
theorem ExactlyOnce.recorded (h : ExactlyOnce cfg d)
    (hmessages : ∀ m ∈ d.sys.notifications.rows, m.message.isSome = true)
    (hnone : d.row? cfg a.call.stepID = none) {message : Option NotificationRow}
    (hneed : (a.need message).Met cfg d) {d' : Data}
    (hd' : d' = ((Phase.recorded a message completedAt).writes cfg).foldl
      (fun d w => recvSchema.apply w d) d) :
    ExactlyOnce cfg d' ∧ (∀ m ∈ d'.sys.notifications.rows, m.message.isSome = true) ∧
      (∀ k, (d.row? cfg k).isSome = true → (d'.row? cfg k).isSome = true) ∧
        (d'.row? cfg a.call.stepID).isSome = true := by
  have hgrows : ∀ {d₀ : Data} (m : Option String) (k : Int), (d₀.row? cfg k).isSome = true →
      ((recvSchema.apply (.record (cfg.recordInput a message completedAt).row m) d₀).row?
        cfg k).isSome = true := by
    intro d₀ m k hk
    obtain ⟨row, hrow⟩ := Option.isSome_iff_exists.1 hk
    rw [row?_record_of_some m hrow]
    rfl
  have hrow : ∀ (d₀ : Data) (m : Option String), d₀.row? cfg a.call.stepID = none →
      ((recvSchema.apply (.record (cfg.recordInput a message completedAt).row m) d₀).row?
        cfg a.call.stepID).isSome = true := fun _ m h₀ =>
    Option.isSome_of_eq_some (row?_record (i := cfg.recordInput a message completedAt) rfl m h₀)
  cases message with
  | none =>
    subst hd'
    rcases hneed with hsome | htimeout | ⟨_, _, hfalse⟩
    · simp [Attempt.need, hnone] at hsome
    · exact ⟨h.record_none htimeout, hmessages, hgrows none, hrow d none hnone⟩
    · exact hfalse.elim
  | some r =>
    subst hd'
    rcases hneed with hsome | htimeout | ⟨m, hm, huuid, hmessage⟩
    · simp [Attempt.need, hnone] at hsome
    · cases htimeout
    · obtain ⟨hm, haddressed, hconsumed⟩ := mem_unread.1 hm
      refine ⟨h.record_some hnone hm huuid hmessage (NotificationRow.destinationID_of_addressed haddressed)
        hconsumed (hmessages m hm), ?_, hgrows (some r.messageUUID),
        hrow (recvSchema.apply (.consume r.messageUUID) d) _ hnone⟩
      intro x hx
      obtain ⟨m₀, hm₀, rfl⟩ := NotificationTable.mem_consume.1 hx
      split_ifs
      · exact hmessages m₀ hm₀
      · exact hmessages m₀ hm₀

end Commit

/-! ### The invariant is kept -/

theorem Inv.exec (h : Inv cfg s) {e : Fin n} {p : Phase}
    (hphases : t.phases = Function.update s.phases e p)
    (hcommitted : t.store.committed = s.store.committed)
    (hself : t.store.own (.exec e) = p.writes cfg)
    (hothers : ∀ u, .exec e ≠ u → t.store.own u = s.store.own u)
    (hok : ExecOk cfg s.store.committed p)
    (hapart : ∀ j, j ≠ e → Apart cfg s.store.committed p (s.phases j)) : Inv cfg t := by
  have hphase : t.phases e = p := by rw [hphases, Function.update_self]
  have hphase_ne : ∀ j, j ≠ e → t.phases j = s.phases j := by
    intro j hj
    rw [hphases, Function.update_of_ne hj]
  constructor
  case once => rw [hcommitted]; exact h.once
  case messages => rw [hcommitted]; exact h.messages
  case own =>
    intro j
    by_cases hj : j = e
    · rw [hj, hphase, hself]
    · rw [hphase_ne j hj, hothers _ (by simpa using Ne.symm hj), h.own j]
  case senders =>
    intro k
    rw [hothers _ (by simp)]
    exact h.senders k
  case execs =>
    rw [hcommitted, hphases]
    exact (Function.forall_update_iff _ fun _ q => ExecOk cfg s.store.committed q).2
      ⟨hok, fun j _ => h.execs j⟩
  case apart =>
    intro i j hij
    rw [hcommitted]
    by_cases hi : i = e
    · subst hi
      rw [hphase, hphase_ne j hij.symm]
      exact hapart j hij.symm
    · rw [hphase_ne i hi]
      by_cases hj : j = e
      · subst hj
        rw [hphase]
        exact (hapart i hi).symm
      · rw [hphase_ne j hj]
        exact h.apart i j hij

/-- The execution stays in its call, or leaves it, and does not record. -/
theorem Inv.apart_of (h : Inv cfg s) {e j : Fin n} (hj : j ≠ e) {p : Phase}
    (hcall : ∀ c, p.call? = some c → (s.phases e).call? = some c)
    (hrecords : ∀ k ∈ p.recordsAt?, k ∉ (s.phases j).recordsAt?) :
    Apart cfg s.store.committed p (s.phases j) :=
  ⟨fun c hc => (h.apart e j hj.symm).1 c (hcall c hc), hrecords⟩

theorem not_mem_of_none {p : Phase} (h : p.recordsAt? = none) {P : Int → Prop} :
    ∀ k ∈ p.recordsAt?, P k := by
  rw [h]
  exact nofun

theorem Inv.goto (h : Inv cfg s) {e : Fin n} {p₀ p : Phase} (hphase : s.phases e = p₀)
    (hwrites : p.writes cfg = p₀.writes cfg) (hneeds : p.Needs cfg s.store.committed)
    (hcall : ∀ c, p.call? = some c → p₀.call? = some c) (hrecords : p.recordsAt? = none) :
    Inv cfg (s.goto e p) := by
  subst hphase
  exact h.exec rfl rfl ((h.own e).trans hwrites.symm) (fun _ _ => rfl) ⟨not_mem_of_none hrecords, hneeds⟩
    fun _ hj => h.apart_of hj hcall (not_mem_of_none hrecords)

theorem Inv.rollback (h : Inv cfg s) {e : Fin n} {p : Phase} (hwrites : p.writes cfg = [])
    (hneeds : p.Needs cfg s.store.committed)
    (hcall : ∀ c, p.call? = some c → (s.phases e).call? = some c) (hrecords : p.recordsAt? = none) :
    Inv cfg (s.rollback e p) :=
  h.exec rfl rfl ((Store.own_rollback_self _ _).trans hwrites.symm)
    (fun _ hu => Store.own_rollback_of_ne _ hu) ⟨not_mem_of_none hrecords, hneeds⟩
    fun _ hj => h.apart_of hj hcall (not_mem_of_none hrecords)

theorem Inv.write (h : Inv cfg s) {e : Fin n} {p₀ p : Phase} {w : RecvWrite}
    (hphase : s.phases e = p₀) (hwrites : p.writes cfg = p₀.writes cfg ++ [w])
    (hok : ExecOk cfg s.store.committed p) (hcall : ∀ c, p.call? = some c → p₀.call? = some c)
    (hexclusive : ∀ k ∈ p.recordsAt?, ∀ j, j ≠ e → (s.phases j).recordsAt? ≠ some k) :
    Inv cfg (s.write e w p) := by
  subst hphase
  exact h.exec rfl rfl ((Store.own_write_self _ _ _).trans (by rw [h.own e, hwrites]))
    (fun _ hu => Store.own_write_of_ne _ _ hu) hok
    fun j hj => h.apart_of hj hcall fun k hk => hexclusive k hk j hj

theorem Inv.recordsAt?_ne (h : Inv cfg s) {u : Txn n} {j : Fin n} (hj : .exec j ≠ u) {k : Int}
    (hfree : s.store.Free recvSchema u [.operation cfg.workflowID k]) :
    (s.phases j).recordsAt? ≠ some k := by
  intro hk
  cases hphase : s.phases j
  case recorded a message completedAt =>
    rw [hphase] at hk
    obtain rfl : a.call.stepID = k := Option.some.inj hk
    have hmem : RecvWrite.record (cfg.recordInput a message completedAt).row
        (message.map (·.messageUUID)) ∈ s.store.own (.exec j) := by
      rw [h.own j, hphase]
      simp [Phase.writes]
    exact hfree.not_mem_rows hj hmem List.mem_cons_self List.mem_cons_self
  all_goals
    rw [hphase] at hk
    cases hk

theorem Inv.publish (h : Inv cfg s) (hphases : t.phases = s.phases)
    (hown : ∀ e, t.store.own (.exec e) = s.store.own (.exec e))
    (hsenders : ∀ k, t.store.own (.sender k) ⊆ s.store.own (.sender k))
    (honce : ExactlyOnce cfg t.store.committed)
    (hsome : ∀ m ∈ t.store.committed.sys.notifications.rows, m.message.isSome = true)
    (hrows : ∀ k, (s.store.committed.row? cfg k).isSome = true →
      (t.store.committed.row? cfg k).isSome = true)
    (hmessages : s.store.committed.sys.notifications.rows ⊆ t.store.committed.sys.notifications.rows)
    (hrecords : ∀ e, ∀ k ∈ (s.phases e).recordsAt?, s.store.committed.row? cfg k = none →
      t.store.committed.row? cfg k = none) :
    Inv cfg t where
  once := honce
  messages := hsome
  own e := by rw [hown e, hphases, h.own e]
  senders k w hw := h.senders k w (hsenders k hw)
  execs e := by
    rw [hphases]
    exact (h.execs e).mono hrows hmessages (hrecords e)
  apart i j hij := by
    rw [hphases]
    exact ⟨fun c hc c' hc' hne => ((h.apart i j hij).1 c hc c' hc' hne).imp (hrows _) (hrows _),
      (h.apart i j hij).2⟩

section Recorded

variable {e j : Fin n} {a : Attempt} {message : Option NotificationRow} {completedAt : Int}

theorem Inv.row?_of_recorded (h : Inv cfg s) (hphase : s.phases e = .recorded a message completedAt) :
    s.store.committed.row? cfg a.call.stepID = none :=
  (h.execs e).records a.call.stepID (by rw [hphase]; rfl)

/-- While an execution is about to commit, a `Recv` at another step has its checkpoint. -/
theorem Inv.checkpointed_of_recorded (h : Inv cfg s)
    (hphase : s.phases e = .recorded a message completedAt) (hj : j ≠ e) {c : Call}
    (hc : (s.phases j).call? = some c) (hne : c.stepID ≠ a.call.stepID) :
    (s.store.committed.row? cfg c.stepID).isSome = true := by
  refine ((h.apart j e hj).1 c hc a.call (by rw [hphase]; rfl) hne).resolve_right ?_
  simp [h.row?_of_recorded hphase]

theorem Inv.alone (h : Inv cfg s) (hphase : s.phases e = .recorded a message completedAt) (hj : j ≠ e) :
    (s.phases j).recordsAt? = none := by
  cases hp : s.phases j
  case recorded a' message' completedAt' =>
    have hne : a'.call.stepID ≠ a.call.stepID := by
      intro hstep
      refine (h.apart e j hj.symm).2 a.call.stepID (by rw [hphase]; rfl) ?_
      rw [hp, ← hstep]
      rfl
    have hrow := h.checkpointed_of_recorded hphase hj (c := a'.call) (by rw [hp]; rfl) hne
    simp [h.row?_of_recorded hp] at hrow
  all_goals rfl

/-- **An execution commits its `Recv`.** No other execution is about to commit another one, and
every open `Recv` has its checkpoint afterwards. -/
theorem Inv.commit (h : Inv cfg s) (hphase : s.phases e = .recorded a message completedAt) {p : Phase}
    (hwrites : p.writes cfg = []) (hrecords : p.recordsAt? = none)
    (hcall : ∀ c, p.call? = some c → c = a.call) : Inv cfg (s.commit e p) := by
  have hneeds := (h.execs e).needs
  rw [hphase] at hneeds
  have hview : (s.commit e p).store.committed = ((Phase.recorded a message completedAt).writes cfg).foldl
      (fun d w => recvSchema.apply w d) s.store.committed := by
    show Store.view recvSchema s.store (.exec e) = _
    rw [Store.view, h.own e, hphase]
  obtain ⟨honce, hmessages, hgrows, hrow⟩ :=
    h.once.recorded h.messages (h.row?_of_recorded hphase) hneeds hview
  have hself : (s.commit e p).phases e = p := Function.update_self _ _ _
  have hother : ∀ j, j ≠ e → (s.commit e p).phases j = s.phases j :=
    fun j hj => Function.update_of_ne hj _ _
  have hquiet : ∀ j, ((s.commit e p).phases j).recordsAt? = none := by
    intro j
    by_cases hj : j = e
    · rw [hj, hself, hrecords]
    · rw [hother j hj, h.alone hphase hj]
  have hall : ∀ j c, ((s.commit e p).phases j).call? = some c →
      ((s.commit e p).store.committed.row? cfg c.stepID).isSome = true := by
    intro j c hc
    by_cases hstep : c.stepID = a.call.stepID
    · rw [hstep]
      exact hrow
    · have hj : j ≠ e := by
        rintro rfl
        rw [hself] at hc
        exact hstep (congrArg Call.stepID (hcall c hc))
      rw [hother j hj] at hc
      exact hgrows _ (h.checkpointed_of_recorded hphase hj hc hstep)
  constructor
  case once => exact honce
  case messages => exact hmessages
  case own =>
    intro j
    by_cases hj : j = e
    · rw [hj, hself, hwrites]
      exact Store.own_commit_self _ _ _
    · rw [hother j hj, ← h.own j]
      exact Store.own_commit_of_ne _ _ (by simpa using Ne.symm hj)
  case senders =>
    intro k
    rw [show (s.commit e p).store.own (.sender k) = s.store.own (.sender k) from
      Store.own_commit_of_ne _ _ (by simp)]
    exact h.senders k
  case execs =>
    intro j
    refine ⟨not_mem_of_none (hquiet j), Phase.needs_iff.2 fun x hx => .inl ?_⟩
    exact hall j x.call (Phase.call?_of_need? hx)
  case apart => exact fun i j _ => ⟨fun c hc _ _ _ => .inl (hall i c hc), not_mem_of_none (hquiet i)⟩

end Recorded

/-! ### One lemma a statement -/

theorem Inv.needs (h : Inv cfg s) {e : Fin n} {p : Phase} (hphase : s.phases e = p) :
    p.Needs cfg s.store.committed :=
  hphase ▸ (h.execs e).needs

theorem met_of_pending {d : Data} {c : Call} {timeoutOccurred : Bool}
    (h : d.pending cfg c.topic = true) : Need.Met cfg d ⟨c, timeoutOccurred, fun _ => True⟩ := by
  obtain ⟨m, hm⟩ := List.exists_mem_of_ne_nil _ (of_decide_eq_true h)
  exact .inr (.inr ⟨m, hm, trivial⟩)

theorem met_of_selectable {d : Data} {c : Call} {messageUUID : String}
    (h : selectable cfg d.sys.notifications c.topic (some messageUUID) = true) :
    Need.Met cfg d ⟨c, false, (·.messageUUID = messageUUID)⟩ := by
  cases hfind : d.sys.notifications.find? messageUUID with
  | none => simp [selectable, hfind] at h
  | some r =>
    simp only [selectable, hfind, Option.any_some, decide_eq_true_eq] at h
    exact .inr (.inr ⟨r, h.1, Table.key_of_find? hfind⟩)

theorem met_of_need {d : Data} {a : Attempt} {message : Option NotificationRow}
    (h : (a.need message).Met cfg d) : Need.Met cfg d ⟨a.call, a.timeoutOccurred, fun _ => True⟩ := by
  cases message with
  | none => exact h.weaken rfl id fun _ _ => trivial
  | some r => exact h.weaken rfl nofun fun _ _ => trivial

theorem Inv.enter (h : Inv cfg s) {e : Fin n} {c : Call} (halign : Aligned cfg s (.enter e c))
    (hstep : step cfg s (.enter e c) = some t) : Inv cfg t := by
  simp only [step] at hstep
  split at hstep
  next hidle =>
    split at hstep
    next hcheck =>
      cases hstep
      refine h.exec rfl rfl ((h.own e).trans (by rw [hidle]; rfl)) (fun _ _ => rfl)
        ⟨not_mem_of_none rfl, trivial⟩ fun j _ => ⟨?_, not_mem_of_none rfl⟩
      rintro _ ⟨⟩ c' hc' hne
      exact .inr (halign j c' hc' hne.symm)
    next => cases hstep
  next => cases hstep

theorem Inv.sleepInsert (h : Inv cfg s) {e : Fin n} {deadline : String} {startedAt completedAt : Int}
    (hstep : step cfg s (.sleepInsert e deadline startedAt completedAt) = some t) : Inv cfg t := by
  simp only [step] at hstep
  split at hstep
  next c hphase =>
    have hgoto : ∀ {s' : State n}, Inv cfg s' → s'.phases e = .sleepChecked c →
        Inv cfg (s'.goto e (.waiting c)) := fun h' hp =>
      h'.goto hp rfl trivial (fun _ hc => hc) rfl
    split_ifs at hstep with hfree
    split at hstep
    next hnone =>
      cases hstep
      set row := (cfg.sleepInput c deadline startedAt completedAt).row with hrow
      let s' : State n := { s with store := s.store.autocommit recvSchema (.sys (.insertOperation row)) }
      have hrowAt : ∀ k, s'.store.committed.row? cfg k = (s.store.committed.row? cfg k).or
          (if (cfg.workflowID, c.sleepStepID) = (cfg.workflowID, k) then some row else none) :=
        fun k => row?_insertOperation s.store.committed.sys row _ k
      have h' : Inv cfg s' := by
        refine h.publish rfl (fun _ => rfl) (fun _ => List.Subset.refl _)
          (h.once.insertOperation (show "DBOS.sleep" ≠ "DBOS.recv" by decide)) h.messages
          (fun k hk => ?_) (List.Subset.refl _) (fun j k hk hkNone => ?_)
        · rw [hrowAt, Option.isSome_or, hk, Bool.true_or]
        · -- who records at this step would hold the lock on its key
          have hne : c.sleepStepID ≠ k := by
            rintro rfl
            exact h.recordsAt?_ne (u := .single) (by simp) hfree hk
          rw [hrowAt, hkNone]
          simp [hne]
      exact hgoto h' hphase
    next =>
      split at hstep
      · cases hstep
        exact hgoto h hphase
      · cases hstep
        exact h.goto hphase rfl trivial (fun _ hc => by cases hc) rfl
  next => cases hstep

theorem Inv.select (h : Inv cfg s) {e : Fin n} {messageUUID : Option String}
    (hstep : step cfg s (.select e messageUUID) = some t) : Inv cfg t := by
  simp only [step] at hstep
  split at hstep
  next a hphase =>
    split_ifs at hstep with hselect
    cases messageUUID with
    | none =>
      cases hstep
      refine h.goto hphase rfl ((h.needs hphase).imp_right (Or.imp_right ?_)) (fun _ hc => hc) rfl
      rintro ⟨m, hm, -⟩
      have hempty : NotificationTable.unconsumed s.db.notifications cfg.workflowID a.call.topic = [] := by
        simpa [selectable] using hselect
      exact absurd hm (List.eq_nil_iff_forall_not_mem.1 hempty m)
    | some messageUUID =>
      cases hstep
      exact h.goto hphase rfl (met_of_selectable hselect) (fun _ hc => hc) rfl
  next => cases hstep

theorem Inv.update (h : Inv cfg s) {e : Fin n} (hstep : step cfg s (.update e) = some t) :
    Inv cfg t := by
  simp only [step] at hstep
  split at hstep
  next a messageUUID hphase =>
    split_ifs at hstep with hfree
    split at hstep
    next hnone =>
      cases hstep
      refine h.goto hphase rfl ((h.needs hphase).imp_right (Or.imp (fun hf => by cases hf) ?_))
        (fun _ hc => hc) rfl
      -- messages are not deleted
      rintro ⟨m, hm, huuid⟩
      exact absurd huuid (Table.find?_eq_none.1 hnone m (mem_unread.1 hm).1)
    next r hfind =>
      cases hstep
      obtain rfl : r.messageUUID = messageUUID := Table.key_of_find? hfind
      refine h.write hphase rfl ⟨not_mem_of_none rfl, (h.needs hphase).imp_right (Or.imp_right ?_)⟩
        (fun _ hc => hc) (not_mem_of_none rfl)
      rintro ⟨m, hm, huuid⟩
      obtain rfl : m = r := Table.eq_of_find? hfind (mem_unread.1 hm).1 huuid
      exact ⟨m, hm, rfl, rfl⟩
  next => cases hstep

theorem Inv.insert (h : Inv cfg s) {e : Fin n} {now : Int}
    (hstep : step cfg s (.insert e now) = some t) : Inv cfg t := by
  simp only [step] at hstep
  split at hstep
  next a message hphase =>
    have hneeds := h.needs hphase
    split_ifs at hstep with hfree hsome
    · cases hstep
      exact h.goto hphase rfl hneeds (fun _ hc => hc) rfl
    · cases hstep
      refine h.write hphase rfl ⟨?_, hneeds⟩ (fun _ hc => hc) ?_
      · rintro _ ⟨⟩
        simpa using hsome
      · rintro _ ⟨⟩ j hj
        exact h.recordsAt?_ne (by simpa using hj) hfree
  next => cases hstep

theorem Inv.readBack (h : Inv cfg s) {e : Fin n} (hdistinct : Distinct cfg s (.readBack e))
    (hstep : step cfg s (.readBack e) = some t) : Inv cfg t := by
  simp only [step] at hstep
  split at hstep
  next a message completedAt hphase =>
    split at hstep
    next hok =>
      obtain ⟨row, hrow, hsame⟩ := RecordOperationResultInput.onConflict_eq_ok hok
      have hdiffers := hdistinct (cfg.recordInput a message completedAt) (by rw [hphase]; rfl)
      rw [show s.store.committed.row? cfg (cfg.recordInput a message completedAt).stepID = some row
        from hrow, Option.any_some, hsame] at hdiffers
      cases hdiffers
    next =>
      cases hstep
      exact h.rollback rfl trivial (fun _ hc => by cases hc) rfl
  next => cases hstep

theorem Inv.abort (h : Inv cfg s) {e : Fin n} (hstep : step cfg s (.abort e) = some t) :
    Inv cfg t := by
  have hrollback : ∀ a, (s.phases e).call? = some a.call →
      Need.Met cfg s.store.committed ⟨a.call, a.timeoutOccurred, fun _ => True⟩ →
      Inv cfg (s.rollback e (.begun a)) := by
    intro a hcall hmet
    exact h.rollback rfl hmet (fun c hc => by rw [hcall]; exact hc) rfl
  have hneeds := (h.execs e).needs
  simp only [step] at hstep
  cases hphase : s.phases e <;> rw [hphase] at hstep hneeds hrollback
  case checked a =>
    cases hstep
    exact hrollback a rfl hneeds
  case locking a messageUUID =>
    cases hstep
    exact hrollback a rfl (Need.Met.weaken hneeds rfl nofun fun _ _ => trivial)
  case consumed a message | conflicted a message completedAt | recorded a message completedAt =>
    cases hstep
    exact hrollback a rfl (met_of_need hneeds)
  all_goals cases hstep

theorem Inv.commitSend (h : Inv cfg s) (k : ℕ) :
    Inv cfg { s with store := s.store.commit recvSchema (.sender k) } := by
  let d₀ := s.store.committed
  have hview : ExactlyOnce cfg (s.store.view recvSchema (.sender k)) ∧
      (∀ m ∈ (s.store.view recvSchema (.sender k)).sys.notifications.rows, m.message.isSome = true) ∧
      (s.store.view recvSchema (.sender k)).sys.operations = d₀.sys.operations ∧
      d₀.sys.notifications.rows ⊆ (s.store.view recvSchema (.sender k)).sys.notifications.rows := by
    refine Store.view_induction (P := fun d => ExactlyOnce cfg d ∧
      (∀ m ∈ d.sys.notifications.rows, m.message.isSome = true) ∧
      d.sys.operations = d₀.sys.operations ∧
      d₀.sys.notifications.rows ⊆ d.sys.notifications.rows) ?_
      ⟨h.once, h.messages, rfl, List.Subset.refl _⟩
    rintro w hw d ⟨honce, hmessages, hoperations, hsub⟩
    obtain ⟨row, rfl, hconsumed, hsome⟩ := h.senders k w hw
    refine ⟨honce.insertNotification hconsumed, fun m hm => ?_, hoperations, fun m hm => ?_⟩
    · obtain hm | rfl := Table.mem_of_mem_insert hm
      · exact hmessages m hm
      · exact hsome
    · show m ∈ (d.sys.notifications.insert row).rows
      rw [Table.rows_insert]
      split_ifs
      · exact List.mem_append_left _ (hsub hm)
      · exact hsub hm
  obtain ⟨honce, hmessages, hoperations, hsub⟩ := hview
  have hrow : ∀ k', (s.store.view recvSchema (.sender k)).row? cfg k' = d₀.row? cfg k' := by
    intro k'
    simp only [Data.row?, Db.operation?, hoperations]
  refine h.publish rfl (fun e => Store.own_commit_of_ne _ _ (by simp)) (fun k' => ?_) honce hmessages
    (fun k' hk' => ?_) hsub (fun e k' _ hnone => ?_)
  · by_cases hk : k' = k
    · rw [hk, Store.own_commit_self]
      exact List.nil_subset _
    · rw [Store.own_commit_of_ne _ _ (by simpa using Ne.symm hk)]
      exact List.Subset.refl _
  · exact (hrow k').symm ▸ hk'
  · exact (hrow k').trans hnone

theorem Inv.send (h : Inv cfg s) {k : ℕ} {row : NotificationRow} (hconsumed : row.consumed = false)
    (hsome : row.message.isSome = true) :
    Inv cfg { s with store := s.store.write (.sender k) (.sys (.insertNotification row)) } where
  once := h.once
  messages := h.messages
  own e := (Store.own_write_of_ne _ _ (by simp)).trans (h.own e)
  senders k' w hw := by
    by_cases hk : k' = k
    · subst hk
      rw [Store.own_write_self] at hw
      rcases List.mem_append.1 hw with hw | hw
      · exact h.senders k' w hw
      · exact ⟨row, List.mem_singleton.1 hw, hconsumed, hsome⟩
    · rw [Store.own_write_of_ne _ _ (by simpa using Ne.symm hk)] at hw
      exact h.senders k' w hw
  execs := h.execs
  apart := h.apart

theorem Inv.rollbackSend (h : Inv cfg s) (k : ℕ) :
    Inv cfg { s with store := s.store.rollback (.sender k) } := by
  refine h.publish rfl (fun e => Store.own_rollback_of_ne _ (by simp)) (fun k' => ?_) h.once
    h.messages (fun _ hk' => hk') (List.Subset.refl _) (fun _ _ _ hnone => hnone)
  by_cases hk : k' = k
  · rw [hk, Store.own_rollback_self]
    exact List.nil_subset _
  · rw [Store.own_rollback_of_ne _ (by simpa using Ne.symm hk)]
    exact List.Subset.refl _

theorem Inv.wait (h : Inv cfg s) {e : Fin n} {a : Action n}
    (ha : a = .probe e ∨ a = .sleepCheck e ∨ a = .found e ∨ a = .timeout e)
    (hstep : step cfg s a = some t) : Inv cfg t := by
  rcases ha with rfl | rfl | rfl | rfl <;> simp only [step] at hstep <;> split at hstep
  next c hphase =>
    split_ifs at hstep with hpending
    · cases hstep
      exact h.goto hphase rfl (met_of_pending hpending) (fun _ hc => hc) rfl
    · cases hstep
      exact h.goto hphase rfl trivial (fun _ hc => hc) rfl
  next => cases hstep
  next c hphase =>
    split at hstep
    · cases hstep
      exact h.goto hphase rfl trivial (fun _ hc => hc) rfl
    · cases hstep
      exact h.goto hphase rfl trivial (fun _ hc => hc) rfl
    · cases hstep
      exact h.goto hphase rfl trivial (fun _ hc => by cases hc) rfl
  next => cases hstep
  next c hphase =>
    split_ifs at hstep with hpending
    cases hstep
    exact h.goto hphase rfl (met_of_pending hpending) (fun _ hc => hc) rfl
  next => cases hstep
  next c hphase =>
    cases hstep
    exact h.goto hphase rfl (.inr (.inl rfl)) (fun _ hc => hc) rfl
  next => cases hstep

theorem Inv.attempt (h : Inv cfg s) {e : Fin n} {a : Action n}
    (ha : (∃ now, a = .begin e now) ∨ a = .check e) (hstep : step cfg s a = some t) : Inv cfg t := by
  rcases ha with ⟨now, rfl⟩ | rfl <;> simp only [step] at hstep <;> split at hstep
  next c timeoutOccurred hphase =>
    have hneeds := h.needs hphase
    cases hstep
    exact h.goto hphase rfl hneeds (fun _ hc => hc) rfl
  next => cases hstep
  next a hphase =>
    have hneeds := h.needs hphase
    split at hstep
    · cases hstep
      exact h.goto hphase rfl hneeds (fun _ hc => hc) rfl
    · cases hstep
      exact h.goto hphase rfl trivial (fun _ hc => by cases hc) rfl
  next => cases hstep

theorem inv_step {a : Action n} (h : Inv cfg s) (hdistinct : Distinct cfg s a)
    (haligned : Aligned cfg s a) (hstep : step cfg s a = some t) : Inv cfg t := by
  cases a with
  | enter e c => exact h.enter haligned hstep
  | probe e => exact h.wait (.inl rfl) hstep
  | sleepCheck e => exact h.wait (.inr (.inl rfl)) hstep
  | sleepInsert => exact h.sleepInsert hstep
  | found e => exact h.wait (.inr (.inr (.inl rfl))) hstep
  | timeout e => exact h.wait (.inr (.inr (.inr rfl))) hstep
  | begin e now => exact h.attempt (.inl ⟨now, rfl⟩) hstep
  | check e => exact h.attempt (.inr rfl) hstep
  | select => exact h.select hstep
  | update => exact h.update hstep
  | insert => exact h.insert hstep
  | readBack => exact h.readBack hdistinct hstep
  | commit e =>
    simp only [step] at hstep
    split at hstep
    next a message completedAt hphase =>
      cases hstep
      exact h.commit hphase rfl rfl fun _ hc => by cases hc
    next => cases hstep
  | commitUnacknowledged e =>
    simp only [step] at hstep
    split at hstep
    next a message completedAt hphase =>
      cases hstep
      exact h.commit hphase rfl rfl fun _ hc => (Option.some.inj hc).symm
    next => cases hstep
  | abort => exact h.abort hstep
  | leave e =>
    cases hstep
    exact h.rollback rfl trivial (fun _ hc => by cases hc) rfl
  | send k row =>
    simp only [step] at hstep
    split_ifs at hstep with hrow
    cases hstep
    exact h.send hrow.1 hrow.2.1
  | commitSend k =>
    cases hstep
    exact h.commitSend k
  | rollbackSend k =>
    cases hstep
    exact h.rollbackSend k

theorem inv_of_init (h : Init cfg s) : Inv cfg s := by
  obtain ⟨hoperations, hnotifications, hreceipts, hpending, hidle⟩ := h
  have hreceipt : ∀ ρ, ρ ∉ s.store.committed.receipts := by
    rw [hreceipts]
    exact fun _ => List.not_mem_nil
  constructor
  case once =>
    refine ⟨fun m hm hdest => ?_, fun ρ hρ => (hreceipt ρ hρ).elim, fun ρ hρ => (hreceipt ρ hρ).elim,
      fun row hrow hid hname => (hoperations row hrow hid hname).elim⟩
    rw [(hnotifications m hm).2 hdest]
    refine ⟨fun hc => by simp at hc, fun hex => ?_⟩
    obtain ⟨k, hk, -⟩ := hex
    exact (hreceipt _ hk).elim
  case messages => exact fun m hm => (hnotifications m hm).1
  case own =>
    intro e
    simp [Store.own, hpending, hidle e, Phase.writes]
  case senders =>
    intro k w hw
    simp [Store.own, hpending] at hw
  case execs =>
    intro e
    rw [hidle e]
    exact ⟨not_mem_of_none rfl, trivial⟩
  case apart =>
    intro e j _
    rw [hidle e]
    exact ⟨fun c hc => (by cases hc), not_mem_of_none rfl⟩

/-- **Each message once.** Whatever the executions and senders do, in every state reached by steps
that meet the condition a message is consumed precisely if it is the payload of exactly one checkpoint,
no two checkpoints carry the same message, and every checkpoint holds a message or a timeout error. -/
theorem exactlyOnce_of_aligned {s : State n}
    (h : Reaches (system cfg n) (fun s a => Distinct cfg s a ∧ Aligned cfg s a) s) :
    ExactlyOnce cfg s.store.committed := by
  have hinv : Inv cfg s := Reaches.invariant (I := Inv cfg) (fun _ h => inv_of_init h)
    (fun _ _ _ h hc hstep => inv_step h hc.1 hc.2 hstep) h
  exact hinv.once

/-! ### Two executions at different steps -/

section Race

/-- The workflow `w`. -/
def sample : Config := { workflowID := "w", serialization := "json", serializeError := fun _ => "timeout" }

def fresh (n : ℕ) : State n where
  store :=
    { committed :=
        { sys :=
            { status := .insert .empty { workflowID := "w", status := .pending }
              waiters := .empty
              notifications := .empty
              events := .empty
              eventsHistory := .empty
              operations := .empty }
          receipts := [] }
      pending := [] }
  phases _ := .idle

theorem init_fresh (n : ℕ) : Init sample (fresh n) :=
  ⟨fun _ h => (List.not_mem_nil h).elim, fun _ h => (List.not_mem_nil h).elim, rfl, rfl, fun _ => rfl⟩

/-- The first and the second `Recv` of the workflow: each reserves two steps. -/
def firstRecv : Call := { stepID := 0, topic := "t", timeout := "1s" }

def secondRecv : Call := { stepID := 2, topic := "t", timeout := "1s" }

def hello : NotificationRow :=
  { messageUUID := "m", destinationID := "w", topic := "t", message := some "hello" }

def sendHello {n : ℕ} : List (Action n) := [.send 0 hello, .commitSend 0]

def findHello {n : ℕ} (e : Fin n) (now : Int) : List (Action n) :=
  [.found e, .begin e now, .check e, .select e (some "m")]

/-- Both executions find nothing to receive. The second cannot checkpoint its deadline, gets an error
from its first `Recv` and goes on to the next one. Then both find the message. -/
def parted {n : ℕ} (e j : Fin n) : List (Action n) :=
  [.enter e firstRecv, .enter j firstRecv, .probe e, .probe j, .sleepCheck e, .sleepCheck j,
    .sleepInsert e "1001" 1 1, .sleepInsert j "1002" 2 2,
    .enter j secondRecv, .probe j, .sleepCheck j, .sleepInsert j "1003" 3 3] ++
  sendHello ++ findHello e 4 ++ findHello j 5 ++
  [.update e, .insert e 6, .commit e, .update j, .insert j 7, .commit j]

/-- Both executions are at the first `Recv`. -/
def together {n : ℕ} (e j : Fin n) : List (Action n) :=
  sendHello ++ [.enter e firstRecv, .enter j firstRecv, .probe e, .probe j, .begin e 1, .begin j 2,
    .check e, .check j, .select e (some "m"), .select j (some "m"), .update e, .insert e 3, .commit e,
    .update j, .insert j 4, .readBack j]

/-- The message is delivered to both executions. -/
theorem message_received_twice :
    ∃ s : State 2, Reaches (system sample 2) (fun s a => Distinct sample s a) s ∧
      ¬ ExactlyOnce sample s.store.committed := by
  obtain ⟨s, hs, hreceipts⟩ := exists_reaches (S := system sample 2) (fun s a => Distinct sample s a)
    (s := fresh 2) (parted 0 1) (fun s => s.store.committed.receipts = [⟨0, "m"⟩, ⟨2, "m"⟩])
    (init_fresh 2) (by decide +kernel) (by decide +kernel)
  refine ⟨s, hs, fun honce => ?_⟩
  rw [decide_eq_true_eq] at hreceipts
  have := honce.unique ⟨0, "m"⟩ (by simp [hreceipts]) ⟨2, "m"⟩ (by simp [hreceipts]) rfl
  simp at this

theorem exactlyOnce_of_aligned_together :
    ∃ s : State 2, ExactlyOnce sample s.store.committed ∧
      s.store.committed.receipts = [⟨0, "m"⟩] := by
  obtain ⟨s, hs, hreceipts⟩ := exists_reaches (S := system sample 2)
    (fun s a => Distinct sample s a ∧ Aligned sample s a)
    (s := fresh 2) (together 0 1) (fun s => s.store.committed.receipts = [⟨0, "m"⟩])
    (init_fresh 2) (by decide +kernel) (by decide +kernel)
  exact ⟨s, exactlyOnce_of_aligned hs, by simpa using hreceipts⟩

end Race

end Dbos.Recv
