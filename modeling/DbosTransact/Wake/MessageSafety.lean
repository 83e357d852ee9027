import DbosTransact.Wake.Message

/-!
# When the wake-up of a message or an event is lost

Before its suspension is committed the receiver is `PENDING`, so no wake-up selects it; afterwards every
relevant wake-up that starts does. What remains are the signals whose wake-up started too early and which
are not committed when the receiver rechecks.
-/

namespace Dbos.MessageWake

open Relational ReadCommitted Lts

variable {n : Nat}

/-! ### What a signal writes before its wake-up -/

/-- `w` is one of the inserts of the signal. -/
def Signal.Inserts : Signal → Write → Prop
  | .send input _, .insertNotification n =>
    n.destinationID = input.destinationID ∧ n.topic = normalizeTopic input.topic
  | .setEvent input, .upsertEvent e => e.workflowID = input.workflowID ∧ e.key = input.key
  | .setEvent _, .upsertEventHistory _ => True
  | _, _ => False

theorem inserts_insert (sig : Signal) (now : Int) : sig.Inserts (sig.insert now) := by
  cases sig with
  | send input fresh => exact ⟨rfl, rfl⟩
  | setEvent input => exact ⟨rfl, rfl⟩

theorem apply_inserts {sig : Signal} {w : Write} (h : sig.Inserts w) (db : Db) :
    (Write.apply w db).status = db.status ∧ (Write.apply w db).waiters = db.waiters := by
  cases w <;> cases sig <;> first | exact ⟨rfl, rfl⟩ | exact h.elim

theorem hasUnconsumedNotification_insert (db : Db) (n : NotificationRow) (id topic : String)
    (h : ¬(n.destinationID = id ∧ n.topic = normalizeTopic topic)) :
    (Write.apply (.insertNotification n) db).hasUnconsumedNotification id topic =
      db.hasUnconsumedNotification id topic := by
  simp only [Write.apply, Db.hasUnconsumedNotification, Table.insert]
  split_ifs
  · have hn : (decide (n.destinationID = id) && decide (n.topic = normalizeTopic topic)) = false := by
      simpa using h
    simp [List.any_append, hn]
  · rfl

theorem hasWorkflowEvent_upsert (db : Db) (e : EventRow) (id key : String)
    (h : ¬(e.workflowID = id ∧ e.key = key)) :
    (Write.apply (.upsertEvent e) db).hasWorkflowEvent id key = db.hasWorkflowEvent id key := by
  have hne : ¬((e.workflowID, e.key) = (id, key)) := by simpa using h
  simp only [Write.apply, Db.hasWorkflowEvent, Table.find?_upsert, if_neg hne]

theorem found_apply_inserts {c : Config n} {i : Fin n} (hr : ¬c.Relevant i) {w : Write}
    (h : (c.signal i).Inserts w) (db : Db) : c.found (Write.apply w db) = c.found db := by
  unfold Config.Relevant at hr
  unfold Config.found
  cases hw : c.wait with
  | recv topic =>
    cases hsig : c.signal i with
    | send input fresh =>
      rw [hw, hsig] at hr
      rw [hsig] at h
      cases w with
      | insertNotification row =>
        apply hasUnconsumedNotification_insert
        rw [h.1, h.2]
        exact hr
      | _ => exact h.elim
    | setEvent input =>
      rw [hsig] at h
      cases w <;> first | rfl | exact h.elim
  | event targetID key =>
    cases hsig : c.signal i with
    | send input fresh =>
      rw [hsig] at h
      cases w <;> first | rfl | exact h.elim
    | setEvent input =>
      rw [hw, hsig] at hr
      rw [hsig] at h
      cases w with
      | upsertEvent row =>
        apply hasWorkflowEvent_upsert
        rw [h.1, h.2]
        exact hr
      | upsertEventHistory row => rfl
      | _ => exact h.elim

theorem replay_inserts {sig : Signal} {l : List Write} (h : ∀ w ∈ l, sig.Inserts w) (db : Db) :
    (l.foldl (fun d w => schema.apply w d) db).status = db.status ∧
      (l.foldl (fun d w => schema.apply w d) db).waiters = db.waiters := by
  induction l generalizing db with
  | nil => exact ⟨rfl, rfl⟩
  | cons w l ih =>
    obtain ⟨hs, hw⟩ := ih (fun x hx => h x (List.mem_cons_of_mem _ hx)) (schema.apply w db)
    obtain ⟨hs', hw'⟩ := apply_inserts (h w List.mem_cons_self) db
    exact ⟨hs.trans hs', hw.trans hw'⟩

theorem found_replay_inserts {c : Config n} {i : Fin n} (hr : ¬c.Relevant i) {l : List Write}
    (h : ∀ w ∈ l, (c.signal i).Inserts w) (db : Db) :
    c.found (l.foldl (fun d w => schema.apply w d) db) = c.found db := by
  induction l generalizing db with
  | nil => rfl
  | cons w l ih =>
    rw [List.foldl_cons, ih fun x hx => h x (List.mem_cons_of_mem _ hx)]
    exact found_apply_inserts hr (h w List.mem_cons_self) db

/-! ### The invariant -/

def ReceiverPc.asleep : ReceiverPc → Bool
  | .suspended | .found | .waking _ _ | .finished => true
  | .running | .suspending | .registered | .refused => false

def ReceiverPc.rechecked : ReceiverPc → Bool
  | .found | .waking _ _ | .finished => true
  | .running | .suspending | .registered | .suspended | .refused => false

theorem asleep_of_rechecked {pc : ReceiverPc} (h : pc.rechecked = true) : pc.asleep = true := by
  cases pc <;> first | rfl | exact h

def ReceiverOk (c : Config n) (own : List Write) : ReceiverPc → Prop
  | .suspending => ∃ now, own = [.suspend c.receiverID c.delayUntil now]
  | .registered => ∃ now, own = [.suspend c.receiverID c.delayUntil now, .insertWaiter c.waiter]
  | .waking _ now => own = [] ∧ now < c.delayUntil
  | _ => own = []

/-- The uncommitted writes of the signal `i`. -/
def SignalOk (c : Config n) (i : Fin n) (own : List Write) : SignalPc → Prop
  | .idle | .committed => own = []
  | .inserted | .recorded => ∀ w ∈ own, (c.signal i).Inserts w
  | .waking _ now => (∀ w ∈ own, (c.signal i).Inserts w) ∧ now < c.delayUntil
  | .woke ids now =>
    (∃ l, (∀ w ∈ l, (c.signal i).Inserts w) ∧ own = l ++ [.wake ids now]) ∧ now < c.delayUntil

inductive Covered (c : Config n) (s : State n) : Prop
  | woken (h : s.store.committed.delayOf c.receiverID ≠ some c.delayUntil)
  | found (h : s.receiver = .found)
  | selfWaking (ids : List String) (now : Int) (h : s.receiver = .waking ids now)
      (hid : c.receiverID ∈ ids)
  | reaching (i : Fin n) (h : Reaching c s i)
  | clear (h : c.found s.store.committed = false) (hno : ∀ i, ¬PassedOver c s i)

/-- What holds in every state: before the suspension is committed the receiver is `PENDING` and no
wake-up selects it; afterwards it is `DELAYED` and its waiter row is there. -/
structure Inv (c : Config n) (s : State n) : Prop where
  receiverOk : ReceiverOk c (s.store.own .receiver) s.receiver
  signalOk : ∀ i, SignalOk c i (s.store.own (.signal i)) (s.signals i)
  pending : s.receiver.asleep = false → s.store.committed.statusOf c.receiverID = some .pending
  unselected : s.receiver.asleep = false →
    ∀ i ids, (s.signals i).selected? = some ids → c.receiverID ∉ ids
  delayed : s.receiver.asleep = true → s.store.committed.statusOf c.receiverID = some .delayed
  waiter : s.receiver.asleep = true → s.store.committed.hasWaiter c.waiter = true
  covered : s.receiver.rechecked = true → Covered c s

theorem inv_init {c : Config n} {s : State n} (h : Init c s) : Inv c s := by
  obtain ⟨hpend, hopen, hrec, hsig⟩ := h
  have hown : ∀ t, s.store.own t = [] := fun t => by simp [Store.own, hopen]
  refine ⟨?_, ?_, fun _ => hpend, ?_, ?_, ?_, ?_⟩
  · simp [hrec, ReceiverOk, hown]
  · intro i
    simp [hsig, SignalOk, hown]
  · intro _ i ids h
    simp [hsig, SignalPc.selected?] at h
  · simp [hrec, ReceiverPc.asleep]
  · simp [hrec, ReceiverPc.asleep]
  · simp [hrec, ReceiverPc.rechecked]

/-! ### What a signal's transaction sees -/

section View

variable {c : Config n} {s : State n}

theorem view_signal (hi : Inv c s) (i : Fin n) (id : String) (w : WaiterRow) :
    (s.store.view schema (.signal i)).statusOf id = s.store.committed.statusOf id ∧
      (s.store.view schema (.signal i)).hasWaiter w = s.store.committed.hasWaiter w := by
  have hok := hi.signalOk i
  have hins : ∀ l : List Write, (∀ w ∈ l, (c.signal i).Inserts w) → s.store.own (.signal i) = l →
      (s.store.view schema (.signal i)).statusOf id = s.store.committed.statusOf id ∧
        (s.store.view schema (.signal i)).hasWaiter w = s.store.committed.hasWaiter w := by
    intro l hl hown
    obtain ⟨hs, hw⟩ := replay_inserts hl s.store.committed
    simp only [Store.view, hown, Db.statusOf, Db.hasWaiter, hs, hw, and_self]
  cases hpc : s.signals i with
  | woke ids now =>
    rw [hpc] at hok
    obtain ⟨⟨l, hl, hown⟩, -⟩ := hok
    obtain ⟨hs, hw⟩ := replay_inserts hl s.store.committed
    simp only [Store.view, hown, List.foldl_append, List.foldl_cons, List.foldl_nil]
    refine ⟨?_, ?_⟩
    · rw [schema, Write.statusOf_wake]
      simp only [Db.statusOf]
      rw [← hs]
      rfl
    · simp only [Db.hasWaiter]
      rw [← hw]
      rfl
  | waking ids now => rw [hpc] at hok; exact hins _ hok.1 rfl
  | inserted => rw [hpc] at hok; exact hins _ hok rfl
  | recorded => rw [hpc] at hok; exact hins _ hok rfl
  | idle => rw [hpc] at hok; exact hins [] (by simp) hok
  | committed => rw [hpc] at hok; exact hins [] (by simp) hok

theorem delayOf_view_woke (hi : Inv c s) {i : Fin n} {ids : List String} {now : Int}
    (hpc : s.signals i = .woke ids now) (id : String) :
    (s.store.view schema (.signal i)).delayOf id =
      if id ∈ ids ∧ (s.store.committed.statusOf id).isSome then some now
      else s.store.committed.delayOf id := by
  have hok := hi.signalOk i
  rw [hpc] at hok
  obtain ⟨⟨l, hl, hown⟩, -⟩ := hok
  obtain ⟨hs, -⟩ := replay_inserts hl s.store.committed
  simp only [Store.view, hown, List.foldl_append, List.foldl_cons, List.foldl_nil]
  show (Write.apply (.wake ids now) _).delayOf id = _
  rw [Write.delayOf_wake]
  unfold Db.statusOf Db.delayOf
  rw [hs]

theorem found_view_woke (hi : Inv c s) {i : Fin n} {ids : List String} {now : Int}
    (hpc : s.signals i = .woke ids now) (hr : ¬c.Relevant i) :
    c.found (s.store.view schema (.signal i)) = c.found s.store.committed := by
  have hok := hi.signalOk i
  rw [hpc] at hok
  obtain ⟨⟨l, hl, hown⟩, -⟩ := hok
  have hwake : ∀ db, c.found (schema.apply (.wake ids now) db) = c.found db := by
    intro db
    unfold Config.found
    cases c.wait <;> rfl
  simp only [Store.view, hown, List.foldl_append, List.foldl_cons, List.foldl_nil]
  rw [hwake, found_replay_inserts hr hl]

/-- A wake-up that starts while the receiver is `PENDING` does not select it. -/
theorem not_mem_targets {db : Db} (h : db.statusOf c.receiverID ≠ some .delayed) (sig : Signal) :
    c.receiverID ∉ sig.targets db := by
  intro hmem
  cases sig with
  | send input fresh =>
    obtain ⟨hid, hst, -⟩ := Db.mem_sendTargets.1 hmem
    rw [← hid] at hst
    exact h hst
  | setEvent input => exact h (Db.mem_delayedWaiters.1 hmem).1

/-- A relevant wake-up that starts after the suspension is committed selects the receiver. -/
theorem mem_targets {db : Db} (hst : db.statusOf c.receiverID = some .delayed)
    (hw : db.hasWaiter c.waiter = true) {i : Fin n} (hr : c.Relevant i) :
    c.receiverID ∈ (c.signal i).targets db := by
  unfold Config.Relevant at hr
  unfold Config.waiter at hw
  split at hr
  · rename_i topic input fresh hwait hsig
    rw [hwait] at hw
    rw [hsig]
    obtain ⟨hdest, -⟩ := hr
    exact Db.mem_sendTargets.2 ⟨hdest.symm, by rwa [hdest], by rwa [hdest]⟩
  · rename_i targetID key input hwait hsig
    rw [hwait] at hw
    rw [hsig]
    obtain ⟨htarget, -⟩ := hr
    exact Db.mem_delayedWaiters.2 ⟨hst, by rwa [htarget]⟩
  · exact hr.elim

end View

/-! ### A step of a signal -/

section SignalStep

variable {c : Config n} {s : State n} {i : Fin n} {pc : SignalPc} {store : Store Db (Txn n) Write}

theorem signals_setSignal (j : Fin n) :
    ({ s with store := store }.setSignal i pc).signals j = if j = i then pc else s.signals j := by
  simp only [State.setSignal, Function.update_apply]

theorem Inv.signal_step (hi : Inv c s)
    (hown : ∀ t, t ≠ .signal i → store.own t = s.store.own t)
    (hok : SignalOk c i (store.own (.signal i)) pc)
    (hstatus : store.committed.statusOf c.receiverID = s.store.committed.statusOf c.receiverID)
    (hwaiter : store.committed.hasWaiter c.waiter = s.store.committed.hasWaiter c.waiter)
    (hun : s.receiver.asleep = false → ∀ ids, pc.selected? = some ids → c.receiverID ∉ ids)
    (hcov : s.receiver.rechecked = true → Covered c ({ s with store := store }.setSignal i pc)) :
    Inv c ({ s with store := store }.setSignal i pc) := by
  refine ⟨?_, ?_, ?_, ?_, ?_, ?_, hcov⟩
  · show ReceiverOk c (store.own .receiver) s.receiver
    rw [hown .receiver (by simp)]
    exact hi.receiverOk
  · intro j
    rw [signals_setSignal]
    split_ifs with hj
    · subst hj; exact hok
    · show SignalOk c j (store.own (.signal j)) (s.signals j)
      rw [hown (.signal j) (by simpa using hj)]
      exact hi.signalOk j
  · intro h; exact hstatus.trans (hi.pending h)
  · intro h j ids hsel
    rw [signals_setSignal] at hsel
    split_ifs at hsel
    · exact hun h ids hsel
    · exact hi.unselected h j ids hsel
  · intro h; exact hstatus.trans (hi.delayed h)
  · intro h; exact hwaiter.trans (hi.waiter h)

/-- Cover is kept by a step of the signal `i` which commits nothing, if its wake-up does not lose
the receiver and does not newly pass it over. -/
theorem Covered.signal_step (h : Covered c s) (hc : store.committed = s.store.committed)
    (hreach : ∀ ids, (s.signals i).selected? = some ids → c.receiverID ∈ ids →
      ∃ ids', pc.selected? = some ids' ∧ c.receiverID ∈ ids')
    (hpass : c.Relevant i → ∀ ids, pc.selected? = some ids → c.receiverID ∉ ids →
      ∃ ids', (s.signals i).selected? = some ids' ∧ c.receiverID ∉ ids') :
    Covered c ({ s with store := store }.setSignal i pc) := by
  cases h with
  | woken h => exact .woken (by simpa [State.setSignal, hc] using h)
  | found h => exact .found h
  | selfWaking ids now h hid => exact .selfWaking ids now h hid
  | reaching j h =>
    obtain ⟨ids, hsel, hid⟩ := h
    refine .reaching j ?_
    unfold Reaching
    rw [signals_setSignal]
    split_ifs with hj
    · subst hj; exact hreach ids hsel hid
    · exact ⟨ids, hsel, hid⟩
  | clear h hno =>
    refine .clear (by simpa [State.setSignal, hc] using h) ?_
    rintro j ⟨hr, ids, hsel, hid⟩
    rw [signals_setSignal] at hsel
    split_ifs at hsel with hj
    · subst hj
      exact hno j ⟨hr, hpass hr ids hsel hid⟩
    · exact hno j ⟨hr, ids, hsel, hid⟩

theorem Inv.write_insert (hi : Inv c s) {w : Write} (hw : (c.signal i).Inserts w)
    (hown : ∀ w ∈ s.store.own (.signal i), (c.signal i).Inserts w)
    (hsel : (s.signals i).selected? = none) (hpc : pc = .inserted ∨ pc = .recorded) :
    Inv c ({ s with store := s.store.write (.signal i) w }.setSignal i pc) := by
  have hnone : pc.selected? = none := by rcases hpc with rfl | rfl <;> rfl
  refine hi.signal_step ?_ ?_ rfl rfl ?_ ?_
  · intro t ht
    exact Store.own_write_of_ne _ w ht.symm
  · have hall : ∀ x ∈ (s.store.write (.signal i) w).own (.signal i), (c.signal i).Inserts x := by
      intro x hx
      rw [Store.own_write_self] at hx
      rcases List.mem_append.1 hx with hx | hx
      · exact hown x hx
      · rw [List.mem_singleton.1 hx]; exact hw
    rcases hpc with rfl | rfl <;> exact hall
  · simp [hnone]
  · intro hre
    exact (hi.covered hre).signal_step rfl (by simp [hsel]) (by simp [hnone])

theorem inv_insert {t : State n} {now : Int} (hi : Inv c s)
    (h : step c s (.insert i now) = some t) : Inv c t := by
  simp only [step] at h
  split_ifs at h with hg
  cases h
  have hown : s.store.own (.signal i) = [] := by simpa [hg.1, SignalOk] using hi.signalOk i
  exact hi.write_insert (inserts_insert _ now) (by simp [hown]) (by simp [hg.1, SignalPc.selected?])
    (Or.inl rfl)

theorem inv_record {t : State n} (hi : Inv c s) (h : step c s (.record i) = some t) : Inv c t := by
  simp only [step] at h
  split at h
  · rename_i input hpc hsig
    split_ifs at h
    cases h
    have hown : ∀ w ∈ s.store.own (.signal i), (c.signal i).Inserts w := by
      simpa [hpc, SignalOk] using hi.signalOk i
    exact hi.write_insert (by rw [hsig]; trivial) hown (by simp [hpc, SignalPc.selected?])
      (Or.inr rfl)
  · cases h

theorem inv_wake {t : State n} {now : Int} (hi : Inv c s)
    (h : step c s (.wake i now) = some t) : Inv c t := by
  simp only [step] at h
  split_ifs at h with hg
  cases h
  obtain ⟨hpc, hnow⟩ := hg
  have hins : (∀ w ∈ s.store.own (.signal i), (c.signal i).Inserts w) ∧
      (s.signals i).selected? = none := by
    have hok := hi.signalOk i
    split at hpc <;> rw [hpc] at hok ⊢ <;> exact ⟨hok, rfl⟩
  obtain ⟨hst, hw⟩ := view_signal hi i c.receiverID c.waiter
  refine hi.signal_step (fun _ _ => rfl) ⟨hins.1, hnow⟩ rfl rfl ?_ ?_
  · intro hawake ids hids
    cases hids
    apply not_mem_targets
    rw [hst, hi.pending hawake]
    simp
  · intro hre
    have hasleep := asleep_of_rechecked hre
    refine (hi.covered hre).signal_step rfl (by simp [hins.2]) ?_
    intro hr ids hids hid
    cases hids
    exact absurd (mem_targets (hst.trans (hi.delayed hasleep)) (hw.trans (hi.waiter hasleep)) hr) hid

theorem inv_wakeDone {t : State n} (hi : Inv c s) (h : step c s (.wakeDone i) = some t) :
    Inv c t := by
  simp only [step] at h
  split at h
  · rename_i ids now hpc
    split_ifs at h
    cases h
    have hok := hi.signalOk i
    rw [hpc] at hok
    have hst := (view_signal hi i c.receiverID c.waiter).1
    refine hi.signal_step ?_ ?_ rfl rfl ?_ ?_
    · intro t ht
      exact Store.own_write_of_ne _ _ ht.symm
    · exact ⟨⟨_, hok.1, Store.own_write_self _ _ _⟩, hok.2⟩
    · intro hawake ids' hids' hid
      cases hids'
      exact hi.unselected hawake i ids (by rw [hpc]; rfl) (Db.mem_stillDelayed.1 hid).1
    · intro hre
      have hdelayed := hst.trans (hi.delayed (asleep_of_rechecked hre))
      refine (hi.covered hre).signal_step rfl ?_ ?_
      · intro ids' hids' hid
        rw [hpc] at hids'
        cases hids'
        exact ⟨_, rfl, Db.mem_stillDelayed.2 ⟨hid, hdelayed⟩⟩
      · intro _ ids' hids' hid
        cases hids'
        exact ⟨ids, by rw [hpc]; rfl, fun hmem => hid (Db.mem_stillDelayed.2 ⟨hmem, hdelayed⟩)⟩
  · cases h

theorem inv_commit {t : State n} (hi : Inv c s) (h : step c s (.commit i) = some t) : Inv c t := by
  simp only [step] at h
  split at h
  · rename_i ids now hpc
    cases h
    have hok := hi.signalOk i
    rw [hpc] at hok
    obtain ⟨hst, hw⟩ := view_signal hi i c.receiverID c.waiter
    refine hi.signal_step ?_ (by simp [SignalOk]) hst hw (by simp [SignalPc.selected?]) ?_
    · intro t ht
      exact Store.own_commit_of_ne _ _ ht.symm
    intro hre
    have hdelayed := hi.delayed (asleep_of_rechecked hre)
    have hdelay := delayOf_view_woke hi hpc c.receiverID
    by_cases hmem : c.receiverID ∈ ids
    · -- the commit publishes a wake-up of the receiver
      refine .woken ?_
      show (s.store.view schema (.signal i)).delayOf c.receiverID ≠ some c.delayUntil
      rw [hdelay, if_pos ⟨hmem, by simp [hdelayed]⟩]
      intro heq
      have := Option.some.inj heq
      have := hok.2
      omega
    · rw [if_neg fun h => hmem h.1] at hdelay
      cases hi.covered hre with
      | woken h => exact .woken (by show _ ≠ _; rw [← hdelay] at h; exact h)
      | found h => exact .found h
      | selfWaking ids' now' h hid => exact .selfWaking ids' now' h hid
      | reaching j h =>
        obtain ⟨ids', hsel, hid⟩ := h
        have hj : j ≠ i := by
          rintro rfl
          rw [hpc] at hsel
          cases hsel
          exact hmem hid
        refine .reaching j ⟨ids', ?_, hid⟩
        rw [signals_setSignal, if_neg hj]
        exact hsel
      | clear h hno =>
        have hr : ¬c.Relevant i := fun hr => hno i ⟨hr, ids, by rw [hpc]; rfl, hmem⟩
        refine .clear ((found_view_woke hi hpc hr).trans h) ?_
        rintro j ⟨hrj, ids', hsel, hid⟩
        rw [signals_setSignal] at hsel
        split_ifs at hsel with hj
        · cases hsel
        · exact hno j ⟨hrj, ids', hsel, hid⟩
  · cases h

end SignalStep

/-! ### A step of the receiver -/

section ReceiverStep

variable {c : Config n} {s t : State n}

theorem inv_suspend {now : Int} (hi : Inv c s) (h : step c s (.suspend now) = some t) :
    Inv c t := by
  simp only [step] at h
  split_ifs at h with hg hsus hfree
  · cases h
    have hown := hi.receiverOk
    rw [hg.1] at hown
    have hawake : s.receiver.asleep = false := by rw [hg.1]; rfl
    exact ⟨hown, hi.signalOk, fun _ => hi.pending hawake, fun _ => hi.unselected hawake,
      by simp [ReceiverPc.asleep], by simp [ReceiverPc.asleep], by simp [ReceiverPc.rechecked]⟩
  · cases h
    have hown := hi.receiverOk
    rw [hg.1] at hown
    have hawake : s.receiver.asleep = false := by rw [hg.1]; rfl
    refine ⟨⟨now, ?_⟩, ?_, fun _ => hi.pending hawake, fun _ => hi.unselected hawake,
      by simp [ReceiverPc.asleep], by simp [ReceiverPc.asleep], by simp [ReceiverPc.rechecked]⟩
    · rw [Store.own_write_self, show s.store.own .receiver = [] from hown]
      rfl
    · intro i
      show SignalOk c i ((s.store.write _ _).own (.signal i)) (s.signals i)
      rw [Store.own_write_of_ne _ _ (by simp)]
      exact hi.signalOk i

theorem inv_register (hi : Inv c s) (h : step c s .register = some t) : Inv c t := by
  simp only [step] at h
  split_ifs at h with hg
  cases h
  have hown := hi.receiverOk
  rw [hg.1] at hown
  obtain ⟨now, hown⟩ := hown
  have hawake : s.receiver.asleep = false := by rw [hg.1]; rfl
  refine ⟨⟨now, ?_⟩, ?_, fun _ => hi.pending hawake, fun _ => hi.unselected hawake,
    by simp [ReceiverPc.asleep], by simp [ReceiverPc.asleep], by simp [ReceiverPc.rechecked]⟩
  · rw [Store.own_write_self, hown]
    rfl
  · intro i
    show SignalOk c i ((s.store.write _ _).own (.signal i)) (s.signals i)
    rw [Store.own_write_of_ne _ _ (by simp)]
    exact hi.signalOk i

theorem inv_commitSuspension (hi : Inv c s) (h : step c s .commitSuspension = some t) :
    Inv c t := by
  simp only [step] at h
  split_ifs at h with hg
  cases h
  have hown := hi.receiverOk
  rw [hg] at hown
  obtain ⟨now, hown⟩ := hown
  have hpend := hi.pending (by rw [hg]; rfl)
  have hview : s.store.view schema .receiver = Write.apply (.insertWaiter c.waiter)
      (Write.apply (.suspend c.receiverID c.delayUntil now) s.store.committed) := by
    simp only [Store.view, hown]
    rfl
  refine ⟨Store.own_commit_self _ _ _, ?_, by simp [ReceiverPc.asleep], by simp [ReceiverPc.asleep],
    fun _ => ?_, fun _ => ?_, by simp [ReceiverPc.rechecked]⟩
  · intro i
    show SignalOk c i ((s.store.commit _ _).own (.signal i)) (s.signals i)
    rw [Store.own_commit_of_ne _ _ (by simp)]
    exact hi.signalOk i
  · rw [Store.committed_commit, hview]
    show (Write.apply (.suspend c.receiverID c.delayUntil now) s.store.committed).statusOf _ = _
    rw [Write.statusOf_suspend, if_pos rfl, hpend]
    rfl
  · rw [Store.committed_commit, hview, Write.hasWaiter_insertWaiter]
    simp

theorem inv_recheck (hi : Inv c s) (hC : RecheckCovered c s .recheck)
    (h : step c s .recheck = some t) : Inv c t := by
  simp only [step] at h
  split_ifs at h with hg hf
  all_goals
    cases h
    have hown := hi.receiverOk
    rw [hg] at hown
    have hasleep : s.receiver.asleep = true := by rw [hg]; rfl
    refine ⟨hown, hi.signalOk, by simp [ReceiverPc.asleep], by simp [ReceiverPc.asleep],
      fun _ => hi.delayed hasleep, fun _ => hi.waiter hasleep, fun _ => ?_⟩
  · exact .found rfl
  · rcases hC rfl with hfound | ⟨i, hreach⟩ | hno
    · exact absurd hfound hf
    · exact .reaching i hreach
    · exact .clear (by simpa using hf) hno

theorem inv_selfWake {now : Int} (hi : Inv c s) (h : step c s (.selfWake now) = some t) :
    Inv c t := by
  simp only [step] at h
  split_ifs at h with hg
  cases h
  have hown := hi.receiverOk
  rw [hg.1] at hown
  have hasleep : s.receiver.asleep = true := by rw [hg.1]; rfl
  exact ⟨⟨hown, hg.2⟩, hi.signalOk, by simp [ReceiverPc.asleep], by simp [ReceiverPc.asleep],
    fun _ => hi.delayed hasleep, fun _ => hi.waiter hasleep,
    fun _ => .selfWaking _ _ rfl (Db.mem_suspendedTarget.2 ⟨rfl, hi.delayed hasleep⟩)⟩

theorem inv_selfWakeDone (hi : Inv c s) (h : step c s .selfWakeDone = some t) : Inv c t := by
  simp only [step] at h
  split at h
  · rename_i ids now hpc
    split_ifs at h
    cases h
    have hown := hi.receiverOk
    rw [hpc] at hown
    have hasleep : s.receiver.asleep = true := by rw [hpc]; rfl
    have hdelayed := hi.delayed hasleep
    have hst : (Write.apply (.wake (s.store.committed.stillDelayed ids) now)
        s.store.committed).statusOf c.receiverID = some .delayed :=
      (Write.statusOf_wake _ _ _ _).trans hdelayed
    have hdelay := Write.delayOf_wake s.store.committed (s.store.committed.stillDelayed ids) now
      c.receiverID
    refine ⟨hown.1, hi.signalOk, by simp [ReceiverPc.asleep], by simp [ReceiverPc.asleep],
      fun _ => hst, fun _ => hi.waiter hasleep, fun _ => ?_⟩
    by_cases hmem : c.receiverID ∈ s.store.committed.stillDelayed ids
    · refine .woken ?_
      show (Write.apply (.wake (s.store.committed.stillDelayed ids) now)
        s.store.committed).delayOf c.receiverID ≠ some c.delayUntil
      rw [hdelay, if_pos ⟨hmem, by simp [hdelayed]⟩]
      intro heq
      have := Option.some.inj heq
      have := hown.2
      omega
    · rw [if_neg fun h => hmem h.1] at hdelay
      cases hi.covered (by rw [hpc]; rfl) with
      | woken h => exact .woken (by show _ ≠ _; rw [← hdelay] at h; exact h)
      | found h => rw [hpc] at h; cases h
      | selfWaking ids' now' h hid =>
        rw [hpc] at h
        cases h
        exact absurd (Db.mem_stillDelayed.2 ⟨hid, hdelayed⟩) hmem
      | reaching i h => exact .reaching i h
      | clear h hno =>
        refine .clear ?_ hno
        have hwake : c.found (Write.apply (.wake (s.store.committed.stillDelayed ids) now)
            s.store.committed) = c.found s.store.committed := by
          unfold Config.found
          cases c.wait <;> rfl
        exact hwake.trans h
  · cases h

end ReceiverStep

theorem inv_step {c : Config n} {s t : State n} {a : Action n} (hi : Inv c s)
    (hC : RecheckCovered c s a) (h : step c s a = some t) : Inv c t := by
  cases a with
  | suspend now => exact inv_suspend hi h
  | register => exact inv_register hi h
  | commitSuspension => exact inv_commitSuspension hi h
  | recheck => exact inv_recheck hi hC h
  | selfWake now => exact inv_selfWake hi h
  | selfWakeDone => exact inv_selfWakeDone hi h
  | insert i now => exact inv_insert hi h
  | record i => exact inv_record hi h
  | wake i now => exact inv_wake hi h
  | wakeDone i => exact inv_wakeDone hi h
  | commit i => exact inv_commit hi h

/-- **No wake-up is lost** in any interleaving whose recheck finds something, or runs while some
open signal is about to wake the receiver, or while no open signal has passed it over. -/
theorem no_lost_wakeup (c : Config n) (s : State n)
    (h : Reaches (system c) (RecheckCovered c) s) (hfin : Finished s) : ¬Lost c s := by
  have hi : Inv c s := h.invariant (fun _ => inv_init) fun _ _ _ hi hC hst => inv_step hi hC hst
  rintro ⟨hdelayed, hdelay, hfound⟩
  rcases hfin.1 with hrec | hrec
  · cases hi.covered (by rw [hrec]; rfl) with
    | woken h => exact h hdelay
    | found h => rw [hrec] at h; cases h
    | selfWaking ids now h _ => rw [hrec] at h; cases h
    | reaching i h =>
      obtain ⟨ids, hsel, -⟩ := h
      rw [hfin.2 i] at hsel
      cases hsel
    | clear h _ => simp [h] at hfound
  · rw [hi.pending (by rw [hrec]; rfl)] at hdelayed
    cases hdelayed

/-! ### The race on a database with one workflow -/

def raceDb : Db where
  status := ⟨[{ workflowID := "receiver", status := .pending },
    { workflowID := "target", status := .pending }], by decide⟩
  waiters := .empty
  notifications := .empty
  events := .empty
  eventsHistory := .empty
  operations := .empty

/-- One message for a receiver in `Recv`. -/
def recvRace : Config 1 where
  receiverID := "receiver"
  wait := .recv "topic"
  delayUntil := 3600000
  signal := fun _ => .send { destinationID := "receiver", topic := "topic" } "uuid"

/-- One event for a receiver in `GetEvent`. -/
def eventRace : Config 1 where
  receiverID := "receiver"
  wait := .event "target" "key"
  delayUntil := 3600000
  signal := fun _ => .setEvent { workflowID := "target", stepID := 0, key := "key" }

def raceInit : State 1 where
  store := ⟨raceDb, []⟩
  receiver := .running
  signals := fun _ => .idle

/-- The interleaving in which the suspension lies between the wake-up and the commit. -/
def suspendBeforeCommit : List (Action 1) :=
  [.wake 0 2, .wakeDone 0, .suspend 3, .register, .commitSuspension, .recheck, .commit 0]

/-- **A wake-up is lost**, both for a message and for an event: everybody has finished, the receiver
sleeps until its fallback delay, and the message or event it waits for is committed. -/
theorem lost_wakeup :
    (∃ s, Reaches (system recvRace) (fun _ _ => True) s ∧ Finished s ∧ Lost recvRace s) ∧
      ∃ s, Reaches (system eventRace) (fun _ _ => True) s ∧ Finished s ∧ Lost eventRace s := by
  constructor
  · have hinit : (system recvRace).init raceInit := ⟨by decide, rfl, rfl, fun _ => rfl⟩
    obtain ⟨s, hs, hlost⟩ := exists_reaches (fun _ _ => True) (.insert 0 1 :: suspendBeforeCommit)
      (fun s => decide (Finished s ∧ Lost recvRace s)) hinit (fun _ _ => trivial) (by decide)
    exact ⟨s, hs, of_decide_eq_true hlost⟩
  · have hinit : (system eventRace).init raceInit := ⟨by decide, rfl, rfl, fun _ => rfl⟩
    obtain ⟨s, hs, hlost⟩ := exists_reaches (fun _ _ => True)
      (.insert 0 1 :: .record 0 :: suspendBeforeCommit)
      (fun s => decide (Finished s ∧ Lost eventRace s)) hinit (fun _ _ => trivial) (by decide)
    exact ⟨s, hs, of_decide_eq_true hlost⟩

/-- A message whose wake-up starts after the suspension is committed is not lost, although the
recheck does not see it. -/
theorem no_lost_wakeup_after_suspension :
    ∃ s, (Reaches (system recvRace) (RecheckCovered recvRace) s ∧ Finished s ∧
      recvRace.found s.store.committed = true) ∧ ¬Lost recvRace s := by
  have hinit : (system recvRace).init raceInit := ⟨by decide, rfl, rfl, fun _ => rfl⟩
  obtain ⟨s, hs, hp⟩ := exists_reaches (RecheckCovered recvRace)
    [.insert 0 1, .suspend 2, .register, .commitSuspension, .wake 0 3, .recheck, .wakeDone 0,
      .commit 0]
    (fun s => decide (Finished s ∧ recvRace.found s.store.committed = true)) hinit
    (by decide) (by decide)
  obtain ⟨hfin, hfound⟩ := of_decide_eq_true hp
  exact ⟨s, ⟨hs, hfin, hfound⟩, no_lost_wakeup recvRace s hs hfin⟩

end Dbos.MessageWake
