import DbosTransact.Gates.Recv

/-!
# Closing a gate

The close commits together with the checkpoint, but a delivery reads the gate without a lock, so it may have
found the gate open before the close and commit after it (`ClosesQuietly`); and an execution looks for the
checkpoint first and opens the gate later, so it may open it for a step that has been recorded meanwhile
(`OpensAhead`).
-/

namespace Dbos.GateRecv

open Relational Lts

variable {n m : ℕ} {cfg : Config} {s t : State n m} {a : Action n m}

/-! ### Deliveries after the close -/

section Late

def Data.closed (cfg : Config) (d : Data) : Bool := (d.gate? cfg).any fun g => !g.isOpen

def Delivery.refused : Delivery → Bool
  | .idle | .begun _ _ | .found _ _ _ => true
  | .admitted _ _ _ => false
  | .decided _ _ outcome _ => outcome = .rejectedClosed

def State.closes (cfg : Config) (s : State n m) (e : Fin n) (completedAt : Int) : Bool :=
  match s.execs e with
  | .closed a message _ _ => s.data.records cfg (cfg.recordInput a message completedAt)
  | _ => false

/-- **The condition.** A close commits only when no delivery under way has found the gate open. -/
def ClosesQuietly (cfg : Config) (s : State n m) : Action n m → Prop
  | .exec e (.commit completedAt _) =>
    s.closes cfg e completedAt = true → ∀ k, (s.clients k).refused = true
  | _ => True

/-- A delivery that commits while the gate is closed is recorded as rejected, and sends nothing. -/
def RejectsClosed (cfg : Config) (x : Transition (State n m) (Action n m)) : Prop :=
  ∀ k deliveryID messageUUID sentAt wokenAt,
    x.act = .client k (.commit deliveryID messageUUID sentAt wokenAt) → x.pre.data.closed cfg = true →
      (∃ row, x.post.data.db.deliveries.find? deliveryID = some row ∧ row.outcome = .rejectedClosed) ∧
      x.post.data.db.sys.notifications = x.pre.data.db.sys.notifications

/-- Where the gate is closed, no delivery under way has found it open. -/
def Settled (cfg : Config) (s : State n m) : Prop :=
  s.data.closed cfg = true → ∀ k, (s.clients k).refused = true

theorem closed_of_keeps {d d' : Data} (h : Keeps cfg d d') : d'.closed cfg = d.closed cfg := by
  rw [Data.closed, Data.closed, h.gate]

theorem settled_exec {e : Fin n} {x : ExecAction} (h : Settled cfg s)
    (hC : ClosesQuietly cfg s (.exec e x)) (hstep : step cfg s (.exec e x) = some t) : Settled cfg t := by
  obtain ⟨r, hr, rfl⟩ := Option.map_eq_some_iff.1 hstep
  generalize hp : s.execs e = p at hr
  intro hclosed
  cases executes_of_execStep hr with
  | opens hopened =>
    obtain ⟨g, hg, hopen, -⟩ := hopened.gate
    simp [Data.closed, hg, hopen] at hclosed
  | commits hrecords => exact hC (by simp [State.closes, hp, hrecords])
  | refused => exact h hclosed
  | quiet _ => exact h hclosed

theorem refused_of_serves {d : Data} {p : Delivery} {x : ClientAction} {r : Data × Delivery}
    (h : Serves cfg d p x r) (hclosed : d.closed cfg = true) (hp : p.refused = true) :
    r.2.refused = true := by
  cases h with
  | admits hg hopen => simp [Data.closed, hg, hopen] at hclosed
  | judges => cases hp
  | begins | finds | rejects | commits | ends => rfl

theorem settled_client {k : Fin m} {x : ClientAction} (h : Settled cfg s)
    (hstep : step cfg s (.client k x) = some t) : Settled cfg t := by
  obtain ⟨r, hr, rfl⟩ := Option.map_eq_some_iff.1 hstep
  have hserves := serves_of_clientStep hr
  intro hclosed
  have hbefore : s.data.closed cfg = true := (closed_of_keeps hserves.keeps).symm.trans hclosed
  exact (Function.forall_update_iff s.clients fun _ q => q.refused = true).2
    ⟨refused_of_serves hserves hbefore (h hbefore k), fun j _ => h hbefore j⟩

theorem settled_step (h : Settled cfg s) (hC : ClosesQuietly cfg s a) (hstep : step cfg s a = some t) :
    Settled cfg t := by
  cases a with
  | exec e x => exact settled_exec h hC hstep
  | client k x => exact settled_client h hstep
  | env x =>
    obtain ⟨d, hd, rfl⟩ := Option.map_eq_some_iff.1 hstep
    intro hclosed
    exact h (closed_of_keeps (keeps_envStep hd).1 ▸ hclosed)

theorem rejectsClosed_of_settled {x : Transition (State n m) (Action n m)} (h : Settled cfg x.pre)
    (hstep : step cfg x.pre x.act = some x.post) : RejectsClosed cfg x := by
  intro k deliveryID messageUUID sentAt wokenAt hact hclosed
  rw [hact] at hstep
  obtain ⟨r, hr, hpost⟩ := Option.map_eq_some_iff.1 hstep
  have hrefused := h hclosed k
  rw [← hpost]
  generalize x.pre.clients k = p at hr hrefused
  cases serves_of_clientStep hr with
  | @commits i now outcome seen _ _ _ _ hdelivery _ =>
    obtain rfl : outcome = .rejectedClosed := by simpa [Delivery.refused] using hrefused
    refine ⟨⟨i.auditRow .rejectedClosed deliveryID messageUUID now, ?_, rfl⟩, rfl⟩
    refine (Table.find?_insert ..).trans ?_
    rw [hdelivery]
    exact if_pos rfl
  | ends h => rcases h with h | h <;> cases h

/-- **Nothing is delivered after the close**, if every close meets the condition. -/
theorem no_delivery_after_close {tr : List (Transition (State n m) (Action n m))} (hs : Init cfg s)
    (hrun : Run (system cfg n m) s tr t) (hC : ∀ x ∈ tr, ClosesQuietly cfg x.pre x.act) :
    ∀ x ∈ tr, RejectsClosed cfg x := by
  intro x hx
  obtain ⟨hreach, hstep⟩ := hrun.reaches_of_mem hs hC hx
  refine rejectsClosed_of_settled (hreach.invariant (I := Settled cfg) (fun s hs hclosed => ?_) ?_) hstep
  · simp [Data.closed, hs.gate] at hclosed
  · exact fun s a t h hC hstep => settled_step h hC hstep

def lateDelivery (e : Fin n) (k l : Fin m) : List (Action n m) :=
  opening e 0 ++ looking k ++ looking l ++ delivering l "d1" "m1" ++ receiving e "m1" ++
    [.client k .readAudience]

/-- It is delivered although the gate is closed. -/
theorem delivered_after_close :
    ∃ s : State 1 2, Reaches (system openToAll 1 2) (fun _ _ => True) s ∧
      ∃ k t, step openToAll s (.client k (.commit "d0" "m0" 40 40)) = some t ∧
        ¬ RejectsClosed openToAll ⟨s, .client k (.commit "d0" "m0" 40 40), t⟩ := by
  obtain ⟨s, hs, hp⟩ := exists_reaches (S := system openToAll 1 2) (fun _ _ => True) (s := started 1 2)
    (lateDelivery 0 0 1)
    (fun s => s.data.closed openToAll &&
      (step openToAll s (.client 0 (.commit "d0" "m0" 40 40))).any fun t =>
        (t.data.db.deliveries.find? "d0").any (·.outcome = .delivered))
    (init_started _ 1 2) (fun _ _ => trivial) (by decide +kernel)
  simp only [Bool.and_eq_true, Option.any_eq_true] at hp
  obtain ⟨hclosed, t, ht, row, hrow, houtcome⟩ := hp
  refine ⟨s, hs, 0, t, ht, fun hrejects => ?_⟩
  obtain ⟨⟨row', hrow', hrejected⟩, -⟩ := hrejects 0 _ _ _ _ rfl hclosed
  obtain rfl := Option.some.inj (hrow.symm.trans hrow')
  simp [hrejected] at houtcome

instance (cfg : Config) (s : State n m) (a : Action n m) : Decidable (ClosesQuietly cfg s a) := by
  unfold ClosesQuietly
  split <;> infer_instance

def tooLate (e : Fin n) (k l : Fin m) : List (Action n m) :=
  opening e 0 ++ looking l ++ delivering l "d1" "m1" ++ receiving e "m1" ++ looking k ++
    [.client k (.commit "d0" "m0" 40 40)]

theorem no_delivery_after_close_tooLate :
    ∃ tr : List (Transition (State 1 2) (Action 1 2)), (∀ x ∈ tr, RejectsClosed openToAll x) ∧
      ∃ x ∈ tr, x.pre.data.closed openToAll = true ∧ ∃ k, x.act = .client k (.commit "d0" "m0" 40 40) := by
  obtain ⟨t, ht⟩ := Option.isSome_iff_exists.1
    (show (exec (system openToAll 1 2) (started 1 2) (tooLate 0 0 1)).isSome = true by decide +kernel)
  refine ⟨_, no_delivery_after_close (init_started _ 1 2) (run_exec ht) (by decide +kernel), ?_⟩
  have hlate : ((trace (system openToAll 1 2) (started 1 2) (tooLate 0 0 1)).any fun x =>
      x.pre.data.closed openToAll && x.act = .client 0 (.commit "d0" "m0" 40 40)) = true := by
    decide +kernel
  obtain ⟨x, hx, hlate⟩ := List.any_eq_true.1 hlate
  simp only [Bool.and_eq_true, decide_eq_true_eq] at hlate
  exact ⟨x, hx, hlate.1, 0, hlate.2⟩

end Late

/-! ### The gate and the checkpoints -/

section Outcome

/-- The step has the checkpoint of a `GateRecv`. -/
def Data.recorded (cfg : Config) (d : Data) (stepID : Int) : Bool :=
  (d.row? cfg stepID).any (·.functionName = "DBOS.recv")

/-- The gate agrees with the checkpoints: it is not open for a step that has one, and it is closed if a
step has one that no later step has followed with an opening. -/
structure Agrees (cfg : Config) (d : Data) : Prop where
  unrecorded : ∀ g, d.gate? cfg = some g → g.isOpen = true → d.recorded cfg g.recvStepID = false
  closed : ∀ stepID, d.recorded cfg stepID = true → (∀ k ∈ d.opens, k ≤ stepID) →
    ∀ g, d.gate? cfg = some g → g.isOpen = false
  /-- once it has been opened there is a row -/
  present : d.opens ≠ [] → (d.gate? cfg).isSome = true

/-- **The condition.** A gate is opened only for a step after all the recorded ones. -/
def OpensAhead (cfg : Config) (s : State n m) : Action n m → Prop
  | .exec e (.openGate _ _) => ∀ stepID ∈ (s.execs e).entered?,
      ∀ r ∈ s.data.db.sys.operations.rows, r.workflowID = cfg.workflowID →
        r.functionName = "DBOS.recv" → r.functionID < stepID
  | _ => True

instance (cfg : Config) (s : State n m) (a : Action n m) : Decidable (OpensAhead cfg s a) := by
  unfold OpensAhead
  split <;> infer_instance

structure Ahead (cfg : Config) (d : Data) : Prop where
  unrecorded : ∀ g, d.gate? cfg = some g → g.isOpen = true →
    ∀ stepID, g.recvStepID ≤ stepID → d.recorded cfg stepID = false
  opener : ∀ g, d.gate? cfg = some g → g.recvStepID ∈ d.opens
  present : d.opens ≠ [] → (d.gate? cfg).isSome = true

theorem Ahead.agrees {d : Data} (h : Ahead cfg d) : Agrees cfg d where
  unrecorded g hg hopen := h.unrecorded g hg hopen g.recvStepID le_rfl
  closed stepID hrecorded hlast g hg := by
    rw [← Bool.not_eq_true]
    intro hopen
    have hle : g.recvStepID ≤ stepID := hlast _ (h.opener g hg)
    exact Bool.false_ne_true ((h.unrecorded g hg hopen stepID hle).symm.trans hrecorded)
  present := h.present

theorem recorded_congr {d d' : Data} {stepID : Int} (h : d'.row? cfg stepID = d.row? cfg stepID) :
    d'.recorded cfg stepID = d.recorded cfg stepID := by
  rw [Data.recorded, Data.recorded, h]

theorem Ahead.of_keeps {d d' : Data} (h : Ahead cfg d) (hkeeps : Keeps cfg d d') : Ahead cfg d' where
  unrecorded g hg hopen stepID hle :=
    (recorded_congr (hkeeps.row stepID)).trans (h.unrecorded g (hkeeps.gate ▸ hg) hopen stepID hle)
  opener g hg := hkeeps.opens ▸ h.opener g (hkeeps.gate ▸ hg)
  present hopens := by
    rw [hkeeps.gate]
    exact h.present (hkeeps.opens ▸ hopens)

/-- With the close nothing is left to be asked of the gate. -/
theorem Ahead.commit {d : Data} (h : Ahead cfg d) (a : Recv.Attempt) (message : Option NotificationRow)
    (closedAt completedAt : Int) : Ahead cfg (d.commit cfg a message closedAt completedAt) := by
  refine ⟨fun g hg hopen => ?_, fun g hg => ?_, fun hopens => ?_⟩
  · rw [gate?_commit] at hg
    obtain ⟨g, -, rfl⟩ := Option.map_eq_some_iff.1 hg
    cases hopen
  · rw [gate?_commit] at hg
    obtain ⟨g₀, hg₀, rfl⟩ := Option.map_eq_some_iff.1 hg
    exact h.opener g₀ hg₀
  · rw [gate?_commit, Option.isSome_map]
    exact h.present hopens

theorem ahead_of_openedAt {d d' : Data} {stepID : Int} (hopened : OpenedAt cfg d stepID d')
    (hlast : ∀ r ∈ d.db.sys.operations.rows, r.workflowID = cfg.workflowID →
      r.functionName = "DBOS.recv" → r.functionID < stepID) : Ahead cfg d' := by
  obtain ⟨g, hg, -, hstep⟩ := hopened.gate
  have hrow : ∀ k, d'.row? cfg k = d.row? cfg k := fun k => by rw [Data.row?, Data.row?, hopened.sys]
  refine ⟨fun g' hg' _ k hk => ?_, fun g' hg' => ?_, fun _ => Option.isSome_of_eq_some hg⟩
  · obtain rfl := Option.some.inj (hg.symm.trans hg')
    rw [recorded_congr (hrow k), ← Bool.not_eq_true]
    intro hrecorded
    obtain ⟨r, hr, hname⟩ := (Option.any_eq_true _ _).1 hrecorded
    have hkey : (r.workflowID, r.functionID) = (cfg.workflowID, k) :=
      Table.key_of_find? (t := d.db.sys.operations) hr
    simp only [Prod.mk.injEq] at hkey
    have hlt := hlast r (Table.mem_of_find? hr) hkey.1 (by simpa using hname)
    omega
  · obtain rfl := Option.some.inj (hg.symm.trans hg')
    rw [hopened.opens, hstep]
    exact List.mem_append_right _ (List.mem_singleton.2 rfl)

theorem ahead_step (h : Ahead cfg s.data) (hC : OpensAhead cfg s a) (hstep : step cfg s a = some t) :
    Ahead cfg t.data := by
  cases a with
  | exec e x =>
    obtain ⟨r, hr, rfl⟩ := Option.map_eq_some_iff.1 hstep
    generalize hp : s.execs e = p at hr
    cases executes_of_execStep hr with
    | opens hopened => exact ahead_of_openedAt hopened (hC _ (by rw [hp]; rfl))
    | commits _ => exact h.commit _ _ _ _
    | refused => exact h
    | quiet _ => exact h
  | client k x =>
    obtain ⟨r, hr, rfl⟩ := Option.map_eq_some_iff.1 hstep
    exact h.of_keeps (serves_of_clientStep hr).keeps
  | env x =>
    obtain ⟨d, hd, rfl⟩ := Option.map_eq_some_iff.1 hstep
    exact h.of_keeps (keeps_envStep hd).1

theorem ahead_init (hs : Init cfg s) : Ahead cfg s.data := by
  refine ⟨fun g hg => ?_, fun g hg => ?_, fun hopens => (hopens hs.opens).elim⟩
  · rw [hs.gate] at hg
    cases hg
  · rw [hs.gate] at hg
    cases hg

/-- **The gate agrees with the checkpoints** in every state, if every opening meets the condition. -/
theorem agrees_of_opensAhead (h : Reaches (system cfg n m) (OpensAhead cfg) s) : Agrees cfg s.data :=
  (h.invariant (I := fun s => Ahead cfg s.data) (fun _ hs => ahead_init hs)
    fun _ _ _ h hC hstep => ahead_step h hC hstep).agrees

/-- Two executions find no checkpoint; one of them receives, and then the other opens the gate. -/
def openedLate (e f : Fin n) (k : Fin m) : List (Action n m) :=
  .exec f (.enter 0) :: opening e 0 ++ looking k ++ delivering k "d" "m" ++ receiving e "m" ++
    [.exec f (.openGate 40 true)]

/-- The gate is open for the step that has just been recorded. -/
theorem open_though_recorded :
    ∃ s : State 2 1, Reaches (system openToAll 2 1) (fun _ _ => True) s ∧
      (∃ g, s.data.gate? openToAll = some g ∧ g.isOpen = true ∧ g.recvStepID = 0) ∧
      s.data.recorded openToAll 0 = true ∧ ¬ Agrees openToAll s.data := by
  obtain ⟨s, hs, hp⟩ := exists_reaches (S := system openToAll 2 1) (fun _ _ => True) (s := started 2 1)
    (openedLate 0 1 0)
    (fun s => (s.data.gate? openToAll).any (fun g => g.isOpen && g.recvStepID = 0) &&
      s.data.recorded openToAll 0)
    (init_started _ 2 1) (fun _ _ => trivial) (by decide +kernel)
  simp only [Bool.and_eq_true, Option.any_eq_true, decide_eq_true_eq] at hp
  obtain ⟨⟨g, hg, hopen, hstep⟩, hrecorded⟩ := hp
  refine ⟨s, hs, ⟨g, hg, hopen, hstep⟩, hrecorded, fun hagrees => ?_⟩
  have := hagrees.unrecorded g hg hopen
  rw [hstep, hrecorded] at this
  cases this

theorem agrees_second_opening :
    ∃ s : State 1 1, Agrees openToAll s.data ∧ s.data.recorded openToAll 0 = true ∧
      s.data.openedBy? openToAll = some 2 := by
  obtain ⟨s, hs, hp⟩ := exists_reaches (S := system openToAll 1 1) (OpensAhead openToAll)
    (s := started 1 1)
    (opening 0 0 ++ looking 0 ++ delivering 0 "d" "m" ++ receiving 0 "m" ++ opening 0 2)
    (fun s => s.data.recorded openToAll 0 && s.data.openedBy? openToAll = some 2)
    (init_started _ 1 1) (by decide +kernel) (by decide +kernel)
  simp only [Bool.and_eq_true, decide_eq_true_eq] at hp
  exact ⟨s, agrees_of_opensAhead hs, hp⟩

end Outcome

end Dbos.GateRecv
