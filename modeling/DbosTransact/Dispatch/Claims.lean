import DbosTransact.Dispatch.Calls

/-!
# Claims are exclusive, eligible and ordered

`CallOk` says what an open transaction of `DequeueWorkflows` rests on: the rows that its query has returned
are locked by it, are eligible as they stand, and are in dispatch order with the candidates that are left.
-/

namespace Dbos.Dispatch

open Relational RepeatableRead Lts Queue

/-! ### Rows and their places in the order -/

section Rank

def SameRank (r r' : WorkflowRow) : Prop := r'.priority = r.priority ∧ r'.createdAt = r.createdAt

def Aged (t t' : StatusTable) : Prop := ∀ id r, t.find? id = some r → ∃ r', t'.find? id = some r' ∧ SameRank r r'

theorem Aged.refl (t : StatusTable) : Aged t t := fun _ r hr => ⟨r, hr, rfl, rfl⟩

theorem Aged.trans {t t' t'' : StatusTable} (h : Aged t t') (h' : Aged t' t'') : Aged t t'' := by
  intro id r hr
  obtain ⟨r', hr', hpriority, hcreated⟩ := h id r hr
  obtain ⟨r'', hr'', hpriority', hcreated'⟩ := h' id r' hr'
  exact ⟨r'', hr'', hpriority'.trans hpriority, hcreated'.trans hcreated⟩

theorem sameRank_onRow (op : Lifecycle.Operation) (r : WorkflowRow) : SameRank r (op.onRow r) := by
  cases op <;> simp only [Lifecycle.Operation.onRow] <;> first | exact ⟨rfl, rfl⟩ | (split_ifs <;> exact ⟨rfl, rfl⟩)

theorem aged_of_step {t t' : StatusTable} {op : Lifecycle.Operation} (h : Lifecycle.step t op = some t')
    (hop : op.removes = false) : Aged t t' :=
  fun _ r hr => ⟨op.onRow r, Lifecycle.find?_step_of_find? h hop hr, sameRank_onRow op r⟩

theorem aged_claim (t : StatusTable) (c : WorkflowRow.Claim) (ids : List String) (now : Int) :
    Aged t (StatusTable.claim t c ids now) := by
  have hstep : Lifecycle.step t (.dequeueWorkflows c ids now) = some (StatusTable.claim t c ids now) := rfl
  exact aged_of_step hstep rfl

theorem dispatchOrder_of_sameRank_left {r r' : WorkflowRow} (h : SameRank r r') (x : WorkflowRow) :
    dispatchOrder r' x = dispatchOrder r x := by
  simp [dispatchOrder, h.1, h.2]

theorem dispatchOrder_of_sameRank_right {r r' : WorkflowRow} (h : SameRank r r') (x : WorkflowRow) :
    dispatchOrder x r' = dispatchOrder x r := by
  simp [dispatchOrder, h.1, h.2]

theorem pairwise_of_sameRank {r r' : WorkflowRow} {taken rest : List WorkflowRow} (h : SameRank r r')
    (hsorted : (taken ++ r :: rest).Pairwise (dispatchOrder · ·)) :
    (taken ++ [r'] ++ rest).Pairwise (dispatchOrder · ·) := by
  rw [List.append_assoc, List.singleton_append]
  rw [List.pairwise_append, List.pairwise_cons] at hsorted ⊢
  obtain ⟨htaken, ⟨hr, hrest⟩, hcross⟩ := hsorted
  refine ⟨htaken, ⟨fun x hx => ?_, hrest⟩, fun x hx y hy => ?_⟩
  · rw [dispatchOrder_of_sameRank_left h]
    exact hr x hx
  · rcases List.mem_cons.1 hy with rfl | hy
    · rw [dispatchOrder_of_sameRank_right h]
      exact hcross x hx r List.mem_cons_self
    · exact hcross x hx y (List.mem_cons_of_mem _ hy)

/-- Beside the calls no row goes from `ENQUEUED` to `PENDING`. -/
theorem status_onRow {op : Lifecycle.Operation} (hop : beside op = true) {r : WorkflowRow}
    (hr : r.status = .enqueued) : (op.onRow r).status ≠ .pending := by
  cases op with
  | dequeueWorkflows => cases hop
  | updateWorkflowOutcome id failed output error now =>
    simp only [Lifecycle.Operation.onRow]
    split_ifs <;> simp [WorkflowRow.recordOutcome, hr]
  | _ =>
    simp only [Lifecycle.Operation.onRow]
    try split_ifs
    all_goals simp [hr, WorkflowRow.reinsert, WorkflowRow.suspendToDelayed, WorkflowRow.promote,
      WorkflowRow.debounce, WorkflowRow.setDelay, WorkflowRow.wake, WorkflowRow.cancel, WorkflowRow.deadLetter,
      WorkflowRow.reenqueue, WorkflowRow.resume, WorkflowRow.rename]

end Rank

theorem Call.enqueued_of_eligible {c : Call} {isLatest : Bool} {r : WorkflowRow} (h : c.Eligible isLatest r = true) :
    r.status = .enqueued ∧ r.ownedBy c.executor.appName = true := by
  simp only [Call.Eligible, eligible, Bool.and_eq_true, decide_eq_true_eq] at h
  exact ⟨h.1.1.1.2, h.1.2⟩

variable {κ : Type*} {calls : κ → Call}

/-! ### What a transaction rests on -/

/-- What holds of a call `k` in a phase `p`. -/
structure CallOk (c : Call) (store : Versioned WorkflowRow.workflowID) (locks : String → Option (Option κ))
    (k : κ) (p : Phase) : Prop where
  snapshot : ∀ x ∈ p.txn?, x.snapshot.Follows store ∧ Aged x.snapshot.table store.table
  candidates : c.queue.snapshot = true → ∀ x ∈ p.txn?, ∀ isLatest ∈ p.isLatest?, ∀ r ∈ p.rest,
    x.snapshot.table.find? r.workflowID = some r ∧ c.Eligible isLatest r = true
  ranked : ∀ r ∈ p.rest, ∃ r', store.table.find? r.workflowID = some r' ∧ SameRank r r'
  held : ∀ r ∈ p.taken, locks r.workflowID = some (some k) ∧ store.table.find? r.workflowID = some r ∧
    ∀ isLatest ∈ p.isLatest?, c.Eligible isLatest r = true
  sorted : (p.taken ++ p.rest).Pairwise (dispatchOrder · ·)
  within : ∀ x ∈ p.txn?, ∀ m ∈ x.limit, p.taken.length ≤ m

namespace CallOk

variable {c : Call} {store store' : Versioned WorkflowRow.workflowID} {locks locks' : String → Option (Option κ)}
  {k : κ} {p : Phase} {x : Txn} {isLatest : Bool} {r r' : WorkflowRow} {rest taken : List WorkflowRow}

theorem closed (hp : p.txn? = none) : CallOk c store locks k p := by
  cases p with
  | idle | returned | failed =>
    exact ⟨by simp [Phase.txn?], by simp [Phase.txn?], by simp [Phase.rest], by simp [Phase.taken],
      by simp [Phase.taken, Phase.rest], by simp [Phase.txn?]⟩
  | _ => cases hp

theorem frame (h : CallOk c store locks k p) (hfollows : ∀ v : Versioned WorkflowRow.workflowID,
      v.Follows store → v.Follows store') (haged : Aged store.table store'.table)
    (hlocked : ∀ id r, locks id = some (some k) → store.table.find? id = some r →
      locks' id = some (some k) ∧ store'.table.find? id = some r) :
    CallOk c store' locks' k p where
  snapshot x hx := ⟨hfollows _ (h.snapshot x hx).1, (h.snapshot x hx).2.trans haged⟩
  candidates := h.candidates
  ranked r hr := by
    obtain ⟨r', hr', hrank⟩ := h.ranked r hr
    obtain ⟨r'', hr'', hrank'⟩ := haged _ r' hr'
    exact ⟨r'', hr'', hrank'.1.trans hrank.1, hrank'.2.trans hrank.2⟩
  held r hr := by
    obtain ⟨hlock, hfind, heligible⟩ := h.held r hr
    obtain ⟨hlock', hfind'⟩ := hlocked _ r hlock hfind
    exact ⟨hlock', hfind', heligible⟩
  sorted := h.sorted
  within := h.within

theorem counted (now : Int) (versions : List VersionRow) (maxTasks : Option Int) :
    CallOk c store locks k (.counted ⟨now, store, versions, maxTasks⟩) where
  snapshot := by
    rintro _ ⟨⟩
    exact ⟨.refl _, .refl _⟩
  candidates := by simp [Phase.isLatest?]
  ranked := by simp [Phase.rest]
  held := by simp [Phase.taken]
  sorted := List.Pairwise.nil
  within := by simp [Phase.taken]

theorem versioned (h : CallOk c store locks k (.counted x)) : CallOk c store locks k (.versioned x isLatest) where
  snapshot := h.snapshot
  candidates := by simp [Phase.rest]
  ranked := by simp [Phase.rest]
  held := by simp [Phase.taken]
  sorted := List.Pairwise.nil
  within := by simp [Phase.taken]

theorem select {ordered : List WorkflowRow} (h : CallOk c store locks k (.versioned x isLatest))
    (horder : Table.OrderBy dispatchOrder
      ((if c.queue.snapshot then x.snapshot.table else store.table).rows.filter (c.Eligible isLatest)) ordered) :
    CallOk c store locks k (.scanning x isLatest ordered []) := by
  have hmem : ∀ r ∈ ordered, r ∈ (if c.queue.snapshot then x.snapshot.table else store.table).rows ∧
      c.Eligible isLatest r = true := fun r hr => List.mem_filter.1 (horder.1.mem_iff.1 hr)
  refine ⟨h.snapshot, ?_, fun r hr => ?_, by simp [Phase.taken], ?_, by simp [Phase.taken]⟩
  · rintro hsnapshot _ ⟨⟩ _ ⟨⟩ r hr
    obtain ⟨hrow, heligible⟩ := hmem r hr
    rw [if_pos hsnapshot] at hrow
    exact ⟨Table.find?_of_mem hrow, heligible⟩
  · obtain ⟨hrow, -⟩ := hmem r hr
    split_ifs at hrow
    · exact (h.snapshot x rfl).2 _ r (Table.find?_of_mem hrow)
    · exact ⟨r, Table.find?_of_mem hrow, rfl, rfl⟩
  · exact horder.2

theorem skip (h : CallOk c store locks k (.scanning x isLatest (r :: rest) taken)) :
    CallOk c store locks k (.scanning x isLatest rest taken) where
  snapshot := h.snapshot
  candidates hsnapshot y hy l hl r' hr' := h.candidates hsnapshot y hy l hl r' (List.mem_cons_of_mem _ hr')
  ranked r' hr' := h.ranked r' (List.mem_cons_of_mem _ hr')
  held := h.held
  sorted := h.sorted.sublist ((List.sublist_cons_self r rest).append_left taken)
  within := h.within

theorem take (h : CallOk c store locks k (.scanning x isLatest (r :: rest) taken))
    (hfull : x.full taken = false) (hfind : store.table.find? r.workflowID = some r')
    (heligible : c.Eligible isLatest r' = true) :
    CallOk c store (Function.update locks r.workflowID (some (some k))) k
      (.scanning x isLatest rest (taken ++ [r'])) := by
  obtain ⟨r'', hr'', hrank⟩ := h.ranked r List.mem_cons_self
  rw [hfind] at hr''
  obtain rfl := Option.some.inj hr''
  have hid : r'.workflowID = r.workflowID := Table.key_of_find? hfind
  refine ⟨h.snapshot, h.skip.candidates, h.skip.ranked, fun y hy => ?_, pairwise_of_sameRank hrank h.sorted, ?_⟩
  · rcases List.mem_append.1 hy with hy | hy
    · obtain ⟨hlock, hrest⟩ := h.held y hy
      refine ⟨?_, hrest⟩
      by_cases hyr : y.workflowID = r.workflowID
      · rw [hyr]
        exact Function.update_self ..
      · rw [Function.update_of_ne hyr]
        exact hlock
    · obtain rfl := List.mem_singleton.1 hy
      rw [hid]
      refine ⟨Function.update_self .., hfind, ?_⟩
      rintro _ ⟨⟩
      exact heligible
  · rintro _ ⟨⟩ m hm
    have hlt : ¬ m ≤ taken.length := by
      obtain hm : x.limit = some m := hm
      simpa [Txn.full, hm] using hfull
    simp only [Phase.taken, List.length_append, List.length_singleton]
    omega

theorem claim {now : Int} (h : CallOk c store locks k (.scanning x isLatest rest taken)) :
    CallOk c store locks k (.claimed x isLatest taken now) where
  snapshot := h.snapshot
  candidates := by simp [Phase.rest]
  ranked := by simp [Phase.rest]
  held := h.held
  sorted := by
    rw [Phase.rest, List.append_nil]
    exact (List.pairwise_append.1 h.sorted).1
  within := h.within

end CallOk

section Steps

variable {s s' : State κ} {a : Action κ} {k : κ} {x : Txn} {isLatest : Bool} {r r' : WorkflowRow}
  {rest taken : List WorkflowRow} {now : Int} {id : String}

def Inv (calls : κ → Call) (s : State κ) : Prop := ∀ k, CallOk (calls k) s.store s.locks k (s.phase k)

theorem CallOk.take_of_ne {c : Call} {j : κ} {p : Phase} {store : Versioned WorkflowRow.workflowID}
    {locks : String → Option (Option κ)} (h : CallOk c store locks j p) (hj : j ≠ k)
    (hfree : ¬ (locks id ≠ none ∧ locks id ≠ some (some k))) :
    CallOk c store (Function.update locks id (some (some k))) j p := by
  refine h.frame (fun _ hv => hv) (.refl _) fun id' r hlock hfind => ⟨?_, hfind⟩
  have hne : id' ≠ id := by
    rintro rfl
    rw [hlock] at hfree
    exact hfree ⟨by simp, by simpa using hj⟩
  rw [Function.update_of_ne hne]
  exact hlock

theorem resultOf_eq (h : CallOk (calls k) s.store s.locks k (.claimed x isLatest taken now)) :
    resultOf calls s k taken = taken.map (·.workflowID) := by
  refine List.filter_eq_self.2 fun id hid => ?_
  obtain ⟨r, hr, rfl⟩ := List.mem_map.1 hid
  obtain ⟨-, hfind, heligible⟩ := h.held r hr
  obtain ⟨hstatus, howned⟩ := Call.enqueued_of_eligible (heligible isLatest rfl)
  simp [hfind, hstatus, howned]

theorem find?_published {j : κ} (h : Inv calls s) (hphase : s.phase k = .claimed x isLatest taken now)
    (hj : j ≠ k) (hlock : s.locks id = some (some j)) :
    (published calls s k taken now).table.find? id = s.store.table.find? id := by
  refine find?_claim_of_notMem fun hid => hj ?_
  obtain ⟨r, hr, rfl⟩ := List.mem_map.1 hid
  have hheld := ((hphase ▸ h k : CallOk _ _ _ _ (.claimed x isLatest taken now)).held r hr).1
  rw [hlock] at hheld
  exact Option.some.inj (Option.some.inj hheld)

variable [DecidableEq κ]

theorem Inv.move (h : Inv calls s) {p : Phase} {store : Versioned WorkflowRow.workflowID}
    {locks : String → Option (Option κ)} (hmover : CallOk (calls k) store locks k p)
    (hothers : ∀ j, j ≠ k → CallOk (calls j) s.store s.locks j (s.phase j) →
      CallOk (calls j) store locks j (s.phase j)) :
    Inv calls ⟨store, s.versions, locks, Function.update s.phase k p⟩ := by
  intro j
  by_cases hj : j = k
  · subst hj
    simpa using hmover
  · simpa [hj] using hothers j hj (h j)

theorem Inv.goto (h : Inv calls s) {p : Phase} (hmover : CallOk (calls k) s.store s.locks k p) :
    Inv calls (s.goto k p) := h.move hmover fun _ _ hj => hj

theorem State.unlocked_of_ne {j : κ} (hj : j ≠ k) (h : s.locks id = some (some j)) :
    s.unlocked k id = some (some j) := by
  simp [State.unlocked, h, Option.filter_some, hj]

theorem Inv.finish (h : Inv calls s) {p : Phase} (hp : p.txn? = none) : Inv calls (s.finish k p) :=
  h.move (.closed hp) fun _ hj hok =>
    hok.frame (fun _ hv => hv) (.refl _) fun _ _ hlock hfind => ⟨State.unlocked_of_ne hj hlock, hfind⟩

theorem Inv.commit (h : Inv calls s) {p : Phase} (hp : p.txn? = none)
    (hphase : s.phase k = .claimed x isLatest taken now) :
    Inv calls { s.finish k p with store := published calls s k taken now } := by
  refine h.move (.closed hp) fun j hj hok => hok.frame (fun v hv => hv.commit _) (aged_claim _ _ _ _) ?_
  intro id r hlock hfind
  exact ⟨State.unlocked_of_ne hj hlock, (find?_published h hphase hj hlock).trans hfind⟩

/-- **One step.** -/
theorem Inv.step (h : Inv calls s) (hstep : step calls s a = some s') : Inv calls s' := by
  have hcall : ∀ {k : κ} {p : Phase}, s.phase k = p → CallOk (calls k) s.store s.locks k p :=
    fun hp => hp ▸ h _
  cases moves_of_step hstep with
  | stop k now hphase => exact h.goto (.closed rfl)
  | count k now maxTasks hphase => exact h.goto (.counted ..)
  | version k latest x hphase => exact h.goto (hcall hphase).versioned
  | select k ordered x isLatest hphase horder => exact h.goto ((hcall hphase).select horder)
  | skip k x isLatest r rest taken hphase => exact h.goto (hcall hphase).skip
  | lockSnapshot k x isLatest r rest taken hphase hfull hfree hsnapshot hversion =>
    have hok := hcall hphase
    obtain ⟨hrow, heligible⟩ := hok.candidates hsnapshot x rfl isLatest rfl r List.mem_cons_self
    have hfind := ((hok.snapshot x rfl).1.find? r.workflowID hversion).trans hrow
    exact h.move (hok.take hfull hfind heligible) fun j hj hj' => hj'.take_of_ne hj hfree
  | lockCommitted k x isLatest r r' rest taken hphase hfull hfree hfind heligible =>
    exact h.move ((hcall hphase).take hfull hfind heligible) fun j hj hj' => hj'.take_of_ne hj hfree
  | claim k now x isLatest rest taken hphase => exact h.goto (hcall hphase).claim
  | nothing k x isLatest taken now hphase => exact h.finish rfl
  | commit a k p x isLatest taken now hphase hresult hact =>
    refine h.commit ?_ hphase
    rcases hact with ⟨-, rfl⟩ | ⟨-, rfl⟩ <;> rfl
  | fail a k => exact h.finish rfl
  | environment op t hop ht hlocked =>
    have hremoves : op.removes = false := by
      cases op <;> first | rfl | cases hop
    refine fun j => (h j).frame (fun v hv => hv.commit _) (aged_of_step ht hremoves) fun id r hlock hfind => ?_
    obtain rfl : r.workflowID = id := Table.key_of_find? hfind
    exact ⟨hlock, hlocked r (Table.mem_of_find? hfind) (by rw [hlock]; rfl)⟩
  | register versions => exact h
  | foreignLock id hfree =>
    refine fun j => (h j).frame (fun _ hv => hv) (.refl _) fun id' r hlock hfind => ⟨?_, hfind⟩
    have hne : id' ≠ id := by
      rintro rfl
      rw [hfree] at hlock
      cases hlock
    exact (Function.update_of_ne hne ..).trans hlock
  | foreignUnlock id hheld =>
    refine fun j => (h j).frame (fun _ hv => hv) (.refl _) fun id' r hlock hfind => ⟨?_, hfind⟩
    have hne : id' ≠ id := by
      rintro rfl
      rw [hheld] at hlock
      cases hlock
    exact (Function.update_of_ne hne ..).trans hlock

end Steps

end Dbos.Dispatch
