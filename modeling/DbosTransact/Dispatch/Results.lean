import DbosTransact.Dispatch.Claims

/-!
# The results of `DequeueWorkflows`

What a run says about the result of a call (`PhaseTold`): the transition at which the call counted, the one
at which its version was the latest, and the one at which it committed.
-/

namespace Dbos.Dispatch

open Relational RepeatableRead Lts Queue

variable {κ : Type*}

/-! ### Statements about a run -/

/-- The step takes the row from `ENQUEUED` to `PENDING`. -/
def Claims (z : Transition (State κ) (Action κ)) (id : String) : Prop :=
  (∃ r ∈ z.pre.store.table.find? id, r.status = .enqueued) ∧
    ∃ r ∈ z.post.store.table.find? id, r.status = .pending

/-- The caller's version is the latest that is registered, or none is. -/
def Call.LatestOrNone (c : Call) (versions : List VersionRow) : Prop :=
  c.registered versions = [] ∨ ∃ v ∈ c.registered versions,
    (∀ u ∈ c.registered versions, u.versionTimestamp ≤ v.versionTimestamp) ∧
      v.versionName = c.executor.applicationVersion

/-- The number of rows is within each budget that the queue has, as computed from the table. -/
structure Call.Budgeted (c : Call) (now : Int) (t : StatusTable) (n : ℕ) : Prop where
  rateLimit : ∀ l ∈ c.queue.rateLimit, (n : Int) ≤
    max (l.limit - t.count (recent c.queue c.executor c.input.queuePartitionKey (cutoffTime l now))) 0
  worker : ∀ w ∈ c.queue.workerConcurrency, (n : Int) ≤ max (w - c.input.localRunningCount) 0
  global : ∀ g ∈ c.queue.globalConcurrency, (n : Int) ≤
    max (g - t.count (pending c.queue c.executor c.input.queuePartitionKey)) 0

section Run

variable (calls : κ → Call) (tr : List (Transition (State κ) (Action κ))) (k : κ)

structure Claimable (r : WorkflowRow) : Prop where
  queue : r.queueName = some (calls k).queue.name
  enqueued : r.status = .enqueued
  partition : (calls k).input.queuePartitionKey ≠ "" →
    r.queuePartitionKey = some (calls k).input.queuePartitionKey
  owner : (calls k).executor.appName ≠ "" →
    r.applicationName = some (calls k).executor.appName ∨ r.applicationName = none
  version : r.applicationVersion = some (calls k).executor.applicationVersion ∨
    r.applicationVersion = none ∧ ∃ y ∈ tr, y.act.call? = some k ∧ (calls k).LatestOrNone y.pre.versions

/-- The call has counted, and `n` rows are within its budgets. -/
def Counted (n : ℕ) : Prop :=
  ∃ y ∈ tr, ∃ now, y.act = .count k now ∧ (calls k).Budgeted now y.pre.store.table n

/-- The call has committed a claim of the rows, which it may claim and which are in dispatch order. -/
def Committed (ids : List String) : Prop :=
  ∃ z ∈ tr, z.act = .commit k ∧ (∀ id ∈ ids, Claims z id) ∧
    ∃ rows : List WorkflowRow, rows.map (·.workflowID) = ids ∧ rows.Pairwise (dispatchOrder · ·) ∧
      ∀ r ∈ rows, z.pre.store.table.find? r.workflowID = some r ∧ Claimable calls tr k r

structure PhaseTold (p : Phase) : Prop where
  counted : ∀ x ∈ p.txn?, ∃ y ∈ tr, y.act = .count k x.reading ∧ y.pre.versions = x.versions ∧
    (calls k).maxTasks x.reading y.pre.store.table = some x.maxTasks
  latest : p.isLatest? = some true → ∃ y ∈ tr, y.act.call? = some k ∧ (calls k).LatestOrNone y.pre.versions
  returned : ∀ ids, p = .returned ids → Counted calls tr k ids.length ∧ (ids ≠ [] → Committed calls tr k ids)

end Run

variable {calls : κ → Call} {tr tr' : List (Transition (State κ) (Action κ))} {k : κ} {p p' : Phase}

section Mono

variable (h : ∀ y ∈ tr, y ∈ tr')

include h

theorem Claimable.mono {r : WorkflowRow} (hr : Claimable calls tr k r) : Claimable calls tr' k r := by
  refine { hr with version := hr.version.imp_right fun ⟨hnone, y, hy, hlatest⟩ => ?_ }
  exact ⟨hnone, y, h y hy, hlatest⟩

theorem Counted.mono {n : ℕ} (hn : Counted calls tr k n) : Counted calls tr' k n := by
  obtain ⟨y, hy, hcount⟩ := hn
  exact ⟨y, h y hy, hcount⟩

theorem Committed.mono {ids : List String} (hids : Committed calls tr k ids) : Committed calls tr' k ids := by
  obtain ⟨z, hz, hact, hclaims, rows, hrows, hsorted, hall⟩ := hids
  exact ⟨z, h z hz, hact, hclaims, rows, hrows, hsorted, fun r hr => ⟨(hall r hr).1, (hall r hr).2.mono h⟩⟩

theorem PhaseTold.mono (hp : PhaseTold calls tr k p) : PhaseTold calls tr' k p where
  counted x hx := by
    obtain ⟨y, hy, hcount⟩ := hp.counted x hx
    exact ⟨y, h y hy, hcount⟩
  latest hl := by
    obtain ⟨y, hy, hlatest⟩ := hp.latest hl
    exact ⟨y, h y hy, hlatest⟩
  returned ids hids := ⟨(hp.returned ids hids).1.mono h, fun hne => ((hp.returned ids hids).2 hne).mono h⟩

end Mono

theorem PhaseTold.keep (hp : PhaseTold calls tr k p) (htxn : p'.txn? = p.txn?)
    (hlatest : p'.isLatest? = p.isLatest?) (hreturned : ∀ ids, p' ≠ .returned ids) : PhaseTold calls tr k p' where
  counted := htxn ▸ hp.counted
  latest := hlatest ▸ hp.latest
  returned ids hids := (hreturned ids hids).elim

theorem PhaseTold.failed : PhaseTold calls tr k .failed :=
  ⟨by simp [Phase.txn?], by simp [Phase.isLatest?], by simp⟩

theorem PhaseTold.ofReturned {ids : List String} (hcounted : Counted calls tr k ids.length)
    (hcommitted : ids ≠ [] → Committed calls tr k ids) : PhaseTold calls tr k (.returned ids) := by
  refine ⟨by simp [Phase.txn?], by simp [Phase.isLatest?], ?_⟩
  rintro _ ⟨⟩
  exact ⟨hcounted, hcommitted⟩

/-! ### The budgets and the rows -/

section Reads

variable {c : Call} {now : Int} {t : StatusTable} {n : ℕ} {m : Option Int}

theorem Call.budgeted_zero (c : Call) (now : Int) (t : StatusTable) : c.Budgeted now t 0 := by
  constructor <;> intros <;> exact Int.le_max_right _ _

/-- The `LIMIT` keeps the result within the budgets. -/
theorem Call.budgeted_of_maxTasks (h : c.maxTasks now t = some m) (hn : ∀ k ∈ m.map Int.toNat, n ≤ k) :
    c.Budgeted now t n := by
  have hle : ∀ {k b : Int}, m = some k → k ≤ b → (n : Int) ≤ max b 0 := by
    intro k b hk hkb
    have := hn k.toNat (by rw [hk]; rfl)
    omega
  constructor
  · intro l hl
    obtain ⟨k, hk, hkb⟩ := budget_le_limit h hl
    exact hle hk hkb
  · intro w hw
    obtain ⟨k, hk, hkb⟩ := budget_le_worker h hw
    have := hle hk hkb
    omega
  · intro g hg
    obtain ⟨k, hk, hkb⟩ := budget_le_global h hg
    have := hle hk hkb
    omega

theorem Call.latestOrNone {versions : List VersionRow} {latest : Option VersionRow}
    (h : c.ReadsLatest versions latest) (hlatest : c.isLatestVersion latest = true) : c.LatestOrNone versions := by
  cases latest with
  | none => exact .inl h
  | some v => exact .inr ⟨v, h.1, h.2, by simpa [Call.isLatestVersion] using hlatest⟩

theorem claimable_of_eligible {r : WorkflowRow} {isLatest : Bool} (h : (calls k).Eligible isLatest r = true)
    (hlatest : isLatest = true → ∃ y ∈ tr, y.act.call? = some k ∧ (calls k).LatestOrNone y.pre.versions) :
    Claimable calls tr k r := by
  simp only [Call.Eligible, eligible, versionMatches, inPartition, WorkflowRow.ownedBy, Bool.and_eq_true,
    Bool.or_eq_true, decide_eq_true_eq] at h
  obtain ⟨⟨⟨⟨hqueue, hstatus⟩, hversion⟩, howner⟩, hpartition⟩ := h
  refine ⟨hqueue, hstatus, fun hne => hpartition.resolve_left hne, fun hne => ?_, ?_⟩
  · rcases howner with (hempty | hown) | hnone
    · exact (hne hempty).elim
    · exact .inl hown
    · exact .inr hnone
  · exact hversion.imp_right fun h => ⟨h.2, hlatest h.1⟩

end Reads

/-! ### One step -/

section Step

variable {s s' : State κ} {a : Action κ} {x : Txn} {isLatest : Bool} {taken : List WorkflowRow} {now : Int}
  {id : String}

theorem claims_published (h : CallOk (calls k) s.store s.locks k (.claimed x isLatest taken now))
    {r : WorkflowRow} (hr : r ∈ taken) (hstore : s'.store = published calls s k taken now) :
    Claims ⟨s, a, s'⟩ r.workflowID := by
  obtain ⟨-, hfind, heligible⟩ := h.held r hr
  obtain ⟨hstatus, howned⟩ := Call.enqueued_of_eligible (heligible isLatest rfl)
  have hmem : r.workflowID ∈ taken.map (·.workflowID) := List.mem_map_of_mem hr
  refine ⟨⟨r, hfind, hstatus⟩, r.claim (claimOf (calls k).queue (calls k).executor) (unixMilli now), ?_, rfl⟩
  show s'.store.table.find? r.workflowID = _
  rw [hstore]
  show (StatusTable.claim s.store.table _ _ _).find? r.workflowID = _
  rw [StatusTable.claim, Table.find?_update, hfind, Option.map_some, if_pos (by simp [hmem, hstatus, claimOf, howned])]

variable [DecidableEq κ]

/-- **Only a commit claims**, and what it claims is in the result. -/
theorem claims_of_step (h : Inv calls s) (hstep : step calls s a = some s') (hclaims : Claims ⟨s, a, s'⟩ id) :
    ∃ k, a.committer? = some k ∧ ∀ ids, s'.phase k = .returned ids → id ∈ ids := by
  obtain ⟨⟨r, hr, hstatus⟩, r', hr', hstatus'⟩ := hclaims
  have hsame : s'.store.table.find? id ≠ s.store.table.find? id := by
    intro heq
    have hrow : s.store.table.find? id = some r' := heq.symm.trans hr'
    rw [show s.store.table.find? id = some r from hr] at hrow
    rw [Option.some.inj hrow, hstatus'] at hstatus
    cases hstatus
  cases moves_of_step hstep with
  | commit a k p x isLatest taken now hphase hresult hact =>
    have hok : CallOk _ _ _ k (.claimed x isLatest taken now) := hphase ▸ h k
    have hid : id ∈ taken.map (·.workflowID) := by
      by_contra hid
      exact hsame (find?_claim_of_notMem hid)
    refine ⟨k, ?_, fun ids hids => ?_⟩
    · rcases hact with ⟨rfl, -⟩ | ⟨rfl, -⟩ <;> rfl
    · have hp : p = .returned ids := by simpa [State.finish, State.goto] using hids
      rcases hact with ⟨-, rfl⟩ | ⟨-, rfl⟩
      · rw [resultOf_eq hok] at hp
        cases hp
        exact hid
      · cases hp
  | environment op t hop ht hlocked =>
    have hremoves : op.removes = false := by
      cases op <;> first | rfl | cases hop
    have hrow : t.find? id = some (op.onRow r) := Lifecycle.find?_step_of_find? ht hremoves hr
    rw [show t.find? id = some r' from hr'] at hrow
    rw [Option.some.inj hrow] at hstatus'
    exact (status_onRow hop hstatus hstatus').elim
  | _ => exact (hsame rfl).elim

/-- **One step**, for what the run says about the calls. -/
theorem told_of_step (h : Inv calls s) (hstep : step calls s a = some s')
    (htold : ∀ k, PhaseTold calls tr k (s.phase k)) :
    ∀ k, PhaseTold calls (tr ++ [⟨s, a, s'⟩]) k (s'.phase k) := by
  have hmono : ∀ y ∈ tr, y ∈ tr ++ [⟨s, a, s'⟩] := fun y hy => List.mem_append_left _ hy
  have hlast : ⟨s, a, s'⟩ ∈ tr ++ [⟨s, a, s'⟩] := List.mem_append_right _ List.mem_cons_self
  have hothers : ∀ j, PhaseTold calls (tr ++ [⟨s, a, s'⟩]) j (s.phase j) := fun j => (htold j).mono hmono
  -- the phase of the call that moves, and those of the others
  have hmove : ∀ {k : κ} {p : Phase}, s'.phase = Function.update s.phase k p →
      PhaseTold calls (tr ++ [⟨s, a, s'⟩]) k p → ∀ j, PhaseTold calls (tr ++ [⟨s, a, s'⟩]) j (s'.phase j) := by
    intro k p hp hk j
    rw [hp]
    by_cases hj : j = k
    · subst hj
      rw [Function.update_self]
      exact hk
    · rw [Function.update_of_ne hj]
      exact hothers j
  have hphaseTold : ∀ {k : κ} {p : Phase}, s.phase k = p → PhaseTold calls (tr ++ [⟨s, a, s'⟩]) k p :=
    fun hp => hp ▸ hothers _
  have hcounted : ∀ {k : κ} {x : Txn} {p : Phase} {n : ℕ}, s.phase k = p → p.txn? = some x →
      (∀ m ∈ x.limit, n ≤ m) → Counted calls (tr ++ [⟨s, a, s'⟩]) k n := by
    intro k x p n hp hx hn
    obtain ⟨y, hy, hact, -, hmax⟩ := (hphaseTold hp).counted x hx
    exact ⟨y, hy, x.reading, hact, Call.budgeted_of_maxTasks hmax hn⟩
  cases moves_of_step hstep with
  | stop k now hphase =>
    refine hmove rfl (.ofReturned ⟨_, hlast, now, rfl, Call.budgeted_zero ..⟩ fun hne => (hne rfl).elim)
  | count k now maxTasks hphase hmax =>
    refine hmove rfl ⟨?_, by simp [Phase.isLatest?], by simp⟩
    rintro _ ⟨⟩
    exact ⟨_, hlast, rfl, rfl, hmax⟩
  | version k latest x hphase hlatest =>
    refine hmove rfl ⟨(hphaseTold hphase).counted, fun hl => ?_, by simp⟩
    have hl : (calls k).isLatestVersion latest = true := Option.some.inj hl
    unfold sourceVersions at hlatest
    split_ifs at hlatest
    · obtain ⟨y, hy, hact, hversions, -⟩ := (hphaseTold hphase).counted x rfl
      refine ⟨y, hy, by rw [hact]; rfl, ?_⟩
      rw [hversions]
      exact Call.latestOrNone hlatest hl
    · exact ⟨_, hlast, rfl, Call.latestOrNone hlatest hl⟩
  | select k ordered x isLatest hphase => exact hmove rfl ((hphaseTold hphase).keep rfl rfl (by simp))
  | skip k x isLatest r rest taken hphase => exact hmove rfl ((hphaseTold hphase).keep rfl rfl (by simp))
  | lockSnapshot k x isLatest r rest taken hphase => exact hmove rfl ((hphaseTold hphase).keep rfl rfl (by simp))
  | lockCommitted k x isLatest r r' rest taken hphase =>
    exact hmove rfl ((hphaseTold hphase).keep rfl rfl (by simp))
  | claim k now x isLatest rest taken hphase => exact hmove rfl ((hphaseTold hphase).keep rfl rfl (by simp))
  | nothing k x isLatest taken now hphase =>
    exact hmove rfl (.ofReturned (hcounted hphase rfl (by simp)) fun hne => (hne rfl).elim)
  | commit a k p x isLatest taken now hphase hresult hact =>
    have hok : CallOk _ _ _ k (.claimed x isLatest taken now) := hphase ▸ h k
    refine hmove rfl ?_
    rcases hact with ⟨rfl, rfl⟩ | ⟨rfl, rfl⟩
    · refine .ofReturned (hcounted hphase rfl fun m hm => ?_) fun _ => ?_
      · rw [resultOf_eq hok, List.length_map]
        exact hok.within x rfl m hm
      · refine ⟨_, hlast, rfl, fun id hid => ?_, taken, (resultOf_eq hok).symm, ?_, fun r hr => ?_⟩
        · rw [resultOf_eq hok] at hid
          obtain ⟨r, hr, rfl⟩ := List.mem_map.1 hid
          exact claims_published hok hr rfl
        · exact (List.pairwise_append.1 hok.sorted).1
        · refine ⟨(hok.held r hr).2.1, claimable_of_eligible ((hok.held r hr).2.2 isLatest rfl) ?_⟩
          rintro rfl
          exact (hphaseTold hphase).latest rfl
    · exact .failed
  | fail a k => exact hmove rfl .failed
  | environment | register | foreignLock | foreignUnlock => exact hothers

end Step

end Dbos.Dispatch
