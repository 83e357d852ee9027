import DbosTransact.Steps.Checkpoint

/-!
# The writes of a transactional step

The writes of the function are committed together with the checkpoint and hence once. A checkpoint that is
there already makes `RecordOperationResult` fail, unless its contents, with the times in milliseconds, are
those of the call: then it is taken for a lost acknowledgement, and the transaction commits.
-/

namespace Dbos.Checkpoint

open Relational ReadCommitted Lts

variable {n : Nat} {c : Call} {s t : State n} {e : Fin n}

/-- A call of `RecordOperationResult` that inserted nothing is about to return nil. -/
def RepeatsWrite (c : Call) (s : State n) (e : Fin n) : Prop :=
  ∃ startedAt completedAt r, (s.execs e).phase = .conflicted startedAt completedAt r ∧
    (c.recordInput startedAt completedAt r).onConflict (s.row c) = .ok ()

/-- The writes of the function are committed by at most one transaction. -/
def EffectsOnce (s : State n) : Prop := s.store.committed.effects.length ≤ 1

/-- A call that inserted nothing returns nil only to an execution whose own effects are committed. -/
def NilOnlyForOwn (c : Call) (tr : List (Transition (State n) (Action n))) : Prop :=
  ∀ x ∈ tr, ∀ e, x.act = .readBack e → RepeatsWrite c x.pre e →
    ∃ k, (e, k) ∈ x.pre.store.committed.effects

/-- The condition on a step: a call of `RecordOperationResult` that finds a checkpoint does not find
its own contents there. -/
def Distinct (c : Call) (s : State n) : Action n → Prop
  | .readBack e =>
    match (s.execs e).phase with
    | .conflicted startedAt completedAt r =>
      (s.row c).any (c.recordInput startedAt completedAt r).sameWrite = false
    | _ => True
  | _ => True

/-! ### The writes of a transaction -/

def Phase.working : Phase → Bool
  | .ran _ _ | .recording _ _ _ | .conflicted _ _ _ | .recorded _ _ _ => true
  | _ => false

def Phase.inTxn : Phase → Bool
  | .checked _ => true
  | p => p.working

def effectsOf (ws : List (DataWrite n)) : List (Fin n × Nat) :=
  ws.filterMap fun
    | .effect t => some t
    | .sys _ => none

@[simp] theorem effectsOf_append (ws ws' : List (DataWrite n)) :
    effectsOf (ws ++ ws') = effectsOf ws ++ effectsOf ws' := List.filterMap_append

@[simp] theorem effectsOf_effect (t : Fin n × Nat) : effectsOf [.effect t] = [t] := rfl

@[simp] theorem effectsOf_sys (w : Write) : effectsOf [(.sys w : DataWrite n)] = [] := rfl

def Inserts (c : Call) (ws : List (DataWrite n)) : Prop :=
  ∃ startedAt completedAt r,
    DataWrite.sys (.insertOperation (c.recordInput startedAt completedAt r).row) ∈ ws

theorem effects_view (st : Store (Data n) (Txn n) (DataWrite n)) (u : Txn n) :
    (st.view (dataSchema n) u).effects = st.committed.effects ++ effectsOf (st.own u) := by
  unfold Store.view
  generalize st.own u = ws
  generalize st.committed = d
  induction ws generalizing d with
  | nil => simp [effectsOf]
  | cons w ws ih =>
    rw [List.foldl_cons, ih]
    cases w <;> simp [dataSchema, effectsOf]

theorem row_view_of_inserts {st : Store (Data n) (Txn n) (DataWrite n)} {u : Txn n}
    (h : Inserts c (st.own u)) :
    ((st.view (dataSchema n) u).sys.operation? c.workflowID c.stepID).isSome = true := by
  obtain ⟨startedAt, completedAt, r, hw⟩ := h
  refine Store.view_of_mem_own
    (P := fun d : Data n => (d.sys.operation? c.workflowID c.stepID).isSome = true) hw ?_ ?_
  · intro d
    show ((d.sys.operations.insert _).find? (c.workflowID, c.stepID)).isSome = true
    rw [Table.find?_insert]
    simp [RecordOperationResultInput.row, Call.recordInput]
  · intro w d hd
    obtain ⟨r, hr⟩ := Option.isSome_iff_exists.1 hd
    rw [operation?_apply w hr]
    rfl

/-! ### The invariant -/

/-- What is known of the execution `e`, now `x`, whose transaction holds the writes `ws`. -/
structure Exec.Once (c : Call) (d : Data n) (e : Fin n) (x : Exec) (ws : List (DataWrite n)) :
    Prop where
  own : ∀ t ∈ effectsOf ws, t.1 = e
  single : (effectsOf ws).length ≤ 1
  idle : x.phase.working = false → effectsOf ws = []
  inserts : Inserts c ws → d.sys.operation? c.workflowID c.stepID = none ∧
    ∃ startedAt completedAt r, x.phase = .recorded startedAt completedAt r
  recorded : ∀ startedAt completedAt r, x.phase = .recorded startedAt completedAt r →
    Inserts c ws ∨ (d.sys.operation? c.workflowID c.stepID).isSome = true
  fresh : x.phase.inTxn = true → ∀ k, (e, k) ∉ d.effects

/-- The invariant; `D` says that all steps so far met the condition. -/
structure OnceInv (c : Call) (D : Prop) (s : State n) : Prop where
  txns : ∀ p ∈ s.store.pending, ∃ e, p.1 = s.txn e
  execs : ∀ e, (s.execs e).Once c s.store.committed e (s.store.own (s.txn e))
  unique : ∀ e e', Inserts c (s.store.own (s.txn e)) → Inserts c (s.store.own (s.txn e')) → e = e'
  empty : s.row c = none → s.store.committed.effects = []
  strict : D → EffectsOnce s ∧ ∀ e startedAt completedAt r,
    (s.execs e).phase = .recorded startedAt completedAt r → Inserts c (s.store.own (s.txn e))

theorem not_inserts_nil : ¬ Inserts c ([] : List (DataWrite n)) := by
  rintro ⟨_, _, _, h⟩
  cases h

theorem Exec.Once.nil {d : Data n} {x : Exec} (hw : x.phase.working = false)
    (hfresh : x.phase.inTxn = true → ∀ k, (e, k) ∉ d.effects) : x.Once c d e [] := by
  refine ⟨by simp [effectsOf], by simp [effectsOf], fun _ => rfl, fun h => (not_inserts_nil h).elim,
    fun _ _ _ hp => ?_, hfresh⟩
  rw [hp] at hw
  cases hw

theorem txn_ne {i : Fin n} (h : i ≠ e) : s.txn e ≠ s.txn i := by
  simp only [State.txn, ne_eq, Option.some.injEq, Prod.mk.injEq, not_and]
  exact fun he => (h he.symm).elim

variable {D : Prop} {x : Exec}

/-- A step of the execution `e` which commits nothing: it becomes `x`. -/
theorem OnceInv.of_exec (hs : OnceInv c D s) (hexecs : t.execs = Function.update s.execs e x)
    (hcommitted : t.store.committed = s.store.committed)
    (hothers : ∀ i, i ≠ e → t.store.own (s.txn i) = s.store.own (s.txn i))
    (htxns : ∀ p ∈ t.store.pending, p.1 = t.txn e ∨ ∃ i, i ≠ e ∧ p.1 = s.txn i)
    (hx : x.Once c s.store.committed e (t.store.own (t.txn e)))
    (hunique : Inserts c (t.store.own (t.txn e)) →
      ∀ i, i ≠ e → ¬ Inserts c (s.store.own (s.txn i)))
    (hstrict : D → ∀ startedAt completedAt r, x.phase = .recorded startedAt completedAt r →
      Inserts c (t.store.own (t.txn e))) : OnceInv c D t := by
  have hself : t.execs e = x := by rw [hexecs, Function.update_self]
  have hexec : ∀ i, i ≠ e → t.execs i = s.execs i := fun i hi => by
    rw [hexecs, Function.update_of_ne hi]
  have htxn : ∀ i, i ≠ e → t.txn i = s.txn i := fun i hi => by
    unfold State.txn
    rw [hexec i hi]
  have hown : ∀ i, i ≠ e → t.store.own (t.txn i) = s.store.own (s.txn i) := fun i hi => by
    rw [htxn i hi, hothers i hi]
  refine ⟨fun p hp => ?_, fun i => ?_, fun i j hi hj => ?_, ?_, fun hD => ⟨?_, ?_⟩⟩
  · rcases htxns p hp with h | ⟨i, hi, h⟩
    · exact ⟨e, h⟩
    · exact ⟨i, h.trans (htxn i hi).symm⟩
  · rw [hcommitted]
    by_cases hi : i = e
    · subst hi
      rw [hself]
      exact hx
    · rw [hexec i hi, hown i hi]
      exact hs.execs i
  · by_cases hie : i = e
    · subst hie
      by_contra hne
      rw [hown j (Ne.symm hne)] at hj
      exact hunique hi j (Ne.symm hne) hj
    · rw [hown i hie] at hi
      by_cases hje : j = e
      · subst hje
        exact (hunique hj i hie hi).elim
      · rw [hown j hje] at hj
        exact hs.unique i j hi hj
  · simpa only [State.row, State.db, hcommitted] using hs.empty
  · simpa only [EffectsOnce, hcommitted] using (hs.strict hD).1
  · intro i startedAt completedAt r hp
    by_cases hi : i = e
    · subst hi
      exact hstrict hD startedAt completedAt r (hself ▸ hp)
    · rw [hown i hi]
      exact (hs.strict hD).2 i startedAt completedAt r (hexec i hi ▸ hp)

theorem OnceInv.pending_or (hs : OnceInv c D s) (e : Fin n) :
    ∀ p ∈ s.store.pending, p.1 = s.txn e ∨ ∃ i, i ≠ e ∧ p.1 = s.txn i := by
  intro p hp
  obtain ⟨i, hi⟩ := hs.txns p hp
  by_cases hie : i = e
  · exact .inl (hie ▸ hi)
  · exact .inr ⟨i, hie, hi⟩

theorem OnceInv.not_inserts (hs : OnceInv c D s)
    (hrec : ∀ startedAt completedAt r, (s.execs e).phase ≠ .recorded startedAt completedAt r) :
    ¬ Inserts c (s.store.own (s.txn e)) := by
  intro h
  obtain ⟨-, startedAt, completedAt, r, hp⟩ := (hs.execs e).inserts h
  exact hrec startedAt completedAt r hp

theorem OnceInv.goto {p : Phase} {l : Bool} (hs : OnceInv c D s) (hstore : t.store = s.store)
    (hexecs : t.execs = Function.update s.execs e { s.execs e with phase := p, lost := l })
    (hrec : ∀ startedAt completedAt r, (s.execs e).phase ≠ .recorded startedAt completedAt r)
    (hw : p.working = false → (s.execs e).phase.working = false)
    (hp : ∀ startedAt completedAt r, p = .recorded startedAt completedAt r →
      (s.row c).isSome = true ∧ ¬ D)
    (hfresh : p.inTxn = true → (s.execs e).phase.inTxn = true ∨ s.row c = none) :
    OnceInv c D t := by
  have hno := hs.not_inserts hrec
  have hx := hs.execs e
  have htxn : t.txn e = s.txn e := by simp [State.txn, hexecs]
  refine hs.of_exec hexecs (by rw [hstore]) (by simp [hstore]) ?_ ?_ ?_ ?_
  · rw [htxn, hstore]
    exact hs.pending_or e
  · rw [htxn, hstore]
    refine ⟨hx.own, hx.single, fun h => hx.idle (hw h), fun h => (hno h).elim,
      fun _ _ _ h => .inr (hp _ _ _ h).1, fun h => ?_⟩
    rcases hfresh h with h | h
    · exact hx.fresh h
    · simp [hs.empty h]
  · rw [htxn, hstore]
    exact fun h => (hno h).elim
  · exact fun hD _ _ _ h => ((hp _ _ _ h).2 hD).elim

theorem OnceInv.write {p : Phase} {w : DataWrite n} (hs : OnceInv c D s)
    (hx : ({ s.execs e with phase := p } : Exec).Once c s.store.committed e
      (s.store.own (s.txn e) ++ [w]))
    (hunique : Inserts c (s.store.own (s.txn e) ++ [w]) →
      ∀ i, i ≠ e → ¬ Inserts c (s.store.own (s.txn i)))
    (hstrict : ∀ startedAt completedAt r, p = .recorded startedAt completedAt r →
      Inserts c (s.store.own (s.txn e) ++ [w])) :
    OnceInv c D ((s.write e w).goto e p) := by
  have htxn : ((s.write e w).goto e p).txn e = s.txn e := by
    simp [State.txn, State.goto, State.write]
  have hown : ((s.write e w).goto e p).store.own (s.txn e) = s.store.own (s.txn e) ++ [w] :=
    Store.own_write_self _ _ _
  refine hs.of_exec rfl rfl (fun i hi => Store.own_write_of_ne _ _ (txn_ne hi)) ?_ ?_ ?_ ?_
  · intro q hq
    rw [htxn]
    rcases List.mem_append.1 hq with hq | hq
    · exact hs.pending_or e q hq
    · obtain rfl := List.mem_singleton.1 hq
      exact .inl rfl
  · rw [htxn, hown]
    exact hx
  · rw [htxn, hown]
    exact hunique
  · rw [htxn, hown]
    exact fun _ => hstrict

theorem own_next (hs : OnceInv c D s) (e : Fin n) {st : Store (Data n) (Txn n) (DataWrite n)}
    (hst : ∀ p ∈ st.pending, p ∈ s.store.pending) :
    st.own (some (e, (s.execs e).attempt + 1)) = [] := by
  unfold Store.own
  rw [List.map_eq_nil_iff, List.filter_eq_nil_iff]
  intro p hp
  obtain ⟨i, hi⟩ := hs.txns p (hst p hp)
  rw [hi]
  simp only [State.txn, decide_eq_true_eq, Option.some.injEq, Prod.mk.injEq, not_and]
  rintro rfl
  omega

theorem OnceInv.leave {p : Phase} {l : Bool} (hs : OnceInv c D s)
    (hstore : t.store = s.store.rollback (s.txn e))
    (hexecs : t.execs = Function.update s.execs e
      { phase := p, attempt := (s.execs e).attempt + 1, lost := l })
    (hp : p.inTxn = false) (hw : p.working = false) : OnceInv c D t := by
  have hown : t.store.own (t.txn e) = [] := by
    have htxn : t.txn e = some (e, (s.execs e).attempt + 1) := by simp [State.txn, hexecs]
    rw [htxn, hstore]
    exact own_next hs e fun q hq => (List.mem_filter.1 hq).1
  refine hs.of_exec hexecs (by rw [hstore]; rfl) (fun i hi => ?_) ?_ ?_ ?_ ?_
  · rw [hstore, Store.own_rollback_of_ne _ (txn_ne hi)]
  · intro q hq
    rw [hstore] at hq
    obtain ⟨hq, hne⟩ := List.mem_filter.1 hq
    exact .inr ((hs.pending_or e q hq).resolve_left (by simpa using hne))
  · rw [hown]
    exact .nil hw (by simp [hp])
  · rw [hown]
    exact fun h => (not_inserts_nil h).elim
  · intro _ _ _ _ h
    rw [show p = _ from h] at hw
    cases hw

/-- An execution commits: either it inserts the checkpoint, and no effect was committed before, or
the checkpoint was there. -/
theorem OnceInv.commit {startedAt completedAt : Int} {r : Result} (hs : OnceInv c D s)
    (hrec : (s.execs e).phase = .recorded startedAt completedAt r)
    (hcommitted : t.store.committed = s.store.view (dataSchema n) (s.txn e))
    (hpending : ∀ p ∈ t.store.pending, p ∈ s.store.pending ∧ p.1 ≠ s.txn e)
    (hothers : ∀ i, i ≠ e → t.store.own (s.txn i) = s.store.own (s.txn i))
    (hexecs : t.execs = Function.update s.execs e x) (hown : t.store.own (t.txn e) = [])
    (hx : x.phase.inTxn = false) (hw : x.phase.working = false) : OnceInv c D t := by
  have hself : t.execs e = x := by rw [hexecs, Function.update_self]
  have hexec : ∀ i, i ≠ e → t.execs i = s.execs i := fun i hi => by
    rw [hexecs, Function.update_of_ne hi]
  have htxn : ∀ i, i ≠ e → t.txn i = s.txn i := fun i hi => by
    unfold State.txn
    rw [hexec i hi]
  have hownOther : ∀ i, i ≠ e → t.store.own (t.txn i) = s.store.own (s.txn i) := fun i hi => by
    rw [htxn i hi, hothers i hi]
  have heffects : t.store.committed.effects =
      s.store.committed.effects ++ effectsOf (s.store.own (s.txn e)) := by
    rw [hcommitted, effects_view]
  have hstays : (s.row c).isSome = true → (t.row c).isSome = true := by
    intro h
    obtain ⟨stored, hstored⟩ := Option.isSome_iff_exists.1 h
    have : t.row c = some stored := by
      unfold State.row State.db
      rw [hcommitted]
      exact Store.view_induction
        (P := fun d : Data n => d.sys.operation? c.workflowID c.stepID = some stored)
        (fun w _ d hd => operation?_apply w hd) hstored
    simp [this]
  have hrow : (t.row c).isSome = true := by
    rcases (hs.execs e).recorded _ _ _ hrec with h | h
    · have := row_view_of_inserts h
      rw [← hcommitted] at this
      exact this
    · exact hstays h
  -- another transaction cannot hold the checkpoint, by its lock
  have hothersInsert : ∀ i, i ≠ e → ¬ Inserts c (s.store.own (s.txn i)) := by
    intro i hi h
    rcases (hs.execs e).recorded _ _ _ hrec with he | he
    · exact hi (hs.unique i e h he)
    · simp [((hs.execs i).inserts h).1] at he
  refine ⟨fun p hp => ?_, fun i => ?_, fun i j hi hj => ?_, ?_, fun hD => ⟨?_, ?_⟩⟩
  · obtain ⟨hp, hne⟩ := hpending p hp
    obtain ⟨i, hi, h⟩ := (hs.pending_or e p hp).resolve_left hne
    exact ⟨i, h.trans (htxn i hi).symm⟩
  · by_cases hi : i = e
    · subst hi
      rw [hself, hown]
      exact .nil hw (by simp [hx])
    · rw [hexec i hi, hownOther i hi]
      have h := hs.execs i
      refine ⟨h.own, h.single, h.idle, fun hins => (hothersInsert i hi hins).elim,
        fun _ _ _ _ => .inr hrow, fun hin k => ?_⟩
      rw [heffects, List.mem_append, not_or]
      exact ⟨h.fresh hin k, fun hmem => hi ((hs.execs e).own _ hmem)⟩
  · by_cases hie : i = e
    · subst hie
      rw [hown] at hi
      exact (not_inserts_nil hi).elim
    · rw [hownOther i hie] at hi
      exact (hothersInsert i hie hi).elim
  · intro hnone
    simp [hnone] at hrow
  · have hins := (hs.strict hD).2 e _ _ _ hrec
    unfold EffectsOnce
    rw [heffects, hs.empty ((hs.execs e).inserts hins).1]
    exact (hs.execs e).single
  · intro i startedAt' completedAt' r' hp
    by_cases hi : i = e
    · subst hi
      rw [hself] at hp
      rw [hp] at hw
      cases hw
    · rw [hownOther i hi]
      exact (hs.strict hD).2 i _ _ _ (hexec i hi ▸ hp)

/-! ### The steps -/

variable {a : Action n}

theorem inTxn_fault (startedAt : Int) (err : GoError) :
    (c.fault startedAt err).inTxn = false ∧ (c.fault startedAt err).working = false := by
  unfold Call.fault Call.fail
  repeat' split
  all_goals exact ⟨rfl, rfl⟩

theorem working_check (db : Db) (startedAt : Int) : (c.check db startedAt).working = false := by
  unfold Call.check Call.fault Call.fail
  repeat' split
  all_goals rfl

section Transactional

variable (hop : c.operation.transactional = true)
include hop

theorem inTxn_check (startedAt : Int) (h : (c.check s.db startedAt).inTxn = true) :
    s.row c = none := by
  unfold Call.check at h
  split at h
  next hop' => simp [hop', Operation.transactional] at hop
  next hop' => simp [hop', Operation.transactional] at hop
  next =>
    split at h
    next => simp [inTxn_fault] at h
    next hnone => exact Db.operation?_of_checkOperationExecution hnone
    next => split_ifs at h <;> cases h

theorem once_check (hs : OnceInv c D s) (h : step c s (.check e) = some t) : OnceInv c D t := by
  simp only [step] at h
  split at h
  next startedAt hp =>
    have hnot : ∀ a b r, c.check s.db startedAt ≠ .recorded a b r := fun a b r he => by
      have := working_check (c := c) s.db startedAt
      rw [he] at this
      cases this
    split_ifs at h <;> cases h <;>
      exact hs.goto rfl rfl (by simp [hp]) (by simp [hp, Phase.working])
        (fun a b r he => (hnot a b r he).elim) (fun hin => .inr (inTxn_check hop startedAt hin))
  next => cases h

theorem runStep_cases {r : Result} (h : runStep c s e r = some t) :
    ∃ startedAt, (s.execs e).phase = .checked startedAt ∧
      (t = s.goto e (.ran startedAt r) ∨
        t = (s.write e (.effect (e, (s.execs e).attempt))).goto e (.ran startedAt r)) := by
  unfold runStep at h
  split at h
  next hop' _ => simp [hop', Operation.transactional] at hop
  next hp => split_ifs at h <;> cases h; exacts [⟨_, hp, .inl rfl⟩, ⟨_, hp, .inr rfl⟩]
  next hp => split_ifs at h <;> cases h; exacts [⟨_, hp, .inl rfl⟩, ⟨_, hp, .inr rfl⟩]
  next => cases h

theorem once_run {r : Result} (hs : OnceInv c D s) (h : step c s (.run e r) = some t) :
    OnceInv c D t := by
  obtain ⟨startedAt, hp, rfl | rfl⟩ := runStep_cases hop h
  · exact hs.goto rfl rfl (by simp [hp]) (by simp [Phase.working]) (by simp)
      (by simp [hp, Phase.inTxn])
  · have hx := hs.execs e
    have hnil : effectsOf (s.store.own (s.txn e)) = [] := hx.idle (by simp [hp, Phase.working])
    have hno : ¬ Inserts c
        (s.store.own (s.txn e) ++ [.effect (e, (s.execs e).attempt)]) := by
      rintro ⟨a, b, r', hmem⟩
      exact hs.not_inserts (e := e) (by simp [hp]) ⟨a, b, r', by simpa using hmem⟩
    refine hs.write ⟨by simp [hnil], by simp [hnil], by simp [Phase.working],
      fun hi => (hno hi).elim, by simp, fun _ => ?_⟩ (fun hi => (hno hi).elim) (by simp)
    exact hx.fresh (by simp [hp, Phase.inTxn])

theorem insertStep_cases (h : insertStep c s e = some t) :
    ∃ startedAt completedAt r, (s.execs e).phase = .recording startedAt completedAt r ∧
      insertInTxn c s e (c.recordInput startedAt completedAt r).row
        (.conflicted startedAt completedAt r) (.recorded startedAt completedAt r) = some t := by
  unfold insertStep at h
  split at h
  next hop' _ => simp [hop', Operation.transactional] at hop
  next hp => exact ⟨_, _, _, hp, h⟩
  next hp => exact ⟨_, _, _, hp, h⟩
  next hop' _ => simp [hop', Operation.transactional] at hop
  next hop' _ => simp [hop', Operation.transactional] at hop
  next hop' _ => simp [hop', Operation.transactional] at hop
  next => cases h

theorem once_insert (hs : OnceInv c D s) (h : step c s (.insert e) = some t) : OnceInv c D t := by
  obtain ⟨startedAt, completedAt, r, hp, h⟩ := insertStep_cases hop h
  unfold insertInTxn at h
  split_ifs at h with hfree hsome <;> cases h
  · exact hs.goto rfl rfl (by simp [hp]) (by simp [Phase.working]) (by simp)
      (by simp [hp, Phase.inTxn, Phase.working])
  · have hx := hs.execs e
    have hins : Inserts c (s.store.own (s.txn e) ++
        [.sys (.insertOperation (c.recordInput startedAt completedAt r).row)]) :=
      ⟨startedAt, completedAt, r, by simp⟩
    have hnone : s.row c = none := by simpa using hsome
    refine hs.write ⟨by simpa using hx.own, by simpa using hx.single, by simp [Phase.working],
      fun _ => ⟨hnone, _, _, _, rfl⟩, fun _ _ _ _ => .inl hins, fun _ => ?_⟩ (fun _ i hi => ?_)
      (fun _ _ _ _ => hins)
    · exact hx.fresh (by simp [hp, Phase.inTxn, Phase.working])
    · rintro ⟨a, b, r', hmem⟩
      have := Store.Free.not_mem_rows hfree (txn_ne hi).symm hmem
        (List.mem_singleton.2 rfl)
      simp [dataSchema, Write.rows, Call.lock, RecordOperationResultInput.row,
        Call.recordInput] at this

theorem readBackStep_cases (h : readBackStep c s e = some t) :
    ∃ startedAt completedAt r, (s.execs e).phase = .conflicted startedAt completedAt r ∧
      (((c.recordInput startedAt completedAt r).onConflict (s.row c) = .ok () ∧
          t = s.goto e (.recorded startedAt completedAt r)) ∨
        ∃ err, t = s.leave e (c.fault startedAt err)) := by
  unfold readBackStep at h
  split at h
  next hop' _ => simp [hop', Operation.transactional] at hop
  next hp =>
    split at h <;> cases h
    exacts [⟨_, _, _, hp, .inl ⟨‹_›, rfl⟩⟩, ⟨_, _, _, hp, .inr ⟨_, rfl⟩⟩]
  next hp =>
    split at h <;> cases h
    exacts [⟨_, _, _, hp, .inl ⟨‹_›, rfl⟩⟩, ⟨_, _, _, hp, .inr ⟨_, rfl⟩⟩]
  next hop' _ => simp [hop', Operation.transactional] at hop
  next => cases h

/-- A checkpoint of other contents ends the transaction; one of its own contents lets it commit. -/
theorem once_readBack (hs : OnceInv c D s) (hD : D → Distinct c s (.readBack e))
    (h : step c s (.readBack e) = some t) : OnceInv c D t := by
  obtain ⟨startedAt, completedAt, r, hp, ⟨hok, rfl⟩ | ⟨err, rfl⟩⟩ := readBackStep_cases hop h
  · obtain ⟨stored, hstored, hsame⟩ := RecordOperationResultInput.onConflict_eq_ok hok
    refine hs.goto rfl rfl (by simp [hp]) (by simp [Phase.working]) (fun _ _ _ _ => ⟨?_, ?_⟩)
      (by simp [hp, Phase.inTxn, Phase.working])
    · simp [hstored]
    · intro hd
      have := hD hd
      simp [Distinct, hp, hstored, hsame] at this
  · exact hs.leave rfl rfl (inTxn_fault _ _).1 (inTxn_fault _ _).2

theorem commitStep_cases (h : commitStep c s e = some t) :
    ∃ startedAt completedAt r, (s.execs e).phase = .recorded startedAt completedAt r ∧
      (t = (s.commitTxn e).retry e (.started startedAt) ∨
        ∃ o, t = (s.commitTxn e).goto e (.done o)) := by
  unfold commitStep at h
  split at h
  next hop' _ => simp [hop', Operation.transactional] at hop
  next hp => split_ifs at h <;> cases h; exacts [⟨_, _, _, hp, .inl rfl⟩, ⟨_, _, _, hp, .inr ⟨_, rfl⟩⟩]
  next hp => split_ifs at h <;> cases h; exacts [⟨_, _, _, hp, .inl rfl⟩, ⟨_, _, _, hp, .inr ⟨_, rfl⟩⟩]
  next => cases h

omit hop in
theorem once_commit_retry {startedAt completedAt startedAt' : Int} {r : Result}
    (hs : OnceInv c D s) (hp : (s.execs e).phase = .recorded startedAt completedAt r) :
    OnceInv c D ((s.commitTxn e).retry e (.started startedAt')) := by
  refine hs.commit hp rfl (fun q hq => ?_) (fun i hi => ?_) rfl ?_ rfl rfl
  · obtain ⟨hq, hne⟩ := List.mem_filter.1 (List.mem_filter.1 hq).1
    exact ⟨hq, by simpa using hne⟩
  · exact (Store.own_rollback_of_ne _ (txn_ne hi)).trans
      (Store.own_commit_of_ne _ _ (txn_ne hi))
  · have htxn : ((s.commitTxn e).retry e (.started startedAt')).txn e =
        some (e, (s.execs e).attempt + 1) := by simp [State.txn, State.retry, State.commitTxn]
    rw [htxn]
    exact own_next hs e fun q hq => (List.mem_filter.1 (List.mem_filter.1 hq).1).1

theorem once_commit (hs : OnceInv c D s) (h : step c s (.commit e) = some t) : OnceInv c D t := by
  obtain ⟨startedAt, completedAt, r, hp, rfl | ⟨o, rfl⟩⟩ := commitStep_cases hop h
  · exact once_commit_retry hs hp
  · refine hs.commit hp rfl (fun q hq => ?_)
      (fun i hi => Store.own_commit_of_ne _ _ (txn_ne hi)) rfl ?_ rfl rfl
    · obtain ⟨hq, hne⟩ := List.mem_filter.1 hq
      exact ⟨hq, by simpa using hne⟩
    · have htxn : ((s.commitTxn e).goto e (.done o)).txn e = s.txn e := by
        simp [State.txn, State.goto, State.commitTxn]
      rw [htxn]
      exact Store.own_commit_self _ _ _

theorem once_commitUnacknowledged (hs : OnceInv c D s)
    (h : step c s (.commitUnacknowledged e) = some t) : OnceInv c D t := by
  simp only [step, commitUnacknowledgedStep] at h
  split at h <;> cases h
  next hop' _ => simp [hop', Operation.transactional] at hop
  next hp => exact once_commit_retry hs hp
  next hp => exact once_commit_retry hs hp

theorem once_abort (hs : OnceInv c D s) (h : step c s (.abort e) = some t) : OnceInv c D t := by
  simp only [step, abortStep] at h
  split at h <;> cases h
  all_goals first
    | exact hs.leave rfl rfl rfl rfl
    | (next hop' _ => simp [hop', Operation.transactional] at hop)

omit hop in
theorem OnceInv.elsewhere {w : Write} (hs : OnceInv c D s)
    (hw : ∀ db : Db, (w.apply db).operations = db.operations) : OnceInv c D (s.autocommit w) := by
  have hrow : ∀ k : String × Int, (w.apply s.store.committed.sys).operations.find? k =
      s.store.committed.sys.operations.find? k := fun k => by rw [hw]
  refine ⟨hs.txns, fun i => ?_, hs.unique, fun h => hs.empty ?_, hs.strict⟩
  · have h := hs.execs i
    refine ⟨h.own, h.single, h.idle, fun hi => ⟨(hrow _).trans (h.inserts hi).1, (h.inserts hi).2⟩,
      fun a b r hr => (h.recorded a b r hr).imp_right fun hsome => ?_, h.fresh⟩
    exact (congrArg Option.isSome (hrow _)).trans hsome
  · exact (hrow _).symm.trans h

/-- **The step lemma.** -/
theorem once_step {a : Action n} (hs : OnceInv c D s) (hD : D → Distinct c s a)
    (h : step c s a = some t) : OnceInv c D t := by
  cases a with
  | start e now =>
    simp only [step] at h
    split at h <;> cases h
    next hp =>
      exact hs.goto rfl rfl (by simp [hp]) (by simp [hp, Phase.working]) (by simp)
        (by simp [Phase.inTxn, Phase.working])
  | check e => exact once_check hop hs h
  | run e r => exact once_run hop hs h
  | giveUp e err =>
    simp only [step] at h
    split at h <;> cases h
    exact hs.leave rfl rfl (inTxn_fault _ _).1 (inTxn_fault _ _).2
  | prepare e now =>
    simp only [step] at h
    split at h <;> cases h
    next hp =>
      exact hs.goto rfl rfl (by simp [hp]) (by simp [Phase.working]) (by simp)
        (by simp [hp, Phase.inTxn, Phase.working])
  | insert e => exact once_insert hop hs h
  | insertUnacknowledged e =>
    simp only [step, insertUnacknowledgedStep] at h
    split_ifs at h
    split at h
    next hop' _ => simp [hop', Operation.transactional] at hop
    next hop' _ => simp [hop', Operation.transactional] at hop
    next => cases h
  | readBack e => exact once_readBack hop hs hD h
  | insertStatus e =>
    simp only [step, insertStatusStep] at h
    split at h
    next hop' _ => simp [hop', Operation.transactional] at hop
    next => cases h
  | lookup e =>
    simp only [step, lookupStep] at h
    split at h
    next hop' _ => simp [hop', Operation.transactional] at hop
    next => cases h
  | commit e => exact once_commit hop hs h
  | commitUnacknowledged e => exact once_commitUnacknowledged hop hs h
  | abort e => exact once_abort hop hs h
  | complete id now =>
    simp only [step] at h
    split_ifs at h
    cases h
    exact hs.elsewhere fun _ => rfl
  | occupy row =>
    simp only [step] at h
    split_ifs at h
    cases h
    exact hs.elsewhere fun _ => rfl

end Transactional

theorem once_init (hs : Init c s) : OnceInv c D s := by
  obtain ⟨-, hrow, heffects, hpending, hexecs⟩ := hs
  have hown : ∀ u, s.store.own u = [] := fun u => by simp [Store.own, hpending]
  refine ⟨by simp [hpending], fun e => ?_, fun e e' h => ?_, fun _ => heffects, fun _ => ⟨?_, ?_⟩⟩
  · rw [hexecs, hown]
    exact .nil rfl (by simp [Phase.inTxn, Phase.working])
  · rw [hown] at h
    exact (not_inserts_nil h).elim
  · simp [EffectsOnce, heffects]
  · intro e a b r hp
    rw [hexecs] at hp
    cases hp

/-- **Transactional steps take effect once**, and no call that inserted nothing returns nil to an
execution without committed effects, precisely in the runs in which no call of
`RecordOperationResult` finds its own contents in the checkpoint already there. -/
theorem effects_once_iff (hop : c.operation.transactional = true)
    {tr : List (Transition (State n) (Action n))} (hs : Init c s) (h : Run (system c n) s tr t) :
    (EffectsOnce t ∧ NilOnlyForOwn c tr) ↔ ∀ x ∈ tr, Distinct c x.pre x.act := by
  constructor
  · rintro ⟨-, hnil⟩ x hx
    cases hact : x.act
    case readBack e =>
      simp only [Distinct]
      split
      next startedAt completedAt r hp =>
        by_contra hne
        obtain ⟨stored, hstored, hsame⟩ : ∃ stored, x.pre.row c = some stored ∧
            (c.recordInput startedAt completedAt r).sameWrite stored = true :=
          (Option.any_eq_true _ _).1 (by simpa using hne)
        have hrepeats : RepeatsWrite c x.pre e :=
          ⟨startedAt, completedAt, r, hp, by
            simp [hstored, RecordOperationResultInput.onConflict, hsame]⟩
        obtain ⟨k, hk⟩ := hnil x hx e hact hrepeats
        -- the execution found no checkpoint when it began this transaction
        have hinv : OnceInv c False x.pre :=
          (h.transition_of_mem hs hx).1.invariant (I := OnceInv c False) (fun _ h => once_init h)
            (fun _ _ _ hi _ hstep => once_step hop hi False.elim hstep)
        exact (hinv.execs e).fresh (by simp [hp, Phase.inTxn, Phase.working]) k hk
      next => trivial
    all_goals trivial
  · intro hd
    have hinv : OnceInv c True t :=
      Reaches.invariant (S := system c n) (C := Distinct c) (fun _ h => once_init h)
        (fun _ _ _ hi hC hstep => once_step hop hi (fun _ => hC) hstep) ⟨s, tr, hs, h, hd⟩
    refine ⟨(hinv.strict trivial).1, fun x hx e hact hrep => ?_⟩
    obtain ⟨startedAt, completedAt, r, hp, hok⟩ := hrep
    obtain ⟨stored, hstored, hsame⟩ := RecordOperationResultInput.onConflict_eq_ok hok
    have := hd x hx
    simp [hact, Distinct, hp, hstored, hsame] at this

/-! ### Two executions within one millisecond -/

instance (c : Call) (s : State n) (a : Action n) : Decidable (Distinct c s a) := by
  unfold Distinct
  split
  · split <;> infer_instance
  · infer_instance

/-- A `Send` at the first step of `W`; its encoded output is always the same. -/
def sendStep : Call where
  workflowID := "W"
  stepID := 1
  stepName := "DBOS.send"
  operation := .runAsTxn
  serializeError := GoError.errorText
  deserializeError := .new

/-- Two executions of `W`, about to send. -/
def twoSenders : State 2 where
  store :=
    { committed :=
        { sys :=
            { status := ⟨[{ workflowID := "W", status := .pending }], by decide⟩
              waiters := .empty
              notifications := .empty
              events := .empty
              eventsHistory := .empty
              operations := .empty }
          effects := [] }
      pending := [] }
  execs := fun _ => {}

theorem init_twoSenders : Init sendStep twoSenders :=
  ⟨⟨.pending, rfl, by simp⟩, rfl, rfl, rfl, fun _ => rfl⟩

/-- Both executions send in the same millisecond `first` and are recorded at `second`; one waits for
the lock of the other. -/
def sendBoth (first second second' : Int) : List (Action 2) :=
  [.start 0 first, .start 1 first, .check 0, .check 1, .run 0 {}, .run 1 {}, .prepare 0 second,
    .prepare 1 second', .insert 0, .commit 0, .insert 1, .readBack 1]

/-- **A message sent twice**: the second execution takes the checkpoint of the first for its own. -/
theorem effects_twice : ∃ t, Reaches (system sendStep 2) (fun _ _ => True) t ∧ ¬ EffectsOnce t := by
  obtain ⟨t, ht, hp⟩ := exists_reaches (S := system sendStep 2) (fun _ _ => True)
    (List.flatten [sendBoth 0 1 1, [.commit 1]]) (fun t => decide (1 < t.store.committed.effects.length))
    init_twoSenders (fun _ _ => trivial) (by decide +kernel)
  exact ⟨t, ht, by simpa [EffectsOnce] using hp⟩

/-- One millisecond apart, the second execution is refused. -/
theorem effects_once_apart : ∃ s t tr, (sendStep.operation.transactional = true ∧
    Init sendStep s ∧ Run (system sendStep 2) s tr t ∧
    ∀ x ∈ tr, Distinct sendStep x.pre x.act) ∧ EffectsOnce t ∧ NilOnlyForOwn sendStep tr := by
  have hd : ∀ x ∈ trace (system sendStep 2) twoSenders (sendBoth 0 1 2),
      Distinct sendStep x.pre x.act := by decide
  obtain ⟨t, ht⟩ : ∃ t, exec (system sendStep 2) twoSenders (sendBoth 0 1 2) = some t :=
    Option.isSome_iff_exists.1 (by decide +kernel)
  exact ⟨_, t, _, ⟨rfl, init_twoSenders, run_exec ht, hd⟩,
    (effects_once_iff rfl init_twoSenders (run_exec ht)).2 hd⟩

end Dbos.Checkpoint
