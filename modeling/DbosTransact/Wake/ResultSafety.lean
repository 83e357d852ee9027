import DbosTransact.Wake.Result
import Mathlib.Data.Fin.VecNotation

/-!
# When the wake-up of a result is lost

A waiter whose suspension is committed is saved (woken, or selected by an open wake-up), or its waiter row is
there and a wake-up which has not started its `UPDATE` will find it. Only a `DELETE` can break this, by
taking the row of a waiter that its transaction's `UPDATE` did not see.
-/

namespace Dbos.ResultWake

open Relational ReadCommitted Lts

variable {n : Nat}

/-! ### The invariant -/

/-- The wake-up has not started its `UPDATE`. -/
def WakePc.ahead : WakePc → Bool
  | .idle | .reading | .begun => true
  | .updating _ _ | .updated _ _ | .deleting _ _ _ | .deleted _ _ _ | .done => false

/-- The uncommitted writes of the suspension of the waiter `i`. -/
def SuspensionOk (c : Config n) (db : Db) (i : Fin n) (own : List Write) : WaiterPc → Prop
  | .suspending => ∃ now, own = [.suspend (c.waiterID i) (c.delayUntil i) now]
  | .registered => ∃ now,
      own = [.suspend (c.waiterID i) (c.delayUntil i) now] ∧ db.hasWaiter (c.row i) = true ∨
      own = [.suspend (c.waiterID i) (c.delayUntil i) now, .insertWaiter (c.row i)]
  | _ => own = []

/-- The delays of the waiters that a wake-up selects lie in the future. -/
def Future (c : Config n) (ids : List String) (now : Int) : Prop :=
  ∀ i, c.waiterID i ∈ ids → now < c.delayUntil i

def WakeOk (c : Config n) (own : List Write) : WakePc → Prop
  | .updating ids now => own = [] ∧ Future c ids now
  | .updated ids now | .deleting ids now _ => own = [.wake ids now] ∧ Future c ids now
  | .deleted ids now rows => own = [.wake ids now, .deleteWaiters rows] ∧ Future c ids now
  | _ => own = []

/-- A wake-up that has not started its `UPDATE` will look for the waiter `i`. -/
def Expected (c : Config n) (s : State n) (i : Fin n) : Prop :=
  (s.wakes none).ahead = true ∨
    s.waiters i = .suspended ∧ c.terminal s.store.committed = true ∨
    s.waiters i = .rechecked ∧ (s.wakes (some i)).ahead = true

def Selected (c : Config n) (s : State n) (i : Fin n) : Prop :=
  ∃ p, ∃ ids ∈ (s.wakes p).selected?, c.waiterID i ∈ ids

/-- An open wake-up has deleted the row of the waiter `i`. -/
def Deleted (c : Config n) (s : State n) (i : Fin n) : Prop :=
  ∃ p ids now rows, s.wakes p = .deleted ids now rows ∧ c.row i ∈ rows

structure WaiterOk (c : Config n) (s : State n) (i : Fin n) : Prop where
  suspension : SuspensionOk c s.store.committed i (s.store.own (.suspension i)) (s.waiters i)
  notYet : s.waiters i ≠ .rechecked → s.wakes (some i) = .idle
  awake : (s.waiters i).asleep = false →
    s.store.committed.statusOf (c.waiterID i) = some .pending ∧ ¬ Selected c s i
  deleted : Deleted c s i → Dispensable c s i
  delayed : (s.waiters i).asleep = true → s.store.committed.statusOf (c.waiterID i) = some .delayed
  covered : (s.waiters i).asleep = true →
    Saved c s i ∨ s.store.committed.hasWaiter (c.row i) = true ∧ Expected c s i

structure Inv (c : Config n) (s : State n) : Prop where
  wakeOk : ∀ p, WakeOk c (s.store.own (.wake p)) (s.wakes p)
  terminal : s.wakes none ≠ .idle → c.terminal s.store.committed = true
  running : s.wakes none = .idle → s.store.committed.statusOf c.awaitedID = some .pending
  waiters : ∀ i, WaiterOk c s i

theorem inv_init {c : Config n} {s : State n} (h : Init c s) : Inv c s := by
  obtain ⟨hawaited, hpend, hopen, hwait, hwake⟩ := h
  have hown : ∀ t, s.store.own t = [] := fun t => by simp [Store.own, hopen]
  refine ⟨fun p => ?_, by simp [hwake], fun _ => hawaited, fun i => ⟨?_, fun _ => hwake _, ?_, ?_, ?_, ?_⟩⟩
  · simp [hwake, WakeOk, hown]
  · simp [hwait, SuspensionOk, hown]
  · exact fun _ => ⟨hpend i, by simp [Selected, hwake, WakePc.selected?]⟩
  · rintro ⟨p, ids, now, rows, h, -⟩
    simp [hwake] at h
  · simp [hwait, WaiterPc.asleep]
  · simp [hwait, WaiterPc.asleep]

/-! ### What carries over from one state to another -/

section Mono

variable {c : Config n} {s t : State n} {i : Fin n}

theorem SuspensionOk.mono {db db' : Db} {own : List Write} {pc : WaiterPc}
    (h : SuspensionOk c db i own pc)
    (hrow : pc = .registered → db.hasWaiter (c.row i) = true → db'.hasWaiter (c.row i) = true) :
    SuspensionOk c db' i own pc := by
  cases pc with
  | registered =>
    obtain ⟨now, ⟨hown, hhas⟩ | hown⟩ := h
    · exact ⟨now, Or.inl ⟨hown, hrow rfl hhas⟩⟩
    · exact ⟨now, Or.inr hown⟩
  | _ => exact h

theorem Saved.mono (h : Saved c s i)
    (hdelay : t.store.committed.delayOf (c.waiterID i) = s.store.committed.delayOf (c.waiterID i))
    (hsel : ∀ p ids, (s.wakes p).selected? = some ids → (t.wakes p).selected? = some ids) :
    Saved c t i := by
  rcases h with h | ⟨p, ids, hids, hid⟩
  · exact Or.inl (by rwa [hdelay])
  · exact Or.inr ⟨p, ids, hsel p ids hids, hid⟩

theorem Dispensable.mono (h : Dispensable c s i) (hw : t.waiters i = s.waiters i)
    (hsaved : (s.waiters i).asleep = true → Saved c s i → Saved c t i) : Dispensable c t i := by
  rcases h with h | ⟨has, h⟩
  · exact Or.inl (by rwa [hw])
  · exact Or.inr ⟨by rwa [hw], hsaved has h⟩

theorem Dispensable.saved (h : Dispensable c s i) (has : (s.waiters i).asleep = true) : Saved c s i := by
  rcases h with h | ⟨-, h⟩
  · revert h has
    cases s.waiters i <;> simp [WaiterPc.asleep, WaiterPc.unregistered]
  · exact h

/-- A waiter that does not move itself. Its row goes only if it can do without it, and a wake-up that was
still to come is still to come, or has saved it. -/
theorem WaiterOk.frame (h : WaiterOk c s i) (hw : t.waiters i = s.waiters i)
    (hown : t.store.own (.suspension i) = s.store.own (.suspension i))
    (hstatus : t.store.committed.statusOf (c.waiterID i) = s.store.committed.statusOf (c.waiterID i))
    (hidle : s.wakes (some i) = .idle → t.wakes (some i) = .idle)
    (hsel : (s.waiters i).asleep = false → Selected c t i → Selected c s i)
    (hdel : Deleted c t i → Deleted c s i ∨ Dispensable c s i)
    (hrow : s.store.committed.hasWaiter (c.row i) = true →
      t.store.committed.hasWaiter (c.row i) = true ∨ Dispensable c s i)
    (hsaved : (s.waiters i).asleep = true → Saved c s i → Saved c t i)
    (hexp : (s.waiters i).asleep = true → s.store.committed.hasWaiter (c.row i) = true →
      Expected c s i → Saved c t i ∨ Expected c t i) : WaiterOk c t i := by
  constructor
  case suspension =>
    rw [hw, hown]
    refine h.suspension.mono fun hreg hhas => (hrow hhas).resolve_right ?_
    rintro (h | ⟨h, -⟩)
    · rw [hreg] at h; cases h
    · rw [hreg] at h; cases h
  case notYet =>
    rw [hw]
    exact fun hre => hidle (h.notYet hre)
  case awake =>
    rw [hw, hstatus]
    exact fun has => ⟨(h.awake has).1, fun ht => (h.awake has).2 (hsel has ht)⟩
  case deleted => exact fun hd => ((hdel hd).elim h.deleted id).mono hw hsaved
  case delayed =>
    rw [hw, hstatus]
    exact h.delayed
  case covered =>
    rw [hw]
    intro has
    rcases h.covered has with hs | ⟨hhas, he⟩
    · exact .inl (hsaved has hs)
    · rcases hrow hhas with hhas' | hdisp
      · exact (hexp has hhas he).imp_right fun he => ⟨hhas', he⟩
      · exact .inl (hsaved has (hdisp.saved has))

/-- No wake-up moves. -/
theorem WaiterOk.still (h : WaiterOk c s i) (hwakes : t.wakes = s.wakes)
    (hw : t.waiters i = s.waiters i)
    (hown : t.store.own (.suspension i) = s.store.own (.suspension i))
    (hstatus : t.store.committed.statusOf (c.waiterID i) = s.store.committed.statusOf (c.waiterID i))
    (hdelay : t.store.committed.delayOf (c.waiterID i) = s.store.committed.delayOf (c.waiterID i))
    (hterm : c.terminal t.store.committed = c.terminal s.store.committed)
    (hrow : s.store.committed.hasWaiter (c.row i) = true → t.store.committed.hasWaiter (c.row i) = true) :
    WaiterOk c t i := by
  refine h.frame hw hown hstatus ?_ ?_ ?_ (fun hhas => .inl (hrow hhas)) ?_ ?_
  · exact hwakes ▸ id
  · exact fun _ => by simp only [Selected, hwakes, imp_self]
  · exact fun hd => .inl (by simpa only [Deleted, hwakes] using hd)
  · exact fun _ => by simp only [Saved, hwakes, hdelay, imp_self]
  · exact fun _ _ he => .inr (by simpa only [Expected, hw, hwakes, hterm] using he)

/-- Only the wake-up `p` moves. -/
theorem WaiterOk.wake_step {p : Waker n} {pc : WakePc} (h : WaiterOk c s i)
    (hwakes : ∀ q, t.wakes q = if q = p then pc else s.wakes q) (hw : t.waiters i = s.waiters i)
    (hown : t.store.own (.suspension i) = s.store.own (.suspension i))
    (hstatus : t.store.committed.statusOf (c.waiterID i) = s.store.committed.statusOf (c.waiterID i))
    (hterm : c.terminal s.store.committed = true → c.terminal t.store.committed = true)
    (hidle : s.wakes p = .idle → p ≠ some i)
    (hun : (s.waiters i).asleep = false → ∀ ids ∈ pc.selected?, c.waiterID i ∉ ids)
    (hdel : ∀ ids now rows, pc = .deleted ids now rows → c.row i ∈ rows → Dispensable c s i)
    (hrow : s.store.committed.hasWaiter (c.row i) = true →
      t.store.committed.hasWaiter (c.row i) = true ∨ Dispensable c s i)
    (hsaved : (s.waiters i).asleep = true → Saved c s i → Saved c t i)
    (hahead : (s.waiters i).asleep = true → s.store.committed.hasWaiter (c.row i) = true →
      p = none ∨ p = some i → (s.wakes p).ahead = true →
      pc.ahead = true ∨ ∃ ids ∈ pc.selected?, c.waiterID i ∈ ids) : WaiterOk c t i := by
  refine h.frame hw hown hstatus ?_ ?_ ?_ hrow hsaved ?_
  · intro hi
    rw [hwakes, if_neg]
    · exact hi
    · rintro rfl
      exact hidle hi rfl
  · rintro has ⟨q, ids, hids, hid⟩
    rw [hwakes] at hids
    split_ifs at hids
    · exact absurd hid (hun has ids hids)
    · exact ⟨q, ids, hids, hid⟩
  · rintro ⟨q, ids, now, rows, hq, hmem⟩
    rw [hwakes] at hq
    split_ifs at hq
    · exact .inr (hdel ids now rows hq hmem)
    · exact .inl ⟨q, ids, now, rows, hq, hmem⟩
  · intro has hhas hexp
    by_cases hsel : ∃ ids ∈ pc.selected?, c.waiterID i ∈ ids
    · obtain ⟨ids, hids, hid⟩ := hsel
      refine .inl (.inr ⟨p, ids, ?_, hid⟩)
      rwa [hwakes, if_pos rfl]
    · have hstill : ∀ q, q = none ∨ q = some i → (s.wakes q).ahead = true → (t.wakes q).ahead = true := by
        intro q hq hahead'
        rw [hwakes]
        split_ifs with hqp
        · subst hqp
          exact (hahead has hhas hq hahead').resolve_right hsel
        · exact hahead'
      right
      rcases hexp with h | ⟨h, ht⟩ | ⟨h, h'⟩
      · exact .inl (hstill none (.inl rfl) h)
      · exact .inr (.inl ⟨hw.trans h, hterm ht⟩)
      · exact .inr (.inr ⟨hw.trans h, hstill (some i) (.inr rfl) h'⟩)

end Mono

/-! ### A step of a wake-up inside its transaction -/

section WakeStep

variable {c : Config n} {s : State n} {p : Waker n} {pc : WakePc} {store : Store Db (Txn n) Write}

theorem wakes_setWake (s : State n) (p q : Waker n) (pc : WakePc) :
    (s.setWake p pc).wakes q = if q = p then pc else s.wakes q := by
  simp only [State.setWake, Function.update_apply]

theorem Saved.setWake {i : Fin n} (h : Saved c s i)
    (hc : store.committed = s.store.committed)
    (hkeep : ∀ ids ∈ (s.wakes p).selected?, c.waiterID i ∈ ids →
      ∃ ids' ∈ pc.selected?, c.waiterID i ∈ ids') :
    Saved c ({ s with store := store }.setWake p pc) i := by
  rcases h with h | ⟨q, ids, hsel, hid⟩
  · exact Or.inl (by simpa [State.setWake, hc] using h)
  · right
    refine ⟨q, ?_⟩
    rw [wakes_setWake]
    split_ifs with hq
    · subst hq; exact hkeep ids hsel hid
    · exact ⟨ids, hsel, hid⟩

/-- The invariant after a step of the wake-up `p`. Only its commit changes the database: it keeps
every status, keeps the saved waiters saved, and deletes no row but dispensable ones. -/
theorem Inv.wake_step (hi : Inv c s) (hstarted : s.wakes p ≠ .idle) (hpc : pc ≠ .idle)
    (hstatus : ∀ id, store.committed.statusOf id = s.store.committed.statusOf id)
    (hrow : ∀ i, s.store.committed.hasWaiter (c.row i) = true →
      store.committed.hasWaiter (c.row i) = true ∨ Dispensable c s i)
    (hown : ∀ t, t ≠ .wake p → store.own t = s.store.own t)
    (hok : WakeOk c (store.own (.wake p)) pc)
    (hun : ∀ i, (s.waiters i).asleep = false → ∀ ids ∈ pc.selected?, c.waiterID i ∉ ids)
    (hsaved : ∀ i, (s.waiters i).asleep = true → Saved c s i →
      Saved c ({ s with store := store }.setWake p pc) i)
    (hdel : ∀ ids now rows, pc = .deleted ids now rows → ∀ i, c.row i ∈ rows → Dispensable c s i)
    (hahead : ∀ i, (s.waiters i).asleep = true →
      s.store.committed.hasWaiter (c.row i) = true → (s.wakes p).ahead = true →
      pc.ahead = true ∨ ∃ ids ∈ pc.selected?, c.waiterID i ∈ ids) :
    Inv c ({ s with store := store }.setWake p pc) := by
  have hwakes := fun q => wakes_setWake { s with store := store } p q pc
  have hterm : c.terminal store.committed = c.terminal s.store.committed := by
    simp only [Config.terminal, hstatus]
  refine ⟨?_, ?_, ?_, fun i => ?_⟩
  · intro q
    rw [hwakes]
    split_ifs with hq
    · subst hq; exact hok
    · show WakeOk c (store.own (.wake q)) (s.wakes q)
      rw [hown (.wake q) (by simpa using hq)]
      exact hi.wakeOk q
  · intro h
    refine hterm.trans (hi.terminal fun hidle => ?_)
    rw [hwakes] at h
    split_ifs at h with hp
    · subst hp; exact hstarted hidle
    · exact h hidle
  · intro h
    rw [hwakes] at h
    split_ifs at h
    · exact absurd h hpc
    · exact (hstatus _).trans (hi.running h)
  · exact (hi.waiters i).wake_step hwakes rfl (hown _ (by simp)) (hstatus _) hterm.trans
      (fun h => absurd h hstarted) (hun i) (fun ids now rows h => hdel ids now rows h i) (hrow i) (hsaved i)
      fun has hhas _ => hahead i has hhas

variable {t : State n}

theorem view_of_own_nil {τ : Txn n} (h : s.store.own τ = []) :
    s.store.view schema τ = s.store.committed := by
  simp [Store.view, h]

theorem inv_read (hi : Inv c s) (h : step c s (.read p) = some t) : Inv c t := by
  simp only [step] at h
  split_ifs at h with hpc hnil
  all_goals
    cases h
    have hok := hi.wakeOk p
    rw [hpc] at hok
    refine hi.wake_step (by simp [hpc]) (by simp) (fun _ => rfl) (fun _ => .inl) (fun _ _ => rfl) hok
      (by simp [WakePc.selected?]) (fun i _ h => h.setWake rfl ?_) (by simp) ?_
    · simp [hpc, WakePc.selected?]
    intro i _ hrow _
  · -- the read finds a row which is there
    have hmem : c.row i ∈ s.store.committed.waitersOf c.awaitedID :=
      Db.mem_waitersOf.2 ⟨hrow, rfl⟩
    rw [hnil] at hmem
    cases hmem
  · exact Or.inl rfl

theorem inv_update {now : Int} (hi : Inv c s) (h : step c s (.update p now) = some t) :
    Inv c t := by
  simp only [step] at h
  split_ifs at h with hpc hfut
  cases h
  have hok := hi.wakeOk p
  rw [hpc] at hok
  have hview := view_of_own_nil (τ := .wake p) hok
  refine hi.wake_step (by simp [hpc]) (by simp) (fun _ => rfl) (fun _ => .inl) (fun _ _ => rfl) ⟨hok, hfut⟩
    ?_ (fun i _ h => h.setWake rfl ?_) (by simp) ?_
  · intro i has ids hids hid
    cases hids
    rw [hview] at hid
    have := (Db.mem_delayedWaiters.1 hid).1
    rw [((hi.waiters i).awake has).1] at this
    cases this
  · simp [hpc, WakePc.selected?]
  · intro i has hrow _
    refine Or.inr ⟨_, rfl, ?_⟩
    rw [hview]
    exact Db.mem_delayedWaiters.2 ⟨(hi.waiters i).delayed has, hrow⟩

theorem inv_updateDone (hi : Inv c s) (h : step c s (.updateDone p) = some t) : Inv c t := by
  simp only [step] at h
  split at h
  · rename_i ids now hpc
    split_ifs at h
    cases h
    have hok := hi.wakeOk p
    rw [hpc] at hok
    have hview := view_of_own_nil (τ := .wake p) hok.1
    rw [hview]
    have hsub : ∀ id, id ∈ s.store.committed.stillDelayed ids → id ∈ ids :=
      fun id hid => (Db.mem_stillDelayed.1 hid).1
    refine hi.wake_step (by simp [hpc]) (by simp) (fun _ => rfl) (fun _ => .inl)
      (fun t ht => Store.own_write_of_ne _ _ ht.symm) ⟨?_, ?_⟩ ?_ (fun i has h => h.setWake rfl ?_) (by simp) ?_
    · rw [Store.own_write_self, hok.1]
      rfl
    · exact fun i hid => hok.2 i (hsub _ hid)
    · intro i has ids' hids' hid
      cases hids'
      exact ((hi.waiters i).awake has).2 ⟨p, ids, by rw [hpc]; rfl, hsub _ hid⟩
    · intro ids' hids' hid
      rw [hpc] at hids'
      cases hids'
      exact ⟨_, rfl, Db.mem_stillDelayed.2 ⟨hid, (hi.waiters i).delayed has⟩⟩
    · intro i _ _ hahead
      rw [hpc] at hahead
      cases hahead
  · cases h

theorem inv_delete (hi : Inv c s) (h : step c s (.delete p) = some t) : Inv c t := by
  simp only [step] at h
  split at h
  · rename_i ids now hpc
    cases h
    have hok := hi.wakeOk p
    rw [hpc] at hok
    refine hi.wake_step (by simp [hpc]) (by simp) (fun _ => rfl) (fun _ => .inl) (fun _ _ => rfl) hok ?_
      (fun i _ h => h.setWake rfl ?_) (by simp) ?_
    · intro i has ids' hids' hid
      exact ((hi.waiters i).awake has).2 ⟨p, ids', by rw [hpc]; exact hids', hid⟩
    · intro ids' hids' hid
      rw [hpc] at hids'
      exact ⟨ids', hids', hid⟩
    · intro i _ _ hahead
      rw [hpc] at hahead
      cases hahead
  · cases h

theorem inv_deleteDone (hi : Inv c s) (hC : DeleteCovered c s (.deleteDone p))
    (h : step c s (.deleteDone p) = some t) : Inv c t := by
  simp only [step] at h
  split at h
  · rename_i ids now rows hpc
    split_ifs at h
    cases h
    have hok := hi.wakeOk p
    rw [hpc] at hok
    refine hi.wake_step (by simp [hpc]) (by simp) (fun _ => rfl) (fun _ => .inl)
      (fun t ht => Store.own_write_of_ne _ _ ht.symm) ⟨?_, hok.2⟩ ?_ (fun i _ h => h.setWake rfl ?_) ?_ ?_
    · rw [Store.own_write_self, hok.1]
      rfl
    · intro i has ids' hids' hid
      exact ((hi.waiters i).awake has).2 ⟨p, ids', by rw [hpc]; exact hids', hid⟩
    · intro ids' hids' hid
      rw [hpc] at hids'
      exact ⟨ids', hids', hid⟩
    · rintro ids' now' rows' hpc' i hrow
      cases hpc'
      simp only [DeleteCovered, hpc] at hC
      exact hC i hrow
    · intro i _ _ hahead
      rw [hpc] at hahead
      cases hahead
  · cases h

end WakeStep

/-! ### The commit of a wake-up -/

section Commit

variable {c : Config n} {s t : State n} {p : Waker n} {ids : List String} {now : Int}
  {rows : List WaiterRow}

theorem view_deleted (hi : Inv c s) (hpc : s.wakes p = .deleted ids now rows) :
    s.store.view schema (.wake p) =
      Write.apply (.deleteWaiters rows) (Write.apply (.wake ids now) s.store.committed) := by
  have hok := hi.wakeOk p
  rw [hpc] at hok
  simp only [Store.view, hok.1]
  rfl

theorem statusOf_view_deleted (hi : Inv c s) (hpc : s.wakes p = .deleted ids now rows)
    (id : String) :
    (s.store.view schema (.wake p)).statusOf id = s.store.committed.statusOf id := by
  rw [view_deleted hi hpc]
  exact Write.statusOf_wake _ _ _ _

theorem delayOf_view_deleted (hi : Inv c s) (hpc : s.wakes p = .deleted ids now rows)
    (id : String) :
    (s.store.view schema (.wake p)).delayOf id =
      if id ∈ ids ∧ (s.store.committed.statusOf id).isSome then some now
      else s.store.committed.delayOf id := by
  rw [view_deleted hi hpc]
  exact Write.delayOf_wake _ _ _ _

theorem hasWaiter_view_deleted (hi : Inv c s) (hpc : s.wakes p = .deleted ids now rows)
    {w : WaiterRow} (h : s.store.committed.hasWaiter w = true) (hw : w ∉ rows) :
    (s.store.view schema (.wake p)).hasWaiter w = true := by
  rw [view_deleted hi hpc, Write.hasWaiter_deleteWaiters]
  simpa [hw] using show (Write.apply (.wake ids now) s.store.committed).hasWaiter w = true from h

/-- The commit of a wake-up wakes the waiters it selected; the others stay saved. -/
theorem Saved.commit (hi : Inv c s) (hpc : s.wakes p = .deleted ids now rows) {i : Fin n}
    (has : (s.waiters i).asleep = true) (h : Saved c s i) :
    Saved c ({ s with store := s.store.commit schema (.wake p) }.setWake p .done) i := by
  have hdelay := delayOf_view_deleted hi hpc (c.waiterID i)
  by_cases hmem : c.waiterID i ∈ ids
  · left
    show (s.store.view schema (.wake p)).delayOf (c.waiterID i) ≠ _
    rw [hdelay, if_pos ⟨hmem, by simp [(hi.waiters i).delayed has]⟩]
    intro heq
    have hok := hi.wakeOk p
    rw [hpc] at hok
    have hlt := hok.2 i hmem
    have := Option.some.inj heq
    omega
  · rw [if_neg fun h => hmem h.1] at hdelay
    rcases h with h | ⟨q, ids', hsel, hid⟩
    · left
      show (s.store.view schema (.wake p)).delayOf (c.waiterID i) ≠ _
      rwa [hdelay]
    · right
      have hq : q ≠ p := by
        rintro rfl
        rw [hpc] at hsel
        cases hsel
        exact hmem hid
      refine ⟨q, ids', ?_, hid⟩
      rw [wakes_setWake, if_neg hq]
      exact hsel

theorem inv_commit (hi : Inv c s) (h : step c s (.commit p) = some t) : Inv c t := by
  simp only [step] at h
  split at h
  · rename_i ids now rows hpc
    cases h
    refine hi.wake_step (by simp [hpc]) (by simp) (statusOf_view_deleted hi hpc) ?_
      (fun t ht => Store.own_commit_of_ne _ _ ht.symm) (Store.own_commit_self _ _ _)
      (by simp [WakePc.selected?]) (fun i has => Saved.commit hi hpc has) (by simp)
      (by simp [hpc, WakePc.ahead])
    intro i hhas
    by_cases hmem : c.row i ∈ rows
    · exact Or.inr ((hi.waiters i).deleted ⟨p, ids, now, rows, hpc, hmem⟩)
    · exact Or.inl (hasWaiter_view_deleted hi hpc hhas hmem)
  · cases h

end Commit

/-! ### The completion -/

theorem inv_complete {c : Config n} {s t : State n} {status : Status} {output error : Option String}
    {now : Int} (hi : Inv c s) (h : step c s (.complete status output error now) = some t) :
    Inv c t := by
  simp only [step] at h
  split_ifs at h with hg hpend
  · cases h
    obtain ⟨hidle, hstatus, -⟩ := hg
    have hst := Write.statusOf_outcome s.store.committed c.awaitedID status output error now
    have hstw : ∀ i, (Write.apply (.outcome c.awaitedID status output error now)
        s.store.committed).statusOf (c.waiterID i) =
        s.store.committed.statusOf (c.waiterID i) := fun i => by
      rw [hst, if_neg (c.waiterID_ne i)]
    have hdelay := Write.delayOf_outcome s.store.committed c.awaitedID status output error now
    have hwakes := fun q => wakes_setWake
      { s with store := s.store.autocommit schema (.outcome c.awaitedID status output error now) }
      none q .reading
    have hsaved : ∀ i, Saved c s i → Saved c (State.setWake
        { s with store := s.store.autocommit schema (.outcome c.awaitedID status output error now) }
        none .reading) i := by
      refine fun i h => h.mono (hdelay _) fun q ids hsel => ?_
      rw [hwakes, if_neg]
      · exact hsel
      · rintro rfl
        rw [hidle] at hsel
        cases hsel
    have hterm : c.terminal (Write.apply (.outcome c.awaitedID status output error now)
        s.store.committed) = true := by
      rw [Config.terminal, hst, if_pos rfl, hpend]
      rcases hstatus with rfl | rfl <;> rfl
    refine ⟨?_, fun _ => hterm, ?_, fun i => ?_⟩
    · intro q
      rw [hwakes]
      have hok := hi.wakeOk q
      split_ifs with hq
      · rw [hq, hidle] at hok; rw [hq]; exact hok
      · exact hok
    · intro h
      rw [hwakes, if_pos rfl] at h
      cases h
    · exact (hi.waiters i).wake_step hwakes rfl rfl (hstw i) (fun _ => hterm) (fun _ h => by cases h)
        (fun _ _ h => by cases h) (fun _ _ _ h => by cases h) Or.inl (fun _ => hsaved i) fun _ _ _ _ => .inl rfl
  · exact absurd (hi.running hg.1) hpend

/-! ### A step of a waiter -/

section WaiterStep

variable {c : Config n} {s t : State n} {i : Fin n}

theorem waiters_setWaiter (s : State n) (i j : Fin n) (pc : WaiterPc) :
    (s.setWaiter i pc).waiters j = if j = i then pc else s.waiters j := by
  simp only [State.setWaiter, Function.update_apply]

/-- A waiter that is not asleep moves on, and stays awake. -/
theorem Inv.waiter_step (hi : Inv c s) {pc : WaiterPc} {store : Store Db (Txn n) Write}
    (has : (s.waiters i).asleep = false) (hpc : pc.asleep = false)
    (hc : store.committed = s.store.committed)
    (hown : ∀ t, t ≠ .suspension i → store.own t = s.store.own t)
    (hok : SuspensionOk c s.store.committed i (store.own (.suspension i)) pc)
    (hreg : pc.unregistered = true ∨ ¬ Deleted c s i) :
    Inv c ({ s with store := store }.setWaiter i pc) := by
  have hwaiters := fun j => waiters_setWaiter { s with store := store } i j pc
  refine ⟨fun q => ?_, ?_, ?_, fun j => ?_⟩
  · show WakeOk c (store.own (.wake q)) (s.wakes q)
    rw [hown (.wake q) (by simp)]
    exact hi.wakeOk q
  · show _ → c.terminal store.committed = true
    rw [hc]
    exact hi.terminal
  · show _ → store.committed.statusOf c.awaitedID = some .pending
    rw [hc]
    exact hi.running
  · by_cases hji : j = i
    · subst hji
      have hself := (hwaiters j).trans (if_pos rfl)
      have hold := hi.waiters j
      have hasleep : (({ s with store := store } : State n).setWaiter j pc |>.waiters j).asleep = false := by
        rw [hself, hpc]
      refine ⟨?_, fun _ => hold.notYet ?_, fun _ => ?_, fun hd => .inl ?_, ?_, ?_⟩
      · rw [hself]
        show SuspensionOk c store.committed j (store.own (.suspension j)) pc
        rwa [hc]
      · intro hre
        rw [hre] at has
        cases has
      · show store.committed.statusOf _ = _ ∧ _
        rw [hc]
        exact hold.awake has
      · rw [hself]
        exact hreg.resolve_right fun h => h hd
      · simp [hasleep]
      · simp [hasleep]
    · exact (hi.waiters j).still rfl ((hwaiters j).trans (if_neg hji)) (hown _ (by simpa using hji))
        (by simp [State.setWaiter, hc]) (by simp [State.setWaiter, hc]) (congrArg c.terminal hc)
        fun h => by rwa [← hc] at h

theorem inv_suspend {now : Int} (hi : Inv c s) (h : step c s (.suspend i now) = some t) :
    Inv c t := by
  simp only [step] at h
  have hok := (hi.waiters i).suspension
  split_ifs at h with hpc hsus hfree
  · cases h
    rw [hpc] at hok
    exact hi.waiter_step (by rw [hpc]; rfl) rfl rfl (fun _ _ => rfl) hok (Or.inl rfl)
  · cases h
    rw [hpc] at hok
    refine hi.waiter_step (by rw [hpc]; rfl) rfl rfl
      (fun t ht => Store.own_write_of_ne _ _ ht.symm) ⟨now, ?_⟩ (Or.inl rfl)
    rw [Store.own_write_self, show s.store.own (.suspension i) = [] from hok]
    rfl

theorem inv_register (hi : Inv c s) (h : step c s (.register i) = some t) : Inv c t := by
  simp only [step] at h
  have hok := (hi.waiters i).suspension
  split_ifs at h with hg hhas
  all_goals
    cases h
    obtain ⟨hpc, hfree⟩ := hg
    rw [hpc] at hok
    obtain ⟨now, hown⟩ := hok
    -- a row that an open wake-up has deleted is locked
    have hdel : ¬ Deleted c s i := by
      rintro ⟨p, ids, now, rows, hp, hmem⟩
      have hokp := hi.wakeOk p
      rw [hp] at hokp
      refine hfree.not_mem_rows (u := .wake p) (w := .deleteWaiters rows) (by simp) ?_
        List.mem_cons_self (List.mem_map_of_mem hmem)
      rw [hokp.1]
      simp
  · exact hi.waiter_step (by rw [hpc]; rfl) rfl rfl (fun _ _ => rfl) ⟨now, Or.inl ⟨hown, hhas⟩⟩
      (Or.inr hdel)
  · refine hi.waiter_step (by rw [hpc]; rfl) rfl rfl
      (fun t ht => Store.own_write_of_ne _ _ ht.symm) ⟨now, Or.inr ?_⟩ (Or.inr hdel)
    rw [Store.own_write_self, hown]
    rfl

theorem view_registered (hi : Inv c s) (hpc : s.waiters i = .registered) :
    (∀ id, (s.store.view schema (.suspension i)).statusOf id =
      if id = c.waiterID i then some .delayed else s.store.committed.statusOf id) ∧
    (∀ id, id ≠ c.waiterID i →
      (s.store.view schema (.suspension i)).delayOf id = s.store.committed.delayOf id) ∧
    (∀ w, s.store.committed.hasWaiter w = true ∨ w = c.row i →
      (s.store.view schema (.suspension i)).hasWaiter w = true) := by
  have hok := (hi.waiters i).suspension
  rw [hpc] at hok
  have hpend := ((hi.waiters i).awake (by rw [hpc]; rfl)).1
  obtain ⟨now, ⟨hown, hhas⟩ | hown⟩ := hok
  · simp only [Store.view, hown]
    refine ⟨fun id => ?_, fun id hid => ?_, fun w hw => ?_⟩
    · refine (Write.statusOf_suspend _ _ _ _ _).trans ?_
      rw [hpend]
      rfl
    · exact (Write.delayOf_suspend _ _ _ _ _).trans (if_neg hid)
    · rcases hw with hw | rfl
      · exact hw
      · exact hhas
  · simp only [Store.view, hown]
    refine ⟨fun id => ?_, fun id hid => ?_, fun w hw => ?_⟩
    · refine (Write.statusOf_suspend _ _ _ _ _).trans ?_
      rw [hpend]
      rfl
    · exact (Write.delayOf_suspend _ _ _ _ _).trans (if_neg hid)
    · refine (Write.hasWaiter_insertWaiter _ _ _).trans ?_
      rcases hw with hw | rfl
      · have hw' : (schema.apply (.suspend (c.waiterID i) (c.delayUntil i) now)
            s.store.committed).hasWaiter w = true := hw
        rw [hw']
        rfl
      · simp

theorem inv_commitSuspension (hi : Inv c s) (h : step c s (.commitSuspension i) = some t) :
    Inv c t := by
  simp only [step] at h
  split_ifs at h with hpc
  cases h
  obtain ⟨hst, hdelay, hhas⟩ := view_registered hi hpc
  have hwaiters := fun j => waiters_setWaiter
    { s with store := s.store.commit schema (.suspension i) } i j .suspended
  have hterm : c.terminal (s.store.view schema (.suspension i)) = c.terminal s.store.committed := by
    rw [Config.terminal, hst, if_neg (c.waiterID_ne i).symm]
    rfl
  refine ⟨fun q => ?_, fun h => hterm.trans (hi.terminal h), fun h => ?_, fun j => ?_⟩
  · show WakeOk c ((s.store.commit schema (.suspension i)).own (.wake q)) (s.wakes q)
    rw [Store.own_commit_of_ne _ _ (by simp)]
    exact hi.wakeOk q
  · show (s.store.view schema (.suspension i)).statusOf c.awaitedID = some .pending
    rw [hst, if_neg (c.waiterID_ne i).symm]
    exact hi.running h
  · by_cases hji : j = i
    · subst hji
      have hself := (hwaiters j).trans (if_pos rfl)
      have hold := hi.waiters j
      refine ⟨?_, fun _ => hold.notYet (by simp [hpc]), ?_, fun hd => ?_, fun _ => ?_,
        fun _ => .inr ⟨hhas _ (.inr rfl), ?_⟩⟩
      · rw [hself]
        exact Store.own_commit_self _ _ _
      · rw [hself]
        exact fun h => by cases h
      · -- the row of a registered waiter is not among the deleted ones
        have hdisp := hold.deleted hd
        simp [Dispensable, hpc, WaiterPc.unregistered, WaiterPc.asleep] at hdisp
      · exact (hst _).trans (if_pos rfl)
      · cases hw : s.wakes none with
        | idle => exact Or.inl (by show (s.wakes none).ahead = true; rw [hw]; rfl)
        | _ => exact Or.inr (Or.inl ⟨hself, hterm.trans (hi.terminal (by simp [hw]))⟩)
    · have hne : c.waiterID j ≠ c.waiterID i := fun h => hji (c.waiterID_injective h)
      exact (hi.waiters j).still rfl ((hwaiters j).trans (if_neg hji))
        (Store.own_commit_of_ne _ _ (by simpa using Ne.symm hji)) ((hst _).trans (if_neg hne)) (hdelay _ hne)
        hterm fun h => hhas _ (.inl h)

/-- The invariant after the recheck of the waiter `i`, which starts a wake-up if it reads a terminal
status and otherwise leaves the waiter to the completion. -/
theorem Inv.recheck_step (hi : Inv c s) (hpc : s.waiters i = .suspended) {pc : WakePc}
    (hwake : pc = .reading ∨ pc = .done ∧ c.terminal s.store.committed = false) :
    Inv c ((s.setWaiter i .rechecked).setWake (some i) pc) := by
  have hidle := (hi.waiters i).notYet (by simp [hpc])
  have hsel : pc.selected? = none := by rcases hwake with rfl | ⟨rfl, -⟩ <;> rfl
  have hwakes : ∀ q, ((s.setWaiter i .rechecked).setWake (some i) pc).wakes q =
      if q = some i then pc else s.wakes q :=
    fun q => wakes_setWake (s.setWaiter i .rechecked) (some i) q pc
  have hwaiters : ∀ j, ((s.setWaiter i .rechecked).setWake (some i) pc).waiters j =
      if j = i then .rechecked else s.waiters j := fun j => waiters_setWaiter s i j .rechecked
  have hnone : ((s.setWaiter i .rechecked).setWake (some i) pc).wakes none = s.wakes none := by
    rw [hwakes, if_neg (by simp)]
  have hsaved : ∀ j, Saved c s j → Saved c ((s.setWaiter i .rechecked).setWake (some i) pc) j := by
    refine fun j h => h.mono rfl fun q ids hq => ?_
    rw [hwakes, if_neg]
    · exact hq
    · rintro rfl
      rw [hidle] at hq
      cases hq
  refine ⟨fun q => ?_, ?_, ?_, fun j => ?_⟩
  · rw [hwakes]
    have hok := hi.wakeOk q
    split_ifs with hq
    · rw [hq, hidle] at hok
      rw [hq]
      rcases hwake with rfl | ⟨rfl, -⟩ <;> exact hok
    · exact hok
  · rw [hnone]
    exact hi.terminal
  · rw [hnone]
    exact hi.running
  · by_cases hji : j = i
    · subst hji
      have hself := (hwaiters j).trans (if_pos rfl)
      have hold := hi.waiters j
      have has : (s.waiters j).asleep = true := by rw [hpc]; rfl
      refine ⟨?_, fun h => absurd hself h, ?_, ?_, fun _ => hold.delayed has, fun _ => ?_⟩
      · rw [hself]
        have hok := hold.suspension
        rwa [hpc] at hok
      · rw [hself]
        exact fun h => by cases h
      · rintro ⟨q, ids, now, rows, hq, hmem⟩
        rw [hwakes] at hq
        split_ifs at hq
        · rw [hq] at hsel; cases hsel
        · have hd := hold.deleted ⟨q, ids, now, rows, hq, hmem⟩
          exact .inr ⟨by rw [hself]; rfl, hsaved j (hd.saved has)⟩
      · refine (hold.covered has).imp (hsaved j) (And.imp_right fun _ => ?_)
        rcases hwake with rfl | ⟨-, hterm⟩
        · exact .inr (.inr ⟨hself, by rw [hwakes, if_pos rfl]; rfl⟩)
        · -- not terminal: the completion is still to come
          left
          rw [hnone]
          by_cases hn : s.wakes none = .idle
          · rw [hn]; rfl
          · rw [hi.terminal hn] at hterm; cases hterm
    · refine (hi.waiters j).wake_step hwakes ((hwaiters j).trans (if_neg hji)) rfl rfl id (fun _ h => ?_) ?_ ?_
        .inl (fun _ => hsaved j) fun _ _ hp => ?_
      · exact hji (Option.some.inj h).symm
      · simp [hsel]
      · rintro ids now rows rfl
        cases hsel
      · simp [Ne.symm hji] at hp

theorem inv_recheck (hi : Inv c s) (h : step c s (.recheck i) = some t) : Inv c t := by
  simp only [step] at h
  split_ifs at h with hpc hterm
  · cases h
    exact hi.recheck_step hpc (Or.inl rfl)
  · cases h
    exact hi.recheck_step hpc (Or.inr ⟨rfl, by simpa using hterm⟩)

end WaiterStep

/-! ### Results -/

theorem inv_step {c : Config n} {s t : State n} {a : Action n} (hi : Inv c s)
    (hC : DeleteCovered c s a) (h : step c s a = some t) : Inv c t := by
  cases a with
  | complete status output error now => exact inv_complete hi h
  | suspend i now => exact inv_suspend hi h
  | register i => exact inv_register hi h
  | commitSuspension i => exact inv_commitSuspension hi h
  | recheck i => exact inv_recheck hi h
  | read p => exact inv_read hi h
  | update p now => exact inv_update hi h
  | updateDone p => exact inv_updateDone hi h
  | delete p => exact inv_delete hi h
  | deleteDone p => exact inv_deleteDone hi hC h
  | commit p => exact inv_commit hi h

/-- **No wake-up is lost** in any interleaving in which every `DELETE` takes away only rows whose
waiters have not registered them yet, or are woken or selected by an open wake-up. -/
theorem no_lost_result (c : Config n) (s : State n) (h : Reaches (system c) (DeleteCovered c) s)
    (hfin : Finished s) (i : Fin n) : ¬Lost c s i := by
  have hi : Inv c s := h.invariant (fun _ => inv_init) fun _ _ _ hi hC hst => inv_step hi hC hst
  rintro ⟨hdelayed, hdelay, -⟩
  obtain ⟨hnone, hfin⟩ := hfin
  have hnosel : ∀ p ids, (s.wakes p).selected? ≠ some ids := by
    intro p ids
    cases p with
    | none => rw [hnone]; simp [WakePc.selected?]
    | some j =>
      rcases hfin j with hj | ⟨-, hj⟩
      · rw [(hi.waiters j).notYet (by simp [hj])]; simp [WakePc.selected?]
      · rw [hj]; simp [WakePc.selected?]
  rcases hfin i with hi' | ⟨hw, hdone⟩
  · rw [((hi.waiters i).awake (by rw [hi']; rfl)).1] at hdelayed
    cases hdelayed
  · rcases (hi.waiters i).covered (by rw [hw]; rfl) with (h | ⟨p, ids, hsel, -⟩) | ⟨-, h | ⟨h, -⟩ | ⟨-, h⟩⟩
    · exact h hdelay
    · exact hnosel p ids hsel
    · rw [hnone] at h; cases h
    · rw [hw] at h; cases h
    · rw [hdone] at h; cases h

/-! ### The race between the two statements of a wake-up -/

def raceDb : Db where
  status := ⟨[{ workflowID := "awaited", status := .pending },
    { workflowID := "first", status := .pending },
    { workflowID := "second", status := .pending }], by decide⟩
  waiters := .empty
  notifications := .empty
  events := .empty
  eventsHistory := .empty
  operations := .empty

def race : Config 2 where
  awaitedID := "awaited"
  waiterID := ![ "first", "second"]
  delayUntil := fun _ => 3600000
  waiterID_injective := by decide
  waiterID_ne := by decide

def raceInit : State 2 where
  store := ⟨raceDb, []⟩
  waiters := fun _ => .running
  wakes := fun _ => .idle

def suspension (i : Fin n) (now : Int) : List (Action n) :=
  [.suspend i now, .register i, .commitSuspension i]

/-- The completion, and its wake-up up to the `UPDATE`. -/
def completion : List (Action n) :=
  [.complete .success none none 2, .read none, .update none 3, .updateDone none]

def deletion : List (Action n) := [.delete none, .deleteDone none, .commit none]

/-- **A wake-up is lost**: the second waiter registers between the `UPDATE` and the `DELETE` of the
completion's wake-up, which deletes its row without waking it; its own recheck then finds the
awaited workflow terminal, but no waiter row. -/
theorem lost_result : ∃ s, Reaches (system race) (fun _ _ => True) s ∧ Finished s ∧ Lost race s 1 := by
  have hinit : (system race).init raceInit :=
    ⟨by decide, by decide, rfl, fun _ => rfl, fun _ => rfl⟩
  obtain ⟨s, hs, hlost⟩ := exists_reaches (S := system race) (fun _ _ => True)
    (List.flatten [suspension 0 1, [.recheck 0], completion, suspension 1 4, deletion,
      [.recheck 1, .read (some 1)]])
    (fun s => decide (Finished s ∧ Lost race s 1)) hinit (fun _ _ => trivial) (by decide +kernel)
  exact ⟨s, hs, of_decide_eq_true hlost⟩

/-- If the second waiter suspends after that transaction has committed, it wakes itself. -/
theorem no_lost_result_after_deletion :
    ∃ s, (Reaches (system race) (DeleteCovered race) s ∧ Finished s ∧
      race.terminal s.store.committed = true ∧
      s.store.committed.statusOf "second" = some .delayed) ∧ ¬Lost race s 1 := by
  have hinit : (system race).init raceInit :=
    ⟨by decide, by decide, rfl, fun _ => rfl, fun _ => rfl⟩
  obtain ⟨s, hs, hp⟩ := exists_reaches (S := system race) (DeleteCovered race)
    (List.flatten [suspension 0 1, [.recheck 0], completion, deletion, suspension 1 4,
      [.recheck 1, .read (some 1), .update (some 1) 5, .updateDone (some 1), .delete (some 1),
        .deleteDone (some 1), .commit (some 1)]])
    (fun s => decide (Finished s ∧ race.terminal s.store.committed = true ∧
      s.store.committed.statusOf "second" = some .delayed)) hinit (by decide +kernel) (by decide +kernel)
  obtain ⟨hfin, hrest⟩ := of_decide_eq_true hp
  exact ⟨s, ⟨hs, hfin, hrest⟩, no_lost_result race s hs hfin 1⟩

end Dbos.ResultWake
