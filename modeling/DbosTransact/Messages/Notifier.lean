import DbosTransact.Lib.Transition
import Mathlib.Data.Finset.Card
import Mathlib.Data.Finset.Union
import Mathlib.Data.List.AList

/-!
# The notification registry

A waiter subscribes, looks at the database, and then looks again each time it is woken, until there is
something to return. The channel of a waiter is its number, and holds one token at most. `commits` counts the
writes, so that `checked` says which of them a waiter has seen. A waiter may also be woken by the clock, give
up at its deadline or when its context is cancelled, fail in a look at the database, and release its channel
at any time.
-/

namespace Dbos.Notifier

open Lts

/-- `notifyRegistry`: the channels subscribed to each payload, those that hold a token, and the payloads to
be pushed, where this process pushes any. -/
structure Registry where
  subs : AList fun _ : String => Finset ℕ := ∅
  buffered : Finset ℕ := ∅
  pending : Option (Finset String) := none

def newNotifyRegistry (push : Bool) : Registry := { pending := if push then some ∅ else none }

namespace Registry

variable (r : Registry)

def channels (payload : String) : Finset ℕ := (r.subs.lookup payload).getD ∅

/-- `addLocked`, and `subscribe` with the channel it makes. -/
def addLocked (payload : String) (ch : ℕ) : Registry :=
  { r with subs := r.subs.insert payload (insert ch (r.channels payload)) }

def subscribeExclusive (payload : String) (ch : ℕ) : Option Registry :=
  if 0 < (r.channels payload).card then none else some (r.addLocked payload ch)

def unsubscribe (payload : String) (ch : ℕ) : Registry :=
  let set := (r.channels payload).erase ch
  { r with subs := if set.card = 0 then r.subs.erase payload else r.subs.insert payload set }

/-- `notify`: a channel that holds a token stays as it is. -/
def notify (payload : String) : Registry := { r with buffered := r.buffered ∪ r.channels payload }

def signal (payload : String) : Registry :=
  { r.notify payload with pending := r.pending.map (insert payload) }

def notifyAll : Registry := { r with buffered := r.buffered ∪ r.subs.keys.toFinset.biUnion r.channels }

def pushes : Bool := r.pending.isSome

def drainPending : Finset String × Registry :=
  (r.pending.getD ∅, { r with pending := r.pending.map fun _ => ∅ })

def payloads : List String := r.subs.keys

theorem channels_addLocked (p q : String) (ch : ℕ) :
    (r.addLocked p ch).channels q = if q = p then insert ch (r.channels q) else r.channels q := by
  by_cases h : q = p
  · subst h
    simp [addLocked, channels]
  · simp [addLocked, channels, h]

theorem channels_unsubscribe (p q : String) (ch : ℕ) :
    (r.unsubscribe p ch).channels q = if q = p then (r.channels q).erase ch else r.channels q := by
  by_cases empty : ((r.channels p).erase ch).card = 0
  · simp only [unsubscribe, if_pos empty]
    split
    · rename_i h
      rw [h, Finset.card_eq_zero.1 empty]
      simp [channels]
    · simp [channels, *]
  · simp only [unsubscribe, if_neg empty]
    split
    · rename_i h
      subst h
      simp [channels]
    · simp [channels, *]

theorem mem_buffered_notifyAll {p : String} {ch : ℕ} (h : ch ∈ r.channels p) :
    ch ∈ r.notifyAll.buffered := by
  refine Finset.mem_union_right _ (Finset.mem_biUnion.2 ⟨p, ?_, h⟩)
  rw [List.mem_toFinset, ← AList.mem_keys, ← AList.lookup_isSome]
  unfold channels at h
  cases hp : r.subs.lookup p with
  | none => simp [hp] at h
  | some set => rfl

end Registry

/-! ### Waiters -/

inductive Phase
  /-- subscribed, before its first look at the database -/
  | probing
  /-- in the `select` of `notificationWait` -/
  | blocked
  /-- before a recheck -/
  | woken
  | returned
  | released
  deriving DecidableEq

structure Waiter where
  payload : String
  phase : Phase := .probing
  /-- the commits before its last look at the database -/
  checked : ℕ := 0

structure State where
  registry : Registry := {}
  waiters : List Waiter := []
  /-- the payloads whose row is there -/
  rows : Finset String := ∅
  commits : ℕ := 0

inductive Action
  | subscribe (payload : String)
  | subscribeExclusive (payload : String)
  /-- a waiter looks at the database, or fails to -/
  | check (ch : ℕ) (fails : Bool)
  | receive (ch : ℕ)
  /-- the fallback ticker -/
  | fallback (ch : ℕ)
  /-- the deadline, or the end of the context -/
  | giveUp (ch : ℕ)
  | release (ch : ℕ)
  | commit (payload : String)
  | consume (payload : String)
  | notify (payload : String)
  | signal (payload : String)
  | notifyAll
  | flush

namespace State

variable (s : State)

def join (payload : String) (r : Registry) : State :=
  { s with registry := r, waiters := s.waiters ++ [{ payload := payload }] }

/-- A waiter moves, if it is in one of the phases. -/
def move (ch : ℕ) (phases : List Phase) (f : Waiter → Waiter) : Option State :=
  if (s.waiters[ch]?).any fun w => w.phase ∈ phases then
    some { s with waiters := s.waiters.modify ch f }
  else none

end State

def step (s : State) : Action → Option State
  | .subscribe payload => some (s.join payload (s.registry.addLocked payload s.waiters.length))
  | .subscribeExclusive payload =>
    match s.registry.subscribeExclusive payload s.waiters.length with
    -- `NewWorkflowConflictIDError`
    | none => some s
    | some r => some (s.join payload r)
  | .check ch fails =>
    s.move ch [.probing, .woken] fun w =>
      if fails then { w with phase := .returned }
      else { w with phase := if w.payload ∈ s.rows then .returned else .blocked, checked := s.commits }
  | .receive ch =>
    if ch ∈ s.registry.buffered then
      State.move { s with registry.buffered := s.registry.buffered.erase ch } ch [.blocked]
        fun w => { w with phase := .woken }
    else none
  | .fallback ch =>
    if s.registry.pushes then s.move ch [.blocked] fun w => { w with phase := .woken } else none
  | .giveUp ch => s.move ch [.blocked] fun w => { w with phase := .returned }
  | .release ch =>
    (s.waiters[ch]?).bind fun w =>
      State.move { s with registry := s.registry.unsubscribe w.payload ch } ch
        [.probing, .blocked, .woken, .returned] fun w => { w with phase := .released }
  | .commit payload => some { s with rows := insert payload s.rows, commits := s.commits + 1 }
  | .consume payload => some { s with rows := s.rows.erase payload }
  | .notify payload => some { s with registry := s.registry.notify payload }
  | .signal payload => some { s with registry := s.registry.signal payload }
  | .notifyAll => some { s with registry := s.registry.notifyAll }
  | .flush => if s.registry.pushes then some { s with registry := s.registry.drainPending.2 } else none

def system : System State Action where
  init s := (∃ push, s.registry = newNotifyRegistry push) ∧ s.waiters = []
  step := step

/-! ### The property -/

/-- The waiter has subscribed to the payload, and has not released its channel. -/
def State.Holds (s : State) (ch : ℕ) (payload : String) : Prop :=
  ∃ w, s.waiters[ch]? = some w ∧ w.payload = payload ∧ w.phase ≠ .released

/-- The waiter, if it is blocked, has a token, or has looked at the database since the `c`th commit. -/
def State.Awake (s : State) (c ch : ℕ) : Prop :=
  ∀ w, s.waiters[ch]? = some w → w.phase = .blocked → ch ∈ s.registry.buffered ∨ c ≤ w.checked

def Action.Notifies (payload : String) : Action → Prop
  | .notify p | .signal p => p = payload
  | .notifyAll => True
  | _ => False

/-- What happens to the payloads to be pushed. -/
def Action.push : Action → Finset String → Finset String
  | .signal p => insert p
  | .flush => fun _ => ∅
  | _ => id

/-! ### What a step does -/

section Steps

variable {s t : State} {a : Action} {ch : ℕ}

theorem State.move_eq_some {phases : List Phase} {f : Waiter → Waiter} (h : s.move ch phases f = some t) :
    ∃ w, s.waiters[ch]? = some w ∧ w.phase ∈ phases ∧ t = { s with waiters := s.waiters.modify ch f } := by
  unfold State.move at h
  split at h
  · rename_i hw
    obtain ⟨w, hw, hphase⟩ := (Option.any_eq_true _ _).1 hw
    cases h
    exact ⟨w, hw, of_decide_eq_true hphase, rfl⟩
  · cases h

/-- What a step does to the waiters and their channels. -/
inductive Effect (s : State) (a : Action) : State → Prop
  | join (p : String) (alone : a = .subscribe p ∨ s.registry.channels p = ∅) (quiet : a.push = id) :
      Effect s a (s.join p (s.registry.addLocked p s.waiters.length))
  /-- only the waiter that moves may lose its token, and it blocks only after a look at the database -/
  | move {ch : ℕ} {w : Waiter} {f : Waiter → Waiter} {b : Finset ℕ} (hw : s.waiters[ch]? = some w)
      (held : w.phase ≠ .released) (token : ∀ c ≠ ch, c ∈ s.registry.buffered → c ∈ b)
      (payload : (f w).payload = w.payload) (holds : (f w).phase ≠ .released)
      (checked : (f w).phase = .blocked → (f w).checked = s.commits) (quiet : a.push = id) :
      Effect s a { s with registry.buffered := b, waiters := s.waiters.modify ch f }
  | release {ch : ℕ} {w : Waiter} (hw : s.waiters[ch]? = some w) (quiet : a.push = id) :
      Effect s a
        { s with
          registry := s.registry.unsubscribe w.payload ch
          waiters := s.waiters.modify ch fun w => { w with phase := .released } }
  | other {b : Finset ℕ} {pending : Option (Finset String)} {rows : Finset String} {commits : ℕ}
      (token : s.registry.buffered ⊆ b) (later : s.commits ≤ commits)
      (pushed : pending = s.registry.pending.map a.push) :
      Effect s a
        { s with
          registry := { s.registry with buffered := b, pending := pending }
          rows := rows
          commits := commits }

theorem Effect.of_move {b : Finset ℕ} {phases : List Phase} {f : Waiter → Waiter}
    (h : State.move { s with registry.buffered := b } ch phases f = some t)
    (hphases : .released ∉ phases) (token : ∀ c ≠ ch, c ∈ s.registry.buffered → c ∈ b)
    (hf : ∀ w, (f w).payload = w.payload ∧ (f w).phase ≠ .released ∧
      ((f w).phase = .blocked → (f w).checked = s.commits)) (quiet : a.push = id) : Effect s a t := by
  obtain ⟨w, hw, hphase, rfl⟩ := State.move_eq_some h
  exact .move hw (fun released => hphases (released ▸ hphase)) token (hf w).1 (hf w).2.1 (hf w).2.2
    quiet

theorem effect_of_step (h : step s a = some t) : Effect s a t := by
  have idle : s.registry.pending = s.registry.pending.map id := Option.map_id_apply.symm
  cases a with
  | subscribe p =>
    cases h
    exact .join p (.inl rfl) rfl
  | subscribeExclusive p =>
    simp only [step, Registry.subscribeExclusive] at h
    by_cases taken : 0 < (s.registry.channels p).card
    · rw [if_pos taken] at h
      cases h
      exact .other (Finset.Subset.refl _) le_rfl idle
    · rw [if_neg taken] at h
      cases h
      exact .join p (.inr (Finset.card_eq_zero.1 (Nat.eq_zero_of_not_pos taken))) rfl
  | check ch fails =>
    refine .of_move (b := s.registry.buffered) h (by decide) (fun _ _ => id) (fun w => ?_) rfl
    cases fails with
    | true => exact ⟨rfl, by simp, by simp⟩
    | false =>
      refine ⟨rfl, ?_, fun _ => rfl⟩
      simp only [Bool.false_eq_true, ↓reduceIte]
      split <;> decide
  | receive ch =>
    simp only [step] at h
    split at h
    · exact .of_move h (by decide) (fun c hc htoken => Finset.mem_erase.2 ⟨hc, htoken⟩)
        (fun _ => ⟨rfl, by simp, by simp⟩) rfl
    · cases h
  | fallback ch =>
    simp only [step] at h
    split at h
    · exact .of_move (b := s.registry.buffered) h (by decide) (fun _ _ => id)
        (fun _ => ⟨rfl, by simp, by simp⟩) rfl
    · cases h
  | giveUp ch =>
    exact .of_move (b := s.registry.buffered) h (by decide) (fun _ _ => id)
      (fun _ => ⟨rfl, by simp, by simp⟩) rfl
  | release ch =>
    obtain ⟨w, hw, hmove⟩ := Option.bind_eq_some_iff.1 h
    obtain ⟨-, -, -, rfl⟩ := State.move_eq_some hmove
    exact .release hw rfl
  | commit p =>
    cases h
    exact .other (Finset.Subset.refl _) (Nat.le_succ _) idle
  | consume p =>
    cases h
    exact .other (Finset.Subset.refl _) le_rfl idle
  | notify p | notifyAll =>
    cases h
    exact .other Finset.subset_union_left le_rfl idle
  | signal p =>
    cases h
    exact .other Finset.subset_union_left le_rfl rfl
  | flush =>
    simp only [step] at h
    split at h
    · cases h
      exact .other (Finset.Subset.refl _) le_rfl rfl
    · cases h

theorem pending_of_step (h : step s a = some t) :
    t.registry.pending = s.registry.pending.map a.push := by
  cases effect_of_step h with
  | join _ _ quiet | move _ _ _ _ _ _ quiet | release _ quiet =>
    rw [quiet, Option.map_id]
    rfl
  | other _ _ pushed => exact pushed

theorem modify_cases {ws : List Waiter} {w w' : Waiter} {f : Waiter → Waiter} {c : ℕ}
    (hw : ws[ch]? = some w) (h : (ws.modify ch f)[c]? = some w') :
    c = ch ∧ w' = f w ∨ c ≠ ch ∧ ws[c]? = some w' := by
  rw [List.getElem?_modify] at h
  by_cases heq : ch = c
  · subst heq
    simp only [hw, ↓reduceIte, Option.map_eq_map, Option.map_some, Option.some.injEq] at h
    exact .inl ⟨rfl, h.symm⟩
  · simp only [if_neg heq, Option.map_eq_map, Option.map_id_fun', id] at h
    exact .inr ⟨Ne.symm heq, h⟩

/-- **The step**, for a waiter that has been notified of the `c`th commit. -/
theorem awake_step {c : ℕ} (hc : c ≤ s.commits) (hch : ch < s.waiters.length) (h : s.Awake c ch)
    (hstep : step s a = some t) : c ≤ t.commits ∧ ch < t.waiters.length ∧ t.Awake c ch := by
  cases effect_of_step hstep with
  | join p =>
    refine ⟨hc, by simp only [State.join, List.length_append]; omega, fun w hw => h w ?_⟩
    rwa [State.join, List.getElem?_append_left hch] at hw
  | move hw _ token _ _ checked =>
    refine ⟨hc, by simpa using hch, fun w' hw' hblocked => ?_⟩
    rcases modify_cases hw hw' with ⟨rfl, rfl⟩ | ⟨hne, hw'⟩
    · exact .inr (hc.trans (checked hblocked).ge)
    · exact (h w' hw' hblocked).imp_left (token ch hne)
  | release hw =>
    refine ⟨hc, by simpa using hch, fun w' hw' hblocked => ?_⟩
    rcases modify_cases hw hw' with ⟨rfl, rfl⟩ | ⟨hne, hw'⟩
    · cases hblocked
    · exact h w' hw' hblocked
  | other token later =>
    exact ⟨hc.trans later, hch, fun w hw hblocked => (h w hw hblocked).imp_left fun htoken => token htoken⟩

/-! ### What the registry knows -/

/-- The channels of the registry are those of the waiters that have not released theirs. -/
def Inv (s : State) : Prop := ∀ p ch, ch ∈ s.registry.channels p ↔ s.Holds ch p

theorem holds_modify {f : Waiter → Waiter} {w : Waiter} (hw : s.waiters[ch]? = some w) (r : Registry)
    (c : ℕ) (p : String) :
    State.Holds { s with registry := r, waiters := s.waiters.modify ch f } c p ↔
      if c = ch then (f w).payload = p ∧ (f w).phase ≠ .released else s.Holds c p := by
  simp only [State.Holds, List.getElem?_modify]
  by_cases hc : c = ch
  · subst hc
    simp [hw]
  · simp [hc, Ne.symm hc]

theorem holds_join (r : Registry) (q p : String) (c : ℕ) :
    (s.join q r).Holds c p ↔ p = q ∧ c = s.waiters.length ∨ s.Holds c p := by
  simp only [State.Holds, State.join]
  rcases Nat.lt_trichotomy c s.waiters.length with hlt | rfl | hgt
  · simp [List.getElem?_append_left hlt, hlt.ne]
  · simp [eq_comm]
  · have beyond : (s.waiters ++ [{ payload := q }])[c]? = none := by
      rw [List.getElem?_eq_none_iff, List.length_append]
      exact hgt
    simp [beyond, List.getElem?_eq_none hgt.le, hgt.ne']

theorem inv_step (h : Inv s) (hstep : step s a = some t) : Inv t := by
  intro p c
  have held := h p c
  cases effect_of_step hstep with
  | join q =>
    rw [holds_join, ← held, State.join, Registry.channels_addLocked]
    split <;> simp [*]
  | move hw phase _ payload holds =>
    rw [holds_modify hw]
    refine held.trans ?_
    split
    · rename_i hc
      subst hc
      simp [State.Holds, hw, payload, holds, phase]
    · rfl
  | @release ch w hw =>
    rw [holds_modify hw, Registry.channels_unsubscribe]
    by_cases hc : c = ch
    · subst hc
      split
      · simp
      · rename_i hp
        simp [held, State.Holds, hw, Ne.symm hp]
    · split <;> simp [hc, held]
  | other => exact held

/-- Without shared subscriptions, nobody shares a payload. -/
theorem alone_step (h : ∀ p, (s.registry.channels p).card ≤ 1) (ha : ∀ p, a ≠ .subscribe p)
    (hstep : step s a = some t) (p : String) : (t.registry.channels p).card ≤ 1 := by
  cases effect_of_step hstep with
  | join q alone =>
    rw [State.join, Registry.channels_addLocked]
    split
    · rename_i hp
      rw [hp, alone.resolve_left (ha q)]
      simp
    · exact h p
  | move => exact h p
  | release =>
    rw [Registry.channels_unsubscribe]
    split
    · exact Finset.card_erase_le.trans (h p)
    · exact h p
  | other => exact h p

theorem inv_of_reaches {C : State → Action → Prop} (h : Reaches system C s) : Inv s := by
  refine h.invariant (I := Inv) ?_ fun _ _ _ hs _ => inv_step hs
  rintro s ⟨⟨push, hreg⟩, hwaiters⟩ p ch
  simp [Registry.channels, hreg, newNotifyRegistry, State.Holds, hwaiters]

theorem notified {p : String} (ha : a.Notifies p) (hstep : step s a = some t)
    (registered : ch ∈ s.registry.channels p) :
    t.commits = s.commits ∧ t.waiters = s.waiters ∧ ch ∈ t.registry.buffered := by
  cases a with
  | notify q | signal q =>
    obtain rfl : q = p := ha
    cases hstep
    exact ⟨rfl, rfl, Finset.mem_union_right _ registered⟩
  | notifyAll =>
    cases hstep
    exact ⟨rfl, rfl, Registry.mem_buffered_notifyAll _ registered⟩
  | _ => cases ha

theorem pending_of_run {tr : List (Transition State Action)} (h : s.registry.pending = some ∅)
    (hrun : Run system s tr t) (hflush : ∀ x ∈ tr, x.act ≠ .flush) :
    ∃ ps, t.registry.pending = some ps ∧ ∀ p, p ∈ ps ↔ ∃ x ∈ tr, x.act = .signal p := by
  induction hrun with
  | nil => exact ⟨∅, h, by simp⟩
  | @snoc tr t u a _ hstep ih =>
    obtain ⟨ps, hps, hmem⟩ := ih fun x hx => hflush x (List.mem_append_left _ hx)
    have last : a ≠ .flush := hflush ⟨t, a, u⟩ (by simp)
    refine ⟨a.push ps, by rw [pending_of_step hstep, hps, Option.map_some], fun p => ?_⟩
    cases a with
    | signal q => simp [Action.push, hmem, or_and_right, exists_or, or_comm, eq_comm]
    | flush => exact absurd rfl last
    | _ => simp [Action.push, hmem, or_and_right, exists_or]

end Steps

/-- However the operations of any number of waiters and writers are interleaved: a notification after a commit
reaches every waiter that is subscribed to the payload, which from then on has a token or looks at the
database before it blocks again; releasing one channel leaves the others registered; exclusive subscriptions
are exclusive; and a flush takes the payloads signalled since the last one. -/
theorem no_wake_lost :
    (∀ s, Reaches system (fun _ _ => True) s → ∀ p a, a.Notifies p → ∀ s', step s a = some s' →
      ∀ tr t, Run system s' tr t → ∀ ch, s.Holds ch p → t.Awake s.commits ch) ∧
    (∀ s ch t, step s (.release ch) = some t → ∀ p ch', ch' ≠ ch →
      (ch' ∈ t.registry.channels p ↔ ch' ∈ s.registry.channels p)) ∧
    (∀ s, Reaches system (fun _ a => ∀ p, a ≠ .subscribe p) s →
      ∀ p ch ch', s.Holds ch p → s.Holds ch' p → ch = ch') ∧
    ∀ s, s.registry = newNotifyRegistry true ∨ (∃ u, step u .flush = some s) →
      ∀ tr t, Run system s tr t → (∀ x ∈ tr, x.act ≠ .flush) →
        ∀ p, p ∈ t.registry.drainPending.1 ↔ ∃ x ∈ tr, x.act = .signal p := by
  refine ⟨?_, ?_, ?_, ?_⟩
  · intro s hs p a ha s' hstep tr t hrun ch holds
    obtain ⟨hcommits, hwaiters, token⟩ := notified ha hstep ((inv_of_reaches hs p ch).2 holds)
    obtain ⟨w, hw, -⟩ := holds
    suffices s.commits ≤ t.commits ∧ ch < t.waiters.length ∧ t.Awake s.commits ch from this.2.2
    induction hrun with
    | nil =>
      rw [hcommits, hwaiters]
      exact ⟨le_rfl, (List.getElem?_eq_some_iff.1 hw).1, fun _ _ _ => .inl token⟩
    | snoc _ hstep ih => exact awake_step ih.1 ih.2.1 ih.2.2 hstep
  · intro s ch t hstep p ch' hne
    obtain ⟨w, hw, hmove⟩ := Option.bind_eq_some_iff.1 hstep
    obtain ⟨-, -, -, rfl⟩ := State.move_eq_some hmove
    rw [Registry.channels_unsubscribe]
    split
    · simp [hne]
    · rfl
  · intro s hs p ch ch' h h'
    have alone := hs.invariant (I := fun s => ∀ p, (s.registry.channels p).card ≤ 1) ?_ ?_ p
    · exact Finset.card_le_one.1 alone ch ((inv_of_reaches hs p ch).2 h) ch' ((inv_of_reaches hs p ch').2 h')
    · rintro s ⟨⟨push, hreg⟩, -⟩ p
      simp [Registry.channels, hreg, newNotifyRegistry]
    · intro s a t hs ha hstep
      exact alone_step hs ha hstep
  · intro s hs tr t hrun hflush p
    have flushed : s.registry.pending = some ∅ := by
      rcases hs with hreg | ⟨u, hstep⟩
      · rw [hreg]
        rfl
      · rw [pending_of_step hstep]
        simp only [step] at hstep
        split at hstep
        · rename_i hpush
          obtain ⟨ps, hps⟩ := Option.isSome_iff_exists.1 hpush
          rw [hps]
          rfl
        · cases hstep
    obtain ⟨ps, hps, hmem⟩ := pending_of_run flushed hrun hflush
    rw [Registry.drainPending, hps]
    exact hmem p

end Dbos.Notifier
