import DbosTransact.Lib.Transition

/-!
# Calls that are made again after an error

A call is a sequence of statements on a store that others change too. A statement may fail before it takes
effect, or take effect and have its answer lost; the call is then made again from its first statement if the
error is one that `retries` accepts. The effects are kept as two lists: those of the attempt under way, and
those `wasted` by attempts that were given up.
-/

namespace Retried

open Lts

variable {δ π α η ρ ε : Type*}

inductive Next (π ρ ε : Type*)
  | goto (p : π)
  | done (result : ρ)
  | error (e : ε)

/-- What a statement does: the new store, the effects it leaves there, and what follows. -/
structure Outcome (δ π η ρ ε : Type*) where
  store : δ
  made : List η
  next : Next π ρ ε

/-- The statements of an attempt, from its first phase, and the errors after which the call is made
again. A statement is given what it draws and reads off the clock. -/
structure Call (δ π α η ρ ε : Type*) where
  start : π
  stmt : δ → π → α → Option (Outcome δ π η ρ ε)
  retries : ε → Bool

inductive Phase (π ρ ε : Type*)
  | running (p : π)
  | returned (result : Except ε ρ)

def Phase.result? : Phase π ρ ε → Option ρ
  | .returned (.ok result) => some result
  | _ => none

/-- The store, the call, and the effects of the attempt under way and of the earlier ones. -/
structure State (δ π η ρ ε : Type*) where
  store : δ
  phase : Phase π ρ ε
  attempt : List η
  wasted : List η

def State.made (s : State δ π η ρ ε) : List η := s.wasted ++ s.attempt

/-- A statement that is acknowledged, one whose acknowledgement is lost, one that fails before it takes
effect, or a change made by others. -/
inductive Action (δ α ε : Type*)
  | stmt (a : α)
  | lost (a : α) (e : ε)
  | broken (e : ε)
  | others (store : δ)

def State.fail (c : Call δ π α η ρ ε) (s : State δ π η ρ ε) (e : ε) : State δ π η ρ ε :=
  if c.retries e then ⟨s.store, .running c.start, [], s.wasted ++ s.attempt⟩
  else { s with phase := .returned (.error e) }

def State.perform (s : State δ π η ρ ε) (o : Outcome δ π η ρ ε) : State δ π η ρ ε :=
  { s with store := o.store, attempt := s.attempt ++ o.made }

def State.receive (c : Call δ π α η ρ ε) (s : State δ π η ρ ε) (o : Outcome δ π η ρ ε) :
    State δ π η ρ ε :=
  match o.next with
  | .goto q => { s.perform o with phase := .running q }
  | .done result => { s.perform o with phase := .returned (.ok result) }
  | .error e => (s.perform o).fail c e

def step (c : Call δ π α η ρ ε) (s : State δ π η ρ ε) : Action δ α ε → Option (State δ π η ρ ε)
  | .stmt a =>
    match s.phase with
    | .running p => (c.stmt s.store p a).map (s.receive c)
    | .returned _ => none
  | .lost a e =>
    match s.phase with
    | .running p => (c.stmt s.store p a).map fun o => (s.perform o).fail c e
    | .returned _ => none
  | .broken e =>
    match s.phase with
    | .running _ => some (s.fail c e)
    | .returned _ => none
  | .others store => some { s with store := store }

def system (c : Call δ π α η ρ ε) : System (State δ π η ρ ε) (Action δ α ε) where
  init s := s.phase = .running c.start ∧ s.attempt = [] ∧ s.wasted = []
  step := step c

/-- The attempt has left no effect when it fails in this way, or the error ends the call. -/
def Unspent (c : Call δ π α η ρ ε) (s : State δ π η ρ ε) (made : List η) (e : ε) : Prop :=
  c.retries e = true → s.attempt ++ made = []

/-- **The condition on one step**: a call is made again only if the attempt has left no effect. -/
def Clean (c : Call δ π α η ρ ε) (s : State δ π η ρ ε) : Action δ α ε → Prop
  | .stmt a => ∀ p o e, s.phase = .running p → c.stmt s.store p a = some o → o.next = .error e →
      Unspent c s o.made e
  | .lost a e => ∀ p o, s.phase = .running p → c.stmt s.store p a = some o → Unspent c s o.made e
  | .broken e => Unspent c s [] e
  | .others _ => True

variable {c : Call δ π α η ρ ε} {s t : State δ π η ρ ε}
  {tr : List (Transition (State δ π η ρ ε) (Action δ α ε))}

theorem wasted_fail (s : State δ π η ρ ε) (e : ε) :
    (s.fail c e).wasted = [] ↔ s.wasted = [] ∧ (c.retries e = true → s.attempt = []) := by
  unfold State.fail
  split_ifs with h <;> simp [h]

theorem wasted_step {a : Action δ α ε} (h : step c s a = some t) :
    t.wasted = [] ↔ s.wasted = [] ∧ Clean c s a := by
  cases a with
  | stmt a =>
    simp only [step] at h
    cases hp : s.phase with
    | returned r => simp [hp] at h
    | running p =>
      rw [hp] at h
      obtain ⟨o, ho, rfl⟩ := Option.map_eq_some_iff.1 h
      have hclean : Clean c s (.stmt a) ↔ ∀ e, o.next = .error e → Unspent c s o.made e := by
        simp only [Clean, hp, Phase.running.injEq]
        constructor
        · exact fun hc e => hc p o e rfl ho
        · rintro hc _ o' e rfl ho' hnext
          obtain rfl := Option.some.inj (ho.symm.trans ho')
          exact hc e hnext
      rw [hclean]
      unfold State.receive
      cases hnext : o.next with
      | goto q => simp [State.perform]
      | done r => simp [State.perform]
      | error e =>
        rw [wasted_fail]
        simp [State.perform, Unspent]
  | lost a e =>
    simp only [step] at h
    cases hp : s.phase with
    | returned r => simp [hp] at h
    | running p =>
      rw [hp] at h
      obtain ⟨o, ho, rfl⟩ := Option.map_eq_some_iff.1 h
      have hclean : Clean c s (.lost a e) ↔ Unspent c s o.made e := by
        simp only [Clean, hp, Phase.running.injEq]
        constructor
        · exact fun hc => hc p o rfl ho
        · rintro hc _ o' rfl ho'
          obtain rfl := Option.some.inj (ho.symm.trans ho')
          exact hc
      rw [hclean, wasted_fail]
      rfl
  | broken e =>
    simp only [step] at h
    cases hp : s.phase with
    | returned r => simp [hp] at h
    | running p =>
      rw [hp] at h
      cases h
      rw [wasted_fail]
      simp [Clean, Unspent]
  | others store =>
    cases h
    simp [Clean]

/-- Nothing is wasted in a run if and only if all its steps are clean. -/
theorem wasted_eq_nil_iff (hs : (system c).init s) (h : Run (system c) s tr t) :
    t.wasted = [] ↔ ∀ x ∈ tr, Clean c x.pre x.act := by
  refine Run.forall_iff (S := system c) (I := fun _ => True) (P := fun s => s.wasted = []) ?_
    (fun _ _ _ _ _ => trivial) (fun _ _ _ _ hstep => wasted_step hstep) hs h
  rintro s ⟨-, -, hwasted⟩
  exact ⟨trivial, hwasted⟩

/-- An attempt has left `count p` effects when it reaches the phase `p`, and one when it succeeds. -/
structure Counted (c : Call δ π α η ρ ε) (count : π → ℕ) : Prop where
  start : count c.start = 0
  goto : ∀ {d p a o q}, c.stmt d p a = some o → o.next = .goto q → count q = count p + o.made.length
  done : ∀ {d p a o r}, c.stmt d p a = some o → o.next = .done r → count p + o.made.length = 1

/-- The effects of the attempt under way, or of the one that succeeded. -/
def Phase.Has (count : π → ℕ) (attempt : List η) : Phase π ρ ε → Prop
  | .running p => attempt.length = count p
  | .returned (.ok _) => attempt.length = 1
  | .returned (.error _) => True

theorem Counted.fail {count : π → ℕ} (h : Counted c count) (s : State δ π η ρ ε) (e : ε) :
    (s.fail c e).phase.Has count (s.fail c e).attempt := by
  unfold State.fail
  split_ifs
  · simp [Phase.Has, h.start]
  · trivial

theorem Counted.step {count : π → ℕ} (h : Counted c count) (hs : s.phase.Has count s.attempt)
    {a : Action δ α ε} (hstep : step c s a = some t) : t.phase.Has count t.attempt := by
  cases a with
  | stmt a =>
    simp only [Retried.step] at hstep
    cases hp : s.phase with
    | returned r => simp [hp] at hstep
    | running p =>
      rw [hp] at hstep hs
      obtain ⟨o, ho, rfl⟩ := Option.map_eq_some_iff.1 hstep
      have hlen : s.attempt.length = count p := hs
      unfold State.receive
      cases hnext : o.next with
      | goto q =>
        have hq := h.goto ho hnext
        simp only [State.perform, Phase.Has, List.length_append]
        omega
      | done r =>
        have hr := h.done ho hnext
        simp only [State.perform, Phase.Has, List.length_append]
        omega
      | error e => exact h.fail _ e
  | lost a e =>
    simp only [Retried.step] at hstep
    cases hp : s.phase with
    | returned r => simp [hp] at hstep
    | running p =>
      rw [hp] at hstep
      obtain ⟨o, -, rfl⟩ := Option.map_eq_some_iff.1 hstep
      exact h.fail _ e
  | broken e =>
    simp only [Retried.step] at hstep
    cases hp : s.phase with
    | returned r => simp [hp] at hstep
    | running p =>
      rw [hp] at hstep
      cases hstep
      exact h.fail s e
  | others store =>
    cases hstep
    exact hs

theorem Counted.length_attempt {count : π → ℕ} (h : Counted c count) (hs : (system c).init s)
    (hrun : Run (system c) s tr t) {result : ρ} (hdone : t.phase.result? = some result) :
    t.attempt.length = 1 := by
  have hinv : t.phase.Has count t.attempt := by
    refine Reaches.invariant (S := system c) (C := fun _ _ => True)
      (I := fun s => s.phase.Has count s.attempt) ?_ (fun _ _ _ hI _ hstep => h.step hI hstep)
      ⟨s, tr, hs, hrun, fun _ _ => trivial⟩
    rintro s ⟨hphase, hattempt, -⟩
    rw [hphase, hattempt]
    exact h.start.symm
  unfold Phase.result? at hdone
  split at hdone
  · rename_i hphase
    rw [hphase] at hinv
    exact hinv
  · cases hdone

/-- **Exactly once.** A call that succeeded has left exactly one effect if and only if it was never made
again after an attempt that had left one. -/
theorem length_made_eq_one_iff {count : π → ℕ} (h : Counted c count) (hs : (system c).init s)
    (hrun : Run (system c) s tr t) {result : ρ} (hdone : t.phase.result? = some result) :
    t.made.length = 1 ↔ ∀ x ∈ tr, Clean c x.pre x.act := by
  rw [← wasted_eq_nil_iff hs hrun, State.made, List.length_append, h.length_attempt hs hrun hdone,
    ← List.length_eq_zero_iff]
  omega

end Retried
