import Mathlib.Data.List.Basic
import Mathlib.Tactic.Common

/-!
# Executable transition systems

A system is a set of initial states and a step function `step : σ → α → Option σ`: an action which is not
enabled gives `none`. A run is kept together with the list of its transitions, so that a statement can speak
about every step taken. `Reaches S C t` says that a run from an initial state, all of whose steps meet `C`,
ends in `t`; `exec` and `trace` are the executable counterparts for a given list of actions.
-/

namespace Lts

/-- A transition system with initial states `init` and a partial step function. -/
structure System (σ α : Type*) where
  init : σ → Prop
  step : σ → α → Option σ

/-- One step taken: the state before it, the action and the state after it. -/
structure Transition (σ α : Type*) where
  pre : σ
  act : α
  post : σ

variable {σ α : Type*} {S : System σ α}

/-- `Run S s tr t`: the transitions `tr`, in order, lead from `s` to `t`. -/
inductive Run (S : System σ α) (s : σ) : List (Transition σ α) → σ → Prop
  | nil : Run S s [] s
  | snoc {tr : List (Transition σ α)} {t u : σ} {a : α} :
      Run S s tr t → S.step t a = some u → Run S s (tr ++ [⟨t, a, u⟩]) u

/-- The states in which a run from an initial state ends whose steps all meet `C`. -/
def Reaches (S : System σ α) (C : σ → α → Prop) (t : σ) : Prop :=
  ∃ s tr, S.init s ∧ Run S s tr t ∧ ∀ x ∈ tr, C x.pre x.act

theorem Reaches.init {C : σ → α → Prop} {s : σ} (h : S.init s) : Reaches S C s :=
  ⟨s, [], h, Run.nil, fun _ hx => absurd hx List.not_mem_nil⟩

theorem Reaches.snoc {C : σ → α → Prop} {s t : σ} {a : α} (h : Reaches S C s) (hC : C s a)
    (hstep : S.step s a = some t) : Reaches S C t := by
  obtain ⟨s₀, tr, hs, hrun, hall⟩ := h
  refine ⟨s₀, tr ++ [⟨s, a, t⟩], hs, hrun.snoc hstep, ?_⟩
  intro x hx
  rcases List.mem_append.1 hx with hx | hx
  · exact hall x hx
  · obtain rfl := List.mem_singleton.1 hx
    exact hC

/-- **The invariant rule.** What holds initially and is kept by every step which meets `C` holds in
every state that such steps reach. -/
theorem Reaches.invariant {C : σ → α → Prop} {I : σ → Prop} (hinit : ∀ s, S.init s → I s)
    (hstep : ∀ s a t, I s → C s a → S.step s a = some t → I t) {t : σ} (h : Reaches S C t) :
    I t := by
  obtain ⟨s, tr, hs, hrun, hC⟩ := h
  induction hrun with
  | nil => exact hinit s hs
  | @snoc tr t u a _ hau ih =>
    have ht : I t := ih fun x hx => hC x (List.mem_append_left _ hx)
    exact hstep t a u ht (hC ⟨t, a, u⟩ (by simp)) hau

/-- If all steps of a run meet `C`, every transition of it starts in a state that such steps reach. -/
theorem Run.reaches_of_mem {C : σ → α → Prop} {s t : σ} {tr : List (Transition σ α)} (h : Run S s tr t)
    (hs : S.init s) (hC : ∀ x ∈ tr, C x.pre x.act) {x : Transition σ α} (hx : x ∈ tr) :
    Reaches S C x.pre ∧ S.step x.pre x.act = some x.post := by
  induction h with
  | nil => cases hx
  | @snoc tr t u a hrun hau ih =>
    have hC' : ∀ y ∈ tr, C y.pre y.act := fun y hy => hC y (List.mem_append_left _ hy)
    rcases List.mem_append.1 hx with hx | hx
    · exact ih hC' hx
    · obtain rfl := List.mem_singleton.1 hx
      exact ⟨⟨s, tr, hs, hrun, hC'⟩, hau⟩

/-- Every transition of a run starts in a state that the run's earlier steps reach. -/
theorem Run.transition_of_mem {s t : σ} {tr : List (Transition σ α)} (h : Run S s tr t)
    (hs : S.init s) {x : Transition σ α} (hx : x ∈ tr) :
    Reaches S (fun _ _ => True) x.pre ∧ S.step x.pre x.act = some x.post :=
  h.reaches_of_mem hs (fun _ _ => trivial) hx

/-- **The exact rule.** If a step from a state with the invariant `I` leads to `P` precisely when `P`
held before and the step meets `C`, then a run ends in `P` precisely when all its steps meet `C`. -/
theorem Run.forall_iff {I P : σ → Prop} {C : σ → α → Prop} (hinit : ∀ s, S.init s → I s ∧ P s)
    (hI : ∀ s a t, I s → S.step s a = some t → I t)
    (hP : ∀ s a t, I s → S.step s a = some t → (P t ↔ P s ∧ C s a))
    {s t : σ} {tr : List (Transition σ α)} (hs : S.init s) (h : Run S s tr t) :
    P t ↔ ∀ x ∈ tr, C x.pre x.act := by
  suffices I t ∧ (P t ↔ ∀ x ∈ tr, C x.pre x.act) from this.2
  induction h with
  | nil => exact ⟨(hinit s hs).1, by simp [(hinit s hs).2]⟩
  | @snoc tr t u a _ hau ih =>
    refine ⟨hI t a u ih.1 hau, ?_⟩
    rw [hP t a u ih.1 hau, ih.2]
    simp [or_imp, forall_and]

/-- **The exact rule, for every state of a run.** If a step from a state with `I` and `P` leads to `P`
precisely when it meets `C`, then all states of a run have `P` precisely when all its steps meet `C`. -/
theorem Run.forall_post_iff {I P : σ → Prop} {C : σ → α → Prop} (hinit : ∀ s, S.init s → I s ∧ P s)
    (hI : ∀ s a t, I s → S.step s a = some t → I t)
    (hP : ∀ s a t, I s → P s → S.step s a = some t → (P t ↔ C s a))
    {s t : σ} {tr : List (Transition σ α)} (hs : S.init s) (h : Run S s tr t) :
    (∀ x ∈ tr, P x.post) ↔ ∀ x ∈ tr, C x.pre x.act := by
  suffices I t ∧ ((∀ x ∈ tr, P x.post) → P t) ∧ ((∀ x ∈ tr, P x.post) ↔ ∀ x ∈ tr, C x.pre x.act) from
    this.2.2
  induction h with
  | nil => exact ⟨(hinit s hs).1, fun _ => (hinit s hs).2, by simp⟩
  | @snoc tr t u a _ hau ih =>
    obtain ⟨hIt, hlast, hiff⟩ := ih
    simp only [List.forall_mem_append, List.forall_mem_singleton, ← hiff]
    exact ⟨hI t a u hIt hau, fun hall => hall.2, and_congr_right fun hall => hP t a u hIt (hlast hall) hau⟩

/-- **The exact rule, for every step of a run.** If steps that meet `C` keep the invariant `I`, and a step
from a state with `I` has `G` precisely when it meets `C`, then all steps of a run have `G` precisely
when all of them meet `C`. -/
theorem Run.forall_transition_iff {I : σ → Prop} {C : σ → α → Prop} {G : σ → α → σ → Prop}
    (hinit : ∀ s, S.init s → I s) (hI : ∀ s a t, I s → C s a → S.step s a = some t → I t)
    (hG : ∀ s a t, I s → S.step s a = some t → (G s a t ↔ C s a))
    {s t : σ} {tr : List (Transition σ α)} (hs : S.init s) (h : Run S s tr t) :
    (∀ x ∈ tr, G x.pre x.act x.post) ↔ ∀ x ∈ tr, C x.pre x.act := by
  suffices ((∀ x ∈ tr, C x.pre x.act) → I t) ∧
      ((∀ x ∈ tr, G x.pre x.act x.post) ↔ ∀ x ∈ tr, C x.pre x.act) from this.2
  induction h with
  | nil => exact ⟨fun _ => hinit s hs, by simp⟩
  | @snoc tr t u a _ hau ih =>
    obtain ⟨hlast, hiff⟩ := ih
    simp only [List.forall_mem_append, List.forall_mem_singleton, hiff]
    exact ⟨fun hall => hI t a u (hlast hall.1) hall.2 hau,
      and_congr_right fun hall => hG t a u (hlast hall) hau⟩

/-- The run of a list of actions, if every one of them is enabled in its turn. -/
def exec (S : System σ α) : σ → List α → Option σ
  | s, [] => some s
  | s, a :: as => (S.step s a).bind fun t => exec S t as

theorem exec_cons {s t : σ} {a : α} {as : List α} (h : S.step s a = some t) :
    exec S s (a :: as) = exec S t as := by
  rw [exec, h, Option.bind_some]

theorem exec_singleton {s t : σ} {a : α} (h : S.step s a = some t) : exec S s [a] = some t :=
  exec_cons h

theorem exec_append {s t : σ} {as bs : List α} (h : exec S s as = some t) :
    exec S s (as ++ bs) = exec S t bs := by
  induction as generalizing s with
  | nil =>
    obtain rfl : s = t := Option.some.inj h
    rfl
  | cons a as ih =>
    obtain ⟨u, hsu, hut⟩ := Option.bind_eq_some_iff.1 h
    rw [List.cons_append, exec_cons hsu, ih hut]

theorem exec_append_iff {s u : σ} {as bs : List α} :
    exec S s (as ++ bs) = some u ↔ ∃ t, exec S s as = some t ∧ exec S t bs = some u := by
  induction as generalizing s with
  | nil => simp [exec]
  | cons a as ih =>
    simp only [List.cons_append, exec, Option.bind_eq_some_iff, ih]
    constructor
    · rintro ⟨v, hv, t, ht, hu⟩
      exact ⟨t, ⟨v, hv, ht⟩, hu⟩
    · rintro ⟨t, ⟨v, hv, ht⟩, hu⟩
      exact ⟨v, hv, t, ht, hu⟩

/-- What every action of the list keeps holds at its end if it holds at its start. -/
theorem exec_invariant {P : σ → Prop} {s t : σ} {as : List α}
    (hstep : ∀ a ∈ as, ∀ s t, S.step s a = some t → P s → P t) (h : exec S s as = some t) (hs : P s) : P t := by
  induction as generalizing s with
  | nil =>
    obtain rfl : s = t := Option.some.inj h
    exact hs
  | cons a as ih =>
    obtain ⟨u, hsu, hut⟩ := Option.bind_eq_some_iff.1 h
    exact ih (fun b hb => hstep b (List.mem_cons_of_mem _ hb)) hut (hstep a List.mem_cons_self s u hsu hs)

/-- The transitions of that run, up to the first action which is not enabled. -/
def trace (S : System σ α) : σ → List α → List (Transition σ α)
  | _, [] => []
  | s, a :: as =>
    match S.step s a with
    | none => []
    | some t => ⟨s, a, t⟩ :: trace S t as

theorem act_mem_of_mem_trace {s : σ} {as : List α} {x : Transition σ α} (hx : x ∈ trace S s as) : x.act ∈ as := by
  induction as generalizing s with
  | nil => exact absurd hx List.not_mem_nil
  | cons a as ih =>
    unfold trace at hx
    split at hx
    · exact absurd hx List.not_mem_nil
    · rcases List.mem_cons.1 hx with rfl | hx
      · exact List.mem_cons_self
      · exact List.mem_cons_of_mem _ (ih hx)

theorem Run.cons {s t u : σ} {a : α} {tr : List (Transition σ α)} (hst : S.step s a = some t)
    (h : Run S t tr u) : Run S s (⟨s, a, t⟩ :: tr) u := by
  induction h with
  | nil =>
    show Run S s ([] ++ [⟨s, a, t⟩]) t
    exact Run.snoc Run.nil hst
  | snoc _ hau ih => exact Run.snoc ih hau

theorem run_exec {s t : σ} {as : List α} (h : exec S s as = some t) :
    Run S s (trace S s as) t := by
  induction as generalizing s with
  | nil =>
    obtain rfl : s = t := Option.some.inj h
    exact Run.nil
  | cons a as ih =>
    obtain ⟨u, hsu, hut⟩ := Option.bind_eq_some_iff.1 h
    simp only [trace, hsu]
    exact Run.cons hsu (ih hut)

/-- A list of actions, evaluated, whose steps meet `C` and which ends in a state with `p`. -/
theorem exists_reaches (C : σ → α → Prop) {s : σ} (as : List α) (p : σ → Bool) (hs : S.init s)
    (hC : ∀ x ∈ trace S s as, C x.pre x.act) (h : (exec S s as).any p = true) :
    ∃ t, Reaches S C t ∧ p t = true := by
  cases ht : exec S s as with
  | none => simp [ht] at h
  | some t => exact ⟨t, ⟨s, trace S s as, hs, run_exec ht, hC⟩, by simpa [ht] using h⟩

end Lts
