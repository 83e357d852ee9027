import Mathlib.Data.List.Basic
import Mathlib.Tactic.Common

/-!
# Retry loops

A retry loop runs its work until it succeeds or until `decide`, asked after every failure, stops it;
`decide` may keep a state and may replace the error. The runs of the work are given by the list of their
results. `results` is the loop as the work of an outer loop.
-/

namespace Retry

/-- The decision after a failed run: run again in a new state, or stop with an error. -/
inductive Verdict (σ ε : Type*)
  | again (s : σ)
  | stop (err : ε)

/-- How a loop ended; `last` is the error of the last run and `err` what the decision made of it. -/
inductive Final (α ε : Type*)
  | success (a : α)
  | failure (a : α) (last err : ε)

structure Run (α ε : Type*) where
  retried : List ε
  final : Option (Final α ε)

variable {σ α ε : Type*}

def loop (decide : σ → ε → Verdict σ ε) : σ → List (α × Option ε) → Run α ε
  | _, [] => ⟨[], none⟩
  | _, (a, none) :: _ => ⟨[], some (.success a)⟩
  | s, (a, some e) :: rs =>
    match decide s e with
    | .again s' => ⟨e :: (loop decide s' rs).retried, (loop decide s' rs).final⟩
    | .stop err => ⟨[], some (.failure a e err)⟩

/-- The results of the loop, run again and again from `s₀`. -/
def results (decide : σ → ε → Verdict σ ε) (s₀ : σ) : σ → List (α × Option ε) → List (α × Option ε)
  | _, [] => []
  | _, (a, none) :: rs => (a, none) :: results decide s₀ s₀ rs
  | s, (a, some e) :: rs =>
    match decide s e with
    | .again s' => results decide s₀ s' rs
    | .stop err => (a, some err) :: results decide s₀ s₀ rs

/-- Run again after the errors in `p`. -/
def absorb (p : ε → Bool) : Unit → ε → Verdict Unit ε :=
  fun _ e => if p e then .again () else .stop e

section Lemmas

variable (decide : σ → ε → Verdict σ ε)

@[simp] theorem loop_success (s : σ) (a : α) (rs : List (α × Option ε)) :
    loop decide s ((a, none) :: rs) = ⟨[], some (.success a)⟩ := rfl

theorem loop_again {s s' : σ} {e : ε} (h : decide s e = .again s') (a : α)
    (rs : List (α × Option ε)) : loop decide s ((a, some e) :: rs) =
      ⟨e :: (loop decide s' rs).retried, (loop decide s' rs).final⟩ := by
  simp only [loop, h]

theorem loop_stop {s : σ} {e err : ε} (h : decide s e = .stop err) (a : α)
    (rs : List (α × Option ε)) :
    loop decide s ((a, some e) :: rs) = ⟨[], some (.failure a e err)⟩ := by
  simp only [loop, h]

theorem mem_of_final_failure {s : σ} {rs : List (α × Option ε)} {a : α} {last err : ε}
    (h : (loop decide s rs).final = some (.failure a last err)) : (a, some last) ∈ rs := by
  induction rs generalizing s with
  | nil => cases h
  | cons r rs ih =>
    obtain ⟨b, _ | e⟩ := r
    · cases h
    · cases hd : decide s e with
      | again s' =>
        rw [loop_again decide hd] at h
        exact List.mem_cons_of_mem _ (ih h)
      | stop err' =>
        rw [loop_stop decide hd] at h
        cases h
        exact List.mem_cons_self

theorem mem_of_final_success {s : σ} {rs : List (α × Option ε)} {a : α}
    (h : (loop decide s rs).final = some (.success a)) : (a, none) ∈ rs := by
  induction rs generalizing s with
  | nil => cases h
  | cons r rs ih =>
    obtain ⟨b, _ | e⟩ := r
    · cases h
      exact List.mem_cons_self
    · cases hd : decide s e with
      | again s' =>
        rw [loop_again decide hd] at h
        exact List.mem_cons_of_mem _ (ih h)
      | stop err' =>
        rw [loop_stop decide hd] at h
        cases h

/-- An absorbing loop passes on what it does not absorb. -/
theorem results_absorb (p : ε → Bool) (rs : List (α × Option ε)) :
    results (absorb p) () () rs = rs.filter fun r => !r.2.any p := by
  induction rs with
  | nil => rfl
  | cons r rs ih =>
    obtain ⟨a, _ | e⟩ := r
    · simp [results, ih]
    · cases hp : p e <;> simp [results, absorb, hp, ih]

end Lemmas

end Retry
