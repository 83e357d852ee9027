import DbosTransact.Steps.Policy
import Mathlib.Data.Nat.Find
import Mathlib.Order.Bounds.Basic

/-!
# The retry budget of a step

The attempts are numbered from one, and `r i` is the result of the `i`th. `calls` are the errors that the
loop asks the predicate about.
-/

namespace Dbos

open Retry

/-- The errors joined one after the other, as `executeStepWithRetry` does. -/
def GoError.joinAll (joined : Option GoError) (errs : List GoError) : Option GoError :=
  errs.foldl (fun joined e => some (joinOnto joined e)) joined

namespace StepOptions

variable {α : Type*} (o : StepOptions) (workflowID : String)

/-- The errors that `decide` asks the predicate about. -/
def asked (s : Progress) (err : GoError) : List GoError :=
  if ((s.runs + 1 : ℕ) : Int) > o.maxRetries then []
  else if o.retryPredicate.isSome then [err] else []

/-- The calls of the predicate, in order. -/
def calls : Progress → List (α × Option GoError) → List GoError
  | _, [] | _, (_, none) :: _ => []
  | s, (_, some e) :: rs =>
    o.asked s e ++
      match o.decide workflowID s e with
      | .again s' => calls s' rs
      | .stop _ => []

/-- The results of the attempts from the `j`th on. -/
def attempts (r : ℕ → α × Option GoError) (j n : ℕ) : List (α × Option GoError) :=
  (List.range' j n).map r

def errors (rs : List (α × Option GoError)) : List GoError := rs.filterMap (·.2)

/-- The predicate rejects the error. -/
def Rejects (e : GoError) : Prop := ∃ p ∈ o.retryPredicate, p e = false

/-- The `k`th attempt is the last one. -/
def Ends (k : ℕ) (result : α × Option GoError) : Prop :=
  result.2 = none ∨ (k : Int) > o.maxRetries ∨ ∃ e, result.2 = some e ∧ o.Rejects e

/-- The error returned if the `k`th attempt is the last one and fails, where `joined` are the errors before
it: its error as it is without a budget and within the budget, and all the errors otherwise. -/
def finalError (k : ℕ) (joined : Option GoError) (e : GoError) : GoError :=
  if o.maxRetries ≤ 0 ∨ (k : Int) ≤ o.maxRetries then e
  else newMaxStepRetriesExceededError workflowID o.stepName o.maxRetries (GoError.joinOnto joined e)

def outcome (k : ℕ) (joined : Option GoError) : α × Option GoError → Final α GoError
  | (a, none) => .success a
  | (a, some e) => .failure a e (o.finalError workflowID k joined e)

variable {o} {r : ℕ → α × Option GoError} {s : Progress} {k n : ℕ}

theorem attempts_succ (r : ℕ → α × Option GoError) (j n : ℕ) :
    attempts r j (n + 1) = r j :: attempts r (j + 1) n := rfl

theorem any_iff_rejects (e : GoError) :
    (o.retryPredicate.any fun p => !p e) = true ↔ o.Rejects e := by
  cases h : o.retryPredicate <;> simp [Rejects, h]

theorem exists_of_not_ends (h : ¬ o.Ends k (r k)) :
    ∃ a e, r k = (a, some e) ∧ ¬ (k : Int) > o.maxRetries ∧ ¬ o.Rejects e := by
  rcases hr : r k with ⟨a, _ | e⟩
  · exact absurd (.inl (by rw [hr])) h
  · refine ⟨a, e, rfl, fun spent => h (.inr (.inl spent)), fun rejects => h (.inr (.inr ⟨e, ?_, rejects⟩))⟩
    rw [hr]

theorem decide_of_not_ends {e : GoError} (hm : ¬ ((s.runs + 1 : ℕ) : Int) > o.maxRetries)
    (he : ¬ o.Rejects e) :
    o.decide workflowID s e = .again ⟨s.runs + 1, some (GoError.joinOnto s.joinedErrors e)⟩ := by
  rw [← any_iff_rejects] at he
  simp only [StepOptions.decide, if_neg hm, if_neg he]

theorem decide_of_ends {a : α} {e : GoError} (h : o.Ends (s.runs + 1) (a, some e)) :
    o.decide workflowID s e = .stop (o.finalError workflowID (s.runs + 1) s.joinedErrors e) := by
  by_cases spent : ((s.runs + 1 : ℕ) : Int) > o.maxRetries
  · simp only [StepOptions.decide, if_pos spent, finalError, not_le.2 spent, or_false]
    split <;> rfl
  · have rejects : o.Rejects e := by
      rcases h with h | h | ⟨e', h, rejects⟩
      · cases h
      · exact absurd h spent
      · cases h
        exact rejects
    simp only [StepOptions.decide, if_neg spent, if_pos ((any_iff_rejects e).2 rejects), finalError,
      not_lt.1 spent, or_true, ↓reduceIte]

/-- At the last attempt, the predicate is asked if the attempt fails within the budget. -/
theorem loop_ends {result : α × Option GoError} (h : o.Ends (s.runs + 1) result)
    (rs : List (α × Option GoError)) :
    loop (o.decide workflowID) s (result :: rs) =
        ⟨[], some (o.outcome workflowID (s.runs + 1) s.joinedErrors result)⟩ ∧
      o.calls workflowID s (result :: rs) =
        if ((s.runs + 1 : ℕ) : Int) > o.maxRetries then []
        else if o.retryPredicate.isSome then errors [result] else [] := by
  obtain ⟨a, _ | e⟩ := result
  · simp [calls, errors, outcome]
  · have stop := decide_of_ends workflowID h
    refine ⟨loop_stop _ stop a rs, ?_⟩
    simp only [calls, stop, List.append_nil]
    rfl

/-- **The run.** From the attempt after `s` on, up to the `k`th. -/
theorem loop_attempts (hk : o.Ends k (r k)) (hs : s.runs < k)
    (hlt : ∀ i, s.runs < i → i < k → ¬ o.Ends i (r i)) (hn : k ≤ s.runs + n) :
    loop (o.decide workflowID) s (attempts r (s.runs + 1) n) =
        ⟨errors (attempts r (s.runs + 1) (k - s.runs - 1)),
          some (o.outcome workflowID k
            (GoError.joinAll s.joinedErrors (errors (attempts r (s.runs + 1) (k - s.runs - 1)))) (r k))⟩ ∧
      o.calls workflowID s (attempts r (s.runs + 1) n) =
        if o.retryPredicate.isSome then
          errors (attempts r (s.runs + 1) (min k o.maxRetries.toNat - s.runs))
        else [] := by
  induction n generalizing s with
  | zero => omega
  | succ n ih =>
    rw [attempts_succ]
    rcases Nat.lt_or_ge (s.runs + 1) k with hlt' | hge
    · obtain ⟨a, e, hr, hm, he⟩ := exists_of_not_ends (hlt _ (Nat.lt_succ_self _) hlt')
      have again := decide_of_not_ends workflowID hm he
      have before : k - s.runs - 1 = (k - (s.runs + 1) - 1) + 1 := by omega
      have within : min k o.maxRetries.toNat - s.runs = (min k o.maxRetries.toNat - (s.runs + 1)) + 1 := by
        omega
      obtain ⟨run, asks⟩ := ih (s := ⟨s.runs + 1, some (GoError.joinOnto s.joinedErrors e)⟩) hlt'
        (fun i hi => hlt i (Nat.lt_of_succ_lt hi)) (by simp only; omega)
      rw [before, within, attempts_succ, attempts_succ, hr, loop_again _ again, run]
      refine ⟨rfl, ?_⟩
      simp only [calls, asked, if_neg hm, again, asks]
      split <;> rfl
    · obtain rfl : k = s.runs + 1 := by omega
      obtain ⟨run, asks⟩ := loop_ends workflowID hk (attempts r (s.runs + 1 + 1) n)
      have before : s.runs + 1 - s.runs - 1 = 0 := by omega
      rw [run, asks, before]
      refine ⟨rfl, ?_⟩
      split
      · have within : min (s.runs + 1) o.maxRetries.toNat - s.runs = 0 := by omega
        simp [within, attempts, errors]
      · have within : min (s.runs + 1) o.maxRetries.toNat - s.runs = 1 := by omega
        simp [within, attempts, errors]

theorem final_eq_none (h : ∀ i, s.runs < i → i ≤ s.runs + n → ¬ o.Ends i (r i)) :
    (loop (o.decide workflowID) s (attempts r (s.runs + 1) n)).final = none := by
  induction n generalizing s with
  | zero => rfl
  | succ n ih =>
    obtain ⟨a, e, hr, hm, he⟩ := exists_of_not_ends (h _ (Nat.lt_succ_self _) (by omega))
    rw [attempts_succ, hr, loop_again _ (decide_of_not_ends workflowID hm he)]
    exact ih fun i hi hle => h i (Nat.lt_of_succ_lt hi) (by simp only at hle; omega)

end StepOptions

end Dbos
