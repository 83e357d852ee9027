import DbosTransact.Lib.Retry
import DbosTransact.SysDb.Dialect

/-!
# The retry policy of a step

The predicate gates the next retry and is not asked once the budget is spent; without a budget the first
error is returned as it is.
-/

namespace Dbos

open Retry

/-- `stepOptions`, as far as the retries go. -/
structure StepOptions where
  stepName : String
  maxRetries : Int := 0
  retryPredicate : Option (GoError → Bool) := none

structure Progress where
  runs : Nat := 0
  joinedErrors : Option GoError := none
  deriving DecidableEq, Repr

namespace StepOptions

/-- `decide` of `executeStepWithRetry`. -/
def decide (o : StepOptions) (workflowID : String) (s : Progress) (err : GoError) :
    Verdict Progress GoError :=
  let joined := GoError.joinOnto s.joinedErrors err
  let runs := s.runs + 1
  if (runs : Int) > o.maxRetries then
    if o.maxRetries ≤ 0 then .stop err
    else .stop (newMaxStepRetriesExceededError workflowID o.stepName o.maxRetries joined)
  else if o.retryPredicate.any fun p => !p err then .stop err
  else .again ⟨runs, some joined⟩

/-- `executeStepWithRetry`, over the results of the runs of the step body. -/
def execute {α : Type*} (o : StepOptions) (workflowID : String) (rs : List (α × Option GoError)) :
    Run α GoError :=
  loop (o.decide workflowID) {} rs

end StepOptions

end Dbos
