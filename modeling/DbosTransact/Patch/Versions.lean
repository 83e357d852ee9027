import DbosTransact.Replay.Code

/-!
# Patched code and its versions

At one point of the code, version 0 has an old block, version 1 has
`if Patch(p) then new block else old block`, and version 2 has `DeprecatePatch(p)` followed by the new block.
An operation records a checkpoint under the next step ID; `Recv` and `GetEvent` take two IDs, and may record
a deadline under the second one before the checkpoint under the first. `run` is one execution over the
checkpoints that are there. It may die between any two statements, and the acknowledgement of an insert may
be lost, in which case the call is retried.
-/

namespace Dbos.Patch

open Replay Code

variable {α : Type}

/-- A row of `operation_outputs`, as the code sees it. -/
structure Row (α : Type) where
  name : String
  answer : α
  deriving DecidableEq, Repr

abbrev Journal (α : Type) := ℕ → Option (Row α)

def Journal.empty : Journal α := fun _ => none

/-- `INSERT INTO operation_outputs`. -/
def Journal.insert (J : Journal α) (n : ℕ) (row : Row α) : Journal α := Function.update J n (some row)

/-- Code with calls of `Patch` and `DeprecatePatch`. -/
inductive Script (α : Type)
  | done
  | ask (o : Op) (k : α → Script α)
  | patch (k : Bool → Script α)
  | deprecatePatch (k : Script α)

def Script.ofProgram : Program Op α → Script α
  | .done => .done
  | .ask o k => .ask o fun a => ofProgram (k a)

/-- Code with a point at which its versions differ. A block is given with what follows it. -/
inductive Patched (α : Type)
  | done
  | ask (o : Op) (k : α → Patched α)
  | point (old new : Program Op α)

namespace Patched

def v0 : Patched α → Script α
  | .done => .done
  | .ask o k => .ask o fun a => (k a).v0
  | .point old _ => .ofProgram old

/-- With `Patch`. -/
def v1 : Patched α → Script α
  | .done => .done
  | .ask o k => .ask o fun a => (k a).v1
  | .point old new => .patch fun patched => if patched then .ofProgram new else .ofProgram old

/-- With `DeprecatePatch`. -/
def v2 : Patched α → Script α
  | .done => .done
  | .ask o k => .ask o fun a => (k a).v2
  | .point _ new => .deprecatePatch (.ofProgram new)

end Patched

/-! ### The functions of the system database -/

def sleepName : String := "DBOS.sleep"

structure UnexpectedStep where
  stepID : ℕ
  expected : String
  recorded : String
  deriving DecidableEq, Repr

/-- `CheckOperationExecution`, on a workflow that is there and not cancelled. -/
def checkOperationExecution (J : Journal α) (stepID : ℕ) (stepName : String) : Except UnexpectedStep (Option α) :=
  match J stepID with
  | none => .ok none
  | some row => if stepName ≠ row.name then .error ⟨stepID, stepName, row.name⟩ else .ok (some row.answer)

/-- `DoesPatchExists`; `none` is `ErrNoRows`. -/
def doesPatchExists (J : Journal α) (stepID : ℕ) : Option String := (J stepID).map (·.name)

/-- `SysDB.Patch`: whether the code is patched, and the checkpoints afterwards. -/
def sysdbPatch [Inhabited α] (patchName : String) (J : Journal α) (stepID : ℕ) : Bool × Journal α :=
  match doesPatchExists J stepID with
  | none => (true, J.insert stepID ⟨patchName, default⟩)
  | some functionName => (functionName = patchName, J)

def prefixedPatchName (patchName : String) : String := "DBOS.patch-" ++ patchName

/-- `Patch`: the next step ID is taken if the code is patched. -/
def patch [Inhabited α] (p : String) (J : Journal α) (n : ℕ) : Bool × Journal α × ℕ :=
  let (patched, J) := sysdbPatch (prefixedPatchName p) J n
  (patched, J, if patched then n + 1 else n)

/-- `DeprecatePatch`: the next step ID afterwards. -/
def deprecatePatch (p : String) (J : Journal α) (n : ℕ) : ℕ :=
  if doesPatchExists J n = some (prefixedPatchName p) then n + 1 else n

/-! ### An execution -/

inductive Input (α : Type)
  /-- the operation is done, with this answer -/
  | answer (a : α)
  /-- the same, but its acknowledgement is lost -/
  | answerLost (a : α)
  /-- the operation has nothing to consume yet, and looks for its deadline -/
  | deadline (a : α)
  deriving DecidableEq, Repr

inductive Outcome
  | crashed
  | returned
  | unexpectedStep (err : UnexpectedStep)
  deriving DecidableEq, Repr

inductive Turn (α : Type)
  | stop (outcome : Outcome)
  /-- the code goes on; an operation has been answered, or `Patch` has -/
  | goto (J : Journal α) (c : Script α) (n : ℕ) (call : Option (Op × ℕ)) (patched : Option (ℕ × Bool))

def perform (i : Input α) (J : Journal α) (o : Op) (k : α → Script α) (n : ℕ) : Turn α :=
  match i with
  | .answer a => .goto (J.insert n ⟨o.name, a⟩) (k a) (n + o.width) (some (o, n)) none
  | .answerLost a => .goto (J.insert n ⟨o.name, a⟩) (.ask o k) n none none
  | .deadline a =>
    -- only `Recv` and `GetEvent` have one
    if !o.isWait then .goto J (.ask o k) n none none
    else
      match checkOperationExecution J (n + 1) sleepName with
      | .error err => .stop (.unexpectedStep err)
      | .ok (some _) => .goto J (.ask o k) n none none
      | .ok none => .goto (J.insert (n + 1) ⟨sleepName, a⟩) (.ask o k) n none none

def turn [Inhabited α] (p : String) (i : Input α) (J : Journal α) (n : ℕ) : Script α → Turn α
  | .done => .stop .returned
  | .ask o k =>
    match checkOperationExecution J n o.name with
    | .error err => .stop (.unexpectedStep err)
    | .ok (some a) => .goto J (k a) (n + o.width) (some (o, n)) none
    | .ok none => perform i J o k n
  | .patch k =>
    let (patched, J', n') := patch p J n
    match i with
    | .answerLost _ => .goto J' (.patch k) n none none
    | _ => .goto J' (k patched) n' none (some (n, patched))
  | .deprecatePatch k => .goto J k (deprecatePatch p J n) none none

/-- An execution: the checkpoints it leaves, the operations with their step IDs, the last one included,
and what `Patch` has returned. -/
structure Result (α : Type) where
  journal : Journal α
  calls : List (Op × ℕ)
  patches : List (ℕ × Bool)
  outcome : Outcome

def Script.current (n : ℕ) : Script α → List (Op × ℕ)
  | .ask o _ => [(o, n)]
  | _ => []

/-- One execution from a point of the code on; it dies when the inputs end. -/
def run [Inhabited α] (p : String) : List (Input α) → Journal α → Script α → ℕ → Result α
  | [], J, c, n => ⟨J, c.current n, [], .crashed⟩
  | i :: is, J, c, n =>
    match turn p i J n c with
    | .stop outcome => ⟨J, c.current n, [], outcome⟩
    | .goto J' c' n' call patched =>
      let r := run p is J' c' n'
      { r with calls := call.toList ++ r.calls, patches := patched.toList ++ r.patches }

def left [Inhabited α] (p : String) (c : Script α) (J : Journal α) (runs : List (List (Input α))) : Journal α :=
  runs.foldl (fun J is => (run p is J c 0).journal) J

end Dbos.Patch
