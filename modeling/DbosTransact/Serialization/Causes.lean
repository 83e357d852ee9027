import DbosTransact.Serialization.Errors

/-!
# The classification of stored errors

`errors.Is` compares an error, and everything it wraps, with a target. A stored DBOS error keeps its own code
and, in the Go format, the kind of its cause; everything else that it wraps is gone.
-/

namespace Dbos

def errorCodes : List ErrorCode :=
  [.conflictingID, .initialization, .nonExistentWorkflow, .unexpectedWorkflow, .workflowCancelled,
    .unexpectedStep, .awaitedWorkflowCancelled, .conflictingRegistration, .workflowUnexpectedType,
    .workflowExecution, .stepExecution, .deadLetterQueue, .maxStepRetriesExceeded, .queueDeduplicated,
    .patchingNotEnabled, .timeout, .noApplicationVersions, .queueNotFound, .scheduleNotFound,
    .invalidOption]

def parseErrorCode (s : String) : Option ErrorCode := errorCodes.find? (·.string = s)

theorem parseErrorCode_string (c : ErrorCode) : parseErrorCode c.string = some c := by
  cases c <;> decide +kernel

theorem ErrorCode.string_inj {c c' : ErrorCode} : c.string = c'.string ↔ c = c' := by
  constructor
  · intro h
    have found := parseErrorCode_string c
    rw [h, parseErrorCode_string] at found
    exact (Option.some.inj found).symm
  · rintro rfl
    rfl

theorem ErrorCode.string_ne_empty (c : ErrorCode) : c.string ≠ "" := by
  cases c <;> decide

/-- An error as a constructor builds it, with the cause that it is given. -/
def DbosError.caused (d : DbosError) : Option GoError → GoError
  | none => .leaf (.dbos d)
  | some cause => d.withCause cause

namespace Serialization

inductive Target
  /-- the sentinel of a code -/
  | code (c : ErrorCode)
  /-- `context.Canceled` -/
  | canceled
  /-- `context.DeadlineExceeded` -/
  | deadlineExceeded
  deriving DecidableEq

/-- A node is the target, or its `Is` says so. -/
def Target.meets {υ : Type} (t : Target) : Node υ → Bool
  | .dbos e =>
    match t with
    | .code c => e.code = c
    | _ => false
  | .portable e =>
    match t with
    | .code c => e.name = c.string
    | _ => false
  | .canceled => t = .canceled
  | .deadlineExceeded => t = .deadlineExceeded
  | .plain _ | .other _ => false

/-- `errors.Is`. -/
def errorsIs {υ : Type} (e : Err υ) (t : Target) : Bool := e.any t.meets

def toNode : ErrorNode → Node ErrorNode
  | .dbos e => .dbos e
  | .canceled => .canceled
  | .deadlineExceeded => .deadlineExceeded
  | n => .other n

def toErr (e : GoError) : Err ErrorNode := e.map toNode

/-- The types of the other nodes: none is nil, and none has an `As` of its own. -/
def goTypes : ErrorTypes ErrorNode where
  render := ErrorNode.render
  isNil _ := false
  asDbos _ := none
  asPortable _ := none

/-! ### The comparison -/

theorem errorsIs_toErr {t : Target} {p : ErrorNode → Bool} (h : ∀ n, t.meets (toNode n) = p n)
    (e : GoError) : errorsIs (toErr e) t = e.any p := by
  rw [errorsIs, toErr, ErrorTree.any_map]
  congr 1
  funext n
  exact h n

theorem errorsIs_code (e : GoError) (c : ErrorCode) : errorsIs (toErr e) (.code c) = e.isCode c :=
  errorsIs_toErr (by intro n; cases n <;> rfl) e

theorem errorsIs_canceled (e : GoError) : errorsIs (toErr e) .canceled = e.isCanceled :=
  errorsIs_toErr (by intro n; cases n <;> rfl) e

theorem errorsIs_deadlineExceeded (e : GoError) :
    errorsIs (toErr e) .deadlineExceeded = e.isDeadlineExceeded :=
  errorsIs_toErr (by intro n; cases n <;> rfl) e

/-! ### What is stored of an error -/

def record (d : DbosError) : Option GoError → DbosError
  | none => d
  | some cause =>
    { d with
      causeKind :=
        if cause.isCanceled then some .canceled
        else if cause.isDeadlineExceeded then some .deadline
        else none }

theorem toErr_caused (d : DbosError) (cause : Option GoError) :
    toErr (d.caused cause) = .leaf (.dbos (record d cause)) ∨
      ∃ c, toErr (d.caused cause) = .wrap (.dbos (record d cause)) c := by
  cases cause with
  | none => exact .inl rfl
  | some cause => exact .inr ⟨toErr cause, rfl⟩

theorem errorsIs_caused (d : DbosError) (cause : Option GoError) (t : Target) :
    errorsIs (toErr (d.caused cause)) t =
      (t.meets (.dbos d : Node ErrorNode) || cause.any fun c => errorsIs (toErr c) t) := by
  cases cause with
  | none => exact (Bool.or_false _).symm
  | some cause => cases t <;> rfl

/-- What the Go format answers: the code, and the cause that the kind names. -/
theorem errorsIs_restoreWrappedCause (r : DbosError) (t : Target) :
    errorsIs (restoreWrappedCause (.leaf (.dbos r) : Err ErrorNode)) t =
      match t with
      | .code c => decide (r.code = c)
      | .canceled => decide (r.causeKind = some .canceled)
      | .deadlineExceeded => decide (r.causeKind = some .deadline) := by
  unfold restoreWrappedCause
  rcases hk : r.causeKind with _ | _ | _ <;> cases t <;>
    simp [errorsIs, ErrorTree.any, Target.meets, hk]

variable {F : Formats ErrorNode} {d : DbosError} {cause : Option GoError}

theorem exported_caused : F.exported (toErr (d.caused cause)) = .leaf (.dbos (record d cause)) := by
  rcases toErr_caused d cause with h | ⟨c, h⟩
  · rw [h, (F.exported_dbos _ (.leaf .canceled)).1]
  · rw [h, (F.exported_dbos _ c).2]

theorem envelope_caused (hF : F.types = goTypes) :
    F.envelope (toErr (d.caused cause)) = portableFromDBOSError (record d cause) := by
  have none : (toErr (d.caused cause)).first? (Node.asPortable F.types) = none := by
    rw [hF]
    refine ErrorTree.first?_map_eq_none ?_ _
    intro n
    cases n <;> rfl
  have root : (toErr (d.caused cause)).first? (Node.asDbos F.types) = some (record d cause) := by
    rcases toErr_caused d cause with h | ⟨c, h⟩
    · rw [h]
      rfl
    · rw [h, ErrorTree.first?, Node.asDbos, Option.some_or]
  rw [Formats.envelope, none, root]

/-! ### The targets that survive -/

/-- The answer for a target is kept: a code that the error wraps is its own, a cancellation is stored in
the Go format, and a deadline is too, unless the error wraps a cancellation as well. -/
def Survives (serialization : String) (d : DbosError) (cause : Option GoError) : Target → Prop
  | .code c => cause.any (GoError.isCode c) = true → d.code = c
  | .canceled => serialization = portableSerializerName → cause.any GoError.isCanceled = false
  | .deadlineExceeded =>
    cause.any GoError.isDeadlineExceeded = true →
      serialization ≠ portableSerializerName ∧ cause.any GoError.isCanceled = false

theorem errorsIs_caused_eq (d : DbosError) (cause : Option GoError) (t : Target) :
    errorsIs (toErr (d.caused cause)) t =
      match t with
      | .code c => decide (d.code = c) || cause.any (GoError.isCode c)
      | .canceled => cause.any GoError.isCanceled
      | .deadlineExceeded => cause.any GoError.isDeadlineExceeded := by
  rw [errorsIs_caused]
  cases t with
  | code c => simp only [Target.meets, errorsIs_code]
  | canceled => simp only [Target.meets, errorsIs_canceled, Bool.false_or]
  | deadlineExceeded => simp only [Target.meets, errorsIs_deadlineExceeded, Bool.false_or]

/-- The code of the error alone answers as the whole error does. -/
theorem code_kept_iff (serialization : String) (d : DbosError) (cause : Option GoError) (c : ErrorCode) :
    decide (d.code = c) = errorsIs (toErr (d.caused cause)) (.code c) ↔
      Survives serialization d cause (.code c) := by
  rw [errorsIs_caused_eq]
  simp only [Survives]
  by_cases own : d.code = c <;> cases cause.any (GoError.isCode c) <;> simp [own]

@[simp] theorem record_code (d : DbosError) (cause : Option GoError) : (record d cause).code = d.code := by
  cases cause <;> rfl

theorem record_causeKind (hd : d.causeKind = none) :
    (record d cause).causeKind =
      if cause.any GoError.isCanceled then some .canceled
      else if cause.any GoError.isDeadlineExceeded then some .deadline
      else none := by
  cases cause with
  | none => exact hd
  | some c => rfl

theorem kept_gob_iff {serialization : String} (hs : serialization ≠ portableSerializerName)
    (hd : d.causeKind = none) (t : Target) :
    errorsIs (restoreWrappedCause (.leaf (.dbos (record d cause)) : Err ErrorNode)) t =
        errorsIs (toErr (d.caused cause)) t ↔
      Survives serialization d cause t := by
  rw [errorsIs_restoreWrappedCause]
  cases t with
  | code c =>
    simp only [record_code]
    exact code_kept_iff serialization d cause c
  | canceled =>
    simp only [errorsIs_caused_eq, record_causeKind hd, Survives, hs]
    cases cause.any GoError.isCanceled <;> cases cause.any GoError.isDeadlineExceeded <;> simp
  | deadlineExceeded =>
    simp only [errorsIs_caused_eq, record_causeKind hd, Survives, ne_eq, hs]
    cases cause.any GoError.isCanceled <;> cases cause.any GoError.isDeadlineExceeded <;> simp

theorem kept_envelope_iff {pe : PortableWorkflowError ErrorNode}
    (hpe : pe.name = d.code.string) (t : Target) :
    errorsIs (.leaf (.portable pe)) t = errorsIs (toErr (d.caused cause)) t ↔
      Survives portableSerializerName d cause t := by
  cases t with
  | code c =>
    simp only [errorsIs, ErrorTree.any, Target.meets, hpe, ErrorCode.string_inj]
    exact code_kept_iff portableSerializerName d cause c
  | canceled =>
    simp only [errorsIs_caused_eq, Survives, true_implies]
    exact eq_comm
  | deadlineExceeded =>
    simp only [errorsIs_caused_eq, Survives, ne_eq, not_true_eq_false, false_and, imp_false,
      Bool.not_eq_true]
    exact eq_comm

/-- A DBOS error that a constructor built around any cause, stored in a format that can encode it, is read
back; and a target matches what is read back as it matches the error exactly if it survives. -/
theorem classification_kept_iff (F : Formats ErrorNode) (hF : F.types = goTypes) (serialization : String)
    (d : DbosError) (hd : d.causeKind = none) (cause : Option GoError)
    (hgob : serialization ≠ portableSerializerName → (F.gobEncode (toErr (d.caused cause))).isSome)
    (hjson : serialization = portableSerializerName →
      (F.marshal (F.envelope (toErr (d.caused cause)))).isSome) :
    ∃ e, F.deserializeWorkflowError
        (some (F.serializeWorkflowError (some (toErr (d.caused cause))) serialization)) = some e ∧
      ∀ t, errorsIs e t = errorsIs (toErr (d.caused cause)) t ↔ Survives serialization d cause t := by
  by_cases hs : serialization = portableSerializerName
  · subst hs
    have hname : (F.envelope (toErr (d.caused cause))).name = d.code.string := by
      rw [envelope_caused hF]
      cases cause <;> rfl
    obtain ⟨pe, hpe, read⟩ :=
      F.deserialize_envelope (by rw [hname]; exact d.code.string_ne_empty) (hjson rfl)
    exact ⟨_, read, kept_envelope_iff (hpe.trans hname)⟩
  · have hnil : F.isNilValue (toErr (d.caused cause)) = false := by
      rcases toErr_caused d cause with h | ⟨c, h⟩ <;> rw [h] <;> rfl
    refine ⟨_, F.deserialize_gob hs hnil (hgob hs), ?_⟩
    rw [exported_caused]
    exact kept_gob_iff hs hd

section Example

private def rootRecord : GoError → DbosError
  | .leaf (.dbos d) | .wrap (.dbos d) _ => d
  | _ => { message := "", code := .initialization }

private def reread (e : GoError) (serialization : String) : Option (Err ErrorNode) :=
  let F := oneError goTypes (rootRecord e)
  F.deserializeWorkflowError (some (F.serializeWorkflowError (some (toErr e)) serialization))

private def duplicate : GoError := newWorkflowExecutionError "wf" (newQueueDeduplicatedError "wf" "q" "k")

private def stopped : GoError := newWorkflowCancelledError "wf" (some (.leaf .canceled))

private def late : GoError :=
  newStepExecutionError "wf" "s" (.join (.leaf .canceled) (.leaf .deadlineExceeded))

/-- The code that an execution error wraps, the cancellation of a portable workflow, and the deadline of a
step that was canceled as well. -/
theorem classification_lost :
    (errorsIs (toErr duplicate) (.code .queueDeduplicated) = true ∧
      (reread duplicate "DBOS_GOB").map (errorsIs · (.code .queueDeduplicated)) = some false) ∧
    (errorsIs (toErr stopped) .canceled = true ∧
      (reread stopped portableSerializerName).map (errorsIs · .canceled) = some false) ∧
    errorsIs (toErr late) .deadlineExceeded = true ∧
      (reread late "DBOS_GOB").map (errorsIs · .deadlineExceeded) = some false := by
  decide +kernel

private def cancellation : DbosError :=
  { message := "Workflow wf was cancelled", code := .workflowCancelled, workflowID := "wf" }

private def deadline : Option GoError := some (.leaf .deadlineExceeded)

private def formats : Formats ErrorNode := oneError goTypes (record cancellation deadline)

/-- In the Go format, a cancelled workflow is read back as a cancelled workflow whose deadline passed. -/
theorem classification_kept_timeout :
    newWorkflowCancelledError "wf" deadline = cancellation.caused deadline ∧
      ∃ e, formats.deserializeWorkflowError
          (some (formats.serializeWorkflowError (some (toErr (cancellation.caused deadline))) "DBOS_GOB")) =
            some e ∧
        ∀ t, errorsIs e t = errorsIs (toErr (cancellation.caused deadline)) t := by
  refine ⟨by decide +kernel, ?_⟩
  obtain ⟨e, read, kept⟩ := classification_kept_iff formats rfl "DBOS_GOB" cancellation rfl deadline
    (fun _ => by decide +kernel) (fun h => absurd h (by decide))
  refine ⟨e, read, ?_⟩
  intro t
  refine (kept t).2 ?_
  cases t with
  | code c => exact fun h => absurd h (by simp [deadline, GoError.isCode, ErrorTree.any, GoError.hasCode])
  | canceled => exact fun h => absurd h (by decide)
  | deadlineExceeded => exact fun _ => ⟨by decide, rfl⟩

end Example

end Serialization

end Dbos
