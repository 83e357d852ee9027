import DbosTransact.Lib.Base64
import DbosTransact.Replay.Code

/-!
# Stored errors

`deserializeWorkflowError` finds out by itself which of three formats a text is in: the gob encoding in
base64, the portable JSON envelope, and the message of the error for what cannot be encoded. The empty text
stands for no error. What gob and JSON do is assumed (`Formats`); base64 is concrete, so that no envelope and
no nil marker is ever taken for a gob encoding.
-/

namespace Dbos.Serialization

open Relational

def portableSerializerName : String := "portable_json"

def nilMarker : String := "__DBOS_NIL"

/-- A value of type `any`, where `υ` stands for the values of the program's own types. -/
inductive Any (υ : Type)
  | nil
  | int (n : Int)
  /-- a map from strings to strings and integers -/
  | data (fields : List (String × (String ⊕ Int)))
  | other (u : υ)
  deriving DecidableEq

structure PortableWorkflowError (υ : Type) where
  name : String
  message : String
  code : Any υ := .nil
  data : Any υ := .nil
  deriving DecidableEq

inductive Node (υ : Type)
  | dbos (e : DbosError)
  | portable (e : PortableWorkflowError υ)
  /-- `plainError` -/
  | plain (message : String)
  /-- `context.Canceled` -/
  | canceled
  /-- `context.DeadlineExceeded` -/
  | deadlineExceeded
  /-- a value of any other type -/
  | other (u : υ)
  deriving DecidableEq

abbrev Err (υ : Type) := ErrorTree (Node υ)

/-- `Error.Error`. -/
def dbosText (e : DbosError) : String := ErrorNode.render (.dbos e) none

structure ErrorTypes (υ : Type) where
  /-- `Error()`, over the text of what the value wraps -/
  render : υ → Option String → String
  /-- the value is a nil pointer, slice, map, channel or function -/
  isNil : υ → Bool
  /-- `As(**Error)` of a type with an `As` of its own -/
  asDbos : υ → Option DbosError
  /-- `As(**PortableWorkflowError)` of such a type -/
  asPortable : υ → Option (PortableWorkflowError υ)

namespace Node

variable {υ : Type} (T : ErrorTypes υ)

def render : Node υ → Option String → String
  | dbos e, _ => dbosText e
  | portable e, _ => e.message
  | plain message, _ => message
  | canceled, _ => ErrorNode.render .canceled none
  | deadlineExceeded, _ => ErrorNode.render .deadlineExceeded none
  | other u, cause => T.render u cause

/-- The node is a `*Error`. -/
def asDbos : Node υ → Option DbosError
  | dbos e => some e
  | other u => T.asDbos u
  | _ => none

/-- The node is a `*PortableWorkflowError`. -/
def asPortable : Node υ → Option (PortableWorkflowError υ)
  | portable e => some e
  | other u => T.asPortable u
  | _ => none

end Node

structure Formats (υ : Type) where
  types : ErrorTypes υ
  /-- gob; an error whose type is not registered, say, is not encoded -/
  gobEncode : Err υ → Option (List UInt8)
  /-- gob; the value that is decoded need not be an error -/
  gobDecode : List UInt8 → Option (Option (Err υ))
  /-- the value with its exported fields only -/
  exported : Err υ → Err υ
  exported_dbos : ∀ e cause, exported (.leaf (.dbos e)) = .leaf (.dbos e) ∧
    exported (.wrap (.dbos e) cause) = .leaf (.dbos e)
  gobDecode_gobEncode : ∀ {e bytes}, gobEncode e = some bytes → gobDecode bytes = some (some (exported e))
  gobDecode_nil : gobDecode [] = none
  /-- `json.Marshal` -/
  marshal : PortableWorkflowError υ → Option String
  /-- `json.Unmarshal` -/
  unmarshal : String → Option (PortableWorkflowError υ)
  marshal_object : ∀ {pe s}, marshal pe = some s → ∃ cs, s.toList = '\x7b' :: cs
  unmarshal_marshal : ∀ {pe s}, marshal pe = some s →
    ∃ pe', unmarshal s = some pe' ∧ pe'.name = pe.name ∧ pe'.message = pe.message

def portableFromDBOSError {υ : Type} (e : DbosError) : PortableWorkflowError υ :=
  let putStr (k v : String) : List (String × (String ⊕ Int)) := if v ≠ "" then [(k, .inl v)] else []
  let putInt (k : String) (v : Int) : List (String × (String ⊕ Int)) :=
    if v ≠ 0 then [(k, .inr v)] else []
  let causeKind : Option CauseKind → String
    | none => ""
    | some .canceled => "canceled"
    | some .deadline => "deadline"
  let data :=
    putStr "workflowID" e.workflowID ++
    putStr "destinationID" e.destinationID ++
    putStr "stepName" e.stepName ++
    putStr "queueName" e.queueName ++
    putStr "deduplicationID" e.deduplicationID ++
    putStr "expectedName" e.expectedName ++
    putStr "recordedName" e.recordedName ++
    putStr "causeKind" (causeKind e.causeKind) ++
    putInt "stepID" e.stepID ++
    putInt "maxRetries" e.maxRetries
  { name := e.code.string
    message := dbosText e
    -- the codes are numbered from one
    code := .int (e.code.ctorIdx + 1)
    data := if data.isEmpty then .nil else .data data }

/-- `RestoreWrappedCause`, of a decoded error that is a `*Error`. -/
def restoreWrappedCause {υ : Type} : Err υ → Err υ
  | .leaf (.dbos e) =>
    match e.causeKind with
    | some .canceled => .wrap (.dbos e) (.leaf .canceled)
    | some .deadline => .wrap (.dbos e) (.leaf .deadlineExceeded)
    | none => .leaf (.dbos e)
  | e => e

namespace Formats

variable {υ : Type} (F : Formats υ)

/-- `err.Error()`. -/
def text (e : Err υ) : String := ErrorTree.text (Node.render F.types) e

/-- `isNilValue`, of an error. -/
def isNilValue : Err υ → Bool
  | .leaf (.other u) | .wrap (.other u) _ => F.types.isNil u
  | _ => false

/-- `Encode` of the gob serializer. -/
def encode (e : Err υ) : Option String :=
  if F.isNilValue e then some nilMarker else (F.gobEncode e).map Base64.encodeToString

/-- `Decode` of the gob serializer. -/
def decode (s : String) : Option (Option (Err υ)) :=
  if s = nilMarker then some none else (Base64.decodeString s).bind F.gobDecode

def envelope (e : Err υ) : PortableWorkflowError υ :=
  match e.first? (Node.asPortable F.types) with
  | some pe => pe
  | none =>
    match e.first? (Node.asDbos F.types) with
    | some de => portableFromDBOSError de
    | none => { name := "Portable Error", message := F.text e }

def serializeWorkflowError (err : Option (Err υ)) (serialization : String) : String :=
  match err with
  | none => ""
  | some e =>
    if serialization ≠ portableSerializerName then
      (F.encode e).getD (F.text e)
    else
      (F.marshal (F.envelope e)).getD (F.text e)

def deserializeWorkflowError (errStr : Option String) : Option (Err υ) :=
  match errStr with
  | none => none
  | some s =>
    if s = "" then none
    else
      match F.decode s with
      | some (some e) => some (restoreWrappedCause e)
      | _ =>
        match F.unmarshal s with
        | some pe =>
          if pe.name ≠ "" ∨ pe.message ≠ "" then some (.leaf (.portable pe)) else some (.leaf (.plain s))
        | none => some (.leaf (.plain s))

/-! ### What a text is read back as -/

def parse (s : String) : Option (Err υ) :=
  match F.decode s with
  | some (some e) => some (restoreWrappedCause e)
  | _ => (F.unmarshal s).bind fun pe =>
    if pe.name ≠ "" ∨ pe.message ≠ "" then some (.leaf (.portable pe)) else none

theorem deserializeWorkflowError_some {s : String} (h : s ≠ "") :
    F.deserializeWorkflowError (some s) = some ((F.parse s).getD (.leaf (.plain s))) := by
  simp only [deserializeWorkflowError, parse, if_neg h]
  rcases F.decode s with _ | _ | e
  · rcases F.unmarshal s with _ | pe
    · rfl
    · simp only [Option.bind_some]
      split <;> rfl
  · rcases F.unmarshal s with _ | pe
    · rfl
    · simp only [Option.bind_some]
      split <;> rfl
  · rfl

def readText (s : String) : String := F.text ((F.parse s).getD (.leaf (.plain s)))

theorem text_restoreWrappedCause (e : Err υ) : F.text (restoreWrappedCause e) = F.text e := by
  unfold restoreWrappedCause
  split
  · split <;> rfl
  · rfl

theorem readText_of_decode {s : String} {e : Err υ} (h : F.decode s = some (some e)) :
    F.readText s = F.text e := by
  simp only [readText, parse, h, Option.getD_some, text_restoreWrappedCause]

theorem readText_of_unmarshal {s : String} {pe : PortableWorkflowError υ} (hdecode : F.decode s = none)
    (h : F.unmarshal s = some pe) :
    F.readText s = if pe.name = "" ∧ pe.message = "" then s else pe.message := by
  simp only [readText, parse, hdecode, h, Option.bind_some]
  by_cases blank : pe.name = "" ∧ pe.message = ""
  · simp [blank, text, ErrorTree.text, Node.render]
  · rw [if_neg blank, if_pos (by tauto)]
    rfl

/-! ### The stored forms -/

theorem encodeToString_ne (bytes : List UInt8) : Base64.encodeToString bytes ≠ nilMarker := by
  intro h
  -- an underscore is no digit
  have marker : Base64.decodeString nilMarker = none := by decide +kernel
  have written := Base64.decodeString_encodeToString bytes
  rw [h, marker] at written
  cases written

theorem decode_encodeToString {e : Err υ} {bytes : List UInt8} (h : F.gobEncode e = some bytes) :
    F.decode (Base64.encodeToString bytes) = some (some (F.exported e)) := by
  simp only [decode, if_neg (encodeToString_ne bytes), Base64.decodeString_encodeToString,
    Option.bind_some, F.gobDecode_gobEncode h]

theorem encodeToString_ne_empty {e : Err υ} {bytes : List UInt8} (h : F.gobEncode e = some bytes) :
    Base64.encodeToString bytes ≠ "" := by
  intro empty
  have written := Base64.decodeString_encodeToString bytes
  have none : bytes = [] := by
    rw [empty] at written
    exact (Option.some.inj written).symm
  have found := F.gobDecode_gobEncode h
  rw [none, F.gobDecode_nil] at found
  cases found

/-- No envelope is taken for a gob encoding: a brace is no digit. -/
theorem decode_marshal {pe : PortableWorkflowError υ} {s : String} (h : F.marshal pe = some s) :
    F.decode s = none := by
  obtain ⟨cs, hs⟩ := F.marshal_object h
  have hmarker : s ≠ nilMarker := by
    rintro rfl
    cases hs
  have brace : Base64.decodeString s = none := by
    rw [Base64.decodeString, hs]
    exact Base64.decode_cons_eq_none (by decide) (by decide) cs
  simp only [decode, if_neg hmarker, brace, Option.bind_none]

theorem marshal_ne_empty {pe : PortableWorkflowError υ} {s : String} (h : F.marshal pe = some s) :
    s ≠ "" := by
  obtain ⟨cs, hs⟩ := F.marshal_object h
  rintro rfl
  cases hs

theorem readText_marshal {pe : PortableWorkflowError υ} {s : String} (h : F.marshal pe = some s) :
    F.readText s = if pe.name = "" ∧ pe.message = "" then s else pe.message := by
  obtain ⟨pe', hread, hname, hmessage⟩ := F.unmarshal_marshal h
  rw [F.readText_of_unmarshal (F.decode_marshal h) hread, hname, hmessage]

/-- An error that gob encodes comes back with its exported fields and, if it is a DBOS error, with the
cause that its `CauseKind` names. -/
theorem deserialize_gob {serialization : String} {e : Err υ} (hs : serialization ≠ portableSerializerName)
    (hnil : F.isNilValue e = false) (hgob : (F.gobEncode e).isSome) :
    F.deserializeWorkflowError (some (F.serializeWorkflowError (some e) serialization)) =
      some (restoreWrappedCause (F.exported e)) := by
  obtain ⟨bytes, hbytes⟩ := Option.isSome_iff_exists.1 hgob
  have stored : F.serializeWorkflowError (some e) serialization = Base64.encodeToString bytes := by
    simp [serializeWorkflowError, hs, encode, hnil, hbytes]
  rw [stored, F.deserializeWorkflowError_some (F.encodeToString_ne_empty hbytes), parse,
    F.decode_encodeToString hbytes]
  rfl

theorem deserialize_envelope {e : Err υ} (hname : (F.envelope e).name ≠ "")
    (hjson : (F.marshal (F.envelope e)).isSome) :
    ∃ pe, pe.name = (F.envelope e).name ∧
      F.deserializeWorkflowError (some (F.serializeWorkflowError (some e) portableSerializerName)) =
        some (.leaf (.portable pe)) := by
  obtain ⟨s, hs⟩ := Option.isSome_iff_exists.1 hjson
  obtain ⟨pe, hread, hpe, -⟩ := F.unmarshal_marshal hs
  have stored : F.serializeWorkflowError (some e) portableSerializerName = s := by
    simp [serializeWorkflowError, hs]
  refine ⟨pe, hpe, ?_⟩
  rw [stored, F.deserializeWorkflowError_some (F.marshal_ne_empty hs), parse, F.decode_marshal hs, hread]
  simp only [Option.bind_some, hpe, hname, ne_eq, not_false_eq_true, true_or, ↓reduceIte, Option.getD_some]

/-! ### Errors whose text survives -/

def Plain (s : String) : Prop := s ≠ "" ∧ ∀ e, F.parse s = some e → F.text e = s

/-- The text of the error survives in workflows of a serialization. -/
def Keeps (serialization : String) (e : Err υ) : Prop :=
  if serialization ≠ portableSerializerName then
    if F.isNilValue e then F.readText nilMarker = F.text e
    else
      match F.gobEncode e with
      | some _ => F.text (F.exported e) = F.text e
      | none => F.Plain (F.text e)
  else
    match F.marshal (F.envelope e) with
    | some s =>
      (if (F.envelope e).name = "" ∧ (F.envelope e).message = "" then s else (F.envelope e).message) =
        F.text e
    | none => F.Plain (F.text e)

theorem keeps_dbos {serialization : String} (hs : serialization ≠ portableSerializerName) {d : DbosError}
    {e : Err υ} (he : e = .leaf (.dbos d) ∨ ∃ cause, e = .wrap (.dbos d) cause)
    (hgob : (F.gobEncode e).isSome) : F.Keeps serialization e := by
  obtain ⟨bytes, hbytes⟩ := Option.isSome_iff_exists.1 hgob
  rcases he with rfl | ⟨cause, rfl⟩
  · simp only [Keeps, ne_eq, hs, not_false_eq_true, ↓reduceIte, isNilValue, Bool.false_eq_true, hbytes,
      (F.exported_dbos d (.leaf (.dbos d))).1]
  · simp only [Keeps, ne_eq, hs, not_false_eq_true, ↓reduceIte, isNilValue, Bool.false_eq_true, hbytes,
      (F.exported_dbos d cause).2]
    rfl

theorem plain_iff (s : String) : F.Plain s ↔ s ≠ "" ∧ F.readText s = s := by
  unfold Plain readText
  cases F.parse s with
  | none => simp [text, ErrorTree.text, Node.render]
  | some e => simp

/-- The text survives exactly if something is stored that is read back as it. -/
theorem keeps_iff (serialization : String) (e : Err υ) :
    F.Keeps serialization e ↔
      F.serializeWorkflowError (some e) serialization ≠ "" ∧
        F.readText (F.serializeWorkflowError (some e) serialization) = F.text e := by
  unfold Keeps serializeWorkflowError
  by_cases hname : serialization = portableSerializerName
  · simp only [hname, ne_eq, not_true_eq_false, ↓reduceIte]
    cases hm : F.marshal (F.envelope e) with
    | none => simp only [Option.getD_none, F.plain_iff]
    | some s =>
      simp only [Option.getD_some, F.readText_marshal hm, F.marshal_ne_empty hm, not_false_eq_true, true_and]
  · simp only [hname, ne_eq, not_false_eq_true, ↓reduceIte, encode]
    by_cases hnil : F.isNilValue e
    · have marker : nilMarker ≠ "" := by decide
      simp only [hnil, ↓reduceIte, Option.getD_some, marker, not_false_eq_true, true_and]
    · simp only [hnil, Bool.false_eq_true, ↓reduceIte]
      cases hg : F.gobEncode e with
      | none => simp only [Option.map_none, Option.getD_none, F.plain_iff]
      | some bytes =>
        simp only [Option.map_some, Option.getD_some, F.encodeToString_ne_empty hg, not_false_eq_true,
          F.readText_of_decode (F.decode_encodeToString hg), true_and]

/-! ### Rows -/

def Shows (err : Option (Err υ)) (s : String) : Prop := ∃ e, err = some e ∧ F.text e = s

def stepError (r : OperationRow) : Option (Err υ) := F.deserializeWorkflowError r.recorded.errStr

def workflowError (db : Db) (workflowID : String) : Option (Err υ) :=
  (Code.awaitWorkflowResult db workflowID).bind fun r => F.deserializeWorkflowError r.errStr

theorem shows_deserialize_iff (s t : String) :
    F.Shows (F.deserializeWorkflowError (if s = "" then none else some s)) t ↔
      s ≠ "" ∧ F.readText s = t := by
  by_cases h : s = ""
  · simp [h, Shows, deserializeWorkflowError]
  · simp [h, Shows, F.deserializeWorkflowError_some h, readText]

theorem shows_stepError_iff {r : OperationRow} {s : String} (h : r.error = some s) (t : String) :
    F.Shows (F.stepError r) t ↔ s ≠ "" ∧ F.readText s = t := by
  rw [← F.shows_deserialize_iff, stepError, OperationRow.recorded, h]
  simp only [Option.some.injEq]

theorem shows_workflowError_iff {db : Db} {workflowID : String} {w : WorkflowRow} {s : String}
    (hw : db.status.find? workflowID = some w) (hstatus : w.status = .success ∨ w.status = .error)
    (h : w.error = some s) (t : String) :
    F.Shows (F.workflowError db workflowID) t ↔ s ≠ "" ∧ F.readText s = t := by
  have read : F.workflowError db workflowID =
      F.deserializeWorkflowError (if s = "" then none else some s) := by
    rcases hstatus with hs | hs <;>
      simp [workflowError, Code.awaitWorkflowResult, hw, hs, h, Option.filter_some]
  rw [read, F.shows_deserialize_iff]

end Formats

/-- A step and a workflow that failed are read back with the text of their error exactly if the error
keeps it: encoded by gob, it must not take its text from an unexported field; in the envelope of a
portable workflow, it must have the text of the first portable or DBOS error that it wraps; stored as
its text, the text must not be empty, and must not be the encoding of another error. -/
theorem error_kept_iff {υ : Type} (F : Formats υ) (serialization : String) (e : Err υ) :
    (∀ r : OperationRow, r.error = some (F.serializeWorkflowError (some e) serialization) →
      (F.Shows (F.stepError r) (F.text e) ↔ F.Keeps serialization e)) ∧
    ∀ (db : Db) (workflowID : String) (w : WorkflowRow), db.status.find? workflowID = some w →
      (w.status = .success ∨ w.status = .error) →
      w.error = some (F.serializeWorkflowError (some e) serialization) →
      (F.Shows (F.workflowError db workflowID) (F.text e) ↔ F.Keeps serialization e) := by
  refine ⟨?_, ?_⟩
  · intro r hr
    rw [F.shows_stepError_iff hr, F.keeps_iff]
  · intro db workflowID w hw hstatus hr
    rw [F.shows_workflowError_iff hw hstatus hr, F.keeps_iff]

section Example

/-- Errors of `errors.New` and `fmt.Errorf`. -/
def textTypes : ErrorTypes String where
  render
    | m, none => m
    | m, some cause => m ++ ": " ++ cause
  isNil _ := false
  asDbos _ := none
  asPortable _ := none

/-- Formats that encode one DBOS error and its envelope, and nothing else. -/
def oneError {υ : Type} (T : ErrorTypes υ) (d : DbosError) : Formats υ where
  types := T
  gobEncode
    | .leaf (.dbos e) | .wrap (.dbos e) _ => if e = d then some [0] else none
    | _ => none
  gobDecode bytes := if bytes = [0] then some (some (.leaf (.dbos d))) else none
  exported
    | .wrap (.dbos e) _ => .leaf (.dbos e)
    | e => e
  exported_dbos _ _ := ⟨rfl, rfl⟩
  gobDecode_gobEncode {e bytes} h := by
    split at h
    all_goals first
      | cases h
      | split at h
        · cases h
          subst_vars
          rfl
        · cases h
  gobDecode_nil := rfl
  marshal pe :=
    if pe.name = d.code.string ∧ pe.message = dbosText d then some "\x7benvelope\x7d" else none
  unmarshal s :=
    if s = "\x7benvelope\x7d" then some { name := d.code.string, message := dbosText d } else none
  marshal_object {pe s} h := by
    split at h
    · cases h
      exact ⟨_, rfl⟩
    · cases h
  unmarshal_marshal {pe s} h := by
    split at h
    · rename_i same
      cases h
      exact ⟨_, rfl, same.1.symm, same.2.symm⟩
    · cases h

private def deduplicated : DbosError :=
  { message := "deduplicated", code := .queueDeduplicated, queueName := "orders" }

private def stored : Formats String := oneError textTypes deduplicated

private def failedStep (s : String) : OperationRow :=
  { workflowID := "pay", functionID := 0, functionName := "charge", error := some s }

private def failedWorkflow (s : String) : WorkflowRow :=
  { workflowID := "pay", status := .error, error := some s }

/-- `fmt.Errorf("saving: %w", err)`, of a DBOS error. -/
private def saving : Err String := .wrap (.other "saving") (.leaf (.dbos deduplicated))

/-- `errors.New("")` is read back as no error, and a wrapped DBOS error that a portable workflow stored as
the DBOS error alone. -/
theorem stored_error_lost :
    stored.stepError (failedStep (stored.serializeWorkflowError (some (.leaf (.other ""))) "DBOS_GOB")) =
        none ∧
      stored.text saving = "saving: DBOS Error QueueDeduplicated: deduplicated" ∧
      (stored.stepError
          (failedStep (stored.serializeWorkflowError (some saving) portableSerializerName))).map
          stored.text =
        some "DBOS Error QueueDeduplicated: deduplicated" := by
  decide +kernel

/-- A DBOS error keeps its text. -/
theorem error_kept_iff_dbos :
    stored.Shows
        (stored.stepError
          (failedStep (stored.serializeWorkflowError (some (.leaf (.dbos deduplicated))) "DBOS_GOB")))
        (stored.text (.leaf (.dbos deduplicated))) ∧
      stored.Shows
        (stored.workflowError
          (StatusTable.toDb (.insert .empty
            (failedWorkflow
              (stored.serializeWorkflowError (some (.leaf (.dbos deduplicated))) "DBOS_GOB")))) "pay")
        (stored.text (.leaf (.dbos deduplicated))) := by
  have keeps : stored.Keeps "DBOS_GOB" (.leaf (.dbos deduplicated)) :=
    stored.keeps_dbos (by decide) (.inl rfl) (by decide)
  obtain ⟨step, workflow⟩ := error_kept_iff stored "DBOS_GOB" (.leaf (.dbos deduplicated))
  exact ⟨(step (failedStep _) rfl).2 keeps, (workflow _ "pay" (failedWorkflow _) rfl (.inr rfl) rfl).2 keeps⟩

end Example

end Dbos.Serialization
