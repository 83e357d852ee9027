import DbosTransact.Lib.JsonText
import DbosTransact.Serialization.Errors

/-!
# Values in listings

`decodeListingValue` reads a stored value for display, and `listingValueJSON` writes it as JSON: a string that
is valid JSON is taken for the text of a value and passed on as it is. `json.Valid` and `json.Unmarshal` refuse
a text that is nested too deeply, and read numbers as 64-bit floats. What `json.Marshal` writes is assumed
to denote what it is given.
-/

namespace Dbos.Serialization

open Json

mutual

/-- The nesting of arrays and objects. -/
def depth : Json → ℕ
  | .array items => depthItems items + 1
  | .object fields => depthFields fields + 1
  | _ => 0

def depthItems : List Json → ℕ
  | [] => 0
  | j :: items => max (depth j) (depthItems items)

def depthFields : List (String × Json) → ℕ
  | [] => 0
  | f :: fields => max (depth f.2) (depthFields fields)

end

/-- The value of a text that the scanner of Go accepts. -/
def scan (s : String) : Option Json := (Json.read s).filter fun j => depth j ≤ 10000

/-- `json.Marshal`, of values in untyped variables. -/
structure Marshaler where
  marshal : Json → Option String
  read_marshal : ∀ {j s}, marshal j = some s → Json.read s = some j

/-- A value of type `any`, as far as the listings go: a decoded one is given by what it is written as. -/
inductive Listed
  | nil
  | string (s : String)
  | value (written : Json)

/-- `json.Unmarshal` into an `any`; a number out of range is an error. -/
def unmarshal (s : String) : Option Listed :=
  (scan s).bind fun
    | .null => some .nil
    | .string s => some (.string s)
    | j => j.roundTrip.map .value

structure CustomSerializer where
  name : String
  decode : String → Option Listed

/-- The bytes of a text, and the text of bytes. -/
def bytes (s : String) : List UInt8 := s.toUTF8.data.toList

def ofBytes (bs : List UInt8) : Option String := String.fromUTF8? ⟨bs.toArray⟩

/-- `Encode` of the JSON serializer, of nil or of a value with the JSON text `text`. -/
def encodeJSON (portable : Bool) (text : Option String) : String :=
  match text with
  | none => if portable then "null" else nilMarker
  | some t => if portable then t else Base64.encodeToString (bytes t)

variable (customSer : Option CustomSerializer) (M : Marshaler)

/-- `decodeListingValue`: what cannot be decoded is shown as it is stored. Gob is left to `decodeGob`. -/
def decodeListingValue (decodeGob : String → Option Listed) (encoded storedSerialization : String) : Listed :=
  if storedSerialization = portableSerializerName then (unmarshal encoded).getD (.string encoded)
  else if customSer.any fun c => c.name = storedSerialization then
    (customSer.bind fun c => c.decode encoded).getD (.string encoded)
  else if storedSerialization = "DBOS_GOB" then (decodeGob encoded).getD (.string encoded)
  else if storedSerialization = "" ∨ storedSerialization = "DBOS_JSON" then
    if encoded = nilMarker then .nil
    else .string (((Base64.decodeString encoded).bind ofBytes).getD encoded)
  else .string encoded

namespace Marshaler

def listingValueJSON : Listed → Option String
  | .nil => M.marshal .null
  | .string s => if (scan s).isSome then some s else M.marshal (.string s)
  | .value j => M.marshal j

end Marshaler

/-! ### Values that are shown -/

/-- The serialization under which the format is stored. -/
def IsFormat (portable : Bool) (serialization : String) : Prop :=
  if portable then serialization = portableSerializerName
  else serialization = "" ∨ serialization = "DBOS_JSON"

/-- The value of what is encoded. -/
def valueOf : Option String → Option Json
  | none => some .null
  | some t => Json.read t

/-- Not nested too deeply and, in the portable format, no string that is itself JSON, and no number that is
not read back from a float as it was; a number out of range is no harm, since the text is then shown as it is. -/
def Shown (portable : Bool) (v : Json) : Prop :=
  depth v ≤ 10000 ∧
    (portable = true →
      match v with
      | .string s => scan s = none
      | v => v.roundTrip = none ∨ v.roundTrip = some v)

theorem scan_eq {s : String} {j : Json} (h : Json.read s = some j) :
    scan s = if depth j ≤ 10000 then some j else none := by
  simp [scan, h, Option.filter_some]

theorem ofBytes_bytes (s : String) : ofBytes (bytes s) = some s := by
  simp only [ofBytes, bytes, Array.toArray_toList]
  exact dif_pos s.isValidUTF8

namespace Marshaler

variable {M}

theorem denotes_marshal_iff {j v : Json} (h : (M.marshal v).isSome) :
    (M.marshal j).bind Json.read = some v ↔ j = v := by
  constructor
  · intro hj
    obtain ⟨s, hs, hread⟩ := Option.bind_eq_some_iff.1 hj
    exact Option.some.inj ((M.read_marshal hs).symm.trans hread)
  · rintro rfl
    obtain ⟨s, hs⟩ := Option.isSome_iff_exists.1 h
    rw [hs, Option.bind_some, M.read_marshal hs]

/-- A text of the value, shown as a string. -/
theorem denotes_text_iff {t : String} {v : Json} (hread : Json.read t = some v) (h : (M.marshal v).isSome) :
    (M.listingValueJSON (.string t)).bind Json.read = some v ↔ depth v ≤ 10000 := by
  simp only [listingValueJSON, scan_eq hread]
  by_cases deep : depth v ≤ 10000
  · simp [deep, hread]
  · simp only [deep, ↓reduceIte, Option.isSome_none, Bool.false_eq_true, iff_false,
      denotes_marshal_iff h]
    rintro rfl
    exact deep (Nat.zero_le _)

theorem denotes_string_iff {s : String} (h : (M.marshal (.string s)).isSome) :
    (M.listingValueJSON (.string s)).bind Json.read = some (.string s) ↔ scan s = none := by
  simp only [listingValueJSON]
  cases hs : scan s with
  | none => simp [denotes_marshal_iff h]
  | some j => simp [Json.read_ne]

theorem denotes_value_iff {t : String} {v : Json} (hread : Json.read t = some v)
    (h : (M.marshal v).isSome) :
    (M.listingValueJSON ((unmarshal t).getD (.string t))).bind Json.read = some v ↔ Shown true v := by
  by_cases deep : depth v ≤ 10000
  · have scanned : scan t = some v := by rw [scan_eq hread, if_pos deep]
    have decoded : (M.listingValueJSON ((v.roundTrip.map .value).getD (.string t))).bind Json.read = some v ↔
        v.roundTrip = none ∨ v.roundTrip = some v := by
      cases v.roundTrip with
      | none => simp [denotes_text_iff hread h, deep]
      | some w => simp [listingValueJSON, denotes_marshal_iff h]
    simp only [Shown, deep, true_and, forall_const, unmarshal, scanned, Option.bind_some]
    cases v with
    | null => simp [listingValueJSON, denotes_marshal_iff h, Json.roundTrip]
    | string s => simp [denotes_string_iff h]
    | _ => exact decoded
  · have refused : unmarshal t = none := by rw [unmarshal, scan_eq hread, if_neg deep, Option.bind_none]
    rw [refused, Option.getD_none, denotes_text_iff hread h]
    simp [Shown, deep]

end Marshaler

/-- A value stored in one of the two formats is shown as JSON that denotes it, exactly if it is nested no more
than 10000 levels deep and, in the portable format, is no string that is itself JSON and keeps its numbers. -/
theorem listed_denotes_iff (customSer : Option CustomSerializer) (decodeGob : String → Option Listed)
    (M : Marshaler) {portable : Bool} {serialization : String} (hformat : IsFormat portable serialization)
    (hcustom : ∀ c ∈ customSer, c.name ≠ serialization) {text : Option String} {v : Json}
    (hvalue : valueOf text = some v) (hv : (M.marshal v).isSome) :
    (M.listingValueJSON (decodeListingValue customSer decodeGob (encodeJSON portable text)
      serialization)).bind Json.read = some v ↔ Shown portable v := by
  cases portable with
  | true =>
    obtain rfl : serialization = portableSerializerName := hformat
    simp only [decodeListingValue, ↓reduceIte]
    cases text with
    | none =>
      cases hvalue
      exact M.denotes_value_iff (t := "null") rfl hv
    | some t => exact M.denotes_value_iff hvalue hv
  | false =>
    have names : serialization ≠ portableSerializerName ∧ serialization ≠ "DBOS_GOB" := by
      rcases hformat with rfl | rfl <;> decide
    have others : (customSer.any fun c => c.name = serialization) = false :=
      (Option.any_eq_false _ _).2 fun c hc => decide_eq_false (hcustom c hc)
    have shown : Shown false v ↔ depth v ≤ 10000 := by simp [Shown]
    have known : serialization = "" ∨ serialization = "DBOS_JSON" := hformat
    simp only [decodeListingValue, if_neg names.1, if_neg names.2, others, if_pos known, shown,
      Bool.false_eq_true, ↓reduceIte]
    cases text with
    | none =>
      cases hvalue
      simp [encodeJSON, Marshaler.listingValueJSON, M.denotes_marshal_iff hv, depth]
    | some t =>
      have stored : encodeJSON false (some t) = Base64.encodeToString (bytes t) := rfl
      rw [stored, if_neg (Formats.encodeToString_ne _), Base64.decodeString_encodeToString,
        Option.bind_some, ofBytes_bytes, Option.getD_some, M.denotes_text_iff hvalue hv]

section Example

/-- Writes truth values. -/
private def truths : Marshaler where
  marshal
    | .bool b => some (if b then "true" else "false")
    | _ => none
  read_marshal {j s} h := by
    cases j with
    | bool b =>
      cases b <;> cases h <;> rfl
    | _ => cases h

private def isString (s : String) : Json → Bool
  | .string s' => s' = s
  | _ => false

private theorem eq_string {j : Option Json} {s : String} (h : j.any (isString s) = true) : j = some (.string s) := by
  obtain ⟨v, rfl, hv⟩ := (Option.any_eq_true _ _).1 h
  cases v <;> simp_all [isString]

/-- The string `true` and the truth value are shown alike. -/
theorem listed_alike :
    valueOf (some "\"true\"") = some (.string "true") ∧ valueOf (some "true") = some (.bool true) ∧
      ∀ text ∈ [some "\"true\"", some "true"],
        truths.listingValueJSON (decodeListingValue none (fun _ => none) (encodeJSON true text)
          portableSerializerName) = some "true" := by
  -- the kernel reads the text; unfolding `Json.read` for `rfl` takes seconds
  exact ⟨eq_string (by decide +kernel), rfl, by decide +kernel⟩

/-- A truth value is shown in the default format. -/
theorem listed_denotes_truth :
    (truths.listingValueJSON (decodeListingValue none (fun _ => none) (encodeJSON false (some "true"))
      "DBOS_JSON")).bind Json.read = some (.bool true) := by
  have format : IsFormat false "DBOS_JSON" := Or.inr rfl
  exact (listed_denotes_iff none (fun _ => none) truths format (by simp) rfl rfl).2
    ⟨Nat.zero_le _, by simp⟩

end Example

end Dbos.Serialization
