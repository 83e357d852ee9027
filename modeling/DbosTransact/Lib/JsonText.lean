import DbosTransact.Lib.Json

/-!
# JSON texts

`read` is the value that a text denotes. The fields of an object are put in the order of their names, of two
fields with one name the later counts, and half a surrogate pair is read as U+FFFD.
-/

namespace Json

/-! ### Strings -/

def hex? (c : Char) : Option ℕ :=
  if '0' ≤ c ∧ c ≤ '9' then some (c.toNat - 48)
  else if 'a' ≤ c ∧ c ≤ 'f' then some (c.toNat - 87)
  else if 'A' ≤ c ∧ c ≤ 'F' then some (c.toNat - 55)
  else none

def escaped? (c : Char) : Option Char :=
  [('"', '"'), ('\\', '\\'), ('/', '/'), ('b', '\x08'), ('f', '\x0c'), ('n', '\n'), ('r', '\r'),
    ('t', '\t')].lookup c

def unit? (a b c d : Char) : Option ℕ := do
  return (← hex? a) * 4096 + (← hex? b) * 256 + (← hex? c) * 16 + (← hex? d)

def push (u : Char ⊕ ℕ) (rest : Option (List (Char ⊕ ℕ) × List Char)) :
    Option (List (Char ⊕ ℕ) × List Char) :=
  rest.map fun r => (u :: r.1, r.2)

/-- The rest of a string: its characters, where `.inr` is a unit of UTF-16, and what follows. -/
def readString : List Char → Option (List (Char ⊕ ℕ) × List Char)
  | [] => none
  | c :: cs =>
    if c = '"' then some ([], cs)
    else if c = '\\' then
      match cs with
      | 'u' :: a :: b :: c :: d :: cs => (unit? a b c d).bind fun u => push (.inr u) (readString cs)
      | c :: cs => (escaped? c).bind fun c => push (.inl c) (readString cs)
      | [] => none
    else if c.toNat < 32 then none
    else push (.inl c) (readString cs)

def decodeUnits : List (Char ⊕ ℕ) → List Char
  | .inl c :: us => c :: decodeUnits us
  | .inr hi :: .inr lo :: us =>
    if hi / 1024 = 54 ∧ lo / 1024 = 55 then
      Char.ofNat (65536 + hi % 1024 * 1024 + lo % 1024) :: decodeUnits us
    else (if hi / 2048 = 27 then '�' else Char.ofNat hi) :: decodeUnits (.inr lo :: us)
  | .inr u :: us => (if u / 2048 = 27 then '�' else Char.ofNat u) :: decodeUnits us
  | [] => []

/-! ### Numbers -/

def digits (ds : List Char) : ℕ := ds.foldl (fun n d => 10 * n + (d.toNat - 48)) 0

def readExponent : List Char → Option (ℤ × List Char)
  | e :: cs =>
    if e = 'e' ∨ e = 'E' then
      let sign : ℤ := if cs.head? = some '-' then -1 else 1
      let cs := if cs.head? = some '-' ∨ cs.head? = some '+' then cs.tail else cs
      let (ds, cs) := cs.span Char.isDigit
      if ds = [] then none else some (sign * digits ds, cs)
    else some (0, e :: cs)
  | [] => some (0, [])

def readNumber (cs : List Char) : Option (ℚ × List Char) := do
  let sign : ℚ := if cs.head? = some '-' then -1 else 1
  let (whole, cs) := (if cs.head? = some '-' then cs.tail else cs).span Char.isDigit
  let point := cs.head? = some '.'
  let (fraction, cs) := if point then cs.tail.span Char.isDigit else ([], cs)
  if whole = [] ∨ (1 < whole.length ∧ whole.head? = some '0') ∨ (point ∧ fraction = []) then none
  let (e, cs) ← readExponent cs
  return (sign * digits (whole ++ fraction) * Float64.power 10 (e - fraction.length), cs)

/-! ### Values -/

def skip (cs : List Char) : List Char := cs.dropWhile fun c => c ∈ [' ', '\t', '\r', '\n']

def setField (name : String) (j : Json) : List (String × Json) → List (String × Json)
  | [] => [(name, j)]
  | (n, i) :: fields =>
    if name < n then (name, j) :: (n, i) :: fields
    else if name = n then (name, j) :: fields
    else (n, i) :: setField name j fields

mutual

def readValue : ℕ → List Char → Option (Json × List Char)
  | 0, _ => none
  | fuel + 1, cs =>
    match skip cs with
    | [] => none
    | c :: cs =>
      if c = '"' then (readString cs).map fun r => (.string (String.ofList (decodeUnits r.1)), r.2)
      else if c = '[' then
        if (skip cs).head? = some ']' then some (.array [], (skip cs).tail)
        else (readItems fuel cs).map fun r => (.array r.1, r.2)
      else if c = '\x7b' then
        if (skip cs).head? = some '\x7d' then some (.object [], (skip cs).tail)
        else (readFields fuel [] cs).map fun r => (.object r.1, r.2)
      else if "null".toList <+: c :: cs then some (.null, cs.drop 3)
      else if "true".toList <+: c :: cs then some (.bool true, cs.drop 3)
      else if "false".toList <+: c :: cs then some (.bool false, cs.drop 4)
      else (readNumber (c :: cs)).map fun r => (.number r.1, r.2)

def readItems : ℕ → List Char → Option (List Json × List Char)
  | 0, _ => none
  | fuel + 1, cs => do
    let item ← readValue fuel cs
    let next := skip item.2
    if next.head? = some ',' then
      let rest ← readItems fuel next.tail
      return (item.1 :: rest.1, rest.2)
    else if next.head? = some ']' then return ([item.1], next.tail)
    else none

def readFields : ℕ → List (String × Json) → List Char → Option (List (String × Json) × List Char)
  | 0, _, _ => none
  | fuel + 1, fields, cs => do
    let name ← if (skip cs).head? = some '"' then readString (skip cs).tail else none
    let colon := skip name.2
    let value ← if colon.head? = some ':' then readValue fuel colon.tail else none
    let fields := setField (String.ofList (decodeUnits name.1)) value.1 fields
    let next := skip value.2
    if next.head? = some ',' then readFields fuel fields next.tail
    else if next.head? = some '\x7d' then return (fields, next.tail)
    else none

end

def read (s : String) : Option Json := do
  let value ← readValue (2 * s.length + 2) s.toList
  if skip value.2 = [] then return value.1 else none

/-! ### A string is shorter than its text -/

theorem length_push {u : Char ⊕ ℕ} {rest : Option (List (Char ⊕ ℕ) × List Char)}
    {r : List (Char ⊕ ℕ) × List Char} {n : ℕ} (hrest : ∀ r, rest = some r → r.1.length < n)
    (h : push u rest = some r) : r.1.length < n + 1 := by
  obtain ⟨r', hr', rfl⟩ := Option.map_eq_some_iff.1 h
  exact Nat.succ_lt_succ (hrest r' hr')

theorem length_readString {cs : List Char} {r : List (Char ⊕ ℕ) × List Char} (h : readString cs = some r) :
    r.1.length < cs.length := by
  fun_induction readString cs generalizing r with
  | case1 | case5 | case6 => cases h
  | case2 cs =>
    cases h
    exact Nat.succ_pos _
  | case3 a b c d cs _ ih =>
    obtain ⟨u, -, h⟩ := Option.bind_eq_some_iff.1 h
    exact (length_push (fun _ => ih) h).trans (by simp only [List.length_cons]; omega)
  | case4 c cs _ _ ih =>
    obtain ⟨c, -, h⟩ := Option.bind_eq_some_iff.1 h
    exact (length_push (fun _ => ih) h).trans (Nat.lt_succ_self _)
  | case7 c cs _ _ _ ih => exact length_push (fun _ => ih) h

theorem length_decodeUnits (us : List (Char ⊕ ℕ)) : (decodeUnits us).length ≤ us.length := by
  fun_induction decodeUnits us <;> simp only [List.length_cons, List.length_nil] at * <;> omega

theorem length_skip (cs : List Char) : (skip cs).length ≤ cs.length :=
  (List.dropWhile_sublist _).length_le

theorem length_of_readValue {fuel : ℕ} {cs rest : List Char} {t : String}
    (h : readValue fuel cs = some (.string t, rest)) : t.length < cs.length := by
  cases fuel with
  | zero => cases h
  | succ fuel =>
    have shorter := length_skip cs
    rw [readValue] at h
    split at h
    · cases h
    · rename_i c cs' hskip
      rw [hskip] at shorter
      split at h
      · obtain ⟨r, hr, heq⟩ := Option.map_eq_some_iff.1 h
        cases heq
        have := length_readString hr
        have := length_decodeUnits r.1
        simp only [List.length_cons, String.length_ofList] at *
        omega
      · -- nothing else is read as a string
        repeat' split at h
        all_goals simp [Option.map_eq_some_iff] at h

theorem read_ne (s : String) : read s ≠ some (.string s) := by
  intro h
  obtain ⟨r, hr, h⟩ := Option.bind_eq_some_iff.1 h
  have last : r.1 = .string s := by
    split at h
    · exact Option.some.inj h
    · cases h
  obtain ⟨j, rest⟩ := r
  subst last
  exact absurd (length_of_readValue hr) (by rw [String.length_toList]; exact lt_irrefl _)

end Json
