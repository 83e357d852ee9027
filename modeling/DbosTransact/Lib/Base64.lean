import Mathlib.Tactic.Common

/-!
# The standard base64 encoding

Three bytes are written as four digits of six bits; a shorter last group is padded with `=`. Reading
skips line ends wherever they stand, and ignores the bits of a last digit that belong to no byte.
-/

namespace Base64

def alphabet : List Char := "ABCDEFGHIJKLMNOPQRSTUVWXYZabcdefghijklmnopqrstuvwxyz0123456789+/".toList

def digit (v : Nat) : Char := alphabet.getD v '='

def value? (c : Char) : Option Nat := alphabet.idxOf? c

def encode : List UInt8 → List Char
  | [] => []
  | [a] => [digit (a.toNat / 4), digit (a.toNat % 4 * 16), '=', '=']
  | [a, b] =>
    [digit (a.toNat / 4), digit (a.toNat % 4 * 16 + b.toNat / 16), digit (b.toNat % 16 * 4), '=']
  | a :: b :: c :: rest =>
    digit (a.toNat / 4) :: digit (a.toNat % 4 * 16 + b.toNat / 16) ::
      digit (b.toNat % 16 * 4 + c.toNat / 64) :: digit (c.toNat % 64) :: encode rest

def firstByte (w x : Nat) : UInt8 := UInt8.ofNat (w * 4 + x / 16)

def secondByte (x y : Nat) : UInt8 := UInt8.ofNat (x % 16 * 16 + y / 4)

def thirdByte (y z : Nat) : UInt8 := UInt8.ofNat (y % 4 * 64 + z)

def decodeGroups : List Char → Option (List UInt8)
  | [] => some []
  | w :: x :: y :: z :: rest => do
    let w ← value? w
    let x ← value? x
    if rest.isEmpty ∧ y = '=' ∧ z = '=' then
      return [firstByte w x]
    let y ← value? y
    if rest.isEmpty ∧ z = '=' then
      return [firstByte w x, secondByte x y]
    let z ← value? z
    let bytes ← decodeGroups rest
    return firstByte w x :: secondByte x y :: thirdByte y z :: bytes
  | _ => none

def isLineEnd (c : Char) : Bool := c == '\n' || c == '\r'

def decode (cs : List Char) : Option (List UInt8) := decodeGroups (cs.filter fun c => !isLineEnd c)

def encodeToString (bytes : List UInt8) : String := String.ofList (encode bytes)

def decodeString (s : String) : Option (List UInt8) := decode s.toList

/-! ### Digits -/

theorem value?_digit {v : Nat} (h : v < 64) : value? (digit v) = some v := by
  have all : ∀ v < 64, value? (digit v) = some v := by decide +kernel
  exact all v h

theorem digit_ne_padding {v : Nat} (h : v < 64) : digit v ≠ '=' := by
  have all : ∀ v < 64, digit v ≠ '=' := by decide +kernel
  exact all v h

theorem isLineEnd_digit {v : Nat} (h : v < 64) : isLineEnd (digit v) = false := by
  have all : ∀ v < 64, isLineEnd (digit v) = false := by decide +kernel
  exact all v h

/-! ### What is written is read back -/

theorem sextets (a b c : UInt8) :
    a.toNat / 4 < 64 ∧ a.toNat % 4 * 16 < 64 ∧ a.toNat % 4 * 16 + b.toNat / 16 < 64 ∧
      b.toNat % 16 * 4 < 64 ∧ b.toNat % 16 * 4 + c.toNat / 64 < 64 ∧ c.toNat % 64 < 64 := by
  have ha := a.toNat_lt
  have hb := b.toNat_lt
  have hc := c.toNat_lt
  omega

-- The lower bits of a digit that belong to the next byte are arbitrary: `r` is zero where the group ends.
theorem firstByte_digits (a : UInt8) {r : Nat} (hr : r < 16) :
    firstByte (a.toNat / 4) (a.toNat % 4 * 16 + r) = a := by
  have h : a.toNat / 4 * 4 + (a.toNat % 4 * 16 + r) / 16 = a.toNat := by omega
  rw [firstByte, h, UInt8.ofNat_toNat]

theorem secondByte_digits (a b : UInt8) {r : Nat} (hr : r < 4) :
    secondByte (a.toNat % 4 * 16 + b.toNat / 16) (b.toNat % 16 * 4 + r) = b := by
  have hb := b.toNat_lt
  have h : (a.toNat % 4 * 16 + b.toNat / 16) % 16 * 16 + (b.toNat % 16 * 4 + r) / 4 = b.toNat := by
    omega
  rw [secondByte, h, UInt8.ofNat_toNat]

theorem thirdByte_digits (b c : UInt8) :
    thirdByte (b.toNat % 16 * 4 + c.toNat / 64) (c.toNat % 64) = c := by
  have hc := c.toNat_lt
  have h : (b.toNat % 16 * 4 + c.toNat / 64) % 4 * 64 + c.toNat % 64 = c.toNat := by omega
  rw [thirdByte, h, UInt8.ofNat_toNat]

theorem decodeGroups_encode (bytes : List UInt8) : decodeGroups (encode bytes) = some bytes := by
  induction bytes using encode.induct with
  | case1 => rfl
  | case2 a =>
    obtain ⟨h₁, h₂, -⟩ := sextets a 0 0
    have first : firstByte (a.toNat / 4) (a.toNat % 4 * 16) = a := firstByte_digits a (r := 0) (by decide)
    simp [encode, decodeGroups, value?_digit h₁, value?_digit h₂, first]
  | case3 a b =>
    obtain ⟨h₁, -, h₂, h₃, -⟩ := sextets a b 0
    have first := firstByte_digits a (r := b.toNat / 16) (by have := b.toNat_lt; omega)
    have second : secondByte (a.toNat % 4 * 16 + b.toNat / 16) (b.toNat % 16 * 4) = b :=
      secondByte_digits a b (r := 0) (by decide)
    simp [encode, decodeGroups, value?_digit h₁, value?_digit h₂, value?_digit h₃,
      digit_ne_padding h₃, first, second]
  | case4 a b c rest ih =>
    obtain ⟨h₁, -, h₂, -, h₃, h₄⟩ := sextets a b c
    have first := firstByte_digits a (r := b.toNat / 16) (by have := b.toNat_lt; omega)
    have second := secondByte_digits a b (r := c.toNat / 64) (by have := c.toNat_lt; omega)
    simp [encode, decodeGroups, value?_digit h₁, value?_digit h₂, value?_digit h₃, value?_digit h₄,
      digit_ne_padding h₃, digit_ne_padding h₄, first, second, thirdByte_digits, ih]

theorem filter_encode (bytes : List UInt8) :
    (encode bytes).filter (fun c => !isLineEnd c) = encode bytes := by
  have padding : isLineEnd '=' = false := rfl
  induction bytes using encode.induct with
  | case1 => rfl
  | case2 a =>
    obtain ⟨h₁, h₂, -⟩ := sextets a 0 0
    simp [encode, isLineEnd_digit h₁, isLineEnd_digit h₂, padding]
  | case3 a b =>
    obtain ⟨h₁, -, h₂, h₃, -⟩ := sextets a b 0
    simp [encode, isLineEnd_digit h₁, isLineEnd_digit h₂, isLineEnd_digit h₃, padding]
  | case4 a b c rest ih =>
    obtain ⟨h₁, -, h₂, -, h₃, h₄⟩ := sextets a b c
    simp [encode, isLineEnd_digit h₁, isLineEnd_digit h₂, isLineEnd_digit h₃, isLineEnd_digit h₄, ih]

theorem decode_encode (bytes : List UInt8) : decode (encode bytes) = some bytes := by
  rw [decode, filter_encode, decodeGroups_encode]

@[simp] theorem decodeString_encodeToString (bytes : List UInt8) :
    decodeString (encodeToString bytes) = some bytes := by
  simp only [decodeString, encodeToString, String.toList_ofList, decode_encode]

/-! ### Texts that are no encoding -/

theorem decode_cons_eq_none {c : Char} (hvalue : value? c = none) (hline : isLineEnd c = false)
    (cs : List Char) : decode (c :: cs) = none := by
  simp only [decode, List.filter_cons, hline, Bool.not_false, ↓reduceIte]
  match cs.filter fun c => !isLineEnd c with
  | [] | [_] | [_, _] => rfl
  | x :: y :: z :: rest => simp [decodeGroups, hvalue]

end Base64
