import Mathlib.Data.List.Basic

/- base64url without padding. -/
namespace Base64Url

def digit (n : Nat) : Char :=
  if n < 26 then Char.ofNat (65 + n)
  else if n < 52 then Char.ofNat (71 + n)
  else if n < 62 then Char.ofNat (n - 4)
  else if n = 62 then '-'
  else '_'

def value (c : Char) : Option Nat :=
  if 'A' ≤ c ∧ c ≤ 'Z' then some (c.toNat - 65)
  else if 'a' ≤ c ∧ c ≤ 'z' then some (c.toNat - 71)
  else if '0' ≤ c ∧ c ≤ '9' then some (c.toNat + 4)
  else if c = '-' then some 62
  else if c = '_' then some 63
  else none

def isDigit (c : Char) : Bool := (value c).isSome

def encode : List UInt8 → List Char
  | [] => []
  | [a] => [digit (a.toNat / 4), digit (a.toNat % 4 * 16)]
  | [a, b] =>
    [digit (a.toNat / 4), digit (a.toNat % 4 * 16 + b.toNat / 16), digit (b.toNat % 16 * 4)]
  | a :: b :: c :: rest =>
    digit (a.toNat / 4) :: digit (a.toNat % 4 * 16 + b.toNat / 16) ::
      digit (b.toNat % 16 * 4 + c.toNat / 64) :: digit (c.toNat % 64) :: encode rest

/- Bits after the last whole byte are dropped; a single character is too few. -/
def decode : List Char → Option (List UInt8)
  | [] => some []
  | [_] => none
  | [w, x] => do
    let w ← value w
    let x ← value x
    return [UInt8.ofNat (w * 4 + x / 16)]
  | [w, x, y] => do
    let w ← value w
    let x ← value x
    let y ← value y
    return [UInt8.ofNat (w * 4 + x / 16), UInt8.ofNat (x % 16 * 16 + y / 4)]
  | w :: x :: y :: z :: rest => do
    let w ← value w
    let x ← value x
    let y ← value y
    let z ← value z
    let bytes ← decode rest
    return UInt8.ofNat (w * 4 + x / 16) :: UInt8.ofNat (x % 16 * 16 + y / 4) ::
      UInt8.ofNat (y % 4 * 64 + z) :: bytes

theorem value_digit : ∀ n < 64, value (digit n) = some n := by decide +kernel

theorem byte_eq {n : Nat} {b : UInt8} (same : n = b.toNat) : UInt8.ofNat n = b := by
  rw [same, UInt8.ofNat_toNat]

theorem decode_encode (bytes : List UInt8) : decode (encode bytes) = some bytes := by
  induction bytes using encode.induct with
  | case1 => rfl
  | case2 a =>
    have small := a.toNat_lt
    simp only [encode, decode, value_digit (a.toNat / 4) (by omega),
      value_digit (a.toNat % 4 * 16) (by omega), Option.bind_eq_bind, Option.bind_some]
    rw [byte_eq (b := a) (by omega)]
    rfl
  | case3 a b =>
    have small := a.toNat_lt
    have small' := b.toNat_lt
    simp only [encode, decode, value_digit (a.toNat / 4) (by omega),
      value_digit (a.toNat % 4 * 16 + b.toNat / 16) (by omega),
      value_digit (b.toNat % 16 * 4) (by omega), Option.bind_eq_bind, Option.bind_some]
    rw [byte_eq (b := a) (by omega), byte_eq (b := b) (by omega)]
    rfl
  | case4 a b c rest ih =>
    have small := a.toNat_lt
    have small' := b.toNat_lt
    have small'' := c.toNat_lt
    simp only [encode, decode, value_digit (a.toNat / 4) (by omega),
      value_digit (a.toNat % 4 * 16 + b.toNat / 16) (by omega),
      value_digit (b.toNat % 16 * 4 + c.toNat / 64) (by omega),
      value_digit (c.toNat % 64) (by omega), ih, Option.bind_eq_bind, Option.bind_some]
    rw [byte_eq (b := a) (by omega), byte_eq (b := b) (by omega),
      byte_eq (b := c) (by omega)]
    rfl

theorem encode_length (bytes : List UInt8) :
    (encode bytes).length = (4 * bytes.length + 2) / 3 := by
  induction bytes using encode.induct with
  | case4 a b c rest ih =>
    simp only [encode, List.length_cons, ih]
    omega
  | _ => simp [encode]

theorem isDigit_digit {n : Nat} (small : n < 64) : isDigit (digit n) = true := by
  rw [isDigit, value_digit n small]
  rfl

theorem encode_digits (bytes : List UInt8) : (encode bytes).all isDigit = true := by
  induction bytes using encode.induct with
  | case1 => rfl
  | case2 a =>
    have small := a.toNat_lt
    simp [encode, isDigit_digit (n := a.toNat / 4) (by omega),
      isDigit_digit (n := a.toNat % 4 * 16) (by omega)]
  | case3 a b =>
    have small := a.toNat_lt
    have small' := b.toNat_lt
    simp [encode, isDigit_digit (n := a.toNat / 4) (by omega),
      isDigit_digit (n := a.toNat % 4 * 16 + b.toNat / 16) (by omega),
      isDigit_digit (n := b.toNat % 16 * 4) (by omega)]
  | case4 a b c rest ih =>
    have small := a.toNat_lt
    have small' := b.toNat_lt
    have small'' := c.toNat_lt
    simp [encode, ih, isDigit_digit (n := a.toNat / 4) (by omega),
      isDigit_digit (n := a.toNat % 4 * 16 + b.toNat / 16) (by omega),
      isDigit_digit (n := b.toNat % 16 * 4 + c.toNat / 64) (by omega),
      isDigit_digit (n := c.toNat % 64) (by omega)]

theorem isDigit_period : isDigit '.' = false := by decide +kernel

end Base64Url
