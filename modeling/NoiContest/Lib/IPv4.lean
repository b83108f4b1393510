import Mathlib.Algebra.Group.Nat.Defs
import Mathlib.Data.List.Basic

/- Dotted IPv4 addresses as Python's ipaddress module reads and classifies them. -/
namespace IPv4

structure Address where
  value : Nat
  deriving DecidableEq, Repr

/-- One to three ASCII digits without a leading zero, at most 255. -/
def octet (digits : List Char) : Option Nat :=
  if digits = [] ∨ 3 < digits.length ∨ ¬ digits.all Char.isDigit ∨
      (1 < digits.length ∧ digits.head? = some '0') then none
  else
    let n := digits.foldl (fun total digit => 10 * total + (digit.toNat - 48)) 0
    if n ≤ 255 then some n else none

def parse (text : String) : Option Address :=
  match (text.toList.splitOn '.').map octet with
  | [some a, some b, some c, some d] => some ⟨((a * 256 + b) * 256 + c) * 256 + d⟩
  | _ => none

def Address.inNetwork (address : Address) (a b c d prefixLength : Nat) : Bool :=
  address.value / 2 ^ (32 - prefixLength) ==
    (((a * 256 + b) * 256 + c) * 256 + d) / 2 ^ (32 - prefixLength)

/-- The networks of `is_private`, the shared address of 192.0.0.0/24 aside. -/
def Address.isPrivate (address : Address) : Bool :=
  (address.inNetwork 0 0 0 0 8 || address.inNetwork 10 0 0 0 8 ||
    address.inNetwork 127 0 0 0 8 || address.inNetwork 169 254 0 0 16 ||
    address.inNetwork 172 16 0 0 12 || address.inNetwork 192 0 0 0 24 ||
    address.inNetwork 192 0 2 0 24 || address.inNetwork 192 168 0 0 16 ||
    address.inNetwork 198 18 0 0 15 || address.inNetwork 198 51 100 0 24 ||
    address.inNetwork 203 0 113 0 24 || address.inNetwork 240 0 0 0 4) &&
  !(address.inNetwork 192 0 0 9 32 || address.inNetwork 192 0 0 10 32)

example : (parse "172.18.0.5").map Address.isPrivate = some true := by decide +kernel

end IPv4
