import WorkflowInstall.Text.Basic

/-!
# Base64

Bytes as text in an alphabet of sixty-four characters. Reading skips every character outside the
alphabet, and stops at the padding that completes a group of four.

## Main Definitions

* `Base64.decode` — the bytes that a text stands for
-/

namespace WorkflowInstall.Base64

/-- The six bits that a character of the alphabet stands for. -/
def sextet? (c : Char) : Option Nat :=
  if 'A' ≤ c ∧ c ≤ 'Z' then some (c.toNat - 'A'.toNat)
  else if 'a' ≤ c ∧ c ≤ 'z' then some (c.toNat - 'a'.toNat + 26)
  else if '0' ≤ c ∧ c ≤ '9' then some (c.toNat - '0'.toNat + 52)
  else if c = '+' then some 62
  else if c = '/' then some 63
  else none

/-- The sextets of a text. `held` counts those of the group that is being read, `pads` the padding
marks seen in it. A text that ends inside a group has none. -/
def sextets (held pads : Nat) : Text → Option (List Nat)
  | [] => if held = 0 then some [] else none
  | '=' :: rest =>
    if 2 ≤ held then
      if 4 ≤ held + (pads + 1) then some [] else sextets held (pads + 1) rest
    else sextets held pads rest
  | c :: rest =>
    match sextet? c with
    | none => sextets held pads rest
    | some value => (sextets ((held + 1) % 4) 0 rest).map (value :: ·)

/-- The bytes of the sextets, four at a time. -/
def pack : List Nat → Bytes
  | a :: b :: c :: d :: rest =>
    UInt8.ofNat (a * 4 + b / 16) :: UInt8.ofNat (b % 16 * 16 + c / 4) ::
      UInt8.ofNat (c % 4 * 64 + d) :: pack rest
  | [a, b, c] => [UInt8.ofNat (a * 4 + b / 16), UInt8.ofNat (b % 16 * 16 + c / 4)]
  | [a, b] => [UInt8.ofNat (a * 4 + b / 16)]
  | _ => []

/-- The bytes that a text stands for. -/
def decode (text : Text) : Option Bytes := (sextets 0 0 text).map pack

end WorkflowInstall.Base64
