/-!
Bytes written with 64 characters, six bits each. Other characters are passed over, and the text
may go on behind the signs that fill up its last group.
-/

namespace Deployments.Text

def sixBits? (c : Char) : Option Nat :=
  if 'A' ≤ c ∧ c ≤ 'Z' then some (c.toNat - 65)
  else if 'a' ≤ c ∧ c ≤ 'z' then some (c.toNat - 71)
  else if '0' ≤ c ∧ c ≤ '9' then some (c.toNat + 4)
  else if c = '+' then some 62
  else if c = '/' then some 63
  else none

/-- The bytes of the rest of a text, inside a group of which `place` characters are read, with
`left` the bits not used yet, and `fills` the signs that fill up the group so far. -/
def decodeGroups (place left fills : Nat) : List Char → Option (List UInt8)
  | [] => if place = 0 then some [] else none
  | c :: cs =>
    if c = '=' then
      if 2 ≤ place then
        if 4 ≤ place + fills + 1 then some [] else decodeGroups place left (fills + 1) cs
      else decodeGroups place left fills cs
    else match sixBits? c with
      | none => decodeGroups place left fills cs
      | some bits =>
        if place = 0 then decodeGroups 1 bits 0 cs
        else if place = 1 then
          (decodeGroups 2 (bits % 16) 0 cs).map (UInt8.ofNat (left * 4 + bits / 16) :: ·)
        else if place = 2 then
          (decodeGroups 3 (bits % 4) 0 cs).map (UInt8.ofNat (left * 16 + bits / 4) :: ·)
        else (decodeGroups 0 0 0 cs).map (UInt8.ofNat (left * 64 + bits) :: ·)

/-- The bytes that a text writes; nothing if its last group is not complete. -/
def decodeBase64? (cs : List Char) : Option (List UInt8) := decodeGroups 0 0 0 cs

example : decodeBase64? "aGk=".toList = some [104, 105] := by decide +kernel
example : decodeBase64? "aGk".toList = none := by decide +kernel

end Deployments.Text
