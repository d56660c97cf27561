/-! Names in other scripts as host names spell them in ASCII: the ASCII characters of the name
first, then for each other character, from the smallest on, how far it is from the one before it. -/

namespace FlowStudio.Text.Punycode

def digit? (c : Char) : Option Nat :=
  if c.isAlpha then some (c.toLower.toNat - 97)
  else if c.isDigit then some (c.toNat - 48 + 26)
  else none

/-- The least digit that is not the last one of a number, at a place that is a multiple of 36. -/
def threshold (bias place : Nat) : Nat := max 1 (min 26 (place - bias))

def distance? (bias : Nat) : Nat → Nat → Nat → List Char → Option (Nat × List Char)
  | _, _, _, [] => none
  | place, weight, sum, c :: cs => do
    let digit ← digit? c
    let sum := sum + digit * weight
    let least := threshold bias place
    if digit < least then some (sum, cs)
    else distance? bias (place + 36) (weight * (36 - least)) sum cs

def scaleDown (places distance : Nat) : Nat :=
  -- half of 35 times 26
  if 455 < distance then scaleDown (places + 36) (distance / 35)
  else places + 36 * distance / (distance + 38)
termination_by distance

def adapt (isFirst : Bool) (length distance : Nat) : Nat :=
  let distance := distance / (if isFirst then 700 else 2)
  scaleDown 0 (distance + distance / length)

structure Progress where
  name : List Char
  code : Nat
  index : Nat
  bias : Nat

def Progress.advance (p : Progress) (isFirst : Bool) (distance : Nat) : Option Progress :=
  let length := p.name.length + 1
  let target := p.index + distance
  let code := p.code + target / length
  let index := target % length
  if code.isValidChar then
    some ⟨p.name.insertIdx index (Char.ofNat code), code, index + 1, adapt isFirst length distance⟩
  else none

def complete : Nat → Bool → Progress → List Char → Option (List Char)
  | _, _, p, [] => some p.name
  | 0, _, _, _ => none
  | fuel + 1, isFirst, p, cs => do
    let (distance, rest) ← distance? p.bias 36 1 0 cs
    complete fuel false (← p.advance isFirst distance) rest

/-- The ASCII characters of a name, which end at the last dash, and the digits after them. A dash in
front of all ends nothing. -/
def divide (code : List Char) : List Char × List Char :=
  let digits := (code.reverse.takeWhile (· != '-')).reverse
  if digits.length + 1 < code.length then
    (code.take (code.length - digits.length - 1), digits)
  else ([], code)

def decode? (code : List Char) : Option (List Char) :=
  let (basic, digits) := divide code
  -- every character takes a digit at least
  if basic.any (0x80 ≤ ·.toNat) then none
  else complete digits.length true ⟨basic, 128, 0, 72⟩ digits

end FlowStudio.Text.Punycode
