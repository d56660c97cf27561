import FlowStudio.Json.Basic

/-! Number literals. As many leading digits as fit into 64 bits are kept; the digits left out count
only as powers of ten, so a float is one rounded product or quotient. -/

namespace FlowStudio.Json

structure Literal where
  negative : Bool
  whole : List Char
  fraction : List Char
  /-- The exponent written, none for a literal without one. -/
  exponent : Option Int
  /-- Neither a fraction nor an exponent is written. -/
  plain : Bool

def digit (c : Char) : Nat := c.toNat - '0'.toNat

def gather : Nat → List Char → Nat × List Char
  | n, [] => (n, [])
  | n, d :: ds =>
    if 10 * n + digit d < UInt64.size then gather (10 * n + digit d) ds else (n, d :: ds)

def powerOfTen (n : Nat) : Float := OfScientific.ofScientific 1 false n

def shrink (x : Float) (n : Nat) : Float :=
  if n ≤ 308 then x / powerOfTen n
  else if x == 0 then x
  else shrink (x / powerOfTen 308) (n - 308)
termination_by n

def scaled (significand : Nat) (exponent : Int) : Option Float :=
  let x := significand.toUInt64.toFloat
  if exponent < 0 then some (shrink x exponent.natAbs)
  else if 308 < exponent then (if x == 0 then some x else none)
  else
    let y := x * powerOfTen exponent.toNat
    if y.isInf then none else some y

def Literal.value (l : Literal) : Except Fault Number :=
  let sign (x : Float) : Float := if l.negative then -x else x
  let (n, left) := gather 0 l.whole
  if l.plain && left.isEmpty then
    if !l.negative then .ok (.integer n)
    else if n = 0 || UInt64.size / 2 < n then .ok (.float (sign n.toUInt64.toFloat))
    else .ok (.integer (-n))
  else
    let (significand, lost) := gather n l.fraction
    -- a digit of the whole that is left out counts up, one of the fraction that is kept down
    let shift : Int := left.length - (l.fraction.length - lost.length : Nat)
    match scaled significand (shift + l.exponent.getD 0) with
    | some x => .ok (.float (sign x))
    | none => .error .outOfRange

def digits (cs : List Char) : Except Fault (List Char × List Char) :=
  match cs.takeWhile Char.isDigit, cs.dropWhile Char.isDigit with
  | [], [] => .error .openValue
  | [], _ => .error .badNumber
  | ds, rest => .ok (ds, rest)

def fraction : List Char → Except Fault (List Char × List Char)
  | '.' :: cs => digits cs
  | cs => .ok ([], cs)

def natOf (ds : List Char) : Nat := ds.foldl (fun n d => 10 * n + digit d) 0

def exponent : List Char → Except Fault (Option Int × List Char)
  | c :: cs =>
    if c = 'e' ∨ c = 'E' then do
      let (negative, cs) := match cs with
        | '-' :: r => (true, r)
        | '+' :: r => (false, r)
        | r => (false, r)
      let (ds, rest) ← digits cs
      .ok (some (if negative then -(natOf ds : Int) else natOf ds), rest)
    else .ok (none, c :: cs)
  | [] => .ok (none, [])

def literal (cs : List Char) : Except Fault (Literal × List Char) := do
  let (negative, cs) := match cs with
    | '-' :: r => (true, r)
    | r => (false, r)
  let (whole, afterWhole) ← digits cs
  if whole.head? = some '0' ∧ 1 < whole.length then .error .badNumber
  let (fraction, afterFraction) ← fraction afterWhole
  let (exponent, rest) ← exponent afterFraction
  .ok (⟨negative, whole, fraction, exponent, fraction.isEmpty && exponent.isNone⟩, rest)

end FlowStudio.Json
