/-! The shortest decimal that reads back as a given binary floating-point number. A finite number is
`mantissa * 2 ^ exponent`; the reals that round to it form an interval around it, and the answer is
the decimal of fewest digits in that interval, the nearest one where several have that many. -/

namespace FlowStudio.Decimal

def twos (k : Int) : Nat := Nat.pow 2 k.toNat

def tens (k : Int) : Nat := Nat.pow 10 k.toNat

/-- The magnitude of a finite number, exactly. `edge` marks a power of two whose lower neighbour is
half as far away as its upper one. -/
structure Binary where
  mantissa : Nat
  exponent : Int
  edge : Bool

def Binary.ofFloat (x : Float) : Binary :=
  let bits := x.toBits.toNat
  let fraction := bits % twos 52
  let biased := bits / twos 52 % twos 11
  if biased = 0 then ⟨fraction, -1074, false⟩
  else ⟨fraction + twos 52, (biased : Int) - 1075, fraction = 0 && biased ≠ 1⟩

/-- The number with its rounding interval, all four times as large and over one denominator. -/
structure Interval where
  low : Nat
  value : Nat
  high : Nat
  den : Nat
  closed : Bool

def Binary.interval (b : Binary) : Interval :=
  let up := twos b.exponent
  { low := (4 * b.mantissa - if b.edge then 1 else 2) * up
    value := 4 * b.mantissa * up
    high := (4 * b.mantissa + 2) * up
    den := 4 * twos (-b.exponent)
    closed := b.mantissa % 2 = 0 }

def Interval.holds (i : Interval) (n : Nat) (k : Int) : Bool :=
  let point := n * tens k * i.den
  let scale := tens (-k)
  if i.closed then i.low * scale ≤ point && point ≤ i.high * scale
  else i.low * scale < point && point < i.high * scale

def Interval.floor (i : Interval) (k : Int) : Nat :=
  i.value * tens (-k) / (i.den * tens k)

def Interval.upperIsNearer (i : Interval) (n : Nat) (k : Int) : Bool :=
  let twice := 2 * i.value * tens (-k)
  let middle := (2 * n + 1) * tens k * i.den
  middle < twice || (middle = twice && n % 2 = 1)

def digitCount (n : Nat) : Nat := (Nat.toDigits 10 n).length

def Interval.magnitude (i : Interval) : Int :=
  let k : Int := (digitCount i.value : Int) - digitCount i.den
  if i.den * tens k ≤ i.value * tens (-k) then k else k - 1

def Interval.onGrid (i : Interval) (k : Int) : Option Nat :=
  let n := i.floor k
  match i.holds n k, i.holds (n + 1) k with
  | true, true => some (if i.upperIsNearer n k then n + 1 else n)
  | true, false => some n
  | false, true => some (n + 1)
  | false, false => none

/-- Tries grids finer and finer, from the power of ten above the number on; the grid of seventeen
digits always has a hit. -/
def Interval.search (i : Interval) : Nat → Int → Nat × Int
  | 0, k => (i.floor k, k)
  | fuel + 1, k =>
    match i.onGrid k with
    | some n => (n, k)
    | none => i.search fuel (k - 1)

structure Shortest where
  digits : Nat
  exponent : Int

def shortest (x : Float) : Shortest :=
  let b := Binary.ofFloat x
  if b.mantissa = 0 then ⟨0, 0⟩
  else
    let i := b.interval
    let (n, k) := i.search 18 (i.magnitude + 1)
    ⟨n, k⟩

def Shortest.magnitude (s : Shortest) : Int := s.exponent + digitCount s.digits - 1

end FlowStudio.Decimal
