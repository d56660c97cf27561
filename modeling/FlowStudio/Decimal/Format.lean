import FlowStudio.Decimal.Shortest

/-! How numbers are written out: plain decimals in the middle of the range and one digit with an
exponent at its ends. -/

namespace FlowStudio.Decimal

/-- Plain decimals are written from `10 ^ plainFrom` up to, not including, `10 ^ plainBelow`. -/
structure Format where
  plainFrom : Int
  plainBelow : Int

def Format.design : Format := ⟨-5, 16⟩

def zeros (n : Nat) : List Char := List.replicate n '0'

def plain (s : Shortest) : List Char :=
  let ds := Nat.toDigits 10 s.digits
  if 0 ≤ s.exponent then ds ++ zeros s.exponent.toNat ++ ['.', '0']
  else
    let places := (-s.exponent).toNat
    if places < ds.length then ds.take (ds.length - places) ++ '.' :: ds.drop (ds.length - places)
    else '0' :: '.' :: zeros (places - ds.length) ++ ds

def scientific (s : Shortest) : List Char :=
  let head := match Nat.toDigits 10 s.digits with
    | d :: r@(_ :: _) => d :: '.' :: r
    | ds => ds
  let e := s.magnitude
  head ++ 'e' :: (if e < 0 then '-' else '+') :: Nat.toDigits 10 e.natAbs

def Format.magnitude (f : Format) (s : Shortest) : List Char :=
  if s.digits = 0 then ['0', '.', '0']
  else if f.plainFrom ≤ s.magnitude ∧ s.magnitude < f.plainBelow then plain s
  else scientific s

def Format.text (f : Format) (x : Float) : String :=
  let body := f.magnitude (shortest x)
  String.ofList (if x.toBits.toNat < UInt64.size / 2 then body else '-' :: body)

end FlowStudio.Decimal
