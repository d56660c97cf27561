/-! Points, sizes and boxes over any kind of number. They are run with floats; what they mean is
said with exact numbers. -/

namespace FlowStudio

/-- The arithmetic of coordinates. `larger` and `smaller` give their first argument on a tie. -/
class Scalar (α : Type) extends Add α, Sub α, Mul α, Div α where
  nat : Nat → α
  larger : α → α → α
  smaller : α → α → α
  le : α → α → Bool
  lt : α → α → Bool

def largerFloat (a b : Float) : Float :=
  if a.isNaN then b else if b.isNaN then a else if a < b then b else a

def smallerFloat (a b : Float) : Float :=
  if a.isNaN then b else if b.isNaN then a else if b < a then b else a

instance : Scalar Float where
  nat n := n.toUInt64.toFloat
  larger := largerFloat
  smaller := smallerFloat
  le a b := a ≤ b
  lt a b := a < b

structure Point (α : Type) where
  x : α
  y : α
  deriving DecidableEq, Repr

structure Size (α : Type) where
  width : α
  height : α
  deriving DecidableEq, Repr

structure Rect (α : Type) where
  x : α
  y : α
  w : α
  h : α
  deriving DecidableEq, Repr

section
variable {α : Type} [Scalar α]

def Scalar.half (a : α) : α := a / Scalar.nat 2

def Point.zero : Point α := ⟨Scalar.nat 0, Scalar.nat 0⟩

def Size.zero : Size α := ⟨Scalar.nat 0, Scalar.nat 0⟩

def Point.offset (p : Point α) (dx dy : α) : Point α := ⟨p.x + dx, p.y + dy⟩

namespace Rect

def ofOrigin (origin : Point α) (size : Size α) : Rect α :=
  ⟨origin.x, origin.y, size.width, size.height⟩

def right (r : Rect α) : α := r.x + r.w

def bottom (r : Rect α) : α := r.y + r.h

def isEmpty (r : Rect α) : Bool := Scalar.le r.w (Scalar.nat 0) || Scalar.le r.h (Scalar.nat 0)

/-- Boxes that only touch do not overlap, and an empty one overlaps nothing. -/
def overlaps (a b : Rect α) : Bool :=
  !a.isEmpty && !b.isEmpty && Scalar.lt a.x b.right && Scalar.lt b.x a.right &&
    Scalar.lt a.y b.bottom && Scalar.lt b.y a.bottom

def union (a b : Rect α) : Rect α :=
  let left := Scalar.smaller a.x b.x
  let top := Scalar.smaller a.y b.y
  ⟨left, top, Scalar.larger a.right b.right - left, Scalar.larger a.bottom b.bottom - top⟩

def contains (a b : Rect α) : Bool :=
  Scalar.le a.x b.x && Scalar.le a.y b.y && Scalar.le b.right a.right &&
    Scalar.le b.bottom a.bottom

end Rect
end
end FlowStudio
