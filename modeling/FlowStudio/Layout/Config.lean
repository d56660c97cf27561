import FlowStudio.Geometry

/-! The measures of a layout. -/

namespace FlowStudio

structure LayoutConfig (α : Type) where
  marginX : α
  marginY : α
  defaultNodeWidth : α
  defaultNodeHeight : α
  minContentWidth : α
  minContentHeight : α
  nodeSep : α
  rankSep : α
  deriving DecidableEq, Repr

namespace LayoutConfig
variable {α : Type} [Scalar α]

def default : LayoutConfig α where
  marginX := Scalar.nat 200
  marginY := Scalar.nat 200
  defaultNodeWidth := Scalar.nat 250
  defaultNodeHeight := Scalar.nat 100
  minContentWidth := Scalar.nat 200
  minContentHeight := Scalar.nat 50
  nodeSep := Scalar.nat 50
  rankSep := Scalar.nat 50

def defaultNodeSize (c : LayoutConfig α) : Size α := ⟨c.defaultNodeWidth, c.defaultNodeHeight⟩

def containerSize (c : LayoutConfig α) (content : Option (Size α)) : Size α :=
  let extent := content.getD Size.zero
  ⟨Scalar.larger extent.width c.minContentWidth + c.marginX,
    Scalar.larger extent.height c.minContentHeight + c.marginY⟩

end LayoutConfig
end FlowStudio
