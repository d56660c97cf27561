import FlowStudio.Layout.Ranks

/-! Ranked placement of boxes: ranks from top to bottom, each one centred. -/

namespace FlowStudio

abbrev Placer (α : Type) := List (Size α) → List Layout.Arc → List (Point α)

structure Spacing (α : Type) where
  node : α
  rank : α

def Spacing.default {α : Type} [Scalar α] : Spacing α := ⟨Scalar.nat 50, Scalar.nat 50⟩

namespace Layout
variable {α : Type} [Scalar α]

structure Box (α : Type) where
  node : Nat
  width : α
  height : α

def largest (xs : List α) : α := xs.foldl Scalar.larger (Scalar.nat 0)

def rowWidth (sep : α) (boxes : List (Box α)) : α :=
  sum (boxes.map (·.width)) + sep * Scalar.nat (boxes.length - 1)

def rowHeight (boxes : List (Box α)) : α := largest (boxes.map (·.height))

def placeRow (sep middle : α) : α → List (Box α) → List (Nat × Point α)
  | _, [] => []
  | left, b :: bs =>
    (b.node, ⟨left + Scalar.half b.width, middle⟩) ::
      placeRow sep middle (left + (b.width + sep)) bs

def placeRows (spacing : Spacing α) (width : α) : α → List (List (Box α)) → List (Nat × Point α)
  | _, [] => []
  | top, boxes :: rest =>
    let height := rowHeight boxes
    let left := Scalar.half (width - rowWidth spacing.node boxes)
    placeRow spacing.node (top + Scalar.half height) left boxes ++
      placeRows spacing width (top + (height + spacing.rank)) rest

/-- A negative extent counts as none. -/
def box (sizes : List (Size α)) (v : Nat) : Box α :=
  let size := sizes.getD v Size.zero
  ⟨v, Scalar.larger size.width (Scalar.nat 0), Scalar.larger size.height (Scalar.nat 0)⟩

def orderedRanks (α : Type) [Scalar α] (n : Nat) (edges : List Arc) : List (List Nat) :=
  let arcs := distinctArcs n edges
  let kept := keptArcs arcs
  sweep α kept (layers n (rankAlong n kept (sequence arcs))) (.zeros n)

def rows (sizes : List (Size α)) (edges : List Arc) : List (List (Box α)) :=
  (orderedRanks α sizes.length edges).map (·.map (box sizes))

def placedRows (spacing : Spacing α) (sizes : List (Size α)) (edges : List Arc) :
    List (Nat × Point α) :=
  let rows := rows sizes edges
  placeRows spacing (largest (rows.map (rowWidth spacing.node))) (Scalar.nat 0) rows

def ranked (spacing : Spacing α) : Placer α := fun sizes edges =>
  if sizes.isEmpty then []
  else
    let placed := placedRows spacing sizes edges
    (List.range sizes.length).map fun v => (placed.lookup v).getD Point.zero

end Layout
end FlowStudio
