import FlowStudio.Layout.Nested

/-! The same layout in place: scope after scope, positions and sizes are written into the nodes and
read from there. A stack gives the order of the scopes, so no nesting is too deep. -/

namespace FlowStudio.Layout

/-- A node on the stack. All that stands inside an open one comes before it. -/
structure Visit where
  node : Nat
  isOpen : Bool
  deriving DecidableEq, Repr

structure Traversal where
  stack : List Visit
  order : List Nat
  deriving DecidableEq, Repr

namespace Traversal

def closed (v : Nat) : Visit := ⟨v, false⟩

def step? (children : Nat → List Nat) (t : Traversal) : Option Traversal :=
  match t.stack with
  | [] => none
  | ⟨v, true⟩ :: stack => some ⟨stack, t.order ++ [v]⟩
  | ⟨v, false⟩ :: stack => some ⟨(children v).map closed ++ ⟨v, true⟩ :: stack, t.order⟩

def run (children : Nat → List Nat) : Nat → Traversal → Traversal
  | 0, t => t
  | fuel + 1, t =>
    match t.step? children with
    | none => t
    | some t => run children fuel t

end Traversal

def Links.children (links : Links) (v : Nat) : List Nat := links.under (some v)

def Links.traversal (links : Links) : Traversal := ⟨(links.under none).map Traversal.closed, []⟩

/-- Every node after those inside it. Each is opened once and ended once. -/
def Links.postOrder (links : Links) : List Nat :=
  (links.traversal.run links.children (2 * links.length)).order

variable {α : Type} [Scalar α]

def sizeIn (config : LayoutConfig α) (nodes : List (Node α)) (v : Nat) : Size α :=
  (nodes[v]?.bind Node.size).getD config.defaultNodeSize

def moveTo (position : Point α) (node : Node α) : Node α := { node with position }

def putPosition (nodes : List (Node α)) (p : Placed α) : List (Node α) :=
  nodes.modify p.index (moveTo p.position)

def resize (size : Size α) (node : Node α) : Node α :=
  if node.kind.isContainer then { node with size := some size } else node

def placeMembers (placer : Placer α) (config : LayoutConfig α) (pairs : List Arc)
    (nodes : List (Node α)) (members : List Nat) : List (Node α) × Option (Size α) :=
  let scope := placeScope placer pairs (members.map fun v => ⟨v, sizeIn config nodes v⟩)
  (scope.placed.foldl putPosition nodes, scope.extent)

def fitInside (placer : Placer α) (config : LayoutConfig α) (pairs : List Arc) (links : Links)
    (nodes : List (Node α)) (v : Nat) : List (Node α) :=
  let (nodes, extent) := placeMembers placer config pairs nodes (links.children v)
  nodes.modify v (resize (config.containerSize extent))

def arrangeInPlace (placer : Placer α) (config : LayoutConfig α) (design : Design α) : Design α :=
  let pairs := edgePairs design.nodes design.edges
  let links := effectiveLinks design.nodes
  let nodes := links.postOrder.foldl (fitInside placer config pairs links) design.nodes
  let (nodes, _) := placeMembers placer config pairs nodes (links.under none)
  let shift (p : Point α) := p.offset (Scalar.half config.marginX) (Scalar.half config.marginY)
  { design with nodes := nodes.map fun node => moveTo (shift node.position) node }

end FlowStudio.Layout
