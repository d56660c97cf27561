import FlowStudio.Flow.Basic
import FlowStudio.Layout.Config
import FlowStudio.Layout.Nesting
import FlowStudio.Layout.Ranked

/-! Layout of a nested design. The nodes of one scope are placed as a graph of their own, after
whatever stands inside them; the extent of a scope makes the size of its container. -/

namespace FlowStudio.Layout
variable {α : Type} [Scalar α]

/-- Of nodes that share an identifier, the last one bears it. -/
def index? (nodes : List (Node α)) (id : String) : Option Nat :=
  (nodes.zipIdx.reverse.find? fun (node, _) => node.id == id).map (·.2)

/-- A parent that is not there is as good as none. -/
def parentLinks (nodes : List (Node α)) : Links :=
  nodes.map fun node => node.parent.bind (index? nodes)

def effectiveLinks (nodes : List (Node α)) : Links := cutCycles (parentLinks nodes)

def edgePairs (nodes : List (Node α)) (edges : List Edge) : List Arc :=
  edges.filterMap fun e => do return (← index? nodes e.source, ← index? nodes e.target)

structure Member (α : Type) where
  index : Nat
  size : Size α

structure Placed (α : Type) where
  index : Nat
  size : Size α
  position : Point α

def scopeArcs (members : List Nat) (pairs : List Arc) : List Arc :=
  pairs.filterMap fun (s, t) => do return (← members.idxOf? s, ← members.idxOf? t)

/-- Upper left corners for centres; a centre that is not given is the origin. -/
def corners : List (Member α) → List (Point α) → List (Placed α)
  | [], _ => []
  | m :: ms, centres =>
    let centre := centres.headD Point.zero
    let corner : Point α :=
      ⟨centre.x - Scalar.half m.size.width, centre.y - Scalar.half m.size.height⟩
    ⟨m.index, m.size, corner⟩ :: corners ms centres.tail

def smallest? : List α → Option α
  | [] => none
  | x :: xs => some (xs.foldl Scalar.smaller x)

def largest? : List α → Option α
  | [] => none
  | x :: xs => some (xs.foldl Scalar.larger x)

structure Scope (α : Type) where
  placed : List (Placed α)
  extent : Option (Size α)

def settle (boxes : List (Placed α)) : Scope α :=
  let found : Option (Scope α) := do
    let left ← smallest? (boxes.map (·.position.x))
    let top ← smallest? (boxes.map (·.position.y))
    let right ← largest? (boxes.map fun b => b.position.x + b.size.width)
    let bottom ← largest? (boxes.map fun b => b.position.y + b.size.height)
    return ⟨boxes.map fun b => { b with position := ⟨b.position.x - left, b.position.y - top⟩ },
      some ⟨right - left, bottom - top⟩⟩
  found.getD ⟨[], none⟩

def placeScope (placer : Placer α) (pairs : List Arc) (members : List (Member α)) : Scope α :=
  if members.isEmpty then ⟨[], none⟩
  else
    let arcs := scopeArcs (members.map (·.index)) pairs
    settle (corners members (placer (members.map (·.size)) arcs))

/-- What is known of a forest before it is placed: the sizes of its own nodes, and the places of
all that stand inside them. -/
structure Measured (α : Type) where
  members : List (Member α)
  inside : List (Placed α)

def finalSize (config : LayoutConfig α) (node : Option (Node α)) (extent : Option (Size α)) :
    Size α :=
  match node with
  | none => config.defaultNodeSize
  | some node =>
    if node.kind.isContainer then config.containerSize extent
    else node.size.getD config.defaultNodeSize

def measure (placer : Placer α) (config : LayoutConfig α) (nodes : List (Node α))
    (pairs : List Arc) : Forest → Measured α
  | .nil => ⟨[], []⟩
  | .node v inside rest =>
    let below := measure placer config nodes pairs inside
    let scope := placeScope placer pairs below.members
    let beside := measure placer config nodes pairs rest
    ⟨⟨v, finalSize config nodes[v]? scope.extent⟩ :: beside.members,
      below.inside ++ scope.placed ++ beside.inside⟩

def placeAll (placer : Placer α) (config : LayoutConfig α) (nodes : List (Node α))
    (pairs : List Arc) (forest : Forest) : List (Placed α) :=
  let measured := measure placer config nodes pairs forest
  measured.inside ++ (placeScope placer pairs measured.members).placed

def finish (config : LayoutConfig α) (placed : List (Placed α)) (v : Nat) (node : Node α) :
    Node α :=
  match placed.find? (·.index == v) with
  | none => node
  | some p =>
    { node with
      position := p.position.offset (Scalar.half config.marginX) (Scalar.half config.marginY)
      size := if node.kind.isContainer then some p.size else node.size }

def arrange (placer : Placer α) (config : LayoutConfig α) (design : Design α) : Design α :=
  let pairs := edgePairs design.nodes design.edges
  let forest := (effectiveLinks design.nodes).forest
  let placed := placeAll placer config design.nodes pairs forest
  { design with nodes := design.nodes.mapIdx (finish config placed) }

def arrangeRanked (config : LayoutConfig α) (design : Design α) : Design α :=
  arrange (ranked ⟨config.nodeSep, config.rankSep⟩) config design

end FlowStudio.Layout
