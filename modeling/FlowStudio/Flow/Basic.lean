import FlowStudio.Geometry

/-! Flow designs: nodes that may stand inside other nodes, and edges between them. -/

namespace FlowStudio

inductive NodeKind where
  | unit
  | module
  | function
  | procedure
  | argument
  | var
  | deadVar
  | returnVar
  | affectOuter
  | affectInner
  | spawnOuter
  | spawnInner
  deriving DecidableEq, Repr, Inhabited

def NodeKind.isContainer : NodeKind → Bool
  | .unit | .module | .function | .procedure | .affectOuter | .spawnOuter => true
  | _ => false

structure Node (α : Type) where
  id : String
  kind : NodeKind
  parent : Option String
  position : Point α
  size : Option (Size α)
  deriving DecidableEq, Repr

structure Edge where
  id : String
  source : String
  target : String
  deriving DecidableEq, Repr

structure Design (α : Type) where
  nodes : List (Node α)
  edges : List Edge
  deriving DecidableEq, Repr

def Node.make {α : Type} [Scalar α] (id : String) (kind : NodeKind) (parent : Option String) :
    Node α :=
  ⟨id, kind, parent, Point.zero, none⟩

def Node.withSize {α : Type} (n : Node α) (size : Size α) : Node α := { n with size := some size }

def Edge.between (source target : String) : Edge := ⟨source ++ "/" ++ target, source, target⟩

def Design.empty {α : Type} : Design α := ⟨[], []⟩

end FlowStudio
