import FlowStudio.Flow.Basic
import FlowStudio.Json.Decoding

/-! The JSON form of a design: the list of its nodes and the list of its edges. A node without a
parent or a size leaves that member out. -/

namespace FlowStudio
open Json

def NodeKind.names : List (String × NodeKind) :=
  [("Unit", .unit), ("Module", .module), ("Function", .function), ("Procedure", .procedure),
    ("Argument", .argument), ("Var", .var), ("DeadVar", .deadVar), ("ReturnVar", .returnVar),
    ("AffectOuter", .affectOuter), ("AffectInner", .affectInner), ("SpawnOuter", .spawnOuter),
    ("SpawnInner", .spawnInner)]

def NodeKind.name : NodeKind → String
  | .unit => "Unit"
  | .module => "Module"
  | .function => "Function"
  | .procedure => "Procedure"
  | .argument => "Argument"
  | .var => "Var"
  | .deadVar => "DeadVar"
  | .returnVar => "ReturnVar"
  | .affectOuter => "AffectOuter"
  | .affectInner => "AffectInner"
  | .spawnOuter => "SpawnOuter"
  | .spawnInner => "SpawnInner"

theorem NodeKind.lookup_name (k : NodeKind) : NodeKind.names.lookup k.name = some k := by
  cases k <;> decide

def NodeKind.decode : Decoder NodeKind := decodeName NodeKind.names

def Point.encode (p : Point Float) : Json := record [("x", float p.x), ("y", float p.y)]

def Point.form : Json.Form (Point Float) where
  name := "Point"
  fields := [field "x" decodeFloat fun x p => { p with x },
    field "y" decodeFloat fun y p => { p with y }]
  blank := Point.zero

def Size.encode (s : Size Float) : Json :=
  record [("width", float s.width), ("height", float s.height)]

def Size.form : Json.Form (Size Float) where
  name := "Size"
  fields := [field "width" decodeFloat fun width s => { s with width },
    field "height" decodeFloat fun height s => { s with height }]
  blank := Size.zero

def Node.encode (n : Node Float) : Json :=
  record ([("id", .string n.id), ("type", .string n.kind.name)] ++
    (n.parent.map fun p => ("parentNode", Json.string p)).toList ++
    [("position", n.position.encode)] ++
    (n.size.map fun s => ("style", s.encode)).toList)

def Node.form : Json.Form (Node Float) where
  name := "FlowNode"
  fields := [field "id" decodeString fun id n => { n with id },
    field "type" NodeKind.decode fun kind n => { n with kind },
    (field "parentNode" (decodeOption decodeString) fun parent n => { n with parent }).optional,
    (field "position" Point.form.decode fun position n => { n with position }).optional,
    (field "style" (decodeOption Size.form.decode) fun size n => { n with size }).optional]
  blank := Node.make "" .unit none

def Edge.encode (e : Edge) : Json :=
  record [("id", .string e.id), ("source", .string e.source), ("target", .string e.target)]

def Edge.form : Json.Form Edge where
  name := "FlowEdge"
  fields := [field "id" decodeString fun id e => { e with id },
    field "source" decodeString fun source e => { e with source },
    field "target" decodeString fun target e => { e with target }]
  blank := ⟨"", "", ""⟩

def Design.encode (d : Design Float) : Json :=
  list [list (d.nodes.map Node.encode), list (d.edges.map Edge.encode)]

def Design.decode : Decoder (Design Float) := fun value => do
  let (nodes, edges) ← decodePair (decodeList Node.form.decode) (decodeList Edge.form.decode) value
  .ok ⟨nodes, edges⟩

end FlowStudio
