/-! Which node stands in which. Links from nodes to their parents may go round in a circle; every
circle is cut at one link, and what is left is a forest. -/

namespace FlowStudio.Layout

abbrev Links := List (Option Nat)

def Links.up (links : Links) (v : Nat) : Option Nat := (links[v]?).join

/-- What a walk up the links met: the nodes not done before, last one first, and the node at which
it came round to itself. -/
structure Walk where
  seen : List Nat
  cut : Option Nat

def walk (links : Links) (done : List Nat) : Nat → Option Nat → List Nat → Walk
  | 0, _, seen => ⟨seen, none⟩
  | _, none, seen => ⟨seen, none⟩
  | fuel + 1, some v, seen =>
    if done.contains v then ⟨seen, none⟩
    else if seen.contains v then ⟨seen, some v⟩
    else walk links done fuel (links.up v) (v :: seen)

def Links.cutAt (links : Links) : Option Nat → Links
  | some u => links.set u none
  | none => links

def cutFrom : List Nat → Links → List Nat → Links
  | [], links, _ => links
  | v :: vs, links, done =>
    -- a walk meets each node once before it comes round
    let w := walk links done (links.length + 1) (some v) []
    cutFrom vs (links.cutAt w.cut) (w.seen ++ done)

/-- Cuts every circle, at the node that a walk from the lowest number comes to first. -/
def cutCycles (links : Links) : Links := cutFrom (List.range links.length) links []

def Links.under (links : Links) (parent : Option Nat) : List Nat :=
  links.zipIdx.filterMap fun (up, v) => if up = parent then some v else none

inductive Forest where
  | nil
  | node (index : Nat) (inside : Forest) (rest : Forest)
  deriving DecidableEq, Repr

namespace Forest

def ofList (inside : Nat → Forest) : List Nat → Forest
  | [] => .nil
  | v :: vs => .node v (inside v) (ofList inside vs)

def grow (links : Links) : Nat → List Nat → Forest
  | 0, _ => .nil
  | fuel + 1, vs => ofList (fun v => grow links fuel (links.under (some v))) vs

def postorder : Forest → List Nat
  | .nil => []
  | .node v inside rest => inside.postorder ++ v :: rest.postorder

def tops : Forest → List Nat
  | .nil => []
  | .node v _ rest => v :: rest.tops

end Forest

def Links.forest (links : Links) : Forest := Forest.grow links links.length (links.under none)

end FlowStudio.Layout
