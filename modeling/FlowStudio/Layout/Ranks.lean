import FlowStudio.Geometry
import FlowStudio.Layout.FeedbackArcs

/-! Ranks and the order inside them. The rank of a node is the length of the longest path that ends
at it; a rank is ordered by the mean place of each node's predecessors. -/

namespace FlowStudio.Layout

def predecessors (arcs : List Arc) (v : Nat) : List Nat := (arcs.filter (·.2 == v)).map (·.1)

structure Numbering where
  values : Array Nat

namespace Numbering

def zeros (n : Nat) : Numbering := ⟨Array.replicate n 0⟩

def number (a : Numbering) (v : Nat) : Nat := a.values.getD v 0

def assign (a : Numbering) (v value : Nat) : Numbering := ⟨a.values.setIfInBounds v value⟩

theorem number_zeros (n v : Nat) : (zeros n).number v = 0 := by
  simp only [number, zeros, Array.getD_eq_getD_getElem?, Array.getElem?_replicate]
  split <;> rfl

theorem number_assign (a : Numbering) (u v value : Nat) :
    (a.assign v value).number u = if u = v ∧ v < a.values.size then value else a.number u := by
  simp only [number, assign, Array.getD_eq_getD_getElem?, Array.getElem?_setIfInBounds]
  grind

end Numbering

def rankFrom (arcs : List Arc) : List Nat → Numbering → Numbering
  | [], rank => rank
  | v :: vs, rank =>
    let value := ((predecessors arcs v).map fun u => rank.number u + 1).foldl max 0
    rankFrom arcs vs (rank.assign v value)

def rankAlong (n : Nat) (arcs : List Arc) (order : List Nat) : Numbering :=
  rankFrom arcs order (.zeros n)

def rankCount (n : Nat) (rank : Numbering) : Nat :=
  ((List.range n).map rank.number).foldl max 0 + 1

def layers (n : Nat) (rank : Numbering) : List (List Nat) :=
  (List.range (rankCount n rank)).map fun r => (List.range n).filter fun v => rank.number v == r

section
variable {α : Type} [Scalar α]

def sum (xs : List α) : α := xs.foldl (· + ·) (Scalar.nat 0)

/-- The mean place of a node's predecessors; a node without any stays where it is. -/
def centre (α : Type) [Scalar α] (slot : Numbering) (preds : List Nat) (place : Nat) : α :=
  if preds.isEmpty then Scalar.nat place
  else sum (preds.map fun u => Scalar.nat (slot.number u)) / Scalar.nat preds.length

def keyed (α : Type) [Scalar α] (arcs : List Arc) (slot : Numbering) :
    Nat → List Nat → List (Nat × α)
  | _, [] => []
  | place, v :: vs =>
    (v, centre α slot (predecessors arcs v) place) :: keyed α arcs slot (place + 1) vs

def orderLayer (α : Type) [Scalar α] (arcs : List Arc) (slot : Numbering) (layer : List Nat) :
    List Nat :=
  ((keyed α arcs slot 0 layer).mergeSort fun a b => Scalar.le a.2 b.2).map (·.1)

def slotsOf (slot : Numbering) : Nat → List Nat → Numbering
  | _, [] => slot
  | place, v :: vs => slotsOf (slot.assign v place) (place + 1) vs

def sweep (α : Type) [Scalar α] (arcs : List Arc) :
    List (List Nat) → Numbering → List (List Nat)
  | [], _ => []
  | layer :: rest, slot =>
    let ordered := orderLayer α arcs slot layer
    ordered :: sweep α arcs rest (slotsOf slot 0 ordered)

end
end FlowStudio.Layout
