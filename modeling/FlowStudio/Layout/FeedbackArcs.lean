/-! A set of edges to leave out of a graph so that no cycle is left. The nodes are put in a row by
taking sinks to its end and sources to its front, and where there is neither, a node with as many
more edges out than in as there is; the edges that do not point forward in the row are left out. -/

namespace FlowStudio.Layout

abbrev Arc := Nat × Nat

def distinctArcs (n : Nat) (edges : List Arc) : List Arc :=
  (edges.filter fun (s, t) => s < n && t < n && s != t).eraseDups

structure Waiting where
  node : Nat
  into : Nat
  out : Nat
  deriving DecidableEq, Repr

namespace Waiting

def isSink (w : Waiting) : Bool := w.out == 0

def isSource (w : Waiting) : Bool := w.out != 0 && w.into == 0

def isInner (w : Waiting) : Bool := w.out != 0 && w.into != 0

def surplus (w : Waiting) : Int := (w.out : Int) - w.into

end Waiting

def loosen (change : Waiting → Waiting) (waiting : List Waiting) (node : Nat) : List Waiting :=
  -- what changes moves to the front, where it is looked at first
  match waiting.find? (·.node == node) with
  | some w => change w :: waiting.eraseP (·.node == node)
  | none => waiting

def take (arcs : List Arc) (w : Waiting) (waiting : List Waiting) : List Waiting :=
  let others := waiting.eraseP (·.node == w.node)
  let targets := (arcs.filter (·.1 == w.node)).map (·.2)
  let sources := (arcs.filter (·.2 == w.node)).map (·.1)
  let others := targets.foldl (loosen fun w => { w with into := w.into - 1 }) others
  sources.foldl (loosen fun w => { w with out := w.out - 1 }) others

def drain (arcs : List Arc) (fits : Waiting → Bool) : Nat → List Waiting → List Nat × List Waiting
  | 0, waiting => ([], waiting)
  | fuel + 1, waiting =>
    match waiting.find? fits with
    | none => ([], waiting)
    | some w =>
      let (taken, rest) := drain arcs fits fuel (take arcs w waiting)
      (w.node :: taken, rest)

def best? (waiting : List Waiting) : Option Waiting :=
  -- of those with the same surplus it is the foremost
  (waiting.filter Waiting.isInner).foldl (fun best w => match best with
    | none => some w
    | some b => if b.surplus < w.surplus then some w else some b) none

/-- One round takes sinks, then sources, then one inner node. -/
def row (arcs : List Arc) : Nat → List Waiting → List Nat
  | 0, _ => []
  | _, [] => []
  | fuel + 1, waiting =>
    let (sinks, waiting) := drain arcs Waiting.isSink waiting.length waiting
    let (sources, waiting) := drain arcs Waiting.isSource waiting.length waiting
    match best? waiting with
    | none => sources ++ row arcs fuel waiting ++ sinks.reverse
    | some w => sources ++ w.node :: row arcs fuel (take arcs w waiting) ++ sinks.reverse

def entered (arcs : List Arc) : List Waiting :=
  -- each one came to the front when its first edge was read
  ((arcs.flatMap fun (s, t) => [s, t]).eraseDups.map fun v =>
    ⟨v, arcs.countP (·.2 == v), arcs.countP (·.1 == v)⟩).reverse

/-- The nodes that have edges, in a row in which most edges point forward. -/
def sequence (arcs : List Arc) : List Nat :=
  let waiting := entered arcs
  row arcs waiting.length waiting

def keptArcs (arcs : List Arc) : List Arc :=
  let order := sequence arcs
  arcs.filter fun (s, t) => order.idxOf s < order.idxOf t

end FlowStudio.Layout
