import FlowStudio.Proofs.Layout.Nested
import Mathlib.Data.List.Forall2

/-! What a layout reads of a design. It reads no position and no size of a container, and it writes
nothing else, so a layout that is laid out again stays as it is. -/

namespace FlowStudio
variable {α : Type}

/-- Nodes that differ at most in their positions and, if they are containers, in their sizes. -/
structure Node.SameInput (m n : Node α) : Prop where
  id_eq : m.id = n.id
  kind_eq : m.kind = n.kind
  parent_eq : m.parent = n.parent
  size_eq : n.kind.isContainer = false → m.size = n.size

theorem Node.SameInput.symm {m n : Node α} (h : m.SameInput n) : n.SameInput m where
  id_eq := h.id_eq.symm
  kind_eq := h.kind_eq.symm
  parent_eq := h.parent_eq.symm
  size_eq hkind := (h.size_eq (h.kind_eq ▸ hkind)).symm

variable [Scalar α]

def Node.input (n : Node α) : Node α :=
  { n with
    position := Point.zero
    size := if n.kind.isContainer then none else n.size }

theorem Node.SameInput.input_eq {m n : Node α} (h : m.SameInput n) : m.input = n.input := by
  obtain ⟨id, kind, parent, position, size⟩ := m
  obtain ⟨rfl, rfl, rfl, hsize⟩ := h
  cases hkind : n.kind.isContainer with
  | true => simp [Node.input, hkind]
  | false =>
    obtain rfl : size = n.size := hsize hkind
    simp [Node.input, hkind]

namespace Layout

theorem index?_map_input (nodes : List (Node α)) (id : String) :
    index? (nodes.map Node.input) id = index? nodes id := by
  rw [index?, List.zipIdx_map, ← List.map_reverse, List.find?_map, Option.map_map]
  rfl

theorem effectiveLinks_map_input (nodes : List (Node α)) :
    effectiveLinks (nodes.map Node.input) = effectiveLinks nodes := by
  have hindex : index? (nodes.map Node.input) = index? nodes := by
    funext id
    exact index?_map_input nodes id
  rw [effectiveLinks, parentLinks, List.map_map, hindex]
  rfl

theorem edgePairs_map_input (nodes : List (Node α)) (edges : List Edge) :
    edgePairs (nodes.map Node.input) edges = edgePairs nodes edges := by
  simp only [edgePairs, index?_map_input]

section
variable (placer : Placer α) (config : LayoutConfig α) (nodes : List (Node α)) (pairs : List Arc)

theorem finalSize_map_input (v : Nat) (extent : Option (Size α)) :
    finalSize config (nodes.map Node.input)[v]? extent = finalSize config nodes[v]? extent := by
  rw [List.getElem?_map]
  cases nodes[v]? with
  | none => rfl
  | some node =>
    cases hkind : node.kind.isContainer <;> simp [finalSize, Node.input, hkind]

theorem measure_map_input (forest : Forest) :
    measure placer config (nodes.map Node.input) pairs forest =
      measure placer config nodes pairs forest := by
  induction forest with
  | nil => rfl
  | node v inside rest ihinside ihrest =>
    simp only [measure, ihinside, ihrest, finalSize_map_input]

theorem placeAll_map_input (forest : Forest) :
    placeAll placer config (nodes.map Node.input) pairs forest =
      placeAll placer config nodes pairs forest := by
  rw [placeAll, measure_map_input, placeAll]

theorem finish_input {placed : List (Placed α)} {p : Placed α} {v : Nat}
    (h : placed.find? (·.index == v) = some p) (node : Node α) :
    finish config placed v node.input = finish config placed v node := by
  cases hkind : node.kind.isContainer <;> simp [finish, h, Node.input, hkind]

theorem sameInput_finish (placed : List (Placed α)) (v : Nat) (node : Node α) :
    (finish config placed v node).SameInput node := by
  rw [finish]
  split
  · exact ⟨rfl, rfl, rfl, fun _ => rfl⟩
  · refine ⟨rfl, rfl, rfl, fun hkind => ?_⟩
    rw [if_neg (by simp [hkind])]

theorem arrange_map_input (edges : List Edge) :
    arrange placer config ⟨nodes.map Node.input, edges⟩ = arrange placer config ⟨nodes, edges⟩ := by
  simp only [arrange, edgePairs_map_input, effectiveLinks_map_input, placeAll_map_input,
    Design.mk.injEq, and_true]
  apply List.ext_getElem?
  intro v
  simp only [List.getElem?_mapIdx, List.getElem?_map]
  cases hnode : nodes[v]? with
  | none => rfl
  | some node =>
    -- every node is placed, so nothing of it is taken over unread
    obtain ⟨p, hp⟩ := exists_find?_placeAll placer config ⟨nodes, edges⟩
      (List.getElem?_eq_some_iff.mp hnode).1
    simp only [Option.map_some, finish_input config hp]

theorem map_input_eq {nodes nodes' : List (Node α)} (h : List.Forall₂ Node.SameInput nodes nodes') :
    nodes.map Node.input = nodes'.map Node.input := by
  induction h with
  | nil => rfl
  | cons h _ ih => rw [List.map_cons, List.map_cons, h.input_eq, ih]

theorem sameInput_arrange (design : Design α) :
    List.Forall₂ Node.SameInput (arrange placer config design).nodes design.nodes := by
  rw [List.forall₂_iff_get]
  refine ⟨List.length_mapIdx, fun v hv hv' => ?_⟩
  simp only [arrange, List.get_eq_getElem, List.getElem_mapIdx]
  exact sameInput_finish config _ v _

theorem arrange_congr {nodes nodes' : List (Node α)} (h : List.Forall₂ Node.SameInput nodes nodes')
    (edges : List Edge) :
    arrange placer config ⟨nodes, edges⟩ = arrange placer config ⟨nodes', edges⟩ := by
  rw [← arrange_map_input, map_input_eq h, arrange_map_input]

end

/-- With any placer, a layout changes positions and sizes of containers only, and what these were
before makes no difference to it. -/
theorem arrange_ignores_its_outputs (placer : Placer α) (config : LayoutConfig α)
    (design : Design α) :
    let laid := arrange placer config design
    List.Forall₂ Node.SameInput laid.nodes design.nodes ∧ laid.edges = design.edges ∧
      (∀ nodes, List.Forall₂ Node.SameInput nodes design.nodes →
        arrange placer config ⟨nodes, design.edges⟩ = laid) ∧
      arrange placer config laid = laid := by
  intro laid
  have hsame : List.Forall₂ Node.SameInput laid.nodes design.nodes :=
    sameInput_arrange placer config design
  exact ⟨hsame, rfl, fun nodes h => arrange_congr placer config h design.edges,
    arrange_congr placer config hsame design.edges⟩

def tangledNodes : List (Node ℚ) :=
  [.make "a" .module (some "b"), .make "b" .function (some "a"),
    (.make "v" .var (some "a") : Node ℚ).withSize ⟨10, 20⟩, .make "v" .argument (some "x")]

theorem arrange_ignores_its_outputs_tangled :
    let moved := tangledNodes.map fun n =>
      { n with
        position := ⟨7, 9⟩
        size := if n.kind.isContainer then some ⟨1, 1⟩ else n.size }
    let laid := arrange (ranked .default) .default ⟨tangledNodes, [.between "a" "v"]⟩
    moved ≠ tangledNodes ∧
      arrange (ranked .default) .default ⟨moved, [.between "a" "v"]⟩ = laid ∧
      arrange (ranked .default) .default laid = laid := by
  intro moved laid
  have hmoved : List.Forall₂ Node.SameInput moved tangledNodes := by
    rw [List.forall₂_map_left_iff, List.forall₂_same]
    exact fun n _ => ⟨rfl, rfl, rfl, fun hkind => if_neg (by simp [hkind])⟩
  obtain ⟨-, -, hignored, hagain⟩ := arrange_ignores_its_outputs (ranked .default) .default
    (⟨tangledNodes, [.between "a" "v"]⟩ : Design ℚ)
  exact ⟨by decide, hignored moved hmoved, hagain⟩

end Layout
end FlowStudio
