import FlowStudio.Proofs.Layout.Forest
import FlowStudio.Proofs.Layout.Scopes

/-! A nested layout, scope by scope: what stands in a node is placed as a scope of its own, and
every node has its place in the scope of its parent. -/

namespace FlowStudio.Layout
variable {α : Type}

theorem lt_of_index? {nodes : List (Node α)} {id : String} {u : Nat}
    (h : index? nodes id = some u) : u < nodes.length := by
  obtain ⟨⟨node, v⟩, hfind, rfl⟩ := Option.map_eq_some_iff.mp h
  have hmem := List.mem_reverse.mp (List.mem_of_find?_eq_some hfind)
  exact (List.getElem?_eq_some_iff.mp (List.mk_mem_zipIdx_iff_getElem?.mp hmem)).1

theorem length_effectiveLinks (nodes : List (Node α)) :
    (effectiveLinks nodes).length = nodes.length :=
  (length_cutCycles _).trans (List.length_map _)

theorem wooded_effectiveLinks (nodes : List (Node α)) : (effectiveLinks nodes).Wooded where
  wellFounded := wellFounded_cutCycles _
  lt_length {u v} h := by
    have hparent : (parentLinks nodes).IsParent u v := isParent_of_cutCycles h
    rw [Links.IsParent, Links.up, parentLinks, List.getElem?_map] at hparent
    rw [length_effectiveLinks]
    cases hv : nodes[v]? with
    | none => simp [hv] at hparent
    | some node =>
      rw [hv, Option.map_some, Option.join_some] at hparent
      obtain ⟨id, -, hindex⟩ := Option.bind_eq_some_iff.mp hparent
      exact lt_of_index? hindex

def forestOf (design : Design α) (parent : Option Nat) : Forest :=
  .ofList (effectiveLinks design.nodes).inside ((effectiveLinks design.nodes).under parent)

theorem inside_eq_forestOf (design : Design α) (v : Nat) :
    (effectiveLinks design.nodes).inside v = forestOf design (some v) :=
  (wooded_effectiveLinks design.nodes).inside_eq v

variable [Scalar α]

section
variable (placer : Placer α) (config : LayoutConfig α) (nodes : List (Node α)) (pairs : List Arc)

theorem members_measure_ofList (inside : Nat → Forest) (vs : List Nat) :
    (measure placer config nodes pairs (.ofList inside vs)).members = vs.map fun v =>
      ⟨v, finalSize config nodes[v]?
        (placeScope placer pairs (measure placer config nodes pairs (inside v)).members).extent⟩ := by
  induction vs with
  | nil => rfl
  | cons v vs ih => rw [Forest.ofList, measure, ih]; rfl

theorem inside_measure_ofList (inside : Nat → Forest) (vs : List Nat) :
    (measure placer config nodes pairs (.ofList inside vs)).inside = vs.flatMap fun v =>
      (measure placer config nodes pairs (inside v)).inside ++
        (placeScope placer pairs (measure placer config nodes pairs (inside v)).members).placed := by
  induction vs with
  | nil => rfl
  | cons v vs ih => rw [Forest.ofList, measure, ih]; rfl

end

section
variable (placer : Placer α) (config : LayoutConfig α) (design : Design α)

def measured (parent : Option Nat) : Measured α :=
  measure placer config design.nodes (edgePairs design.nodes design.edges) (forestOf design parent)

def scopeOf (parent : Option Nat) : Scope α :=
  placeScope placer (edgePairs design.nodes design.edges) (measured placer config design parent).members

def sizeOf (v : Nat) : Size α :=
  finalSize config design.nodes[v]? (scopeOf placer config design (some v)).extent

theorem members_measured (parent : Option Nat) :
    (measured placer config design parent).members =
      ((effectiveLinks design.nodes).under parent).map fun v => ⟨v, sizeOf placer config design v⟩ := by
  rw [measured, forestOf, members_measure_ofList]
  simp only [inside_eq_forestOf]
  rfl

theorem mem_inside_measured_iff {parent : Option Nat} {p : Placed α} :
    p ∈ (measured placer config design parent).inside ↔
      ∃ v ∈ (effectiveLinks design.nodes).under parent,
        p ∈ (measured placer config design (some v)).inside ∨
          p ∈ (scopeOf placer config design (some v)).placed := by
  rw [measured, forestOf, inside_measure_ofList, List.mem_flatMap]
  simp only [inside_eq_forestOf, List.mem_append]
  rfl

variable {placer config design}

theorem member_of_mem_scopeOf {parent : Option Nat} {p : Placed α}
    (hp : p ∈ (scopeOf placer config design parent).placed) :
    p.index ∈ (effectiveLinks design.nodes).under parent ∧
      p.size = sizeOf placer config design p.index := by
  have hmem := member_mem_iff.mpr ⟨p, hp, rfl⟩
  rw [members_measured] at hmem
  obtain ⟨v, hv, heq⟩ := List.mem_map.mp hmem
  obtain ⟨rfl, hsize⟩ := Member.mk.inj heq
  exact ⟨hv, hsize.symm⟩

theorem exists_mem_scopeOf {v : Nat} (hv : v < design.nodes.length) :
    ∃ p ∈ (scopeOf placer config design ((effectiveLinks design.nodes).up v)).placed,
      p.index = v := by
  have hunder : v ∈ (effectiveLinks design.nodes).under ((effectiveLinks design.nodes).up v) :=
    Links.mem_under_iff.mpr ⟨(length_effectiveLinks design.nodes).symm ▸ hv, rfl⟩
  have hmem : ⟨v, sizeOf placer config design v⟩ ∈
      (measured placer config design ((effectiveLinks design.nodes).up v)).members := by
    rw [members_measured]
    exact List.mem_map.mpr ⟨v, hunder, rfl⟩
  obtain ⟨p, hp, heq⟩ := member_mem_iff.mp hmem
  exact ⟨p, hp, congrArg Member.index heq⟩

theorem exists_scope_of_mem_inside {p : Placed α} (v : Nat)
    (hp : p ∈ (measured placer config design (some v)).inside) :
    ∃ parent, p ∈ (scopeOf placer config design parent).placed := by
  induction v using (wooded_effectiveLinks design.nodes).wellFounded_child.induction with
  | h v ih =>
    obtain ⟨u, hu, hinside | hscope⟩ := (mem_inside_measured_iff placer config design).mp hp
    · exact ih u (Links.mem_under_some_iff.mp hu) hinside
    · exact ⟨some u, hscope⟩

theorem mem_inside_of_mem_scope {p : Placed α} {v : Nat} (hv : v < design.nodes.length)
    (hp : p ∈ (measured placer config design (some v)).inside ∨
      p ∈ (scopeOf placer config design (some v)).placed) :
    p ∈ (measured placer config design none).inside := by
  have hwooded := wooded_effectiveLinks design.nodes
  have hlen := length_effectiveLinks design.nodes
  induction v using hwooded.wellFounded.induction with
  | h v ih =>
    -- what is inside a node is inside its parent too
    have hin : p ∈ (measured placer config design ((effectiveLinks design.nodes).up v)).inside :=
      (mem_inside_measured_iff placer config design).mpr
        ⟨v, Links.mem_under_iff.mpr ⟨hlen ▸ hv, rfl⟩, hp⟩
    cases hup : (effectiveLinks design.nodes).up v with
    | none => rwa [hup] at hin
    | some u =>
      rw [hup] at hin
      exact ih u hup (hlen ▸ hwooded.lt_length hup) (.inl hin)

theorem mem_placeAll_iff {p : Placed α} :
    p ∈ placeAll placer config design.nodes (edgePairs design.nodes design.edges)
        (effectiveLinks design.nodes).forest ↔
      ∃ parent, p ∈ (scopeOf placer config design parent).placed := by
  have hwooded := wooded_effectiveLinks design.nodes
  rw [placeAll, hwooded.forest_eq, List.mem_append]
  change p ∈ (measured placer config design none).inside ∨
    p ∈ (scopeOf placer config design none).placed ↔ _
  constructor
  · rintro (hinside | hscope)
    · obtain ⟨v, -, hv | hv⟩ := (mem_inside_measured_iff placer config design).mp hinside
      · exact exists_scope_of_mem_inside v hv
      · exact ⟨some v, hv⟩
    · exact ⟨none, hscope⟩
  · rintro ⟨_ | v, hp⟩
    · exact .inr hp
    · have hparent := Links.mem_under_some_iff.mp (member_of_mem_scopeOf hp).1
      have hlt := hwooded.lt_length hparent
      exact .inl (mem_inside_of_mem_scope (length_effectiveLinks design.nodes ▸ hlt) (.inr hp))

theorem exists_find?_placeAll (placer : Placer α) (config : LayoutConfig α) (design : Design α)
    {v : Nat} (hv : v < design.nodes.length) :
    ∃ p, (placeAll placer config design.nodes (edgePairs design.nodes design.edges)
      (effectiveLinks design.nodes).forest).find? (·.index == v) = some p := by
  obtain ⟨p, hp, hindex⟩ := exists_mem_scopeOf hv
  rw [← Option.isSome_iff_exists, List.find?_isSome]
  exact ⟨p, mem_placeAll_iff.mpr ⟨_, hp⟩, beq_iff_eq.mpr hindex⟩

/-- Every node gets its place in the scope of its parent, half a margin further in, and a container
gets the size that it was placed with. -/
theorem exists_place (placer : Placer α) (config : LayoutConfig α) {v : Nat} {node : Node α}
    (hnode : design.nodes[v]? = some node) :
    ∃ p ∈ (scopeOf placer config design ((effectiveLinks design.nodes).up v)).placed,
      p.index = v ∧ p.size = sizeOf placer config design v ∧
      (arrange placer config design).nodes[v]? = some { node with
        position := p.position.offset (Scalar.half config.marginX) (Scalar.half config.marginY)
        size := if node.kind.isContainer then some p.size else node.size } := by
  obtain ⟨p, hfind⟩ :=
    exists_find?_placeAll placer config design (List.getElem?_eq_some_iff.mp hnode).1
  have hindex := List.find?_some hfind
  obtain rfl : p.index = v := beq_iff_eq.mp hindex
  obtain ⟨parent, hp⟩ := mem_placeAll_iff.mp (List.mem_of_find?_eq_some hfind)
  obtain ⟨hunder, hsize⟩ := member_of_mem_scopeOf hp
  refine ⟨p, (Links.mem_under_iff.mp hunder).2 ▸ hp, rfl, hsize, ?_⟩
  simp only [arrange, List.getElem?_mapIdx, hnode, Option.map_some, finish, hfind]

end
end FlowStudio.Layout
