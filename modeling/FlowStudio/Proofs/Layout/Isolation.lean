import FlowStudio.Proofs.Layout.Twins

/-! Scopes are isolated. What stands inside a node is laid out by itself, whatever stands elsewhere
in the design and whatever numbers its own nodes have there. -/

namespace FlowStudio.Layout
variable {α : Type} [Scalar α]

section
variable {placer : Placer α} {config : LayoutConfig α} {design : Design α} {node node' : Node α}

theorem finalSize_congr (hkind : node.kind = node'.kind)
    (hsize : node'.kind.isContainer = false → node.size = node'.size)
    (extent : Option (Size α)) :
    finalSize config (some node) extent = finalSize config (some node') extent := by
  simp only [finalSize, hkind]
  cases hc : node'.kind.isContainer with
  | true => rfl
  | false => rw [hsize hc]

end

namespace SameInside
variable {design design' : Design α} {holder holder' : Option Nat}
  (h : SameInside design design' holder holder') (placer : Placer α) (config : LayoutConfig α)
include h

theorem alike_of_sizeOf_eq {p p' : Option Nat}
    (hp : TwinScopes design design' holder holder' p p')
    (hsizes : ∀ v ∈ (effectiveLinks design.nodes).under p, ∀ v',
      Twin design design' holder holder' v v' →
        sizeOf placer config design v = sizeOf placer config design' v') :
    (scopeOf placer config design p).Alike (Twin design design' holder holder')
      (scopeOf placer config design' p') := by
  unfold scopeOf
  rw [members_measured, members_measured]
  apply alike_placeScope
  · have hmembers := (List.forall₂_and_left _ _).mpr ⟨fun v hv => hv, h.forall₂_under hp⟩
    exact List.rel_map (fun v v' hv => ⟨hv.2, hsizes v hv.1 v' hv.2⟩) hmembers
  · rw [List.map_map, List.map_map]
    show scopeArcs (List.map id _) _ = scopeArcs (List.map id _) _
    rw [List.map_id, List.map_id]
    exact h.scopeArcs_eq hp

theorem sizeOf_eq {v v' : Nat} (hv : Twin design design' holder holder' v v') :
    sizeOf placer config design v = sizeOf placer config design' v' := by
  induction v using (wooded_effectiveLinks design.nodes).wellFounded_child.induction
    generalizing v' with
  | h v ih =>
    have hscope := h.alike_of_sizeOf_eq placer config (.inner hv) fun u hu u' htwin =>
      ih u (Links.mem_under_some_iff.mp hu) htwin
    obtain ⟨node, node', hnode, hnode', hsame⟩ := hv.same
    rw [sizeOf, sizeOf, hnode, hnode', hscope.extent_eq]
    exact finalSize_congr hsame.kind_eq hsame.size_eq _

theorem alike_scopeOf {p p' : Option Nat} (hp : TwinScopes design design' holder holder' p p') :
    (scopeOf placer config design p).Alike (Twin design design' holder holder')
      (scopeOf placer config design' p') :=
  h.alike_of_sizeOf_eq placer config hp fun _ _ _ htwin => h.sizeOf_eq placer config htwin

theorem getElem?_arrange_eq {v v' : Nat} (hv : Twin design design' holder holder' v v') :
    (arrange placer config design).nodes[v]? = (arrange placer config design').nodes[v']? := by
  obtain ⟨node, node', hnode, hnode', hsame⟩ := hv.same
  obtain ⟨p, hp, hindex, hsize, hlaid⟩ := exists_place placer config hnode
  obtain ⟨q, hq, hindex', hsize', hlaid'⟩ := exists_place placer config hnode'
  have hscope := h.alike_scopeOf placer config (h.twinScopes_up hv)
  obtain ⟨r, hr, halike⟩ := exists_of_mem_of_forall₂ hscope.placed hp
  -- a twin has one number in the other design
  have hr' : r.index = v' := by
    have htwin := halike.index
    rw [hindex] at htwin
    exact (htwin.eq_iff h hv).mp rfl
  obtain rfl : r = q := eq_of_index_eq hr hq (hr'.trans hindex'.symm)
  rw [hlaid, hlaid', halike.position_eq, halike.size_eq]
  obtain ⟨id, kind, parent, position, size⟩ := node
  obtain ⟨rfl, rfl, rfl, hsizes⟩ := hsame
  cases hc : node'.kind.isContainer with
  | true => rfl
  | false =>
    obtain rfl : size = node'.size := hsizes hc
    rfl

theorem size_holder_eq {v v' : Nat} (hv : holder = some v) (hv' : holder' = some v') :
    (arrange placer config design).nodes[v]?.map Node.size =
      (arrange placer config design').nodes[v']?.map Node.size := by
  have hscope := h.alike_scopeOf placer config .holder
  have hholder := h.same_holder
  rw [hv, hv'] at hscope hholder
  cases hholder with
  | @node _ _ node node' hnode hnode' hkind hdeclared =>
    obtain ⟨p, -, -, hsize, hlaid⟩ := exists_place placer config hnode
    obtain ⟨q, -, -, hsize', hlaid'⟩ := exists_place placer config hnode'
    have hfinal : p.size = q.size := by
      rw [hsize, hsize', sizeOf, sizeOf, hnode, hnode', hscope.extent_eq]
      exact finalSize_congr hkind hdeclared _
    rw [hlaid, hlaid', Option.map_some, Option.map_some, hkind, hfinal]
    cases hc : node'.kind.isContainer with
    | true => rfl
    | false => rw [hdeclared hc]

end SameInside

/-- With any placer, what stands inside a node makes its layout and the size of that node, and
nothing else in the design makes a difference to either. -/
theorem scopes_are_isolated (placer : Placer α) (config : LayoutConfig α) (design design' : Design α)
    (holder holder' : Option Nat) (h : SameInside design design' holder holder') :
    let laid := arrange placer config design
    let laid' := arrange placer config design'
    (∀ v v', holder = some v → holder' = some v' →
      laid.nodes[v]?.map Node.size = laid'.nodes[v']?.map Node.size) ∧
    nodesInside (effectiveLinks design.nodes) laid.nodes holder =
      nodesInside (effectiveLinks design'.nodes) laid'.nodes holder' := by
  intro laid laid'
  refine ⟨fun v v' hv hv' => h.size_holder_eq placer config hv hv', ?_⟩
  apply filterMap_eq_of_forall₂ h.forall₂_within
  intro v v' htwin
  exact h.getElem?_arrange_eq placer config htwin

def plainDesign : Design ℚ where
  nodes := [.make "f" .function none, (.make "a" .argument (some "f") : Node ℚ).withSize ⟨10, 20⟩,
    .make "v" .var (some "f"), .make "m" .module none]
  edges := [.between "a" "v", .between "v" "m"]

def crowdedDesign : Design ℚ where
  nodes := [.make "x" .var none, (.make "a" .argument (some "f") : Node ℚ).withSize ⟨10, 20⟩,
    .make "f" .function (some "m"), .make "m" .module none, .make "v" .var (some "f"),
    .make "y" .var (some "m")]
  edges := [.between "x" "a", .between "f" "y", .between "a" "v", .between "v" "none"]

theorem scopes_are_isolated_crowded :
    let laid := arrange (ranked .default) .default plainDesign
    let laid' := arrange (ranked .default) .default crowdedDesign
    SameInside plainDesign crowdedDesign (some 0) (some 2) ∧
      laid.nodes[0]?.map Node.size = laid'.nodes[2]?.map Node.size ∧
      [1, 2].filterMap (laid.nodes[·]?) = [1, 4].filterMap (laid'.nodes[·]?) := by
  intro laid laid'
  have hwithin : (effectiveLinks plainDesign.nodes).within (some 0) = [1, 2] := by decide
  have hwithin' : (effectiveLinks crowdedDesign.nodes).within (some 2) = [1, 4] := by decide
  have hnodes : List.Forall₂ Node.SameInput
      (nodesInside (effectiveLinks plainDesign.nodes) plainDesign.nodes (some 0))
      (nodesInside (effectiveLinks crowdedDesign.nodes) crowdedDesign.nodes (some 2)) := by
    rw [nodesInside, nodesInside, hwithin, hwithin']
    exact .cons ⟨rfl, rfl, rfl, fun _ => rfl⟩ (.cons ⟨rfl, rfl, rfl, fun _ => rfl⟩ .nil)
  have hsame : SameInside plainDesign crowdedDesign (some 0) (some 2) :=
    ⟨by decide, by decide, .node rfl rfl rfl fun _ => rfl, hnodes, by decide⟩
  obtain ⟨hsize, hinside⟩ :=
    scopes_are_isolated (ranked .default) .default plainDesign crowdedDesign _ _ hsame
  rw [nodesInside, nodesInside, hwithin, hwithin'] at hinside
  exact ⟨hsame, hsize 0 2 rfl rfl, hinside⟩

end FlowStudio.Layout
