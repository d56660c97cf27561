import FlowStudio.Proofs.Layout.Inputs
import FlowStudio.Proofs.Layout.Traversal

/-! A layout in place is the nested layout. When a scope is placed, all that stands in its members has
been placed, so their sizes are final, and what is written once is not written again. -/

namespace FlowStudio.Layout
variable {α : Type}

section
variable {nodes : List (Node α)} {placed : List (Placed α)} {p : Placed α} {v : Nat}

theorem getElem?_modify_eq {β : Type} (f : β → β) (xs : List β) (u v : Nat) :
    (xs.modify u f)[v]? = if u = v then xs[v]?.map f else xs[v]? := by
  rw [List.getElem?_modify]
  split <;> simp

theorem getElem?_putPositions_of_notMem (hv : v ∉ placed.map Placed.index) :
    (placed.foldl putPosition nodes)[v]? = nodes[v]? := by
  induction placed generalizing nodes with
  | nil => rfl
  | cons q qs ih =>
    obtain ⟨hne, hv⟩ := List.ne_and_not_mem_of_not_mem_cons hv
    rw [List.foldl_cons, ih hv, putPosition, getElem?_modify_eq, if_neg hne.symm]

theorem getElem?_putPositions (hn : (placed.map Placed.index).Nodup) (hp : p ∈ placed) :
    (placed.foldl putPosition nodes)[p.index]? = nodes[p.index]?.map (moveTo p.position) := by
  induction placed generalizing nodes with
  | nil => exact absurd hp List.not_mem_nil
  | cons q qs ih =>
    obtain ⟨hq, hn⟩ := List.nodup_cons.mp hn
    rw [List.foldl_cons]
    rcases List.mem_cons.mp hp with rfl | hp
    · rw [getElem?_putPositions_of_notMem hq, putPosition, getElem?_modify_eq, if_pos rfl]
    · have hne : q.index ≠ p.index := fun heq => hq (heq ▸ List.mem_map_of_mem hp)
      rw [ih hn hp, putPosition, getElem?_modify_eq, if_neg hne]

theorem length_putPositions (nodes : List (Node α)) (placed : List (Placed α)) :
    (placed.foldl putPosition nodes).length = nodes.length := by
  induction placed generalizing nodes with
  | nil => rfl
  | cons q qs ih => rw [List.foldl_cons, ih, putPosition, List.length_modify]

theorem resize_moveTo (size : Size α) (position : Point α) (node : Node α) :
    resize size (moveTo position node) = moveTo position (resize size node) := by
  have hkind : (moveTo position node).kind = node.kind := rfl
  rw [resize, resize, hkind]
  split <;> rfl

theorem position_resize (size : Size α) (node : Node α) :
    (resize size node).position = node.position := by
  rw [resize]
  split <;> rfl

end

variable [Scalar α]

theorem resize_sizeOf {placer : Placer α} {config : LayoutConfig α} {design : Design α} {v : Nat}
    {node : Node α} (hnode : design.nodes[v]? = some node) :
    resize (sizeOf placer config design v) node =
      resize (config.containerSize (scopeOf placer config design (some v)).extent) node := by
  rw [resize, resize, sizeOf, hnode, finalSize]
  split <;> rfl

/-- The nodes after what stands in some of them has been placed. -/
structure Fitted (placer : Placer α) (config : LayoutConfig α) (design : Design α) (done : List Nat)
    (nodes : List (Node α)) : Prop where
  length_eq : nodes.length = design.nodes.length
  node_eq : ∀ {v node}, design.nodes[v]? = some node → ∃ position, nodes[v]? =
    some (moveTo position (if v ∈ done then resize (sizeOf placer config design v) node else node))
  position_eq : ∀ u ∈ done, ∀ p ∈ (scopeOf placer config design (some u)).placed,
    nodes[p.index]?.map Node.position = some p.position

namespace Fitted
variable {placer : Placer α} {config : LayoutConfig α} {design : Design α} {done : List Nat}
  {nodes : List (Node α)} {v : Nat}

theorem start : Fitted placer config design [] design.nodes where
  length_eq := rfl
  node_eq {v node} hnode := ⟨node.position, by simp [hnode, moveTo]⟩
  position_eq := by simp

theorem sizeIn_eq (h : Fitted placer config design done nodes) (hv : v < design.nodes.length)
    (hdone : v ∈ done) : sizeIn config nodes v = sizeOf placer config design v := by
  have hnode := List.getElem?_eq_getElem hv
  obtain ⟨position, hat⟩ := h.node_eq hnode
  rw [sizeIn, hat, if_pos hdone, Option.bind_some, ← resize_moveTo, resize, sizeOf, hnode, finalSize]
  cases hkind : design.nodes[v].kind.isContainer <;> simp [moveTo, hkind]

theorem placeMembers_eq {parent : Option Nat}
    (hsizes : ∀ v ∈ (effectiveLinks design.nodes).under parent,
      sizeIn config nodes v = sizeOf placer config design v) :
    placeMembers placer config (edgePairs design.nodes design.edges) nodes
        ((effectiveLinks design.nodes).under parent) =
      ((scopeOf placer config design parent).placed.foldl putPosition nodes,
        (scopeOf placer config design parent).extent) := by
  have hmembers : ((effectiveLinks design.nodes).under parent).map
      (fun v => (⟨v, sizeIn config nodes v⟩ : Member α)) =
        (measured placer config design parent).members := by
    rw [members_measured]
    exact List.map_congr_left fun v hv => by rw [hsizes v hv]
  rw [placeMembers, hmembers]
  rfl

theorem putPositions (h : Fitted placer config design done nodes) (parent : Option Nat) :
    let nodes' := (scopeOf placer config design parent).placed.foldl putPosition nodes
    Fitted placer config design done nodes' ∧
      ∀ p ∈ (scopeOf placer config design parent).placed,
        nodes'[p.index]?.map Node.position = some p.position := by
  intro nodes'
  have hindex := map_index_scopeOf placer config design parent
  have hput : ∀ p ∈ (scopeOf placer config design parent).placed, nodes'[p.index]? =
      nodes[p.index]?.map (moveTo p.position) := fun p hp =>
    getElem?_putPositions (hindex ▸ Links.nodup_under _ parent) hp
  have hkept : ∀ {v}, v ∉ (effectiveLinks design.nodes).under parent → nodes'[v]? = nodes[v]? :=
    fun hv => getElem?_putPositions_of_notMem (hindex ▸ hv)
  have hplaced : ∀ {v}, v ∈ (effectiveLinks design.nodes).under parent →
      ∃ p ∈ (scopeOf placer config design parent).placed, p.index = v := fun hv =>
    List.mem_map.mp (hindex ▸ hv)
  have hposition : ∀ p ∈ (scopeOf placer config design parent).placed,
      nodes'[p.index]?.map Node.position = some p.position := by
    intro p hp
    have hlt := (Links.mem_under_iff.mp (member_of_mem_scopeOf hp).1).1
    rw [length_effectiveLinks, ← h.length_eq] at hlt
    rw [hput p hp, List.getElem?_eq_getElem hlt]
    rfl
  refine ⟨⟨(length_putPositions _ _).trans h.length_eq, fun {v node} hnode => ?_,
    fun u hu p hp => ?_⟩, hposition⟩
  · obtain ⟨position, hat⟩ := h.node_eq hnode
    by_cases hv : v ∈ (effectiveLinks design.nodes).under parent
    · obtain ⟨p, hp, rfl⟩ := hplaced hv
      exact ⟨p.position, by rw [hput p hp, hat]; rfl⟩
    · exact ⟨position, by rw [hkept hv, hat]⟩
  · by_cases hv : p.index ∈ (effectiveLinks design.nodes).under parent
    · -- a node stands in one scope only
      have hup := (Links.mem_under_iff.mp (member_of_mem_scopeOf hp).1).2
      obtain rfl : parent = some u := (Links.mem_under_iff.mp hv).2.symm.trans hup
      exact hposition p hp
    · rw [hkept hv]
      exact h.position_eq u hu p hp

theorem fitInside (h : Fitted placer config design done nodes) (hnew : v ∉ done)
    (hchildren : ∀ u ∈ (effectiveLinks design.nodes).children v, u ∈ done) :
    Fitted placer config design (done ++ [v])
      (fitInside placer config (edgePairs design.nodes design.edges) (effectiveLinks design.nodes)
        nodes v) := by
  have hsizes : ∀ u ∈ (effectiveLinks design.nodes).under (some v),
      sizeIn config nodes u = sizeOf placer config design u := fun u hu =>
    h.sizeIn_eq (length_effectiveLinks design.nodes ▸ (Links.mem_under_iff.mp hu).1)
      (hchildren u hu)
  obtain ⟨hput, hposition⟩ := h.putPositions (some v)
  rw [Layout.fitInside, Links.children, placeMembers_eq hsizes]
  dsimp only
  generalize (scopeOf placer config design (some v)).placed.foldl putPosition nodes = nodes' at *
  refine ⟨(List.length_modify ..).trans hput.length_eq, fun {w node} hnode => ?_,
    fun u hu p hp => ?_⟩
  · obtain ⟨position, hat⟩ := hput.node_eq hnode
    refine ⟨position, ?_⟩
    rw [getElem?_modify_eq, hat]
    by_cases hw : v = w
    · subst hw
      rw [if_pos rfl, if_neg hnew, if_pos (List.mem_append_right _ List.mem_cons_self),
        Option.map_some, resize_moveTo, resize_sizeOf hnode]
    · have hdone : w ∈ done ++ [v] ↔ w ∈ done := by simp [Ne.symm hw]
      simp only [if_neg hw, hdone]
  · -- a new size leaves all positions as they are
    have hsame : ((nodes'.modify v (resize (config.containerSize
        (scopeOf placer config design (some v)).extent)))[p.index]?).map Node.position =
          nodes'[p.index]?.map Node.position := by
      rw [getElem?_modify_eq]
      split
      · simp only [Option.map_map, Function.comp_def, position_resize]
      · rfl
    rw [hsame]
    rcases List.mem_append.mp hu with hu | hu
    · exact hput.position_eq u hu p hp
    · obtain rfl := List.mem_singleton.mp hu
      exact hposition p hp

theorem run (placer : Placer α) (config : LayoutConfig α) {before later : List Nat}
    (h : (effectiveLinks design.nodes).postOrder = before ++ later) :
    Fitted placer config design before (before.foldl (Layout.fitInside placer config
      (edgePairs design.nodes design.edges) (effectiveLinks design.nodes)) design.nodes) := by
  have hw := wooded_effectiveLinks design.nodes
  induction before using List.reverseRecOn generalizing later with
  | nil => exact start
  | append_singleton before v ih =>
    rw [List.append_assoc, List.singleton_append] at h
    rw [List.foldl_concat]
    refine (ih h).fitInside ?_ fun u hu => hw.mem_before_of_isParent h (Links.mem_under_some_iff.mp hu)
    have hnodup := hw.postOrder_perm.nodup_iff.mpr List.nodup_range
    rw [h] at hnodup
    exact fun hv => List.disjoint_of_nodup_append hnodup hv List.mem_cons_self

end Fitted

section
variable (placer : Placer α) (config : LayoutConfig α) (design : Design α)

theorem sizeIn_arrange {v : Nat} (hv : v < design.nodes.length) :
    sizeIn config (arrange placer config design).nodes v = sizeOf placer config design v := by
  have hnode := List.getElem?_eq_getElem hv
  obtain ⟨p, -, -, hsize, hlaid⟩ := exists_place placer config hnode
  rw [sizeIn, hlaid, hsize, sizeOf, hnode, finalSize]
  cases design.nodes[v].kind.isContainer <;> simp

/-- What is written node by node is what the nested layout gives at once. -/
theorem arrangeInPlace_eq : arrangeInPlace placer config design = arrange placer config design := by
  have hw := wooded_effectiveLinks design.nodes
  have hlen := length_effectiveLinks design.nodes
  have hfitted : Fitted placer config design _ _ := Fitted.run placer config
    (List.append_nil (effectiveLinks design.nodes).postOrder).symm
  have hsizes : ∀ v ∈ (effectiveLinks design.nodes).under none,
      sizeIn config ((effectiveLinks design.nodes).postOrder.foldl (fitInside placer config
        (edgePairs design.nodes design.edges) (effectiveLinks design.nodes)) design.nodes) v =
          sizeOf placer config design v := by
    intro v hv
    have hlt := (Links.mem_under_iff.mp hv).1
    exact hfitted.sizeIn_eq (hlen ▸ hlt) (hw.mem_postOrder_iff.mpr hlt)
  have hroots := Fitted.placeMembers_eq hsizes
  obtain ⟨hput, hposition⟩ := hfitted.putPositions none
  rw [arrangeInPlace, hroots]
  dsimp only
  rw [arrange, Design.mk.injEq, and_iff_left rfl]
  apply List.ext_getElem?
  intro v
  cases hnode : design.nodes[v]? with
  | none =>
    have hout := List.getElem?_eq_none_iff.mp hnode
    rw [List.getElem?_eq_none, List.getElem?_eq_none]
    · rwa [List.length_mapIdx]
    · rwa [List.length_map, hput.length_eq]
  | some node =>
    have hv : v < (effectiveLinks design.nodes).length :=
      hlen ▸ (List.getElem?_eq_some_iff.mp hnode).1
    obtain ⟨p, hp, rfl, hsize, hlaid⟩ := exists_place placer config hnode
    obtain ⟨position, hat⟩ := hput.node_eq hnode
    have hplaced : position = p.position := by
      have hmoved : some position = some p.position := by
        cases hup : (effectiveLinks design.nodes).up p.index with
        | none => rw [← hposition p (hup ▸ hp), hat]; rfl
        | some u =>
          have hu := hw.mem_postOrder_iff.mpr (hw.lt_length hup)
          rw [← hput.position_eq u hu p (hup ▸ hp), hat]; rfl
      exact Option.some.inj hmoved
    refine Eq.trans ?_ hlaid.symm
    rw [List.getElem?_map, hat, if_pos (hw.mem_postOrder_iff.mpr hv), hplaced, ← hsize]
    cases hkind : node.kind.isContainer <;> simp [moveTo, resize, hkind]

end

/-- The stack runs empty, and gives every node once, after all that stands in it, in the order of the
recursion. So the scopes that are placed hold every node once, and the sizes that one of them is
placed by are those of the finished layout. -/
theorem nodes_are_laid_out_once (placer : Placer α) (config : LayoutConfig α) (design : Design α) :
    let links := effectiveLinks design.nodes
    let order := links.postOrder
    let laid := arrangeInPlace placer config design
    let fitted (done : List Nat) := done.foldl
      (fitInside placer config (edgePairs design.nodes design.edges) links) design.nodes
    (∀ fuel, 2 * design.nodes.length ≤ fuel →
      links.traversal.run links.children fuel = ⟨[], order⟩) ∧
    Forest.Grown links.children (links.under none) links.forest ∧
    (∀ parent, (links.under parent).Pairwise (· < ·)) ∧
    order = links.forest.postorder ∧ order.Perm (List.range design.nodes.length) ∧
    (∀ u v, links.IsParent u v → order.idxOf v < order.idxOf u) ∧
    ((order.map some ++ [none]).flatMap links.under).Perm (List.range design.nodes.length) ∧
    (∀ before v later, order = before ++ v :: later → ∀ u ∈ links.children v,
      sizeIn config (fitted before) u = sizeIn config laid.nodes u) ∧
    (∀ v ∈ links.under none, sizeIn config (fitted order) v = sizeIn config laid.nodes v) ∧
    laid = arrange placer config design := by
  intro links order laid fitted
  have hw : links.Wooded := wooded_effectiveLinks design.nodes
  have hlen : links.length = design.nodes.length := length_effectiveLinks design.nodes
  have hlaid : laid = arrange placer config design := arrangeInPlace_eq placer config design
  have hsize : ∀ {done later}, order = done ++ later → ∀ v ∈ done,
      sizeIn config (fitted done) v = sizeIn config laid.nodes v := by
    intro done later h v hv
    have hmem : v ∈ order := h ▸ List.mem_append_left _ hv
    have hlt : v < design.nodes.length := hlen ▸ hw.mem_postOrder_iff.mp hmem
    rw [hlaid, sizeIn_arrange placer config design hlt]
    exact (Fitted.run placer config h).sizeIn_eq hlt hv
  refine ⟨fun fuel hfuel => ?_, hw.grown_forest, links.pairwise_under, hw.postOrder_eq,
    hlen ▸ hw.postOrder_perm, fun _ _ => hw.idxOf_postOrder_lt, hlen ▸ hw.scopes_perm,
    fun before v later h u hu => ?_, fun v hv => ?_, hlaid⟩
  · obtain ⟨more, rfl⟩ := Nat.exists_eq_add_of_le' hfuel
    rw [← hlen, hw.run_traversal, ← hw.postOrder_eq]
  · exact hsize h u (hw.mem_before_of_isParent h (Links.mem_under_some_iff.mp hu))
  · refine hsize (List.append_nil order).symm v ?_
    exact hw.mem_postOrder_iff.mpr (Links.mem_under_iff.mp hv).1

theorem nodes_are_laid_out_once_tangled :
    let design : Design ℚ := ⟨tangledNodes, [.between "a" "v"]⟩
    let links := effectiveLinks design.nodes
    let laid := arrangeInPlace (ranked .default) .default design
    links.postOrder = [1, 2, 0, 3] ∧ links.children 0 = [1, 2] ∧
      links.postOrder.idxOf 2 < links.postOrder.idxOf 0 ∧
      sizeIn .default ([1, 2].foldl (fitInside (ranked .default) .default
        (edgePairs design.nodes design.edges) links) design.nodes) 1 =
          sizeIn .default laid.nodes 1 := by
  intro design links laid
  have hchildren : links.children 0 = [1, 2] := by decide +kernel
  have horder : links.postOrder = [1, 2] ++ 0 :: [3] := by decide +kernel
  have hparent : links.IsParent 0 2 :=
    Links.mem_under_some_iff.mp (show 2 ∈ links.children 0 by simp [hchildren])
  obtain ⟨-, -, -, -, -, hafter, -, hsizes, -, -⟩ :=
    nodes_are_laid_out_once (ranked .default) .default design
  refine ⟨horder, hchildren, hafter 0 2 hparent, ?_⟩
  exact hsizes [1, 2] 0 [3] horder 1 (hchildren ▸ List.mem_cons_self)

end FlowStudio.Layout
