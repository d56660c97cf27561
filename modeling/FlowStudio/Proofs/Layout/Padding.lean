import FlowStudio.Proofs.Layout.Inside
import FlowStudio.Proofs.Layout.Laminar

/-! The margins of a layout. In each scope the boxes begin half a margin in from the corner, and a
container has room for them and the other half. -/

namespace FlowStudio.Layout

theorem Links.Wooded.under_none_ne_nil {links : Links} (hw : links.Wooded) (hne : links ≠ []) :
    links.under none ≠ [] := by
  obtain ⟨v, hv, htop⟩ := hw.wellFounded.has_min {v | v < links.length}
    ⟨0, List.length_pos_iff.mpr hne⟩
  have hup : links.up v = none := by
    rw [Option.eq_none_iff_forall_ne_some]
    intro u hu
    exact htop u (hw.lt_length hu) hu
  exact List.ne_nil_of_mem (Links.mem_under_iff.mpr ⟨hv, hup⟩)

section
variable (placer : Placer ℚ) (config : LayoutConfig ℚ) (design : Design ℚ) {parent : Option Nat}

theorem image_scopeBox (parent : Option Nat) :
    scopeBox config (arrange placer config design).nodes ''
        {v | v ∈ (effectiveLinks design.nodes).under parent} =
      Rect.shift (halfMargins config) ''
        (Placed.box '' {p | p ∈ (scopeOf placer config design parent).placed}) := by
  have hplaced : ∀ v ∈ (effectiveLinks design.nodes).under parent,
      ∃ p ∈ (scopeOf placer config design parent).placed, p.index = v ∧
        scopeBox config (arrange placer config design).nodes v = p.box.shift (halfMargins config) := by
    intro v hv
    obtain ⟨hlt, rfl⟩ := Links.mem_under_iff.mp hv
    rw [length_effectiveLinks] at hlt
    obtain ⟨p, hp, hindex, -, hbox⟩ := exists_scopeBox_eq placer config hlt
    exact ⟨p, hp, hindex, hbox⟩
  rw [Set.image_image]
  apply Set.Subset.antisymm
  · rintro _ ⟨v, hv, rfl⟩
    obtain ⟨p, hp, -, hbox⟩ := hplaced v hv
    exact ⟨p, hp, hbox.symm⟩
  · rintro _ ⟨p, hp, rfl⟩
    have hv := (member_of_mem_scopeOf hp).1
    obtain ⟨q, hq, hindex, hbox⟩ := hplaced p.index hv
    rw [eq_of_index_eq hq hp hindex] at hbox
    exact ⟨p.index, hv, hbox⟩

theorem exists_bounds_scopeOf (hne : (effectiveLinks design.nodes).under parent ≠ []) :
    ∃ extent, (scopeOf placer config design parent).extent = some extent ∧
      (⟨config.marginX / 2, config.marginY / 2, extent.width, extent.height⟩ : Rect ℚ).Bounds
        (scopeBox config (arrange placer config design).nodes ''
          {v | v ∈ (effectiveLinks design.nodes).under parent}) := by
  have hmembers : (measured placer config design parent).members ≠ [] := by
    rw [members_measured]
    exact List.map_eq_nil_iff.not.mpr hne
  obtain ⟨extent, hextent, hbounds⟩ := exists_bounds_placeScope placer
    (edgePairs design.nodes design.edges) hmembers
  refine ⟨extent, hextent, ?_⟩
  have hshift := hbounds.shift (halfMargins config)
  have horigin : (Rect.ofOrigin Point.zero extent).shift (halfMargins config) =
      ⟨config.marginX / 2, config.marginY / 2, extent.width, extent.height⟩ := by
    simp only [Rect.ofOrigin_zero, Rect.shift, halfMargins, zero_add]
  rw [horigin] at hshift
  rw [image_scopeBox]
  exact hshift

theorem size_of_isContainer {v : Nat} {node : Node ℚ} (hnode : design.nodes[v]? = some node)
    (hkind : node.kind.isContainer = true) :
    (arrange placer config design).nodes[v]?.bind Node.size =
      some (config.containerSize (scopeOf placer config design (some v)).extent) := by
  obtain ⟨p, -, -, hsize, hlaid⟩ := exists_place placer config hnode
  rw [hlaid, Option.bind_some, if_pos hkind, hsize, sizeOf, hnode, finalSize, if_pos hkind]

theorem extent_of_under_eq_nil (hnil : (effectiveLinks design.nodes).under parent = []) :
    (scopeOf placer config design parent).extent = none := by
  have hmembers : (measured placer config design parent).members = [] := by
    rw [members_measured, hnil, List.map_nil]
  rw [scopeOf, hmembers]
  rfl

end

/-- With any placer, the nodes of a container begin half a margin inside of it and end half a margin
before its end, or earlier if its least content is larger than they are. Without nodes inside, the
least content alone makes its size. The outermost nodes begin half a margin in as well. -/
theorem containers_are_padded (placer : Placer ℚ) (config : LayoutConfig ℚ) (design : Design ℚ)
    (hne : design.nodes ≠ []) :
    let laid := (arrange placer config design).nodes
    let inside := (effectiveLinks design.nodes).under
    let box := scopeBox config laid
    (∀ v node, design.nodes[v]? = some node → node.kind.isContainer = true →
      (inside (some v) ≠ [] → ∃ extent size : Size ℚ,
        (⟨config.marginX / 2, config.marginY / 2, extent.width, extent.height⟩ : Rect ℚ).Bounds
          (box '' {c | c ∈ inside (some v)}) ∧
        laid[v]?.bind Node.size = some size ∧
        size = ⟨max extent.width config.minContentWidth + config.marginX,
          max extent.height config.minContentHeight + config.marginY⟩ ∧
        ∀ c ∈ inside (some v), (box c).right ≤ size.width - config.marginX / 2 ∧
          (box c).bottom ≤ size.height - config.marginY / 2) ∧
      (inside (some v) = [] → laid[v]?.bind Node.size =
        some ⟨max 0 config.minContentWidth + config.marginX,
          max 0 config.minContentHeight + config.marginY⟩)) ∧
    inside none ≠ [] ∧
    IsLeast ((fun v => (positionOf laid v).x) '' {v | v ∈ inside none}) (config.marginX / 2) ∧
    IsLeast ((fun v => (positionOf laid v).y) '' {v | v ∈ inside none}) (config.marginY / 2) := by
  intro laid inside box
  have hroots : inside none ≠ [] := by
    refine (wooded_effectiveLinks design.nodes).under_none_ne_nil fun hnil => hne ?_
    rw [← List.length_eq_zero_iff, ← length_effectiveLinks, hnil, List.length_nil]
  obtain ⟨extent, -, hbounds⟩ := exists_bounds_scopeOf placer config design hroots
  have hleft := hbounds.left
  have htop := hbounds.top
  rw [Set.image_image] at hleft htop
  refine ⟨fun v node hnode hkind => ⟨fun hinside => ?_, fun hnil => ?_⟩, hroots, hleft, htop⟩
  · obtain ⟨extent, hextent, hbounds⟩ := exists_bounds_scopeOf placer config design hinside
    have hsize := size_of_isContainer placer config design hnode hkind
    rw [hextent] at hsize
    refine ⟨extent, _, hbounds, hsize, rfl, fun c hc => ?_⟩
    have hright : (box c).right ≤ config.marginX / 2 + extent.width :=
      hbounds.right.2 ⟨box c, ⟨c, hc, rfl⟩, rfl⟩
    have hbottom : (box c).bottom ≤ config.marginY / 2 + extent.height :=
      hbounds.bottom.2 ⟨box c, ⟨c, hc, rfl⟩, rfl⟩
    obtain ⟨hwidth, hheight⟩ := le_containerSize config (some extent)
    rw [Option.getD_some] at hwidth hheight
    constructor <;> linarith
  · have hsize := size_of_isContainer placer config design hnode hkind
    rw [extent_of_under_eq_nil placer config design hnil] at hsize
    exact hsize

def crossedNodes : List (Node ℚ) :=
  [.make "a" .module (some "b"), (.make "b" .function (some "a") : Node ℚ).withSize ⟨7, 9⟩,
    (.make "v" .var (some "a") : Node ℚ).withSize ⟨10, 20⟩, .make "v" .argument (some "x")]

theorem containers_are_padded_crossed :
    let laid := (arrange (fun _ _ => [⟨-5, 40⟩]) .default ⟨crossedNodes, []⟩).nodes
    let box := scopeBox .default laid
    effectiveLinks crossedNodes = [none, some 0, some 0, none] ∧
      laid[1]?.bind Node.size = some ⟨max 0 200 + 200, max 0 50 + 200⟩ ∧
      IsLeast ((fun v => (positionOf laid v).x) '' {v | v ∈ [0, 3]}) (200 / 2) ∧
      ∃ extent size : Size ℚ,
        (⟨200 / 2, 200 / 2, extent.width, extent.height⟩ : Rect ℚ).Bounds
          (box '' {c | c ∈ [1, 2]}) ∧
        laid[0]?.bind Node.size = some size ∧
        size = ⟨max extent.width 200 + 200, max extent.height 50 + 200⟩ ∧
        (box 1).right ≤ size.width - 200 / 2 ∧ (box 2).bottom ≤ size.height - 200 / 2 := by
  intro laid box
  have hlinks : effectiveLinks crossedNodes = [none, some 0, some 0, none] := by decide
  obtain ⟨hcontainers, -, hx, -⟩ := containers_are_padded (fun _ _ => [⟨-5, 40⟩]) .default
    ⟨crossedNodes, []⟩ (by decide)
  rw [hlinks] at hcontainers hx
  obtain ⟨extent, size, hbounds, hsize, heq, hend⟩ := (hcontainers 0 _ rfl rfl).1 (by decide)
  exact ⟨hlinks, (hcontainers 1 _ rfl rfl).2 (by decide), hx, extent, size, hbounds, hsize, heq,
    (hend 1 (by decide)).1, (hend 2 (by decide)).2⟩

end FlowStudio.Layout
