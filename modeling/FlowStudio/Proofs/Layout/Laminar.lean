import FlowStudio.Proofs.Layout.Nested
import Mathlib.Algebra.BigOperators.Group.List.Basic
import Mathlib.Data.List.Pairwise

/-! A layout is laminar: on the canvas, a node lies in all that it stands in and apart from all
else. -/

namespace FlowStudio

def Point.sum (ps : List (Point ℚ)) : Point ℚ := ⟨(ps.map Point.x).sum, (ps.map Point.y).sum⟩

/-- Nothing that a layout measures is negative. The least extents of contents are free. -/
structure LayoutConfig.Nonneg (c : LayoutConfig ℚ) : Prop where
  marginX : 0 ≤ c.marginX
  marginY : 0 ≤ c.marginY
  nodeSep : 0 ≤ c.nodeSep
  rankSep : 0 ≤ c.rankSep
  defaultNodeSize : c.defaultNodeSize.Nonneg

namespace Layout

/-- No declared size is negative, and only containers have nodes inside them. -/
structure WellNested (nodes : List (Node ℚ)) : Prop where
  size_nonneg : ∀ node ∈ nodes, ∀ size ∈ node.size, size.Nonneg
  isContainer : ∀ {u v node}, (effectiveLinks nodes).IsParent u v → nodes[u]? = some node →
    node.kind.isContainer = true

def positionOf (nodes : List (Node ℚ)) (v : Nat) : Point ℚ := (nodes[v]?.map Node.position).getD .zero

/-- The box of a node on the canvas: positions count from where the parent is. -/
def canvasBox (config : LayoutConfig ℚ) (links : Links) (nodes : List (Node ℚ)) (v : Nat) : Rect ℚ :=
  .ofOrigin (Point.sum ((v :: links.ancestors v).map (positionOf nodes)))
    ((nodes[v]?.bind Node.size).getD config.defaultNodeSize)

def scopeBox (config : LayoutConfig ℚ) (nodes : List (Node ℚ)) (v : Nat) : Rect ℚ :=
  .ofOrigin (positionOf nodes v) ((nodes[v]?.bind Node.size).getD config.defaultNodeSize)

section
variable {placer : Placer ℚ} {config : LayoutConfig ℚ} {design : Design ℚ} {u v : Nat}

theorem le_containerSize (config : LayoutConfig ℚ) (extent : Option (Size ℚ)) :
    (extent.getD Size.zero).width + config.marginX ≤ (config.containerSize extent).width ∧
      (extent.getD Size.zero).height + config.marginY ≤ (config.containerSize extent).height :=
  ⟨add_le_add_left (le_max_left _ _) _, add_le_add_left (le_max_left _ _) _⟩

theorem members_measured_nonneg {parent : Option Nat}
    (h : ∀ v ∈ (effectiveLinks design.nodes).under parent,
      (sizeOf placer config design v).Nonneg) :
    ∀ m ∈ (measured placer config design parent).members, m.size.Nonneg := by
  rw [members_measured]
  exact List.forall_mem_map.mpr h

theorem sizeOf_nonneg (hc : config.Nonneg) (hn : WellNested design.nodes) (v : Nat) :
    (sizeOf placer config design v).Nonneg := by
  induction v using (wooded_effectiveLinks design.nodes).wellFounded_child.induction with
  | h v ih =>
    rw [sizeOf]
    cases hnode : design.nodes[v]? with
    | none => exact hc.defaultNodeSize
    | some node =>
      rw [finalSize]
      split
      · have hextent : ((scopeOf placer config design (some v)).extent.getD Size.zero).Nonneg :=
          extent_nonneg (members_measured_nonneg fun u hu => ih u (Links.mem_under_some_iff.mp hu))
        have hle := le_containerSize config (scopeOf placer config design (some v)).extent
        exact ⟨(add_nonneg hextent.1 hc.marginX).trans hle.1,
          (add_nonneg hextent.2 hc.marginY).trans hle.2⟩
      · cases hsize : node.size with
        | none => exact hc.defaultNodeSize
        | some size => exact hn.size_nonneg node (List.mem_of_getElem? hnode) size hsize

def boxOf (placer : Placer ℚ) (config : LayoutConfig ℚ) (design : Design ℚ) (v : Nat) : Rect ℚ :=
  canvasBox config (effectiveLinks design.nodes) (arrange placer config design).nodes v

def cornerOf (placer : Placer ℚ) (config : LayoutConfig ℚ) (design : Design ℚ) :
    Option Nat → Point ℚ
  | none => .sum []
  | some u => ⟨(boxOf placer config design u).x, (boxOf placer config design u).y⟩

def halfMargins (config : LayoutConfig ℚ) : Point ℚ := ⟨config.marginX / 2, config.marginY / 2⟩

theorem sum_ancestors_eq_cornerOf (v : Nat) :
    Point.sum (((effectiveLinks design.nodes).ancestors v).map
      (positionOf (arrange placer config design).nodes)) =
        cornerOf placer config design ((effectiveLinks design.nodes).up v) := by
  cases hv : (effectiveLinks design.nodes).up v with
  | none => rw [Links.ancestors_of_up_eq_none hv]; rfl
  | some u => rw [(wooded_effectiveLinks design.nodes).ancestors_of_isParent hv]; rfl

theorem exists_scopeBox_eq (placer : Placer ℚ) (config : LayoutConfig ℚ)
    (hv : v < design.nodes.length) :
    ∃ p ∈ (scopeOf placer config design ((effectiveLinks design.nodes).up v)).placed,
      p.index = v ∧ p.size = sizeOf placer config design v ∧
      scopeBox config (arrange placer config design).nodes v = p.box.shift (halfMargins config) := by
  have hnode := List.getElem?_eq_getElem hv
  obtain ⟨p, hp, hindex, hsize, hlaid⟩ := exists_place placer config hnode
  refine ⟨p, hp, hindex, hsize, ?_⟩
  have hfinal : (((arrange placer config design).nodes[v]?).bind Node.size).getD
      config.defaultNodeSize = p.size := by
    rw [hlaid, Option.bind_some]
    split
    · rfl
    · next hkind => rw [hsize, sizeOf, hnode, finalSize, if_neg hkind]
  have hposition : positionOf (arrange placer config design).nodes v =
      p.position.offset (Scalar.half config.marginX) (Scalar.half config.marginY) := by
    rw [positionOf, hlaid]
    rfl
  rw [scopeBox, hfinal, hposition]
  rfl

theorem exists_boxOf_eq (placer : Placer ℚ) (config : LayoutConfig ℚ)
    (hv : v < design.nodes.length) :
    ∃ p ∈ (scopeOf placer config design ((effectiveLinks design.nodes).up v)).placed,
      p.index = v ∧ p.size = sizeOf placer config design v ∧
      boxOf placer config design v = (p.box.shift (halfMargins config)).shift
        (cornerOf placer config design ((effectiveLinks design.nodes).up v)) := by
  obtain ⟨p, hp, hindex, hsize, hbox⟩ := exists_scopeBox_eq placer config hv
  refine ⟨p, hp, hindex, hsize, ?_⟩
  rw [← hbox, ← sum_ancestors_eq_cornerOf]
  rfl

theorem contains_shift_halfMargins (hc : config.Nonneg) {extent : Size ℚ} {r : Rect ℚ}
    (h : (Rect.ofOrigin Point.zero extent).contains r = true) :
    (Rect.ofOrigin Point.zero (config.containerSize (some extent))).contains
      (r.shift (halfMargins config)) = true := by
  obtain ⟨hx, hy, hright, hbottom⟩ := Rect.contains_iff.mp h
  obtain ⟨hwidth, hheight⟩ := le_containerSize config (some extent)
  have hmarginX := hc.marginX
  have hmarginY := hc.marginY
  simp only [Rect.ofOrigin, Option.getD_some] at hx hy hright hbottom hwidth hheight
  rw [Rect.contains_iff]
  simp only [Rect.ofOrigin, Rect.shift, halfMargins]
  refine ⟨?_, ?_, ?_, ?_⟩ <;> linarith

theorem boxOf_eq_shift (hv : v < design.nodes.length) :
    boxOf placer config design v =
      (Rect.ofOrigin Point.zero (sizeOf placer config design v)).shift
        (cornerOf placer config design (some v)) := by
  obtain ⟨p, -, -, hsize, hbox⟩ := exists_boxOf_eq placer config hv
  have hfinal : sizeOf placer config design v =
      ⟨(boxOf placer config design v).w, (boxOf placer config design v).h⟩ := by
    rw [hbox, ← hsize]
    rfl
  rw [hfinal]
  exact (Rect.ofOrigin_zero_shift _).symm

theorem contains_of_isParent (hc : config.Nonneg) (hn : WellNested design.nodes)
    (h : (effectiveLinks design.nodes).IsParent u v) :
    (boxOf placer config design u).contains (boxOf placer config design v) = true := by
  have hlen := length_effectiveLinks design.nodes
  have hu : u < design.nodes.length := hlen ▸ (wooded_effectiveLinks design.nodes).lt_length h
  have hnode := List.getElem?_eq_getElem hu
  obtain ⟨p, hp, -, -, hv⟩ := exists_boxOf_eq placer config (hlen ▸ Links.lt_of_isParent h)
  rw [show (effectiveLinks design.nodes).up v = some u from h] at hp hv
  obtain ⟨extent, hextent, hcontains⟩ := exists_extent_placeScope hp
  have hsize : sizeOf placer config design u = config.containerSize (some extent) := by
    rw [sizeOf, hnode, finalSize, if_pos (hn.isContainer h hnode), scopeOf, hextent]
  rw [hv, boxOf_eq_shift hu, hsize]
  exact Rect.contains_shift (contains_shift_halfMargins hc hcontains) _

theorem contains_of_mem_ancestors (hc : config.Nonneg) (hn : WellNested design.nodes)
    (h : u ∈ (effectiveLinks design.nodes).ancestors v) :
    (boxOf placer config design u).contains (boxOf placer config design v) = true := by
  have htrans := ((wooded_effectiveLinks design.nodes).mem_ancestors_iff).mp h
  induction htrans with
  | single hparent => exact contains_of_isParent hc hn hparent
  | tail hbelow hparent ih =>
    have hmem := ((wooded_effectiveLinks design.nodes).mem_ancestors_iff).mpr hbelow
    exact Rect.contains_trans (ih hmem) (contains_of_isParent hc hn hparent)

theorem pairwise_scopeOf (hsound : placer.Sound) (hc : config.Nonneg)
    (hn : WellNested design.nodes) (parent : Option Nat) :
    (scopeOf placer config design parent).placed.Pairwise fun p q => p.box.Apart q.box :=
  pairwise_placeScope hsound (members_measured_nonneg fun v _ => sizeOf_nonneg hc hn v)

theorem apart_of_up_eq (hsound : placer.Sound) (hc : config.Nonneg) (hn : WellNested design.nodes)
    (hu : u < design.nodes.length) (hv : v < design.nodes.length) (hne : u ≠ v)
    (hup : (effectiveLinks design.nodes).up u = (effectiveLinks design.nodes).up v) :
    (boxOf placer config design u).Apart (boxOf placer config design v) := by
  obtain ⟨p, hp, rfl, -, hbox⟩ := exists_boxOf_eq placer config hu
  obtain ⟨q, hq, rfl, -, hbox'⟩ := exists_boxOf_eq placer config hv
  have : Std.Symm fun p q : Placed ℚ => p.box.Apart q.box := ⟨fun _ _ h => h.symm⟩
  rw [hup] at hp hbox
  have happart := (pairwise_scopeOf hsound hc hn _).forall hp hq fun h =>
    hne (congrArg Placed.index h)
  rw [hbox, hbox']
  exact (happart.shift _).shift _

theorem contains_of_mem_cons_ancestors (hc : config.Nonneg) (hn : WellNested design.nodes)
    (hv : v < design.nodes.length) (h : u ∈ v :: (effectiveLinks design.nodes).ancestors v) :
    u < design.nodes.length ∧
      (boxOf placer config design u).contains (boxOf placer config design v) = true := by
  have hwooded := wooded_effectiveLinks design.nodes
  rcases List.mem_cons.mp h with rfl | hanc
  · exact ⟨hv, Rect.contains_refl _⟩
  · have hlt := (hwooded.wayUp_ancestors v).lt_length hwooded u hanc
    exact ⟨length_effectiveLinks design.nodes ▸ hlt, contains_of_mem_ancestors hc hn hanc⟩

theorem apart_of_notMem_ancestors (hsound : placer.Sound) (hc : config.Nonneg)
    (hn : WellNested design.nodes) (hu : u < design.nodes.length) (hv : v < design.nodes.length)
    (hne : u ≠ v) (huv : u ∉ (effectiveLinks design.nodes).ancestors v)
    (hvu : v ∉ (effectiveLinks design.nodes).ancestors u) :
    (boxOf placer config design u).Apart (boxOf placer config design v) := by
  rcases (wooded_effectiveLinks design.nodes).exists_siblings u v with
    heq | hanc | hanc | ⟨u', hu', v', hv', hne', hup⟩
  · exact absurd heq hne
  · exact absurd hanc huv
  · exact absurd hanc hvu
  -- the siblings that hold the two keep them apart
  · obtain ⟨hlt, hcontains⟩ := contains_of_mem_cons_ancestors hc hn hu hu'
    obtain ⟨hlt', hcontains'⟩ := contains_of_mem_cons_ancestors hc hn hv hv'
    exact (apart_of_up_eq hsound hc hn hlt hlt' hne' hup).within hcontains hcontains'

end

/-- On the canvas of a ranked layout, of two nodes one stands in the other, which holds it, or
neither does and they do not overlap. -/
theorem laminar_arrangeRanked (config : LayoutConfig ℚ) (design : Design ℚ) (hc : config.Nonneg)
    (hn : WellNested design.nodes) (u v : Nat) (hu : u < design.nodes.length)
    (hv : v < design.nodes.length) (hne : u ≠ v) :
    let links := effectiveLinks design.nodes
    let box := canvasBox config links (arrangeRanked config design).nodes
    (u ∈ links.ancestors v ∧ (box u).contains (box v) = true) ∨
      (v ∈ links.ancestors u ∧ (box v).contains (box u) = true) ∨
      (u ∉ links.ancestors v ∧ v ∉ links.ancestors u ∧ (box u).overlaps (box v) = false) := by
  intro links box
  by_cases huv : u ∈ links.ancestors v
  · exact .inl ⟨huv, contains_of_mem_ancestors hc hn huv⟩
  by_cases hvu : v ∈ links.ancestors u
  · exact .inr (.inl ⟨hvu, contains_of_mem_ancestors hc hn hvu⟩)
  have hsound : (ranked ⟨config.nodeSep, config.rankSep⟩).Sound :=
    sound_ranked ⟨hc.nodeSep, hc.rankSep⟩
  have hapart := apart_of_notMem_ancestors hsound hc hn hu hv hne huv hvu
  exact .inr (.inr ⟨huv, hvu, hapart.not_overlaps⟩)

def nestedDesign : Design ℚ where
  nodes := [.make "f" .function none, (.make "a" .argument (some "f") : Node ℚ).withSize ⟨10, 20⟩,
    .make "v" .var (some "f"), .make "m" .module (some "m")]
  edges := [.between "a" "v"]

theorem laminar_arrangeRanked_nested :
    let box := canvasBox .default (effectiveLinks nestedDesign.nodes)
      (arrangeRanked .default nestedDesign).nodes
    (box 0).contains (box 1) = true ∧ (box 1).overlaps (box 2) = false ∧
      (box 2).overlaps (box 3) = false := by
  have hlinks : effectiveLinks nestedDesign.nodes = [none, some 0, some 0, none] := by decide
  have hc : (LayoutConfig.default : LayoutConfig ℚ).Nonneg :=
    ⟨by decide, by decide, by decide, by decide, by decide, by decide⟩
  have hn : WellNested nestedDesign.nodes := by
    refine ⟨by decide, fun {u v node} h hnode => ?_⟩
    rw [Links.IsParent, hlinks] at h
    obtain rfl : u = 0 := by
      rcases v with _ | _ | _ | _ | v <;> simp [Links.up] at h <;> exact h.symm
    obtain rfl := Option.some.inj hnode
    rfl
  have hlaminar := laminar_arrangeRanked .default nestedDesign hc hn
  rw [hlinks] at hlaminar ⊢
  refine ⟨?_, ?_, ?_⟩
  · rcases hlaminar 0 1 (by decide) (by decide) (by decide) with h | h | h
    · exact h.2
    · exact absurd h.1 (by decide)
    · exact absurd h.1 (by decide)
  · rcases hlaminar 1 2 (by decide) (by decide) (by decide) with h | h | h
    · exact absurd h.1 (by decide)
    · exact absurd h.1 (by decide)
    · exact h.2.2
  · rcases hlaminar 2 3 (by decide) (by decide) (by decide) with h | h | h
    · exact absurd h.1 (by decide)
    · exact absurd h.1 (by decide)
    · exact h.2.2

end Layout
end FlowStudio
