import FlowStudio.Proofs.Layout.Laminar
import FlowStudio.Proofs.Layout.Padding
import FlowStudio.Proofs.Layout.Separation

/-! The extent of a ranked layout: as wide as its widest rank, as high as all ranks with the gaps
between them. Each rank stands in a band of its own, centred. -/

namespace FlowStudio.Layout

def ofRank {β : Type} (rank : Numbering) (r : Nat) (entries : List β) : List β :=
  ((List.range entries.length).filter fun v => rank.number v == r).filterMap (entries[·]?)

def span (gap : ℚ) (row : List (Size ℚ)) : ℚ := (row.map Size.width).sum + gap * (row.length - 1)

def tallest (row : List (Size ℚ)) : ℚ := largest (row.map Size.height)

theorem mem_ofRank_iff {β : Type} {rank : Numbering} {r : Nat} {entries : List β} {x : β} :
    x ∈ ofRank rank r entries ↔ ∃ v, rank.number v = r ∧ entries[v]? = some x := by
  simp only [ofRank, List.mem_filterMap, List.mem_filter, List.mem_range, beq_iff_eq]
  constructor
  · rintro ⟨v, ⟨-, hr⟩, hx⟩
    exact ⟨v, hr, hx⟩
  · rintro ⟨v, hr, hx⟩
    exact ⟨v, ⟨(List.getElem?_eq_some_iff.mp hx).1, hr⟩, hx⟩

section
variable {sizes : List (Size ℚ)} {spacing : Spacing ℚ} {edges : List Arc} {bs : List (Box ℚ)} {r : Nat}

theorem map_box_eq (hsizes : ∀ size ∈ sizes, size.Nonneg) {vs : List Nat}
    (hlt : ∀ v ∈ vs, v < sizes.length) {f : Box ℚ → ℚ} {g : Size ℚ → ℚ}
    (hfg : ∀ v size, f ⟨v, size.width, size.height⟩ = g size) :
    (vs.map (box sizes)).map f = (vs.filterMap (sizes[·]?)).map g := by
  induction vs with
  | nil => rfl
  | cons v vs ih =>
    rw [List.forall_mem_cons] at hlt
    have hsize := List.getElem?_eq_getElem hlt.1
    have hbox := box_eq hsize (hsizes _ (List.mem_of_getElem? hsize))
    simp only [List.map_cons, hbox, hfg, ih hlt.2, List.filterMap_cons, hsize]

theorem map_row_perm (hsizes : ∀ size ∈ sizes, size.Nonneg) (hr : (rows sizes edges)[r]? = some bs)
    {f : Box ℚ → ℚ} {g : Size ℚ → ℚ} (hfg : ∀ v size, f ⟨v, size.width, size.height⟩ = g size) :
    (bs.map f).Perm ((ofRank (rankOf sizes.length edges) r sizes).map g) := by
  rw [getElem?_rows] at hr
  obtain ⟨row, hrow, rfl⟩ := Option.map_eq_some_iff.mp hr
  have hperm := ((row_perm_of_getElem? hrow).map (box sizes)).map f
  rwa [map_box_eq hsizes (fun v hv => List.mem_range.mp (List.mem_filter.mp hv).1) hfg] at hperm

theorem rowHeight_eq (hsizes : ∀ size ∈ sizes, size.Nonneg)
    (hr : (rows sizes edges)[r]? = some bs) :
    rowHeight bs = tallest (ofRank (rankOf sizes.length edges) r sizes) := by
  have hperm := map_row_perm hsizes hr (f := Box.height) (g := Size.height) fun _ _ => rfl
  change (bs.map Box.height).foldl max 0 = List.foldl max 0 _
  exact hperm.foldl_op_eq

theorem rowWidth_eq_offset (sep : ℚ) (hne : bs ≠ []) :
    rowWidth sep bs = offset sep (bs.map Box.width) - sep := by
  have hlen : ((bs.length - 1 : Nat) : ℚ) = bs.length - 1 :=
    Nat.cast_pred (List.length_pos_iff.mpr hne)
  rw [rowWidth, sum_rat, offset_eq, List.length_map]
  change _ + sep * ((bs.length - 1 : Nat) : ℚ) = _
  rw [hlen]
  ring

theorem rowWidth_eq (hsizes : ∀ size ∈ sizes, size.Nonneg) (hr : (rows sizes edges)[r]? = some bs)
    (hne : bs ≠ []) :
    rowWidth spacing.node bs = span spacing.node (ofRank (rankOf sizes.length edges) r sizes) := by
  have hperm := map_row_perm hsizes hr (f := Box.width) (g := Size.width) fun _ _ => rfl
  have hlen := hperm.length_eq
  rw [List.length_map, List.length_map] at hlen
  rw [rowWidth_eq_offset _ hne, offset_eq, hperm.sum_eq, List.length_map, hlen, span]
  ring

theorem exists_number_eq {n : Nat} (hn : 0 < n) (hr : r < rankCount n (rankOf n edges)) :
    ∃ v < n, (rankOf n edges).number v = r := by
  have ht := tight_rankOf n edges
  have hin : ∀ a ∈ keptArcs (distinctArcs n edges), a.1 < n := fun a ha =>
    (mem_distinctArcs.mp (mem_keptArcs.mp ha).1).2.1
  have hle := Nat.le_of_lt_succ hr
  -- the last rank is that of some node; the maximum itself starts from zero
  by_cases hzero : ((List.range n).map (rankOf n edges).number).foldl max 0 = 0
  · exact ht.exists_eq hin hn (by omega)
  · obtain ⟨v, hv, hmax⟩ := List.mem_map.mp (foldl_max_mem hzero)
    exact ht.exists_eq hin (List.mem_range.mp hv) (hmax ▸ hle)

theorem length_rows (sizes : List (Size ℚ)) (edges : List Arc) :
    (rows sizes edges).length = rankCount sizes.length (rankOf sizes.length edges) := by
  rw [rows, List.length_map, length_orderedRanks]

theorem rows_ne_nil (sizes : List (Size ℚ)) (edges : List Arc) : rows sizes edges ≠ [] := by
  rw [← List.length_pos_iff, length_rows]
  exact Nat.succ_pos _

theorem exists_row_iff : (∃ bs, (rows sizes edges)[r]? = some bs) ↔
    r < rankCount sizes.length (rankOf sizes.length edges) := by
  rw [← length_rows]
  constructor
  · rintro ⟨bs, hr⟩
    exact (List.getElem?_eq_some_iff.mp hr).1
  · exact fun hr => ⟨_, List.getElem?_eq_getElem hr⟩

theorem row_ne_nil (hne : sizes ≠ []) (hr : (rows sizes edges)[r]? = some bs) : bs ≠ [] := by
  obtain ⟨v, hv, rfl⟩ :=
    exists_number_eq (List.length_pos_iff.mpr hne) (exists_row_iff.mp ⟨bs, hr⟩)
  obtain ⟨cs, hcs, hmem⟩ := exists_mem_row edges hv
  obtain rfl := Option.some.inj (hr.symm.trans hcs)
  exact List.ne_nil_of_mem hmem

def band (spacing : Spacing ℚ) (rows : List (List (Box ℚ))) (r : Nat) (bs : List (Box ℚ)) : Rect ℚ where
  x := (largest (rows.map (rowWidth spacing.node)) - rowWidth spacing.node bs) / 2
  y := offset spacing.rank ((rows.map rowHeight).take r)
  w := rowWidth spacing.node bs
  h := rowHeight bs

theorem ofRank_boxes (hsizes : ∀ size ∈ sizes, size.Nonneg) (hr : (rows sizes edges)[r]? = some bs) :
    {a | a ∈ ofRank (rankOf sizes.length edges) r (boxes spacing sizes edges)} =
      {a | ∃ i b, bs[i]? = some b ∧ a = seat spacing (rows sizes edges) r bs i b} := by
  ext a
  rw [Set.mem_ofPred_eq, mem_ofRank_iff]
  constructor
  · rintro ⟨v, rfl, ha⟩
    obtain ⟨cs, i, hcs, hi, rfl⟩ := exists_seat hsizes ha
    obtain rfl := Option.some.inj (hr.symm.trans hcs)
    exact ⟨i, _, hi, rfl⟩
  · rintro ⟨i, b, hi, rfl⟩
    obtain ⟨-, -, hrank⟩ := box_of_mem_row hr (List.mem_of_getElem? hi)
    exact ⟨b.node, hrank, getElem?_boxes hsizes hr hi⟩

theorem height_nonneg_of_mem_row (hr : (rows sizes edges)[r]? = some bs) :
    ∀ x ∈ bs.map Box.height, 0 ≤ x := by
  intro x hx
  obtain ⟨b, hb, rfl⟩ := List.mem_map.mp hx
  rw [(box_of_mem_row hr hb).1]
  exact (box_nonneg sizes _).2

theorem contains_seat (hs : spacing.Nonneg) (hr : (rows sizes edges)[r]? = some bs) {b : Box ℚ}
    {i : Nat} (hi : bs[i]? = some b) : (band spacing (rows sizes edges) r bs).contains
      (seat spacing (rows sizes edges) r bs i b) = true := by
  have hmem := List.mem_of_getElem? hi
  have hwidth : (bs.map Box.width)[i]? = some b.width := by simp [hi]
  have hfirst := offset_take_mono hs.1 (width_nonneg_of_mem_row hr) (Nat.zero_le i)
  have hlast := offset_take_le hs.1 (width_nonneg_of_mem_row hr) hwidth
  have hend := rowWidth_eq_offset spacing.node (List.ne_nil_of_mem hmem)
  have hheight := height_le_rowHeight hmem
  rw [List.take_zero, offset_nil] at hfirst
  rw [Rect.contains_iff]
  simp only [seat, band]
  refine ⟨?_, ?_, ?_, ?_⟩ <;> linarith

theorem bounds_band (hs : spacing.Nonneg) (hsizes : ∀ size ∈ sizes, size.Nonneg)
    (hr : (rows sizes edges)[r]? = some bs) (hne : bs ≠ []) :
    (band spacing (rows sizes edges) r bs).Bounds
      {a | a ∈ ofRank (rankOf sizes.length edges) r (boxes spacing sizes edges)} := by
  rw [ofRank_boxes hsizes hr]
  have hfirst := List.getElem?_eq_getElem (List.length_pos_iff.mpr hne)
  obtain ⟨last, c, hlast, hend⟩ := exists_offset_last spacing.node Box.width hne
  have hwidth := rowWidth_eq_offset spacing.node hne
  -- the tallest box reaches from the top of the band to its bottom
  have hmap : bs.map Box.height ≠ [] := List.map_eq_nil_iff.not.mpr hne
  obtain ⟨b, hb, htall⟩ :=
    List.mem_map.mp (isGreatest_largest hmap (height_nonneg_of_mem_row hr)).1
  change b.height = rowHeight bs at htall
  obtain ⟨i, hi⟩ := List.getElem?_of_mem hb
  refine .of_contains ?_ ⟨_, ⟨0, _, hfirst, rfl⟩, ?_⟩ ⟨_, ⟨i, b, hi, rfl⟩, ?_⟩
    ⟨_, ⟨_, _, hlast, rfl⟩, ?_⟩ ⟨_, ⟨i, b, hi, rfl⟩, ?_⟩
  · rintro _ ⟨j, c, hj, rfl⟩
    exact contains_seat hs hr hj
  · simp [seat, band]
  · simp [seat, band, htall]
  · simp only [Rect.right_eq, seat, band]
    linarith
  · simp [Rect.bottom_eq, seat, band, htall]

def extentOf (spacing : Spacing ℚ) (rows : List (List (Box ℚ))) : Size ℚ where
  width := largest (rows.map (rowWidth spacing.node))
  height := offset spacing.rank (rows.map rowHeight) - spacing.rank

theorem isGreatest_rowWidth (hs : spacing.Nonneg) (sizes : List (Size ℚ)) (edges : List Arc) :
    IsGreatest {w | w ∈ (rows sizes edges).map (rowWidth spacing.node)}
      (extentOf spacing (rows sizes edges)).width := by
  refine isGreatest_largest (List.map_eq_nil_iff.not.mpr (rows_ne_nil _ _)) fun x hx => ?_
  obtain ⟨bs, hbs, rfl⟩ := List.mem_map.mp hx
  obtain ⟨r, hr⟩ := List.getElem?_of_mem hbs
  rw [rowWidth, sum_rat]
  exact add_nonneg (List.sum_nonneg (width_nonneg_of_mem_row hr))
    (mul_nonneg hs.1 (Nat.cast_nonneg _))

theorem contains_band (hs : spacing.Nonneg) (hr : (rows sizes edges)[r]? = some bs) :
    (Rect.ofOrigin .zero (extentOf spacing (rows sizes edges))).contains
      (band spacing (rows sizes edges) r bs) = true := by
  have hmem := List.mem_of_getElem? hr
  have hwidth := (isGreatest_rowWidth hs sizes edges).2 (List.mem_map_of_mem hmem)
  have hheights : ∀ x ∈ (rows sizes edges).map rowHeight, 0 ≤ x :=
    List.forall_mem_map.mpr fun bs _ => rowHeight_nonneg bs
  have hheight : ((rows sizes edges).map rowHeight)[r]? = some (rowHeight bs) := by simp [hr]
  have hfirst := offset_take_mono hs.2 hheights (Nat.zero_le r)
  have hlast := offset_take_le hs.2 hheights hheight
  rw [List.take_zero, offset_nil] at hfirst
  rw [extentOf] at hwidth
  rw [Rect.contains_iff]
  simp only [Rect.ofOrigin_zero, extentOf, band]
  refine ⟨?_, ?_, ?_, ?_⟩ <;> linarith

theorem bounds_bands (hs : spacing.Nonneg) (sizes : List (Size ℚ)) (edges : List Arc) :
    (Rect.ofOrigin .zero (extentOf spacing (rows sizes edges))).Bounds
      (Set.range fun r : Fin (rows sizes edges).length =>
        band spacing (rows sizes edges) r (rows sizes edges)[r]) := by
  have htouch : ∀ {r bs}, (rows sizes edges)[r]? = some bs → band spacing (rows sizes edges) r bs ∈
      Set.range fun r : Fin (rows sizes edges).length =>
        band spacing (rows sizes edges) r (rows sizes edges)[r] := by
    intro r bs hr
    obtain ⟨hlt, rfl⟩ := List.getElem?_eq_some_iff.mp hr
    exact ⟨⟨r, hlt⟩, rfl⟩
  obtain ⟨bs, hbs, hwidest⟩ := List.mem_map.mp (isGreatest_rowWidth hs sizes edges).1
  obtain ⟨r, hr⟩ := List.getElem?_of_mem hbs
  rw [extentOf] at hwidest
  have hne := rows_ne_nil sizes edges
  have hfirst := List.getElem?_eq_getElem (List.length_pos_iff.mpr hne)
  obtain ⟨last, cs, hlast, hend⟩ := exists_offset_last spacing.rank rowHeight hne
  refine .of_contains ?_ ⟨_, htouch hr, ?_⟩ ⟨_, htouch hfirst, ?_⟩ ⟨_, htouch hr, ?_⟩
    ⟨_, htouch hlast, ?_⟩
  · rintro _ ⟨r, rfl⟩
    exact contains_band hs (List.getElem?_eq_getElem r.2)
  · simp [Rect.ofOrigin_zero, band, hwidest]
  · simp [Rect.ofOrigin_zero, band]
  · simp [Rect.ofOrigin_zero, Rect.right_eq, band, hwidest, extentOf]
  · simp only [Rect.ofOrigin_zero, Rect.bottom_eq, band, extentOf]
    linarith

theorem bounds_boxes (hs : spacing.Nonneg) (hsizes : ∀ size ∈ sizes, size.Nonneg)
    (hne : sizes ≠ []) (edges : List Arc) :
    (Rect.ofOrigin .zero (extentOf spacing (rows sizes edges))).Bounds
      {a | a ∈ boxes spacing sizes edges} := by
  have hunion := (bounds_bands hs sizes edges).iUnion fun r =>
    have hr := List.getElem?_eq_getElem r.2
    bounds_band hs hsizes hr (row_ne_nil hne hr)
  convert hunion using 1
  ext a
  simp only [Set.mem_ofPred_eq, Set.mem_iUnion, mem_ofRank_iff]
  constructor
  · intro hmem
    obtain ⟨v, ha⟩ := List.getElem?_of_mem hmem
    have hv : v < sizes.length := length_boxes spacing sizes edges ▸
      (List.getElem?_eq_some_iff.mp ha).1
    have hlt : (rankOf sizes.length edges).number v < (rows sizes edges).length := by
      rw [length_rows]
      exact number_lt_rankCount _ hv
    refine ⟨⟨_, hlt⟩, v, ?_, ha⟩
    dsimp only
  · rintro ⟨-, v, -, ha⟩
    exact List.mem_of_getElem? ha

theorem isGreatest_span (hs : spacing.Nonneg) (hsizes : ∀ size ∈ sizes, size.Nonneg)
    (hne : sizes ≠ []) (edges : List Arc) :
    IsGreatest {w | ∃ r < rankCount sizes.length (rankOf sizes.length edges),
        span spacing.node (ofRank (rankOf sizes.length edges) r sizes) = w}
      (extentOf spacing (rows sizes edges)).width := by
  convert isGreatest_rowWidth hs sizes edges using 1
  ext w
  simp only [Set.mem_ofPred_eq, List.mem_map]
  constructor
  · rintro ⟨r, hr, rfl⟩
    obtain ⟨bs, hbs⟩ := exists_row_iff.mpr hr
    exact ⟨bs, List.mem_of_getElem? hbs, rowWidth_eq hsizes hbs (row_ne_nil hne hbs)⟩
  · rintro ⟨bs, hmem, rfl⟩
    obtain ⟨r, hbs⟩ := List.getElem?_of_mem hmem
    exact ⟨r, exists_row_iff.mp ⟨bs, hbs⟩, (rowWidth_eq hsizes hbs (row_ne_nil hne hbs)).symm⟩

theorem height_extentOf (hsizes : ∀ size ∈ sizes, size.Nonneg) (edges : List Arc) :
    let count := rankCount sizes.length (rankOf sizes.length edges)
    (extentOf spacing (rows sizes edges)).height =
      ((List.range count).map fun r => tallest (ofRank (rankOf sizes.length edges) r sizes)).sum +
        spacing.rank * (count - 1) := by
  intro count
  have hmap : (rows sizes edges).map rowHeight =
      (List.range count).map fun r => tallest (ofRank (rankOf sizes.length edges) r sizes) := by
    apply List.ext_getElem
    · simp [length_rows, count]
    · intro r hr hr'
      have hlt : r < (rows sizes edges).length := by simpa using hr
      simp [rowHeight_eq hsizes (List.getElem?_eq_getElem hlt)]
  rw [extentOf, offset_eq, hmap, List.length_map, List.length_range]
  ring

theorem isGreatest_tallest (hsizes : ∀ size ∈ sizes, size.Nonneg) (hne : sizes ≠ [])
    (hr : r < rankCount sizes.length (rankOf sizes.length edges)) :
    IsGreatest (Size.height '' {size | size ∈ ofRank (rankOf sizes.length edges) r sizes})
      (tallest (ofRank (rankOf sizes.length edges) r sizes)) := by
  obtain ⟨v, hv, hrank⟩ := exists_number_eq (List.length_pos_iff.mpr hne) hr
  have hmem := mem_ofRank_iff.mpr ⟨v, hrank, List.getElem?_eq_getElem hv⟩
  have himage : Size.height '' {size | size ∈ ofRank (rankOf sizes.length edges) r sizes} =
      {h | h ∈ (ofRank (rankOf sizes.length edges) r sizes).map Size.height} := by
    ext h
    simp
  rw [himage]
  refine isGreatest_largest (List.map_eq_nil_iff.not.mpr (List.ne_nil_of_mem hmem)) fun h hh => ?_
  obtain ⟨size, hsize, rfl⟩ := List.mem_map.mp hh
  obtain ⟨u, -, hu⟩ := mem_ofRank_iff.mp hsize
  exact (hsizes size (List.mem_of_getElem? hu)).2

theorem exists_band (hs : spacing.Nonneg) (hsizes : ∀ size ∈ sizes, size.Nonneg) (hne : sizes ≠ [])
    (hr : r < rankCount sizes.length (rankOf sizes.length edges)) :
    ∃ band : Rect ℚ,
      band.Bounds {b | b ∈ ofRank (rankOf sizes.length edges) r (boxes spacing sizes edges)} ∧
      band.w = span spacing.node (ofRank (rankOf sizes.length edges) r sizes) ∧
      band.h = tallest (ofRank (rankOf sizes.length edges) r sizes) ∧
      band.x + band.w / 2 = (extentOf spacing (rows sizes edges)).width / 2 ∧
      ∀ b ∈ ofRank (rankOf sizes.length edges) r (boxes spacing sizes edges),
        b.y + b.h / 2 = band.y + band.h / 2 := by
  obtain ⟨bs, hbs⟩ := exists_row_iff.mpr hr
  have hrow := row_ne_nil hne hbs
  refine ⟨band spacing (rows sizes edges) r bs, bounds_band hs hsizes hbs hrow,
    rowWidth_eq hsizes hbs hrow, rowHeight_eq hsizes hbs, ?_, fun b hb => ?_⟩
  · simp only [band, extentOf]
    ring
  · obtain ⟨i, c, -, rfl⟩ := (ofRank_boxes hsizes hbs).subset hb
    simp only [seat, band]
    ring

end

def laidSize (config : LayoutConfig ℚ) (nodes : List (Node ℚ)) (v : Nat) : Size ℚ :=
  (nodes[v]?.bind Node.size).getD config.defaultNodeSize

section
variable {config : LayoutConfig ℚ} {design : Design ℚ} {v : Nat}

theorem laidSize_arrange (placer : Placer ℚ) (hv : v < design.nodes.length) :
    laidSize config (arrange placer config design).nodes v = sizeOf placer config design v := by
  obtain ⟨p, -, -, hsize, hbox⟩ := exists_scopeBox_eq placer config hv
  have hlaid : laidSize config (arrange placer config design).nodes v =
      ⟨(scopeBox config (arrange placer config design).nodes v).w,
        (scopeBox config (arrange placer config design).nodes v).h⟩ := rfl
  rw [hlaid, hbox, ← hsize]
  rfl

theorem size_of_bounds_boxes {spacing : Spacing ℚ} {sizes : List (Size ℚ)} {edges : List Arc}
    {extent : Size ℚ} {node : Node ℚ} (hnode : design.nodes[v]? = some node)
    (hkind : node.kind.isContainer = true) (hne : sizes ≠ [])
    (hbounds : (Rect.ofOrigin .zero extent).Bounds {b | b ∈ boxes spacing sizes edges})
    (hsizes : ((effectiveLinks design.nodes).under (some v)).map
      (laidSize config (arrange (ranked spacing) config design).nodes) = sizes)
    (hedges : scopeArcs ((effectiveLinks design.nodes).under (some v))
      (edgePairs design.nodes design.edges) = edges) :
    (arrange (ranked spacing) config design).nodes[v]?.bind Node.size =
      some (config.containerSize (some extent)) := by
  subst hsizes hedges
  have hmembers := members_measured (ranked spacing) config design (some v)
  have hmap : (measured (ranked spacing) config design (some v)).members.map Member.size =
      ((effectiveLinks design.nodes).under (some v)).map
        (laidSize config (arrange (ranked spacing) config design).nodes) := by
    rw [hmembers, List.map_map]
    refine List.map_congr_left fun c hc => (laidSize_arrange _ ?_).symm
    exact length_effectiveLinks design.nodes ▸ (Links.mem_under_iff.mp hc).1
  have hindex : (measured (ranked spacing) config design (some v)).members.map Member.index =
      (effectiveLinks design.nodes).under (some v) := by
    rw [hmembers, List.map_map]
    exact List.map_id _
  rw [← hmap, ← hindex] at hbounds
  have hextent : (scopeOf (ranked spacing) config design (some v)).extent = some extent := by
    refine extent_placeScope_of_bounds ?_ ?_ hbounds
    · rintro hnil
      rw [hnil, List.map_nil] at hmap
      exact hne hmap.symm
    · rw [length_ranked, List.length_map]
  rw [size_of_isContainer _ _ _ hnode hkind, hextent]

end

/-- All boxes together are as wide as the widest rank and as high as all ranks with the gaps between
them. Each rank stands in the middle of the width and each box in the middle of its rank's height.
So a container that is laid out this way has the size that this extent makes. -/
theorem ranked_fills_its_extent (spacing : Spacing ℚ) (hs : spacing.Nonneg) (sizes : List (Size ℚ))
    (hne : sizes ≠ []) (hsizes : ∀ size ∈ sizes, size.Nonneg) (edges : List Arc) :
    let n := sizes.length
    let arcs := distinctArcs n edges
    let rank := rankAlong n (keptArcs arcs) (sequence arcs)
    let count := rankCount n rank
    let boxes := List.zipWith Rect.centred sizes (ranked spacing sizes edges)
    ∃ extent : Size ℚ,
      IsGreatest {w | ∃ r < count, span spacing.node (ofRank rank r sizes) = w} extent.width ∧
      extent.height = ((List.range count).map fun r => tallest (ofRank rank r sizes)).sum +
        spacing.rank * (count - 1) ∧
      (Rect.ofOrigin .zero extent).Bounds {b | b ∈ boxes} ∧
      (∀ r < count,
        IsGreatest (Size.height '' {size | size ∈ ofRank rank r sizes})
          (tallest (ofRank rank r sizes)) ∧
        ∃ band : Rect ℚ, band.Bounds {b | b ∈ ofRank rank r boxes} ∧
          band.w = span spacing.node (ofRank rank r sizes) ∧
          band.h = tallest (ofRank rank r sizes) ∧
          band.x + band.w / 2 = extent.width / 2 ∧
          ∀ b ∈ ofRank rank r boxes, b.y + b.h / 2 = band.y + band.h / 2) ∧
      ∀ config design v node, design.nodes[v]? = some node → node.kind.isContainer = true →
        let inside := (effectiveLinks design.nodes).under (some v)
        let laid := (arrange (ranked spacing) config design).nodes
        inside.map (laidSize config laid) = sizes →
        scopeArcs inside (edgePairs design.nodes design.edges) = edges →
        laid[v]?.bind Node.size = some (config.containerSize (some extent)) := by
  intro n arcs rank count boxes
  have hbounds := bounds_boxes hs hsizes hne edges
  exact ⟨extentOf spacing (rows sizes edges), isGreatest_span hs hsizes hne edges,
    height_extentOf hsizes edges, hbounds,
    fun r hr => ⟨isGreatest_tallest hsizes hne hr, exists_band hs hsizes hne hr⟩,
    fun config design v node hnode hkind hinside hedges =>
      size_of_bounds_boxes hnode hkind hne hbounds hinside hedges⟩

theorem ranked_fills_its_extent_nested :
    (arrange (ranked ⟨50, 50⟩) .default nestedDesign).nodes[0]?.bind Node.size =
      some ⟨max 250 200 + 200, max 170 50 + 200⟩ := by
  have hs : Spacing.Nonneg ⟨50, 50⟩ := ⟨by decide, by decide⟩
  obtain ⟨extent, hwidth, hheight, -, -, hcontainer⟩ := ranked_fills_its_extent ⟨50, 50⟩ hs
    [⟨10, 20⟩, ⟨250, 100⟩] (by decide) (by decide) [(0, 1)]
  -- the two nodes inside stand one above the other
  have hspan : IsGreatest {w | ∃ r < 2, span 50
      (ofRank (rankOf 2 [(0, 1)]) r [⟨10, 20⟩, ⟨250, 100⟩]) = w} (250 : ℚ) := by
    refine ⟨⟨1, by decide, by decide +kernel⟩, ?_⟩
    rintro _ ⟨r, hr, rfl⟩
    revert r
    decide +kernel
  have hextent : extent = ⟨250, 170⟩ := by
    have hw : extent.width = 250 := hwidth.unique hspan
    have hh : extent.height = 170 := hheight.trans (by decide +kernel)
    rw [← hw, ← hh]
  have hunder : (effectiveLinks nestedDesign.nodes).under (some 0) = [1, 2] := by decide
  have hsizes : [1, 2].map (laidSize .default
      (arrange (ranked ⟨50, 50⟩) .default nestedDesign).nodes) = [⟨10, 20⟩, ⟨250, 100⟩] := by
    rw [List.map_cons, List.map_cons, laidSize_arrange _ (by decide),
      laidSize_arrange _ (by decide)]
    rfl
  have hsize := hcontainer .default nestedDesign 0 _ rfl rfl (by rw [hunder]; exact hsizes)
    (by decide)
  rw [hextent] at hsize
  exact hsize

end FlowStudio.Layout
