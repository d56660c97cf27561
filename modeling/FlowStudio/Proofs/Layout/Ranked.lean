import FlowStudio.Proofs.Layout.Exact
import FlowStudio.Proofs.Layout.Ranks
import Mathlib.Algebra.Order.BigOperators.Group.List
import Mathlib.Data.List.Infix
import Mathlib.Tactic.Ring

/-! Ranked placement puts each box where the boxes before it in its rank, and the ranks before that,
leave off. So boxes are kept apart: side by side in a rank, one below the other across ranks. -/

namespace FlowStudio
open Layout

/-- A placer that finds every box a centre, and places apart for boxes of no negative extent. -/
structure Placer.Sound (placer : Placer ℚ) : Prop where
  length_eq : ∀ sizes arcs, (placer sizes arcs).length = sizes.length
  apart : ∀ sizes arcs, (∀ size ∈ sizes, size.Nonneg) →
    (List.zipWith Rect.centred sizes (placer sizes arcs)).Pairwise Rect.Apart

def Spacing.Nonneg (s : Spacing ℚ) : Prop := 0 ≤ s.node ∧ 0 ≤ s.rank

namespace Layout

def offset (gap : ℚ) (extents : List ℚ) : ℚ := (extents.map (· + gap)).sum

section
variable {gap x : ℚ} {xs : List ℚ} {i j : Nat}

@[simp] theorem offset_nil (gap : ℚ) : offset gap [] = 0 := rfl

@[simp] theorem offset_cons (gap x : ℚ) (xs : List ℚ) :
    offset gap (x :: xs) = x + gap + offset gap xs := by
  simp [offset]

theorem offset_eq (gap : ℚ) (xs : List ℚ) : offset gap xs = xs.sum + gap * xs.length := by
  induction xs with
  | nil => simp
  | cons x xs ih =>
    rw [offset_cons, ih, List.sum_cons, List.length_cons]
    push_cast
    ring

theorem offset_take_succ (gap : ℚ) (h : xs[i]? = some x) :
    offset gap (xs.take (i + 1)) = offset gap (xs.take i) + x + gap := by
  simp [offset, List.take_add_one, h, add_assoc]

theorem offset_take_mono (hgap : 0 ≤ gap) (hxs : ∀ x ∈ xs, 0 ≤ x) (hij : i ≤ j) :
    offset gap (xs.take i) ≤ offset gap (xs.take j) := by
  refine ((List.take_prefix_take_left hij).sublist.map (· + gap)).sum_le_sum fun y hy => ?_
  obtain ⟨x, hx, rfl⟩ := List.mem_map.mp hy
  exact add_nonneg (hxs x (List.mem_of_mem_take hx)) hgap

theorem offset_take_lt (hgap : 0 ≤ gap) (hxs : ∀ x ∈ xs, 0 ≤ x) (h : xs[i]? = some x) (hij : i < j) :
    offset gap (xs.take i) + x + gap ≤ offset gap (xs.take j) := by
  rw [← offset_take_succ gap h]
  exact offset_take_mono hgap hxs hij

theorem offset_take_le (hgap : 0 ≤ gap) (hxs : ∀ x ∈ xs, 0 ≤ x) (h : xs[i]? = some x) :
    offset gap (xs.take i) + x + gap ≤ offset gap xs := by
  have hle := offset_take_lt hgap hxs h (List.getElem?_eq_some_iff.mp h).1
  rwa [List.take_length] at hle

theorem exists_offset_last {β : Type} (gap : ℚ) (f : β → ℚ) {ys : List β} (hne : ys ≠ []) :
    ∃ i y, ys[i]? = some y ∧ offset gap ((ys.map f).take i) + f y + gap = offset gap (ys.map f) := by
  have hpos := List.length_pos_iff.mpr hne
  have hlast : ys[ys.length - 1]? = some (ys.getLast hne) := by
    rw [← List.getLast?_eq_getElem?, List.getLast?_eq_some_getLast]
  refine ⟨_, _, hlast, ?_⟩
  have hmap : (ys.map f)[ys.length - 1]? = some (f (ys.getLast hne)) := by simp [hlast]
  rw [← offset_take_succ gap hmap, Nat.sub_add_cancel hpos, List.take_of_length_le (by simp)]

end

theorem sum_rat (xs : List ℚ) : sum xs = xs.sum := List.sum_eq_foldl.symm

theorem mem_of_largest (xs : List ℚ) : largest xs ∈ 0 :: xs :=
  (List.max?_eq_some_iff.mp rfl).1

theorem le_largest {xs : List ℚ} {x : ℚ} (h : x ∈ 0 :: xs) : x ≤ largest xs :=
  (List.max?_eq_some_iff.mp rfl).2 x h

theorem isGreatest_largest {xs : List ℚ} (hne : xs ≠ []) (hxs : ∀ x ∈ xs, 0 ≤ x) :
    IsGreatest {x | x ∈ xs} (largest xs) := by
  refine ⟨?_, fun x hx => le_largest (List.mem_cons_of_mem 0 hx)⟩
  rcases List.mem_cons.mp (mem_of_largest xs) with hzero | hmem
  · obtain ⟨x, hx⟩ := List.exists_mem_of_ne_nil xs hne
    have hle : x ≤ largest xs := le_largest (List.mem_cons_of_mem 0 hx)
    have heq : largest xs = x := le_antisymm (hzero.trans_le (hxs x hx)) hle
    exact heq ▸ hx
  · exact hmem

section
variable {sizes : List (Size ℚ)} {v : Nat}

theorem box_nonneg (sizes : List (Size ℚ)) (v : Nat) :
    0 ≤ (box sizes v).width ∧ 0 ≤ (box sizes v).height :=
  ⟨le_max_right _ _, le_max_right _ _⟩

theorem box_eq {size : Size ℚ} (hv : sizes[v]? = some size) (h : size.Nonneg) :
    box sizes v = ⟨v, size.width, size.height⟩ := by
  have hget : sizes.getD v Size.zero = size := by
    rw [List.getD_eq_getElem?_getD, hv, Option.getD_some]
  rw [box, hget]
  exact congr (congrArg _ (max_eq_left h.1)) (max_eq_left h.2)

end

section
variable {bs : List (Box ℚ)} {rows : List (List (Box ℚ))} {b : Box ℚ} {i r : Nat}

theorem map_fst_placeRow (sep middle left : ℚ) (bs : List (Box ℚ)) :
    (placeRow sep middle left bs).map Prod.fst = bs.map Box.node := by
  induction bs generalizing left with
  | nil => rfl
  | cons b bs ih => rw [placeRow, List.map_cons, ih, List.map_cons]

theorem mem_placeRow (sep middle left : ℚ) (h : bs[i]? = some b) :
    (b.node, ⟨left + offset sep ((bs.map Box.width).take i) + b.width / 2, middle⟩) ∈
      placeRow sep middle left bs := by
  induction bs generalizing i left with
  | nil => simp at h
  | cons c bs ih =>
    cases i with
    | zero =>
      obtain rfl : c = b := by simpa using h
      simp [placeRow, Scalar.half_rat]
    | succ i =>
      have hrest := ih (left + (c.width + sep)) (by simpa using h)
      rw [List.map_cons, List.take_succ_cons, offset_cons, ← add_assoc left]
      exact List.mem_cons_of_mem _ hrest

theorem map_fst_placeRows (spacing : Spacing ℚ) (width top : ℚ) (rows : List (List (Box ℚ))) :
    (placeRows spacing width top rows).map Prod.fst = rows.flatten.map Box.node := by
  induction rows generalizing top with
  | nil => rfl
  | cons bs rest ih =>
    rw [placeRows, List.map_append, map_fst_placeRow, ih, List.flatten_cons, List.map_append]

theorem mem_placeRows (spacing : Spacing ℚ) (width top : ℚ) (hr : rows[r]? = some bs)
    (hi : bs[i]? = some b) :
    (b.node, ⟨(width - rowWidth spacing.node bs) / 2 +
        offset spacing.node ((bs.map Box.width).take i) + b.width / 2,
      top + offset spacing.rank ((rows.map rowHeight).take r) + rowHeight bs / 2⟩) ∈
        placeRows spacing width top rows := by
  induction rows generalizing r top with
  | nil => simp at hr
  | cons cs rest ih =>
    cases r with
    | zero =>
      obtain rfl : cs = bs := by simpa using hr
      have hrow := mem_placeRow spacing.node (top + Scalar.half (rowHeight cs))
        (Scalar.half (width - rowWidth spacing.node cs)) hi
      simp only [List.take_zero, offset_nil, add_zero]
      exact List.mem_append_left _ hrow
    | succ r =>
      have hrest := ih (top + (rowHeight cs + spacing.rank)) (by simpa using hr)
      rw [List.map_cons, List.take_succ_cons, offset_cons, ← add_assoc top]
      exact List.mem_append_right _ hrest

end

def boxes (spacing : Spacing ℚ) (sizes : List (Size ℚ)) (edges : List Arc) : List (Rect ℚ) :=
  List.zipWith Rect.centred sizes (ranked spacing sizes edges)

def seat (spacing : Spacing ℚ) (rows : List (List (Box ℚ))) (r : Nat) (bs : List (Box ℚ)) (i : Nat)
    (b : Box ℚ) : Rect ℚ where
  x := (largest (rows.map (rowWidth spacing.node)) - rowWidth spacing.node bs) / 2 +
    offset spacing.node ((bs.map Box.width).take i)
  y := offset spacing.rank ((rows.map rowHeight).take r) + (rowHeight bs - b.height) / 2
  w := b.width
  h := b.height

section
variable {sizes : List (Size ℚ)} {spacing : Spacing ℚ} {edges : List Arc} {bs cs : List (Box ℚ)}
  {b c : Box ℚ} {i j q r u v : Nat}

theorem length_ranked (spacing : Spacing ℚ) (sizes : List (Size ℚ)) (edges : List Arc) :
    (ranked spacing sizes edges).length = sizes.length := by
  rw [ranked]
  split
  · next hnil => simp [List.isEmpty_iff.mp hnil]
  · simp

theorem length_boxes (spacing : Spacing ℚ) (sizes : List (Size ℚ)) (edges : List Arc) :
    (boxes spacing sizes edges).length = sizes.length := by
  simp [boxes, length_ranked]

theorem getElem?_ranked (hv : v < sizes.length) : (ranked spacing sizes edges)[v]? =
    some (((placedRows spacing sizes edges).lookup v).getD Point.zero) := by
  rw [ranked, if_neg]
  · simp [hv]
  · rintro hnil
    simp [List.isEmpty_iff.mp hnil] at hv

theorem getElem?_rows : (rows sizes edges)[r]? =
    (orderedRanks ℚ sizes.length edges)[r]?.map (·.map (box sizes)) := List.getElem?_map

theorem box_of_mem_row (hr : (rows sizes edges)[r]? = some bs) (hb : b ∈ bs) :
    b = box sizes b.node ∧ b.node < sizes.length ∧ (rankOf sizes.length edges).number b.node = r := by
  rw [getElem?_rows] at hr
  obtain ⟨row, hrow, rfl⟩ := Option.map_eq_some_iff.mp hr
  obtain ⟨v, hv, rfl⟩ := List.mem_map.mp hb
  exact ⟨rfl, (mem_row_iff hrow).mp hv⟩

theorem exists_mem_row (edges : List Arc) (hv : v < sizes.length) :
    ∃ bs, (rows sizes edges)[(rankOf sizes.length edges).number v]? = some bs ∧
      box sizes v ∈ bs := by
  obtain ⟨row, hrow, hmem⟩ := exists_row ℚ edges hv
  exact ⟨row.map (box sizes), by rw [getElem?_rows, hrow]; rfl, List.mem_map_of_mem hmem⟩

theorem nodup_placedRows (spacing : Spacing ℚ) (sizes : List (Size ℚ)) (edges : List Arc) :
    ((placedRows spacing sizes edges).map Prod.fst).Nodup := by
  have hnode : (rows sizes edges).flatten.map Box.node =
      (orderedRanks ℚ sizes.length edges).flatten := by
    have hrow : ∀ row : List Nat, (row.map (box sizes)).map Box.node = row := fun row => by
      rw [List.map_map]
      exact List.map_id row
    rw [List.map_flatten, rows, List.map_map, Function.comp_def]
    simp only [hrow, List.map_id']
  rw [placedRows, map_fst_placeRows, hnode]
  exact nodup_flatten_orderedRanks ℚ _ _

theorem getElem?_boxes (hsizes : ∀ size ∈ sizes, size.Nonneg) (hr : (rows sizes edges)[r]? = some bs)
    (hi : bs[i]? = some b) : (boxes spacing sizes edges)[b.node]? =
      some (seat spacing (rows sizes edges) r bs i b) := by
  obtain ⟨hbox, hlt, -⟩ := box_of_mem_row hr (List.mem_of_getElem? hi)
  have hsize := List.getElem?_eq_getElem hlt
  have heq := hbox.trans (box_eq hsize (hsizes _ (List.mem_of_getElem? hsize)))
  have hwidth : sizes[b.node].width = b.width := (congrArg Box.width heq).symm
  have hheight : sizes[b.node].height = b.height := (congrArg Box.height heq).symm
  have hcentre := lookup_eq_of_mem (nodup_placedRows spacing sizes edges)
    (mem_placeRows spacing _ _ hr hi)
  rw [boxes, List.getElem?_zipWith_eq_some]
  refine ⟨_, _, hsize, getElem?_ranked hlt, ?_⟩
  simp only [hcentre, Option.getD_some, Rect.centred, seat, hwidth, hheight, Rect.mk.injEq,
    and_true]
  rw [Scalar.nat_zero_rat]
  constructor <;> ring

theorem exists_seat (hsizes : ∀ size ∈ sizes, size.Nonneg) {a : Rect ℚ}
    (ha : (boxes spacing sizes edges)[v]? = some a) :
    ∃ bs i, (rows sizes edges)[(rankOf sizes.length edges).number v]? = some bs ∧
      bs[i]? = some (box sizes v) ∧
      a = seat spacing (rows sizes edges) ((rankOf sizes.length edges).number v) bs i
        (box sizes v) := by
  have hv : v < sizes.length := length_boxes spacing sizes edges ▸
    (List.getElem?_eq_some_iff.mp ha).1
  obtain ⟨bs, hr, hmem⟩ := exists_mem_row edges hv
  obtain ⟨i, hi⟩ := List.getElem?_of_mem hmem
  exact ⟨bs, i, hr, hi, Option.some.inj (ha.symm.trans (getElem?_boxes hsizes hr hi))⟩

theorem width_nonneg_of_mem_row (hr : (rows sizes edges)[r]? = some bs) :
    ∀ x ∈ bs.map Box.width, 0 ≤ x := by
  intro x hx
  obtain ⟨b, hb, rfl⟩ := List.mem_map.mp hx
  rw [(box_of_mem_row hr hb).1]
  exact (box_nonneg sizes _).1

theorem height_le_rowHeight (hb : b ∈ bs) : b.height ≤ rowHeight bs :=
  le_largest (List.mem_cons_of_mem 0 (List.mem_map_of_mem hb))

theorem rowHeight_nonneg (bs : List (Box ℚ)) : 0 ≤ rowHeight bs := le_largest List.mem_cons_self

theorem right_seat_eq (hi : bs[i]? = some b) (c : Box ℚ) :
    (seat spacing (rows sizes edges) r bs i b).right + spacing.node =
      (seat spacing (rows sizes edges) r bs (i + 1) c).x := by
  have hwidth : (bs.map Box.width)[i]? = some b.width := by simp [hi]
  have hoffset := offset_take_succ spacing.node hwidth
  simp only [Rect.right_eq, seat, hoffset]
  ring

theorem right_seat_le (hs : spacing.Nonneg) (hr : (rows sizes edges)[r]? = some bs)
    (hi : bs[i]? = some b) (hij : i < j) :
    (seat spacing (rows sizes edges) r bs i b).right + spacing.node ≤
      (seat spacing (rows sizes edges) r bs j c).x := by
  have hwidth : (bs.map Box.width)[i]? = some b.width := by simp [hi]
  have hoffset := offset_take_lt hs.1 (width_nonneg_of_mem_row hr) hwidth hij
  simp only [Rect.right_eq, seat]
  linarith

theorem bottom_seat_le (hs : spacing.Nonneg) (hr : (rows sizes edges)[r]? = some bs)
    (hi : bs[i]? = some b) (hj : cs[j]? = some c) (hrq : r < q) :
    (seat spacing (rows sizes edges) r bs i b).bottom + spacing.rank ≤
      (seat spacing (rows sizes edges) q cs j c).y := by
  have hheights : ∀ x ∈ (rows sizes edges).map rowHeight, 0 ≤ x :=
    List.forall_mem_map.mpr fun bs _ => rowHeight_nonneg bs
  have hheight : ((rows sizes edges).map rowHeight)[r]? = some (rowHeight bs) := by simp [hr]
  have hoffset := offset_take_lt hs.2 hheights hheight hrq
  have hb := height_le_rowHeight (List.mem_of_getElem? hi)
  have hc := height_le_rowHeight (List.mem_of_getElem? hj)
  simp only [Rect.bottom_eq, seat]
  linarith

theorem right_eq_of_next (hsizes : ∀ size ∈ sizes, size.Nonneg) {a b : Rect ℚ} {row : List Nat}
    (ha : (boxes spacing sizes edges)[u]? = some a) (hb : (boxes spacing sizes edges)[v]? = some b)
    (hrow : row ∈ orderedRanks ℚ sizes.length edges) (hi : row[i]? = some u)
    (hj : row[i + 1]? = some v) : a.right + spacing.node = b.x := by
  obtain ⟨r, hr⟩ := List.getElem?_of_mem hrow
  have hboxes : (rows sizes edges)[r]? = some (row.map (box sizes)) := by
    rw [getElem?_rows, hr, Option.map_some]
  have hu : (row.map (box sizes))[i]? = some (box sizes u) := by simp [hi]
  have hv : (row.map (box sizes))[i + 1]? = some (box sizes v) := by simp [hj]
  obtain rfl := Option.some.inj (ha.symm.trans (getElem?_boxes hsizes hboxes hu))
  obtain rfl := Option.some.inj (hb.symm.trans (getElem?_boxes hsizes hboxes hv))
  exact right_seat_eq hu _

section
variable (hs : spacing.Nonneg) (hsizes : ∀ size ∈ sizes, size.Nonneg) {a b : Rect ℚ}
  (ha : (boxes spacing sizes edges)[u]? = some a) (hb : (boxes spacing sizes edges)[v]? = some b)
include hs hsizes ha hb

theorem right_le_of_rank_eq (hne : u ≠ v)
    (hrank : (rankOf sizes.length edges).number u = (rankOf sizes.length edges).number v) :
    a.right + spacing.node ≤ b.x ∨ b.right + spacing.node ≤ a.x := by
  obtain ⟨bs, i, hr, hi, rfl⟩ := exists_seat hsizes ha
  obtain ⟨cs, j, hr', hj, rfl⟩ := exists_seat hsizes hb
  rw [← hrank] at hr' ⊢
  obtain rfl : bs = cs := Option.some.inj (hr.symm.trans hr')
  have hij : i ≠ j := by
    rintro rfl
    exact hne (congrArg Box.node (Option.some.inj (hi.symm.trans hj)))
  rcases Nat.lt_or_gt_of_ne hij with hij | hij
  · exact .inl (right_seat_le hs hr hi hij)
  · exact .inr (right_seat_le hs hr hj hij)

theorem bottom_le_of_rank_lt
    (hrank : (rankOf sizes.length edges).number u < (rankOf sizes.length edges).number v) :
    a.bottom + spacing.rank ≤ b.y := by
  obtain ⟨bs, i, hr, hi, rfl⟩ := exists_seat hsizes ha
  obtain ⟨cs, j, -, hj, rfl⟩ := exists_seat hsizes hb
  exact bottom_seat_le hs hr hi hj hrank

end

theorem apart_boxes (hs : spacing.Nonneg) (hsizes : ∀ size ∈ sizes, size.Nonneg) {a b : Rect ℚ}
    (ha : (boxes spacing sizes edges)[u]? = some a) (hb : (boxes spacing sizes edges)[v]? = some b)
    (hne : u ≠ v) : a.Apart b := by
  rcases lt_trichotomy ((rankOf sizes.length edges).number u) ((rankOf sizes.length edges).number v)
    with hrank | hrank | hrank
  · have hle := bottom_le_of_rank_lt hs hsizes ha hb hrank
    exact .inr (.inl ((le_add_of_nonneg_right hs.2).trans hle))
  · rcases right_le_of_rank_eq hs hsizes ha hb hne hrank with hle | hle
    · exact .inl (.inl ((le_add_of_nonneg_right hs.1).trans hle))
    · exact .inl (.inr ((le_add_of_nonneg_right hs.1).trans hle))
  · have hle := bottom_le_of_rank_lt hs hsizes hb ha hrank
    exact .inr (.inr ((le_add_of_nonneg_right hs.2).trans hle))

theorem sound_ranked (hs : spacing.Nonneg) : (ranked spacing).Sound where
  length_eq := length_ranked spacing
  apart sizes edges hsizes := by
    rw [List.pairwise_iff_getElem]
    intro i j hi hj hij
    exact apart_boxes hs hsizes (List.getElem?_eq_getElem hi) (List.getElem?_eq_getElem hj) hij.ne

end

end Layout
end FlowStudio
