import FlowStudio.Layout.Nested
import FlowStudio.Proofs.Layout.Bounds
import FlowStudio.Proofs.Layout.Ranked

/-! One scope: its members keep their sizes, fill the extent from the origin on and lie apart. -/

namespace FlowStudio.Layout
section
variable {α : Type} [Scalar α]

def Placed.member (p : Placed α) : Member α := ⟨p.index, p.size⟩

def Placed.seenFrom (corner : Point α) (p : Placed α) : Placed α :=
  { p with position := ⟨p.position.x - corner.x, p.position.y - corner.y⟩ }

theorem map_member_corners (members : List (Member α)) (centres : List (Point α)) :
    (corners members centres).map Placed.member = members := by
  induction members generalizing centres with
  | nil => rfl
  | cons m ms ih => rw [corners, List.map_cons, ih]; rfl

theorem exists_settle (boxes : List (Placed α)) :
    ∃ corner, (settle boxes).placed = boxes.map (Placed.seenFrom corner) := by
  cases boxes with
  | nil => exact ⟨Point.zero, rfl⟩
  | cons b bs => exact ⟨⟨_, _⟩, rfl⟩

theorem placeScope_eq (placer : Placer α) (pairs : List Arc) (members : List (Member α)) :
    placeScope placer pairs members = settle (corners members
      (placer (members.map Member.size) (scopeArcs (members.map Member.index) pairs))) := by
  cases members <;> rfl

theorem map_member_placeScope (placer : Placer α) (pairs : List Arc) (members : List (Member α)) :
    (placeScope placer pairs members).placed.map Placed.member = members := by
  rw [placeScope_eq]
  obtain ⟨corner, hplaced⟩ := exists_settle (corners members
    (placer (members.map Member.size) (scopeArcs (members.map Member.index) pairs)))
  rw [hplaced, List.map_map]
  exact map_member_corners members _

theorem member_mem_iff {placer : Placer α} {pairs : List Arc} {members : List (Member α)}
    {m : Member α} :
    m ∈ members ↔ ∃ p ∈ (placeScope placer pairs members).placed, p.member = m := by
  rw [← List.mem_map, map_member_placeScope]

end

variable {placer : Placer ℚ} {pairs : List Arc} {members : List (Member ℚ)}

def Placed.box (p : Placed ℚ) : Rect ℚ := .ofOrigin p.position p.size

theorem Placed.box_seenFrom (corner : Point ℚ) (p : Placed ℚ) :
    (p.seenFrom corner).box = p.box.shift ⟨-corner.x, -corner.y⟩ := by
  simp only [Placed.box, Placed.seenFrom, Rect.ofOrigin, Rect.shift, sub_eq_add_neg]

theorem map_box_corners {centres : List (Point ℚ)} (h : centres.length = members.length) :
    (corners members centres).map Placed.box =
      List.zipWith Rect.centred (members.map Member.size) centres := by
  induction members generalizing centres with
  | nil => rfl
  | cons m ms ih =>
    cases centres with
    | nil => exact absurd h (Nat.succ_ne_zero ms.length).symm
    | cons c cs =>
      rw [corners, List.map_cons, List.map_cons, List.zipWith_cons_cons, List.tail_cons,
        ih (Nat.succ.inj h)]
      rfl

theorem pairwise_placeScope (hsound : placer.Sound) (hsizes : ∀ m ∈ members, m.size.Nonneg) :
    (placeScope placer pairs members).placed.Pairwise fun p q => p.box.Apart q.box := by
  rw [placeScope_eq]
  generalize scopeArcs (members.map Member.index) pairs = arcs
  have hnonneg : ∀ size ∈ members.map Member.size, size.Nonneg := List.forall_mem_map.mpr hsizes
  have happart := hsound.apart (members.map Member.size) arcs hnonneg
  have hlen := hsound.length_eq (members.map Member.size) arcs
  rw [List.length_map] at hlen
  rw [← map_box_corners hlen, List.pairwise_map] at happart
  obtain ⟨corner, hplaced⟩ :=
    exists_settle (corners members (placer (members.map Member.size) arcs))
  rw [hplaced, List.pairwise_map]
  refine happart.imp fun h => ?_
  rw [Placed.box_seenFrom, Placed.box_seenFrom]
  exact h.shift _

theorem isLeast_of_smallest? {xs : List ℚ} {m : ℚ} (h : smallest? xs = some m) :
    IsLeast {x | x ∈ xs} m := by
  have heq : smallest? xs = xs.min? := by cases xs <;> rfl
  exact List.min?_eq_some_iff.mp (heq.symm.trans h)

theorem isGreatest_of_largest? {xs : List ℚ} {m : ℚ} (h : largest? xs = some m) :
    IsGreatest {x | x ∈ xs} m := by
  have heq : largest? xs = xs.max? := by cases xs <;> rfl
  exact List.max?_eq_some_iff.mp (heq.symm.trans h)

theorem exists_bounds_settle {boxes : List (Placed ℚ)} (hne : boxes ≠ []) :
    ∃ bounds : Rect ℚ, bounds.Bounds (Placed.box '' {p | p ∈ boxes}) ∧
      settle boxes = ⟨boxes.map (Placed.seenFrom ⟨bounds.x, bounds.y⟩),
        some ⟨bounds.w, bounds.h⟩⟩ := by
  obtain ⟨b, bs, rfl⟩ := List.exists_cons_of_ne_nil hne
  -- there is a box, so there are all four sides
  obtain ⟨left, hleft⟩ : ∃ left, smallest? ((b :: bs).map (·.position.x)) = some left := ⟨_, rfl⟩
  obtain ⟨top, htop⟩ : ∃ top, smallest? ((b :: bs).map (·.position.y)) = some top := ⟨_, rfl⟩
  obtain ⟨right, hright⟩ : ∃ right, largest? ((b :: bs).map fun q =>
    q.position.x + q.size.width) = some right := ⟨_, rfl⟩
  obtain ⟨bottom, hbottom⟩ : ∃ bottom, largest? ((b :: bs).map fun q =>
    q.position.y + q.size.height) = some bottom := ⟨_, rfl⟩
  have himage : ∀ (f : Rect ℚ → ℚ) (g : Placed ℚ → ℚ), (∀ q, f q.box = g q) →
      f '' (Placed.box '' {q | q ∈ b :: bs}) = {x | x ∈ (b :: bs).map g} := by
    intro f g hfg
    rw [Set.image_image]
    simp only [hfg]
    ext x
    simp only [Set.mem_image, Set.mem_ofPred_eq, List.mem_map]
  refine ⟨⟨left, top, right - left, bottom - top⟩, ⟨?_, ?_, ?_, ?_⟩, ?_⟩
  · rw [himage Rect.x (·.position.x) fun _ => rfl]
    exact isLeast_of_smallest? hleft
  · rw [himage Rect.y (·.position.y) fun _ => rfl]
    exact isLeast_of_smallest? htop
  · rw [himage Rect.right _ fun _ => rfl, Rect.right_eq, add_sub_cancel]
    exact isGreatest_of_largest? hright
  · rw [himage Rect.bottom _ fun _ => rfl, Rect.bottom_eq, add_sub_cancel]
    exact isGreatest_of_largest? hbottom
  · simp only [settle, hleft, htop, hright, hbottom]
    rfl

theorem exists_extent_settle {boxes : List (Placed ℚ)} (hne : boxes ≠ []) :
    ∃ extent, (settle boxes).extent = some extent ∧
      (Rect.ofOrigin Point.zero extent).Bounds (Placed.box '' {p | p ∈ (settle boxes).placed}) := by
  obtain ⟨bounds, hbounds, hsettle⟩ := exists_bounds_settle hne
  have hshift := hbounds.shift ⟨-bounds.x, -bounds.y⟩
  have horigin : bounds.shift ⟨-bounds.x, -bounds.y⟩ =
      Rect.ofOrigin Point.zero ⟨bounds.w, bounds.h⟩ := by
    simp only [Rect.ofOrigin_zero, Rect.shift, add_neg_cancel]
  have himage : Rect.shift ⟨-bounds.x, -bounds.y⟩ '' (Placed.box '' {p | p ∈ boxes}) =
      Placed.box '' {p | p ∈ (settle boxes).placed} := by
    ext r
    simp [hsettle, Placed.box_seenFrom]
  rw [horigin, himage] at hshift
  exact ⟨_, by rw [hsettle], hshift⟩

theorem corners_ne_nil (h : members ≠ []) (centres : List (Point ℚ)) :
    corners members centres ≠ [] := by
  obtain ⟨m, ms, rfl⟩ := List.exists_cons_of_ne_nil h
  exact List.cons_ne_nil _ _

theorem exists_bounds_placeScope (placer : Placer ℚ) (pairs : List Arc) (h : members ≠ []) :
    ∃ extent, (placeScope placer pairs members).extent = some extent ∧
      (Rect.ofOrigin Point.zero extent).Bounds
        (Placed.box '' {p | p ∈ (placeScope placer pairs members).placed}) := by
  rw [placeScope_eq]
  exact exists_extent_settle (corners_ne_nil h _)

theorem extent_placeScope_of_bounds {bounds : Rect ℚ} (h : members ≠ [])
    (hlen : (placer (members.map Member.size) (scopeArcs (members.map Member.index) pairs)).length =
      members.length)
    (hbounds : bounds.Bounds {b | b ∈ List.zipWith Rect.centred (members.map Member.size)
      (placer (members.map Member.size) (scopeArcs (members.map Member.index) pairs))}) :
    (placeScope placer pairs members).extent = some ⟨bounds.w, bounds.h⟩ := by
  obtain ⟨bounds', hbounds', hsettle⟩ := exists_bounds_settle (corners_ne_nil h
    (placer (members.map Member.size) (scopeArcs (members.map Member.index) pairs)))
  rw [← map_box_corners hlen] at hbounds
  have himage : {b | b ∈ (corners members (placer (members.map Member.size)
      (scopeArcs (members.map Member.index) pairs))).map Placed.box} = Placed.box '' {p | p ∈
        corners members (placer (members.map Member.size)
          (scopeArcs (members.map Member.index) pairs))} := by
    ext b
    simp
  rw [himage] at hbounds
  rw [placeScope_eq, hsettle, hbounds.unique hbounds']

theorem exists_extent_placeScope {p : Placed ℚ}
    (hp : p ∈ (placeScope placer pairs members).placed) :
    ∃ extent, (placeScope placer pairs members).extent = some extent ∧
      (Rect.ofOrigin Point.zero extent).contains p.box = true := by
  have hne : members ≠ [] := by
    rintro rfl
    exact List.not_mem_nil hp
  obtain ⟨extent, hextent, hbounds⟩ := exists_bounds_placeScope placer pairs hne
  exact ⟨extent, hextent, hbounds.contains ⟨p, hp, rfl⟩⟩

theorem extent_nonneg (hsizes : ∀ m ∈ members, m.size.Nonneg) :
    ((placeScope placer pairs members).extent.getD Size.zero).Nonneg := by
  cases members with
  | nil => exact ⟨le_rfl, le_rfl⟩
  | cons m ms =>
    obtain ⟨p, hp, rfl⟩ := member_mem_iff.mp (List.mem_cons_self (a := m) (l := ms))
    obtain ⟨extent, hextent, hcontains⟩ := exists_extent_placeScope hp
    obtain ⟨hx, hy, hright, hbottom⟩ := Rect.contains_iff.mp hcontains
    have hsize : p.size.Nonneg := hsizes p.member List.mem_cons_self
    rw [hextent, Option.getD_some]
    have hwidth : p.position.x + p.size.width ≤ 0 + extent.width := hright
    have hheight : p.position.y + p.size.height ≤ 0 + extent.height := hbottom
    have hx : 0 ≤ p.position.x := hx
    have hy : 0 ≤ p.position.y := hy
    exact ⟨by linarith [hsize.1], by linarith [hsize.2]⟩

end FlowStudio.Layout
