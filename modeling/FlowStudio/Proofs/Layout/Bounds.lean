import FlowStudio.Proofs.Layout.Exact
import Mathlib.Data.Set.Lattice.Image
import Mathlib.Order.Bounds.Basic
import Mathlib.Tactic.Ring

/-! The smallest box around some boxes. -/

namespace FlowStudio

theorem isLeast_image_iUnion {β ι : Type} {f : β → ℚ} {part : ι → Set β} {least : ι → ℚ} {a : ℚ}
    (h : IsLeast (Set.range least) a) (hpart : ∀ i, IsLeast (f '' part i) (least i)) :
    IsLeast (f '' ⋃ i, part i) a := by
  rw [Set.image_iUnion]
  obtain ⟨⟨i, rfl⟩, hlower⟩ := h
  refine ⟨Set.mem_iUnion.mpr ⟨i, (hpart i).1⟩, fun x hx => ?_⟩
  obtain ⟨j, hj⟩ := Set.mem_iUnion.mp hx
  exact (hlower (Set.mem_range_self j)).trans ((hpart j).2 hj)

theorem isGreatest_image_iUnion {β ι : Type} {f : β → ℚ} {part : ι → Set β} {greatest : ι → ℚ}
    {a : ℚ} (h : IsGreatest (Set.range greatest) a)
    (hpart : ∀ i, IsGreatest (f '' part i) (greatest i)) : IsGreatest (f '' ⋃ i, part i) a := by
  rw [Set.image_iUnion]
  obtain ⟨⟨i, rfl⟩, hupper⟩ := h
  refine ⟨Set.mem_iUnion.mpr ⟨i, (hpart i).1⟩, fun x hx => ?_⟩
  obtain ⟨j, hj⟩ := Set.mem_iUnion.mp hx
  exact ((hpart j).2 hj).trans (hupper (Set.mem_range_self j))

namespace Rect

/-- Boxes reach on each side to just where this one does. -/
structure Bounds (bounds : Rect ℚ) (boxes : Set (Rect ℚ)) : Prop where
  left : IsLeast (Rect.x '' boxes) bounds.x
  top : IsLeast (Rect.y '' boxes) bounds.y
  right : IsGreatest (Rect.right '' boxes) bounds.right
  bottom : IsGreatest (Rect.bottom '' boxes) bounds.bottom

namespace Bounds
variable {bounds bounds' box : Rect ℚ} {boxes : Set (Rect ℚ)}

theorem contains (h : bounds.Bounds boxes) (hbox : box ∈ boxes) : bounds.contains box = true :=
  contains_iff.mpr ⟨h.left.2 (Set.mem_image_of_mem _ hbox), h.top.2 (Set.mem_image_of_mem _ hbox),
    h.right.2 (Set.mem_image_of_mem _ hbox), h.bottom.2 (Set.mem_image_of_mem _ hbox)⟩

theorem of_contains (h : ∀ box ∈ boxes, bounds.contains box = true)
    (hleft : ∃ box ∈ boxes, box.x = bounds.x) (htop : ∃ box ∈ boxes, box.y = bounds.y)
    (hright : ∃ box ∈ boxes, box.right = bounds.right)
    (hbottom : ∃ box ∈ boxes, box.bottom = bounds.bottom) : bounds.Bounds boxes where
  left := ⟨hleft, Set.forall_mem_image.mpr fun _ hbox => (contains_iff.mp (h _ hbox)).1⟩
  top := ⟨htop, Set.forall_mem_image.mpr fun _ hbox => (contains_iff.mp (h _ hbox)).2.1⟩
  right := ⟨hright, Set.forall_mem_image.mpr fun _ hbox => (contains_iff.mp (h _ hbox)).2.2.1⟩
  bottom := ⟨hbottom, Set.forall_mem_image.mpr fun _ hbox => (contains_iff.mp (h _ hbox)).2.2.2⟩

theorem unique (h : bounds.Bounds boxes) (h' : bounds'.Bounds boxes) : bounds = bounds' := by
  obtain ⟨x, y, width, height⟩ := bounds
  obtain ⟨x', y', width', height'⟩ := bounds'
  obtain rfl : x = x' := h.left.unique h'.left
  obtain rfl : y = y' := h.top.unique h'.top
  obtain rfl : width = width' := add_left_cancel (h.right.unique h'.right)
  obtain rfl : height = height' := add_left_cancel (h.bottom.unique h'.bottom)
  rfl

theorem shift (h : bounds.Bounds boxes) (p : Point ℚ) :
    (bounds.shift p).Bounds (Rect.shift p '' boxes) := by
  have hx : Monotone (· + p.x) := fun _ _ hle => add_le_add_left hle p.x
  have hy : Monotone (· + p.y) := fun _ _ hle => add_le_add_left hle p.y
  have hright : ∀ r : Rect ℚ, (r.shift p).right = r.right + p.x := fun r => by
    simp only [right_eq, Rect.shift]
    ring
  have hbottom : ∀ r : Rect ℚ, (r.shift p).bottom = r.bottom + p.y := fun r => by
    simp only [bottom_eq, Rect.shift]
    ring
  constructor
  · have hleft := hx.map_isLeast h.left
    rw [Set.image_image] at hleft ⊢
    exact hleft
  · have htop := hy.map_isLeast h.top
    rw [Set.image_image] at htop ⊢
    exact htop
  · have hmap := hx.map_isGreatest h.right
    rw [Set.image_image] at hmap ⊢
    simp only [hright]
    exact hmap
  · have hmap := hy.map_isGreatest h.bottom
    rw [Set.image_image] at hmap ⊢
    simp only [hbottom]
    exact hmap

theorem iUnion {ι : Type} {band : ι → Rect ℚ} {group : ι → Set (Rect ℚ)}
    (h : bounds.Bounds (Set.range band)) (hband : ∀ i, (band i).Bounds (group i)) :
    bounds.Bounds (⋃ i, group i) := by
  have hleft := h.left
  have htop := h.top
  have hright := h.right
  have hbottom := h.bottom
  rw [← Set.range_comp] at hleft htop hright hbottom
  exact ⟨isLeast_image_iUnion hleft fun i => (hband i).left,
    isLeast_image_iUnion htop fun i => (hband i).top,
    isGreatest_image_iUnion hright fun i => (hband i).right,
    isGreatest_image_iUnion hbottom fun i => (hband i).bottom⟩

end Bounds

theorem right_union (a b : Rect ℚ) : (a.union b).right = max a.right b.right :=
  add_sub_cancel (min a.x b.x) (max a.right b.right)

theorem bottom_union (a b : Rect ℚ) : (a.union b).bottom = max a.bottom b.bottom :=
  add_sub_cancel (min a.y b.y) (max a.bottom b.bottom)

/-- The union of two boxes is the smallest box around them. -/
theorem bounds_union (a b : Rect ℚ) : (a.union b).Bounds {a, b} where
  left := by
    rw [Set.image_pair]
    exact isLeast_pair
  top := by
    rw [Set.image_pair]
    exact isLeast_pair
  right := by
    rw [Set.image_pair, right_union]
    exact isGreatest_pair
  bottom := by
    rw [Set.image_pair, bottom_union]
    exact isGreatest_pair

end Rect
end FlowStudio
