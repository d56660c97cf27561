import FlowStudio.Geometry
import Mathlib.Algebra.Order.Field.Rat
import Mathlib.Tactic.Linarith

/-! Boxes with exact coordinates: when one lies in another and when two lie apart. -/

namespace FlowStudio

instance : Scalar ℚ where
  nat n := n
  larger := max
  smaller := min
  le a b := a ≤ b
  lt a b := a < b

theorem Scalar.half_rat (a : ℚ) : Scalar.half a = a / 2 := rfl

theorem Scalar.nat_zero_rat : (Scalar.nat 0 : ℚ) = 0 := rfl

def Size.Nonneg (s : Size ℚ) : Prop := 0 ≤ s.width ∧ 0 ≤ s.height

instance (s : Size ℚ) : Decidable s.Nonneg := inferInstanceAs (Decidable (_ ∧ _))

namespace Rect
variable {a b c d : Rect ℚ}

def centred (size : Size ℚ) (centre : Point ℚ) : Rect ℚ :=
  ⟨centre.x - size.width / 2, centre.y - size.height / 2, size.width, size.height⟩

theorem right_eq (r : Rect ℚ) : r.right = r.x + r.w := rfl

theorem bottom_eq (r : Rect ℚ) : r.bottom = r.y + r.h := rfl

def Apart (a b : Rect ℚ) : Prop :=
  (a.x + a.w ≤ b.x ∨ b.x + b.w ≤ a.x) ∨ a.y + a.h ≤ b.y ∨ b.y + b.h ≤ a.y

theorem contains_iff : a.contains b = true ↔
    a.x ≤ b.x ∧ a.y ≤ b.y ∧ b.x + b.w ≤ a.x + a.w ∧ b.y + b.h ≤ a.y + a.h := by
  simp only [contains, Bool.and_eq_true, and_assoc]
  exact and_congr decide_eq_true_iff (and_congr decide_eq_true_iff
    (and_congr decide_eq_true_iff decide_eq_true_iff))

theorem contains_refl (a : Rect ℚ) : a.contains a = true :=
  contains_iff.mpr ⟨le_rfl, le_rfl, le_rfl, le_rfl⟩

theorem contains_trans (hab : a.contains b = true) (hbc : b.contains c = true) :
    a.contains c = true := by
  obtain ⟨hx, hy, hright, hbottom⟩ := contains_iff.mp hab
  obtain ⟨hx', hy', hright', hbottom'⟩ := contains_iff.mp hbc
  exact contains_iff.mpr
    ⟨hx.trans hx', hy.trans hy', hright'.trans hright, hbottom'.trans hbottom⟩

theorem Apart.symm (h : Apart a b) : Apart b a := Or.imp Or.symm Or.symm h

theorem Apart.not_overlaps (h : Apart a b) : a.overlaps b = false := by
  rw [Bool.eq_false_iff]
  intro hover
  simp only [overlaps, Bool.and_eq_true] at hover
  obtain ⟨⟨⟨⟨-, hab⟩, hba⟩, hab'⟩, hba'⟩ := hover
  rcases h with (h | h) | h | h
  · exact absurd (of_decide_eq_true hba) h.not_gt
  · exact absurd (of_decide_eq_true hab) h.not_gt
  · exact absurd (of_decide_eq_true hba') h.not_gt
  · exact absurd (of_decide_eq_true hab') h.not_gt

theorem Apart.within (h : Apart a b) (hac : a.contains c = true) (hbd : b.contains d = true) :
    Apart c d := by
  obtain ⟨hx, hy, hright, hbottom⟩ := contains_iff.mp hac
  obtain ⟨hx', hy', hright', hbottom'⟩ := contains_iff.mp hbd
  refine Or.imp (Or.imp (fun h => ?_) fun h => ?_) (Or.imp (fun h => ?_) fun h => ?_) h
  · exact hright.trans (h.trans hx')
  · exact hright'.trans (h.trans hx)
  · exact hbottom.trans (h.trans hy')
  · exact hbottom'.trans (h.trans hy)

theorem ofOrigin_zero (size : Size ℚ) :
    Rect.ofOrigin Point.zero size = ⟨0, 0, size.width, size.height⟩ := rfl

def shift (p : Point ℚ) (r : Rect ℚ) : Rect ℚ := ⟨r.x + p.x, r.y + p.y, r.w, r.h⟩

theorem ofOrigin_zero_shift (r : Rect ℚ) :
    (Rect.ofOrigin Point.zero ⟨r.w, r.h⟩).shift ⟨r.x, r.y⟩ = r := by
  simp only [ofOrigin_zero, Rect.shift, zero_add]

theorem Apart.shift (h : Apart a b) (p : Point ℚ) : Apart (a.shift p) (b.shift p) := by
  simp only [Apart, Rect.shift, add_right_comm _ p.x, add_right_comm _ p.y, add_le_add_iff_right]
  exact h

theorem contains_shift (h : a.contains b = true) (p : Point ℚ) :
    (a.shift p).contains (b.shift p) = true := by
  rw [contains_iff] at h ⊢
  simp only [Rect.shift, add_right_comm _ p.x, add_right_comm _ p.y, add_le_add_iff_right]
  exact h

end Rect
end FlowStudio
