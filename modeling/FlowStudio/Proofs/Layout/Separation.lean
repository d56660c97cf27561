import FlowStudio.Proofs.Layout.LongestPaths
import FlowStudio.Proofs.Layout.Ranked

/-! The gaps of a ranked layout: the node gap between the boxes of one rank, the rank gap between
those of different ranks, and so along every edge that is kept. -/

namespace FlowStudio.Layout

def PointsDown (gap : ℚ) (boxes : List (Rect ℚ)) (arc : Arc) : Prop :=
  ∃ a b, boxes[arc.1]? = some a ∧ boxes[arc.2]? = some b ∧ a.bottom + gap ≤ b.y

section
variable {n : Nat} {edges : List Arc}

theorem tight_rankOf (n : Nat) (edges : List Arc) :
    Tight (keptArcs (distinctArcs n edges)) (rankOf n edges).number :=
  tight_rankAlong (acyclic_keptArcs _) (straightens_sequence fun _ ha =>
    ⟨(mem_distinctArcs.mp ha).2.1, (mem_distinctArcs.mp ha).2.2.1⟩)

variable {spacing : Spacing ℚ} {sizes : List (Size ℚ)} {arc : Arc}

theorem pointsDown_of_mem_keptArcs (hs : spacing.Nonneg) (hsizes : ∀ size ∈ sizes, size.Nonneg)
    (h : arc ∈ keptArcs (distinctArcs sizes.length edges)) :
    PointsDown spacing.rank (boxes spacing sizes edges) arc := by
  obtain ⟨-, hsource, htarget, -⟩ := mem_distinctArcs.mp (mem_keptArcs.mp h).1
  rw [← length_boxes spacing sizes edges] at hsource htarget
  have ha := List.getElem?_eq_getElem hsource
  have hb := List.getElem?_eq_getElem htarget
  have hrank := (tight_rankOf sizes.length edges).lt arc.1 arc.2 h
  exact ⟨_, _, ha, hb, bottom_le_of_rank_lt hs hsizes ha hb hrank⟩

end

/-- Boxes of one rank stand the node gap apart, or more if others stand between them, and each rank
begins the rank gap or more below the ranks before it. So no boxes overlap, and all kept edges point
down. -/
theorem ranked_keeps_gaps (spacing : Spacing ℚ) (hs : spacing.Nonneg) (sizes : List (Size ℚ))
    (hsizes : ∀ size ∈ sizes, size.Nonneg) (edges : List Arc) :
    let n := sizes.length
    let arcs := distinctArcs n edges
    let rank := rankAlong n (keptArcs arcs) (sequence arcs)
    let order := orderedRanks ℚ n edges
    let boxes := List.zipWith Rect.centred sizes (ranked spacing sizes edges)
    boxes.length = n ∧
    (∀ r row, order[r]? = some row → row.Nodup ∧ ∀ v, v ∈ row ↔ v < n ∧ rank.number v = r) ∧
    (∀ u v a b, boxes[u]? = some a → boxes[v]? = some b →
      (u ≠ v → rank.number u = rank.number v →
        a.right + spacing.node ≤ b.x ∨ b.right + spacing.node ≤ a.x) ∧
      (∀ row ∈ order, ∀ i, row[i]? = some u → row[i + 1]? = some v →
        a.right + spacing.node = b.x) ∧
      (rank.number u < rank.number v → a.bottom + spacing.rank ≤ b.y) ∧
      (u ≠ v → a.overlaps b = false)) ∧
    (∀ arc ∈ keptArcs arcs, rank.number arc.1 < rank.number arc.2 ∧
      PointsDown spacing.rank boxes arc) ∧
    (Acyclic arcs → ∀ arc ∈ edges, arc.1 < n → arc.2 < n → arc.1 ≠ arc.2 →
      rank.number arc.1 < rank.number arc.2 ∧ PointsDown spacing.rank boxes arc) := by
  intro n arcs rank order boxes
  have hkept : ∀ arc ∈ keptArcs arcs, rank.number arc.1 < rank.number arc.2 ∧
      PointsDown spacing.rank boxes arc := fun arc harc =>
    ⟨(tight_rankOf n edges).lt arc.1 arc.2 harc, pointsDown_of_mem_keptArcs hs hsizes harc⟩
  refine ⟨length_boxes spacing sizes edges, fun r row hrow => ?_, fun u v a b ha hb => ?_, hkept,
    fun hacyclic arc harc hsource htarget hne => hkept arc ?_⟩
  · have hperm := row_perm_of_getElem? hrow
    exact ⟨hperm.nodup_iff.mpr (List.nodup_range.filter _), fun v => mem_row_iff hrow⟩
  · refine ⟨fun hne hrank => right_le_of_rank_eq hs hsizes ha hb hne hrank,
      fun row hrow i hi hj => ?_, bottom_le_of_rank_lt hs hsizes ha hb,
      fun hne => (apart_boxes hs hsizes ha hb hne).not_overlaps⟩
    exact right_eq_of_next hsizes ha hb hrow hi hj
  · rw [keptArcs_of_acyclic hacyclic]
    exact mem_distinctArcs.mpr ⟨harc, hsource, htarget, hne⟩

theorem ranked_keeps_gaps_of_cycle :
    let sizes : List (Size ℚ) := [⟨10, 20⟩, ⟨30, 10⟩, ⟨5, 0⟩]
    let edges := [(0, 1), (1, 2), (2, 0), (2, 1)]
    let boxes := List.zipWith Rect.centred sizes (ranked ⟨4, 6⟩ sizes edges)
    keptArcs (distinctArcs 3 edges) = [(0, 1), (2, 0), (2, 1)] ∧ PointsDown 6 boxes (2, 0) ∧
      ∀ a b, boxes[1]? = some a → boxes[2]? = some b → a.overlaps b = false := by
  intro sizes edges boxes
  have hs : Spacing.Nonneg ⟨4, 6⟩ := ⟨by decide, by decide⟩
  have hsizes : ∀ size ∈ sizes, size.Nonneg := by decide
  obtain ⟨-, -, hpairs, hdown, -⟩ := ranked_keeps_gaps ⟨4, 6⟩ hs sizes hsizes edges
  have hkept : keptArcs (distinctArcs 3 edges) = [(0, 1), (2, 0), (2, 1)] := by decide
  have harc : (2, 0) ∈ keptArcs (distinctArcs 3 edges) := by simp [hkept]
  refine ⟨hkept, (hdown _ harc).2, fun a b ha hb => ?_⟩
  exact (hpairs 1 2 a b ha hb).2.2.2 (by decide)

end FlowStudio.Layout
