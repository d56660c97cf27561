import FlowStudio.Layout.Ranked
import FlowStudio.Proofs.Lists
import Mathlib.Data.List.Perm.Basic

/-! The ranks of a graph hold every node once, in whatever order. -/

namespace FlowStudio.Layout

def rankOf (n : Nat) (edges : List Arc) : Numbering :=
  let arcs := distinctArcs n edges
  rankAlong n (keptArcs arcs) (sequence arcs)

section
variable {n r v : Nat} {rank : Numbering}

theorem number_lt_rankCount (rank : Numbering) (hv : v < n) : rank.number v < rankCount n rank :=
  Nat.lt_succ_of_le (le_foldl_max (List.mem_map_of_mem (List.mem_range.mpr hv)))

theorem getElem?_layers (hr : r < rankCount n rank) :
    (layers n rank)[r]? = some ((List.range n).filter fun v => rank.number v == r) := by
  simp [layers, hr]

theorem nodup_flatten_layers (n : Nat) (rank : Numbering) : (layers n rank).flatten.Nodup := by
  rw [List.nodup_flatten, layers, List.forall_mem_map, List.pairwise_map]
  refine ⟨fun r _ => List.nodup_range.filter _, List.nodup_range.imp fun hne v hv hv' => hne ?_⟩
  simp only [List.mem_filter, beq_iff_eq] at hv hv'
  exact hv.2.symm.trans hv'.2

end

section
variable (α : Type) [Scalar α] (arcs : List Arc)

theorem map_fst_keyed (slot : Numbering) (place : Nat) (layer : List Nat) :
    (keyed α arcs slot place layer).map Prod.fst = layer := by
  induction layer generalizing place with
  | nil => rfl
  | cons v vs ih => rw [keyed, List.map_cons, ih]

theorem orderLayer_perm (slot : Numbering) (layer : List Nat) :
    (orderLayer α arcs slot layer).Perm layer := by
  have hperm := (List.mergeSort_perm (keyed α arcs slot 0 layer)
    fun a b => Scalar.le a.2 b.2).map Prod.fst
  rwa [map_fst_keyed] at hperm

theorem forall₂_sweep (layers : List (List Nat)) (slot : Numbering) :
    List.Forall₂ List.Perm (sweep α arcs layers slot) layers := by
  induction layers generalizing slot with
  | nil => exact .nil
  | cons layer rest ih => exact .cons (orderLayer_perm α arcs slot layer) (ih _)

variable {α} {n r v : Nat} {edges : List Arc} {row : List Nat}

theorem forall₂_orderedRanks (α : Type) [Scalar α] (n : Nat) (edges : List Arc) :
    List.Forall₂ List.Perm (orderedRanks α n edges) (layers n (rankOf n edges)) :=
  forall₂_sweep α _ _ _

theorem length_orderedRanks (α : Type) [Scalar α] (n : Nat) (edges : List Arc) :
    (orderedRanks α n edges).length = rankCount n (rankOf n edges) := by
  rw [(forall₂_orderedRanks α n edges).length_eq, layers, List.length_map, List.length_range]

theorem row_perm_of_getElem? (h : (orderedRanks α n edges)[r]? = some row) :
    row.Perm ((List.range n).filter fun v => (rankOf n edges).number v == r) := by
  obtain ⟨hr, hrow⟩ := List.getElem?_eq_some_iff.mp h
  have hlayer := getElem?_layers (length_orderedRanks α n edges ▸ hr)
  obtain ⟨hr', heq⟩ := List.getElem?_eq_some_iff.mp hlayer
  have hperm := (forall₂_orderedRanks α n edges).get hr hr'
  rwa [List.get_eq_getElem, List.get_eq_getElem, hrow, heq] at hperm

theorem mem_row_iff (h : (orderedRanks α n edges)[r]? = some row) :
    v ∈ row ↔ v < n ∧ (rankOf n edges).number v = r := by
  simp [(row_perm_of_getElem? h).mem_iff]

theorem exists_row (α : Type) [Scalar α] (edges : List Arc) (hv : v < n) :
    ∃ row, (orderedRanks α n edges)[(rankOf n edges).number v]? = some row ∧ v ∈ row := by
  have hr := number_lt_rankCount (rankOf n edges) hv
  rw [← length_orderedRanks α] at hr
  have hrow := List.getElem?_eq_getElem hr
  exact ⟨_, hrow, (mem_row_iff hrow).mpr ⟨hv, rfl⟩⟩

theorem nodup_flatten_orderedRanks (α : Type) [Scalar α] (n : Nat) (edges : List Arc) :
    (orderedRanks α n edges).flatten.Nodup :=
  (List.Perm.flatten_congr (forall₂_orderedRanks α n edges)).nodup_iff.mpr
    (nodup_flatten_layers n _)

end
end FlowStudio.Layout
