import FlowStudio.Layout.Ranks
import FlowStudio.Proofs.Layout.FeedbackArcs
import Mathlib.Order.Bounds.Basic

/-! The rank of a node is the length of the longest path of kept edges to it, in whichever order
that agrees with these edges the nodes are gone through. -/

namespace FlowStudio.Layout
variable {arcs : List Arc} {n : Nat}

inductive PathTo (arcs : List Arc) : Nat → Nat → Prop
  | here (v : Nat) : PathTo arcs 0 v
  | step {k u v : Nat} : PathTo arcs k u → (u, v) ∈ arcs → PathTo arcs (k + 1) v

/-- Every node's number is larger than those of its predecessors, and no larger than it must be. -/
structure Tight (arcs : List Arc) (number : Nat → Nat) : Prop where
  lt : ∀ s t, (s, t) ∈ arcs → number s < number t
  exists_pred : ∀ v r, number v = r + 1 → ∃ u, (u, v) ∈ arcs ∧ number u = r

namespace Tight
variable {number : Nat → Nat} (ht : Tight arcs number)
include ht

theorem le_of_pathTo {k v : Nat} (hp : PathTo arcs k v) : k ≤ number v := by
  induction hp with
  | here v => exact Nat.zero_le _
  | step _ harc ih => exact ih.trans_lt (ht.lt _ _ harc)

theorem pathTo {k v : Nat} (hk : number v = k) : PathTo arcs k v := by
  induction k generalizing v with
  | zero => exact .here v
  | succ k ih =>
    obtain ⟨u, harc, hu⟩ := ht.exists_pred v k hk
    exact .step (ih hu) harc

theorem isGreatest (v : Nat) : IsGreatest {k | PathTo arcs k v} (number v) :=
  ⟨ht.pathTo rfl, fun _ => ht.le_of_pathTo⟩

/-- The edges leave no choice of numbers. -/
theorem unique {number' : Nat → Nat} (ht' : Tight arcs number') : number = number' :=
  funext fun v => (ht.isGreatest v).unique (ht'.isGreatest v)

theorem exists_eq (hin : ∀ a ∈ arcs, a.1 < n) {v r : Nat} (hv : v < n) (hr : r ≤ number v) :
    ∃ u < n, number u = r := by
  obtain ⟨k, hk⟩ := Nat.exists_eq_add_of_le' hr
  -- up a longest path the numbers go down by one
  induction k generalizing v with
  | zero => exact ⟨v, hv, hk.trans (Nat.zero_add r)⟩
  | succ k ih =>
    obtain ⟨u, harc, hu⟩ := ht.exists_pred v (k + r) (by omega)
    have hu' : u < n := hin _ harc
    exact ih hu' (by omega) hu

end Tight

theorem mem_predecessors {u v : Nat} : u ∈ predecessors arcs v ↔ (u, v) ∈ arcs := by
  simp [predecessors]

section
variable {order : List Nat} {rank : Numbering}

theorem Numbering.ext_number {a b : Numbering} (hsize : a.values.size = b.values.size)
    (h : a.number = b.number) : a = b := by
  obtain ⟨xs⟩ := a
  obtain ⟨ys⟩ := b
  congr 1
  refine Array.ext hsize fun i hi hi' => ?_
  simpa [Numbering.number, Array.getD, hi, hi'] using congrFun h i

theorem size_rankFrom : (rankFrom arcs order rank).values.size = rank.values.size := by
  induction order generalizing rank with
  | nil => rfl
  | cons v vs ih => rw [rankFrom, ih, Numbering.assign, Array.size_setIfInBounds]

theorem size_rankAlong (order : List Nat) : (rankAlong n arcs order).values.size = n := by
  rw [rankAlong, size_rankFrom, Numbering.zeros, Array.size_replicate]

theorem number_rankFrom_of_notMem {u : Nat} (hu : u ∉ order) :
    (rankFrom arcs order rank).number u = rank.number u := by
  induction order generalizing rank with
  | nil => rfl
  | cons v vs ih =>
    obtain ⟨hne, hu⟩ := List.ne_and_not_mem_of_not_mem_cons hu
    rw [rankFrom, ih hu, Numbering.number_assign, if_neg (hne ·.1)]

theorem number_rankFrom (hloop : ∀ v, (v, v) ∉ arcs) (hn : order.Nodup)
    (hforward : order.Pairwise fun u v => (v, u) ∉ arcs) (hsize : ∀ v ∈ order, v < rank.values.size)
    {v : Nat} (hv : v ∈ order) : (rankFrom arcs order rank).number v =
      ((predecessors arcs v).map fun u => (rankFrom arcs order rank).number u + 1).foldl max 0 := by
  induction order generalizing rank with
  | nil => exact absurd hv List.not_mem_nil
  | cons w ws ih =>
    obtain ⟨hw, hn⟩ := List.nodup_cons.mp hn
    obtain ⟨hfirst, hforward⟩ := List.pairwise_cons.mp hforward
    rw [rankFrom]
    rcases List.mem_cons.mp hv with rfl | hv
    · rw [number_rankFrom_of_notMem hw, Numbering.number_assign,
        if_pos ⟨rfl, hsize v List.mem_cons_self⟩]
      congr 1
      -- what leads to `v` has been passed, so its number does not change any more
      refine List.map_congr_left fun u hu => ?_
      have harc := mem_predecessors.mp hu
      have huv : u ≠ v := fun h => hloop v (h ▸ harc)
      rw [number_rankFrom_of_notMem fun h => hfirst u h harc, Numbering.number_assign,
        if_neg (huv ·.1)]
    · refine ih hn hforward (fun v hv => ?_) hv
      rw [Numbering.assign, Array.size_setIfInBounds]
      exact hsize v (List.mem_cons_of_mem w hv)

end

structure Straightens (n : Nat) (arcs : List Arc) (order : List Nat) : Prop where
  nodup : order.Nodup
  lt : ∀ v ∈ order, v < n
  mem : ∀ a ∈ arcs, a.1 ∈ order ∧ a.2 ∈ order
  forward : order.Pairwise fun u v => (v, u) ∉ arcs

theorem tight_rankAlong {order : List Nat} (hacyclic : Acyclic arcs)
    (hs : Straightens n arcs order) : Tight arcs (rankAlong n arcs order).number := by
  have hnumber : ∀ v ∈ order, (rankAlong n arcs order).number v = ((predecessors arcs v).map
      fun u => (rankAlong n arcs order).number u + 1).foldl max 0 := fun v hv =>
    number_rankFrom (fun v h => hacyclic v (.single h)) hs.nodup hs.forward
      (by simpa [Numbering.zeros] using hs.lt) hv
  constructor
  · intro s t harc
    rw [hnumber t (hs.mem _ harc).2]
    exact le_foldl_max (List.mem_map.mpr ⟨s, mem_predecessors.mpr harc, rfl⟩)
  · intro v r hr
    have hv : v ∈ order := by
      by_contra hv
      rw [rankAlong, number_rankFrom_of_notMem hv, Numbering.number_zeros] at hr
      exact Nat.succ_ne_zero r hr.symm
    rw [hnumber v hv] at hr
    have hmax := foldl_max_mem (hr.trans_ne (Nat.succ_ne_zero r))
    obtain ⟨u, hu, hur⟩ := List.mem_map.mp hmax
    rw [hr] at hur
    exact ⟨u, mem_predecessors.mp hu, Nat.succ_inj.mp hur⟩

theorem straightens_sequence (hin : ∀ a ∈ arcs, a.1 < n ∧ a.2 < n) :
    Straightens n (keptArcs arcs) (sequence arcs) where
  nodup := nodup_sequence arcs
  lt := fun v hv => by
    obtain ⟨a, ha, rfl | rfl⟩ := mem_sequence.mp hv
    · exact (hin a ha).1
    · exact (hin a ha).2
  mem := fun a ha => by
    have ha := (mem_keptArcs.mp ha).1
    exact ⟨mem_sequence.mpr ⟨a, ha, .inl rfl⟩, mem_sequence.mpr ⟨a, ha, .inr rfl⟩⟩
  forward := by
    refine List.pairwise_iff_getElem.mpr fun i j hi hj hij hkept => ?_
    have hlt := (mem_keptArcs.mp hkept).2
    rw [(nodup_sequence arcs).idxOf_getElem j hj, (nodup_sequence arcs).idxOf_getElem i hi] at hlt
    exact hij.asymm hlt

theorem mem_distinctArcs {edges : List Arc} {a : Arc} :
    a ∈ distinctArcs n edges ↔ a ∈ edges ∧ a.1 < n ∧ a.2 < n ∧ a.1 ≠ a.2 := by
  simp [distinctArcs, List.mem_eraseDups, and_assoc]

def Topological (n : Nat) (arcs : List Arc) (order : List Nat) : Prop :=
  order.Perm (List.range n) ∧ order.Pairwise fun u v => (v, u) ∉ arcs

/-- A topological sort gives such a row for each graph that has no cycle. -/
def SortsAcyclic (toposort : Nat → List Arc → Option (List Nat)) : Prop :=
  ∀ n arcs, (∀ a ∈ arcs, a.1 < n ∧ a.2 < n) → Acyclic arcs →
    ∃ order, toposort n arcs = some order ∧ Topological n arcs order

theorem Topological.straightens {order : List Nat} (ht : Topological n arcs order)
    (hin : ∀ a ∈ arcs, a.1 < n ∧ a.2 < n) : Straightens n arcs order where
  nodup := ht.1.nodup_iff.mpr List.nodup_range
  lt := fun _ hv => List.mem_range.mp (ht.1.subset hv)
  mem := fun a ha => ⟨ht.1.symm.subset (List.mem_range.mpr (hin a ha).1),
    ht.1.symm.subset (List.mem_range.mpr (hin a ha).2)⟩
  forward := ht.2

def straightened (n : Nat) (arcs : List Arc) : List Nat :=
  (List.range n).filter (· ∉ sequence arcs) ++ sequence arcs

theorem topological_straightened (hacyclic : Acyclic arcs)
    (hin : ∀ a ∈ arcs, a.1 < n ∧ a.2 < n) : Topological n arcs (straightened n arcs) := by
  have hs := straightens_sequence hin
  have halone : ∀ u ∈ (List.range n).filter (· ∉ sequence arcs), u ∉ sequence arcs :=
    fun u hu => of_decide_eq_true (List.mem_filter.mp hu).2
  constructor
  · refine (List.perm_ext_iff_of_nodup ?_ List.nodup_range).mpr fun v => ?_
    · exact (List.nodup_range.filter _).append hs.nodup fun u hu => halone u hu
    · have hlt := hs.lt v
      by_cases hv : v ∈ sequence arcs <;> simp [straightened, hv, hlt]
  · have hno : ∀ u ∈ (List.range n).filter (· ∉ sequence arcs), ∀ v, (v, u) ∉ arcs :=
      fun u hu v harc => halone u hu (mem_sequence.mpr ⟨_, harc, .inr rfl⟩)
    refine List.pairwise_append.mpr ⟨?_, pairwise_sequence_of_acyclic hacyclic, ?_⟩
    · exact List.pairwise_of_forall_mem_list fun u hu v _ => hno u hu v
    · exact fun u hu v _ => hno u hu v

/-- Of the distinct edges those that are kept have no cycle, and any topological sort of them gives
the same ranks: each is the length of the longest path to its node, which grows along every edge and
leaves out no number. -/
theorem ranks_are_longest_paths (toposort : Nat → List Arc → Option (List Nat))
    (hsort : SortsAcyclic toposort) (n : Nat) (edges : List Arc) :
    let arcs := distinctArcs n edges
    let kept := keptArcs arcs
    let rank := rankAlong n kept (sequence arcs)
    (∀ s t, (s, t) ∈ arcs ↔ (s, t) ∈ edges ∧ s < n ∧ t < n ∧ s ≠ t) ∧ arcs.Nodup ∧
    kept.Sublist arcs ∧ Acyclic kept ∧
    (∃ order, toposort n kept = some order ∧ rankAlong n kept order = rank) ∧
    (∀ s t, (s, t) ∈ kept → rank.number s < rank.number t) ∧
    (∀ v < n, IsGreatest {k | PathTo kept k v} (rank.number v)) ∧
    (∀ v < n, ∀ r ≤ rank.number v, ∃ u < n, rank.number u = r) ∧
    (Acyclic arcs → kept = arcs) := by
  intro arcs kept rank
  have hin : ∀ a ∈ arcs, a.1 < n ∧ a.2 < n := fun a ha =>
    ⟨(mem_distinctArcs.mp ha).2.1, (mem_distinctArcs.mp ha).2.2.1⟩
  have hkept : ∀ a ∈ kept, a.1 < n ∧ a.2 < n := fun a ha => hin a (mem_keptArcs.mp ha).1
  have hacyclic : Acyclic kept := acyclic_keptArcs arcs
  have htight : Tight kept rank.number := tight_rankAlong hacyclic (straightens_sequence hin)
  obtain ⟨order, horder, htopological⟩ := hsort n kept hkept hacyclic
  have htight' := tight_rankAlong hacyclic (htopological.straightens hkept)
  refine ⟨fun _ _ => mem_distinctArcs, nodup_eraseDups _, List.filter_sublist, hacyclic,
    ⟨order, horder, ?_⟩, htight.lt, fun v _ => htight.isGreatest v,
    fun v hv r hr => htight.exists_eq (fun a ha => (hkept a ha).1) hv hr, keptArcs_of_acyclic⟩
  exact Numbering.ext_number (by rw [size_rankAlong, size_rankAlong]) (htight'.unique htight)

theorem ranks_are_longest_paths_of_cycle :
    let arcs := distinctArcs 3 [(0, 1), (1, 2), (2, 0), (1, 2), (2, 2), (0, 7)]
    let rank := rankAlong 3 (keptArcs arcs) (sequence arcs)
    keptArcs arcs = [(0, 1), (2, 0)] ∧ rank.values = #[1, 2, 0] ∧
      IsGreatest {k | PathTo (keptArcs arcs) k 1} 2 ∧
      rankAlong 3 (keptArcs arcs) (straightened 3 (keptArcs arcs)) = rank := by
  obtain ⟨-, -, -, -, ⟨order, horder, hrank⟩, -, hgreatest, -, -⟩ := ranks_are_longest_paths
    (fun n arcs => some (straightened n arcs))
    (fun _ _ hin hacyclic => ⟨_, rfl, topological_straightened hacyclic hin⟩)
    3 [(0, 1), (1, 2), (2, 0), (1, 2), (2, 2), (0, 7)]
  obtain rfl := Option.some.inj horder
  exact ⟨by decide, by decide, hgreatest 1 (by decide), hrank⟩

end FlowStudio.Layout
