import FlowStudio.Proofs.Layout.Separation

/-! The order inside the ranks. All that leads to a rank lies in ranks before it, whose places are
settled by the time it is ordered; so its nodes come by the mean places of their predecessors. -/

namespace FlowStudio.Layout

def slotsAfter (rows : List (List Nat)) (slot : Numbering) : Numbering :=
  rows.foldl (fun slot row => slotsOf slot 0 row) slot

def meanSlot (arcs : List Arc) (slot : Numbering) (v : Nat) : ℚ :=
  ((predecessors arcs v).map fun u => (slot.number u : ℚ)).sum / (predecessors arcs v).length

section
variable {slot : Numbering} {rows : List (List Nat)} {row : List Nat} {place i r v : Nat}

theorem size_slotsOf : (slotsOf slot place row).values.size = slot.values.size := by
  induction row generalizing slot place with
  | nil => rfl
  | cons w ws ih => rw [slotsOf, ih, Numbering.assign, Array.size_setIfInBounds]

theorem number_slotsOf_of_notMem (hv : v ∉ row) :
    (slotsOf slot place row).number v = slot.number v := by
  induction row generalizing slot place with
  | nil => rfl
  | cons w ws ih =>
    obtain ⟨hne, hv⟩ := List.ne_and_not_mem_of_not_mem_cons hv
    rw [slotsOf, ih hv, Numbering.number_assign, if_neg (hne ·.1)]

theorem number_slotsOf (hn : row.Nodup) (hi : row[i]? = some v) (hv : v < slot.values.size) :
    (slotsOf slot place row).number v = place + i := by
  induction row generalizing slot place i with
  | nil => simp at hi
  | cons w ws ih =>
    obtain ⟨hw, hn⟩ := List.nodup_cons.mp hn
    rw [slotsOf]
    cases i with
    | zero =>
      obtain rfl : w = v := by simpa using hi
      rw [number_slotsOf_of_notMem hw, Numbering.number_assign, if_pos ⟨rfl, hv⟩, Nat.add_zero]
    | succ i =>
      have hsize : v < (slot.assign w place).values.size := by
        rwa [Numbering.assign, Array.size_setIfInBounds]
      rw [ih hn (by simpa using hi) hsize, Nat.add_assoc, Nat.add_comm 1]

theorem number_slotsAfter_of_notMem (hv : v ∉ rows.flatten) :
    (slotsAfter rows slot).number v = slot.number v := by
  induction rows generalizing slot with
  | nil => rfl
  | cons row rest ih =>
    rw [List.flatten_cons, List.mem_append, not_or] at hv
    rw [slotsAfter, List.foldl_cons, ← slotsAfter, ih hv.2, number_slotsOf_of_notMem hv.1]

theorem number_slotsAfter (hn : rows.flatten.Nodup) (hr : rows[r]? = some row)
    (hi : row[i]? = some v) (hv : v < slot.values.size) :
    (slotsAfter rows slot).number v = i := by
  induction rows generalizing slot r with
  | nil => simp at hr
  | cons first rest ih =>
    rw [List.flatten_cons, List.nodup_append'] at hn
    obtain ⟨hfirst, hrest, hapart⟩ := hn
    rw [slotsAfter, List.foldl_cons, ← slotsAfter]
    cases r with
    | zero =>
      obtain rfl : first = row := by simpa using hr
      have hlater := hapart (List.mem_of_getElem? hi)
      rw [number_slotsAfter_of_notMem hlater, number_slotsOf hfirst hi hv, Nat.zero_add]
    | succ r => exact ih hrest (by simpa using hr) (size_slotsOf.symm ▸ hv)

theorem getElem?_sweep (α : Type) [Scalar α] (arcs : List Arc) (layers : List (List Nat))
    (slot : Numbering) (r : Nat) : (sweep α arcs layers slot)[r]? = layers[r]?.map
      (orderLayer α arcs (slotsAfter ((sweep α arcs layers slot).take r) slot)) := by
  induction layers generalizing slot r with
  | nil => rfl
  | cons layer rest ih =>
    cases r with
    | zero => rfl
    | succ r => exact ih _ r

end

section
variable {arcs : List Arc} {slot slot' : Numbering} {layer : List Nat} {place v : Nat}

theorem meanSlot_congr (h : ∀ u ∈ predecessors arcs v, slot.number u = slot'.number u) :
    meanSlot arcs slot v = meanSlot arcs slot' v := by
  rw [meanSlot, List.map_congr_left fun u hu => congrArg Nat.cast (h u hu), meanSlot]

theorem keyed_of_no_predecessors (h : ∀ v ∈ layer, predecessors arcs v = []) :
    keyed ℚ arcs slot place layer = (layer.zipIdx place).map fun p => (p.1, (p.2 : ℚ)) := by
  induction layer generalizing place with
  | nil => rfl
  | cons v vs ih =>
    have hcentre : centre ℚ slot (predecessors arcs v) place = place := by
      rw [h v List.mem_cons_self]
      rfl
    rw [keyed, hcentre, ih fun w hw => h w (List.mem_cons_of_mem v hw)]
    rfl

theorem keyed_of_predecessors (h : ∀ v ∈ layer, predecessors arcs v ≠ []) :
    keyed ℚ arcs slot place layer = layer.map fun v => (v, meanSlot arcs slot v) := by
  induction layer generalizing place with
  | nil => rfl
  | cons v vs ih =>
    have hcentre : centre ℚ slot (predecessors arcs v) place = meanSlot arcs slot v := by
      rw [centre, if_neg (by simpa using h v List.mem_cons_self), sum_rat]
      rfl
    rw [keyed, hcentre, ih fun w hw => h w (List.mem_cons_of_mem v hw), List.map_cons]

theorem orderLayer_of_no_predecessors (h : ∀ v ∈ layer, predecessors arcs v = []) :
    orderLayer ℚ arcs slot layer = layer := by
  have hsorted : (keyed ℚ arcs slot 0 layer).Pairwise fun a b => Scalar.le a.2 b.2 := by
    rw [keyed_of_no_predecessors h, List.pairwise_map]
    have hplaces := List.pairwise_lt_range' (s := 0) (n := layer.length) 1
    rw [← List.zipIdx_map_snd, List.pairwise_map] at hplaces
    exact hplaces.imp fun hlt => decide_eq_true (Nat.cast_le.mpr hlt.le)
  rw [orderLayer, List.mergeSort_of_pairwise hsorted, map_fst_keyed]

theorem pairwise_orderLayer (slot : Numbering) (h : ∀ v ∈ layer, predecessors arcs v ≠ [])
    (hlayer : layer.Pairwise (· < ·)) : (orderLayer ℚ arcs slot layer).Pairwise fun u v =>
      meanSlot arcs slot u < meanSlot arcs slot v ∨
        meanSlot arcs slot u = meanSlot arcs slot v ∧ u < v := by
  let le (u v : Nat) : Bool := decide (meanSlot arcs slot u ≤ meanSlot arcs slot v)
  -- sorting the keyed nodes and dropping the keys is sorting the nodes by their means
  have hkeys := List.map_mergeSort (r := le) (s := fun a b => Scalar.le a.2 b.2)
    (f := fun v => (v, meanSlot arcs slot v)) (l := layer) fun _ _ _ _ => rfl
  have horder : orderLayer ℚ arcs slot layer = layer.mergeSort le := by
    rw [orderLayer, keyed_of_predecessors h, ← hkeys, List.map_map]
    exact List.map_id _
  rw [horder]
  have hstable := pairwise_mergeSort_stable le (by simpa [le] using fun _ _ _ => le_trans)
    (by simp [le, le_total]) hlayer
  refine hstable.imp fun {u v} ⟨hle, htie⟩ => ?_
  rw [decide_eq_true_iff] at hle htie
  rcases hle.lt_or_eq with hlt | heq
  · exact .inl hlt
  · exact .inr ⟨heq, htie heq.ge⟩

end

section
variable {α : Type} [Scalar α] {n i k r v : Nat} {edges : List Arc} {row : List Nat}

theorem row_eq_orderLayer (h : (orderedRanks α n edges)[r]? = some row) :
    row = orderLayer α (keptArcs (distinctArcs n edges))
      (slotsAfter ((orderedRanks α n edges).take r) (.zeros n))
      ((List.range n).filter fun v => (rankOf n edges).number v == r) := by
  have hr := (List.getElem?_eq_some_iff.mp h).1
  rw [length_orderedRanks] at hr
  have hrow := getElem?_sweep α (keptArcs (distinctArcs n edges)) (layers n (rankOf n edges))
    (.zeros n) r
  rw [getElem?_layers hr] at hrow
  exact Option.some.inj (h.symm.trans hrow)

theorem number_slotsAfter_take (hr : (orderedRanks α n edges)[r]? = some row)
    (hi : row[i]? = some v) (hk : r < k) :
    (slotsAfter ((orderedRanks α n edges).take k) (.zeros n)).number v = i := by
  have hnodup := (nodup_flatten_orderedRanks α n edges).sublist (List.take_sublist k _).flatten
  have hv : v < n := ((mem_row_iff hr).mp (List.mem_of_getElem? hi)).1
  refine number_slotsAfter hnodup (by rwa [List.getElem?_take_of_lt hk]) hi ?_
  rwa [Numbering.zeros, Array.size_replicate]

theorem number_slotsAfter_orderedRanks (hr : (orderedRanks α n edges)[r]? = some row)
    (hi : row[i]? = some v) : (slotsAfter (orderedRanks α n edges) (.zeros n)).number v = i := by
  have hslot := number_slotsAfter_take hr hi (List.getElem?_eq_some_iff.mp hr).1
  rwa [List.take_length] at hslot

theorem number_slotsAfter_take_eq (α : Type) [Scalar α] (edges : List Arc) (hv : v < n)
    (hk : (rankOf n edges).number v < k) :
    (slotsAfter ((orderedRanks α n edges).take k) (.zeros n)).number v =
      (slotsAfter (orderedRanks α n edges) (.zeros n)).number v := by
  obtain ⟨row, hrow, hmem⟩ := exists_row α edges hv
  obtain ⟨i, hi⟩ := List.getElem?_of_mem hmem
  rw [number_slotsAfter_take hrow hi hk, number_slotsAfter_orderedRanks hrow hi]

theorem rank_lt_of_mem_predecessors {u : Nat}
    (h : u ∈ predecessors (keptArcs (distinctArcs n edges)) v) :
    u < n ∧ (rankOf n edges).number u < (rankOf n edges).number v := by
  have harc := mem_predecessors.mp h
  exact ⟨(mem_distinctArcs.mp (mem_keptArcs.mp harc).1).2.1, (tight_rankOf n edges).lt u v harc⟩

theorem predecessors_eq_nil (h : (rankOf n edges).number v = 0) :
    predecessors (keptArcs (distinctArcs n edges)) v = [] := by
  refine List.eq_nil_iff_forall_not_mem.mpr fun u hu => ?_
  have hlt := (rank_lt_of_mem_predecessors hu).2
  rw [h] at hlt
  exact Nat.not_lt_zero _ hlt

theorem predecessors_ne_nil (h : (rankOf n edges).number v = r + 1) :
    predecessors (keptArcs (distinctArcs n edges)) v ≠ [] := by
  obtain ⟨u, harc, -⟩ := (tight_rankOf n edges).exists_pred v r h
  exact List.ne_nil_of_mem (mem_predecessors.mpr harc)

theorem settled_of_mem_row (hr : (orderedRanks α n edges)[r + 1]? = some row) (hv : v ∈ row) :
    predecessors (keptArcs (distinctArcs n edges)) v ≠ [] ∧
      ∀ u ∈ predecessors (keptArcs (distinctArcs n edges)) v,
        (rankOf n edges).number u < r + 1 ∧
          (slotsAfter ((orderedRanks α n edges).take (r + 1)) (.zeros n)).number u =
            (slotsAfter (orderedRanks α n edges) (.zeros n)).number u := by
  have hrank := ((mem_row_iff hr).mp hv).2
  refine ⟨predecessors_ne_nil hrank, fun u hu => ?_⟩
  obtain ⟨hlt, hbefore⟩ := rank_lt_of_mem_predecessors hu
  rw [hrank] at hbefore
  exact ⟨hbefore, number_slotsAfter_take_eq α edges hlt hbefore⟩

theorem first_row_eq (hr : (orderedRanks ℚ n edges)[0]? = some row) :
    row = (List.range n).filter fun v => (rankOf n edges).number v == 0 := by
  refine (row_eq_orderLayer hr).trans (orderLayer_of_no_predecessors fun v hv => ?_)
  exact predecessors_eq_nil (beq_iff_eq.mp (List.mem_filter.mp hv).2)

theorem pairwise_row (hr : (orderedRanks ℚ n edges)[r + 1]? = some row) :
    let mean := meanSlot (keptArcs (distinctArcs n edges))
      (slotsAfter (orderedRanks ℚ n edges) (.zeros n))
    row.Pairwise fun u v => mean u < mean v ∨ mean u = mean v ∧ u < v := by
  intro mean
  -- the rank is ordered by the places of its time, which for its predecessors are the last ones
  have hmean : ∀ v ∈ row, meanSlot (keptArcs (distinctArcs n edges))
      (slotsAfter ((orderedRanks ℚ n edges).take (r + 1)) (.zeros n)) v = mean v := fun v hv =>
    meanSlot_congr fun u hu => ((settled_of_mem_row hr hv).2 u hu).2
  have hpreds : ∀ v ∈ (List.range n).filter fun v => (rankOf n edges).number v == r + 1,
      predecessors (keptArcs (distinctArcs n edges)) v ≠ [] := fun v hv =>
    predecessors_ne_nil (beq_iff_eq.mp (List.mem_filter.mp hv).2)
  have hsorted := pairwise_orderLayer
    (slotsAfter ((orderedRanks ℚ n edges).take (r + 1)) (.zeros n)) hpreds
    (List.pairwise_lt_range.filter _)
  rw [← row_eq_orderLayer hr] at hsorted
  refine hsorted.imp_of_mem fun {u v} hu hv h => ?_
  rwa [hmean u hu, hmean v hv] at h

end

/-- Every rank holds its nodes, ordered by keys from the places so far. In the first rank the order
stays that of the input. In the others every node has predecessors, all in ranks before, in places
that do not change any more; so the order goes by their mean place in the end, and then by the
input. -/
theorem ranks_are_ordered_by_means (sizes : List (Size ℚ)) (edges : List Arc) :
    let n := sizes.length
    let arcs := distinctArcs n edges
    let kept := keptArcs arcs
    let rank := rankAlong n kept (sequence arcs)
    let order := (rows sizes edges).map (·.map Box.node)
    let slotsBefore (r : Nat) := slotsAfter (order.take r) (.zeros n)
    let slot := slotsAfter order (.zeros n)
    order.length = rankCount n rank ∧
    (∀ r row, order[r]? = some row →
      row.Perm ((List.range n).filter (rank.number · == r)) ∧
      row = orderLayer ℚ kept (slotsBefore r) ((List.range n).filter (rank.number · == r)) ∧
      ∀ i v, row[i]? = some v → slot.number v = i) ∧
    (∀ row, order[0]? = some row → row = (List.range n).filter (rank.number · == 0)) ∧
    (∀ r row, order[r + 1]? = some row →
      (∀ v ∈ row, predecessors kept v ≠ [] ∧ ∀ u ∈ predecessors kept v,
        rank.number u < r + 1 ∧ (slotsBefore (r + 1)).number u = slot.number u) ∧
      row.Pairwise fun u v => meanSlot kept slot u < meanSlot kept slot v ∨
        meanSlot kept slot u = meanSlot kept slot v ∧ u < v) := by
  intro n arcs kept rank order slotsBefore slot
  have horder : order = orderedRanks ℚ n edges := by
    simp only [order, rows, List.map_map, Function.comp_def]
    exact (List.map_congr_left fun row _ => List.map_id row).trans (List.map_id _)
  simp only [slotsBefore, slot, horder]
  refine ⟨length_orderedRanks ℚ n edges, fun r row hr => ⟨row_perm_of_getElem? hr,
    row_eq_orderLayer hr, fun i v hi => number_slotsAfter_orderedRanks hr hi⟩,
    fun row hr => first_row_eq hr,
    fun r row hr => ⟨fun v hv => settled_of_mem_row hr hv, pairwise_row hr⟩⟩

example : orderedRanks ℚ 5 [(1, 2), (0, 3), (0, 4)] = [[0, 1], [3, 4, 2]] := by cbv

end FlowStudio.Layout
