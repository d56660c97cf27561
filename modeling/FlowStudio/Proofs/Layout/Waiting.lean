import FlowStudio.Layout.FeedbackArcs
import Mathlib.Data.List.Count
import Mathlib.Data.List.Nodup

/-! The nodes that wait for a place in the row. Each keeps count of its edges to the others that
wait, whichever of them are taken. -/

namespace FlowStudio.Layout

def nodesOf (waiting : List Waiting) : List Nat := waiting.map (·.node)

def outdegree (arcs : List Arc) (vs : List Nat) (u : Nat) : Nat :=
  arcs.countP fun a => a.1 = u ∧ a.2 ∈ vs

def Waiting.without (arcs : List Arc) (v : Nat) (w : Waiting) : Waiting :=
  ⟨w.node, w.into - arcs.count (v, w.node), w.out - arcs.count (w.node, v)⟩

section
variable {arcs : List Arc} {vs vs' : List Nat} {u v : Nat}

theorem outdegree_congr (h : ∀ x, x ∈ vs ↔ x ∈ vs') :
    outdegree arcs vs u = outdegree arcs vs' u := by
  simp only [outdegree, h]

theorem outdegree_cons (hv : v ∉ vs) :
    outdegree arcs (v :: vs) u = arcs.count (u, v) + outdegree arcs vs u := by
  induction arcs with
  | nil => rfl
  | cons a arcs ih =>
    obtain ⟨s, t⟩ := a
    simp only [outdegree] at ih ⊢
    rw [List.countP_cons, List.countP_cons, List.count_cons, ih]
    by_cases hs : s = u <;> by_cases ht : t = v <;> simp [hs, ht, hv] <;> omega

theorem outdegree_eq_zero_iff : outdegree arcs vs u = 0 ↔ ∀ v ∈ vs, (u, v) ∉ arcs := by
  rw [outdegree, List.countP_eq_zero]
  constructor
  · intro h v hv ha
    exact h _ ha (decide_eq_true ⟨rfl, hv⟩)
  · rintro h ⟨s, t⟩ ha hst
    obtain ⟨rfl, ht⟩ := of_decide_eq_true hst
    exact h t ht ha

theorem count_targets : ((arcs.filter (·.1 == u)).map (·.2)).count v = arcs.count (u, v) := by
  simp only [List.count, List.countP_map, List.countP_filter, Function.comp_def]
  refine List.countP_congr fun a _ => ?_
  obtain ⟨s, t⟩ := a
  simp [and_comm]

theorem count_sources : ((arcs.filter (·.2 == v)).map (·.1)).count u = arcs.count (u, v) := by
  simp only [List.count, List.countP_map, List.countP_filter, Function.comp_def]
  refine List.countP_congr fun a _ => ?_
  obtain ⟨s, t⟩ := a
  simp

end

section
variable {waiting : List Waiting} {change : Waiting → Waiting}

theorem loosen_perm (change : Waiting → Waiting) (hn : (nodesOf waiting).Nodup) (v : Nat) :
    (loosen change waiting v).Perm (waiting.map fun w => if w.node = v then change w else w) := by
  induction waiting with
  | nil => exact .nil
  | cons w ws ih =>
    obtain ⟨hw, hn⟩ := List.nodup_cons.mp hn
    by_cases hv : w.node = v
    · have hrest : ws.map (fun x => if x.node = v then change x else x) = ws := by
        refine List.map_congr_left (fun x hx => if_neg fun hxv => hw ?_) |>.trans (List.map_id ws)
        exact List.mem_map.mpr ⟨x, hx, hxv.trans hv.symm⟩
      rw [List.map_cons, hrest, if_pos hv]
      simp [loosen, hv]
    · have hstep : (loosen change (w :: ws) v).Perm (w :: loosen change ws v) := by
        rw [loosen, loosen, List.find?_cons_of_neg (by simpa using hv),
          List.eraseP_cons_of_neg (by simpa using hv)]
        cases ws.find? (·.node == v) with
        | none => exact .refl _
        | some x => exact .swap w (change x) _
      rw [List.map_cons, if_neg hv]
      exact hstep.trans ((ih hn).cons w)

theorem nodesOf_loosen_perm (hnode : ∀ w, (change w).node = w.node) (hn : (nodesOf waiting).Nodup)
    (v : Nat) : (nodesOf (loosen change waiting v)).Perm (nodesOf waiting) := by
  refine ((loosen_perm change hn v).map _).trans ?_
  rw [List.map_map]
  refine .of_eq (List.map_congr_left fun w _ => ?_)
  by_cases hv : w.node = v <;> simp [hv, hnode]

/-- Edges taken off one by one come to as many at once. -/
theorem foldl_loosen_perm (lessen : Nat → Waiting → Waiting)
    (hnode : ∀ n w, (lessen n w).node = w.node) (hzero : ∀ w, lessen 0 w = w)
    (hadd : ∀ n w, lessen n (lessen 1 w) = lessen (n + 1) w) (hn : (nodesOf waiting).Nodup)
    (vs : List Nat) : (vs.foldl (loosen (lessen 1)) waiting).Perm
      (waiting.map fun w => lessen (vs.count w.node) w) := by
  induction vs generalizing waiting with
  | nil => simp [hzero]
  | cons v vs ih =>
    have hperm := nodesOf_loosen_perm (hnode 1) hn v
    refine (ih (hperm.nodup_iff.mpr hn)).trans (((loosen_perm _ hn v).map _).trans ?_)
    rw [List.map_map]
    refine .of_eq (List.map_congr_left fun w _ => ?_)
    by_cases hv : w.node = v
    · simp [hv, hnode, hadd]
    · simp [hv, Ne.symm hv]

end

section
variable {arcs : List Arc} {waiting : List Waiting} {w : Waiting}

theorem perm_cons_eraseP (hn : (nodesOf waiting).Nodup) (hw : w ∈ waiting) :
    waiting.Perm (w :: waiting.eraseP (·.node == w.node)) := by
  induction waiting with
  | nil => exact absurd hw List.not_mem_nil
  | cons x xs ih =>
    obtain ⟨hx, hn⟩ := List.nodup_cons.mp hn
    rcases List.mem_cons.mp hw with rfl | hw
    · rw [List.eraseP_cons_of_pos (by simp)]
    · have hne : x.node ≠ w.node := fun h => hx (List.mem_map.mpr ⟨w, hw, h.symm⟩)
      rw [List.eraseP_cons_of_neg (by simpa using hne)]
      exact ((ih hn hw).cons x).trans (.swap w x _)

theorem take_perm (arcs : List Arc) (hn : (nodesOf waiting).Nodup) (w : Waiting) :
    (take arcs w waiting).Perm
      ((waiting.eraseP (·.node == w.node)).map (Waiting.without arcs w.node)) := by
  have hothers : (nodesOf (waiting.eraseP (·.node == w.node))).Nodup :=
    hn.sublist (List.eraseP_sublist.map _)
  have hinto := foldl_loosen_perm (fun n w => { w with into := w.into - n }) (fun _ _ => rfl)
    (fun _ => rfl) (fun n w => by rw [Nat.sub_sub, Nat.add_comm]) hothers
    ((arcs.filter (·.1 == w.node)).map (·.2))
  simp only [count_targets] at hinto
  have hnodes := hinto.map (·.node)
  rw [List.map_map] at hnodes
  have hout := foldl_loosen_perm (fun n w => { w with out := w.out - n }) (fun _ _ => rfl)
    (fun _ => rfl) (fun n w => by rw [Nat.sub_sub, Nat.add_comm]) (hnodes.nodup_iff.mpr hothers)
    ((arcs.filter (·.2 == w.node)).map (·.1))
  simp only [count_sources] at hout
  refine hout.trans ((hinto.map _).trans (.of_eq ?_))
  rw [List.map_map]
  rfl

theorem nodesOf_take_perm (arcs : List Arc) (hn : (nodesOf waiting).Nodup) (hw : w ∈ waiting) :
    (nodesOf waiting).Perm (w.node :: nodesOf (take arcs w waiting)) := by
  have htake := (take_perm arcs hn w).map (·.node)
  rw [List.map_map] at htake
  exact ((perm_cons_eraseP hn hw).map _).trans (htake.symm.cons w.node)

/-- The nodes that wait know how many edges they have to others that do. -/
structure Counted (arcs : List Arc) (waiting : List Waiting) : Prop where
  nodup : (nodesOf waiting).Nodup
  out_eq : ∀ w ∈ waiting, w.out = outdegree arcs (nodesOf waiting) w.node

namespace Counted

theorem notMem_of_isSink (hc : Counted arcs waiting) (hw : w ∈ waiting) (hsink : w.isSink) :
    ∀ v ∈ nodesOf waiting, (w.node, v) ∉ arcs := by
  rw [← outdegree_eq_zero_iff, ← hc.out_eq w hw]
  simpa [Waiting.isSink] using hsink

theorem isSink (hc : Counted arcs waiting) (hw : w ∈ waiting)
    (h : ∀ v ∈ nodesOf waiting, (w.node, v) ∉ arcs) : w.isSink := by
  rw [← outdegree_eq_zero_iff, ← hc.out_eq w hw] at h
  simpa [Waiting.isSink] using h

theorem take (hc : Counted arcs waiting) (hw : w ∈ waiting) :
    Counted arcs (take arcs w waiting) := by
  have hperm := nodesOf_take_perm arcs hc.nodup hw
  obtain ⟨hnot, hnodup⟩ := List.nodup_cons.mp (hperm.nodup_iff.mp hc.nodup)
  refine ⟨hnodup, fun u hu => ?_⟩
  obtain ⟨x, hx, rfl⟩ := List.mem_map.mp ((take_perm arcs hc.nodup w).mem_iff.mp hu)
  have hold := hc.out_eq x (List.mem_of_mem_eraseP hx)
  rw [outdegree_congr fun v => hperm.mem_iff, outdegree_cons hnot] at hold
  change x.out - arcs.count (x.node, w.node) = outdegree arcs _ x.node
  omega

end Counted

end
end FlowStudio.Layout
