import FlowStudio.Proofs.Layout.Waiting
import FlowStudio.Proofs.Lists
import Mathlib.Data.Fintype.Order
import Mathlib.Logic.Relation

/-! The row of the nodes of a graph. Every node with an edge has one place in it, and if the graph
has no cycle, taking sinks alone makes the whole row, so that no edge is left out. -/

namespace FlowStudio.Layout

def Acyclic (arcs : List Arc) : Prop := ∀ v, ¬Relation.TransGen (fun s t => (s, t) ∈ arcs) v v

section
variable {arcs : List Arc} {waiting : List Waiting} {w : Waiting}

theorem drain_of_find?_eq_none {fits : Waiting → Bool} (h : waiting.find? fits = none)
    (fuel : Nat) : drain arcs fits fuel waiting = ([], waiting) := by
  cases fuel with
  | zero => rfl
  | succ fuel => rw [drain, h]

theorem drain_of_find?_eq_some {fits : Waiting → Bool} (h : waiting.find? fits = some w)
    (fuel : Nat) : drain arcs fits (fuel + 1) waiting =
      (w.node :: (drain arcs fits fuel (take arcs w waiting)).1,
        (drain arcs fits fuel (take arcs w waiting)).2) := by
  rw [drain, h]

/-- What taking the nodes of a class comes to: with `taken` gone, none of the class is left. -/
structure Drained (fits : Waiting → Bool) (waiting : List Waiting) (taken : List Nat)
    (rest : List Waiting) : Prop where
  perm : (taken ++ nodesOf rest).Perm (nodesOf waiting)
  not_fits : ∀ w ∈ rest, fits w = false
  rest_eq : taken = [] → rest = waiting

section
variable {fits : Waiting → Bool} {fuel : Nat} {taken : List Nat} {rest : List Waiting}

theorem Drained.nodup (hd : Drained fits waiting taken rest) (hn : (nodesOf waiting).Nodup) :
    (nodesOf rest).Nodup :=
  (List.nodup_append.mp (hd.perm.nodup_iff.mpr hn)).2.1

theorem Drained.length_eq (hd : Drained fits waiting taken rest) :
    taken.length + rest.length = waiting.length := by
  simpa [nodesOf] using hd.perm.length_eq

theorem length_take (arcs : List Arc) (hn : (nodesOf waiting).Nodup) (hw : w ∈ waiting) :
    (take arcs w waiting).length + 1 = waiting.length := by
  simpa [nodesOf] using (nodesOf_take_perm arcs hn hw).length_eq.symm

theorem drained_drain (arcs : List Arc) (fits : Waiting → Bool)
    (hn : (nodesOf waiting).Nodup) (hfuel : waiting.length ≤ fuel) :
    Drained fits waiting (drain arcs fits fuel waiting).1 (drain arcs fits fuel waiting).2 := by
  induction fuel generalizing waiting with
  | zero =>
    obtain rfl := List.length_eq_zero_iff.mp (Nat.le_zero.mp hfuel)
    exact ⟨.nil, fun _ hw => absurd hw List.not_mem_nil, fun _ => rfl⟩
  | succ fuel ih =>
    cases h : waiting.find? fits with
    | none =>
      rw [drain_of_find?_eq_none h]
      exact ⟨.refl _, fun w hw => by simpa using List.find?_eq_none.mp h w hw, fun _ => rfl⟩
    | some w =>
      have hw := List.mem_of_find?_eq_some h
      have hperm := nodesOf_take_perm arcs hn hw
      have hlen := length_take arcs hn hw
      have hrest := ih (List.nodup_cons.mp (hperm.nodup_iff.mp hn)).2 (by omega)
      rw [drain_of_find?_eq_some h]
      exact ⟨(hrest.perm.cons w.node).trans hperm.symm, hrest.not_fits,
        fun hnil => absurd hnil (List.cons_ne_nil _ _)⟩

theorem drained_of_drain (hn : (nodesOf waiting).Nodup)
    (h : drain arcs fits waiting.length waiting = (taken, rest)) :
    Drained fits waiting taken rest := by
  have hd := drained_drain arcs fits hn le_rfl
  rwa [h] at hd

theorem Counted.drain (hc : Counted arcs waiting) (fuel : Nat) :
    Counted arcs (drain arcs fits fuel waiting).2 := by
  induction fuel generalizing waiting with
  | zero => exact hc
  | succ fuel ih =>
    cases h : waiting.find? fits with
    | none => rwa [drain_of_find?_eq_none h]
    | some w =>
      rw [drain_of_find?_eq_some h]
      exact ih (hc.take (List.mem_of_find?_eq_some h))

end

theorem Counted.pairwise_sinks (hc : Counted arcs waiting) {fuel : Nat}
    (hfuel : waiting.length ≤ fuel) :
    (Layout.drain arcs Waiting.isSink fuel waiting).1.Pairwise fun u v => (u, v) ∉ arcs := by
  induction fuel generalizing waiting with
  | zero => exact .nil
  | succ fuel ih =>
    cases h : waiting.find? Waiting.isSink with
    | none =>
      rw [drain_of_find?_eq_none h]
      exact .nil
    | some w =>
      have hw := List.mem_of_find?_eq_some h
      have hrest := hc.take hw
      have hlen := length_take arcs hc.nodup hw
      have hfuel : (Layout.take arcs w waiting).length ≤ fuel := by omega
      rw [drain_of_find?_eq_some h]
      refine .cons (fun v hv => ?_) (ih hrest hfuel)
      have hd := drained_drain arcs Waiting.isSink hrest.nodup hfuel
      have hperm := nodesOf_take_perm arcs hc.nodup hw
      exact hc.notMem_of_isSink hw (List.find?_some h) v
        (hperm.symm.subset (List.mem_cons_of_mem _ (hd.perm.subset (List.mem_append_left _ hv))))

end

section
variable {arcs : List Arc} {waiting : List Waiting}

theorem exists_sink (h : Acyclic arcs) {vs : List Nat} (hne : vs ≠ []) :
    ∃ u ∈ vs, ∀ v ∈ vs, (u, v) ∉ arcs := by
  let below (u v : { v // v ∈ vs }) : Prop :=
    Relation.TransGen (fun s t => (s, t) ∈ arcs) v.1 u.1
  have : IsTrans _ below := ⟨fun _ _ _ huv hvw => hvw.trans huv⟩
  have : Std.Irrefl below := ⟨fun v => h v.1⟩
  have : Finite { v // v ∈ vs } := List.finite_toSet vs
  obtain ⟨v, hv⟩ := List.exists_mem_of_ne_nil vs hne
  -- a node from which no path leads to any other of them
  obtain ⟨u, -, hmin⟩ := (Finite.wellFounded_of_trans_of_irrefl below).has_min Set.univ
    ⟨⟨v, hv⟩, trivial⟩
  exact ⟨u.1, u.2, fun w hw harc => hmin ⟨w, hw⟩ trivial (.single harc)⟩

theorem drain_sinks_of_acyclic (h : Acyclic arcs) (hc : Counted arcs waiting) {fuel : Nat}
    (hfuel : waiting.length ≤ fuel) : (drain arcs Waiting.isSink fuel waiting).2 = [] := by
  by_contra hne
  have hrest : Counted arcs (drain arcs Waiting.isSink fuel waiting).2 := hc.drain fuel
  obtain ⟨u, hu, hsink⟩ := exists_sink h (List.map_eq_nil_iff.not.mpr hne)
  obtain ⟨w, hw, rfl⟩ := List.mem_map.mp hu
  have hd := drained_drain arcs Waiting.isSink hc.nodup hfuel
  exact Bool.false_ne_true ((hd.not_fits w hw).symm.trans (hrest.isSink hw hsink))

theorem mem_of_best? {w : Waiting} (h : best? waiting = some w) : w ∈ waiting := by
  have hmem : ∀ w, best? waiting = some w → w ∈ waiting := by
    refine List.foldlRecOn (motive := fun best => ∀ w, best = some w → w ∈ waiting) _ _
      (fun w hw => by simp at hw) fun best hbest x hx => ?_
    have hx := (List.mem_filter.mp hx).1
    intro w hw
    cases best with
    | none => exact Option.some.inj hw ▸ hx
    | some b =>
      dsimp only at hw
      split at hw
      · exact Option.some.inj hw ▸ hx
      · exact hbest w hw
  exact hmem w h

theorem not_isInner_of_best? (h : best? waiting = none) : ∀ w ∈ waiting, w.isInner = false := by
  cases hinner : waiting.filter Waiting.isInner with
  | nil => simpa using List.filter_eq_nil_iff.mp hinner
  | cons x xs =>
    rw [best?, hinner, List.foldl_cons] at h
    refine absurd h (List.foldlRecOn (motive := fun best => best ≠ none) _ _ (by simp) ?_)
    intro best hbest y _
    obtain ⟨b, rfl⟩ := Option.ne_none_iff_exists'.mp hbest
    dsimp only
    split <;> simp

section
variable {sinks sources middle : List Nat} {beyond rest : List Waiting}
variable (hsinks : Drained Waiting.isSink waiting sinks beyond)
  (hsources : Drained Waiting.isSource beyond sources rest)
include hsinks hsources

theorem length_lt_of_best? (hne : waiting ≠ []) (hbest : best? rest = none) :
    rest.length < waiting.length := by
  have hlen := hsinks.length_eq
  have hlen' := hsources.length_eq
  by_cases hnil : sources = []
  · obtain rfl := hsources.rest_eq hnil
    -- what is left is neither a sink nor a source nor an inner node
    have hempty : rest = [] := by
      refine List.eq_nil_iff_forall_not_mem.mpr fun w hw => ?_
      have hsink := hsinks.not_fits w hw
      have hsource := hsources.not_fits w hw
      have hinner := not_isInner_of_best? hbest w hw
      simp only [Waiting.isSink, Waiting.isSource, Waiting.isInner] at hsink hsource hinner
      cases hinto : w.into == 0 <;> simp_all
    rw [hempty]
    exact List.length_pos_iff.mpr hne
  · have hpos := List.length_pos_iff.mpr hnil
    omega

theorem round_perm (hmiddle : middle.Perm (nodesOf rest)) :
    (sources ++ middle ++ sinks.reverse).Perm (nodesOf waiting) := by
  have hbeyond := (hmiddle.append_left sources).trans hsources.perm
  have hends := hbeyond.append sinks.reverse_perm
  exact hends.trans (List.perm_append_comm.trans hsinks.perm)

end

theorem row_perm (hn : (nodesOf waiting).Nodup) {fuel : Nat} (hfuel : waiting.length ≤ fuel) :
    (row arcs fuel waiting).Perm (nodesOf waiting) := by
  -- each round has fewer nodes left than there were, so the fuel lasts
  fun_induction row arcs fuel waiting with
  | case1 waiting =>
    obtain rfl := List.length_eq_zero_iff.mp (Nat.le_zero.mp hfuel)
    exact .nil
  | case2 => exact .nil
  | case3 fuel waiting hne sinks beyond hs sources rest hq hbest ih =>
    have hsinks := drained_of_drain hn hs
    have hsources := drained_of_drain (hsinks.nodup hn) hq
    have hlt := length_lt_of_best? hsinks hsources hne hbest
    exact round_perm hsinks hsources (ih (hsources.nodup (hsinks.nodup hn)) (by omega))
  | case4 fuel waiting hne sinks beyond hs sources rest hq w hbest ih =>
    have hsinks := drained_of_drain hn hs
    have hsources := drained_of_drain (hsinks.nodup hn) hq
    have hrest := hsources.nodup (hsinks.nodup hn)
    have hw := mem_of_best? hbest
    have hperm := nodesOf_take_perm arcs hrest hw
    have hlen := length_take arcs hrest hw
    have hle := hsinks.length_eq
    have hle' := hsources.length_eq
    have hmiddle := (ih (List.nodup_cons.mp (hperm.nodup_iff.mp hrest)).2 (by omega)).cons w.node
    exact round_perm hsinks hsources (hmiddle.trans hperm.symm)

end

section
variable {arcs : List Arc} {v : Nat}

theorem mem_nodesOf_entered :
    v ∈ nodesOf (entered arcs) ↔ ∃ a ∈ arcs, a.1 = v ∨ a.2 = v := by
  simp [nodesOf, entered, List.mem_eraseDups, eq_comm]

theorem counted_entered (arcs : List Arc) : Counted arcs (entered arcs) where
  nodup := by
    simpa [nodesOf, entered, Function.comp_def] using nodup_eraseDups _
  out_eq := fun w hw => by
    have hout : w.out = arcs.countP (·.1 == w.node) := by
      rw [entered, List.mem_reverse, List.mem_map] at hw
      obtain ⟨v, -, rfl⟩ := hw
      rfl
    rw [hout]
    refine List.countP_congr fun a ha => ?_
    have hmem : a.2 ∈ nodesOf (entered arcs) := mem_nodesOf_entered.mpr ⟨a, ha, .inr rfl⟩
    simp [hmem]

theorem sequence_perm (arcs : List Arc) : (sequence arcs).Perm (nodesOf (entered arcs)) :=
  row_perm (counted_entered arcs).nodup le_rfl

theorem nodup_sequence (arcs : List Arc) : (sequence arcs).Nodup :=
  (sequence_perm arcs).nodup_iff.mpr (counted_entered arcs).nodup

theorem mem_sequence : v ∈ sequence arcs ↔ ∃ a ∈ arcs, a.1 = v ∨ a.2 = v :=
  (sequence_perm arcs).mem_iff.trans mem_nodesOf_entered

theorem acyclic_of_lt (place : Nat → Nat) (h : ∀ a ∈ arcs, place a.1 < place a.2) :
    Acyclic arcs := by
  intro v hround
  have hlt : place v < place v :=
    hround.head_induction_on (motive := fun u _ => place u < place v)
      (fun harc => h _ harc) (fun harc _ ih => (h _ harc).trans ih)
  exact lt_irrefl _ hlt

theorem mem_keptArcs {s t : Nat} : (s, t) ∈ keptArcs arcs ↔
    (s, t) ∈ arcs ∧ (sequence arcs).idxOf s < (sequence arcs).idxOf t := by
  simp [keptArcs]

theorem acyclic_keptArcs (arcs : List Arc) : Acyclic (keptArcs arcs) :=
  acyclic_of_lt (sequence arcs).idxOf fun _ ha => (mem_keptArcs.mp ha).2

theorem row_of_drain_sinks {waiting : List Waiting}
    (h : (drain arcs Waiting.isSink waiting.length waiting).2 = []) :
    row arcs waiting.length waiting =
      (drain arcs Waiting.isSink waiting.length waiting).1.reverse := by
  cases waiting with
  | nil => rfl
  | cons w ws =>
    have hrow : row arcs ws.length [] = [] := by cases ws <;> rfl
    rw [List.length_cons] at h ⊢
    cases hd : drain arcs Waiting.isSink (ws.length + 1) (w :: ws) with
    | mk sinks rest =>
      obtain rfl : rest = [] := by rwa [hd] at h
      simp [row, hd, drain, best?, hrow]

theorem pairwise_sequence_of_acyclic (h : Acyclic arcs) :
    (sequence arcs).Pairwise fun u v => (v, u) ∉ arcs := by
  have hc := counted_entered arcs
  have hrow := row_of_drain_sinks (drain_sinks_of_acyclic h hc le_rfl)
  rw [sequence, hrow]
  exact List.pairwise_reverse.mpr (hc.pairwise_sinks le_rfl)

theorem keptArcs_of_acyclic (h : Acyclic arcs) : keptArcs arcs = arcs := by
  refine List.filter_eq_self.mpr fun ⟨s, t⟩ ha => decide_eq_true ?_
  refine idxOf_lt_of_pairwise (pairwise_sequence_of_acyclic h) (mem_sequence.mpr ⟨_, ha, .inl rfl⟩)
    (mem_sequence.mpr ⟨_, ha, .inr rfl⟩) ?_ (not_not_intro ha)
  rintro rfl
  exact h s (.single ha)

end
end FlowStudio.Layout
