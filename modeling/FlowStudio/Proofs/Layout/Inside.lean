import FlowStudio.Proofs.Layout.Nested
import Mathlib.Data.List.Nodup

/-! What stands inside a node of a design: the nodes, however deep, and the edges between nodes that
stand there side by side. Where no two nodes share an identifier, such an edge is told by the
identifiers of its ends. -/

namespace FlowStudio.Layout
namespace Links
variable {links : Links} {holder parent : Option Nat} {u v : Nat}

def holds (links : Links) (holder : Option Nat) (v : Nat) : Bool :=
  holder.all fun u => (links.ancestors v).contains u

def within (links : Links) (holder : Option Nat) : List Nat :=
  (List.range links.length).filter (links.holds holder)

theorem holds_some_iff : links.holds (some u) v = true ↔ u ∈ links.ancestors v :=
  List.contains_iff_mem

theorem mem_within_iff :
    v ∈ links.within holder ↔ v < links.length ∧ links.holds holder v = true := by
  rw [within, List.mem_filter, List.mem_range]

theorem under_eq_filter (links : Links) (parent : Option Nat) :
    links.under parent = (List.range links.length).filter fun v => links.up v = parent := by
  have hzip : links.zipIdx = (List.range links.length).map fun v => (links.up v, v) := by
    apply List.ext_getElem
    · simp
    · intro v hv hv'
      have hlt : v < links.length := by simpa using hv
      simp [up, List.getElem?_eq_getElem hlt]
  have hguard : ((fun p : Option Nat × Nat => if p.1 = parent then some p.2 else none) ∘
      fun v => (links.up v, v)) = Option.guard fun v => links.up v = parent := by
    funext v
    simp [Option.guard]
  rw [under, hzip, List.filterMap_map, hguard, List.filterMap_eq_filter]

theorem nodup_under (links : Links) (parent : Option Nat) : (links.under parent).Nodup := by
  rw [under_eq_filter]
  exact List.nodup_range.filter _

namespace Wooded
variable (hw : links.Wooded)
include hw

theorem not_holds_self (u : Nat) : links.holds (some u) u = false := by
  apply Bool.eq_false_iff.mpr
  intro h
  have hself := (hw.mem_ancestors_iff).mp (holds_some_iff.mp h)
  exact hw.wellFounded.transGen.irrefl.irrefl u hself

theorem holds_iff (hv : links.IsParent u v) :
    links.holds holder v = true ↔ holder = some u ∨ links.holds holder u = true := by
  cases holder with
  | none => exact ⟨fun _ => .inr rfl, fun _ => rfl⟩
  | some w => rw [holds_some_iff, holds_some_iff, hw.ancestors_of_isParent hv, List.mem_cons,
      Option.some.injEq]

/-- Where a holder, or something that it holds, is the parent, all are held. -/
theorem under_eq_filter_within
    (h : parent = holder ∨ ∃ u, parent = some u ∧ links.holds holder u = true) :
    links.under parent = (links.within holder).filter fun v => links.up v = parent := by
  rw [under_eq_filter, within, List.filter_filter]
  apply List.filter_congr
  intro v _
  by_cases hv : links.up v = parent
  · have hholds : links.holds holder v = true := by
      cases hp : parent with
      | none =>
        rcases h with rfl | ⟨u, hu, -⟩
        · rw [hp]
          rfl
        · exact absurd (hp.symm.trans hu).symm (Option.some_ne_none u)
      | some u =>
        rw [hw.holds_iff (hv.trans hp)]
        rcases h with rfl | ⟨w, hw, hholds⟩
        · exact .inl hp
        · obtain rfl := Option.some.inj (hp.symm.trans hw)
          exact .inr hholds
    rw [hholds, Bool.and_true]
  · rw [decide_eq_false hv, Bool.false_and]

end Wooded
end Links

section
variable {α : Type} {nodes : List (Node α)} {id : String} {v : Nat}

def idOf (nodes : List (Node α)) (v : Nat) : Option String := nodes[v]?.map Node.id

theorem idOf_of_index? (h : index? nodes id = some v) : idOf nodes v = some id := by
  obtain ⟨⟨node, w⟩, hfind, rfl⟩ := Option.map_eq_some_iff.mp h
  have hmem := List.mem_reverse.mp (List.mem_of_find?_eq_some hfind)
  have hid := List.find?_some hfind
  rw [idOf, List.mk_mem_zipIdx_iff_getElem?.mp hmem, Option.map_some, beq_iff_eq.mp hid]

theorem idOf_of_isParent {node : Node α} (hnode : nodes[v]? = some node) {u : Nat}
    (h : (effectiveLinks nodes).IsParent u v) : idOf nodes u = node.parent := by
  have hparent : (parentLinks nodes).IsParent u v := isParent_of_cutCycles h
  rw [Links.IsParent, Links.up, parentLinks, List.getElem?_map, hnode, Option.map_some,
    Option.join_some] at hparent
  obtain ⟨id, hid, hindex⟩ := Option.bind_eq_some_iff.mp hparent
  rw [idOf_of_index? hindex, hid]

theorem eq_of_idOf_eq (hids : (nodes.map Node.id).Nodup) {u : Nat} (hu : idOf nodes u = some id)
    (hv : idOf nodes v = some id) : u = v := by
  rw [idOf, ← List.getElem?_map] at hu hv
  obtain ⟨hlt, -⟩ := List.getElem?_eq_some_iff.mp hu
  exact (List.getElem?_inj hlt hids).mp (hu.trans hv.symm)

theorem index?_eq_some_iff (hids : (nodes.map Node.id).Nodup) :
    index? nodes id = some v ↔ idOf nodes v = some id := by
  refine ⟨idOf_of_index?, fun h => ?_⟩
  obtain ⟨node, hnode, hid⟩ := Option.map_eq_some_iff.mp h
  have hsome : (index? nodes id).isSome := by
    rw [index?, Option.isSome_map, List.find?_isSome]
    refine ⟨(node, v), List.mem_reverse.mpr ?_, beq_iff_eq.mpr hid⟩
    exact List.mk_mem_zipIdx_iff_getElem?.mpr hnode
  obtain ⟨w, hw⟩ := Option.isSome_iff_exists.mp hsome
  rw [hw, eq_of_idOf_eq hids (idOf_of_index? hw) h]

theorem bind_index?_idxOf? (hids : (nodes.map Node.id).Nodup) (id : String) (members : List Nat) :
    (index? nodes id).bind members.idxOf? = (members.map (idOf nodes)).idxOf? (some id) := by
  have hplace : (members.map (idOf nodes)).idxOf? (some id) =
      members.findIdx? fun w => idOf nodes w == some id := by
    rw [List.idxOf?, List.findIdx?_map]
    rfl
  rw [hplace]
  cases hv : index? nodes id with
  | none =>
    symm
    rw [Option.bind_none, List.findIdx?_eq_none_iff]
    intro w _
    apply beq_eq_false_iff_ne.mpr
    intro hw
    exact Option.some_ne_none w (((index?_eq_some_iff hids).mpr hw).symm.trans hv)
  | some v =>
    rw [Option.bind_some, List.idxOf?]
    congr 1
    funext w
    apply Bool.eq_iff_iff.mpr
    rw [beq_iff_eq, beq_iff_eq, ← index?_eq_some_iff hids, hv, Option.some.injEq, eq_comm]

def nodesInside (links : Links) (nodes : List (Node α)) (holder : Option Nat) : List (Node α) :=
  (links.within holder).filterMap (nodes[·]?)

theorem nodesInside_none (nodes : List (Node α)) :
    nodesInside (effectiveLinks nodes) nodes none = nodes := by
  have hall : (effectiveLinks nodes).within none = List.range nodes.length := by
    rw [Links.within, length_effectiveLinks]
    exact List.filter_eq_self.mpr fun _ _ => rfl
  have hmap : (List.range nodes.length).map (nodes[·]?) = nodes.map some := by
    apply List.ext_getElem
    · simp
    · intro v hv hv'
      have hlt : v < nodes.length := by simpa using hv
      simp [List.getElem?_eq_getElem hlt]
  have hid : (List.range nodes.length).filterMap (nodes[·]?) =
      ((List.range nodes.length).map (nodes[·]?)).filterMap id := by
    rw [List.filterMap_map, Function.id_comp]
  rw [nodesInside, hall, hid, hmap, List.filterMap_map, Function.id_comp, List.filterMap_some]

def endsInside (links : Links) (nodes : List (Node α)) (holder : Option Nat) (e : Edge) :
    Option (String × String) := do
  let s ← index? nodes e.source
  let t ← index? nodes e.target
  if links.up s = links.up t ∧ links.holds holder s = true then some (e.source, e.target) else none

def edgesInside (links : Links) (nodes : List (Node α)) (edges : List Edge)
    (holder : Option Nat) : List (String × String) :=
  edges.filterMap (endsInside links nodes holder)

def arcAmong (ids : List (Option String)) (ends : String × String) : Option Arc := do
  return (← ids.idxOf? (some ends.1), ← ids.idxOf? (some ends.2))

theorem scopeArcs_edgePairs (hids : (nodes.map Node.id).Nodup) (edges : List Edge)
    (members : List Nat) :
    scopeArcs members (edgePairs nodes edges) =
      edges.filterMap fun e => arcAmong (members.map (idOf nodes)) (e.source, e.target) := by
  rw [scopeArcs, edgePairs, List.filterMap_filterMap]
  congr 1
  funext e
  simp only [arcAmong, ← bind_index?_idxOf? hids]
  cases index? nodes e.source with
  | none => rfl
  | some s =>
    cases index? nodes e.target with
    | none => cases hs : members.idxOf? s <;> simp [hs]
    | some t => rfl

theorem endsInside_eq_or (links : Links) (nodes : List (Node α)) (holder : Option Nat) (e : Edge) :
    endsInside links nodes holder e = none ∨
      endsInside links nodes holder e = some (e.source, e.target) := by
  rw [endsInside]
  cases index? nodes e.source with
  | none => exact .inl rfl
  | some s =>
    cases index? nodes e.target with
    | none => exact .inl rfl
    | some t => exact (ite_eq_or_eq _ _ _).symm

theorem exists_member_of_idxOf? (hids : (nodes.map Node.id).Nodup) {members : List Nat} {id : String}
    {i : Nat} (h : (members.map (idOf nodes)).idxOf? (some id) = some i) :
    ∃ v ∈ members, index? nodes id = some v := by
  rw [← bind_index?_idxOf? hids] at h
  obtain ⟨v, hv, hplace⟩ := Option.bind_eq_some_iff.mp h
  refine ⟨v, ?_, hv⟩
  by_contra hnot
  exact Option.some_ne_none i (hplace.symm.trans (List.idxOf?_eq_none_iff.mpr hnot))

/-- A scope inside a node knows no edges but those inside the node. -/
theorem scopeArcs_under {links : Links} {holder parent : Option Nat}
    (hids : (nodes.map Node.id).Nodup) (edges : List Edge)
    (hheld : ∀ v ∈ links.under parent, links.holds holder v = true) :
    scopeArcs (links.under parent) (edgePairs nodes edges) =
      (edgesInside links nodes edges holder).filterMap
        (arcAmong ((links.under parent).map (idOf nodes))) := by
  rw [scopeArcs_edgePairs hids, edgesInside, List.filterMap_filterMap]
  congr 1
  funext e
  cases harc : arcAmong ((links.under parent).map (idOf nodes)) (e.source, e.target) with
  | none =>
    rcases endsInside_eq_or links nodes holder e with hends | hends
    · rw [hends, Option.bind_none]
    · rw [hends, Option.bind_some, harc]
  | some arc =>
    obtain ⟨i, hi, hrest⟩ := Option.bind_eq_some_iff.mp harc
    obtain ⟨j, hj, -⟩ := Option.bind_eq_some_iff.mp hrest
    obtain ⟨s, hs, hsource⟩ := exists_member_of_idxOf? hids hi
    obtain ⟨t, ht, htarget⟩ := exists_member_of_idxOf? hids hj
    -- both ends are members of the scope, so the edge is one inside
    have hbeside : links.up s = links.up t :=
      (Links.mem_under_iff.mp hs).2.trans (Links.mem_under_iff.mp ht).2.symm
    have hends : endsInside links nodes holder e = some (e.source, e.target) := by
      simp only [endsInside, hsource, htarget, bind, Option.bind_some]
      exact if_pos ⟨hbeside, hheld s hs⟩
    rw [hends, Option.bind_some, harc]

end

theorem map_index_scopeOf {α : Type} [Scalar α] (placer : Placer α) (config : LayoutConfig α)
    (design : Design α) (parent : Option Nat) :
    (scopeOf placer config design parent).placed.map Placed.index =
      (effectiveLinks design.nodes).under parent := by
  have hmembers : (scopeOf placer config design parent).placed.map Placed.member =
      (measured placer config design parent).members := map_member_placeScope _ _ _
  have hmap := congrArg (List.map Member.index) hmembers
  rw [List.map_map, members_measured, List.map_map] at hmap
  exact hmap.trans (List.map_id _)

theorem eq_of_index_eq {α : Type} [Scalar α] {placer : Placer α} {config : LayoutConfig α}
    {design : Design α} {parent : Option Nat} {p q : Placed α}
    (hp : p ∈ (scopeOf placer config design parent).placed)
    (hq : q ∈ (scopeOf placer config design parent).placed) (h : p.index = q.index) : p = q := by
  have hnodup := Links.nodup_under (effectiveLinks design.nodes) parent
  rw [← map_index_scopeOf placer config design parent] at hnodup
  exact List.inj_on_of_nodup_map hnodup hp hq h

end FlowStudio.Layout
