import FlowStudio.Proofs.Layout.Inputs
import FlowStudio.Proofs.Layout.Inside
import FlowStudio.Proofs.Layout.Renumbering

/-! Two designs in which the same stands inside a node each. A node there has a twin in the other
design, under a number of its own, and so has every scope: twins have twins for parents. -/

namespace FlowStudio.Layout
variable {α : Type}

/-- The outermost scopes of two designs, or two nodes of one kind. If they are no containers, their
declared sizes are the same too. -/
inductive SameHolder (nodes nodes' : List (Node α)) : Option Nat → Option Nat → Prop
  | outermost : SameHolder nodes nodes' none none
  | node {v v' : Nat} {node node' : Node α} : nodes[v]? = some node → nodes'[v']? = some node' →
    node.kind = node'.kind → (node'.kind.isContainer = false → node.size = node'.size) →
    SameHolder nodes nodes' (some v) (some v')

structure SameInside (design design' : Design α) (holder holder' : Option Nat) : Prop where
  nodup_ids : (design.nodes.map Node.id).Nodup
  nodup_ids' : (design'.nodes.map Node.id).Nodup
  same_holder : SameHolder design.nodes design'.nodes holder holder'
  nodes : List.Forall₂ Node.SameInput
    (nodesInside (effectiveLinks design.nodes) design.nodes holder)
    (nodesInside (effectiveLinks design'.nodes) design'.nodes holder')
  edges_eq : edgesInside (effectiveLinks design.nodes) design.nodes design.edges holder =
    edgesInside (effectiveLinks design'.nodes) design'.nodes design'.edges holder'

/-- One node in two designs, inside the holder of each. -/
structure Twin (design design' : Design α) (holder holder' : Option Nat) (v v' : Nat) : Prop where
  held : (effectiveLinks design.nodes).holds holder v = true
  held' : (effectiveLinks design'.nodes).holds holder' v' = true
  same : ∃ node node', design.nodes[v]? = some node ∧ design'.nodes[v']? = some node' ∧
    node.SameInput node'

/-- Two scopes with the same members: those of the holders, or of twins. -/
inductive TwinScopes (design design' : Design α) (holder holder' : Option Nat) :
    Option Nat → Option Nat → Prop
  | holder : TwinScopes design design' holder holder' holder holder'
  | inner {v v' : Nat} : Twin design design' holder holder' v v' →
    TwinScopes design design' holder holder' (some v) (some v')

section
variable {design design' : Design α} {holder holder' : Option Nat} {v v' : Nat}

theorem SameHolder.symm {nodes nodes' : List (Node α)} (h : SameHolder nodes nodes' holder holder') :
    SameHolder nodes' nodes holder' holder := by
  cases h with
  | outermost => exact .outermost
  | node hnode hnode' hkind hsize =>
    exact .node hnode' hnode hkind.symm fun hc => (hsize (hkind ▸ hc)).symm

theorem SameInside.symm (h : SameInside design design' holder holder') :
    SameInside design' design holder' holder where
  nodup_ids := h.nodup_ids'
  nodup_ids' := h.nodup_ids
  same_holder := h.same_holder.symm
  nodes := (h.nodes.imp fun _ _ h => h.symm).flip
  edges_eq := h.edges_eq.symm

theorem Twin.symm (h : Twin design design' holder holder' v v') :
    Twin design' design holder' holder v' v := by
  obtain ⟨node, node', hnode, hnode', hsame⟩ := h.same
  exact ⟨h.held', h.held, node', node, hnode', hnode, hsame.symm⟩

theorem Twin.exists_idOf_eq (h : Twin design design' holder holder' v v') :
    ∃ id, idOf design.nodes v = some id ∧ idOf design'.nodes v' = some id := by
  obtain ⟨node, node', hnode, hnode', hsame⟩ := h.same
  refine ⟨node.id, ?_, ?_⟩
  · rw [idOf, hnode, Option.map_some]
  · rw [idOf, hnode', Option.map_some, hsame.id_eq]

theorem Twin.eq_iff (h : SameInside design design' holder holder') {u u' : Nat}
    (hu : Twin design design' holder holder' u u') (hv : Twin design design' holder holder' v v') :
    u = v ↔ u' = v' := by
  obtain ⟨a, ha, ha'⟩ := hu.exists_idOf_eq
  obtain ⟨b, hb, hb'⟩ := hv.exists_idOf_eq
  constructor
  · rintro rfl
    rw [Option.some.inj (ha.symm.trans hb)] at ha'
    exact eq_of_idOf_eq h.nodup_ids' ha' hb'
  · rintro rfl
    rw [Option.some.inj (ha'.symm.trans hb')] at ha
    exact eq_of_idOf_eq h.nodup_ids ha hb

theorem TwinScopes.symm {p p' : Option Nat} (h : TwinScopes design design' holder holder' p p') :
    TwinScopes design' design holder' holder p' p := by
  cases h with
  | holder => exact .holder
  | inner hv => exact .inner hv.symm

theorem TwinScopes.eq_or_held {p p' : Option Nat}
    (h : TwinScopes design design' holder holder' p p') :
    p = holder ∨ ∃ u, p = some u ∧ (effectiveLinks design.nodes).holds holder u = true := by
  cases h with
  | holder => exact .inl rfl
  | inner hu => exact .inr ⟨_, rfl, hu.held⟩

theorem TwinScopes.eq_iff (h : SameInside design design' holder holder')
    {p p' q q' : Option Nat} (hp : TwinScopes design design' holder holder' p p')
    (hq : TwinScopes design design' holder holder' q q') : p = q ↔ p' = q' := by
  -- nothing stands inside itself
  have hself : ∀ {v v'}, Twin design design' holder holder' v v' →
      holder ≠ some v ∧ holder' ≠ some v' := by
    intro v v' hv
    constructor
    · rintro rfl
      have hnot := (wooded_effectiveLinks design.nodes).not_holds_self v
      exact Bool.false_ne_true (hnot.symm.trans hv.held)
    · rintro rfl
      have hnot := (wooded_effectiveLinks design'.nodes).not_holds_self v'
      exact Bool.false_ne_true (hnot.symm.trans hv.held')
  cases hp with
  | holder =>
    cases hq with
    | holder => exact iff_of_true rfl rfl
    | inner hv => exact iff_of_false (hself hv).1 (hself hv).2
  | inner hu =>
    cases hq with
    | holder => exact iff_of_false (hself hu).1.symm (hself hu).2.symm
    | inner hv => rw [Option.some.injEq, Option.some.injEq, hu.eq_iff h hv]

namespace SameInside
variable (h : SameInside design design' holder holder')
include h

theorem forall₂_within : List.Forall₂ (Twin design design' holder holder')
    ((effectiveLinks design.nodes).within holder)
    ((effectiveLinks design'.nodes).within holder') := by
  have hlive : ∀ (nodes : List (Node α)) (holder : Option Nat),
      ∀ v ∈ (effectiveLinks nodes).within holder,
        (effectiveLinks nodes).holds holder v = true ∧ ∃ node, nodes[v]? = some node := by
    intro nodes holder v hv
    obtain ⟨hlt, hheld⟩ := Links.mem_within_iff.mp hv
    rw [length_effectiveLinks] at hlt
    exact ⟨hheld, _, List.getElem?_eq_getElem hlt⟩
  refine List.Forall₂.imp (fun v v' hvv' => ?_) (forall₂_of_filterMap
    (hlive design.nodes holder) (hlive design'.nodes holder') h.nodes)
  obtain ⟨hheld, hheld', node, node', hnode, hnode', hsame⟩ := hvv'
  exact ⟨hheld, hheld', node, node', hnode, hnode', hsame⟩

theorem exists_twin (hv : v < design.nodes.length)
    (hheld : (effectiveLinks design.nodes).holds holder v = true) :
    ∃ v', Twin design design' holder holder' v v' := by
  have hmem : v ∈ (effectiveLinks design.nodes).within holder :=
    Links.mem_within_iff.mpr ⟨(length_effectiveLinks design.nodes).symm ▸ hv, hheld⟩
  obtain ⟨v', -, htwin⟩ := exists_of_mem_of_forall₂ h.forall₂_within hmem
  exact ⟨v', htwin⟩

theorem not_holder_of_held {u u' : Nat} (hu : holder = some u)
    (hheld' : (effectiveLinks design'.nodes).holds holder' u' = true)
    (hlt' : u' < design'.nodes.length) (hid : idOf design.nodes u = idOf design'.nodes u') :
    False := by
  obtain ⟨w, hw⟩ := h.symm.exists_twin hlt' hheld'
  obtain ⟨id, hid', hidw⟩ := hw.exists_idOf_eq
  obtain rfl : w = u := eq_of_idOf_eq h.nodup_ids hidw (hid.trans hid')
  have hnot := (wooded_effectiveLinks design.nodes).not_holds_self w
  exact Bool.false_ne_true (hnot.symm.trans (hu ▸ hw.held'))

theorem twinScopes_of_isParent {u u' : Nat} (hv : Twin design design' holder holder' v v')
    (hu : (effectiveLinks design.nodes).IsParent u v)
    (hu' : (effectiveLinks design'.nodes).IsParent u' v') :
    TwinScopes design design' holder holder' (some u) (some u') := by
  have hwooded := wooded_effectiveLinks design.nodes
  have hwooded' := wooded_effectiveLinks design'.nodes
  have hlt := length_effectiveLinks design.nodes ▸ hwooded.lt_length hu
  have hlt' := length_effectiveLinks design'.nodes ▸ hwooded'.lt_length hu'
  have hid : idOf design.nodes u = idOf design'.nodes u' := by
    obtain ⟨node, node', hnode, hnode', hsame⟩ := hv.same
    rw [idOf_of_isParent hnode hu, idOf_of_isParent hnode' hu', hsame.parent_eq]
  rcases (hwooded.holds_iff hu).mp hv.held with hholder | hheld
  · rcases (hwooded'.holds_iff hu').mp hv.held' with hholder' | hheld'
    · rw [← hholder, ← hholder']
      exact .holder
    · exact (h.not_holder_of_held hholder hheld' hlt' hid).elim
  · rcases (hwooded'.holds_iff hu').mp hv.held' with hholder' | hheld'
    · exact (h.symm.not_holder_of_held hholder' hheld hlt hid.symm).elim
    · obtain ⟨w', hw'⟩ := h.exists_twin hlt hheld
      obtain ⟨id, hidu, hidw'⟩ := hw'.exists_idOf_eq
      obtain rfl : w' = u' := eq_of_idOf_eq h.nodup_ids' hidw' (hid.symm.trans hidu)
      exact .inner hw'

variable [Scalar α]

theorem outermost_of_up_eq_none (hv : Twin design design' holder holder' v v')
    (hup : (effectiveLinks design.nodes).up v = none) :
    holder = none ∧ holder' = none ∧ (effectiveLinks design'.nodes).up v' = none := by
  have hnone : holder = none := by
    apply Option.eq_none_iff_forall_ne_some.mpr
    rintro c rfl
    have hanc := Links.holds_some_iff.mp hv.held
    rw [Links.ancestors_of_up_eq_none hup] at hanc
    exact List.not_mem_nil hanc
  have hnone' : holder' = none := by
    have hholder := h.same_holder
    rw [hnone] at hholder
    cases hholder
    rfl
  have hnodes := h.nodes
  rw [hnone, hnone', nodesInside_none, nodesInside_none] at hnodes
  have hlinks : effectiveLinks design.nodes = effectiveLinks design'.nodes := by
    rw [← effectiveLinks_map_input, map_input_eq hnodes, effectiveLinks_map_input]
  have hids : idOf design.nodes = idOf design'.nodes := by
    funext w
    rw [idOf, idOf, ← List.getElem?_map, ← List.getElem?_map,
      map_eq_of_forall₂ hnodes fun m n hmn => hmn.id_eq]
  obtain ⟨id, hid, hid'⟩ := hv.exists_idOf_eq
  obtain rfl : v = v' := eq_of_idOf_eq h.nodup_ids hid (hids ▸ hid')
  exact ⟨hnone, hnone', hlinks ▸ hup⟩

theorem twinScopes_up (hv : Twin design design' holder holder' v v') :
    TwinScopes design design' holder holder' ((effectiveLinks design.nodes).up v)
      ((effectiveLinks design'.nodes).up v') := by
  cases hup : (effectiveLinks design.nodes).up v with
  | none =>
    obtain ⟨rfl, rfl, hup'⟩ := h.outermost_of_up_eq_none hv hup
    rw [hup']
    exact .holder
  | some u =>
    cases hup' : (effectiveLinks design'.nodes).up v' with
    | none =>
      obtain ⟨-, -, hnone⟩ := h.symm.outermost_of_up_eq_none hv.symm hup'
      exact absurd (hup.symm.trans hnone) (Option.some_ne_none u)
    | some u' => exact h.twinScopes_of_isParent hv hup hup'

theorem forall₂_under {p p' : Option Nat}
    (hp : TwinScopes design design' holder holder' p p') :
    List.Forall₂ (Twin design design' holder holder') ((effectiveLinks design.nodes).under p)
      ((effectiveLinks design'.nodes).under p') := by
  have hunder := (wooded_effectiveLinks design.nodes).under_eq_filter_within hp.eq_or_held
  have hunder' := (wooded_effectiveLinks design'.nodes).under_eq_filter_within hp.symm.eq_or_held
  rw [hunder, hunder']
  refine List.rel_filter (fun v v' hv => ?_) h.forall₂_within
  have hup := (h.twinScopes_up hv).eq_iff h hp
  exact decide_eq_true_iff.trans (hup.trans decide_eq_true_iff.symm)

theorem scopeArcs_eq {p p' : Option Nat} (hp : TwinScopes design design' holder holder' p p') :
    scopeArcs ((effectiveLinks design.nodes).under p) (edgePairs design.nodes design.edges) =
      scopeArcs ((effectiveLinks design'.nodes).under p')
        (edgePairs design'.nodes design'.edges) := by
  have hheld : ∀ v ∈ (effectiveLinks design.nodes).under p,
      (effectiveLinks design.nodes).holds holder v = true := by
    intro v hv
    obtain ⟨v', -, htwin⟩ := exists_of_mem_of_forall₂ (h.forall₂_under hp) hv
    exact htwin.held
  have hheld' : ∀ v' ∈ (effectiveLinks design'.nodes).under p',
      (effectiveLinks design'.nodes).holds holder' v' = true := by
    intro v' hv'
    obtain ⟨v, -, htwin⟩ := exists_of_mem_of_forall₂ (h.symm.forall₂_under hp.symm) hv'
    exact htwin.held
  have hids : ((effectiveLinks design.nodes).under p).map (idOf design.nodes) =
      ((effectiveLinks design'.nodes).under p').map (idOf design'.nodes) := by
    refine map_eq_of_forall₂ (h.forall₂_under hp) fun v v' hv => ?_
    obtain ⟨id, hid, hid'⟩ := hv.exists_idOf_eq
    rw [hid, hid']
  rw [scopeArcs_under h.nodup_ids design.edges hheld,
    scopeArcs_under h.nodup_ids' design'.edges hheld', h.edges_eq, hids]

end SameInside
end
end FlowStudio.Layout
