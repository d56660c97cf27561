import FlowStudio.Proofs.Layout.Cycles
import Mathlib.Logic.Relation
import Mathlib.Order.WellFounded

/-! Links without circles: the nodes above a node, and the forest of what stands inside each. -/

namespace FlowStudio.Layout
namespace Links
variable {links : Links} {u v w : Nat}

def above (links : Links) : Nat → Nat → List Nat
  | 0, _ => []
  | fuel + 1, v => match links.up v with
    | none => []
    | some u => u :: links.above fuel u

def ancestors (links : Links) (v : Nat) : List Nat := links.above links.length v

/-- Every parent is a node, and no node stands in itself. -/
structure Wooded (links : Links) : Prop where
  wellFounded : WellFounded links.IsParent
  lt_length : ∀ {u v}, links.IsParent u v → u < links.length

/-- The whole way up from a node. -/
inductive WayUp (links : Links) : Nat → List Nat → Prop
  | root {v : Nat} : links.up v = none → WayUp links v []
  | step {u v : Nat} {us : List Nat} :
    links.IsParent u v → WayUp links u us → WayUp links v (u :: us)

namespace WayUp
variable {us : List Nat}

theorem transGen (h : links.WayUp v us) (hu : u ∈ us) : Relation.TransGen links.IsParent u v := by
  induction h with
  | root => exact absurd hu List.not_mem_nil
  | step hparent _ ih =>
    rcases hu with _ | ⟨_, hu⟩
    · exact .single hparent
    · exact (ih hu).tail hparent

theorem nodup (h : links.WayUp v us) (hw : links.Wooded) : (v :: us).Nodup := by
  have hself : ∀ {v us}, links.WayUp v us → v ∉ us := fun h hv =>
    hw.wellFounded.transGen.irrefl.irrefl _ (h.transGen hv)
  induction h with
  | root => exact List.pairwise_singleton _ _
  | step hparent hway ih => exact List.nodup_cons.mpr ⟨hself (.step hparent hway), ih⟩

theorem lt_length (h : links.WayUp v us) (hw : links.Wooded) : ∀ u ∈ us, u < links.length := by
  induction h with
  | root => exact fun _ hu => absurd hu List.not_mem_nil
  | step hparent _ ih =>
    rintro u (_ | ⟨_, hu⟩)
    · exact hw.lt_length hparent
    · exact ih u hu

theorem length_lt (h : links.WayUp v us) (hw : links.Wooded) (hv : v < links.length) :
    us.length < links.length :=
  length_le_of_nodup (h.nodup hw) (List.forall_mem_cons.mpr ⟨hv, h.lt_length hw⟩)

theorem above_eq (h : links.WayUp v us) {fuel : Nat} (hfuel : us.length ≤ fuel) :
    links.above fuel v = us := by
  induction h generalizing fuel with
  | root hv =>
    cases fuel with
    | zero => rfl
    | succ fuel => rw [above, hv]
  | step hparent _ ih =>
    cases fuel with
    | zero => exact absurd hfuel (Nat.not_succ_le_zero _)
    | succ fuel =>
      rw [IsParent] at hparent
      simp only [above, hparent, ih (Nat.le_of_succ_le_succ hfuel)]

end WayUp

theorem exists_wayUp (h : WellFounded links.IsParent) (v : Nat) : ∃ us, links.WayUp v us := by
  induction v using h.induction with
  | h v ih =>
    cases hv : links.up v with
    | none => exact ⟨[], .root hv⟩
    | some u =>
      obtain ⟨us, hus⟩ := ih u hv
      exact ⟨u :: us, .step hv hus⟩

theorem ancestors_of_up_eq_none (h : links.up v = none) : links.ancestors v = [] :=
  (WayUp.root h).above_eq (Nat.zero_le _)

namespace Wooded
variable (hw : links.Wooded)
include hw

theorem wayUp_ancestors (v : Nat) : links.WayUp v (links.ancestors v) := by
  obtain ⟨us, hus⟩ := exists_wayUp hw.wellFounded v
  have hle : us.length ≤ links.length := by
    cases hus with
    | root => exact Nat.zero_le _
    | step hparent hway =>
      exact Nat.le_of_lt ((WayUp.step hparent hway).length_lt hw (lt_of_isParent hparent))
  rwa [ancestors, hus.above_eq hle]

theorem ancestors_of_isParent (h : links.IsParent u v) :
    links.ancestors v = u :: links.ancestors u := by
  have hway := (hw.wayUp_ancestors u).length_lt hw (hw.lt_length h)
  exact (WayUp.step h (hw.wayUp_ancestors u)).above_eq hway

theorem length_ancestors_lt (hv : v < links.length) : (links.ancestors v).length < links.length :=
  (hw.wayUp_ancestors v).length_lt hw hv

theorem mem_ancestors_iff : u ∈ links.ancestors v ↔ Relation.TransGen links.IsParent u v := by
  refine ⟨(hw.wayUp_ancestors v).transGen, fun h => ?_⟩
  induction h with
  | single hparent =>
    rw [hw.ancestors_of_isParent hparent]
    exact List.mem_cons_self
  | tail _ hparent ih =>
    rw [hw.ancestors_of_isParent hparent]
    exact List.mem_cons_of_mem _ ih

theorem wellFounded_child : WellFounded fun u v => links.IsParent v u := by
  refine Subrelation.wf (fun {u v} h => ?_)
    (InvImage.wf (fun v => links.length - (links.ancestors v).length) Nat.lt_wfRel.wf)
  -- one step down there is one ancestor more
  change links.length - (links.ancestors u).length < links.length - (links.ancestors v).length
  have hlt := hw.length_ancestors_lt (lt_of_isParent h)
  rw [hw.ancestors_of_isParent h, List.length_cons] at hlt ⊢
  omega

theorem exists_mem_up_eq (v : Nat) {above : Option Nat}
    (h : ∀ u, above = some u → u ∈ links.ancestors v) :
    ∃ w ∈ v :: links.ancestors v, links.up w = above := by
  induction v using hw.wellFounded.induction with
  | h v ih =>
    by_cases heq : links.up v = above
    · exact ⟨v, List.mem_cons_self, heq⟩
    · cases hv : links.up v with
      | none =>
        rw [ancestors_of_up_eq_none hv] at h
        exact absurd (hv.trans (Option.eq_none_iff_forall_ne_some.mpr fun u hu =>
          List.not_mem_nil (h u hu)).symm) heq
      | some p =>
        rw [hw.ancestors_of_isParent hv] at h ⊢
        obtain ⟨w, hmem, hup⟩ := ih p hv fun u hu => by
          refine (List.mem_cons.mp (h u hu)).resolve_left fun hp => heq ?_
          rw [hv, hu, hp]
        exact ⟨w, List.mem_cons_of_mem v hmem, hup⟩

theorem exists_siblings (u v : Nat) : u = v ∨ u ∈ links.ancestors v ∨ v ∈ links.ancestors u ∨
    ∃ u' ∈ u :: links.ancestors u, ∃ v' ∈ v :: links.ancestors v,
      u' ≠ v' ∧ links.up u' = links.up v' := by
  induction u using hw.wellFounded.induction with
  | h u ih =>
    -- climb from `u` as long as the parent does not hold `v` as well
    by_cases h : ∀ p, links.up u = some p → p ∈ links.ancestors v
    · obtain ⟨w, hmem, hup⟩ := hw.exists_mem_up_eq v h
      by_cases hwu : u = w
      · rcases List.mem_cons.mp (hwu ▸ hmem) with heq | hanc
        · exact .inl heq
        · exact .inr (.inl hanc)
      · exact .inr (.inr (.inr ⟨u, List.mem_cons_self, w, hmem, hwu, hup.symm⟩))
    · push Not at h
      obtain ⟨p, hp, hout⟩ := h
      rw [hw.ancestors_of_isParent hp]
      rcases ih p hp with rfl | hanc | hanc | ⟨u', hu', v', hv', hne, hup⟩
      · exact .inr (.inr (.inl List.mem_cons_self))
      · exact absurd hanc hout
      · exact .inr (.inr (.inl (List.mem_cons_of_mem p hanc)))
      · exact .inr (.inr (.inr ⟨u', List.mem_cons_of_mem u hu', v', hv', hne, hup⟩))

end Wooded
end Links
end FlowStudio.Layout
