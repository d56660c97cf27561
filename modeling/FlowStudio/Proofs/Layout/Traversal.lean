import FlowStudio.Layout.InPlace
import FlowStudio.Proofs.Layout.Circles
import FlowStudio.Proofs.Layout.Inside
import FlowStudio.Proofs.Lists

/-! The order that the stack gives is that of the recursion: what stands inside a node, in input order,
and then the node. In links without circles every node comes once and before its parent. -/

namespace FlowStudio.Layout
variable {links : Links} {u v w : Nat} {vs : List Nat} {f : Forest}

inductive Forest.Grown (children : Nat → List Nat) : List Nat → Forest → Prop
  | nil : Grown children [] .nil
  | node {v : Nat} {vs : List Nat} {inside rest : Forest} : Grown children (children v) inside →
    Grown children vs rest → Grown children (v :: vs) (.node v inside rest)

theorem Forest.Grown.ofList {children : Nat → List Nat} {inside : Nat → Forest}
    (h : ∀ v ∈ vs, Grown children (children v) (inside v)) : Grown children vs (.ofList inside vs) := by
  induction vs with
  | nil => exact .nil
  | cons v vs ih =>
    rw [List.forall_mem_cons] at h
    exact .node h.1 (ih h.2)

theorem Links.pairwise_under (links : Links) (parent : Option Nat) :
    (links.under parent).Pairwise (· < ·) := by
  rw [under_eq_filter]
  exact List.pairwise_lt_range.filter _

namespace Links.Wooded
variable (hw : links.Wooded)
include hw

theorem grown_inside (v : Nat) : Forest.Grown links.children (links.children v) (links.inside v) := by
  induction v using hw.wellFounded_child.induction with
  | h v ih =>
    rw [hw.inside_eq]
    exact .ofList fun u hu => ih u (mem_under_some_iff.mp hu)

theorem grown_forest : Forest.Grown links.children (links.under none) links.forest := by
  rw [hw.forest_eq]
  exact .ofList fun v _ => hw.grown_inside v

theorem not_leads_back (h : links.IsParent u v) : ¬links.Leads u v := fun hback => by
  have hcircle : links.OnCircle v := .head' h hback
  exact hw.wellFounded.transGen.irrefl.irrefl v (Relation.transGen_swap.mp hcircle)

theorem eq_of_leads (hu : links.Leads w u) (hv : links.Leads w v) (hup : links.up u = links.up v) :
    u = v := by
  have hstep : ∀ {u v}, links.up u = links.up v → links.Leads u v → u = v := by
    intro u v hup h
    rcases h.cases_head with heq | ⟨p, hparent, hrest⟩
    · exact heq
    · exact absurd hrest (hw.not_leads_back (hup.symm.trans hparent))
  have hunique : Relator.RightUnique fun v u => links.IsParent u v := fun _ _ _ => eq_of_isParent
  rcases Relation.ReflTransGen.total_of_right_unique hunique hu hv with h | h
  · exact hstep hup h
  · exact (hstep hup.symm h).symm

end Links.Wooded

namespace Forest.Grown

theorem mem_postorder_iff (h : Grown links.children vs f) :
    v ∈ f.postorder ↔ ∃ u ∈ vs, links.Leads v u := by
  induction h with
  | nil => simp [postorder]
  | @node w vs inside rest _ _ ihinside ihrest =>
    -- a walk up to a node starts there or comes through one of its children
    have hbelow : links.Leads v w ↔ v = w ∨ ∃ u ∈ links.children w, links.Leads v u := by
      rw [Links.Leads, Relation.ReflTransGen.cases_tail_iff, @eq_comm _ w v]
      simp only [Links.children, Links.mem_under_some_iff, and_comm]
    rw [postorder, List.mem_append, List.mem_cons, ihinside, ihrest, List.exists_mem_cons_iff, hbelow,
      or_left_comm, or_assoc]

theorem pairwise_postorder (h : Grown links.children vs f) (hw : links.Wooded) (hnodup : vs.Nodup)
    {parent : Option Nat} (hup : ∀ v ∈ vs, links.up v = parent) :
    f.postorder.Pairwise fun a b => ¬links.Leads b a := by
  induction h generalizing parent with
  | nil => exact .nil
  | @node w vs inside rest hinside hrest ihinside ihrest =>
    obtain ⟨hnew, hnodup⟩ := List.nodup_cons.mp hnodup
    rw [List.forall_mem_cons] at hup
    have hbeside : ∀ b ∈ rest.postorder, ¬links.Leads b w := by
      intro b hb hbw
      obtain ⟨u, hu, hbu⟩ := hrest.mem_postorder_iff.mp hb
      exact hnew (hw.eq_of_leads hbw hbu (hup.1.trans (hup.2 u hu).symm) ▸ hu)
    have hlast : ∀ a ∈ inside.postorder, ¬links.Leads w a ∧ links.Leads a w := by
      intro a ha
      obtain ⟨u, hu, hau⟩ := hinside.mem_postorder_iff.mp ha
      have hparent := Links.mem_under_some_iff.mp hu
      exact ⟨fun hwa => hw.not_leads_back hparent (hwa.trans hau), hau.tail hparent⟩
    refine List.pairwise_append.mpr ⟨?_, List.pairwise_cons.mpr ⟨hbeside, ?_⟩, fun a ha b hb => ?_⟩
    · exact ihinside (Links.nodup_under links _) fun u hu => Links.mem_under_some_iff.mp hu
    · exact ihrest hnodup hup.2
    · rcases List.mem_cons.mp hb with rfl | hb
      · exact (hlast a ha).1
      · exact fun hba => hbeside b hb (hba.trans (hlast a ha).2)

theorem run_eq {children : Nat → List Nat} (h : Grown children vs f) (stack : List Visit)
    (order : List Nat) (fuel : Nat) :
    Traversal.run children (fuel + 2 * f.postorder.length) ⟨vs.map Traversal.closed ++ stack, order⟩ =
      Traversal.run children fuel ⟨stack, order ++ f.postorder⟩ := by
  induction h generalizing stack order fuel with
  | nil => simp [postorder]
  | @node w vs inside rest hinside hrest ihinside ihrest =>
    have hcount : fuel + 2 * (Forest.node w inside rest).postorder.length =
        fuel + 2 * rest.postorder.length + 1 + 2 * inside.postorder.length + 1 := by
      simp only [postorder, List.length_append, List.length_cons]
      omega
    calc
      _ = Traversal.run children (fuel + 2 * rest.postorder.length + 1 + 2 * inside.postorder.length)
          ⟨(children w).map Traversal.closed ++ (⟨w, true⟩ :: (vs.map Traversal.closed ++ stack)),
            order⟩ := by rw [hcount]; rfl
      _ = Traversal.run children (fuel + 2 * rest.postorder.length + 1)
          ⟨⟨w, true⟩ :: (vs.map Traversal.closed ++ stack), order ++ inside.postorder⟩ :=
        ihinside _ _ _
      _ = Traversal.run children (fuel + 2 * rest.postorder.length)
          ⟨vs.map Traversal.closed ++ stack, order ++ inside.postorder ++ [w]⟩ := rfl
      _ = Traversal.run children fuel
          ⟨stack, order ++ inside.postorder ++ [w] ++ rest.postorder⟩ := ihrest _ _ _
      _ = _ := by simp [postorder]

end Forest.Grown

namespace Links.Wooded
variable (hw : links.Wooded)
include hw

theorem pairwise_forest : links.forest.postorder.Pairwise fun a b => ¬links.Leads b a :=
  hw.grown_forest.pairwise_postorder hw (nodup_under links none) fun _ hv => (mem_under_iff.mp hv).2

theorem postorder_forest_perm : links.forest.postorder.Perm (List.range links.length) := by
  have hnodup : links.forest.postorder.Nodup := hw.pairwise_forest.imp fun h => by
    rintro rfl
    exact h .refl
  refine (List.perm_ext_iff_of_nodup hnodup List.nodup_range).mpr fun v => ?_
  rw [hw.grown_forest.mem_postorder_iff, List.mem_range]
  constructor
  · rintro ⟨u, hu, hvu⟩
    rcases hvu.cases_head with rfl | ⟨p, hparent, -⟩
    · exact (mem_under_iff.mp hu).1
    · exact lt_of_isParent hparent
  · intro hv
    induction v using hw.wellFounded.induction with
    | h v ih =>
      cases hup : links.up v with
      | none => exact ⟨v, mem_under_iff.mpr ⟨hv, hup⟩, .refl⟩
      | some p =>
        obtain ⟨u, hu, hpu⟩ := ih p hup (hw.lt_length hup)
        exact ⟨u, hu, .head hup hpu⟩

theorem run_traversal (fuel : Nat) :
    links.traversal.run links.children (fuel + 2 * links.length) = ⟨[], links.forest.postorder⟩ := by
  have hlen : links.forest.postorder.length = links.length :=
    hw.postorder_forest_perm.length_eq.trans List.length_range
  have hrun := hw.grown_forest.run_eq [] [] fuel
  rw [hlen, List.append_nil, List.nil_append] at hrun
  refine hrun.trans ?_
  cases fuel <;> rfl

theorem postOrder_eq : links.postOrder = links.forest.postorder := by
  rw [postOrder, ← Nat.zero_add (2 * links.length), hw.run_traversal]

theorem postOrder_perm : links.postOrder.Perm (List.range links.length) :=
  hw.postOrder_eq ▸ hw.postorder_forest_perm

theorem mem_postOrder_iff : v ∈ links.postOrder ↔ v < links.length := by
  rw [hw.postOrder_perm.mem_iff, List.mem_range]

theorem idxOf_postOrder_lt (h : links.IsParent u v) :
    links.postOrder.idxOf v < links.postOrder.idxOf u := by
  have hne : v ≠ u := by
    rintro rfl
    exact hw.not_leads_back h .refl
  rw [hw.postOrder_eq]
  refine idxOf_lt_of_pairwise hw.pairwise_forest ?_ ?_ hne fun hnot => hnot (.single h)
  · rw [hw.postorder_forest_perm.mem_iff, List.mem_range]
    exact lt_of_isParent h
  · rw [hw.postorder_forest_perm.mem_iff, List.mem_range]
    exact hw.lt_length h

theorem mem_before_of_isParent {before later : List Nat} (h : links.postOrder = before ++ u :: later)
    (hv : links.IsParent u v) : v ∈ before := by
  by_contra hnew
  have hlt := hw.idxOf_postOrder_lt hv
  rw [h, List.idxOf_append, List.idxOf_append, if_neg hnew] at hlt
  split at hlt
  · next hu =>
    have hbefore := List.idxOf_lt_length_iff.mpr hu
    omega
  · rw [List.idxOf_cons_self] at hlt
    omega

theorem scopes_perm : ((links.postOrder.map some ++ [none]).flatMap links.under).Perm
    (List.range links.length) := by
  have hparents : (links.postOrder.map some ++ [none]).Nodup := by
    have hnodup := hw.postOrder_perm.nodup_iff.mpr List.nodup_range
    refine (hnodup.map (Option.some_injective Nat)).append (List.nodup_singleton none) ?_
    simp
  have hnodup : ((links.postOrder.map some ++ [none]).flatMap links.under).Nodup := by
    refine List.nodup_flatMap.mpr ⟨fun p _ => nodup_under links p, hparents.imp fun hne v hv hv' => ?_⟩
    exact hne ((mem_under_iff.mp hv).2.symm.trans (mem_under_iff.mp hv').2)
  refine (List.perm_ext_iff_of_nodup hnodup List.nodup_range).mpr fun v => ?_
  rw [List.mem_flatMap, List.mem_range]
  constructor
  · rintro ⟨p, -, hv⟩
    exact (mem_under_iff.mp hv).1
  · intro hv
    refine ⟨links.up v, ?_, mem_under_iff.mpr ⟨hv, rfl⟩⟩
    cases hup : links.up v with
    | none => exact List.mem_append_right _ List.mem_cons_self
    | some u =>
      have hu := hw.mem_postOrder_iff.mpr (hw.lt_length hup)
      exact List.mem_append_left _ (List.mem_map_of_mem hu)

end Links.Wooded
end FlowStudio.Layout
