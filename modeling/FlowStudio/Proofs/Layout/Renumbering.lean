import FlowStudio.Proofs.Layout.Scopes
import Mathlib.Data.List.Forall2

/-! Scopes whose members go by other numbers. A scope is placed by the sizes of its members and the
edges between their places in it, and the numbers alone make no difference. -/

namespace FlowStudio.Layout

theorem map_eq_of_forall₂ {β γ δ : Type} {S : β → γ → Prop} {f : β → δ} {g : γ → δ} {xs : List β}
    {ys : List γ} (h : List.Forall₂ S xs ys) (hfg : ∀ x y, S x y → f x = g y) :
    xs.map f = ys.map g := by
  have hmaps : List.Forall₂ Eq (xs.map f) (ys.map g) := List.rel_map (fun x y => hfg x y) h
  rwa [List.forall₂_eq_eq_eq] at hmaps

theorem exists_of_mem_of_forall₂ {β γ : Type} {S : β → γ → Prop} {xs : List β} {ys : List γ}
    (h : List.Forall₂ S xs ys) {x : β} (hx : x ∈ xs) : ∃ y ∈ ys, S x y := by
  induction h with
  | nil => exact absurd hx List.not_mem_nil
  | cons hxy _ ih =>
    rcases List.mem_cons.mp hx with rfl | hx
    · exact ⟨_, List.mem_cons_self, hxy⟩
    · obtain ⟨y, hy, hrel⟩ := ih hx
      exact ⟨y, List.mem_cons_of_mem _ hy, hrel⟩

theorem filterMap_eq_of_forall₂ {β γ δ : Type} {S : β → γ → Prop} {f : β → Option δ}
    {g : γ → Option δ} {xs : List β} {ys : List γ} (h : List.Forall₂ S xs ys)
    (hfg : ∀ x y, S x y → f x = g y) : xs.filterMap f = ys.filterMap g := by
  induction h with
  | nil => rfl
  | cons hxy _ ih => rw [List.filterMap_cons, List.filterMap_cons, hfg _ _ hxy, ih]

theorem forall₂_of_filterMap {β γ δ ε : Type} {P : β → Prop} {Q : γ → Prop} {S : δ → ε → Prop}
    {f : β → Option δ} {g : γ → Option ε} {xs : List β} {ys : List γ}
    (hf : ∀ x ∈ xs, P x ∧ ∃ a, f x = some a) (hg : ∀ y ∈ ys, Q y ∧ ∃ b, g y = some b)
    (h : List.Forall₂ S (xs.filterMap f) (ys.filterMap g)) :
    List.Forall₂ (fun x y => P x ∧ Q y ∧ ∃ a b, f x = some a ∧ g y = some b ∧ S a b) xs ys := by
  induction xs generalizing ys with
  | nil =>
    cases ys with
    | nil => exact .nil
    | cons y ys =>
      obtain ⟨-, b, hb⟩ := hg y List.mem_cons_self
      rw [List.filterMap_cons_some hb] at h
      cases h
  | cons x xs ih =>
    obtain ⟨hP, a, ha⟩ := hf x List.mem_cons_self
    rw [List.filterMap_cons_some ha] at h
    cases ys with
    | nil => cases h
    | cons y ys =>
      obtain ⟨hQ, b, hb⟩ := hg y List.mem_cons_self
      rw [List.filterMap_cons_some hb] at h
      obtain ⟨hab, hrest⟩ := List.forall₂_cons.mp h
      refine .cons ⟨hP, hQ, a, b, ha, hb, hab⟩ (ih ?_ ?_ hrest)
      · exact fun x hx => hf x (List.mem_cons_of_mem _ hx)
      · exact fun y hy => hg y (List.mem_cons_of_mem _ hy)

variable {α : Type} {R : Nat → Nat → Prop}

structure Member.Alike (R : Nat → Nat → Prop) (m m' : Member α) : Prop where
  index : R m.index m'.index
  size_eq : m.size = m'.size

structure Placed.Alike (R : Nat → Nat → Prop) (p p' : Placed α) : Prop where
  index : R p.index p'.index
  size_eq : p.size = p'.size
  position_eq : p.position = p'.position

/-- Scopes that differ in the numbers of their members only, and in these as `R` says. -/
structure Scope.Alike (R : Nat → Nat → Prop) (s s' : Scope α) : Prop where
  placed : List.Forall₂ (Placed.Alike R) s.placed s'.placed
  extent_eq : s.extent = s'.extent

variable [Scalar α]

theorem forall₂_corners {members members' : List (Member α)}
    (h : List.Forall₂ (Member.Alike R) members members') (centres : List (Point α)) :
    List.Forall₂ (Placed.Alike R) (corners members centres) (corners members' centres) := by
  induction h generalizing centres with
  | nil => exact .nil
  | cons hm _ ih =>
    refine .cons ⟨hm.index, hm.size_eq, ?_⟩ (ih centres.tail)
    rw [hm.size_eq]

theorem alike_settle {boxes boxes' : List (Placed α)}
    (h : List.Forall₂ (Placed.Alike R) boxes boxes') : (settle boxes).Alike R (settle boxes') := by
  have hleft : boxes.map (·.position.x) = boxes'.map (·.position.x) :=
    map_eq_of_forall₂ h fun p p' hp => by rw [hp.position_eq]
  have htop : boxes.map (·.position.y) = boxes'.map (·.position.y) :=
    map_eq_of_forall₂ h fun p p' hp => by rw [hp.position_eq]
  have hright : (boxes.map fun b => b.position.x + b.size.width) =
      boxes'.map fun b => b.position.x + b.size.width :=
    map_eq_of_forall₂ h fun p p' hp => by rw [hp.position_eq, hp.size_eq]
  have hbottom : (boxes.map fun b => b.position.y + b.size.height) =
      boxes'.map fun b => b.position.y + b.size.height :=
    map_eq_of_forall₂ h fun p p' hp => by rw [hp.position_eq, hp.size_eq]
  cases h with
  | nil => exact ⟨.nil, rfl⟩
  | cons hb hbs =>
    unfold settle
    rw [hleft, htop, hright, hbottom]
    -- both sides are moved by the same corner, as there is a first box
    refine ⟨List.rel_map (fun p p' hp => ⟨hp.index, hp.size_eq, ?_⟩) (.cons hb hbs), rfl⟩
    rw [hp.position_eq]

theorem alike_placeScope (placer : Placer α) {pairs pairs' : List Arc}
    {members members' : List (Member α)} (h : List.Forall₂ (Member.Alike R) members members')
    (harcs : scopeArcs (members.map Member.index) pairs =
      scopeArcs (members'.map Member.index) pairs') :
    (placeScope placer pairs members).Alike R (placeScope placer pairs' members') := by
  have hsizes : members.map Member.size = members'.map Member.size :=
    map_eq_of_forall₂ h fun m m' hm => hm.size_eq
  rw [placeScope_eq, placeScope_eq, hsizes, harcs]
  apply alike_settle
  exact forall₂_corners h _

end FlowStudio.Layout
