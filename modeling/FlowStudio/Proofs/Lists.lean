import Mathlib.Data.List.Nodup
import Mathlib.Data.List.Perm.Subperm

/-! Lists without duplicates, the places of their members, and the largest of these. -/

namespace FlowStudio

section
variable {α : Type} [BEq α] [LawfulBEq α]

theorem nodup_eraseDups (xs : List α) : xs.eraseDups.Nodup := by
  match xs with
  | [] => exact .nil
  | x :: xs =>
    rw [List.eraseDups_cons, List.nodup_cons]
    exact ⟨by simp, nodup_eraseDups _⟩
termination_by xs.length
decreasing_by exact Nat.lt_succ_of_le (List.length_filter_le _ xs)

theorem idxOf_lt_of_pairwise {R : α → α → Prop} {xs : List α} {x y : α} (h : xs.Pairwise R)
    (hx : x ∈ xs) (hy : y ∈ xs) (hne : x ≠ y) (hyx : ¬R y x) : xs.idxOf x < xs.idxOf y := by
  by_contra hle
  rcases Nat.lt_or_eq_of_le (Nat.le_of_not_lt hle) with hlt | heq
  · have hpair := List.pairwise_iff_getElem.mp h _ _ (List.idxOf_lt_length_iff.mpr hy)
      (List.idxOf_lt_length_iff.mpr hx) hlt
    simp only [List.getElem_idxOf] at hpair
    exact hyx hpair
  · exact hne ((List.idxOf_inj hy).mp heq).symm

end

theorem filter_append_filter_not {α : Type} {p : α → Bool} {xs : List α}
    (h : xs.Pairwise fun x y => p y = true → p x = true) :
    xs.filter p ++ xs.filter (!p ·) = xs := by
  induction xs with
  | nil => rfl
  | cons x xs ih =>
    obtain ⟨hx, hxs⟩ := List.pairwise_cons.mp h
    cases hp : p x with
    | true => simp [hp, ih hxs]
    | false =>
      have hnone : ∀ y ∈ xs, p y = false := by
        intro y hy
        exact Bool.eq_false_iff.mpr fun hpy => Bool.false_ne_true (hp.symm.trans (hx y hy hpy))
      have hp' : ∀ y ∈ x :: xs, p y = false := List.forall_mem_cons.mpr ⟨hp, hnone⟩
      rw [List.filter_eq_nil_iff.mpr (by simpa using hp'), List.filter_eq_self.mpr (by simpa using hp')]
      rfl

theorem length_le_of_nodup {n : Nat} {vs : List Nat} (hnodup : vs.Nodup) (h : ∀ v ∈ vs, v < n) :
    vs.length ≤ n := by
  have hsub : vs ⊆ List.range n := fun v hv => List.mem_range.mpr (h v hv)
  have hle := (List.subperm_of_subset hnodup hsub).length_le
  rwa [List.length_range] at hle

theorem lookup_eq_of_mem {α β : Type} [BEq α] [LawfulBEq α] {entries : List (α × β)} {k : α} {b : β}
    (hn : (entries.map Prod.fst).Nodup) (h : (k, b) ∈ entries) : entries.lookup k = some b := by
  have hsome := List.lookup_isSome_iff.mpr ⟨(k, b), h, beq_self_eq_true k⟩
  obtain ⟨c, hc⟩ := Option.isSome_iff_exists.mp hsome
  obtain ⟨before, after, heq, -⟩ := List.lookup_eq_some_iff.mp hc
  have hmem : (k, c) ∈ entries := heq ▸ List.mem_append_right _ List.mem_cons_self
  rw [hc, Prod.mk.inj (List.inj_on_of_nodup_map hn hmem h rfl) |>.2]

theorem max?_cons_zero (ks : List Nat) : (0 :: ks).max? = some (ks.foldl max 0) := rfl

theorem le_foldl_max {ks : List Nat} {k : Nat} (h : k ∈ ks) : k ≤ ks.foldl max 0 :=
  (List.max?_eq_some_iff.mp (max?_cons_zero ks)).2 k (List.mem_cons_of_mem 0 h)

theorem foldl_max_mem {ks : List Nat} (h : ks.foldl max 0 ≠ 0) : ks.foldl max 0 ∈ ks :=
  (List.mem_cons.mp (List.max?_eq_some_iff.mp (max?_cons_zero ks)).1).resolve_left h

/-- A stable sort leaves what it need not reorder as it was. -/
theorem pairwise_mergeSort_stable {α : Type} (le : α → α → Bool) {R : α → α → Prop} {xs : List α}
    (htrans : ∀ a b c, le a b → le b c → le a c) (htotal : ∀ a b, le a b || le b a)
    (h : xs.Pairwise R) : (xs.mergeSort le).Pairwise fun a b => le a b ∧ (le b a → R a b) := by
  have hperm := List.mergeSort_perm xs.zipIdx (List.zipIdxLE le)
  have hsorted := List.pairwise_mergeSort (List.zipIdxLE_trans htrans) (List.zipIdxLE_total htotal)
    xs.zipIdx
  have hplaces : (xs.zipIdx.mergeSort (List.zipIdxLE le)).Pairwise fun a b => a.2 ≠ b.2 := by
    rw [hperm.pairwise_iff Ne.symm, ← List.pairwise_map (f := Prod.snd), List.zipIdx_map_snd]
    exact List.nodup_range'
  rw [← List.mergeSort_zipIdx, List.pairwise_map]
  refine (hsorted.and hplaces).imp_of_mem fun {a b} ha hb ⟨hab, hne⟩ => ?_
  obtain ⟨x, i⟩ := a
  obtain ⟨y, j⟩ := b
  obtain ⟨-, hi, hx⟩ := List.mem_zipIdx (hperm.mem_iff.mp ha)
  obtain ⟨-, hj, hy⟩ := List.mem_zipIdx (hperm.mem_iff.mp hb)
  rw [List.zipIdxLE] at hab
  split at hab
  · next hxy =>
    refine ⟨hxy, fun hyx => ?_⟩
    rw [if_pos hyx, decide_eq_true_iff] at hab
    simpa [hx, hy] using List.pairwise_iff_getElem.mp h i j (by simpa using hi) (by simpa using hj)
      (Nat.lt_of_le_of_ne hab hne)
  · contradiction

end FlowStudio
