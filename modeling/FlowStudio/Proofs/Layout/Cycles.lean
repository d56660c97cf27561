import FlowStudio.Layout.Nesting
import FlowStudio.Proofs.Lists
import Mathlib.Data.List.Perm.Subperm

/-! Once every circle is cut, each walk up the links comes to an end. -/

namespace FlowStudio.Layout

namespace Links
variable {links : Links} {u v : Nat}

def IsParent (links : Links) (u v : Nat) : Prop := links.up v = some u

theorem lt_of_isParent (h : links.IsParent u v) : v < links.length := by
  by_contra hv
  rw [IsParent, up, List.getElem?_eq_none (Nat.le_of_not_lt hv)] at h
  exact Option.some_ne_none _ h.symm

theorem up_cutAt (links : Links) (cut : Option Nat) (v : Nat) :
    (links.cutAt cut).up v = if cut = some v then none else links.up v := by
  cases cut with
  | none => rfl
  | some w =>
    rw [up, cutAt, List.getElem?_set, up]
    by_cases h : w = v
    · by_cases hw : w < links.length <;> simp [h, h ▸ hw]
    · simp [h]

theorem isParent_of_cutAt {cut : Option Nat} (h : (links.cutAt cut).IsParent u v) :
    links.IsParent u v := by
  rw [IsParent, up_cutAt] at h
  split at h
  · exact absurd h.symm (Option.some_ne_none u)
  · exact h

theorem length_cutAt (links : Links) (cut : Option Nat) :
    (links.cutAt cut).length = links.length := by
  cases cut with
  | none => rfl
  | some u => exact List.length_set

end Links

/-- A walk up the links met these nodes, the last one foremost, and came to `next`. -/
def Trail (links : Links) : Option Nat → List Nat → Prop
  | _, [] => True
  | next, v :: vs => links.up v = next ∧ Trail links (some v) vs

namespace Trail
variable {links : Links} {next : Option Nat} {seen : List Nat}

theorem lt_length (h : Trail links next seen) (hnext : next ≠ none) :
    ∀ v ∈ seen, v < links.length := by
  induction seen generalizing next with
  | nil => exact fun _ hv => absurd hv List.not_mem_nil
  | cons v vs ih =>
    rintro u (_ | ⟨_, hu⟩)
    · obtain ⟨w, rfl⟩ := Option.ne_none_iff_exists'.mp hnext
      exact Links.lt_of_isParent h.1
    · exact ih h.2 (Option.some_ne_none v) u hu

theorem next_eq_none (h : Trail links next seen) (hnodup : seen.Nodup)
    (hlen : links.length < seen.length) : next = none := by
  by_contra hnext
  exact Nat.not_lt.mpr (length_le_of_nodup hnodup (h.lt_length hnext)) hlen

theorem acc {cut : Links} (h : Trail links next seen)
    (hcut : ∀ u v, cut.IsParent u v → links.IsParent u v)
    (hnext : ∀ u, next = some u → Acc cut.IsParent u) : ∀ v ∈ seen, Acc cut.IsParent v := by
  induction seen generalizing next with
  | nil => exact fun _ hv => absurd hv List.not_mem_nil
  | cons v vs ih =>
    have hv : Acc cut.IsParent v := ⟨v, fun u hu => hnext u (h.1.symm.trans (hcut u v hu))⟩
    rintro u (_ | ⟨_, hu⟩)
    · exact hv
    · exact ih h.2 (fun w hw => Option.some.inj hw ▸ hv) u hu

end Trail

inductive Climbs (links : Links) (done : List Nat) : Option Nat → List Nat → Walk → Prop
  | top {seen : List Nat} : Climbs links done none seen ⟨seen, none⟩
  | done {v : Nat} {seen : List Nat} : v ∈ done → Climbs links done (some v) seen ⟨seen, none⟩
  | round {v : Nat} {seen : List Nat} :
    v ∉ done → v ∈ seen → Climbs links done (some v) seen ⟨seen, some v⟩
  | up {v : Nat} {seen : List Nat} {w : Walk} :
    v ∉ done → v ∉ seen → Climbs links done (links.up v) (v :: seen) w →
      Climbs links done (some v) seen w

inductive Scans : List Nat → Links → List Nat → Links → Prop
  | nil {links : Links} {done : List Nat} : Scans [] links done links
  | cons {v : Nat} {vs done : List Nat} {links cut : Links} {w : Walk} :
    Climbs links done (some v) [] w → Scans vs (links.cutAt w.cut) (w.seen ++ done) cut →
      Scans (v :: vs) links done cut

section
variable {links : Links} {done seen : List Nat} {next : Option Nat} {w : Walk}

theorem climbs_walk {fuel : Nat} (h : Trail links next seen) (hn : seen.Nodup)
    (hfuel : links.length < fuel + seen.length) :
    Climbs links done next seen (walk links done fuel next seen) := by
  induction fuel generalizing next seen with
  | zero =>
    obtain rfl := h.next_eq_none hn (by omega)
    exact .top
  | succ fuel ih =>
    cases next with
    | none => exact .top
    | some v =>
      rw [walk]
      split
      · next hdone => exact .done (List.contains_iff_mem.mp hdone)
      · next hdone =>
        have hnew : v ∉ done := fun hv => hdone (List.contains_iff_mem.mpr hv)
        split
        · next hseen => exact .round hnew (List.contains_iff_mem.mp hseen)
        · next hseen =>
          have hv : v ∉ seen := fun hv => hseen (List.contains_iff_mem.mpr hv)
          have hrest : Trail links (links.up v) (v :: seen) := ⟨rfl, h⟩
          exact .up hnew hv (ih hrest (List.nodup_cons.mpr ⟨hv, hn⟩) (by simp; omega))

theorem scans_cutFrom (vs : List Nat) (links : Links) (done : List Nat) :
    Scans vs links done (cutFrom vs links done) := by
  induction vs generalizing links done with
  | nil => exact .nil
  | cons v vs ih =>
    have hstart : Trail links (some v) [] := trivial
    exact .cons (climbs_walk hstart .nil (Nat.lt_succ_self _)) (ih _ _)

/-- What a walk comes to: a row of new nodes and, after the last of them, nothing, or a node that is
done, or one of the row, which is the one to cut at. -/
structure Climbed (links : Links) (done seen : List Nat) (w : Walk) : Prop where
  nodup : w.seen.Nodup
  new : ∀ v ∈ w.seen, v ∉ done
  goes_on : seen <:+ w.seen
  ends : ∃ last, Trail links last w.seen ∧ (∀ u, last = some u → u ∈ done ∨ u ∈ w.seen) ∧
    ∀ u, w.cut = some u ↔ last = some u ∧ u ∈ w.seen

theorem Climbs.climbed (h : Climbs links done next seen w) (htrail : Trail links next seen)
    (hn : seen.Nodup) (hnew : ∀ v ∈ seen, v ∉ done) : Climbed links done seen w := by
  induction h with
  | top => exact ⟨hn, hnew, List.suffix_rfl, none, htrail, by simp, by simp⟩
  | @done v seen hdone =>
    refine ⟨hn, hnew, List.suffix_rfl, some v, htrail, fun u hu => ?_, fun u => ?_⟩
    · exact .inl (Option.some.inj hu ▸ hdone)
    · have hv : v ∉ seen := fun hv => hnew v hv hdone
      simp only [reduceCtorEq, false_iff, Option.some.injEq]
      rintro ⟨rfl, hu⟩
      exact hv hu
  | @round v seen _ hseen =>
    refine ⟨hn, hnew, List.suffix_rfl, some v, htrail, fun u hu => ?_, fun u => ?_⟩
    · exact .inr (Option.some.inj hu ▸ hseen)
    · refine ⟨fun hu => ⟨hu, Option.some.inj hu ▸ hseen⟩, And.left⟩
  | @up v seen w hdone hseen _ ih =>
    have hrest := ih ⟨rfl, htrail⟩ (List.nodup_cons.mpr ⟨hseen, hn⟩)
      (List.forall_mem_cons.mpr ⟨hdone, hnew⟩)
    exact { hrest with goes_on := (List.suffix_cons v seen).trans hrest.goes_on }

theorem Climbs.of_start {v : Nat} (h : Climbs links done (some v) [] w) :
    (v ∈ done ∧ w = ⟨[], none⟩) ∨ Climbed links done [v] w := by
  cases h with
  | done hdone => exact .inl ⟨hdone, rfl⟩
  | round _ hnil => exact absurd hnil List.not_mem_nil
  | up hnew _ hrest =>
    have hstart : Trail links (links.up v) [v] := ⟨rfl, trivial⟩
    exact .inr (hrest.climbed hstart (by simp) (by simpa using hnew))

end

theorem isParent_of_cutFrom {vs : List Nat} {links : Links} {done : List Nat} {u v : Nat}
    (h : (cutFrom vs links done).IsParent u v) : links.IsParent u v := by
  induction vs generalizing links done with
  | nil => exact h
  | cons w vs ih => exact Links.isParent_of_cutAt (ih h)

theorem length_cutFrom (vs : List Nat) (links : Links) (done : List Nat) :
    (cutFrom vs links done).length = links.length := by
  induction vs generalizing links done with
  | nil => rfl
  | cons v vs ih => exact (ih _ _).trans (Links.length_cutAt _ _)

theorem Scans.acc {vs done : List Nat} {links cut : Links} (h : Scans vs links done cut)
    (hdone : ∀ v ∈ done, Acc links.IsParent v) (v : Nat) (hv : v ∈ vs ∨ v ∈ done) :
    Acc cut.IsParent v := by
  induction h with
  | nil => exact hdone v (hv.resolve_left List.not_mem_nil)
  | @cons start vs done links cut w hclimbs _ ih =>
    have hkeep : ∀ v ∈ done, Acc (links.cutAt w.cut).IsParent v := fun v hv =>
      Subrelation.accessible Links.isParent_of_cutAt (hdone v hv)
    rcases hclimbs.of_start with ⟨hstart, rfl⟩ | hclimbed
    · refine ih hkeep ?_
      rcases hv with (_ | ⟨_, hv⟩) | hv
      · exact .inr hstart
      · exact .inl hv
      · exact .inr hv
    · obtain ⟨last, htrail, hlast, hcut⟩ := hclimbed.ends
      -- the last node was done before, or this walk cuts its link
      have hend : ∀ u, last = some u → Acc (links.cutAt w.cut).IsParent u := by
        intro u hu
        rcases hlast u hu with hmem | hmem
        · exact hkeep u hmem
        · refine ⟨u, fun p hp => ?_⟩
          rw [Links.IsParent, Links.up_cutAt, if_pos ((hcut u).mpr ⟨hu, hmem⟩)] at hp
          exact absurd hp.symm (Option.some_ne_none p)
      have hseen := htrail.acc (fun _ _ => Links.isParent_of_cutAt) hend
      refine ih (fun u hu => (List.mem_append.mp hu).elim (hseen u) (hkeep u)) ?_
      rcases hv with (_ | ⟨_, hv⟩) | hv
      · have hstart := hclimbed.goes_on.subset (List.mem_singleton_self _)
        exact .inr (List.mem_append_left _ hstart)
      · exact .inl hv
      · exact .inr (List.mem_append_right _ hv)

theorem isParent_of_cutCycles {links : Links} {u v : Nat} (h : (cutCycles links).IsParent u v) :
    links.IsParent u v := isParent_of_cutFrom h

theorem length_cutCycles (links : Links) : (cutCycles links).length = links.length :=
  length_cutFrom _ _ _

theorem wellFounded_cutCycles (links : Links) : WellFounded (cutCycles links).IsParent := by
  refine ⟨fun v => ?_⟩
  by_cases hv : v < links.length
  · exact (scans_cutFrom _ links []).acc (by simp) v (.inl (List.mem_range.mpr hv))
  · exact ⟨v, fun u hu => absurd (Links.lt_of_isParent (isParent_of_cutCycles hu)) hv⟩

end FlowStudio.Layout
