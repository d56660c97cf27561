import FlowStudio.Proofs.Layout.Ancestors

/-! The forest of links without circles: inside each node stand all those that have it as parent. -/

namespace FlowStudio.Layout
namespace Links
variable {links : Links} {parent : Option Nat} {u v : Nat}

theorem mem_under_iff : v ∈ links.under parent ↔ v < links.length ∧ links.up v = parent := by
  have hmem : ∀ p w, (p, w) ∈ links.zipIdx ↔ w < links.length ∧ links.up w = p := by
    intro p w
    rw [List.mk_mem_zipIdx_iff_getElem?, List.getElem?_eq_some_iff, up, ← exists_prop]
    exact exists_congr fun hw => by rw [List.getElem?_eq_getElem hw, Option.join_some]
  simp only [under, List.mem_filterMap, Prod.exists, hmem]
  constructor
  · rintro ⟨p, w, ⟨hlt, hup⟩, h⟩
    split at h
    · next hp => exact Option.some.inj h ▸ ⟨hlt, hup.trans hp⟩
    · exact absurd h.symm (Option.some_ne_none v)
  · rintro ⟨hlt, hup⟩
    exact ⟨parent, v, ⟨hlt, hup⟩, if_pos rfl⟩

theorem mem_under_some_iff : u ∈ links.under (some v) ↔ links.IsParent v u :=
  mem_under_iff.trans ⟨And.right, fun h => ⟨lt_of_isParent h, h⟩⟩

def inside (links : Links) (v : Nat) : Forest :=
  Forest.grow links links.length (links.under (some v))

end Links

namespace Forest
variable {links : Links}

theorem ofList_congr {f g : Nat → Forest} {vs : List Nat} (h : ∀ v ∈ vs, f v = g v) :
    ofList f vs = ofList g vs := by
  induction vs with
  | nil => rfl
  | cons v vs ih =>
    rw [List.forall_mem_cons] at h
    rw [ofList, ofList, h.1, ih h.2]

theorem grow_succ (hw : links.Wooded) {fuel : Nat} {vs : List Nat}
    (hlt : ∀ v ∈ vs, v < links.length)
    (hfuel : ∀ v ∈ vs, links.length ≤ fuel + (links.ancestors v).length) :
    grow links (fuel + 1) vs = grow links fuel vs := by
  induction fuel generalizing vs with
  | zero =>
    -- no node has as many ancestors as there are nodes
    have hnil : vs = [] := List.eq_nil_iff_forall_not_mem.mpr fun v hv => by
      have hle := hfuel v hv
      have hlen := hw.length_ancestors_lt (hlt v hv)
      omega
    subst hnil
    rfl
  | succ fuel ih =>
    refine ofList_congr fun v hv => ih (fun u hu => (Links.mem_under_iff.mp hu).1) fun u hu => ?_
    rw [hw.ancestors_of_isParent (Links.mem_under_some_iff.mp hu), List.length_cons]
    have hle := hfuel v hv
    omega

theorem grow_eq_ofList (hw : links.Wooded) {vs : List Nat} (hlt : ∀ v ∈ vs, v < links.length) :
    grow links links.length vs = ofList links.inside vs := by
  cases hn : links.length with
  | zero =>
    have hnil : vs = [] := List.eq_nil_iff_forall_not_mem.mpr fun v hv => by
      have hv := hlt v hv
      omega
    subst hnil
    rfl
  | succ fuel =>
    refine ofList_congr fun v hv => ?_
    rw [Links.inside, hn]
    refine (grow_succ hw (fun u hu => (Links.mem_under_iff.mp hu).1) fun u hu => ?_).symm
    rw [hw.ancestors_of_isParent (Links.mem_under_some_iff.mp hu), List.length_cons]
    omega

end Forest

namespace Links.Wooded
variable {links : Links} (hw : links.Wooded)
include hw

theorem forest_eq : links.forest = .ofList links.inside (links.under none) :=
  Forest.grow_eq_ofList hw fun _ hv => (mem_under_iff.mp hv).1

theorem inside_eq (v : Nat) : links.inside v = .ofList links.inside (links.under (some v)) :=
  Forest.grow_eq_ofList hw fun _ hv => (mem_under_iff.mp hv).1

end Links.Wooded
end FlowStudio.Layout
