import FlowStudio.Proofs.Layout.Ancestors
import Mathlib.Order.Nat

/-! Of every circle of links exactly one is cut, where the walk from the lowest node that leads into
the circle comes to it. -/

namespace FlowStudio.Layout
namespace Links
variable {links : Links} {s t u v w : Nat}

def Leads (links : Links) : Nat → Nat → Prop :=
  Relation.ReflTransGen fun v u => links.IsParent u v

def OnCircle (links : Links) (v : Nat) : Prop :=
  Relation.TransGen (fun v u => links.IsParent u v) v v

/-- Walking up from one node, the other is the first on a circle. -/
inductive Enters (links : Links) : Nat → Nat → Prop
  | here {v : Nat} : links.OnCircle v → links.Enters v v
  | up {u v w : Nat} :
    ¬links.OnCircle v → links.IsParent u v → links.Enters u w → links.Enters v w

theorem eq_of_isParent (hu : links.IsParent u v) (hw : links.IsParent w v) : u = w :=
  Option.some.inj (hu.symm.trans hw)

theorem OnCircle.exists_parent (h : links.OnCircle v) :
    ∃ u, links.IsParent u v ∧ links.Leads u v := Relation.TransGen.head'_iff.mp h

theorem OnCircle.leads_back (h : links.OnCircle v) (hu : links.Leads v u) : links.Leads u v := by
  induction hu with
  | refl => exact .refl
  | @tail b c _ hc ih =>
    rcases ih.cases_head with rfl | ⟨p, hp, hrest⟩
    · obtain ⟨p, hp, hrest⟩ := h.exists_parent
      exact eq_of_isParent hp hc ▸ hrest
    · exact eq_of_isParent hp hc ▸ hrest

theorem OnCircle.of_leads (h : links.OnCircle v) (hu : links.Leads v u) : links.OnCircle u :=
  (Relation.TransGen.trans_right (h.leads_back hu) h).trans_left hu

theorem Enters.onCircle (h : links.Enters s u) : links.OnCircle u := by
  induction h with
  | here hv => exact hv
  | up _ _ _ ih => exact ih

theorem Enters.leads (h : links.Enters s u) : links.Leads s u := by
  induction h with
  | here => exact .refl
  | up _ hparent _ ih => exact .head hparent ih

theorem Enters.unique (h : links.Enters s u) (h' : links.Enters s v) : u = v := by
  induction h with
  | here hs =>
    cases h' with
    | here => rfl
    | up hout => exact absurd hs hout
  | up hout hparent _ ih =>
    cases h' with
    | here hs => exact absurd hs hout
    | up _ hparent' hrest => exact ih (eq_of_isParent hparent' hparent ▸ hrest)

theorem exists_enters (hs : links.Leads s v) (hv : links.OnCircle v) :
    ∃ u, links.Enters s u ∧ links.Leads v u := by
  induction hs using Relation.ReflTransGen.head_induction_on with
  | refl => exact ⟨v, .here hv, .refl⟩
  | @head s p hparent hrest ih =>
    by_cases hs : links.OnCircle s
    · exact ⟨s, .here hs, hs.leads_back (.head hparent hrest)⟩
    · obtain ⟨u, hu, hvu⟩ := ih
      exact ⟨u, .up hs hparent hu, hvu⟩

/-- The circle of `u` is to be cut there, on the walk from `s`. -/
def Opens (links : Links) (s u : Nat) : Prop :=
  IsLeast {s | links.Leads s u} s ∧ links.Enters s u

theorem OnCircle.exists_opens (hv : links.OnCircle v) :
    ∃ s u, IsLeast {s | links.Leads s v} s ∧ links.Opens s u ∧ links.Leads v u := by
  classical
  have hleast := Set.Nonempty.isLeast_natFind (s := {s | links.Leads s v}) ⟨v, .refl⟩
  obtain ⟨u, hu, hvu⟩ := exists_enters hleast.1 hv
  refine ⟨_, u, hleast, ⟨⟨hu.leads, fun s hs => hleast.2 ?_⟩, hu⟩, hvu⟩
  exact hs.trans (hv.leads_back hvu)

theorem OnCircle.eq_of_opens (hv : links.OnCircle v) (hu : links.Leads v u) (hw : links.Leads v w)
    (hopen : links.Opens s u) (hopen' : links.Opens t w) : u = w := by
  have huw : links.Leads u w := (hv.leads_back hu).trans hw
  have hwu : links.Leads w u := (hv.leads_back hw).trans hu
  have hst : s = t := Nat.le_antisymm (hopen.1.2 (hopen'.1.1.trans hwu))
    (hopen'.1.2 (hopen.1.1.trans huw))
  exact hopen.2.unique (hst ▸ hopen'.2)

end Links

namespace Trail
variable {links cut : Links} {next : Option Nat} {vs ws : List Nat} {start u v : Nat}

theorem congr (h : Trail cut next vs) (heq : ∀ v ∈ vs, cut.up v = links.up v) :
    Trail links next vs := by
  induction vs generalizing next with
  | nil => trivial
  | cons v vs ih =>
    rw [List.forall_mem_cons] at heq
    exact ⟨heq.1.symm.trans h.1, ih h.2 heq.2⟩

theorem split (h : Trail links next (vs ++ u :: ws)) :
    Trail links next (vs ++ [u]) ∧ Trail links (some u) ws := by
  induction vs generalizing next with
  | nil => exact ⟨⟨h.1, trivial⟩, h.2⟩
  | cons v vs ih =>
    obtain ⟨hfront, hback⟩ := ih h.2
    exact ⟨⟨h.1, hfront⟩, hback⟩

theorem exists_up_eq (h : Trail links next vs) (hne : vs ≠ []) : ∃ v ∈ vs, links.up v = next := by
  cases vs with
  | nil => exact absurd rfl hne
  | cons v vs => exact ⟨v, List.mem_cons_self, h.1⟩

theorem leads (h : Trail links next (vs ++ [start])) :
    (∀ v ∈ vs ++ [start], links.Leads start v) ∧
      ∀ u, next = some u → Relation.TransGen (fun v u => links.IsParent u v) start u := by
  induction vs generalizing next with
  | nil =>
    refine ⟨fun v hv => ?_, fun u hu => .single (h.1.trans hu)⟩
    rw [List.mem_singleton.mp hv]
    exact .refl
  | cons x vs ih =>
    obtain ⟨hmet, hnext⟩ := ih h.2
    have hx := hnext x rfl
    refine ⟨fun v hv => ?_, fun u hu => hx.tail (h.1.trans hu)⟩
    rcases List.mem_cons.mp hv with rfl | hv
    · exact hx.to_reflTransGen
    · exact hmet v hv

theorem mem_of_isParent (h : Trail links next vs) (hv : v ∈ vs) (hu : links.IsParent u v) :
    u ∈ vs ∨ next = some u := by
  induction vs generalizing next with
  | nil => exact absurd hv List.not_mem_nil
  | cons x vs ih =>
    rcases List.mem_cons.mp hv with rfl | hv
    · exact .inr (h.1.symm.trans hu)
    · rcases ih h.2 hv with hmem | hx
      · exact .inl (List.mem_cons_of_mem x hmem)
      · exact .inl (Option.some.inj hx ▸ List.mem_cons_self)

theorem enters (h : Trail links (some v) vs) (hv : links.Enters v u)
    (hout : ∀ x ∈ vs, ¬links.OnCircle x) : ∀ x ∈ vs, links.Enters x u := by
  induction vs generalizing v with
  | nil => exact fun _ hx => absurd hx List.not_mem_nil
  | cons y vs ih =>
    rw [List.forall_mem_cons] at hout ⊢
    have hy : links.Enters y u := .up hout.1 h.1 hv
    exact ⟨hy, ih h.2 hy hout.2⟩

theorem enters_of_round (h : Trail links (some u) (vs ++ [start])) (hn : (vs ++ [start]).Nodup)
    (hu : u ∈ vs ++ [start]) : links.Enters start u := by
  obtain ⟨after, before, heq⟩ := List.append_of_mem hu
  rw [heq] at h hn
  obtain ⟨hround, hbefore⟩ := h.split
  have hcircle : links.OnCircle u := hround.leads.2 u rfl
  -- whatever `u` leads to was met after it
  have hstay : ∀ x, links.Leads u x → x ∈ after ++ [u] := by
    intro x hx
    induction hx with
    | refl => simp
    | tail _ hparent ih =>
      rcases hround.mem_of_isParent ih hparent with hmem | hnext
      · exact hmem
      · simp [Option.some.inj hnext]
  have hout : ∀ x ∈ before, ¬links.OnCircle x := by
    intro x hx hround
    obtain ⟨front, back, rfl⟩ := List.append_of_mem hx
    have hlead := (hbefore.split.1.leads.2 u rfl).to_reflTransGen
    have hmem := hstay x (hround.leads_back hlead)
    simp only [List.nodup_append, List.nodup_cons, List.mem_append, List.mem_cons] at hn hmem
    rcases hmem with hmem | rfl | hnil
    · exact hn.2.2 x hmem x (by simp) rfl
    · exact hn.2.1.1 (by simp)
    · exact List.not_mem_nil hnil
  have hstart : start ∈ u :: before := by
    have hlast := congrArg List.getLast? heq
    rw [List.getLast?_concat, List.getLast?_append_cons] at hlast
    exact List.mem_of_getLast? hlast.symm
  rcases List.mem_cons.mp hstart with rfl | hmem
  · exact .here hcircle
  · exact hbefore.enters (.here hcircle) hout start hmem

end Trail

/-- With walks from all nodes below some number, these are done with all that they lead to, and the
circles that they lead into are cut. -/
structure Scanned (links : Links) (bound : Nat) (cut : Links) (done : List Nat) : Prop where
  mem_done : ∀ v, v ∈ done ↔ ∃ s < bound, links.Leads s v
  up_eq_none : ∀ s u, s < bound → links.Opens s u → cut.up u = none
  up_eq : ∀ u, (∀ s < bound, ¬links.Opens s u) → cut.up u = links.up u

namespace Scanned
variable {links cut : Links} {bound : Nat} {done : List Nat} {w : Walk}

theorem done_of_leads (h : Scanned links bound cut done) {u v : Nat} (hv : v ∈ done)
    (hu : links.Leads v u) : u ∈ done := by
  obtain ⟨s, hs, hlead⟩ := (h.mem_done v).mp hv
  exact (h.mem_done u).mpr ⟨s, hs, hlead.trans hu⟩

theorem of_done (h : Scanned links bound cut done) (hdone : bound ∈ done) :
    Scanned links (bound + 1) cut done := by
  obtain ⟨first, hfirst, hlead⟩ := (h.mem_done bound).mp hdone
  have hnone : ∀ u, ¬links.Opens bound u := fun u hu =>
    absurd (hu.1.2 (hlead.trans hu.1.1)) (Nat.not_le.mpr hfirst)
  constructor
  · intro v
    rw [h.mem_done]
    constructor
    · rintro ⟨s, hs, hv⟩
      exact ⟨s, Nat.lt_succ_of_lt hs, hv⟩
    · rintro ⟨s, hs, hv⟩
      rcases Nat.lt_succ_iff_lt_or_eq.mp hs with hs | rfl
      · exact ⟨s, hs, hv⟩
      · exact ⟨first, hfirst, hlead.trans hv⟩
  · intro s u hs hu
    rcases Nat.lt_succ_iff_lt_or_eq.mp hs with hs | rfl
    · exact h.up_eq_none s u hs hu
    · exact absurd hu (hnone u)
  · exact fun u hu => h.up_eq u fun s hs => hu s (Nat.lt_succ_of_lt hs)

section
variable (h : Scanned links bound cut done) (hw : Climbed cut done [bound] w)
include h hw

theorem exists_trail : ∃ last, Trail links last w.seen ∧
    (∀ u, last = some u → u ∈ done ∨ u ∈ w.seen) ∧
    ∀ u, w.cut = some u ↔ last = some u ∧ u ∈ w.seen := by
  obtain ⟨last, htrail, hlast, hcut⟩ := hw.ends
  refine ⟨last, htrail.congr fun v hv => h.up_eq v fun s hs hopen => hw.new v hv ?_, hlast, hcut⟩
  exact (h.mem_done v).mpr ⟨s, hs, hopen.1.1⟩

theorem mem_of_leads {v : Nat} (hv : links.Leads bound v) : v ∈ w.seen ∨ v ∈ done := by
  obtain ⟨last, htrail, hlast, -⟩ := h.exists_trail hw
  induction hv with
  | refl => exact .inl (hw.goes_on.subset (List.mem_singleton_self bound))
  | tail _ hparent ih =>
    rcases ih with hseen | hdone
    · rcases htrail.mem_of_isParent hseen hparent with hseen | hnext
      · exact .inl hseen
      · exact (hlast _ hnext).symm
    · exact .inr (h.done_of_leads hdone (.single hparent))

theorem leads_of_mem {v : Nat} (hv : v ∈ w.seen) : links.Leads bound v := by
  obtain ⟨last, htrail, -, -⟩ := h.exists_trail hw
  obtain ⟨vs, hseen⟩ := hw.goes_on
  rw [← hseen] at htrail hv
  exact htrail.leads.1 v hv

theorem opens_of_cut {u : Nat} (hu : w.cut = some u) : links.Opens bound u := by
  obtain ⟨last, htrail, -, hcut⟩ := h.exists_trail hw
  obtain ⟨rfl, hmem⟩ := (hcut u).mp hu
  refine ⟨⟨h.leads_of_mem hw hmem, fun s hs => ?_⟩, ?_⟩
  · by_contra hlt
    exact hw.new u hmem ((h.mem_done u).mpr ⟨s, Nat.lt_of_not_le hlt, hs⟩)
  · obtain ⟨vs, hseen⟩ := hw.goes_on
    have hn := hw.nodup
    rw [← hseen] at htrail hmem hn
    exact htrail.enters_of_round hn hmem

theorem cut_of_opens {u : Nat} (hu : links.Opens bound u) : w.cut = some u := by
  obtain ⟨last, htrail, hlast, hcut⟩ := h.exists_trail hw
  have hcircle := hu.2.onCircle
  have hnew : u ∉ done := fun hdone => by
    obtain ⟨s, hs, hlead⟩ := (h.mem_done u).mp hdone
    exact absurd (hu.1.2 hlead) (Nat.not_le.mpr hs)
  have hmem : u ∈ w.seen := (h.mem_of_leads hw hu.1.1).resolve_right hnew
  -- from `u` the walk stays on the circle, so there is a node to go on to, and it was met before
  obtain ⟨after, before, heq⟩ := List.append_of_mem hmem
  rw [heq] at htrail
  have hround := htrail.split.1
  obtain ⟨x, hx, hup⟩ := hround.exists_up_eq (by simp)
  obtain ⟨y, hy, -⟩ := (hcircle.of_leads (hround.leads.1 x hx)).exists_parent
  have hlead : links.Leads u y := (hround.leads.1 x hx).tail hy
  have hend : last = some y := hup.symm.trans hy
  have hyseen : y ∈ w.seen := (hlast y hend).resolve_left fun hdone =>
    hnew (h.done_of_leads hdone (hcircle.leads_back hlead))
  have hcutY := (hcut y).mpr ⟨hend, hyseen⟩
  rw [hcutY, (h.opens_of_cut hw hcutY).2.unique hu.2]

theorem of_climbed : Scanned links (bound + 1) (cut.cutAt w.cut) (w.seen ++ done) := by
  constructor
  · intro v
    rw [List.mem_append]
    constructor
    · rintro (hv | hv)
      · exact ⟨bound, Nat.lt_succ_self bound, h.leads_of_mem hw hv⟩
      · obtain ⟨s, hs, hlead⟩ := (h.mem_done v).mp hv
        exact ⟨s, Nat.lt_succ_of_lt hs, hlead⟩
    · rintro ⟨s, hs, hlead⟩
      rcases Nat.lt_succ_iff_lt_or_eq.mp hs with hs | rfl
      · exact .inr ((h.mem_done v).mpr ⟨s, hs, hlead⟩)
      · exact h.mem_of_leads hw hlead
  · intro s u hs hu
    rw [Links.up_cutAt]
    rcases Nat.lt_succ_iff_lt_or_eq.mp hs with hs | rfl
    · rw [h.up_eq_none s u hs hu, ite_self]
    · rw [if_pos (h.cut_of_opens hw hu)]
  · intro u hu
    rw [Links.up_cutAt, if_neg fun hcut => hu bound (Nat.lt_succ_self bound) (h.opens_of_cut hw hcut)]
    exact h.up_eq u fun s hs => hu s (Nat.lt_succ_of_lt hs)

end

theorem step (h : Scanned links bound cut done) (hw : Climbs cut done (some bound) [] w) :
    Scanned links (bound + 1) (cut.cutAt w.cut) (w.seen ++ done) := by
  rcases hw.of_start with ⟨hdone, rfl⟩ | hclimbed
  · exact h.of_done hdone
  · exact h.of_climbed hclimbed

theorem run {count : Nat} {result : Links} (h : Scanned links bound cut done)
    (hscans : Scans (List.range' bound count) cut done result) :
    ∃ done, Scanned links (bound + count) result done := by
  induction count generalizing bound cut done with
  | zero =>
    cases hscans
    exact ⟨done, h⟩
  | succ count ih =>
    rw [List.range'_succ] at hscans
    cases hscans with
    | cons hclimbs hrest =>
      obtain ⟨done, hdone⟩ := ih (h.step hclimbs) hrest
      exact ⟨done, by rwa [Nat.add_right_comm] at hdone⟩

end Scanned

theorem scanned_cutCycles (links : Links) :
    ∃ done, Scanned links links.length (cutCycles links) done := by
  have hstart : Scanned links 0 links [] := ⟨by simp, by simp, fun _ _ => rfl⟩
  have hrun := hstart.run (scans_cutFrom (List.range' 0 links.length) links [])
  rwa [Nat.zero_add, ← List.range_eq_range'] at hrun

/-- The walks come to an end and leave no circle: every way up ends. A link off the circles stays, and
of each circle the one link is cut at which the walk from the lowest node that leads there enters. -/
theorem circles_are_cut_once (links : Links) :
    let cut := cutCycles links
    Scans (List.range links.length) links [] cut ∧ cut.length = links.length ∧
    (∀ v, ∃ us, cut.WayUp v us) ∧
    (∀ v, ¬links.OnCircle v → cut.up v = links.up v) ∧
    ∀ v, links.OnCircle v → ∃ s u, IsLeast {s | links.Leads s v} s ∧ links.Enters s u ∧
      links.Leads v u ∧ ∀ w, links.Leads v w → cut.up w = if w = u then none else links.up w := by
  intro cut
  obtain ⟨done, hscanned⟩ := scanned_cutCycles links
  refine ⟨scans_cutFrom _ _ _, length_cutCycles links,
    Links.exists_wayUp (wellFounded_cutCycles links), fun v hv => ?_, fun v hv => ?_⟩
  · exact hscanned.up_eq v fun s _ hopen => hv hopen.2.onCircle
  · obtain ⟨s, u, hleast, hopen, hvu⟩ := hv.exists_opens
    refine ⟨s, u, hleast, hopen.2, hvu, fun w hw => ?_⟩
    obtain ⟨p, hparent, -⟩ := hv.exists_parent
    have hs : s < links.length := (hleast.2 .refl).trans_lt (Links.lt_of_isParent hparent)
    split
    · next hwu => exact hscanned.up_eq_none s w hs (hwu ▸ hopen)
    · next hwu => exact hscanned.up_eq w fun t _ ht => hwu (hv.eq_of_opens hw hvu ht hopen)

example : cutCycles [some 3, some 2, some 3, some 2] = [some 3, some 2, some 3, none] := by decide

end FlowStudio.Layout
