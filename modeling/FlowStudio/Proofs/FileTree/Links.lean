import FlowStudio.FileTree.Edit
import FlowStudio.Proofs.Path
import Mathlib.Data.List.Induction
import Mathlib.Logic.Relation

/-! How the entries of a tree hang together. What an arena says twice, by parents and by names, or
by paths and by the way down, agrees in a well-formed tree. -/

namespace FlowStudio

def Entry.place (e : Entry) : EntryKind × String × Option Nat × Bool :=
  (e.kind, e.path, e.parent, e.names.isSome)

theorem Entry.of_place_eq {e e' : Entry} (h : e'.place = e.place) :
    e'.kind = e.kind ∧ e'.path = e.path ∧ e'.parent = e.parent ∧
      e'.names.isSome = e.names.isSome := by
  simpa only [place, Prod.mk.injEq] using h

namespace FileTree
open FlowStudio.Path
variable {t : FileTree}

def IsChild (t : FileTree) (dir id : Nat) : Prop := ∃ name, t.child? dir name = some id

def Below (t : FileTree) : Nat → Nat → Prop := Relation.ReflTransGen t.IsChild

/-- The links of a tree agree. A child is younger than its directory, so there are no cycles. -/
structure WellFormed (t : FileTree) : Prop where
  root_entry : ∃ e, t.arena.get? t.root = some e ∧ e.kind = .dir ∧ e.path = "/" ∧ e.parent = none
  names_iff : ∀ {id e}, t.arena.get? id = some e → (e.names.isSome ↔ e.kind = .dir)
  child_entry : ∀ {dir d name id}, t.arena.get? dir = some d → t.child? dir name = some id →
    IsName name ∧ dir < id ∧ ∃ e, t.arena.get? id = some e ∧ e.parent = some dir ∧
      e.path = join (segments d.path ++ [name])
  parent_child : ∀ {id e}, t.arena.get? id = some e → id ≠ t.root →
    ∃ dir name, e.parent = some dir ∧ t.child? dir name = some id

theorem child?_of_get? {dir : Nat} {d : Entry} (h : t.arena.get? dir = some d) (name : String) :
    t.child? dir name = d.find? name := by
  rw [child?, h, Option.bind_some]

theorem exists_get?_of_child? {dir id : Nat} {name : String} (h : t.child? dir name = some id) :
    ∃ d, t.arena.get? dir = some d ∧ d.find? name = some id := Option.bind_eq_some_iff.mp h

theorem resolve?_nil (t : FileTree) : t.resolve? [] = some t.root := rfl

theorem resolve?_concat (t : FileTree) (segs : List String) (s : String) :
    t.resolve? (segs ++ [s]) = (t.resolve? segs).bind (t.child? · s) := by
  simp [resolve?, List.foldlM_append]

namespace WellFormed

theorem dir_of_child? (hw : t.WellFormed) {dir id : Nat} {name : String}
    (h : t.child? dir name = some id) : ∃ d, t.arena.get? dir = some d ∧ d.kind = .dir := by
  obtain ⟨d, hd, hfind⟩ := exists_get?_of_child? h
  obtain ⟨names, hnames, -⟩ := Option.bind_eq_some_iff.mp hfind
  exact ⟨d, hd, (hw.names_iff hd).mp (by simp [hnames])⟩

theorem lt_of_child? (hw : t.WellFormed) {dir id : Nat} {name : String}
    (h : t.child? dir name = some id) : dir < id := by
  obtain ⟨d, hd, -⟩ := hw.dir_of_child? h
  exact (hw.child_entry hd h).2.1

theorem entry_of_resolve? (hw : t.WellFormed) {segs : List String} {id : Nat}
    (h : t.resolve? segs = some id) :
    (∀ s ∈ segs, IsName s) ∧ ∃ e, t.arena.get? id = some e ∧ e.path = join segs := by
  induction segs using List.reverseRecOn generalizing id with
  | nil =>
    obtain ⟨e, he, -, hpath, -⟩ := hw.root_entry
    rw [resolve?_nil, Option.some.injEq] at h
    exact ⟨by simp, e, h ▸ he, hpath⟩
  | append_singleton segs s ih =>
    rw [resolve?_concat] at h
    obtain ⟨dir, hdir, hchild⟩ := Option.bind_eq_some_iff.mp h
    obtain ⟨hnames, d, hd, hpath⟩ := ih hdir
    obtain ⟨hs, -, e, he, -, hepath⟩ := hw.child_entry hd hchild
    refine ⟨?_, e, he, ?_⟩
    · simpa [or_imp, forall_and] using ⟨hnames, hs⟩
    · rw [hepath, hpath, segments_join fun r hr => (hnames r hr).1]

theorem resolve?_path (hw : t.WellFormed) {id : Nat} {e : Entry} (h : t.arena.get? id = some e) :
    t.resolve? (segments e.path) = some id := by
  induction id using Nat.strongRecOn generalizing e with
  | ind id ih =>
    by_cases hroot : id = t.root
    · obtain ⟨r, hr, -, hpath, -⟩ := hw.root_entry
      obtain rfl : e = r := Option.some.inj (h.symm.trans (hroot ▸ hr))
      rw [hpath, hroot]
      exact resolve?_nil t
    · obtain ⟨dir, name, -, hchild⟩ := hw.parent_child h hroot
      obtain ⟨d, hd, -⟩ := hw.dir_of_child? hchild
      obtain ⟨hname, hlt, e', he', -, hpath⟩ := hw.child_entry hd hchild
      obtain rfl : e = e' := Option.some.inj (h.symm.trans he')
      rw [hpath, segments_join_concat d.path hname.1, resolve?_concat, ih dir hlt hd,
        Option.bind_some, hchild]

theorem resolve?_injective (hw : t.WellFormed) {as bs : List String} {id : Nat}
    (ha : t.resolve? as = some id) (hb : t.resolve? bs = some id) : as = bs := by
  obtain ⟨hna, e, he, hpa⟩ := hw.entry_of_resolve? ha
  obtain ⟨hnb, e', he', hpb⟩ := hw.entry_of_resolve? hb
  obtain rfl : e = e' := Option.some.inj (he.symm.trans he')
  exact join_injective (fun s hs => (hna s hs).1) (fun s hs => (hnb s hs).1) (hpa.symm.trans hpb)

theorem child?_injective (hw : t.WellFormed) {dir dir' id : Nat} {name name' : String}
    (h : t.child? dir name = some id) (h' : t.child? dir' name' = some id) :
    dir = dir' ∧ name = name' := by
  obtain ⟨d, hd, -⟩ := hw.dir_of_child? h
  obtain ⟨d', hd', -⟩ := hw.dir_of_child? h'
  -- one entry has one path, and both directories spell it with their own
  have hc := resolve?_concat t (segments d.path) name
  have hc' := resolve?_concat t (segments d'.path) name'
  rw [hw.resolve?_path hd, Option.bind_some, h] at hc
  rw [hw.resolve?_path hd', Option.bind_some, h'] at hc'
  have happ := hw.resolve?_injective hc hc'
  obtain ⟨hsegs, hname⟩ := List.append_inj' happ rfl
  refine ⟨?_, by simpa using hname⟩
  have hdir := hw.resolve?_path hd
  rw [hsegs, hw.resolve?_path hd'] at hdir
  exact (Option.some.inj hdir).symm

end WellFormed

/-- Links that lead from older to younger entries, and to each by one name only. -/
structure Branching (t : FileTree) : Prop where
  lt_of_child? : ∀ {dir id name}, t.child? dir name = some id → dir < id
  child?_injective : ∀ {dir dir' id name name'}, t.child? dir name = some id →
    t.child? dir' name' = some id → dir = dir' ∧ name = name'

/-- A tree stays well-formed when entries that are no longer live go and what is left keeps its
place. -/
theorem WellFormed.restrict (hw : t.WellFormed) {t' : FileTree} {live : Nat → Prop}
    (hroot : t'.root = t.root) (hlive : live t.root)
    (hkept : ∀ {x}, live x → (t'.arena.get? x).map Entry.place = (t.arena.get? x).map Entry.place)
    (hgone : ∀ {x}, ¬live x → t'.arena.get? x = none)
    (hchild : ∀ {dir c name}, t'.child? dir name = some c ↔ t.child? dir name = some c ∧ live c) :
    t'.WellFormed := by
  have hold : ∀ {x e'}, t'.arena.get? x = some e' →
      live x ∧ ∃ e, t.arena.get? x = some e ∧ e.place = e'.place := by
    intro x e' he'
    have hx : live x := by
      by_contra hx
      simp [hgone hx] at he'
    have hmap := hkept hx
    rw [he', Option.map_some, eq_comm, Option.map_eq_some_iff] at hmap
    exact ⟨hx, hmap⟩
  have hnew : ∀ {x e}, live x → t.arena.get? x = some e →
      ∃ e', t'.arena.get? x = some e' ∧ e'.place = e.place := by
    intro x e hx he
    have hmap := hkept hx
    rwa [he, Option.map_some, Option.map_eq_some_iff] at hmap
  refine ⟨?_, ?_, ?_, ?_⟩
  · obtain ⟨r, hr, hkind, hpath, hparent⟩ := hw.root_entry
    obtain ⟨r', hr', hplace⟩ := hnew hlive hr
    obtain ⟨hkind', hpath', hparent', -⟩ := Entry.of_place_eq hplace
    exact ⟨r', hroot ▸ hr', hkind'.trans hkind, hpath'.trans hpath, hparent'.trans hparent⟩
  · intro x e' he'
    obtain ⟨-, e, he, hplace⟩ := hold he'
    obtain ⟨hkind, -, -, hnames⟩ := Entry.of_place_eq hplace
    rw [← hnames, ← hkind]
    exact hw.names_iff he
  · intro dir d' name c hd' hc'
    obtain ⟨hc, hx⟩ := hchild.mp hc'
    obtain ⟨-, d, hd, hdplace⟩ := hold hd'
    obtain ⟨hname, hlt, e, he, hparent, hpath⟩ := hw.child_entry hd hc
    obtain ⟨e', he', hplace⟩ := hnew hx he
    obtain ⟨-, hpath', hparent', -⟩ := Entry.of_place_eq hplace
    obtain ⟨-, hdpath, -⟩ := Entry.of_place_eq hdplace
    exact ⟨hname, hlt, e', he', hparent'.trans hparent, by rw [hpath', hpath, hdpath]⟩
  · intro x e' he' hne
    obtain ⟨hx, e, he, hplace⟩ := hold he'
    obtain ⟨-, -, hparent', -⟩ := Entry.of_place_eq hplace
    obtain ⟨dir, name, hparent, hc⟩ := hw.parent_child he (hroot ▸ hne)
    exact ⟨dir, name, hparent' ▸ hparent, hchild.mpr ⟨hc, hx⟩⟩

theorem WellFormed.branching (hw : t.WellFormed) : t.Branching :=
  ⟨hw.lt_of_child?, hw.child?_injective⟩

namespace Branching

theorem le_of_below (hb : t.Branching) {dir id : Nat} (h : t.Below dir id) : dir ≤ id := by
  induction h with
  | refl => exact Nat.le_refl _
  | tail _ hstep ih =>
    obtain ⟨name, hname⟩ := hstep
    exact Nat.le_trans ih (Nat.le_of_lt (hb.lt_of_child? hname))

theorem eq_of_below (hb : t.Branching) {dir c c' x : Nat} (hc : t.IsChild dir c)
    (hc' : t.IsChild dir c') (hx : t.Below c x) (hx' : t.Below c' x) : c = c' := by
  have huniq : Relator.RightUnique (Function.swap t.IsChild) := by
    rintro a b d ⟨n, hn⟩ ⟨m, hm⟩
    exact (hb.child?_injective hn hm).1
  -- of two members on one way down the lower would have the directory below the upper
  have hstep : ∀ {a b}, t.IsChild dir a → t.IsChild dir b → t.Below a b → a = b := by
    intro a b ⟨n, hn⟩ ⟨m, hm⟩ hab
    rcases Relation.ReflTransGen.cases_tail hab with rfl | ⟨d, had, k, hk⟩
    · rfl
    · obtain ⟨rfl, -⟩ := hb.child?_injective hk hm
      exact absurd (hb.le_of_below had) (Nat.not_le_of_lt (hb.lt_of_child? hn))
  rcases Relation.ReflTransGen.total_of_right_unique huniq
    (Relation.reflTransGen_swap.mpr hx) (Relation.reflTransGen_swap.mpr hx') with h | h
  · exact (hstep hc' hc (Relation.reflTransGen_swap.mp h)).symm
  · exact hstep hc hc' (Relation.reflTransGen_swap.mp h)

end Branching

theorem exists_resolve?_of_below {segs : List String} {top id : Nat}
    (htop : t.resolve? segs = some top) (h : t.Below top id) :
    ∃ rest, t.resolve? (segs ++ rest) = some id := by
  induction h with
  | refl => exact ⟨[], by simpa using htop⟩
  | tail _ hstep ih =>
    obtain ⟨rest, hrest⟩ := ih
    obtain ⟨name, hname⟩ := hstep
    refine ⟨rest ++ [name], ?_⟩
    rw [← List.append_assoc, resolve?_concat, hrest, Option.bind_some, hname]

theorem below_of_resolve? {segs rest : List String} {top id : Nat}
    (htop : t.resolve? segs = some top) (h : t.resolve? (segs ++ rest) = some id) :
    t.Below top id := by
  induction rest using List.reverseRecOn generalizing id with
  | nil =>
    obtain rfl : top = id := by simpa [htop] using h
    exact .refl
  | append_singleton rest s ih =>
    rw [← List.append_assoc, resolve?_concat] at h
    obtain ⟨dir, hdir, hchild⟩ := Option.bind_eq_some_iff.mp h
    exact (ih hdir).tail ⟨s, hchild⟩

end FileTree
end FlowStudio
