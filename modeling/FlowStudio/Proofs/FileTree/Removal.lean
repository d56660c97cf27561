import FlowStudio.Proofs.FileTree.Contents
import FlowStudio.Proofs.FileTree.Pruning

/-! The edit that removes an entry with all below it. What is left is well-formed again, and nothing
else is lost. -/

namespace FlowStudio

def Entry.bare (e : Entry) : Entry := { e with names := e.names.map fun _ => ∅ }

theorem Entry.bare_withoutName (e : Entry) (name : String) :
    (e.withoutName name).bare = e.bare := by
  simp [bare, withoutName, Function.comp_def]

theorem Entry.place_bare (e : Entry) : e.bare.place = e.place := by
  rw [place, bare, Option.isSome_map]
  rfl

theorem Entry.content_bare (e : Entry) : e.bare.content = e.content := rfl

namespace FileTree
open FlowStudio.Path
variable {t t' : FileTree}

structure Removed (t t' : FileTree) (id : Nat) : Prop where
  root_eq : t'.root = t.root
  gone : ∀ {x}, t.Below id x → t'.arena.get? x = none
  kept : ∀ {x}, ¬t.Below id x →
    (t'.arena.get? x).map Entry.bare = (t.arena.get? x).map Entry.bare
  child?_iff : ∀ {dir c name},
    t'.child? dir name = some c ↔ t.child? dir name = some c ∧ ¬t.Below id c

theorem child?_unlink (hw : t.WellFormed) {parent id : Nat} {name : String}
    (hc : t.child? parent name = some id) (dir : Nat) (n : String) :
    (t.unlink id name).child? dir n =
      if dir = parent ∧ n = name then none else t.child? dir n := by
  obtain ⟨p, hp, -⟩ := hw.dir_of_child? hc
  obtain ⟨-, -, e, he, hparent, -⟩ := hw.child_entry hp hc
  rw [unlink, he, Option.bind_some, hparent]
  simp only [child?, Arena.get?_modify]
  by_cases hdir : dir = parent
  · subst hdir
    simp [hp, Entry.find?_withoutName]
  · simp [hdir]

theorem bare_unlink (t : FileTree) (id : Nat) (name : String) (x : Nat) :
    ((t.unlink id name).arena.get? x).map Entry.bare = (t.arena.get? x).map Entry.bare := by
  rw [unlink]
  split
  · rfl
  · rw [Arena.get?_modify]
    split
    · simp [Function.comp_def, Entry.bare_withoutName]
    · rfl

theorem isChild_unlink (hw : t.WellFormed) {parent id : Nat} {name : String}
    (hc : t.child? parent name = some id) {dir x : Nat} :
    (t.unlink id name).IsChild dir x ↔ t.IsChild dir x ∧ x ≠ id := by
  simp only [IsChild, child?_unlink hw hc]
  constructor
  · rintro ⟨n, hn⟩
    split at hn
    · simp at hn
    · next hne => exact ⟨⟨n, hn⟩, fun h => hne (hw.child?_injective (h ▸ hn) hc)⟩
  · rintro ⟨⟨n, hn⟩, hne⟩
    refine ⟨n, ?_⟩
    rw [if_neg, hn]
    rintro ⟨rfl, rfl⟩
    exact hne (Option.some.inj (hn.symm.trans hc))

theorem below_unlink (hw : t.WellFormed) {parent id : Nat} {name : String}
    (hc : t.child? parent name = some id) {x : Nat} :
    (t.unlink id name).Below id x ↔ t.Below id x := by
  constructor
  · intro h
    induction h with
    | refl => exact .refl
    | tail _ hstep ih => exact ih.tail ((isChild_unlink hw hc).mp hstep).1
  · intro h
    induction h with
    | refl => exact .refl
    | tail hd hstep ih =>
      -- numbers grow on the way down, so it does not come back to `id`
      refine ih.tail ((isChild_unlink hw hc).mpr ⟨hstep, ?_⟩)
      obtain ⟨n, hn⟩ := hstep
      have hlt := hw.lt_of_child? hn
      have hle := hw.branching.le_of_below hd
      omega

theorem Branching.unlink (hw : t.WellFormed) {parent id : Nat} {name : String}
    (hc : t.child? parent name = some id) : (t.unlink id name).Branching := by
  have hsub : ∀ {dir n c}, (t.unlink id name).child? dir n = some c → t.child? dir n = some c := by
    intro dir n c h
    rw [child?_unlink hw hc] at h
    split at h
    · simp at h
    · exact h
  exact ⟨fun h => hw.lt_of_child? (hsub h), fun h h' => hw.child?_injective (hsub h) (hsub h')⟩

def cut (t : FileTree) (id : Nat) (name : String) : FileTree :=
  { t.unlink id name with
    arena := prune (t.unlink id name).arena.next (t.unlink id name).arena id }

theorem removed_cut (hw : t.WellFormed) {parent id : Nat} {name : String}
    (hc : t.child? parent name = some id) : Removed t (t.cut id name) id := by
  have hget := fun x => (Branching.unlink hw hc).prunes (t.unlink id name).arena.next
    (t.unlink id name).arena id (by omega) (fun _ _ => rfl) x
  simp only [below_unlink hw hc] at hget
  refine ⟨?_, fun hx => (hget _).1 hx, fun {x} hx => ?_, fun {dir c n} => ?_⟩
  · rw [cut, FileTree.unlink]
    split <;> rfl
  · rw [cut, (hget x).2 hx, bare_unlink]
  · by_cases hdir : t.Below id dir
    · have hnone : (t.cut id name).child? dir n = none := by
        rw [child?, cut, (hget dir).1 hdir, Option.bind_none]
      rw [hnone]
      exact ⟨fun h => by simp at h, fun h => absurd (hdir.tail ⟨n, h.1⟩) h.2⟩
    · have hsame : (t.cut id name).child? dir n = (t.unlink id name).child? dir n := by
        rw [child?, cut, (hget dir).2 hdir, child?]
      rw [hsame, child?_unlink hw hc]
      split
      · next h =>
        obtain ⟨rfl, rfl⟩ := h
        refine ⟨fun h => by simp at h, fun h => ?_⟩
        obtain rfl := Option.some.inj (hc.symm.trans h.1)
        exact absurd .refl h.2
      · next hne =>
        refine ⟨fun h => ⟨h, fun hbelow => ?_⟩, fun h => h.1⟩
        -- by its last step down `c` is `id`, under another name, or hangs from `dir`
        rcases Relation.ReflTransGen.cases_tail hbelow with rfl | ⟨d, hd, m, hm⟩
        · exact hne (hw.child?_injective h hc)
        · exact hdir ((hw.child?_injective hm h).1 ▸ hd)

namespace Removed
variable {id : Nat}

theorem wellFormed (hr : Removed t t' id) (hw : t.WellFormed) (hroot : t.root < id) :
    t'.WellFormed := by
  refine hw.restrict hr.root_eq (fun h => ?_) (fun {x} hx => ?_)
    (fun hx => hr.gone (not_not.mp hx)) hr.child?_iff
  · exact absurd (hw.branching.le_of_below h) (Nat.not_le_of_lt hroot)
  · have hmap := congrArg (Option.map Entry.place) (hr.kept hx)
    simpa only [Option.map_map, Function.comp_def, Entry.place_bare] using hmap

theorem resolve?_eq_some_iff (hr : Removed t t' id) (hw : t.WellFormed) (hroot : t.root < id)
    {segs : List String} {x : Nat} :
    t'.resolve? segs = some x ↔ t.resolve? segs = some x ∧ ¬t.Below id x := by
  induction segs using List.reverseRecOn generalizing x with
  | nil =>
    rw [resolve?_nil, resolve?_nil, hr.root_eq, iff_self_and]
    rintro h hbelow
    have := hw.branching.le_of_below hbelow
    have := Option.some.inj h
    omega
  | append_singleton segs s ih =>
    simp only [resolve?_concat, Option.bind_eq_some_iff, ih, hr.child?_iff]
    constructor
    · rintro ⟨d, ⟨hd, -⟩, hc, hx⟩
      exact ⟨⟨d, hd, hc⟩, hx⟩
    · rintro ⟨⟨d, hd, hc⟩, hx⟩
      exact ⟨d, ⟨hd, fun hbelow => hx (hbelow.tail ⟨s, hc⟩)⟩, hc, hx⟩

theorem content?_eq (hr : Removed t t' id) (hw : t.WellFormed) (hroot : t.root < id)
    {segs : List String} (hid : t.resolve? segs = some id) (q : List String) :
    t'.content? q = if segs <+: q then none else t.content? q := by
  split
  · next hpre =>
    obtain ⟨rest, rfl⟩ := hpre
    cases hx : t'.resolve? (segs ++ rest) with
    | none => rw [content?, hx, Option.bind_none]
    | some x =>
      obtain ⟨hold, hout⟩ := (hr.resolve?_eq_some_iff hw hroot).mp hx
      exact absurd (below_of_resolve? hid hold) hout
  · next hpre =>
    cases hx : t.resolve? q with
    | none =>
      have hnone : t'.resolve? q = none := by
        rw [Option.eq_none_iff_forall_ne_some]
        intro x hx'
        simp [((hr.resolve?_eq_some_iff hw hroot).mp hx').1] at hx
      rw [content?, hnone, content?, hx, Option.bind_none, Option.bind_none]
    | some x =>
      have hout : ¬t.Below id x := by
        intro hbelow
        obtain ⟨rest, hrest⟩ := exists_resolve?_of_below hid hbelow
        exact hpre ⟨rest, hw.resolve?_injective hrest hx⟩
      have hmap := congrArg (Option.map Entry.content) (hr.kept hout)
      simp only [Option.map_map, Function.comp_def, Entry.content_bare] at hmap
      rw [content?, (hr.resolve?_eq_some_iff hw hroot).mpr ⟨hx, hout⟩, Option.bind_some, hmap,
        content?, hx, Option.bind_some]

end Removed

theorem delete_cases {path : String} (h : (t.delete path).result = .ok ()) :
    ∃ above name id, segments path = above ++ [name] ∧ t.resolve? (above ++ [name]) = some id ∧
      (t.delete path).tree = t.cut id name := by
  revert h
  rw [delete]
  rcases List.eq_nil_or_concat (segments path) with hsegs | ⟨above, name, hsegs⟩
  · simp [hsegs]
  · rw [List.concat_eq_append] at hsegs
    simp only [hsegs, List.getLast?_append, List.getLast?_singleton, Option.some_or]
    cases hid : t.resolve? (above ++ [name]) with
    | none => simp
    | some id => exact fun _ => ⟨above, name, id, rfl, hid, rfl⟩

theorem tree_delete_of_error {path : String} {e : PathError}
    (h : (t.delete path).result = .error e) : (t.delete path).tree = t := by
  revert h
  rw [delete]
  dsimp only
  split
  · simp
  · split <;> simp

theorem removed_delete (hw : t.WellFormed) {path : String} (h : (t.delete path).result = .ok ()) :
    ∃ id, t.resolve? (segments path) = some id ∧ t.root < id ∧
      Removed t (t.delete path).tree id := by
  obtain ⟨above, name, id, hsegs, hid, htree⟩ := delete_cases h
  have hid' := hid
  rw [resolve?_concat] at hid'
  obtain ⟨parent, hparent, hc⟩ := Option.bind_eq_some_iff.mp hid'
  have hle := hw.branching.le_of_below (below_of_resolve? (resolve?_nil t) hparent)
  have hlt := hw.lt_of_child? hc
  rw [hsegs, htree]
  exact ⟨id, hid, by omega, removed_cut hw hc⟩

theorem WellFormed.delete (hw : t.WellFormed) (path : String) :
    (t.delete path).tree.WellFormed := by
  cases h : (t.delete path).result with
  | error e => rwa [tree_delete_of_error h]
  | ok _ =>
    obtain ⟨id, -, hroot, hr⟩ := removed_delete hw h
    exact hr.wellFormed hw hroot

theorem content?_delete (hw : t.WellFormed) {path : String} (h : (t.delete path).result = .ok ())
    (q : List String) :
    (t.delete path).tree.content? q = if segments path <+: q then none else t.content? q := by
  obtain ⟨id, hid, hroot, hr⟩ := removed_delete hw h
  exact hr.content?_eq hw hroot hid q

end FileTree
end FlowStudio
