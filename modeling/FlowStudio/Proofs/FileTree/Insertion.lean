import FlowStudio.Proofs.FileTree.Contents

/-! Entries that come into a tree: a single one, the directories of a path, a file. A well-formed
tree stays well-formed, and nothing changes but what the path names. -/

namespace FlowStudio.FileTree
open FlowStudio.Path
variable {t : FileTree}

structure IsNew (e : Entry) (parent : Nat) (path : String) : Prop where
  parent_eq : e.parent = some parent
  path_eq : e.path = path
  names_iff : e.names.isSome ↔ e.kind = .dir
  find?_eq : ∀ name, e.find? name = none

theorem isNew_ofFile (path : String) (parent : Nat) (body : String) :
    IsNew (.ofFile path parent body) parent path :=
  ⟨rfl, rfl, by simp [Entry.ofFile], Entry.find?_ofFile path parent body⟩

theorem isNew_ofDir (path : String) (parent : Nat) :
    IsNew (.ofDir path (some parent)) parent path :=
  ⟨rfl, rfl, by simp [Entry.ofDir], Entry.find?_ofDir path (some parent)⟩

section
variable {parent : Nat} {p e : Entry} {name : String} {above : List String}

theorem get?_insertChild (hp : t.arena.get? parent = some p) (id : Nat) :
    (t.insertChild parent name e).1.arena.get? id =
      if id = t.arena.next then some e
      else if id = parent then some (p.withName name t.arena.next) else t.arena.get? id := by
  have hne : parent ≠ t.arena.next := Arena.ne_next hp
  change ((t.arena.insert e).1.modify parent _).get? id = _
  rw [Arena.get?_modify, Arena.get?_insert]
  by_cases hid : id = parent
  · subst hid
    simp [hne, hp]
  · simp [hid]

theorem child?_insertChild (hp : t.arena.get? parent = some p) (hnames : p.names.isSome)
    (he : ∀ n, e.find? n = none) (dir : Nat) (n : String) :
    (t.insertChild parent name e).1.child? dir n =
      if dir = parent ∧ n = name then some t.arena.next else t.child? dir n := by
  rw [child?, get?_insertChild hp, child?]
  by_cases hnew : dir = t.arena.next
  · have hgone : t.arena.get? dir = none := hnew ▸ Arena.get?_next t.arena
    have hne : dir ≠ parent := fun h => by simp [h, hp] at hgone
    rw [if_pos hnew, Option.bind_some, he, if_neg fun h => hne h.1, hgone, Option.bind_none]
  · rw [if_neg hnew]
    by_cases hdir : dir = parent
    · rw [if_pos hdir, Option.bind_some, Entry.find?_withName hnames, hdir, hp, Option.bind_some]
      simp
    · rw [if_neg hdir, if_neg fun h => hdir h.1]

structure Free (t : FileTree) (parent : Nat) (p : Entry) (above : List String) (name : String) :
    Prop where
  resolve?_eq : t.resolve? above = some parent
  get?_eq : t.arena.get? parent = some p
  kind_eq : p.kind = .dir
  child?_eq : t.child? parent name = none
  isName : IsName name

theorem exists_free (hdir : t.resolve? above = some parent)
    (hcontent : t.content? above = some .dir) (hchild : t.child? parent name = none)
    (hname : IsName name) : ∃ p, t.Free parent p above name := by
  obtain ⟨id, p, hid, hp, hkind⟩ := dir_of_content? hcontent
  obtain rfl : parent = id := Option.some.inj (hdir.symm.trans hid)
  exact ⟨p, hdir, hp, hkind, hchild, hname⟩

theorem Free.names_isSome (hf : t.Free parent p above name) (hw : t.WellFormed) :
    p.names.isSome := (hw.names_iff hf.get?_eq).mpr hf.kind_eq

theorem resolve?_insertChild (hw : t.WellFormed) (hf : t.Free parent p above name)
    (he : ∀ n, e.find? n = none) (segs : List String) :
    (t.insertChild parent name e).1.resolve? segs =
      if segs = above ++ [name] then some t.arena.next else t.resolve? segs := by
  have hchild : ∀ dir n, (t.insertChild parent name e).1.child? dir n =
      if dir = parent ∧ n = name then some t.arena.next else t.child? dir n :=
    child?_insertChild hf.get?_eq (hf.names_isSome hw) he
  induction segs using List.reverseRecOn with
  | nil => simp [resolve?_nil]; rfl
  | append_singleton segs s ih =>
    rw [resolve?_concat, resolve?_concat, ih]
    by_cases hsegs : segs = above ++ [name]
    · -- below the new entry there is nothing, neither now nor before
      have hnone : (t.insertChild parent name e).1.child? t.arena.next s = none := by
        rw [child?, get?_insertChild hf.get?_eq, if_pos rfl, Option.bind_some, he]
      have hne : above ++ [name] ++ [s] ≠ above ++ [name] := by simp
      subst hsegs
      rw [if_pos rfl, Option.bind_some, hnone, if_neg hne, resolve?_concat, hf.resolve?_eq,
        Option.bind_some, hf.child?_eq, Option.bind_none]
    · rw [if_neg hsegs]
      cases hdir : t.resolve? segs with
      | none =>
        have hne : segs ++ [s] ≠ above ++ [name] := by
          intro h
          rw [(List.append_inj' h rfl).1, hf.resolve?_eq] at hdir
          simp at hdir
        rw [if_neg hne, Option.bind_none, Option.bind_none]
      | some dir =>
        have hiff : dir = parent ∧ s = name ↔ segs ++ [s] = above ++ [name] := by
          constructor
          · rintro ⟨rfl, rfl⟩
            rw [hw.resolve?_injective hdir hf.resolve?_eq]
          · intro h
            obtain ⟨hsegs, hs⟩ := List.append_inj' h rfl
            rw [hsegs, hf.resolve?_eq] at hdir
            exact ⟨(Option.some.inj hdir).symm, by simpa using hs⟩
        rw [Option.bind_some, Option.bind_some, hchild]
        simp only [hiff]

theorem content?_insertChild (hw : t.WellFormed) (hf : t.Free parent p above name)
    (he : ∀ n, e.find? n = none) (segs : List String) :
    (t.insertChild parent name e).1.content? segs =
      if segs = above ++ [name] then some e.content else t.content? segs := by
  rw [content?, resolve?_insertChild hw hf he]
  split
  · rw [Option.bind_some, get?_insertChild hf.get?_eq, if_pos rfl, Option.map_some]
  · cases hid : t.resolve? segs with
    | none => simp [content?, hid]
    | some id =>
      obtain ⟨-, d, hd, -⟩ := hw.entry_of_resolve? hid
      have hne : id ≠ t.arena.next := Arena.ne_next hd
      rw [Option.bind_some, get?_insertChild hf.get?_eq, if_neg hne, content?_of_resolve? hid hd]
      split
      · next h =>
        obtain rfl : p = d := Option.some.inj (hf.get?_eq.symm.trans (h ▸ hd))
        rfl
      · rw [hd, Option.map_some]

theorem exists_get?_insertChild (hp : t.arena.get? parent = some p) (name : String) (e : Entry)
    {id : Nat} {d : Entry} (hd : t.arena.get? id = some d) :
    ∃ d', (t.insertChild parent name e).1.arena.get? id = some d' ∧ d'.place = d.place := by
  rw [get?_insertChild hp, if_neg (Arena.ne_next hd)]
  split
  · next h =>
    obtain rfl : p = d := Option.some.inj (hp.symm.trans (h ▸ hd))
    refine ⟨_, rfl, ?_⟩
    rw [Entry.place, Entry.withName, Option.isSome_map]
    rfl
  · exact ⟨d, hd, rfl⟩

theorem old_of_get?_insertChild (hp : t.arena.get? parent = some p) {id : Nat} {d : Entry}
    (hd : (t.insertChild parent name e).1.arena.get? id = some d) (hne : id ≠ t.arena.next) :
    ∃ d₀, t.arena.get? id = some d₀ ∧ d.place = d₀.place := by
  have hsome : ∃ d₀, t.arena.get? id = some d₀ := by
    rw [get?_insertChild hp, if_neg hne] at hd
    split at hd
    · next h => exact ⟨p, h ▸ hp⟩
    · exact ⟨d, hd⟩
  obtain ⟨d₀, hd₀⟩ := hsome
  obtain ⟨d', hd', hplace⟩ := exists_get?_insertChild hp name e hd₀
  obtain rfl : d = d' := Option.some.inj (hd.symm.trans hd')
  exact ⟨d₀, hd₀, hplace⟩

theorem segments_of_free (hw : t.WellFormed) (hf : t.Free parent p above name) :
    segments p.path = above := by
  obtain ⟨hnames, p', hp', hpath⟩ := hw.entry_of_resolve? hf.resolve?_eq
  obtain rfl : p = p' := Option.some.inj (hf.get?_eq.symm.trans hp')
  rw [hpath, segments_join fun s hs => (hnames s hs).1]

theorem get?_insertChild_next (hp : t.arena.get? parent = some p) (name : String) (e : Entry) :
    (t.insertChild parent name e).1.arena.get? t.arena.next = some e := by
  rw [get?_insertChild hp, if_pos rfl]

theorem child_entry_insertChild (hw : t.WellFormed) (hf : t.Free parent p above name)
    (hnew : IsNew e parent (join (above ++ [name]))) {dir id : Nat} {d : Entry} {n : String}
    (hd : (t.insertChild parent name e).1.arena.get? dir = some d)
    (hc : (t.insertChild parent name e).1.child? dir n = some id) :
    IsName n ∧ dir < id ∧ ∃ c, (t.insertChild parent name e).1.arena.get? id = some c ∧
      c.parent = some dir ∧ c.path = join (segments d.path ++ [n]) := by
  rw [child?_insertChild hf.get?_eq (hf.names_isSome hw) hnew.find?_eq] at hc
  split at hc
  · next h =>
    obtain ⟨rfl, rfl⟩ := h
    obtain ⟨d', hd', hplace⟩ := exists_get?_insertChild hf.get?_eq n e hf.get?_eq
    obtain rfl : d = d' := Option.some.inj (hd.symm.trans hd')
    obtain ⟨-, hdpath, -⟩ := Entry.of_place_eq hplace
    rw [← Option.some.inj hc, hdpath, segments_of_free hw hf]
    exact ⟨hf.isName, Arena.lt_next hf.get?_eq, e, get?_insertChild_next hf.get?_eq n e,
      hnew.parent_eq, hnew.path_eq⟩
  · obtain ⟨d₀, hd₀, -⟩ := hw.dir_of_child? hc
    obtain ⟨hn, hlt, c, hcget, hcparent, hcpath⟩ := hw.child_entry hd₀ hc
    obtain ⟨d', hd', hplace⟩ := exists_get?_insertChild hf.get?_eq name e hd₀
    obtain rfl : d = d' := Option.some.inj (hd.symm.trans hd')
    obtain ⟨-, hdpath, -⟩ := Entry.of_place_eq hplace
    obtain ⟨c', hc', hcplace⟩ := exists_get?_insertChild hf.get?_eq name e hcget
    obtain ⟨-, hcpath', hcparent', -⟩ := Entry.of_place_eq hcplace
    exact ⟨hn, hlt, c', hc', hcparent'.trans hcparent, by rw [hcpath', hcpath, hdpath]⟩

theorem WellFormed.insertChild (hw : t.WellFormed) (hf : t.Free parent p above name)
    (hnew : IsNew e parent (join (above ++ [name]))) :
    (t.insertChild parent name e).1.WellFormed := by
  have hchild : ∀ dir n, (t.insertChild parent name e).1.child? dir n =
      if dir = parent ∧ n = name then some t.arena.next else t.child? dir n :=
    child?_insertChild hf.get?_eq (hf.names_isSome hw) hnew.find?_eq
  have hin := get?_insertChild_next hf.get?_eq name e
  refine ⟨?_, ?_, child_entry_insertChild hw hf hnew, ?_⟩
  · obtain ⟨r, hr, hkind, hrpath, hparent⟩ := hw.root_entry
    obtain ⟨r', hr', hplace⟩ := exists_get?_insertChild hf.get?_eq name e hr
    obtain ⟨hkind', hpath', hparent', -⟩ := Entry.of_place_eq hplace
    exact ⟨r', hr', hkind'.trans hkind, hpath'.trans hrpath, hparent'.trans hparent⟩
  · intro id d hd
    by_cases hid : id = t.arena.next
    · obtain rfl : d = e := Option.some.inj (hd.symm.trans (hid ▸ hin))
      exact hnew.names_iff
    · obtain ⟨d₀, hd₀, hplace⟩ := old_of_get?_insertChild hf.get?_eq hd hid
      obtain ⟨hkind, -, -, hnames⟩ := Entry.of_place_eq hplace
      rw [hnames, hkind]
      exact hw.names_iff hd₀
  · intro id d hd hroot
    by_cases hid : id = t.arena.next
    · obtain rfl : d = e := Option.some.inj (hd.symm.trans (hid ▸ hin))
      refine ⟨parent, name, hnew.parent_eq, ?_⟩
      rw [hchild, if_pos ⟨rfl, rfl⟩, hid]
    · obtain ⟨d₀, hd₀, hplace⟩ := old_of_get?_insertChild hf.get?_eq hd hid
      obtain ⟨-, -, hparent', -⟩ := Entry.of_place_eq hplace
      obtain ⟨dir, n, hparent, hc⟩ := hw.parent_child hd₀ hroot
      refine ⟨dir, n, hparent'.trans hparent, ?_⟩
      -- the name was free, so it is not the one that leads to an old entry
      have hne : ¬(dir = parent ∧ n = name) := by
        rintro ⟨rfl, rfl⟩
        rw [hf.child?_eq] at hc
        simp at hc
      rw [hchild, if_neg hne, hc]

end
end FlowStudio.FileTree
