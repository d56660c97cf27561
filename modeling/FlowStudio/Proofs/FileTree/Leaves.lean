import FlowStudio.Proofs.FileTree.Contents

/-! The list of all files. It holds every file once and in an order that the paths alone decide, so
trees with the same files have the same list. -/

namespace FlowStudio.FileTree
open FlowStudio.Path
variable {t t' : FileTree}

/-- One file comes before another: where their paths part, directories come before files, and else
names in their order. -/
inductive Precedes : List String → List String → Prop
  | inside {n : String} {ns ms : List String} : Precedes ns ms → Precedes (n :: ns) (n :: ms)
  | dirs {n m : String} {ns ms : List String} :
    ns ≠ [] → ms ≠ [] → n < m → Precedes (n :: ns) (m :: ms)
  | dirFile {n m : String} {ns : List String} : ns ≠ [] → Precedes (n :: ns) [m]
  | files {n m : String} : n < m → Precedes [n] [m]

namespace Precedes
variable {as bs : List String}

theorem append_left (h : Precedes as bs) (above : List String) :
    Precedes (above ++ as) (above ++ bs) := by
  induction above with
  | nil => exact h
  | cons n above ih => exact .inside ih

theorem asymm (h : Precedes as bs) : ¬Precedes bs as := by
  induction h with
  | inside h ih =>
    rintro (h' | ⟨_, _, hlt⟩ | _ | hlt)
    · exact ih h'
    · exact String.lt_irrefl _ hlt
    · exact nomatch h
    · exact String.lt_irrefl _ hlt
  | dirs hns hms hlt =>
    rintro (_ | ⟨_, _, hgt⟩ | _ | _)
    · exact String.lt_irrefl _ hlt
    · exact String.lt_asymm hlt hgt
    · exact hns rfl
    · exact hns rfl
  | dirFile hne =>
    rintro (h | ⟨hnil, _, _⟩ | hnil | _)
    · exact nomatch h
    · exact hnil rfl
    · exact hnil rfl
    · exact hne rfl
  | files hlt =>
    rintro (h | ⟨hnil, _, _⟩ | hnil | hgt)
    · exact nomatch h
    · exact hnil rfl
    · exact hnil rfl
    · exact String.lt_asymm hlt hgt

end Precedes

theorem mem_members_iff {kind : EntryKind} {dir id : Nat} :
    id ∈ t.members kind dir ↔ t.IsChild dir id ∧ (t.arena.value id).kind = kind := by
  rw [members, IsChild]
  cases hd : t.arena.get? dir with
  | none => simp [child?, hd]
  | some d => simp [Entry.mem_ids_iff, child?_of_get? hd]

theorem pairwise_members (t : FileTree) (kind : EntryKind) (dir : Nat) :
    (t.members kind dir).Pairwise fun a b =>
      ∃ n m, t.child? dir n = some a ∧ t.child? dir m = some b ∧ n < m := by
  rw [members]
  cases hd : t.arena.get? dir with
  | none => exact .nil
  | some d =>
    refine List.Pairwise.filter _ ?_
    cases hn : d.names with
    | none => simp [Entry.ids, hn]
    | some names =>
      have hchild : ∀ {p}, p ∈ names.toList → t.child? dir p.1 = some p.2 := by
        intro p hp
        rw [child?_of_get? hd, Entry.find?, hn, Option.bind_some]
        exact Std.TreeMap.mem_toList_iff_getElem?_eq_some.mp hp
      simp only [Entry.ids, hn, List.pairwise_map]
      refine Std.TreeMap.ordered_keys_toList.imp_of_mem fun ha hb hlt => ?_
      exact ⟨_, _, hchild ha, hchild hb, compareOfLessAndEq_eq_lt.mp hlt⟩

section
variable (hw : t.WellFormed) {fuel dir : Nat} {above : List String} {leaf : Leaf}
include hw

theorem enough_below (hdir : t.resolve? above = some dir) (hfuel : t.arena.next ≤ fuel + dir + 1)
    {id : Nat} {name : String} (hc : t.child? dir name = some id) :
    t.resolve? (above ++ [name]) = some id ∧ t.arena.next ≤ fuel + id := by
  have hlt := hw.lt_of_child? hc
  exact ⟨by rw [resolve?_concat, hdir, Option.bind_some, hc], by omega⟩

theorem leaf_of_child? {id : Nat} {name : String} (hdir : t.resolve? above = some dir)
    (hc : t.child? dir name = some id) (hkind : (t.arena.value id).kind = .file) :
    ∃ body, t.leaf id = ⟨join (above ++ [name]), body⟩ ∧
      t.content? (above ++ [name]) = some (.file body) := by
  have hid : t.resolve? (above ++ [name]) = some id := by
    rw [resolve?_concat, hdir, Option.bind_some, hc]
  obtain ⟨-, e, he, hpath⟩ := hw.entry_of_resolve? hid
  rw [Arena.value_eq he] at hkind
  rw [leaf, Arena.value_eq he, content?_of_resolve? hid he, Entry.content, hkind]
  exact ⟨e.body, by rw [hpath], rfl⟩

theorem exists_child?_of_content? {name : String} {rest : List String} {c : Content}
    (hdir : t.resolve? above = some dir) (h : t.content? (above ++ name :: rest) = some c) :
    ∃ id, t.child? dir name = some id ∧ t.resolve? (above ++ [name]) = some id ∧
      ((t.arena.value id).kind = .dir ↔ t.content? (above ++ [name]) = some .dir) := by
  have hsome := isSome_resolve?_of_content? h
  have hpre : above ++ [name] <+: above ++ name :: rest := ⟨rest, by simp⟩
  have hstep : (t.resolve? (above ++ [name])).isSome := by
    by_cases heq : above ++ [name] = above ++ name :: rest
    · rwa [heq]
    · obtain ⟨id, -, hid, -⟩ := dir_of_content? (hw.content?_of_isPrefix hsome hpre heq)
      rw [hid, Option.isSome_some]
  obtain ⟨id, hid⟩ := Option.isSome_iff_exists.mp hstep
  obtain ⟨-, e, he, -⟩ := hw.entry_of_resolve? hid
  refine ⟨id, ?_, hid, ?_⟩
  · rwa [resolve?_concat, hdir, Option.bind_some] at hid
  · rw [Arena.value_eq he, content?_of_resolve? hid he, Option.some.injEq,
      Entry.content_eq_dir_iff]

theorem mem_leavesBelow_iff (hdir : t.resolve? above = some dir)
    (hfuel : t.arena.next ≤ fuel + dir) :
    leaf ∈ t.leavesBelow fuel dir ↔ ∃ rest, rest ≠ [] ∧ leaf.name = join (above ++ rest) ∧
      t.content? (above ++ rest) = some (.file leaf.body) := by
  induction fuel generalizing dir above with
  | zero =>
    -- from the next number on none is in use
    obtain ⟨-, d, hd, -⟩ := hw.entry_of_resolve? hdir
    have hlt := Arena.lt_next hd
    omega
  | succ fuel ih =>
    have hbelow : ∀ {id name}, t.child? dir name = some id →
        t.resolve? (above ++ [name]) = some id ∧ t.arena.next ≤ fuel + id :=
      enough_below hw hdir (by omega)
    rw [leavesBelow, List.mem_append, List.mem_flatMap, List.mem_map]
    constructor
    · rintro (⟨id, hid, hleaf⟩ | ⟨id, hid, rfl⟩)
      · obtain ⟨⟨name, hc⟩, -⟩ := mem_members_iff.mp hid
        obtain ⟨rest, -, hname, hfile⟩ := (ih (hbelow hc).1 (hbelow hc).2).mp hleaf
        rw [List.append_assoc, List.singleton_append] at hname hfile
        exact ⟨name :: rest, List.cons_ne_nil name rest, hname, hfile⟩
      · obtain ⟨⟨name, hc⟩, hkind⟩ := mem_members_iff.mp hid
        obtain ⟨body, hleaf, hfile⟩ := leaf_of_child? hw hdir hc hkind
        exact ⟨[name], List.cons_ne_nil name [], by rw [hleaf], by rw [hleaf, hfile]⟩
    · rintro ⟨rest, hne, hname, hfile⟩
      obtain ⟨name, rest, rfl⟩ := List.exists_cons_of_ne_nil hne
      obtain ⟨id, hc, hid, hkind⟩ := exists_child?_of_content? hw hdir hfile
      cases rest with
      | nil =>
        have hfilekind : (t.arena.value id).kind = .file := by
          cases hk : (t.arena.value id).kind with
          | file => rfl
          | dir => simp [hkind.mp hk] at hfile
        obtain ⟨body, hleaf, hbody⟩ := leaf_of_child? hw hdir hc hfilekind
        refine .inr ⟨id, mem_members_iff.mpr ⟨⟨name, hc⟩, hfilekind⟩, ?_⟩
        rw [hfile, Option.some.injEq, Content.file.injEq] at hbody
        rw [hleaf, ← hname, ← hbody]
      | cons s rest =>
        have hsome := isSome_resolve?_of_content? hfile
        have hdirkind := hkind.mpr (hw.content?_of_isPrefix hsome ⟨s :: rest, by simp⟩ (by simp))
        refine .inl ⟨id, mem_members_iff.mpr ⟨⟨name, hc⟩, hdirkind⟩, ?_⟩
        refine (ih hid (hbelow hc).2).mpr ⟨s :: rest, List.cons_ne_nil s rest, ?_, ?_⟩
        · rwa [List.append_assoc, List.singleton_append]
        · rwa [List.append_assoc, List.singleton_append]

theorem segments_of_content? {segs : List String} {c : Content} (h : t.content? segs = some c) :
    segments (join segs) = segs :=
  segments_join fun s hs => (hw.names_of_content? h s hs).1

theorem segments_of_mem_leavesBelow (hdir : t.resolve? above = some dir)
    (hfuel : t.arena.next ≤ fuel + dir) (h : leaf ∈ t.leavesBelow fuel dir) :
    ∃ rest, rest ≠ [] ∧ segments leaf.name = above ++ rest := by
  obtain ⟨rest, hne, hname, hfile⟩ := (mem_leavesBelow_iff hw hdir hfuel).mp h
  exact ⟨rest, hne, by rw [hname, segments_of_content? hw hfile]⟩

theorem segments_of_mem_leavesInside (hdir : t.resolve? above = some dir)
    (hfuel : t.arena.next ≤ fuel + dir + 1) {id : Nat} {name : String}
    (hc : t.child? dir name = some id) (h : leaf ∈ t.leavesBelow fuel id) :
    ∃ rest, rest ≠ [] ∧ segments leaf.name = above ++ name :: rest := by
  obtain ⟨hid, hbelow⟩ := enough_below hw hdir hfuel hc
  obtain ⟨rest, hne, hsegs⟩ := segments_of_mem_leavesBelow hw hid hbelow h
  exact ⟨rest, hne, by rw [hsegs, List.append_assoc, List.singleton_append]⟩

theorem segments_leaf (hdir : t.resolve? above = some dir) {id : Nat} {name : String}
    (hid : id ∈ t.members .file dir) (hc : t.child? dir name = some id) :
    segments (t.leaf id).name = above ++ [name] := by
  obtain ⟨body, hleaf, hfile⟩ := leaf_of_child? hw hdir hc (mem_members_iff.mp hid).2
  rw [hleaf, segments_of_content? hw hfile]

theorem pairwise_leavesBelow (hdir : t.resolve? above = some dir)
    (hfuel : t.arena.next ≤ fuel + dir) : (t.leavesBelow fuel dir).Pairwise fun a b =>
      Precedes (segments a.name) (segments b.name) := by
  induction fuel generalizing dir above with
  | zero => exact .nil
  | succ fuel ih =>
    have hfuel : t.arena.next ≤ fuel + dir + 1 := by omega
    rw [leavesBelow, List.pairwise_append, List.pairwise_flatMap, List.pairwise_map]
    refine ⟨⟨fun id hid => ?_, ?_⟩, ?_, fun a ha b hb => ?_⟩
    · obtain ⟨⟨name, hc⟩, -⟩ := mem_members_iff.mp hid
      obtain ⟨hid, hbelow⟩ := enough_below hw hdir hfuel hc
      exact ih hid hbelow
    · refine (t.pairwise_members .dir dir).imp ?_
      rintro c d ⟨n, m, hc, hd, hlt⟩ a ha b hb
      obtain ⟨ns, hns, hsegs⟩ := segments_of_mem_leavesInside hw hdir hfuel hc ha
      obtain ⟨ms, hms, hsegs'⟩ := segments_of_mem_leavesInside hw hdir hfuel hd hb
      rw [hsegs, hsegs']
      exact (Precedes.dirs hns hms hlt).append_left above
    · refine (t.pairwise_members .file dir).imp_of_mem ?_
      rintro c d hcmem hdmem ⟨n, m, hc, hd, hlt⟩
      rw [segments_leaf hw hdir hcmem hc, segments_leaf hw hdir hdmem hd]
      exact (Precedes.files hlt).append_left above
    · obtain ⟨c, hcmem, ha⟩ := List.mem_flatMap.mp ha
      obtain ⟨d, hdmem, rfl⟩ := List.mem_map.mp hb
      obtain ⟨⟨n, hc⟩, -⟩ := mem_members_iff.mp hcmem
      obtain ⟨⟨m, hd⟩, -⟩ := mem_members_iff.mp hdmem
      obtain ⟨ns, hns, hsegs⟩ := segments_of_mem_leavesInside hw hdir hfuel hc ha
      rw [hsegs, segments_leaf hw hdir hdmem hd]
      exact (Precedes.dirFile hns).append_left above

theorem mem_readAll_iff :
    leaf ∈ t.readAll ↔
      ∃ segs, leaf.name = join segs ∧ t.content? segs = some (.file leaf.body) := by
  rw [readAll, mem_leavesBelow_iff hw (resolve?_nil t) (Nat.le_add_right _ _)]
  refine exists_congr fun segs => and_iff_right_of_imp ?_
  -- the root itself is no file
  rintro ⟨-, hfile⟩ rfl
  simp [hw.content?_nil] at hfile

theorem pairwise_readAll :
    t.readAll.Pairwise fun a b => Precedes (segments a.name) (segments b.name) :=
  pairwise_leavesBelow hw (resolve?_nil t) (Nat.le_add_right _ _)

theorem nodup_readAll : t.readAll.Nodup :=
  (pairwise_readAll hw).imp fun h heq => (heq ▸ h).asymm (heq ▸ h)

theorem mem_readAll_iff_values : leaf ∈ t.readAll ↔
    ∃ e, (e ∈ t.arena.values ∧ e.kind = .file) ∧ (⟨e.path, e.body⟩ : Leaf) = leaf := by
  rw [mem_readAll_iff hw]
  constructor
  · rintro ⟨segs, hname, hfile⟩
    obtain ⟨id, hid, hcontent⟩ := Option.bind_eq_some_iff.mp hfile
    obtain ⟨e, he, hbody⟩ := Option.map_eq_some_iff.mp hcontent
    obtain ⟨-, e', he', hpath⟩ := hw.entry_of_resolve? hid
    obtain rfl : e = e' := Option.some.inj (he.symm.trans he')
    rw [Entry.content] at hbody
    cases hkind : e.kind with
    | file =>
      rw [hkind, Content.file.injEq] at hbody
      exact ⟨e, ⟨Arena.mem_values_iff.mpr ⟨id, he⟩, hkind⟩, by rw [hpath, hbody, ← hname]⟩
    | dir => simp [hkind] at hbody
  · rintro ⟨e, ⟨hmem, hkind⟩, rfl⟩
    obtain ⟨id, he⟩ := Arena.mem_values_iff.mp hmem
    have hid := hw.resolve?_path he
    obtain ⟨-, e', he', hpath⟩ := hw.entry_of_resolve? hid
    obtain rfl : e = e' := Option.some.inj (he.symm.trans he')
    exact ⟨segments e.path, hpath, by rw [content?_of_resolve? hid he, Entry.content, hkind]⟩

theorem pairwise_path_values : t.arena.values.Pairwise fun a b => a.path ≠ b.path := by
  refine Arena.pairwise_values fun {i j a b} hne ha hb hpath => hne ?_
  have hi := hw.resolve?_path ha
  rw [hpath, hw.resolve?_path hb] at hi
  exact (Option.some.inj hi).symm

theorem size_eq_length_readAll : t.size = t.readAll.length := by
  have hnodup : ((t.arena.values.filter (·.kind = .file)).map
      fun e => (⟨e.path, e.body⟩ : Leaf)).Nodup := by
    refine List.pairwise_map.mpr (((pairwise_path_values hw).filter _).imp ?_)
    exact fun hne heq => hne (Leaf.mk.inj heq).1
  have hperm := (List.perm_ext_iff_of_nodup hnodup (nodup_readAll hw)).mpr fun leaf => by
    simp only [mem_readAll_iff_values hw, List.mem_map, List.mem_filter, decide_eq_true_eq]
  rw [← hperm.length_eq, List.length_map, ← List.countP_eq_length_filter, size]

theorem isEmpty_iff : t.isEmpty = true ↔ t.readAll = [] := by
  rw [isEmpty, beq_iff_eq, size_eq_length_readAll hw, List.length_eq_zero_iff]

end

/-- A listing tells no more of a tree than its files. -/
theorem readAll_eq_of_files (hw : t.WellFormed) (hw' : t'.WellFormed)
    (h : ∀ segs body, t'.content? segs = some (.file body) ↔ t.content? segs = some (.file body)) :
    t'.readAll = t.readAll := by
  refine List.Perm.eq_of_pairwise (fun a b _ _ hab hba => absurd hba hab.asymm)
    (pairwise_readAll hw') (pairwise_readAll hw) ?_
  rw [List.perm_ext_iff_of_nodup (nodup_readAll hw') (nodup_readAll hw)]
  intro leaf
  simp only [mem_readAll_iff hw', mem_readAll_iff hw, h]

end FlowStudio.FileTree
