import FlowStudio.Proofs.FileTree.Removal
import FlowStudio.Proofs.FileTree.Writing

/-! Trees as edits make them of the empty one. All links of such a tree agree, and each further edit
changes what its path names and nothing else. -/

namespace FlowStudio
open FlowStudio.Path

inductive Change where
  | directory (path : String)
  | file (path body : String)
  | removal (path : String)

def Change.apply (t : FileTree) : Change → FileTree
  | .directory path => (t.addDirectory path).tree
  | .file path body => (t.addFile path body).tree
  | .removal path => (t.delete path).tree

namespace FileTree
variable {t : FileTree}

def after (changes : List Change) : FileTree := changes.foldl Change.apply empty

theorem get?_arena_empty (id : Nat) :
    empty.arena.get? id = if id = 0 then some (.ofDir "/" none) else none := by
  change ((Arena.empty : Arena Entry).insert _).1.get? id = _
  rw [Arena.get?_insert, Arena.get?_empty]
  rfl

theorem child?_empty (dir : Nat) (name : String) : empty.child? dir name = none := by
  rw [child?, get?_arena_empty]
  split
  · exact Entry.find?_ofDir "/" none name
  · rfl

theorem wellFormed_empty : empty.WellFormed := by
  refine ⟨⟨_, get?_arena_empty 0, rfl, rfl, rfl⟩, ?_, ?_, ?_⟩
  · intro id e he
    rw [get?_arena_empty] at he
    split at he
    · simp [← Option.some.inj he, Entry.ofDir]
    · simp at he
  · intro dir d name id _ hc
    simp [child?_empty] at hc
  · intro id e he hroot
    have hne : id ≠ 0 := hroot
    rw [get?_arena_empty, if_neg hne] at he
    simp at he

theorem WellFormed.apply (hw : t.WellFormed) (c : Change) : (c.apply t).WellFormed := by
  cases c with
  | directory path => exact hw.addDirectory path
  | file path body => exact hw.addFile path body
  | removal path => exact hw.delete path

theorem WellFormed.foldl_apply (hw : t.WellFormed) (changes : List Change) :
    (changes.foldl Change.apply t).WellFormed := by
  induction changes generalizing t with
  | nil => exact hw
  | cons c cs ih => exact ih (hw.apply c)

theorem wellFormed_after (changes : List Change) : (after changes).WellFormed :=
  wellFormed_empty.foldl_apply changes

/-- Parents, names, paths and the way down from the root tell of the same tree, and nothing in it
leads to a number that is not in use. -/
structure Consistent (t : FileTree) : Prop where
  root_entry : ∃ e, t.arena.get? t.root = some e ∧ e.kind = .dir ∧ e.path = "/" ∧ e.parent = none
  /-- An entry stands in its parent under the last segment of its path, and under no other name. -/
  held : ∀ {id e}, t.arena.get? id = some e → id ≠ t.root → ∃ dir d name,
    e.parent = some dir ∧ t.arena.get? dir = some d ∧ d.kind = .dir ∧
      (∀ n, d.find? n = some id ↔ n = name) ∧ (segments e.path).getLast? = some name ∧
      e.path = join (segments d.path ++ [name])
  holds : ∀ {dir d name id}, t.arena.get? dir = some d → d.find? name = some id →
    ∃ e, t.arena.get? id = some e ∧ e.parent = some dir
  names_iff : ∀ {id e}, t.arena.get? id = some e → (e.names.isSome ↔ e.kind = .dir)
  name_of_find? : ∀ {dir d name id}, t.arena.get? dir = some d → d.find? name = some id →
    name ≠ "" ∧ '/' ∉ name.toList ∧ name ≠ "." ∧ name ≠ ".."
  name_of_mem : ∀ {id e}, t.arena.get? id = some e → ∀ s ∈ segments e.path,
    s ≠ "" ∧ '/' ∉ s.toList ∧ s ≠ "." ∧ s ≠ ".."
  reachable : ∀ {id e}, t.arena.get? id = some e → t.Below t.root id
  acyclic : ∀ id, ¬Relation.TransGen t.IsChild id id
  /-- The numbers that making a directory, writing a file and reading all files rely on. -/
  child_live : ∀ {dir name id}, t.child? dir name = some id → ∃ e, t.arena.get? id = some e
  resolve_live : ∀ {segs id}, t.resolve? segs = some id → ∃ e, t.arena.get? id = some e
  member_live : ∀ {dir d id}, t.arena.get? dir = some d → id ∈ d.ids → ∃ e, t.arena.get? id = some e

theorem WellFormed.names_of_path (hw : t.WellFormed) {id : Nat} {e : Entry}
    (h : t.arena.get? id = some e) : ∀ s ∈ segments e.path, IsName s :=
  (hw.entry_of_resolve? (hw.resolve?_path h)).1

theorem WellFormed.acyclic (hw : t.WellFormed) (id : Nat) : ¬Relation.TransGen t.IsChild id id := by
  intro h
  obtain ⟨c, ⟨name, hname⟩, hrest⟩ := Relation.TransGen.head'_iff.mp h
  exact absurd (hw.branching.le_of_below hrest) (Nat.not_le_of_lt (hw.lt_of_child? hname))

theorem WellFormed.consistent (hw : t.WellFormed) : t.Consistent where
  root_entry := hw.root_entry
  held := by
    intro id e he hroot
    obtain ⟨dir, name, hparent, hc⟩ := hw.parent_child he hroot
    obtain ⟨d, hd, hkind⟩ := hw.dir_of_child? hc
    obtain ⟨hname, -, e', he', -, hpath⟩ := hw.child_entry hd hc
    obtain rfl : e = e' := Option.some.inj (he.symm.trans he')
    refine ⟨dir, d, name, hparent, hd, hkind, fun n => ?_, ?_, hpath⟩
    · rw [← child?_of_get? hd]
      exact ⟨fun hn => (hw.child?_injective hn hc).2, fun hn => hn ▸ hc⟩
    · rw [hpath, segments_join_concat d.path hname.1, List.getLast?_append, List.getLast?_singleton,
        Option.some_or]
  holds := by
    intro dir d name id hd hfind
    obtain ⟨-, -, e, he, hparent, -⟩ := hw.child_entry hd ((child?_of_get? hd name).trans hfind)
    exact ⟨e, he, hparent⟩
  names_iff := hw.names_iff
  name_of_find? := by
    intro dir d name id hd hfind
    obtain ⟨⟨hseg, hstep⟩, -⟩ := hw.child_entry hd ((child?_of_get? hd name).trans hfind)
    exact ⟨hseg.1, hseg.2, hstep⟩
  name_of_mem := by
    intro id e he s hs
    obtain ⟨hseg, hstep⟩ := hw.names_of_path he s hs
    exact ⟨hseg.1, hseg.2, hstep⟩
  reachable := fun he => below_of_resolve? (resolve?_nil t) (hw.resolve?_path he)
  acyclic := hw.acyclic
  child_live := by
    intro dir name id hc
    obtain ⟨d, hd, -⟩ := hw.dir_of_child? hc
    obtain ⟨-, -, e, he, -⟩ := hw.child_entry hd hc
    exact ⟨e, he⟩
  resolve_live := by
    intro segs id h
    obtain ⟨-, e, he, -⟩ := hw.entry_of_resolve? h
    exact ⟨e, he⟩
  member_live := by
    intro dir d id hd hid
    obtain ⟨name, hfind⟩ := Entry.mem_ids_iff.mp hid
    obtain ⟨-, -, e, he, -⟩ := hw.child_entry hd ((child?_of_get? hd name).trans hfind)
    exact ⟨e, he⟩

theorem consistent_after (changes : List Change) : (after changes).Consistent :=
  (wellFormed_after changes).consistent

def SameAt (t t' : FileTree) (q : String) : Prop := t'.kind? q = t.kind? q ∧ t'.read? q = t.read? q

theorem sameAt_of_content? {t' : FileTree} {q : String}
    (h : t'.content? (segments q) = t.content? (segments q)) : SameAt t t' q := by
  rw [SameAt, kind?_eq, kind?_eq, read?_eq, read?_eq, h]
  exact ⟨rfl, rfl⟩

theorem kind?_of_content? {q : String} {c : Content} (h : t.content? (segments q) = some c) :
    t.kind? q = some c.kind := by
  rw [kind?_eq, h, Option.map_some]

theorem kind?_read?_addFile (hw : t.WellFormed) {path body : String} {id : Nat}
    (h : (t.addFile path body).result = .ok id) (q : String) :
    (segments q = segments path → (t.addFile path body).tree.kind? q = some .file ∧
        (t.addFile path body).tree.read? q = some body) ∧
      (segments q <+: segments path → segments q ≠ segments path →
        (t.addFile path body).tree.kind? q = some .dir) ∧
      (¬segments q <+: segments path → SameAt t (t.addFile path body).tree q) := by
  have hcontent := (wroteFile_addFile hw h).content?_eq (segments q)
  refine ⟨fun hq => ?_, fun hq hne => ?_, fun hq => ?_⟩
  · rw [if_pos hq] at hcontent
    exact ⟨kind?_of_content? hcontent, by rw [read?_eq, hcontent]; rfl⟩
  · rw [if_neg hne, if_pos hq] at hcontent
    exact kind?_of_content? hcontent
  · have hne : segments q ≠ segments path := fun heq => hq (heq ▸ List.prefix_refl _)
    rw [if_neg hne, if_neg hq] at hcontent
    exact sameAt_of_content? hcontent

theorem kind?_addDirectory (hw : t.WellFormed) {path : String} {id : Nat}
    (h : (t.addDirectory path).result = .ok id) (q : String) :
    (segments q <+: segments path → (t.addDirectory path).tree.kind? q = some .dir) ∧
      (¬segments q <+: segments path → SameAt t (t.addDirectory path).tree q) := by
  have hcontent := (madeDir_addDirectory hw h).content?_eq (segments q)
  refine ⟨fun hq => ?_, fun hq => ?_⟩
  · rw [if_pos hq] at hcontent
    exact kind?_of_content? hcontent
  · rw [if_neg hq] at hcontent
    exact sameAt_of_content? hcontent

theorem contains_delete (hw : t.WellFormed) {path : String} (h : (t.delete path).result = .ok ())
    (q : String) :
    (segments path <+: segments q →
        (t.delete path).tree.contains q = false ∧ (t.delete path).tree.kind? q = none) ∧
      (¬segments path <+: segments q → SameAt t (t.delete path).tree q) := by
  have hcontent := content?_delete hw h (segments q)
  refine ⟨fun hq => ?_, fun hq => ?_⟩
  · rw [if_pos hq] at hcontent
    rw [contains, (hw.delete path).content?_eq_none_iff.mp hcontent, kind?_eq, hcontent]
    exact ⟨rfl, rfl⟩
  · rw [if_neg hq] at hcontent
    exact sameAt_of_content? hcontent

/-- After any edits, one more that succeeds makes its path what was asked for and leaves all other
paths alone, whichever way they are spelt. -/
theorem edit_changes_only_its_path (changes : List Change) (path q : String) :
    (∀ body id, ((after changes).addFile path body).result = .ok id →
      (segments q = segments path →
        ((after changes).addFile path body).tree.kind? q = some .file ∧
          ((after changes).addFile path body).tree.read? q = some body) ∧
      (segments q <+: segments path → segments q ≠ segments path →
        ((after changes).addFile path body).tree.kind? q = some .dir) ∧
      (¬segments q <+: segments path →
        SameAt (after changes) ((after changes).addFile path body).tree q)) ∧
    (∀ id, ((after changes).addDirectory path).result = .ok id →
      (segments q <+: segments path →
        ((after changes).addDirectory path).tree.kind? q = some .dir) ∧
      (¬segments q <+: segments path →
        SameAt (after changes) ((after changes).addDirectory path).tree q)) ∧
    (((after changes).delete path).result = .ok () →
      (segments path <+: segments q → ((after changes).delete path).tree.contains q = false ∧
        ((after changes).delete path).tree.kind? q = none) ∧
      (¬segments path <+: segments q →
        SameAt (after changes) ((after changes).delete path).tree q)) := by
  have hw := wellFormed_after changes
  exact ⟨fun _ _ h => kind?_read?_addFile hw h q, fun _ h => kind?_addDirectory hw h q,
    fun h => contains_delete hw h q⟩

theorem edit_changes_only_its_path_nested :
    let t := after [.file "/a/b" "x", .directory "d"]
    let wrote := (t.addFile "a//c" "y").tree
    ((t.addFile "a//c" "y").result = .ok 4 ∧ wrote.read? "/a/c/" = some "y" ∧
      wrote.kind? "a" = some .dir ∧ SameAt t wrote "/a/b") ∧
    ((t.addDirectory "a/e/f").result = .ok 5 ∧
      (t.addDirectory "a/e/f").tree.kind? "/a/e" = some .dir) ∧
    ((t.delete "/a").result = .ok () ∧ (t.delete "/a").tree.contains "/a/b" = false ∧
      SameAt t (t.delete "/a").tree "/d") := by
  have hfile := fun q => (edit_changes_only_its_path [.file "/a/b" "x", .directory "d"] "a//c" q).1
    "y" 4 (by decide)
  have hdir := (edit_changes_only_its_path [.file "/a/b" "x", .directory "d"] "a/e/f" "/a/e").2.1
    5 (by decide)
  have hgone := fun q => (edit_changes_only_its_path [.file "/a/b" "x", .directory "d"] "/a" q).2.2
    (by decide)
  exact ⟨⟨by decide, ((hfile "/a/c/").1 (by decide)).2, (hfile "a").2.1 (by decide) (by decide),
      (hfile "/a/b").2.2 (by decide)⟩,
    ⟨by decide, hdir.1 (by decide)⟩,
    by decide, ((hgone "/a/b").1 (by decide)).1, (hgone "/d").2 (by decide)⟩

end FileTree
end FlowStudio
