import FlowStudio.Proofs.FileTree.History

/-! The numbers of entries tell the entries apart. What stands at some segments keeps its number for
as long as it stands there, and the number of what was taken out is never in use again. -/

namespace FlowStudio
open FlowStudio.Path

def Change.path : Change → String
  | .directory path => path
  | .file path _ => path
  | .removal path => path

def Change.Gives (t : FileTree) (id : Nat) : Change → Prop
  | .directory path => (t.addDirectory path).result = .ok id
  | .file path body => (t.addFile path body).result = .ok id
  | .removal _ => False

instance (t : FileTree) (id : Nat) : (c : Change) → Decidable (c.Gives t id)
  | .directory path => inferInstanceAs (Decidable ((t.addDirectory path).result = .ok id))
  | .file path body => inferInstanceAs (Decidable ((t.addFile path body).result = .ok id))
  | .removal _ => inferInstanceAs (Decidable False)

namespace Arena
variable {α : Type}

theorem next_insert (a : Arena α) (value : α) : (a.insert value).1.next = a.next + 1 :=
  Array.size_push (some value)

theorem next_modify (a : Arena α) (id : Nat) (change : α → α) : (a.modify id change).next = a.next :=
  Array.size_modify

theorem next_erase (a : Arena α) (id : Nat) : (a.erase id).next = a.next :=
  Array.size_setIfInBounds

end Arena

namespace FileTree
variable {t t' t'' : FileTree}

/-- A number that was given out and is not in use any more. -/
def Spent (t : FileTree) (id : Nat) : Prop := id < t.arena.next ∧ t.arena.get? id = none

theorem not_spent_of_resolve? (hw : t.WellFormed) {segs : List String} {id : Nat}
    (h : t.resolve? segs = some id) : ¬t.Spent id := by
  obtain ⟨-, e, he, -⟩ := hw.entry_of_resolve? h
  rintro ⟨-, hnone⟩
  simp [he] at hnone

structure Grows (t t' : FileTree) : Prop where
  resolve?_of : ∀ {segs id}, t.resolve? segs = some id → t'.resolve? segs = some id
  spent_of : ∀ {id}, t.Spent id → t'.Spent id

theorem Grows.refl (t : FileTree) : Grows t t := ⟨id, id⟩

theorem Grows.trans (h : Grows t t') (h' : Grows t' t'') : Grows t t'' :=
  ⟨fun hid => h'.resolve?_of (h.resolve?_of hid), fun hid => h'.spent_of (h.spent_of hid)⟩

theorem Grows.of_child? (hroot : t'.root = t.root)
    (hchild : ∀ {dir name id}, t.child? dir name = some id → t'.child? dir name = some id)
    (hspent : ∀ {id}, t.Spent id → t'.Spent id) : Grows t t' where
  resolve?_of {segs id} h := by
    induction segs using List.reverseRecOn generalizing id with
    | nil => rwa [resolve?_nil, hroot, ← resolve?_nil t]
    | append_singleton segs s ih =>
      rw [resolve?_concat] at h ⊢
      obtain ⟨dir, hdir, hc⟩ := Option.bind_eq_some_iff.mp h
      rw [ih hdir, Option.bind_some, hchild hc]
  spent_of := hspent

section
variable {parent : Nat} {name : String} (e : Entry)

theorem child?_insertChild_of_some (hfree : t.child? parent name = none) {dir id : Nat} {n : String}
    (h : t.child? dir n = some id) : (t.insertChild parent name e).1.child? dir n = some id := by
  obtain ⟨d, hd, hfind⟩ := exists_get?_of_child? h
  change (((t.arena.insert e).1.modify parent (·.withName name t.arena.next)).get? dir).bind _ = _
  rw [Arena.get?_modify, Arena.get?_insert, if_neg (Arena.ne_next hd), hd]
  split
  · next hdir =>
    have hne : n ≠ name := by
      rintro rfl
      rw [hdir, hfree] at h
      cases h
    have hnames : d.names.isSome := by
      obtain ⟨names, hnames, -⟩ := Option.bind_eq_some_iff.mp hfind
      rw [hnames, Option.isSome_some]
    rw [Option.map_some, Option.bind_some, Entry.find?_withName hnames, if_neg hne, hfind]
  · rw [Option.bind_some, hfind]

theorem spent_insertChild {id : Nat} (h : t.Spent id) : (t.insertChild parent name e).1.Spent id := by
  obtain ⟨hlt, hnone⟩ := h
  constructor
  · change id < ((t.arena.insert e).1.modify parent (·.withName name t.arena.next)).next
    rw [Arena.next_modify, Arena.next_insert]
    exact Nat.lt_succ_of_lt hlt
  · change ((t.arena.insert e).1.modify parent (·.withName name t.arena.next)).get? id = none
    rw [Arena.get?_modify, Arena.get?_insert, if_neg (Nat.ne_of_lt hlt), hnone]
    exact ite_self none

theorem grows_insertChild (hfree : t.child? parent name = none) :
    Grows t (t.insertChild parent name e).1 :=
  .of_child? rfl (child?_insertChild_of_some e hfree) (spent_insertChild e)

end

theorem grows_descend (dir : Nat) (above ss : List String) : Grows t (t.descend dir above ss).1 := by
  induction ss generalizing t dir above with
  | nil => exact .refl t
  | cons s ss ih =>
    cases hchild : t.child? dir s with
    | some id =>
      rw [descend_cons_of_some hchild]
      exact ih id (above ++ [s])
    | none =>
      rw [descend_cons_of_none hchild]
      exact (grows_insertChild _ hchild).trans (ih _ (above ++ [s]))

theorem grows_addDirectory (t : FileTree) (path : String) : Grows t (t.addDirectory path).tree := by
  rw [addDirectory]
  split
  · exact .refl t
  · split
    · exact .refl t
    · exact grows_descend t.root [] _

theorem grows_addParents (t : FileTree) (parents : List String) :
    Grows t (t.addParents parents).tree := by
  rw [addParents]
  split
  · exact .refl t
  · exact grows_addDirectory t (join parents)

theorem grows_write (t : FileTree) (id : Nat) (body : String) : Grows t (t.write id body) := by
  refine .of_child? rfl (fun h => by rwa [child?_write]) fun {k} ⟨hlt, hnone⟩ => ⟨?_, ?_⟩
  · rw [write, Arena.next_modify]
    exact hlt
  · rw [get?_write, hnone]
    exact ite_self none

theorem grows_addFile (hw : t.WellFormed) (path body : String) :
    Grows t (t.addFile path body).tree := by
  cases h : (t.addFile path body).result with
  | error e =>
    rw [tree_addFile_of_error h]
    exact .refl t
  | ok id =>
    obtain ⟨above, name, hc, ⟨-, -, htree⟩ | ⟨hnone, parent, hresult, -, htree⟩⟩ := addFile_cases h
    · rw [htree]
      exact grows_write t id body
    · obtain ⟨p, hf⟩ := exists_free_addParents hw (checked_eq_ok_iff.mp hc).2 hnone hresult
      rw [htree]
      exact (grows_addParents t above).trans (grows_insertChild _ hf.child?_eq)

theorem next_prune (fuel : Nat) (arena : Arena Entry) (id : Nat) :
    (prune fuel arena id).next = arena.next := by
  induction fuel generalizing arena id with
  | zero => rfl
  | succ fuel ih =>
    have hfold : ∀ (ids : List Nat) (arena : Arena Entry),
        (ids.foldl (prune fuel) arena).next = arena.next := by
      intro ids
      induction ids with
      | nil => exact fun _ => rfl
      | cons id ids ihids => exact fun arena => (ihids _).trans (ih arena id)
    rw [prune]
    split
    · rfl
    · rw [hfold, Arena.next_erase]

theorem next_cut (t : FileTree) (id : Nat) (name : String) :
    (t.cut id name).arena.next = t.arena.next := by
  rw [cut, next_prune, unlink]
  split
  · rfl
  · exact Arena.next_modify ..

theorem resolve?_delete (hw : t.WellFormed) {path : String} (h : (t.delete path).result = .ok ())
    {segs : List String} {id : Nat} (hid : t.resolve? segs = some id) :
    (¬segments path <+: segs → (t.delete path).tree.resolve? segs = some id) ∧
      (segments path <+: segs → (t.delete path).tree.Spent id) := by
  obtain ⟨top, htop, hroot, hr⟩ := removed_delete hw h
  obtain ⟨above, name, k, -, -, htree⟩ := delete_cases h
  refine ⟨fun hout => (hr.resolve?_eq_some_iff hw hroot).mpr ⟨hid, fun hbelow => hout ?_⟩, ?_⟩
  · obtain ⟨rest, hrest⟩ := exists_resolve?_of_below htop hbelow
    exact ⟨rest, hw.resolve?_injective hrest hid⟩
  · rintro ⟨rest, rfl⟩
    obtain ⟨-, e, he, -⟩ := hw.entry_of_resolve? hid
    refine ⟨?_, hr.gone (below_of_resolve? htop hid)⟩
    rw [htree, next_cut]
    exact Arena.lt_next he

theorem spent_delete (hw : t.WellFormed) (path : String) {id : Nat} (h : t.Spent id) :
    (t.delete path).tree.Spent id := by
  cases hresult : (t.delete path).result with
  | error e => rwa [tree_delete_of_error hresult]
  | ok _ =>
    obtain ⟨top, -, -, hr⟩ := removed_delete hw hresult
    obtain ⟨above, name, k, -, -, htree⟩ := delete_cases hresult
    constructor
    · rw [htree, next_cut]
      exact h.1
    · by_cases hbelow : t.Below top id
      · exact hr.gone hbelow
      · simpa [h.2] using hr.kept hbelow

theorem spent_apply (hw : t.WellFormed) {id : Nat} (h : t.Spent id) (c : Change) :
    (c.apply t).Spent id := by
  cases c with
  | directory path => exact (grows_addDirectory t path).spent_of h
  | file path body => exact (grows_addFile hw path body).spent_of h
  | removal path => exact spent_delete hw path h

theorem spent_foldl_apply (hw : t.WellFormed) {id : Nat} (h : t.Spent id) (cs : List Change) :
    (cs.foldl Change.apply t).Spent id := by
  induction cs generalizing t with
  | nil => exact h
  | cons c cs ih => exact ih (hw.apply c) (spent_apply hw h c)

/-- Whether a change takes out what stands at some segments, or a directory above it. -/
def TakesOut (t : FileTree) (segs : List String) : Change → Prop
  | .removal path => (t.delete path).result = .ok () ∧ segments path <+: segs
  | _ => False

theorem resolve?_apply (hw : t.WellFormed) {segs : List String} {id : Nat}
    (h : t.resolve? segs = some id) (c : Change) :
    (¬t.TakesOut segs c → (c.apply t).resolve? segs = some id) ∧
      (t.TakesOut segs c → (c.apply t).Spent id) := by
  cases c with
  | directory path => exact ⟨fun _ => (grows_addDirectory t path).resolve?_of h, False.elim⟩
  | file path body => exact ⟨fun _ => (grows_addFile hw path body).resolve?_of h, False.elim⟩
  | removal path =>
    cases hresult : (t.delete path).result with
    | error e =>
      refine ⟨fun _ => ?_, fun htakes => ?_⟩
      · rw [Change.apply, tree_delete_of_error hresult, h]
      · cases hresult.symm.trans htakes.1
    | ok _ =>
      obtain ⟨hkept, hgone⟩ := resolve?_delete hw hresult h
      exact ⟨fun hnot => hkept fun hpre => hnot ⟨hresult, hpre⟩, fun htakes => hgone htakes.2⟩

def TakenOut (t : FileTree) (segs : List String) (cs : List Change) : Prop :=
  ∃ first c rest, cs = first ++ c :: rest ∧ (first.foldl Change.apply t).TakesOut segs c

theorem takenOut_cons_iff {segs : List String} {c : Change} {cs : List Change} :
    t.TakenOut segs (c :: cs) ↔ t.TakesOut segs c ∨ (c.apply t).TakenOut segs cs := by
  constructor
  · rintro ⟨first, d, rest, hsplit, htakes⟩
    cases first with
    | nil =>
      obtain ⟨rfl, -⟩ := List.cons.inj hsplit
      exact .inl htakes
    | cons _ first =>
      obtain ⟨rfl, rfl⟩ := List.cons.inj hsplit
      exact .inr ⟨first, d, rest, rfl, htakes⟩
  · rintro (htakes | ⟨first, d, rest, rfl, htakes⟩)
    · exact ⟨[], c, cs, rfl, htakes⟩
    · exact ⟨c :: first, d, rest, rfl, htakes⟩

theorem resolve?_foldl_apply (hw : t.WellFormed) {segs : List String} {id : Nat}
    (h : t.resolve? segs = some id) (cs : List Change) :
    (¬t.TakenOut segs cs → (cs.foldl Change.apply t).resolve? segs = some id) ∧
      (t.TakenOut segs cs → (cs.foldl Change.apply t).Spent id) := by
  induction cs generalizing t with
  | nil =>
    refine ⟨fun _ => h, ?_⟩
    rintro ⟨first, c, rest, hsplit, -⟩
    cases first <;> cases hsplit
  | cons c cs ih =>
    obtain ⟨hkept, hgone⟩ := resolve?_apply hw h c
    rw [takenOut_cons_iff]
    by_cases htakes : t.TakesOut segs c
    · have hspent := spent_foldl_apply (hw.apply c) (hgone htakes) cs
      exact ⟨fun hnot => absurd (.inl htakes) hnot, fun _ => hspent⟩
    · obtain ⟨hrest, hlost⟩ := ih (hw.apply c) (hkept htakes)
      exact ⟨fun hnot => hrest fun h => hnot (.inr h), fun h => hlost (h.resolve_left htakes)⟩

theorem resolve?_of_gives (hw : t.WellFormed) {c : Change} {id : Nat} (h : c.Gives t id) :
    (c.apply t).resolve? (segments c.path) = some id := by
  cases c with
  | directory path => exact (madeDir_addDirectory hw h).resolve?_eq
  | file path body => exact (wroteFile_addFile hw h).resolve?_eq
  | removal path => exact h.elim

theorem not_takesOut_of_gives {c : Change} {id : Nat} (h : c.Gives t id) (segs : List String) :
    ¬t.TakesOut segs c := by
  cases c with
  | directory path => exact not_false
  | file path body => exact not_false
  | removal path => exact h.elim

/-- A number that stands at some segments is given again just there, and only until it is taken
out. -/
theorem eq_iff_of_gives (hw : t.WellFormed) {segs : List String} {a b : Nat}
    (ha : t.resolve? segs = some a) {cs : List Change} {d : Change}
    (hd : d.Gives (cs.foldl Change.apply t) b) :
    a = b ↔ segs = segments d.path ∧ ¬t.TakenOut segs cs := by
  have hw' := hw.foldl_apply cs
  have hb := resolve?_of_gives hw' hd
  obtain ⟨hkept, hspent⟩ := resolve?_foldl_apply hw ha cs
  by_cases hout : t.TakenOut segs cs
  · have hgone := spent_apply hw' (hspent hout) d
    have hne : a ≠ b := by
      rintro rfl
      exact not_spent_of_resolve? (hw'.apply d) hb hgone
    simp [hne, hout]
  · have ha' := (resolve?_apply hw' (hkept hout) d).1 (not_takesOut_of_gives hd segs)
    constructor
    · rintro rfl
      exact ⟨(hw'.apply d).resolve?_injective ha' hb, hout⟩
    · rintro ⟨rfl, -⟩
      exact Option.some.inj (ha'.symm.trans hb)

theorem after_append (cs ds : List Change) : after (cs ++ ds) = ds.foldl Change.apply (after cs) :=
  List.foldl_append

/-- Two calls give one number exactly if they name one place and nothing has taken it out between
them. Any calls may come before and between them, refused ones too. -/
theorem same_number_iff (before : List Change) (c : Change) (between : List Change) (d : Change)
    (a b : Nat) (hc : c.Gives (after before) a) (hd : d.Gives (after (before ++ c :: between)) b) :
    a = b ↔ segments c.path = segments d.path ∧
      ∀ first path rest, between = first ++ .removal path :: rest → segments path <+: segments c.path →
        ((after (before ++ c :: first)).delete path).result ≠ .ok () := by
  have hw := wellFormed_after before
  have hat := resolve?_of_gives hw hc
  rw [after_append, List.foldl_cons] at hd
  rw [eq_iff_of_gives (hw.apply c) hat hd]
  refine and_congr_right fun _ => ⟨?_, ?_⟩
  · intro hnot first path rest hsplit hpre hok
    rw [after_append, List.foldl_cons] at hok
    exact hnot ⟨first, .removal path, rest, hsplit, hok, hpre⟩
  · rintro hnot ⟨first, e, rest, hsplit, htakes⟩
    cases e with
    | directory path => exact htakes
    | file path body => exact htakes
    | removal path =>
      obtain ⟨hok, hpre⟩ := htakes
      refine hnot first path rest hsplit hpre ?_
      rwa [after_append, List.foldl_cons]

theorem same_number_iff_parent :
    let before := [Change.file "/a/b" "x"]
    (Change.directory "a/").Gives (after before) 1 ∧
      (Change.directory "/a").Gives
        (after (before ++ .directory "a/" :: [.file "/a/b" "y", .removal "/a/b"])) 1 ∧
      (Change.directory "/a").Gives (after (before ++ .directory "a/" :: [.removal "/a"])) 3 ∧
      segments "a/" = segments "/a" ∧
      ¬∀ first path rest, [Change.removal "/a"] = first ++ .removal path :: rest →
        segments path <+: segments "a/" →
          ((after (before ++ .directory "a/" :: first)).delete path).result ≠ .ok () := by
  have hfirst : (Change.directory "a/").Gives (after [.file "/a/b" "x"]) 1 := by decide
  have hkept : (Change.directory "/a").Gives (after ([.file "/a/b" "x"] ++
      .directory "a/" :: [.file "/a/b" "y", .removal "/a/b"])) 1 := by decide
  have hnew : (Change.directory "/a").Gives
      (after ([.file "/a/b" "x"] ++ .directory "a/" :: [.removal "/a"])) 3 := by decide
  have hsame := ((same_number_iff _ _ _ _ 1 1 hfirst hkept).mp rfl).1
  refine ⟨hfirst, hkept, hnew, hsame, fun hleft => ?_⟩
  exact absurd ((same_number_iff _ _ _ _ 1 3 hfirst hnew).mpr ⟨hsame, hleft⟩) (by decide)

end FileTree
end FlowStudio
