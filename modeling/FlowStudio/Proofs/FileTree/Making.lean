import FlowStudio.Proofs.FileTree.Insertion

/-! The edit that makes directories. What it finds on the way down it keeps, and below the first
directory that it makes nothing is in the way. -/

namespace FlowStudio.FileTree
open FlowStudio.Path
variable {t : FileTree}

structure MadeDir (t t' : FileTree) (segs : List String) (id : Nat) : Prop where
  wellFormed : t'.WellFormed
  resolve?_eq : t'.resolve? segs = some id
  content?_eq : ∀ q, t'.content? q = if q <+: segs then some .dir else t.content? q

theorem MadeDir.of_found (hw : t.WellFormed) {segs : List String} {id : Nat}
    (hid : t.resolve? segs = some id) (h : t.content? segs = some .dir) :
    MadeDir t t segs id where
  wellFormed := hw
  resolve?_eq := hid
  content?_eq q := by
    split
    · next hq => exact hw.content?_isPrefix_of_dir h hq
    · rfl

theorem MadeDir.trans {t₁ t₂ : FileTree} {segs rest : List String} {id id' : Nat}
    (h : MadeDir t t₁ segs id) (h' : MadeDir t₁ t₂ (segs ++ rest) id') :
    MadeDir t t₂ (segs ++ rest) id' where
  wellFormed := h'.wellFormed
  resolve?_eq := h'.resolve?_eq
  content?_eq q := by
    rw [h'.content?_eq, h.content?_eq]
    by_cases hq : q <+: segs ++ rest
    · rw [if_pos hq, if_pos hq]
    · have hsegs : ¬q <+: segs := fun h => hq (h.trans (List.prefix_append segs rest))
      rw [if_neg hq, if_neg hq, if_neg hsegs]

theorem MadeDir.insertChild (hw : t.WellFormed) {dir : Nat} {p : Entry} {above : List String}
    {s : String} (hf : t.Free dir p above s) (hcontent : t.content? above = some .dir) :
    MadeDir t (t.insertChild dir s (.ofDir (join (above ++ [s])) (some dir))).1 (above ++ [s])
      t.arena.next where
  wellFormed := hw.insertChild hf (isNew_ofDir _ dir)
  resolve?_eq := by
    rw [resolve?_insertChild hw hf (isNew_ofDir (join (above ++ [s])) dir).find?_eq, if_pos rfl]
  content?_eq q := by
    rw [content?_insertChild hw hf (isNew_ofDir (join (above ++ [s])) dir).find?_eq]
    by_cases hq : q = above ++ [s]
    · rw [if_pos hq, if_pos (hq ▸ List.prefix_refl _)]
      exact congrArg some (Entry.content_eq_dir_iff.mpr rfl)
    · rw [if_neg hq]
      split
      · next hpre =>
        have habove : q <+: above := (List.prefix_concat_iff.mp hpre).resolve_left hq
        exact hw.content?_isPrefix_of_dir hcontent habove
      · rfl

theorem obstacle?_of_no_child {dir : Nat} (h : ∀ name, t.child? dir name = none)
    (above ss : List String) : t.obstacle? dir above ss = none := by
  cases ss with
  | nil => rfl
  | cons s ss => rw [obstacle?, h]

theorem descend_cons_of_some {dir id : Nat} {s : String} (h : t.child? dir s = some id)
    (above ss : List String) :
    t.descend dir above (s :: ss) = t.descend id (above ++ [s]) ss := by
  rw [descend, h]

theorem descend_cons_of_none {dir : Nat} {s : String} (h : t.child? dir s = none)
    (above ss : List String) : t.descend dir above (s :: ss) =
      (t.insertChild dir s (.ofDir (join (above ++ [s])) (some dir))).1.descend t.arena.next
        (above ++ [s]) ss := by
  rw [descend, h]
  rfl

theorem madeDir_descend (ss : List String) (hw : t.WellFormed) {dir : Nat} {above : List String}
    (hdir : t.resolve? above = some dir) (hcontent : t.content? above = some .dir)
    (hnames : ∀ s ∈ ss, IsName s) (hfree : t.obstacle? dir above ss = none) :
    MadeDir t (t.descend dir above ss).1 (above ++ ss) (t.descend dir above ss).2 := by
  induction ss generalizing t dir above with
  | nil =>
    rw [List.append_nil]
    exact .of_found hw hdir hcontent
  | cons s ss ih =>
    have hsplit : above ++ s :: ss = above ++ [s] ++ ss := by simp
    have hss : ∀ r ∈ ss, IsName r := fun r hr => hnames r (List.mem_cons_of_mem _ hr)
    rw [hsplit]
    cases hchild : t.child? dir s with
    | some id =>
      rw [obstacle?, hchild] at hfree
      have hid : t.resolve? (above ++ [s]) = some id := by
        rw [resolve?_concat, hdir, Option.bind_some, hchild]
      obtain ⟨-, e, he, -⟩ := hw.entry_of_resolve? hid
      have hkind : e.kind = .dir := by
        by_contra hkind
        simp [Arena.value_eq he, hkind] at hfree
      simp only [Arena.value_eq he, hkind, if_true] at hfree
      have hdirs : t.content? (above ++ [s]) = some .dir := by
        rw [content?_of_resolve? hid he, Entry.content_eq_dir_iff.mpr hkind]
      rw [descend_cons_of_some hchild]
      exact ih hw hid hdirs hss hfree
    | none =>
      obtain ⟨p, hf⟩ := exists_free hdir hcontent hchild (hnames s List.mem_cons_self)
      have hmade := MadeDir.insertChild hw hf hcontent
      have hat := hmade.content?_eq (above ++ [s])
      rw [if_pos (List.prefix_refl _)] at hat
      -- below the new directory nothing is in the way
      have hempty : ∀ name, (t.insertChild dir s (.ofDir (join (above ++ [s])) (some dir))).1.child?
          t.arena.next name = none := by
        intro name
        rw [child?, get?_insertChild_next hf.get?_eq, Option.bind_some, Entry.find?_ofDir]
      rw [descend_cons_of_none hchild]
      exact hmade.trans (ih hmade.wellFormed hmade.resolve?_eq hat hss
        (obstacle?_of_no_child hempty _ _))

theorem tree_addDirectory_of_error {path : String} {e : PathError}
    (h : (t.addDirectory path).result = .error e) : (t.addDirectory path).tree = t := by
  revert h
  rw [addDirectory]
  split
  · simp
  · split <;> simp

theorem madeDir_addDirectory (hw : t.WellFormed) {path : String} {id : Nat}
    (h : (t.addDirectory path).result = .ok id) :
    MadeDir t (t.addDirectory path).tree (segments path) id := by
  revert h
  rw [addDirectory]
  cases hc : checked path with
  | error e => simp
  | ok segs =>
    obtain ⟨rfl, hnames⟩ := checked_eq_ok_iff.mp hc
    cases hfree : t.obstacle? t.root [] (segments path) with
    | some file => simp [hfree]
    | none =>
      intro h
      simp only [hfree, Except.ok.injEq] at h ⊢
      rw [← h]
      exact madeDir_descend _ hw (resolve?_nil t) hw.content?_nil hnames hfree

theorem WellFormed.addDirectory (hw : t.WellFormed) (path : String) :
    (t.addDirectory path).tree.WellFormed := by
  cases h : (t.addDirectory path).result with
  | error e => rwa [tree_addDirectory_of_error h]
  | ok id => exact (madeDir_addDirectory hw h).wellFormed

end FlowStudio.FileTree
