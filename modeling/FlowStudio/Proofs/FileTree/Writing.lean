import FlowStudio.Proofs.FileTree.Making

/-! The edit that writes a file, in the place of an old one or as a new entry. -/

namespace FlowStudio.FileTree
open FlowStudio.Path
variable {t : FileTree}

structure WroteFile (t t' : FileTree) (segs : List String) (body : String) (id : Nat) : Prop where
  wellFormed : t'.WellFormed
  resolve?_eq : t'.resolve? segs = some id
  content?_eq : ∀ q, t'.content? q =
    if q = segs then some (.file body) else if q <+: segs then some .dir else t.content? q

theorem get?_write (t : FileTree) (id : Nat) (body : String) (k : Nat) :
    (t.write id body).arena.get? k =
      if k = id then (t.arena.get? k).map (·.withBody body) else t.arena.get? k :=
  Arena.get?_modify t.arena id _ k

theorem child?_write (t : FileTree) (id : Nat) (body : String) :
    (t.write id body).child? = t.child? := by
  funext dir name
  rw [child?, get?_write, child?]
  split
  · cases t.arena.get? dir <;> rfl
  · rfl

theorem resolve?_write (t : FileTree) (id : Nat) (body : String) (segs : List String) :
    (t.write id body).resolve? segs = t.resolve? segs := by
  rw [resolve?, child?_write]
  rfl

theorem place_write (t : FileTree) (id : Nat) (body : String) (k : Nat) :
    ((t.write id body).arena.get? k).map Entry.place = (t.arena.get? k).map Entry.place := by
  rw [get?_write]
  split
  · rw [Option.map_map]
    rfl
  · rfl

theorem WellFormed.write (hw : t.WellFormed) (id : Nat) (body : String) :
    (t.write id body).WellFormed := by
  refine hw.restrict rfl trivial (fun {k} _ => place_write t id body k)
    (fun hk => absurd trivial hk) fun {dir c name} => ?_
  rw [child?_write, and_true]

theorem wroteFile_write (hw : t.WellFormed) {segs : List String} {id : Nat} (body : String)
    (hid : t.resolve? segs = some id) (hkind : (t.arena.value id).kind ≠ .dir) :
    WroteFile t (t.write id body) segs body id := by
  obtain ⟨-, e, he, -⟩ := hw.entry_of_resolve? hid
  rw [Arena.value_eq he] at hkind
  refine ⟨hw.write id body, by rw [resolve?_write, hid], fun q => ?_⟩
  by_cases hq : q = segs
  · subst hq
    have hget : (t.write id body).arena.get? id = some (e.withBody body) := by
      rw [get?_write, if_pos rfl, he, Option.map_some]
    rw [content?_of_resolve? ((resolve?_write t id body q).trans hid) hget, if_pos rfl]
    cases hk : e.kind with
    | file => simp [Entry.content, Entry.withBody, hk]
    | dir => exact absurd hk hkind
  · rw [if_neg hq]
    have hsame : (t.write id body).content? q = t.content? q := by
      rw [content?, resolve?_write, content?]
      cases hk : t.resolve? q with
      | none => rfl
      | some k =>
        have hne : k ≠ id := fun h => hq (hw.resolve?_injective hk (h ▸ hid))
        rw [Option.bind_some, Option.bind_some, get?_write, if_neg hne]
    rw [hsame]
    split
    · next hp => exact hw.content?_of_isPrefix (by simp [hid]) hp hq
    · rfl

theorem tree_addParents_of_error {parents : List String} {e : PathError}
    (h : (t.addParents parents).result = .error e) : (t.addParents parents).tree = t := by
  rw [addParents] at h ⊢
  split at h
  · simp at h
  · next hp => rw [if_neg hp, tree_addDirectory_of_error h]

theorem madeDir_addParents (hw : t.WellFormed) {parents : List String} {id : Nat}
    (hnames : ∀ s ∈ parents, IsName s) (h : (t.addParents parents).result = .ok id) :
    MadeDir t (t.addParents parents).tree parents id := by
  rw [addParents] at h ⊢
  split at h
  · next hp =>
    obtain rfl := List.isEmpty_iff.mp hp
    obtain rfl := Except.ok.inj h
    exact .of_found hw (resolve?_nil t) hw.content?_nil
  · next hp =>
    rw [if_neg hp]
    simpa [segments_join fun s hs => (hnames s hs).1] using madeDir_addDirectory hw h

theorem addFile_cases {path body : String} {id : Nat} (h : (t.addFile path body).result = .ok id) :
    ∃ above name, checked path = .ok (above ++ [name]) ∧
      ((t.resolve? (above ++ [name]) = some id ∧ (t.arena.value id).kind ≠ .dir ∧
          (t.addFile path body).tree = t.write id body) ∨
        (t.resolve? (above ++ [name]) = none ∧ ∃ parent,
          (t.addParents above).result = .ok parent ∧ id = (t.addParents above).tree.arena.next ∧
          (t.addFile path body).tree = ((t.addParents above).tree.insertChild parent name
            (.ofFile (join (above ++ [name])) parent body)).1)) := by
  revert h
  rw [addFile]
  cases hc : checked path with
  | error e => simp
  | ok segs =>
    rcases List.eq_nil_or_concat segs with rfl | ⟨above, name, rfl⟩
    · simp
    · intro h
      rw [List.concat_eq_append] at h ⊢
      refine ⟨above, name, rfl, ?_⟩
      simp only [List.getLast?_append, List.getLast?_singleton, Option.some_or,
        List.dropLast_concat] at h ⊢
      cases hid : t.resolve? (above ++ [name]) with
      | some k =>
        rw [hid] at h
        by_cases hkind : (t.arena.value k).kind = .dir
        · simp [hkind] at h
        · simp only [hkind, if_false, Except.ok.injEq] at h ⊢
          exact .inl ⟨by rw [h], by rw [← h]; exact hkind, by rw [h]⟩
      | none =>
        rw [hid] at h
        cases hp : (t.addParents above).result with
        | error e => simp [hp] at h
        | ok parent =>
          simp only [hp, Except.ok.injEq] at h ⊢
          exact .inr ⟨trivial, parent, rfl, h.symm, rfl⟩

theorem tree_addFile_of_error {path body : String} {e : PathError}
    (h : (t.addFile path body).result = .error e) : (t.addFile path body).tree = t := by
  revert h
  rw [addFile]
  split
  · simp
  · split
    · simp
    · split
      · dsimp only
        split <;> simp
      · dsimp only
        split
        · next hp => exact fun _ => tree_addParents_of_error hp
        · simp

theorem exists_free_addParents (hw : t.WellFormed) {above : List String} {name : String}
    {parent : Nat} (hnames : ∀ s ∈ above ++ [name], IsName s)
    (hnone : t.resolve? (above ++ [name]) = none)
    (hresult : (t.addParents above).result = .ok parent) :
    ∃ p, (t.addParents above).tree.Free parent p above name := by
  have hmade := madeDir_addParents hw (fun s hs => hnames s (List.mem_append_left _ hs)) hresult
  have hdir : (t.addParents above).tree.content? above = some .dir := by
    rw [hmade.content?_eq, if_pos (List.prefix_refl _)]
  have hlong : ¬ above ++ [name] <+: above := by
    intro hpre
    have hle := hpre.length_le
    rw [List.length_append, List.length_singleton] at hle
    omega
  have hfree : (t.addParents above).tree.child? parent name = none := by
    have hgone : (t.addParents above).tree.resolve? (above ++ [name]) = none := by
      rw [← hmade.wellFormed.content?_eq_none_iff, hmade.content?_eq, if_neg hlong,
        hw.content?_eq_none_iff, hnone]
    rwa [resolve?_concat, hmade.resolve?_eq, Option.bind_some] at hgone
  exact exists_free hmade.resolve?_eq hdir hfree
    (hnames name (List.mem_append_right _ List.mem_cons_self))

theorem wroteFile_addFile (hw : t.WellFormed) {path body : String} {id : Nat}
    (h : (t.addFile path body).result = .ok id) :
    WroteFile t (t.addFile path body).tree (segments path) body id := by
  obtain ⟨above, name, hc, hcase⟩ := addFile_cases h
  obtain ⟨hsegs, hnames⟩ := checked_eq_ok_iff.mp hc
  have habove : ∀ s ∈ above, IsName s := fun s hs => hnames s (List.mem_append_left _ hs)
  rw [hsegs]
  rcases hcase with ⟨hid, hkind, htree⟩ | ⟨hnone, parent, hresult, hid, htree⟩
  · rw [htree]
    exact wroteFile_write hw body hid hkind
  · have hmade := madeDir_addParents hw habove hresult
    obtain ⟨p, hf⟩ := exists_free_addParents hw hnames hnone hresult
    have hnew := isNew_ofFile (join (above ++ [name])) parent body
    rw [htree, hid]
    refine ⟨hmade.wellFormed.insertChild hf hnew, ?_, fun q => ?_⟩
    · rw [resolve?_insertChild hmade.wellFormed hf hnew.find?_eq, if_pos rfl]
    · rw [content?_insertChild hmade.wellFormed hf hnew.find?_eq, hmade.content?_eq]
      have hpre : q ≠ above ++ [name] → (q <+: above ++ [name] ↔ q <+: above) := by
        intro hne
        rw [List.prefix_concat_iff]
        simp [hne]
      split
      · rfl
      · next hne => simp only [hpre hne]

theorem WellFormed.addFile (hw : t.WellFormed) (path body : String) :
    (t.addFile path body).tree.WellFormed := by
  cases h : (t.addFile path body).result with
  | error e => rwa [tree_addFile_of_error h]
  | ok id => exact (wroteFile_addFile hw h).wellFormed

end FlowStudio.FileTree
