import FlowStudio.Proofs.FileTree.Acceptance
import FlowStudio.Proofs.FileTree.History
import FlowStudio.Proofs.FileTree.Leaves

/-! A tree made anew from the files of another one. No file of a tree is in the way of another, so
all are accepted, in whatever order they come. -/

namespace FlowStudio.FileTree
open FlowStudio.Path
variable {t t' : FileTree} {written : List Leaf} {leaf : Leaf}

theorem ofLeaves_concat (leaves : List Leaf) (leaf : Leaf) :
    ofLeaves (leaves ++ [leaf]) = ((ofLeaves leaves).addFile leaf.name leaf.body).tree :=
  List.foldl_concat ..

theorem wellFormed_ofLeaves (leaves : List Leaf) : (ofLeaves leaves).WellFormed := by
  induction leaves using List.reverseRecOn with
  | nil => exact wellFormed_empty
  | append_singleton leaves leaf ih =>
    rw [ofLeaves_concat]
    exact ih.addFile leaf.name leaf.body

/-- A tree with those files of another one that are written already, and nothing that the other one
does not have. -/
structure Part (t t' : FileTree) (written : List Leaf) : Prop where
  wellFormed : t'.WellFormed
  file_iff : ∀ {segs body}, t'.content? segs = some (.file body) ↔
    ∃ leaf ∈ written, segments leaf.name = segs ∧ leaf.body = body
  content?_of : ∀ {segs c}, t'.content? segs = some c → t.content? segs = some c

theorem part_empty (hw : t.WellFormed) : Part t empty [] := by
  have hroot : ∀ {segs c}, empty.content? segs = some c → segs = [] ∧ c = .dir := by
    intro segs c h
    cases segs with
    | nil =>
      rw [wellFormed_empty.content?_nil] at h
      exact ⟨rfl, (Option.some.inj h).symm⟩
    | cons s segs => simp [content?, resolve?, child?_empty] at h
  refine ⟨wellFormed_empty, fun {segs body} => ?_, fun {segs c} h => ?_⟩
  · refine ⟨fun h => by simpa using (hroot h).2, ?_⟩
    rintro ⟨_, h, _⟩
    exact absurd h List.not_mem_nil
  · obtain ⟨rfl, rfl⟩ := hroot h
    exact hw.content?_nil

namespace Part

theorem accepts (h : Part t t' written) (hw : t.WellFormed)
    (hleaf : t.content? (segments leaf.name) = some (.file leaf.body)) :
    ∃ id, (t'.addFile leaf.name leaf.body).result = .ok id := by
  rw [exists_addFile_iff h.wellFormed]
  refine ⟨hw.names_of_content? hleaf, ?_⟩
  rcases List.eq_nil_or_concat (segments leaf.name) with hsegs | ⟨above, name, hsegs⟩
  · simp [hsegs, hw.content?_nil] at hleaf
  rw [List.concat_eq_append] at hsegs
  rw [hsegs] at hleaf
  -- above a file there are directories
  have hne : above ≠ above ++ [name] := by simp
  have hdir : t.content? above = some .dir :=
    hw.content?_of_isPrefix (isSome_resolve?_of_content? hleaf) (List.prefix_append _ _) hne
  refine ⟨above, name, hsegs, fun q hq body hfile => ?_, fun hnot => ?_⟩
  · exact clear_of_dir hw hdir q hq body (h.content?_of hfile)
  · simp [h.content?_of hnot] at hleaf

theorem content?_added (h : Part t t' written) (hw : t.WellFormed)
    (hleaf : t.content? (segments leaf.name) = some (.file leaf.body)) (segs : List String) :
    (t'.addFile leaf.name leaf.body).tree.content? segs =
      if segs <+: segments leaf.name then t.content? segs else t'.content? segs := by
  obtain ⟨id, hid⟩ := h.accepts hw hleaf
  rw [(wroteFile_addFile h.wellFormed hid).content?_eq]
  by_cases heq : segs = segments leaf.name
  · rw [if_pos heq, if_pos (heq ▸ List.prefix_refl _), heq, hleaf]
  · rw [if_neg heq]
    refine ite_congr rfl (fun hpre => ?_) fun _ => rfl
    exact (hw.content?_of_isPrefix (isSome_resolve?_of_content? hleaf) hpre heq).symm

theorem concat (h : Part t t' written) (hw : t.WellFormed)
    (hleaf : t.content? (segments leaf.name) = some (.file leaf.body)) :
    Part t (t'.addFile leaf.name leaf.body).tree (written ++ [leaf]) := by
  refine ⟨h.wellFormed.addFile _ _, fun {segs body} => ?_, fun {segs c} hc => ?_⟩
  · have hsplit : (∃ l ∈ written ++ [leaf], segments l.name = segs ∧ l.body = body) ↔
        t'.content? segs = some (.file body) ∨
          (segments leaf.name = segs ∧ leaf.body = body) := by
      rw [h.file_iff]
      simp [or_and_right, exists_or]
    rw [hsplit, h.content?_added hw hleaf]
    split
    · next hpre =>
      constructor
      · intro hfile
        right
        by_cases heq : segs = segments leaf.name
        · rw [heq, hleaf] at hfile
          exact ⟨heq.symm, by simpa using hfile⟩
        · have hdir := hw.content?_of_isPrefix (isSome_resolve?_of_content? hleaf) hpre heq
          simp [hdir] at hfile
      · rintro (hold | ⟨rfl, rfl⟩)
        · exact h.content?_of hold
        · exact hleaf
    · next hnot =>
      refine (or_iff_left ?_).symm
      rintro ⟨rfl, -⟩
      exact hnot (List.prefix_refl _)
  · rw [h.content?_added hw hleaf] at hc
    split at hc
    · exact hc
    · exact h.content?_of hc

end Part

theorem part_ofLeaves (hw : t.WellFormed)
    (hfiles : ∀ leaf ∈ written, t.content? (segments leaf.name) = some (.file leaf.body)) :
    Part t (ofLeaves written) written := by
  induction written using List.reverseRecOn with
  | nil => exact part_empty hw
  | append_singleton written leaf ih =>
    have hold := ih fun l hl => hfiles l (List.mem_append_left _ hl)
    rw [ofLeaves_concat]
    exact hold.concat hw (hfiles leaf (List.mem_append_right _ List.mem_cons_self))

theorem content?_of_mem_readAll (hw : t.WellFormed) (h : leaf ∈ t.readAll) :
    t.content? (segments leaf.name) = some (.file leaf.body) := by
  obtain ⟨segs, hname, hfile⟩ := (mem_readAll_iff hw).mp h
  rw [hname, segments_of_content? hw hfile, hfile]

theorem exists_addFile_ofLeaves (hw : t.WellFormed) {files : List Leaf}
    (hfiles : files.Perm t.readAll) {before later : List Leaf}
    (hsplit : files = before ++ leaf :: later) :
    ∃ id, ((ofLeaves before).addFile leaf.name leaf.body).result = .ok id := by
  have hin : ∀ l ∈ files, t.content? (segments l.name) = some (.file l.body) := fun l hl =>
    content?_of_mem_readAll hw (hfiles.mem_iff.mp hl)
  have hpart : Part t (ofLeaves before) before := part_ofLeaves hw fun l hl =>
    hin l (hsplit ▸ List.mem_append_left _ hl)
  exact hpart.accepts hw (hin leaf (hsplit ▸ List.mem_append_right _ List.mem_cons_self))

theorem readAll_ofLeaves (hw : t.WellFormed) {files : List Leaf} (hfiles : files.Perm t.readAll) :
    (ofLeaves files).readAll = t.readAll := by
  have hpart : Part t (ofLeaves files) files := part_ofLeaves hw fun l hl =>
    content?_of_mem_readAll hw (hfiles.mem_iff.mp hl)
  refine readAll_eq_of_files hw hpart.wellFormed fun segs body => ?_
  refine ⟨hpart.content?_of, fun h => hpart.file_iff.mpr ?_⟩
  have hmem : ⟨join segs, body⟩ ∈ t.readAll := (mem_readAll_iff hw).mpr ⟨segs, rfl, h⟩
  exact ⟨_, hfiles.mem_iff.mpr hmem, segments_of_content? hw h, rfl⟩

end FlowStudio.FileTree
