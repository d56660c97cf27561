import FlowStudio.Proofs.FileTree.Rebuilding
import FlowStudio.Session.Dispatch
import FlowStudio.Workspace.Client
import Mathlib.Data.List.Nodup

/-! Files that are uploaded and fetched again. A file's key leads back to its path, whatever the
identifier of the workspace, and the fetched files make the tree anew, in whatever order. -/

namespace FlowStudio.Workspace
open FlowStudio.Path
variable {σ : Type}

def keyOf (id : String) (leaf : Leaf) : String := id ++ "/" ++ (partOf leaf).name

theorem keyRest_append_slash (id tail : String) : keyRest id (id ++ "/" ++ tail) = "/" ++ tail := by
  have hkey : (id ++ "/" ++ tail).toList = id.toList ++ '/' :: tail.toList := by simp
  have hrest : id.toList.isPrefixOf? (id ++ "/" ++ tail).toList = some ('/' :: tail.toList) :=
    List.isPrefixOf?_eq_some_iff_append_eq.mpr hkey.symm
  rw [keyRest, hrest]
  apply String.toList_inj.mp
  simp

theorem slash_append_partName {segs : List String} (hne : segs ≠ [])
    (h : ∀ s ∈ segs, IsSegment s) : "/" ++ partName (join segs) = join segs := by
  obtain ⟨s, segs, rfl⟩ := List.exists_cons_of_ne_nil hne
  obtain ⟨hempty, hslash⟩ := h s List.mem_cons_self
  -- the first segment ends the slashes that are trimmed
  obtain ⟨c, cs, hs⟩ : ∃ c cs, s.toList = c :: cs := by
    apply List.exists_cons_of_ne_nil
    exact fun hnil => hempty (String.toList_eq_nil_iff.mp hnil)
  have hc : c ≠ '/' := fun hc => hslash (by rw [hs, hc]; exact List.mem_cons_self)
  have hjoin : (join (s :: segs)).toList = '/' :: c :: (cs ++ slashed segs) := by
    rw [toList_join_cons, slashed, List.flatMap_cons, hs]
    rfl
  apply String.toList_inj.mp
  rw [partName, trimLeft, hjoin, trimSlashes, List.dropWhile_cons_of_pos (by simp),
    List.dropWhile_cons_of_neg (by simpa using hc)]
  simp

section
variable {t : FileTree} (hw : t.WellFormed) {a b leaf : Leaf}
include hw

theorem slash_append_part (h : leaf ∈ t.readAll) : "/" ++ (partOf leaf).name = leaf.name := by
  obtain ⟨segs, hname, hfile⟩ := (FileTree.mem_readAll_iff hw).mp h
  rw [partOf, hname]
  refine slash_append_partName ?_ fun s hs => (hw.names_of_content? hfile s hs).1
  rintro rfl
  simp [hw.content?_nil] at hfile

theorem keyPath_keyOf (id : String) (h : leaf ∈ t.readAll) :
    keyPath id (keyOf id leaf) = .ok leaf.name := by
  obtain ⟨segs, hname, hfile⟩ := (FileTree.mem_readAll_iff hw).mp h
  rw [keyPath, keyOf, keyRest_append_slash, slash_append_part hw h, hname]
  exact normalize_join (hw.names_of_content? hfile)

theorem part_name_ne (h : leaf ∈ t.readAll) : (partOf leaf).name ≠ "" := by
  intro hempty
  have hroot := FileTree.content?_of_mem_readAll hw h
  rw [← slash_append_part hw h, hempty] at hroot
  have hnil : segments ("/" ++ "") = [] := by decide
  rw [hnil, hw.content?_nil] at hroot
  simp at hroot

theorem eq_of_part_name_eq (ha : a ∈ t.readAll) (hb : b ∈ t.readAll)
    (h : (partOf a).name = (partOf b).name) : a = b := by
  have hname : a.name = b.name := by
    rw [← slash_append_part hw ha, h, slash_append_part hw hb]
  have hbody := FileTree.content?_of_mem_readAll hw ha
  rw [hname, FileTree.content?_of_mem_readAll hw hb, Option.some.injEq,
    Content.file.injEq] at hbody
  exact congr (congrArg Leaf.mk hname) hbody.symm

end

theorem tree_dispatch_workspaceLoaded {s : Session σ} {request : UInt64}
    (h : s.requests.pending? .load = some request) (id : String) (files : List Leaf) (now : Nat) :
    (s.dispatch now (.workspaceLoaded request id files)).session.tree = .ofLeaves files := by
  rw [Session.dispatch, Session.completed, Requests.finish?, if_pos h]
  rfl

/-- The files of a tree come back from a workspace of any name under the paths they had, each under
a part name of its own, and make a tree with the same files in whatever order they are listed. -/
theorem fetched_files_rebuild_tree (changes : List FlowStudio.Change) (id : String)
    (files : List Leaf) (hfiles : files.Perm (FileTree.after changes).readAll) :
    (∀ leaf ∈ files, keyPath id (keyOf id leaf) = .ok leaf.name) ∧
    (∀ leaf ∈ files, (partOf leaf).name ≠ "") ∧
    (files.map fun leaf => (partOf leaf).name).Nodup ∧
    (∀ before leaf later, files = before ++ leaf :: later →
      ∃ entry, ((FileTree.ofLeaves before).addFile leaf.name leaf.body).result = .ok entry) ∧
    (FileTree.ofLeaves files).readAll = (FileTree.after changes).readAll ∧
    ∀ (s : Session σ) request now, s.requests.pending? .load = some request →
      (s.dispatch now (.workspaceLoaded request id files)).session.tree.readAll =
        (FileTree.after changes).readAll := by
  have hw := FileTree.wellFormed_after changes
  have hmem : ∀ {leaf}, leaf ∈ files → leaf ∈ (FileTree.after changes).readAll :=
    hfiles.mem_iff.mp
  have hsame := FileTree.readAll_ofLeaves hw hfiles
  refine ⟨fun leaf hleaf => keyPath_keyOf hw id (hmem hleaf),
    fun leaf hleaf => part_name_ne hw (hmem hleaf), ?_,
    fun before leaf later hsplit => FileTree.exists_addFile_ofLeaves hw hfiles hsplit, hsame,
    fun s request now hpending => ?_⟩
  · refine List.Nodup.map_on (fun a ha b hb h => ?_) (hfiles.nodup_iff.mpr ?_)
    · exact eq_of_part_name_eq hw (hmem ha) (hmem hb) h
    · exact FileTree.nodup_readAll hw
  · rw [tree_dispatch_workspaceLoaded hpending, hsame]

theorem fetched_files_rebuild_tree_reversed :
    let t := FileTree.after [.file "b" "x", .directory "/e", .file "//a/b/" "y"]
    let files : List Leaf := [⟨"/b", "x"⟩, ⟨"/a/b", "y"⟩]
    let s : Session Nat := ((Session.start .default).dispatch 0 (.workspaceOpen "a")).session
    files.Perm t.readAll ∧ files ≠ t.readAll ∧ keyPath "a" "a/a/b" = .ok "/a/b" ∧
      (∃ entry, ((FileTree.ofLeaves [⟨"/b", "x"⟩]).addFile "/a/b" "y").result = .ok entry) ∧
      (FileTree.ofLeaves files).readAll = t.readAll ∧ s.requests.pending? .load = some 0 ∧
      (s.dispatch 1 (.workspaceLoaded 0 "a" files)).session.tree.readAll = t.readAll := by
  intro t files s
  have hfiles : files.Perm t.readAll := by decide
  have hpending : s.requests.pending? .load = some 0 := by decide
  obtain ⟨hkeys, -, -, haccepted, hsame, hloaded⟩ :=
    fetched_files_rebuild_tree (σ := Nat) [.file "b" "x", .directory "/e", .file "//a/b/" "y"] "a"
      files hfiles
  exact ⟨hfiles, by decide, hkeys ⟨"/a/b", "y"⟩ (by decide),
    haccepted [⟨"/b", "x"⟩] _ [] rfl, hsame, hpending, hloaded s 0 1 hpending⟩

end FlowStudio.Workspace
