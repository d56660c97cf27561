import FlowStudio.Proofs.Command.Loading
import FlowStudio.Proofs.Workspace.RoundTrip

/-! A pull writes below its directory and nowhere else, whatever keys a server lists and whatever it
answers. No file is written twice, and none stands where another needs a directory. -/

namespace FlowStudio.Command
open FlowStudio.Path FlowStudio.Workspace

def relative (leaf : Leaf) : String := trimLeft leaf.name

def leafDeeds (directory : String) (leaf : Leaf) : List Deed :=
  let names := segments leaf.name
  let parent := if names.length ≤ 1 then directory
    else Disk.join directory ("/".intercalate names.dropLast)
  [.makeDirs parent, .writeText (Disk.join directory ("/".intercalate names)) leaf.body]

theorem attempts_writeLeaves (directory : String) (leaves : List Leaf) :
    (writeLeaves directory leaves).Attempts (leaves.flatMap (leafDeeds directory)) := by
  induction leaves with
  | nil => exact Script.attempts_done
  | cons leaf leaves ih =>
    rw [writeLeaves, List.flatMap_cons, leafDeeds]
    exact Script.attempts_makeDirs _ (Script.attempts_writeText _ _ ih)

theorem deeds_finishPull (id directory : String) (m : Machine) (disk : Disk)
    (sent : List Request) {ended : Session Unit} {leaves : List Leaf}
    (h : ∀ files, pulled id ended = .ok files → files = leaves) :
    let all := leaves.flatMap (leafDeeds directory)
    let finish := finishPull id directory ended
    finish.deeds m disk sent <+: all ∧
      ∀ text, (finish.run m disk sent).value = .ok text → finish.deeds m disk sent = all := by
  intro all finish
  have hfinish : finish = finishPull id directory ended := rfl
  rw [hfinish, finishPull]
  cases hpulled : pulled id ended with
  | error text =>
    dsimp only
    exact ⟨List.nil_prefix, fun text htext => by simp [Script.run] at htext⟩
  | ok files =>
    have hall : all = files.flatMap (leafDeeds directory) := by rw [h files hpulled]
    dsimp only
    rw [Script.deeds_bind, Script.run_bind, hall]
    obtain ⟨hpart, hwhole⟩ := attempts_writeLeaves directory files m disk sent
    split
    · next e he =>
      rw [Script.deeds, List.append_nil]
      exact ⟨hpart, fun text htext => by simp [Script.run] at htext⟩
    · next he =>
      rw [Script.deeds, List.append_nil]
      exact ⟨hpart, fun _ _ => hwhole he⟩

theorem deeds_pullWorkspace (settings : Settings) (id directory base : String) (timeout : Nat)
    (m : Machine) (disk : Disk) :
    let all := (FileTree.ofLeaves (loaded base id m.server)).readAll.flatMap (leafDeeds directory)
    let pull := pullWorkspace settings id directory base timeout
    pull.deeds m disk [] <+: all ∧
      ∀ text, (pull.run m disk []).value = .ok text → pull.deeds m disk [] = all := by
  intro all pull
  have hpull : pull = pullWorkspace settings id directory base timeout := rfl
  rw [hpull, pullWorkspace]
  obtain ⟨e, he⟩ | ⟨hstart, hreach⟩ | hwait := canWait_or m timeout
  · obtain ⟨hrun, hdeeds⟩ := afterRequest_of_no_executor base disk _ _ _ [] he
    rw [hdeeds, hrun]
    exact ⟨List.nil_prefix, nofun⟩
  · obtain ⟨hrun, hdeeds⟩ := afterRequest_of_no_deadline base disk _ _ _ [] hstart hreach
    rw [hdeeds, hrun]
    exact ⟨List.nil_prefix, nofun⟩
  · rw [run_afterRequest base disk _ _ _ [] hwait, deeds_afterRequest base disk _ _ _ [] hwait,
      Script.deeds_bind, deeds_request, List.nil_append, Script.run_bind]
    exact deeds_finishPull id directory m _ _ fun _ => files_of_pulled base m disk settings id

theorem join_left_injective (directory : String) : Function.Injective (Disk.join directory) := by
  intro a b h
  unfold Disk.join at h
  split at h
  · exact (String.append_right_inj _).mp h
  · exact (String.append_right_inj _).mp h

theorem written_leafDeeds (directory : String) (leaves : List Leaf) :
    (leaves.flatMap (leafDeeds directory)).filterMap Deed.written? =
      leaves.map fun leaf => Disk.join directory ("/".intercalate (segments leaf.name)) := by
  induction leaves with
  | nil => rfl
  | cons leaf leaves ih =>
    rw [List.flatMap_cons, List.filterMap_append, ih, List.map_cons]
    rfl

section
variable {t : FileTree} (hw : t.WellFormed) {a b leaf : Leaf}
include hw

theorem relative_eq (h : leaf ∈ t.readAll) :
    relative leaf = "/".intercalate (segments leaf.name) ∧ segments leaf.name ≠ [] ∧
      ∀ s ∈ segments leaf.name, IsName s := by
  obtain ⟨segs, hname, hfile⟩ := (FileTree.mem_readAll_iff hw).mp h
  have hnames := hw.names_of_content? hfile
  have hsegs : segments leaf.name = segs := by
    rw [hname, segments_join fun s hs => (hnames s hs).1]
  have hne : segs ≠ [] := by
    rintro rfl
    simp [hw.content?_nil] at hfile
  have hslash : "/" ++ relative leaf = "/" ++ "/".intercalate segs := by
    rw [relative, ← join_eq_slash_append hne, hname]
    exact slash_append_partName hne fun s hs => (hnames s hs).1
  rw [hsegs]
  exact ⟨(String.append_right_inj "/").mp hslash, hne, hnames⟩

theorem eq_of_segments_isPrefix (ha : a ∈ t.readAll) (hb : b ∈ t.readAll)
    (h : segments a.name <+: segments b.name) : a = b := by
  have hfirst := FileTree.content?_of_mem_readAll hw ha
  have hsecond := FileTree.content?_of_mem_readAll hw hb
  have hsegs : segments a.name = segments b.name := by
    by_contra hne
    have hdir := hw.content?_of_isPrefix (FileTree.isSome_resolve?_of_content? hsecond) h hne
    simp [hdir] at hfirst
  refine eq_of_part_name_eq hw ha hb ?_
  exact (relative_eq hw ha).1.trans (hsegs ▸ (relative_eq hw hb).1.symm)

theorem nodup_relative : (t.readAll.map relative).Nodup :=
  (FileTree.nodup_readAll hw).map_on fun _ ha _ hb h => eq_of_part_name_eq hw ha hb h

theorem nodup_written (directory : String) :
    ((t.readAll.flatMap (leafDeeds directory)).filterMap Deed.written?).Nodup := by
  have hpaths : (t.readAll.map fun leaf =>
      Disk.join directory ("/".intercalate (segments leaf.name))) =
      (t.readAll.map relative).map (Disk.join directory) := by
    rw [List.map_map]
    exact List.map_congr_left fun leaf hleaf => congrArg _ (relative_eq hw hleaf).1.symm
  rw [written_leafDeeds, hpaths]
  exact (nodup_relative hw).map (join_left_injective directory)

end

/-- Whatever a server lists and answers, a pull attempts to write the files of a tree, each at a row
of names below its directory, and writes them all if it reports so. No two paths are the same, and
none lies below another. -/
theorem pull_stays_below (settings : Settings) (id directory base : String) (timeout : Nat)
    (m : Machine) (disk : Disk) :
    let files := (FileTree.ofLeaves (loaded base id m.server)).readAll
    let pull := pullWorkspace settings id directory base timeout
    let deeds := pull.deeds m disk []
    (deeds <+: files.flatMap (leafDeeds directory) ∧
      ∀ text, (pull.run m disk []).value = .ok text →
        deeds = files.flatMap (leafDeeds directory)) ∧
    (∀ leaf ∈ files, relative leaf = "/".intercalate (segments leaf.name) ∧
      segments leaf.name ≠ [] ∧
      ∀ s ∈ segments leaf.name, s ≠ "" ∧ '/' ∉ s.toList ∧ s ≠ "." ∧ s ≠ "..") ∧
    (files.map relative).Nodup ∧ (deeds.filterMap Deed.written?).Nodup ∧
    ∀ a ∈ files, ∀ b ∈ files, segments a.name <+: segments b.name → a = b := by
  intro files pull deeds
  have hw := FileTree.wellFormed_ofLeaves (loaded base id m.server)
  have hdeeds := deeds_pullWorkspace settings id directory base timeout m disk
  refine ⟨hdeeds, ?_, nodup_relative hw, ?_, fun a ha b hb h => eq_of_segments_isPrefix hw ha hb h⟩
  · intro leaf hleaf
    obtain ⟨heq, hne, hnames⟩ := relative_eq hw hleaf
    refine ⟨heq, hne, fun s hs => ?_⟩
    obtain ⟨⟨hempty, hslash⟩, hdot, hdots⟩ := hnames s hs
    exact ⟨hempty, hslash, hdot, hdots⟩
  · exact (nodup_written hw directory).sublist (hdeeds.1.filterMap Deed.written?).sublist

example : (FileTree.ofLeaves [⟨"/b", "x"⟩, ⟨"/b/c", "y"⟩, ⟨"/w/d", "z"⟩, ⟨"/b", "t"⟩]).readAll.flatMap
    (leafDeeds "out") = [.makeDirs "out/w", .writeText "out/w/d" "z", .makeDirs "out",
      .writeText "out/b" "t"] := by decide +kernel

end FlowStudio.Command
