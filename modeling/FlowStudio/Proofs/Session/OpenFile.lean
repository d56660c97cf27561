import FlowStudio.Proofs.FileTree.Rebuilding
import FlowStudio.Proofs.Session.Files

/-! The open file is there. The session knows it by a path beside the tree, so what takes a file
away has to close it, and nothing may turn it into a directory. -/

namespace FlowStudio
open FlowStudio.Path
variable {σ : Type}

namespace Session

theorem isBelow_join {as bs : List String} (hne : as ≠ []) (h : as <+: bs) :
    isBelow (join as) (join bs) = true := by
  obtain ⟨rest, rfl⟩ := h
  rw [isBelow, Bool.or_eq_true]
  rcases rest with _ | ⟨r, rest⟩
  · exact .inl (by rw [List.append_nil, beq_self_eq_true])
  · refine .inr (String.startsWith_string_iff.mpr ?_)
    rw [String.toList_append, toList_join hne, toList_join (by simp), slashed_append]
    exact List.prefix_append_right_inj _ |>.mpr ⟨r.toList ++ slashed rest, by simp [slashed]⟩

theorem isBelow_of_isPrefix {p q : String} (hp : normalize p = .ok p) (hq : normalize q = .ok q)
    (hne : segments p ≠ []) (h : segments p <+: segments q) : isBelow p q = true := by
  rw [(normalize_eq_ok_iff.mp hp).2, (normalize_eq_ok_iff.mp hq).2]
  exact isBelow_join hne h

end Session

/-- What is open is a file of the tree, by its canonical path. -/
def TargetExists (tree : FileTree) (target : Option String) : Prop :=
  ∀ p, target = some p → normalize p = .ok p ∧ tree.isFile p = true

namespace TargetExists
variable {tree tree' : FileTree} {target target' : Option String}

theorem of_kept (h : TargetExists tree target) (hopen : ∀ p, target' = some p → target = some p)
    (hkept : ∀ p body, target' = some p → normalize p = .ok p →
      tree.content? (segments p) = some (.file body) →
      ∃ new, tree'.content? (segments p) = some (.file new)) : TargetExists tree' target' := by
  intro p hp
  obtain ⟨hnorm, hfile⟩ := h p (hopen p hp)
  obtain ⟨body, hbody⟩ := FileTree.isFile_iff.mp hfile
  exact ⟨hnorm, FileTree.isFile_iff.mpr (hkept p body hp hnorm hbody)⟩

theorem isSome_read? (h : TargetExists tree target) :
    (target.bind tree.read?).isSome = target.isSome := by
  cases target with
  | none => rfl
  | some p =>
    obtain ⟨body, hbody⟩ := FileTree.isFile_iff.mp (h p rfl).2
    rw [Option.bind_some, FileTree.read?_eq, hbody]
    rfl

end TargetExists

structure Desk.Settled (d : Desk) : Prop where
  wellFormed : d.tree.WellFormed
  target_exists : TargetExists d.tree d.target

theorem Desk.settled_ofLeaves (files : List Leaf) : (Desk.ofLeaves files).Settled := by
  have hw := FileTree.wellFormed_ofLeaves files
  refine ⟨hw, fun p hp => ?_⟩
  obtain ⟨leaf, hleaf, rfl⟩ := Option.map_eq_some_iff.mp hp
  have hmem : leaf ∈ (FileTree.ofLeaves files).readAll := List.mem_of_mem_head? hleaf
  have hfile := FileTree.content?_of_mem_readAll hw hmem
  obtain ⟨segs, hname, hat⟩ := (FileTree.mem_readAll_iff hw).mp hmem
  rw [FileTree.isFile_iff]
  exact ⟨by rw [hname]; exact normalize_join (hw.names_of_content? hat), leaf.body, hfile⟩

theorem Desk.Turn.settled {a : Action σ} {d d' : Desk} (h : Desk.Turn a d d') (hd : d.Settled) :
    d'.Settled := by
  obtain ⟨hw, htarget⟩ := hd
  cases h with
  | kept => exact ⟨hw, htarget⟩
  | wrote _ h =>
    refine ⟨hw.addFile _ _, htarget.of_kept (fun _ hp => hp) ?_⟩
    exact fun _ _ _ _ hbody => FileTree.file_of_addFile hw h hbody
  | made h =>
    refine ⟨hw.addDirectory _, htarget.of_kept (fun _ hp => hp) ?_⟩
    exact fun _ body _ _ hbody => ⟨body, FileTree.file_of_addDirectory hw h hbody⟩
  | @removed _ path p hp h =>
    refine ⟨hw.delete p, htarget.of_kept (fun q hq => (Option.filter_eq_some_iff.mp hq).1) ?_⟩
    intro q body hq hnorm hbody
    obtain ⟨above, name, -, hsegs, -⟩ := FileTree.delete_cases h
    have hne : segments p ≠ [] := by simp [hsegs]
    -- what is still open was not below what is gone
    have hout : ¬segments p <+: segments q := by
      intro hpre
      have hbelow := Session.isBelow_of_isPrefix (normalize_of_normalize hp) hnorm hne hpre
      simpa [hbelow] using (Option.filter_eq_some_iff.mp hq).2
    exact ⟨body, by rw [FileTree.content?_delete hw h, if_neg hout, hbody]⟩
  | opened hp hfile =>
    refine ⟨hw, fun q hq => ?_⟩
    obtain rfl := Option.some.inj hq
    exact ⟨normalize_of_normalize hp, hfile⟩
  | toggled => exact ⟨hw, htarget⟩
  | adopted => exact Desk.settled_ofLeaves _

/-- Whatever comes in, the open file is a file of the tree, so there is a text to show whenever
there is an open file. -/
theorem Session.open_file_exists (settings : Settings) (changes : List Change)
    (target : Option String) (htarget : TargetExists (.after changes) target) (first : Session σ)
    (hfirst : first = .start settings ∨ first = .ofTree (.after changes) target settings)
    (es : List (Arrival σ)) :
    let s := first.runSession es
    TargetExists s.tree s.target ∧ s.targetBody?.isSome = s.target.isSome := by
  intro s
  have hstarter : (FileTree.ofLeaves [starterFile]).isFile starterFile.name = true := by decide
  have hsettled : first.desk.Settled := by
    rcases hfirst with rfl | rfl
    · refine ⟨FileTree.wellFormed_ofLeaves _, fun p hp => ?_⟩
      obtain rfl := Option.some.inj hp
      exact ⟨by rfl, hstarter⟩
    · exact ⟨FileTree.wellFormed_after changes, htarget⟩
  have hrun : s.desk.Settled := desk_runSession (σ := σ) (fun h hd => h.settled hd) hsettled es
  exact ⟨hrun.target_exists, hrun.target_exists.isSome_read?⟩

theorem Session.open_file_exists_beside_removed :
    let first : Session Nat :=
      .ofTree (.after [.file "a/b" "x", .file "ab/c" "y"]) (some "/ab/c") .default
    let beside := first.runSession [⟨0, .removePath "a//"⟩, ⟨1, .saveFile "ab" "z"⟩]
    let closed := first.runSession [⟨0, .removePath "a//"⟩, ⟨1, .removePath "ab/"⟩]
    TargetExists (.after [.file "a/b" "x", .file "ab/c" "y"]) (some "/ab/c") ∧
      beside.target = some "/ab/c" ∧ TargetExists beside.tree beside.target ∧
      closed.target = none ∧ closed.targetBody?.isSome = closed.target.isSome := by
  intro first beside closed
  have htarget : TargetExists (.after [.file "a/b" "x", .file "ab/c" "y"]) (some "/ab/c") := by
    intro p hp
    obtain rfl := Option.some.inj hp
    exact ⟨by rfl, by decide⟩
  have hexists := Session.open_file_exists .default _ _ htarget first (.inr rfl)
  exact ⟨htarget, by decide +kernel, (hexists _).1, by decide +kernel, (hexists _).2⟩

end FlowStudio
