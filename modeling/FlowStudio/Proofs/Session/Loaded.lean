import FlowStudio.Proofs.FileTree.Accepted
import FlowStudio.Proofs.Session.Requests

/-! What a session is once a workspace has come in. All of it that has to do with files follows from
the files that came, and nothing from those that were there. -/

namespace FlowStudio
open FlowStudio.Path
variable {σ : Type}

theorem FileTree.isExpanded_of_mem_rows_nil {t : FileTree} {row : Row} (h : row ∈ t.rows []) :
    row.isExpanded = false := by
  rw [rows] at h
  cases hfuel : t.arena.next with
  | zero => simp [hfuel, rowsBelow] at h
  | succ fuel =>
    rw [hfuel, rowsBelow] at h
    rcases List.mem_append.mp h with h | h
    · obtain ⟨id, -, hrow⟩ := List.mem_flatMap.mp h
      obtain rfl : row = FileTree.row (t.arena.value id) 1 false := by simpa using hrow
      exact Bool.and_false _
    · obtain ⟨id, -, rfl⟩ := List.mem_map.mp h
      exact Bool.and_false _

/-- A loaded workspace takes the place of everything. A path gets a file if, where it comes first, no
path taken before crosses it; its text is the last one that came for it, and directories are there
for files only. -/
theorem Session.loaded_workspace_replaces_everything {s : Session σ} {request : UInt64}
    (hpending : s.requests.pending? .load = some request) (now : Nat) (id : String)
    (files : List Leaf) :
    let u := (s.dispatch now (.workspaceLoaded request id files)).session
    let paths := FileTree.accepted files
    (∀ p, p ∈ paths ↔ ∃ (before : List Leaf) (leaf : Leaf) (later : List Leaf),
      files = before ++ leaf :: later ∧
      normalize leaf.name = .ok p ∧ segments p ≠ [] ∧ (∀ l ∈ before, normalize l.name ≠ .ok p) ∧
      ∀ q ∈ FileTree.accepted before, ¬FileTree.Crosses q p) ∧
    (u.tree.readAll.map Leaf.name).Perm paths ∧
    (∀ leaf ∈ u.tree.readAll, FileTree.lastBody? files leaf.name = some leaf.body) ∧
    (∀ path body, u.tree.read? path = some body ↔
      ∃ p ∈ paths, segments p = segments path ∧ FileTree.lastBody? files p = some body) ∧
    (∀ path, u.tree.isDir path = true ↔ segments path = [] ∨
      ∃ p ∈ paths, segments path <+: segments p ∧ segments path ≠ segments p) ∧
    u.target = u.tree.readAll.head?.map Leaf.name ∧
    u.explorer.expanded = [] ∧ u.explorer.rows = u.tree.rows [] ∧
    (∀ row ∈ u.explorer.rows, row.isExpanded = false) ∧
    u.system = none ∧ u.flow = none ∧ u.requests.workspace = some id ∧
    ∀ (s' : Session σ) (request' : UInt64) (now' : Nat),
      s'.requests.pending? .load = some request' →
      let u' := (s'.dispatch now' (.workspaceLoaded request' id files)).session
      u'.tree = u.tree ∧ u'.target = u.target ∧ u'.explorer = u.explorer ∧
        u'.system = u.system ∧ u'.flow = u.flow ∧ u'.requests.workspace = u.requests.workspace := by
  intro u paths
  have hu : u = { s with requests := s.requests.setPending .load none }.adoptWorkspace id files
      now := session_dispatch_loaded hpending id files now
  have htree : u.tree = FileTree.ofLeaves files := by rw [hu]; rfl
  have hexplorer : u.explorer = .ofTree (FileTree.ofLeaves files) := by rw [hu]; rfl
  simp only [htree, hexplorer]
  refine ⟨fun p => FileTree.mem_accepted_iff, FileTree.names_readAll_ofLeaves files,
    fun leaf hleaf => (FileTree.mem_readAll_ofLeaves_iff.mp hleaf).2,
    fun path body => FileTree.read?_ofLeaves_iff, fun path => FileTree.isDir_ofLeaves_iff,
    by rw [hu]; rfl, rfl, rfl, fun row => FileTree.isExpanded_of_mem_rows_nil, by rw [hu]; rfl,
    by rw [hu]; rfl, by rw [hu]; rfl, fun s' request' now' hpending' => ?_⟩
  rw [hu, session_dispatch_loaded hpending' id files now']
  exact ⟨rfl, rfl, rfl, rfl, rfl, rfl⟩

theorem Session.loaded_workspace_replaces_everything_crossed :
    let s : Session Nat := ((Session.start .default).dispatch 0 (.workspaceOpen "w")).session
    let files : List Leaf := [⟨"a/b", "x"⟩, ⟨"/a", "y"⟩, ⟨"../c", "z"⟩, ⟨"/a/b/c", "w"⟩,
      ⟨"//a/b/", "v"⟩, ⟨"/d", "t"⟩]
    let u := (s.dispatch 1 (.workspaceLoaded 0 "w" files)).session
    s.requests.pending? .load = some 0 ∧ FileTree.accepted files = ["/a/b", "/d"] ∧
      (u.tree.readAll.map Leaf.name).Perm ["/a/b", "/d"] ∧ u.tree.read? "/a/b" = some "v" ∧
      u.tree.isDir "/a" = true ∧ u.tree.read? "/a/b/c" = none := by
  intro s files u
  have hpending : s.requests.pending? .load = some 0 := rfl
  have hpaths : FileTree.accepted files = ["/a/b", "/d"] := by decide +kernel
  obtain ⟨-, hnames, -, hread, hdir, -⟩ :=
    Session.loaded_workspace_replaces_everything hpending 1 "w" files
  rw [hpaths] at hnames hread hdir
  refine ⟨hpending, hpaths, hnames, (hread _ _).mpr ⟨"/a/b", by decide +kernel⟩,
    (hdir _).mpr (.inr ⟨"/a/b", by decide +kernel⟩), ?_⟩
  refine Option.eq_none_iff_forall_ne_some.mpr fun body hbody => ?_
  obtain ⟨p, hp, heq, -⟩ := (hread _ _).mp hbody
  have hother : ∀ p ∈ ["/a/b", "/d"], segments p ≠ segments "/a/b/c" := by decide +kernel
  exact hother p hp heq

end FlowStudio
