import FlowStudio.Proofs.FileTree.Removal
import FlowStudio.Proofs.FileTree.Writing
import FlowStudio.Proofs.Session.Run

/-! How an action ends. It is rejected with a text, it is ignored, or it comes to one of a few
outcomes, and what holds of single actions is proved from these. -/

namespace FlowStudio
open FlowStudio.Path FlowStudio.FileTree
variable {σ : Type}

namespace Session

inductive Rejects (s : Session σ) : Action σ → String → Prop
  | createFile {path body : String} {e : PathError} :
    (s.tree.addFile path body).result = .error e → Rejects s (.createFile path body) e.message
  | createDirectory {path : String} {e : PathError} :
    (s.tree.addDirectory path).result = .error e → Rejects s (.createDirectory path) e.message
  | saveFile {path body : String} {e : PathError} :
    (s.tree.addFile path body).result = .error e → Rejects s (.saveFile path body) e.message
  | removeStep {path : String} {e : PathError} : normalize path = .error e →
    Rejects s (.removePath path) e.message
  | removePath {path p : String} {e : PathError} : normalize path = .ok p →
    (s.tree.delete p).result = .error e → Rejects s (.removePath path) e.message
  | openStep {path : String} {e : PathError} : normalize path = .error e →
    Rejects s (.openFile path) e.message
  | openFile {path p : String} : normalize path = .ok p → s.tree.isFile p = false →
    Rejects s (.openFile path) (PathError.notFound p).message
  | parse (text : String) : Rejects s (.parseFinished (.error text)) text
  | flow (text : String) : Rejects s (.flowFailed text) text
  | blank {id : String} : Text.trim id = "" → Rejects s (.workspaceOpen id) "Workspace id is empty"

inductive Ignores (s : Session σ) : Action σ → Prop
  | openFile {path p : String} : normalize path = .ok p → s.target = some p →
    Ignores s (.openFile path)
  | toggleStep {path : String} {e : PathError} : normalize path = .error e →
    Ignores s (.toggle path)
  | toggle {path p : String} : normalize path = .ok p → s.explorer.toggle? s.tree p = none →
    Ignores s (.toggle path)
  | answer {a : Action σ} {kind : RequestKind} {request : UInt64} :
    a.completion? = some (kind, request) → s.requests.pending? kind ≠ some request → Ignores s a
  | selectTool {name : String} : s.toolbox.select? name = none → Ignores s (.selectTool name)
  | dismiss : s.notices.dismiss? = none → Ignores s .dismiss
  | tick {time : Nat} : s.notices.tick? time = none → Ignores s (.tick time)

/-- What comes of an action, by a rule for each way in which it may end. -/
inductive Yields (s : Session σ) (now : Nat) : Action σ → Outcome σ → Prop
  | rejected {a : Action σ} {text : String} : s.Rejects a text → Yields s now a (s.fail text now)
  | ignored {a : Action σ} : s.Ignores a → Yields s now a s.unchanged
  | createFile {path body : String} {id : Nat} : (s.tree.addFile path body).result = .ok id →
    Yields s now (.createFile path body) (s.withTree (s.tree.addFile path body).tree).changed
  | createDirectory {path : String} {id : Nat} : (s.tree.addDirectory path).result = .ok id →
    Yields s now (.createDirectory path) (s.withTree (s.tree.addDirectory path).tree).changed
  | saveFile {path body : String} {id : Nat} : (s.tree.addFile path body).result = .ok id →
    Yields s now (.saveFile path body) ⟨s.withTree (s.tree.addFile path body).tree,
      [.parseWorkspace (s.tree.addFile path body).tree.readAll], true⟩
  | removePath {path p : String} : normalize path = .ok p → (s.tree.delete p).result = .ok () →
    Yields s now (.removePath path) { s.withTree (s.tree.delete p).tree with
      target := s.target.filter fun t => !isBelow p t }.changed
  | openFile {path p : String} : normalize path = .ok p → s.tree.isFile p = true →
    Yields s now (.openFile path) { s with target := some p }.changed
  | toggle {path p : String} {explorer : Explorer} : normalize path = .ok p →
    s.explorer.toggle? s.tree p = some explorer →
    Yields s now (.toggle path) { s with explorer }.changed
  | parse : Yields s now .parse ⟨s, [.parseWorkspace s.tree.readAll], false⟩
  | parsed (system : σ) : Yields s now (.parseFinished (.ok system)) (s.parsed system now)
  | drawn (design : Design Float) : Yields s now (.flowGenerated design)
      { s with flow := some (Layout.arrangeRanked s.layout design) }.changed
  | openWorkspace {id : String} : Text.trim id ≠ "" → Yields s now (.workspaceOpen id)
      ⟨{ s with requests := (s.requests.begin .load).1 },
        [.loadWorkspace s.requests.next (Text.trim id)], true⟩
  | createWorkspace : Yields s now .workspaceCreate s.createWorkspace
  | loaded {request : UInt64} (id : String) (files : List Leaf) :
    s.requests.pending? .load = some request →
    Yields s now (.workspaceLoaded request id files)
      ({ s with requests := s.requests.setPending .load none }.adoptWorkspace id files now).changed
  | loadFailed {request : UInt64} (error : WorkspaceError) :
    s.requests.pending? .load = some request →
    Yields s now (.workspaceLoadFailed request error)
      ({ s with requests := s.requests.setPending .load none }.notify .error (loadFailure error)
        now).changed
  | created {request : UInt64} (id : String) : s.requests.pending? .create = some request →
    Yields s now (.workspaceCreated request id)
      ({ s with requests := (s.requests.setPending .create none).withWorkspace id }.notify .success
        ("Workspace created: " ++ id) now).changed
  | createFailed {request : UInt64} (error : WorkspaceError) :
    s.requests.pending? .create = some request →
    Yields s now (.workspaceCreateFailed request error)
      ({ s with requests := s.requests.setPending .create none }.notify .error (createFailure error)
        now).changed
  | selectTool {name : String} {toolbox : Toolbox} : s.toolbox.select? name = some toolbox →
    Yields s now (.selectTool name)
      ⟨{ s with toolbox }, { s with toolbox }.postEffects, true⟩
  | reloadTool : Yields s now .reloadTool ⟨s, s.postEffects, false⟩
  | dismiss {notices : NoticeBoard} : s.notices.dismiss? = some notices →
    Yields s now .dismiss { s with notices }.changed
  | tick {time : Nat} {notices : NoticeBoard} : s.notices.tick? time = some notices →
    Yields s now (.tick time) { s with notices }.changed

variable {s : Session σ} {now : Nat} {a : Action σ}

theorem completed_eq_of_pending {kind : RequestKind} {request : UInt64}
    (h : s.requests.pending? kind = some request) (next : Session σ → Session σ) :
    s.completed kind request next =
      (next { s with requests := s.requests.setPending kind none }).changed := by
  rw [completed, Requests.finish?, if_pos h]

theorem completed_of_not_pending {kind : RequestKind} {request : UInt64}
    (h : s.requests.pending? kind ≠ some request) (next : Session σ → Session σ) :
    s.completed kind request next = s.unchanged := by
  rw [completed, Requests.finish?, if_neg h]

theorem yields_edited {α : Type} {edit : Edit α} {next : Session σ → Outcome σ}
    (hrejects : ∀ {e}, edit.result = .error e → edit.tree = s.tree ∧ s.Rejects a e.message)
    (hdone : ∀ {x}, edit.result = .ok x → s.Yields now a (next (s.withTree edit.tree))) :
    s.Yields now a (s.edited edit now next) := by
  rw [edited]
  split
  · next e he =>
    -- an edit that is refused has left the tree alone
    obtain ⟨htree, h⟩ := hrejects he
    rw [htree]
    exact .rejected h
  · next x hx => exact hdone hx

theorem yields_completed {kind : RequestKind} {request : UInt64} {next : Session σ → Session σ}
    (ha : a.completion? = some (kind, request))
    (h : s.requests.pending? kind = some request → s.Yields now a
      (next { s with requests := s.requests.setPending kind none }).changed) :
    s.Yields now a (s.completed kind request next) := by
  by_cases hpending : s.requests.pending? kind = some request
  · rw [completed_eq_of_pending hpending]
    exact h hpending
  · rw [completed_of_not_pending hpending]
    exact .ignored (.answer ha hpending)

theorem yields_removePath (path : String) :
    s.Yields now (.removePath path) (s.removePath path now) := by
  rw [removePath]
  split
  · next e he => exact .rejected (.removeStep he)
  · next p hp =>
    exact yields_edited (fun he => ⟨tree_delete_of_error he, .removePath hp he⟩) (.removePath hp)

theorem yields_openFile (path : String) : s.Yields now (.openFile path) (s.openFile path now) := by
  rw [openFile]
  split
  · next e he => exact .rejected (.openStep he)
  · next p hp =>
    split
    · next hnot => exact .rejected (.openFile hp (by simpa using hnot))
    · next hfile =>
      split
      · next htarget => exact .ignored (.openFile hp htarget)
      · exact .openFile hp (by simpa using hfile)

theorem yields_toggle (path : String) : s.Yields now (.toggle path) (s.toggle path) := by
  rw [toggle]
  split
  · next e he => exact .ignored (.toggleStep he)
  · next p hp =>
    split
    · next explorer hexplorer => exact .toggle hp hexplorer
    · next hnone => exact .ignored (.toggle hp hnone)

theorem yields_openWorkspace (id : String) :
    s.Yields now (.workspaceOpen id) (s.openWorkspace id now) := by
  rw [openWorkspace]
  dsimp only
  split
  · next hblank => exact .rejected (.blank (String.isEmpty_iff.mp hblank))
  · next hid => exact .openWorkspace fun hblank => hid (String.isEmpty_iff.mpr hblank)

theorem yields_dispatch (s : Session σ) (now : Nat) (a : Action σ) :
    s.Yields now a (s.dispatch now a) := by
  cases a with
  | createFile path body =>
    exact yields_edited (fun he => ⟨tree_addFile_of_error he, .createFile he⟩) .createFile
  | createDirectory path =>
    exact yields_edited (fun he => ⟨tree_addDirectory_of_error he, .createDirectory he⟩)
      .createDirectory
  | removePath path => exact yields_removePath path
  | openFile path => exact yields_openFile path
  | saveFile path body =>
    rw [dispatch]
    exact yields_edited (fun he => ⟨tree_addFile_of_error he, .saveFile he⟩) .saveFile
  | toggle path => exact yields_toggle path
  | parse => exact .parse
  | parseFinished result =>
    cases result with
    | ok system => exact .parsed system
    | error text => exact .rejected (.parse text)
  | flowGenerated design => exact .drawn design
  | flowFailed text => exact .rejected (.flow text)
  | workspaceOpen id => exact yields_openWorkspace id
  | workspaceLoaded request id files =>
    rw [dispatch]
    exact yields_completed rfl (.loaded id files)
  | workspaceLoadFailed request error =>
    rw [dispatch]
    exact yields_completed rfl (.loadFailed error)
  | workspaceCreate => exact .createWorkspace
  | workspaceCreated request id =>
    rw [dispatch]
    exact yields_completed rfl (.created id)
  | workspaceCreateFailed request error =>
    rw [dispatch]
    exact yields_completed rfl (.createFailed error)
  | selectTool name =>
    rw [dispatch]
    split
    · next hnone => exact .ignored (.selectTool hnone)
    · next toolbox hsome => exact .selectTool hsome
  | reloadTool => exact .reloadTool
  | dismiss =>
    rw [dispatch]
    split
    · next notices hsome => exact .dismiss hsome
    · next hnone => exact .ignored (.dismiss hnone)
  | tick time =>
    rw [dispatch]
    split
    · next notices hsome => exact .tick hsome
    · next hnone => exact .ignored (.tick hnone)

end Session
end FlowStudio
