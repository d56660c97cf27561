import FlowStudio.Proofs.Command.Loading
import FlowStudio.Proofs.FileTree.History
import FlowStudio.Proofs.FileTree.Leaves

/-! The creation of a push. It sends out all files of a directory at once, and what the command
makes of it depends on the answer of the server alone. -/

namespace FlowStudio
open FlowStudio.Workspace

namespace Disk

theorem wellFormed_gather {leaves : List Leaf} {t tree : FileTree} (hw : t.WellFormed)
    (h : gather leaves t = .ok tree) : tree.WellFormed := by
  induction leaves generalizing t with
  | nil => exact Except.ok.inj h ▸ hw
  | cons leaf leaves ih =>
    rw [gather] at h
    cases hmake : t.makeFile leaf.name leaf.body with
    | error e =>
      rw [hmake] at h
      cases h
    | ok made =>
      rw [hmake] at h
      refine ih ?_ h
      rw [FileTree.makeFile, Edit.outcome] at hmake
      cases hresult : (t.addFile leaf.name leaf.body).result with
      | error e =>
        rw [hresult] at hmake
        cases hmake
      | ok id =>
        rw [hresult] at hmake
        obtain rfl := Except.ok.inj hmake
        exact hw.addFile leaf.name leaf.body

theorem wellFormed_loadTree {disk : Disk} {path : String} {tree : FileTree}
    (h : disk.loadTree path = .ok tree) : tree.WellFormed := by
  rw [loadTree] at h
  cases hfound : disk.resolve path with
  | error e =>
    rw [hfound] at h
    cases h
  | ok found =>
    rw [hfound] at h
    obtain ⟨real, entry⟩ := found
    cases entry with
    | file bytes => exact wellFormed_gather FileTree.wellFormed_empty h
    | dir => exact wellFormed_gather FileTree.wellFormed_empty h
    | link target => exact wellFormed_gather FileTree.wellFormed_empty h

end Disk

namespace Command
variable (base : String) (m : Machine) (disk : Disk)

def createAnswer (base : String) (files : List Leaf) (server : Server) : Answer String :=
  ((Workspace.create base files).run server []).result

def creationAction (request : UInt64) : Except WorkspaceError String → Action Unit
  | .ok id => .workspaceCreated request id
  | .error error => .workspaceCreateFailed request error

def creationResult : Answer String → Except String String
  | none => .error "timed out creating workspace"
  | some (.ok id) => .ok id
  | some (.error error) => .error (Session.createFailure error)

theorem creationResult_eq_ok_iff {answer : Answer String} {id : String} :
    creationResult answer = .ok id ↔ answer = some (.ok id) := by
  cases answer with
  | none => simp [creationResult]
  | some result => cases result <;> simp [creationResult]

def createRequest (base : String) (files : List Leaf) : Request :=
  .post (url base "") (files.map partOf)

theorem sent_create (files : List Leaf) (server : Server) :
    ((Workspace.create base files).run server []).sent = [createRequest base files] := by
  rw [Workspace.create, run_askFor, createRequest]
  cases server [.post (url base "") (files.map partOf)] with
  | late => rfl
  | failed error => rfl
  | response r =>
    dsimp only [afterReply]
    split
    · rfl
    · split <;> rfl

section
variable (s : Session Unit)

theorem studio_dispatch_workspaceCreate :
    ((Studio.ofSession s).dispatch none 0 .workspaceCreate).studio =
      { Studio.ofSession (s.dispatch 0 .workspaceCreate).session with
        outstanding := [.create s.requests.next s.tree.readAll] } := rfl

theorem value_request_workspaceCreate :
    let begun := (s.dispatch 0 .workspaceCreate).session
    ((request base s .workspaceCreate).run m disk []).value =
      (createAnswer base s.tree.readAll m.server).elim begun fun result =>
        (begun.dispatch 0 (creationAction s.requests.next result)).session := by
  intro begun
  rw [request, studio_dispatch_workspaceCreate s, afterAnswer]
  dsimp only
  rw [Script.run_bind, Script.run_ofExchange, createAnswer]
  have hpending : begun.hasPending = true := Bool.or_eq_true_iff.mpr (.inr rfl)
  have hended (result : Except WorkspaceError String) :=
    Studio.session_wait_of_one (s := { Studio.ofSession begun with
      outstanding := [.create s.requests.next s.tree.readAll] }) rfl rfl hpending none 0
      ⟨fun _ => .error .notFound, fun _ => result⟩
  cases ((Workspace.create base s.tree.readAll).run m.server []).result with
  | none => rfl
  | some result =>
    cases result with
    | ok id => exact hended (.ok id)
    | error e => exact hended (.error e)

theorem sent_request_workspaceCreate :
    ((request base s .workspaceCreate).run m disk []).sent =
      [createRequest base s.tree.readAll] := by
  rw [request, studio_dispatch_workspaceCreate s, afterAnswer]
  dsimp only
  rw [Script.run_bind, Script.run_ofExchange, ← sent_create base s.tree.readAll m.server]
  cases ((Workspace.create base s.tree.readAll).run m.server []).result <;> rfl

end

section
variable {s : Session Unit} {request : UInt64} (h : s.requests.pending? .create = some request)
include h

theorem pushed_dispatch_created (id : String) :
    pushed (s.dispatch 0 (.workspaceCreated request id)).session = .ok id := by
  rw [Session.dispatch, Session.completed_eq_of_pending h]
  rfl

theorem pushed_dispatch_createFailed (error : WorkspaceError) :
    pushed (s.dispatch 0 (.workspaceCreateFailed request error)).session =
      .error (Session.createFailure error) := by
  rw [Session.dispatch, Session.completed_eq_of_pending h]
  rfl

end

theorem pushed_request {s : Session Unit} (hnotice : s.notices.current = none)
    (hworkspace : s.requests.workspace = none) :
    pushed ((request base s .workspaceCreate).run m disk []).value =
      creationResult (createAnswer base s.tree.readAll m.server) := by
  have hpending : (s.dispatch 0 .workspaceCreate).session.requests.pending? .create =
    some s.requests.next := rfl
  rw [value_request_workspaceCreate]
  cases createAnswer base s.tree.readAll m.server with
  | none =>
    have hshown : shownError? (s.dispatch 0 .workspaceCreate).session = none := by
      show shownError? { s with requests := (s.requests.begin .create).1 } = none
      rw [shownError?, hnotice]
    have hopen : (s.dispatch 0 .workspaceCreate).session.requests.workspace = none := hworkspace
    rw [Option.elim_none, pushed, hshown, hopen]
    rfl
  | some result =>
    cases result with
    | ok id => exact pushed_dispatch_created hpending id
    | error e => exact pushed_dispatch_createFailed hpending e

def creationReport (answer : Answer String) : Report :=
  match creationResult answer with
  | .error text => .error text
  | .ok id => .ok (id ++ "\n")

section
variable (settings : Settings) (directory : String) (timeout : Nat)

theorem deeds_finishPush (ended : Session Unit) (sent : List Request) :
    (finishPush ended).deeds m disk sent = [] := by
  rw [finishPush]
  split <;> rfl

theorem deeds_pushDirectory :
    (pushDirectory settings directory base timeout).deeds m disk [] = [] := by
  rw [pushDirectory, Script.deeds]
  split
  · rfl
  · split
    · rfl
    · obtain ⟨e, he⟩ | ⟨hstart, hreach⟩ | hwait := canWait_or m timeout
      · exact (afterRequest_of_no_executor base disk _ _ _ [] he).2
      · exact (afterRequest_of_no_deadline base disk _ _ _ [] hstart hreach).2
      · rw [deeds_afterRequest base disk _ _ _ [] hwait, Script.deeds_bind, deeds_request,
          List.nil_append, deeds_finishPush]

theorem run_pushDirectory_of_unread {error : IoError} (h : disk.loadTree directory = .error error) :
    (pushDirectory settings directory base timeout).run m disk [] =
      ⟨.error error.message, disk, []⟩ := by
  rw [pushDirectory, Script.run, h]
  rfl

variable {settings} {directory} {tree : FileTree} (htree : disk.loadTree directory = .ok tree)
include htree

theorem run_pushDirectory_of_no_files (hfiles : tree.readAll = []) :
    (pushDirectory settings directory base timeout).run m disk [] =
      ⟨.error ("no files under " ++ directory), disk, []⟩ := by
  have hempty := (FileTree.isEmpty_iff (Disk.wellFormed_loadTree htree)).mpr hfiles
  rw [pushDirectory, Script.run, htree]
  dsimp only
  rw [if_pos hempty]
  rfl

theorem run_pushDirectory_of_files (hfiles : tree.readAll ≠ []) :
    (pushDirectory settings directory base timeout).run m disk [] =
      (afterRequest base timeout (pushSession settings tree) .workspaceCreate finishPush).run m disk
        [] := by
  have hiff := FileTree.isEmpty_iff (Disk.wellFormed_loadTree htree)
  rw [pushDirectory, Script.run, htree]
  dsimp only
  rw [if_neg fun hempty => hfiles (hiff.mp hempty)]

end

theorem run_pushing (settings : Settings) (tree : FileTree) {timeout : Nat}
    (hwait : m.CanWait timeout) :
    let ended := (afterRequest base timeout (pushSession settings tree) .workspaceCreate
      finishPush).run m disk []
    ended.sent = [createRequest base tree.readAll] ∧
      ended.value = creationReport (createAnswer base tree.readAll m.server) := by
  intro ended
  have hended : ended = _ := run_afterRequest base disk _ _ finishPush [] hwait
  have hsent : _ = [createRequest base tree.readAll] :=
    sent_request_workspaceCreate base m disk (pushSession settings tree)
  have hpushed : _ = creationResult (createAnswer base tree.readAll m.server) :=
    pushed_request base m disk (s := pushSession settings tree) rfl rfl
  rw [hended, Script.run_bind, finishPush, ← hsent, creationReport, ← hpushed]
  generalize (request base (pushSession settings tree) .workspaceCreate).run m disk [] = requested
  cases pushed requested.value <;> exact ⟨rfl, rfl⟩

end Command
end FlowStudio
