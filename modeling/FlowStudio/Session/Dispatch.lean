import FlowStudio.Layout.Nested
import FlowStudio.Session.Basic
import FlowStudio.Text.Basic

/-! What an action does to a session. -/

namespace FlowStudio

structure Outcome (σ : Type) where
  session : Session σ
  effects : List (Effect σ)
  changed : Bool

namespace Session
variable {σ : Type}

def unchanged (s : Session σ) : Outcome σ := ⟨s, [], false⟩

def changed (s : Session σ) : Outcome σ := ⟨s, [], true⟩

def notify (s : Session σ) (severity : Severity) (text : String) (now : Nat) : Session σ :=
  { s with notices := s.notices.put severity text now }

def fail (s : Session σ) (text : String) (now : Nat) : Outcome σ :=
  (s.notify .error text now).changed

def withTree (s : Session σ) (tree : FileTree) : Session σ :=
  { s with tree, explorer := .refresh tree s.explorer.expanded }

def isBelow (removed path : String) : Bool := path == removed || path.startsWith (removed ++ "/")

def edited {α : Type} (s : Session σ) (edit : Edit α) (now : Nat)
    (next : Session σ → Outcome σ) : Outcome σ :=
  match edit.result with
  | .error e => { s with tree := edit.tree }.fail e.message now
  | .ok _ => next (s.withTree edit.tree)

def removePath (s : Session σ) (path : String) (now : Nat) : Outcome σ :=
  match Path.normalize path with
  | .error e => s.fail e.message now
  | .ok path =>
    s.edited (s.tree.delete path) now fun s =>
      { s with target := s.target.filter fun t => !isBelow path t }.changed

def openFile (s : Session σ) (path : String) (now : Nat) : Outcome σ :=
  match Path.normalize path with
  | .error e => s.fail e.message now
  | .ok path =>
    if !s.tree.isFile path then s.fail (PathError.notFound path).message now
    else if s.target = some path then s.unchanged
    else { s with target := some path }.changed

def toggle (s : Session σ) (path : String) : Outcome σ :=
  match Path.normalize path with
  | .error _ => s.unchanged
  | .ok path =>
    match s.explorer.toggle? s.tree path with
    | some explorer => { s with explorer }.changed
    | none => s.unchanged

def postEffects (s : Session σ) : List (Effect σ) := s.toolMessage?.toList.map .postSystem

def parsed (s : Session σ) (system : σ) (now : Nat) : Outcome σ :=
  let s := { s with system := some system }.notify .success "OK" now
  ⟨s, .generateFlow system :: s.postEffects, true⟩

def openWorkspace (s : Session σ) (id : String) (now : Nat) : Outcome σ :=
  let id := Text.trim id
  if id.isEmpty then s.fail "Workspace id is empty" now
  else
    let (requests, request) := s.requests.begin .load
    ⟨{ s with requests }, [.loadWorkspace request id], true⟩

/-- A loaded workspace takes the place of all files; what the old ones were checked to is void. -/
def adoptWorkspace (s : Session σ) (id : String) (files : List Leaf) (now : Nat) : Session σ :=
  let tree := FileTree.ofLeaves files
  { s with
    tree
    target := tree.readAll.head?.map Leaf.name
    explorer := .ofTree tree
    system := none
    flow := none
    requests := s.requests.withWorkspace id }.notify .success ("Workspace " ++ id ++ " loaded") now

def createWorkspace (s : Session σ) : Outcome σ :=
  let (requests, request) := s.requests.begin .create
  ⟨{ s with requests }, [.createWorkspace request s.tree.readAll], true⟩

def completed (s : Session σ) (kind : RequestKind) (request : UInt64)
    (next : Session σ → Session σ) : Outcome σ :=
  match s.requests.finish? kind request with
  | none => s.unchanged
  | some requests => (next { s with requests }).changed

def loadFailure : WorkspaceError → String
  | .notFound => WorkspaceError.notFoundText
  | error => "Failed to load workspace: " ++ error.message

def createFailure (error : WorkspaceError) : String :=
  "Failed to create workspace: " ++ error.message

def dispatch (now : Nat) (s : Session σ) : Action σ → Outcome σ
  | .createFile path body => s.edited (s.tree.addFile path body) now changed
  | .createDirectory path => s.edited (s.tree.addDirectory path) now changed
  | .removePath path => s.removePath path now
  | .openFile path => s.openFile path now
  | .saveFile path body =>
    s.edited (s.tree.addFile path body) now fun s => ⟨s, [.parseWorkspace s.tree.readAll], true⟩
  | .toggle path => s.toggle path
  | .parse => ⟨s, [.parseWorkspace s.tree.readAll], false⟩
  | .parseFinished (.ok system) => s.parsed system now
  | .parseFinished (.error text) => s.fail text now
  | .flowGenerated design => { s with flow := some (Layout.arrangeRanked s.layout design) }.changed
  | .flowFailed text => s.fail text now
  | .workspaceOpen id => s.openWorkspace id now
  | .workspaceLoaded request id files =>
    s.completed .load request fun s => s.adoptWorkspace id files now
  | .workspaceLoadFailed request error =>
    s.completed .load request fun s => s.notify .error (loadFailure error) now
  | .workspaceCreate => s.createWorkspace
  | .workspaceCreated request id =>
    s.completed .create request fun s =>
      let s := { s with requests := s.requests.withWorkspace id }
      s.notify .success ("Workspace created: " ++ id) now
  | .workspaceCreateFailed request error =>
    s.completed .create request fun s => s.notify .error (createFailure error) now
  | .selectTool name =>
    match s.toolbox.select? name with
    | none => s.unchanged
    | some toolbox =>
      let s := { s with toolbox }
      ⟨s, s.postEffects, true⟩
  | .reloadTool => ⟨s, s.postEffects, false⟩
  | .dismiss =>
    match s.notices.dismiss? with
    | some notices => { s with notices }.changed
    | none => s.unchanged
  | .tick time =>
    match s.notices.tick? time with
    | some notices => { s with notices }.changed
    | none => s.unchanged

end Session
end FlowStudio
