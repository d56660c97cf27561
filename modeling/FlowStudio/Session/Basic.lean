import FlowStudio.Explorer
import FlowStudio.Flow.Basic
import FlowStudio.Session.Notice
import FlowStudio.Session.Requests
import FlowStudio.Settings.Basic

/-! A session: everything that is on screen, what a user or a server can do to it, and what it asks
for in turn. The systems that files are checked to are of any type. -/

namespace FlowStudio

structure Session (σ : Type) where
  tree : FileTree
  target : Option String
  explorer : Explorer
  notices : NoticeBoard
  requests : Requests
  toolbox : Toolbox
  system : Option σ
  flow : Option (Design Float)
  layout : LayoutConfig Float

structure ToolMessage (σ : Type) where
  tool : String
  system : σ
  deriving DecidableEq, Repr

inductive Action (σ : Type) where
  | createFile (path body : String)
  | createDirectory (path : String)
  | removePath (path : String)
  | openFile (path : String)
  | saveFile (path body : String)
  | toggle (path : String)
  | parse
  | parseFinished (result : Except String σ)
  | flowGenerated (design : Design Float)
  | flowFailed (text : String)
  | workspaceOpen (id : String)
  | workspaceLoaded (request : UInt64) (id : String) (files : List Leaf)
  | workspaceLoadFailed (request : UInt64) (error : WorkspaceError)
  | workspaceCreate
  | workspaceCreated (request : UInt64) (id : String)
  | workspaceCreateFailed (request : UInt64) (error : WorkspaceError)
  | selectTool (name : String)
  | reloadTool
  | dismiss
  | tick (now : Nat)

inductive Effect (σ : Type) where
  | parseWorkspace (files : List Leaf)
  | generateFlow (system : σ)
  | postSystem (message : ToolMessage σ)
  | loadWorkspace (request : UInt64) (id : String)
  | createWorkspace (request : UInt64) (files : List Leaf)

namespace Session
variable {σ : Type}

def starterFile : Leaf := ⟨"/design.def", "unit design;"⟩

def ofTree (tree : FileTree) (target : Option String) (settings : Settings) : Session σ where
  tree
  target
  explorer := .ofTree tree
  notices := .blank settings.notifications.autoHideMs.toNat
  requests := .none
  toolbox := .ofTools settings.tools
  system := none
  flow := none
  layout := settings.layout

def start (settings : Settings) : Session σ :=
  ofTree (.ofLeaves [starterFile]) (some starterFile.name) settings

def targetBody? (s : Session σ) : Option String := s.target.bind s.tree.read?

def hasPending (s : Session σ) : Bool :=
  s.requests.isPending .load || s.requests.isPending .create

def toolMessage? (s : Session σ) : Option (ToolMessage σ) := do
  let tool ← s.toolbox.selected?
  let system ← s.system
  return ⟨tool.path, system⟩

end Session
end FlowStudio
