import FlowStudio.Command.Arguments
import FlowStudio.Flow.Wire
import FlowStudio.Settings.Files
import FlowStudio.Studio.Basic

/-! What the commands do. -/

namespace FlowStudio

/-- How a command ends: with a text to print, with the text of an error, or not of its own accord. -/
inductive Report where
  | ok (text : String)
  | error (text : String)
  | crash
  deriving DecidableEq, Repr

def Connection.base (c : Connection) (settings : Settings) : String :=
  c.baseUrl.getD settings.workspace.baseUrl

namespace Command

def layoutFile (settings : Settings) (input : String) (output : Option String) : Script Report :=
  .readText input fun
    | .error e => .done (.error e.message)
    | .ok text =>
      match (Json.Document.ofString text).decode Design.decode with
      | .error problem => .done (.error problem.message)
      | .ok design =>
        let text := (Layout.arrangeRanked settings.layout design).encode.pretty
        match output with
        | none => .done (.ok (text ++ "\n"))
        | some path => .writeText path text fun
          | .error e => .done (.error e.message)
          | .ok () => .done (.ok "")

def afterAnswer (base : String) (s : Studio Unit) : Script (Session Unit) :=
  let ending (arrivals : List Studio.Arrival) : Script (Session Unit) :=
    .done (s.wait none 0 arrivals).studio.session
  match s.outstanding with
  | [] => ending []
  | .load _ id :: _ =>
    (Script.ofExchange (Workspace.load base id)).bind fun
      | none => ending []
      | some result => ending [⟨0, ⟨fun _ => result, fun _ => .error .notFound⟩⟩]
  | .create _ files :: _ =>
    (Script.ofExchange (Workspace.create base files)).bind fun
      | none => ending []
      | some result => ending [⟨0, ⟨fun _ => .error .notFound, fun _ => result⟩⟩]

def request (base : String) (session : Session Unit) (action : Action Unit) :
    Script (Session Unit) :=
  afterAnswer base ((Studio.ofSession session).dispatch none 0 action).studio

/-- What is done with the session after a request that is waited for. Without an executor there is
no session, and the program breaks down over a deadline that the clock cannot tell, even if there is
nothing to wait for. A request that was on its way then may or may not be sent. -/
def afterRequest (base : String) (timeout : Nat) (session : Session Unit) (action : Action Unit)
    (next : Session Unit → Script Report) : Script Report :=
  .startExecutor fun
    | .error e => .done (.error e.message)
    | .ok () => .setDeadline timeout fun isReached =>
      if isReached then (request base session action).bind next else .done .crash

def shownError? (s : Session Unit) : Option String :=
  match s.notices.current with
  | some n => if n.severity = .error then some n.text else none
  | none => none

def writeLeaves (directory : String) : List Leaf → Script (Except IoError Unit)
  | [] => .done (.ok ())
  | leaf :: leaves =>
    let names := Path.segments leaf.name
    let parent := if names.length ≤ 1 then directory
      else Disk.join directory ("/".intercalate names.dropLast)
    .makeDirs parent fun
      | .error e => .done (.error e)
      | .ok () => .writeText (Disk.join directory ("/".intercalate names)) leaf.body fun
        | .error e => .done (.error e)
        | .ok () => writeLeaves directory leaves

def pulled (id : String) (s : Session Unit) : Except String (List Leaf) :=
  match shownError? s with
  | some text => .error text
  | none =>
    if s.requests.workspace = some (Text.trim id) then .ok s.tree.readAll
    else .error ("timed out loading workspace " ++ id)

def pullReport (directory : String) (files : List Leaf) : String :=
  "pulled " ++ toString files.length ++ " files into " ++ directory ++ "\n"

def finishPull (id directory : String) (s : Session Unit) : Script Report :=
  match pulled id s with
  | .error text => .done (.error text)
  | .ok files => (writeLeaves directory files).bind fun
    | .error e => .done (.error e.message)
    | .ok () => .done (.ok (pullReport directory files))

def pullWorkspace (settings : Settings) (id directory base : String) (timeout : Nat) :
    Script Report :=
  afterRequest base timeout (.start settings) (.workspaceOpen id) (finishPull id directory)

def pushed (s : Session Unit) : Except String String :=
  match shownError? s with
  | some text => .error text
  | none =>
    match s.requests.workspace with
    | some id => .ok id
    | none => .error "timed out creating workspace"

def finishPush (s : Session Unit) : Script Report :=
  match pushed s with
  | .error text => .done (.error text)
  | .ok id => .done (.ok (id ++ "\n"))

def pushSession (settings : Settings) (tree : FileTree) : Session Unit :=
  .ofTree tree (tree.readAll.head?.map Leaf.name) settings

def pushDirectory (settings : Settings) (directory base : String) (timeout : Nat) :
    Script Report :=
  .loadTree directory fun
    | .error e => .done (.error e.message)
    | .ok tree =>
      if tree.isEmpty then .done (.error ("no files under " ++ directory))
      else afterRequest base timeout (pushSession settings tree) .workspaceCreate finishPush

def perform (settings : Settings) : Command → Script Report
  | .layout input output => layoutFile settings input output
  | .pull id directory connection =>
    pullWorkspace settings id directory (connection.base settings) connection.timeout
  | .push directory connection =>
    pushDirectory settings directory (connection.base settings) connection.timeout

def run (cache : Option String) (command : Command) : Script Report :=
  (Settings.ensure cache).bind fun _ => (Settings.loadOrDefault cache).bind fun settings =>
    perform settings command

end Command
end FlowStudio
