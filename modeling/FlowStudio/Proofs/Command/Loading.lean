import FlowStudio.Command.Run
import FlowStudio.Proofs.Script
import FlowStudio.Proofs.Studio.Turns

/-! The load of a pull. What the command makes of it depends on the answer of the server alone: it
has files to write if they were loaded, and an error to report if not. -/

namespace FlowStudio
open FlowStudio.Workspace
variable {σ : Type}

theorem Studio.session_wait_of_one {s : Studio σ} {job : Job} (hinbox : s.inbox = [])
    (hone : s.outstanding = [job]) (hpending : s.session.hasPending = true)
    (analyzer : Option (Analyzer σ)) (now : Nat) (backend : Backend) :
    (s.wait analyzer now [⟨0, backend⟩]).studio.session =
      (s.session.dispatch now (job.completion backend)).session := by
  have hpoll : s.poll analyzer now = ⟨s, false, []⟩ := by
    rw [poll, hinbox, dispatchAll, ← hinbox]
  have hdeliver : s.deliver backend 0 =
      { s with outstanding := [], inbox := [job.completion backend] } := by
    rw [deliver, hone, List.getElem?_cons_zero, hinbox]
    rfl
  have hanswer : (job.completion backend : Action σ).completion? = some job.key :=
    job.completion?_completion backend
  rw [wait, Turn.andThen, hpoll, if_pos hpending, hdeliver, wait, poll, dispatchAll, Turn.andThen]
  exact congrArg Studio.session (dispatch_of_completion hanswer analyzer now _).2.2

namespace Session
variable {s : Session σ} {id : String}

theorem dispatch_workspaceOpen (hid : (FlowStudio.Text.trim id).isEmpty = false) (now : Nat) :
    s.dispatch now (.workspaceOpen id) = ⟨{ s with requests := (s.requests.begin .load).1 },
      [.loadWorkspace s.requests.next (FlowStudio.Text.trim id)], true⟩ :=
  if_neg (Bool.eq_false_iff.mp hid)

theorem dispatch_workspaceOpen_of_isEmpty (hid : (FlowStudio.Text.trim id).isEmpty = true)
    (now : Nat) : s.dispatch now (.workspaceOpen id) = s.fail "Workspace id is empty" now :=
  if_pos hid

end Session

def Machine.CanWait (m : Machine) (timeout : Nat) : Prop :=
  m.executor = .ok () ∧ m.reaches timeout = true

namespace Command
variable (base : String) (m : Machine) (disk : Disk)

section
variable {m} {timeout : Nat} (session : Session Unit) (action : Action Unit)
  (next : Session Unit → Script Report) (sent : List Request)

theorem run_afterRequest (h : m.CanWait timeout) :
    (afterRequest base timeout session action next).run m disk sent =
      ((request base session action).bind next).run m disk sent := by
  rw [afterRequest, Script.run, h.1, Script.run, h.2]
  rfl

theorem deeds_afterRequest (h : m.CanWait timeout) :
    (afterRequest base timeout session action next).deeds m disk sent =
      ((request base session action).bind next).deeds m disk sent := by
  rw [afterRequest, Script.deeds, h.1, Script.deeds, h.2]
  rfl

theorem afterRequest_of_no_executor {e : IoError} (h : m.executor = .error e) :
    (afterRequest base timeout session action next).run m disk sent =
        ⟨.error e.message, disk, sent⟩ ∧
      (afterRequest base timeout session action next).deeds m disk sent = [] := by
  rw [afterRequest, Script.run, Script.deeds, h]
  exact ⟨rfl, rfl⟩

theorem afterRequest_of_no_deadline (h : m.executor = .ok ()) (hreach : m.reaches timeout = false) :
    (afterRequest base timeout session action next).run m disk sent = ⟨.crash, disk, sent⟩ ∧
      (afterRequest base timeout session action next).deeds m disk sent = [] := by
  rw [afterRequest, Script.run, Script.deeds, h, Script.run, Script.deeds, hreach]
  exact ⟨rfl, rfl⟩

theorem canWait_or (m : Machine) (timeout : Nat) :
    (∃ e, m.executor = .error e) ∨ (m.executor = .ok () ∧ m.reaches timeout = false) ∨
      m.CanWait timeout := by
  rw [Machine.CanWait]
  cases m.executor with
  | error e => exact .inl ⟨e, rfl⟩
  | ok _ =>
    cases m.reaches timeout with
    | false => exact .inr (.inl ⟨rfl, rfl⟩)
    | true => exact .inr (.inr ⟨rfl, rfl⟩)

theorem canWait_of_ok {text : String}
    (h : ((afterRequest base timeout session action next).run m disk sent).value = .ok text) :
    m.CanWait timeout := by
  obtain ⟨e, he⟩ | ⟨hstart, hreach⟩ | hwait := canWait_or m timeout
  · rw [(afterRequest_of_no_executor base disk session action next sent he).1] at h
    cases h
  · rw [(afterRequest_of_no_deadline base disk session action next sent hstart hreach).1] at h
    cases h
  · exact hwait

end

def loadAnswer (base id : String) (server : Server) : Answer (List Leaf) :=
  ((Workspace.load base (FlowStudio.Text.trim id)).run server []).result

def loaded (base id : String) (server : Server) : List Leaf :=
  match loadAnswer base id server with
  | some (.ok files) => files
  | _ => []

theorem deeds_request (session : Session Unit) (action : Action Unit) (sent : List Request) :
    (request base session action).deeds m disk sent = [] := by
  unfold request afterAnswer
  dsimp only
  split
  · rfl
  · rw [Script.deeds_bind, Script.deeds_ofExchange, List.nil_append]
    split <;> rfl
  · rw [Script.deeds_bind, Script.deeds_ofExchange, List.nil_append]
    split <;> rfl

section
variable (s : Session Unit) {id : String}

theorem studio_dispatch_workspaceOpen (hid : (FlowStudio.Text.trim id).isEmpty = false) :
    ((Studio.ofSession s).dispatch none 0 (.workspaceOpen id)).studio =
      { Studio.ofSession { s with requests := (s.requests.begin .load).1 } with
        outstanding := [.load s.requests.next (FlowStudio.Text.trim id)] } := by
  have hopen : (Studio.ofSession s).session.dispatch 0 (.workspaceOpen id) = _ :=
    s.dispatch_workspaceOpen hid 0
  have hlast : ((Studio.ofSession s).advance none 0 (.workspaceOpen id)).2.1 = [] := by
    rw [Studio.advance, hopen]
    rfl
  rw [Studio.dispatch, (Studio.run_of_last hlast 2).1, Studio.advance, hopen]
  rfl

theorem studio_dispatch_workspaceOpen_of_isEmpty (hid : (FlowStudio.Text.trim id).isEmpty = true) :
    ((Studio.ofSession s).dispatch none 0 (.workspaceOpen id)).studio =
      .ofSession (s.notify .error "Workspace id is empty" 0) := by
  have hopen : (Studio.ofSession s).session.dispatch 0 (.workspaceOpen id) = _ :=
    s.dispatch_workspaceOpen_of_isEmpty hid 0
  have hlast : ((Studio.ofSession s).advance none 0 (.workspaceOpen id)).2.1 = [] := by
    rw [Studio.advance, hopen]
    rfl
  rw [Studio.dispatch, (Studio.run_of_last hlast 2).1, Studio.advance, hopen]
  rfl

theorem value_request (hid : (FlowStudio.Text.trim id).isEmpty = false) :
    let opened : Session Unit := { s with requests := (s.requests.begin .load).1 }
    let ended : Session Unit := { opened with requests := opened.requests.setPending .load none }
    ((request base s (.workspaceOpen id)).run m disk []).value =
      match loadAnswer base id m.server with
      | none => opened
      | some (.ok files) => ended.adoptWorkspace (FlowStudio.Text.trim id) files 0
      | some (.error e) => ended.notify .error (Session.loadFailure e) 0 := by
  intro opened ended
  rw [request, studio_dispatch_workspaceOpen s hid, afterAnswer]
  dsimp only
  rw [Script.run_bind, Script.run_ofExchange]
  have hpending : opened.requests.pending? .load = some s.requests.next := rfl
  have hended (result : Except WorkspaceError (List Leaf)) :=
    Studio.session_wait_of_one (s := { Studio.ofSession opened with
      outstanding := [.load s.requests.next (FlowStudio.Text.trim id)] }) rfl rfl rfl none 0
      ⟨fun _ => result, fun _ => .error .notFound⟩
  generalize hanswer : loadAnswer base id m.server = answer
  rw [loadAnswer] at hanswer
  rw [hanswer]
  match answer with
  | none => rfl
  | some (.ok files) =>
    exact (hended (.ok files)).trans (Session.session_dispatch_loaded hpending _ files 0)
  | some (.error e) =>
    exact (hended (.error e)).trans (Session.session_dispatch_loadFailed hpending e 0)

theorem value_request_of_isEmpty (hid : (FlowStudio.Text.trim id).isEmpty = true) :
    ((request base s (.workspaceOpen id)).run m disk []).value =
      s.notify .error "Workspace id is empty" 0 := by
  rw [request, studio_dispatch_workspaceOpen_of_isEmpty s hid]
  rfl

end

theorem pulled_adoptWorkspace (s : Session Unit) (id : String) (files : List Leaf) :
    pulled id (s.adoptWorkspace (FlowStudio.Text.trim id) files 0) =
      .ok (FileTree.ofLeaves files).readAll := by
  have hshown : shownError? (s.adoptWorkspace (FlowStudio.Text.trim id) files 0) = none := rfl
  have hopen : (s.adoptWorkspace (FlowStudio.Text.trim id) files 0).requests.workspace =
      some (FlowStudio.Text.trim id) := rfl
  rw [pulled, hshown]
  exact if_pos hopen

theorem pulled_notify (s : Session Unit) (id text : String) :
    pulled id (s.notify .error text 0) = .error text := rfl

theorem pulled_request (settings : Settings) {id : String}
    (hid : (FlowStudio.Text.trim id).isEmpty = false) :
    pulled id ((request base (.start settings) (.workspaceOpen id)).run m disk []).value =
      match loadAnswer base id m.server with
      | none => .error ("timed out loading workspace " ++ id)
      | some (.ok files) => .ok (FileTree.ofLeaves files).readAll
      | some (.error e) => .error (Session.loadFailure e) := by
  rw [value_request base m disk (.start settings) hid]
  match loadAnswer base id m.server with
  | none => rfl
  | some (.ok files) => exact pulled_adoptWorkspace _ id files
  | some (.error e) => exact pulled_notify _ id _

theorem exists_of_pulled (settings : Settings) (id : String) {files : List Leaf}
    (h : pulled id ((request base (.start settings) (.workspaceOpen id)).run m disk []).value =
      .ok files) : (FlowStudio.Text.trim id).isEmpty = false ∧
      ∃ found, loadAnswer base id m.server = some (.ok found) ∧
        files = (FileTree.ofLeaves found).readAll := by
  cases hid : (FlowStudio.Text.trim id).isEmpty with
  | true =>
    rw [value_request_of_isEmpty base m disk _ hid, pulled_notify] at h
    cases h
  | false =>
    rw [pulled_request base m disk settings hid] at h
    cases hanswer : loadAnswer base id m.server with
    | none =>
      rw [hanswer] at h
      cases h
    | some result =>
      rw [hanswer] at h
      cases result with
      | error e => cases h
      | ok found => exact ⟨rfl, found, rfl, (Except.ok.inj h).symm⟩

theorem files_of_pulled (settings : Settings) (id : String) {files : List Leaf}
    (h : pulled id ((request base (.start settings) (.workspaceOpen id)).run m disk []).value =
      .ok files) : files = (FileTree.ofLeaves (loaded base id m.server)).readAll := by
  obtain ⟨-, found, hfound, hfiles⟩ := exists_of_pulled base m disk settings id h
  have hloaded : loaded base id m.server = found := by
    unfold loaded
    rw [hfound]
  rw [hloaded, hfiles]

end Command
end FlowStudio
