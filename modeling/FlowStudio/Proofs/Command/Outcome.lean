import FlowStudio.Proofs.Command.Creating
import FlowStudio.Proofs.Command.Pull

/-! How a pull and a push end. Each reports success only if the answer it waited for was taken up,
and whatever else comes of its request is reported as an error, with nothing written. Where the clock
cannot tell the end of the time to wait, no request is waited for and there is no report of either
kind. -/

namespace FlowStudio.Command
open FlowStudio.Workspace
variable (settings : Settings) (id directory base : String) (timeout : Nat) (m : Machine)
  (disk : Disk)

/-- A command comes to a report and has not touched the disk. -/
structure EndsUntouched (command : Script Report) (report : Report) : Prop where
  value_eq : (command.run m disk []).value = report
  deeds_eq : command.deeds m disk [] = []
  disk_eq : (command.run m disk []).disk = disk

variable {m disk} in
theorem endsUntouched_of_deeds {command : Script Report} {report : Report}
    (hvalue : (command.run m disk []).value = report) (hdeeds : command.deeds m disk [] = []) :
    EndsUntouched m disk command report :=
  ⟨hvalue, hdeeds, by rw [Script.disk_run, hdeeds]; rfl⟩

/-- A session has asked for a workspace, and `ended` has taken up the answer with its files. -/
def TookLoad (asked : Outcome Unit) (id : String) (files : List Leaf) (ended : Session Unit) :
    Prop :=
  ∃ request, asked.effects = [.loadWorkspace request id] ∧
    let answered := asked.session.dispatch 0 (.workspaceLoaded request id files)
    answered.changed = true ∧ ended = answered.session

def TookCreation (asked : Outcome Unit) (files : List Leaf) (id : String) (ended : Session Unit) :
    Prop :=
  ∃ request, asked.effects = [.createWorkspace request files] ∧
    let answered := asked.session.dispatch 0 (.workspaceCreated request id)
    answered.changed = true ∧ ended = answered.session

theorem makes_writeLeaves (leaves : List Leaf) :
    (writeLeaves directory leaves).Makes (leaves.flatMap (leafDeeds directory)) := by
  induction leaves with
  | nil => exact Script.makes_done
  | cons leaf leaves ih =>
    rw [writeLeaves, List.flatMap_cons, leafDeeds]
    exact Script.makes_makeDirs (Script.makes_writeText ih _ _) _

def writingReport (directory : String) (files : List Leaf) : Except IoError Disk → Report
  | .error error => .error error.message
  | .ok _ => .ok (pullReport directory files)

theorem disk_request (session : Session Unit) (action : Action Unit) :
    ((request base session action).run m disk []).disk = disk := by
  rw [Script.disk_run, deeds_request]
  rfl

def pullSession (settings : Settings) (id base : String) (m : Machine) (disk : Disk) :
    Session Unit :=
  ((request base (.start settings) (.workspaceOpen id)).run m disk []).value

section
variable {settings id base timeout m disk} (hwait : m.CanWait timeout)
include hwait

theorem endsUntouched_of_pulled {text : String}
    (h : pulled id (pullSession settings id base m disk) = .error text) :
    EndsUntouched m disk (pullWorkspace settings id directory base timeout) (.error text) := by
  rw [pullSession] at h
  refine endsUntouched_of_deeds ?_ ?_
  · rw [pullWorkspace, run_afterRequest base disk _ _ _ [] hwait, Script.run_bind, finishPull, h]
    rfl
  · rw [pullWorkspace, deeds_afterRequest base disk _ _ _ [] hwait, Script.deeds_bind,
      deeds_request, finishPull, h]
    rfl

theorem value_of_pulled {files : List Leaf}
    (h : pulled id (pullSession settings id base m disk) = .ok files) :
    ((pullWorkspace settings id directory base timeout).run m disk []).value =
      writingReport directory files (Deed.makeAll disk (files.flatMap (leafDeeds directory))) := by
  have hdisk := disk_request base m disk (.start settings) (.workspaceOpen id)
  rw [pullSession] at h
  rw [pullWorkspace, run_afterRequest base disk _ _ _ [] hwait, Script.run_bind, finishPull, h,
    hdisk]
  dsimp only
  rw [Script.run_bind, makes_writeLeaves directory files m disk _]
  cases Deed.makeAll disk (files.flatMap (leafDeeds directory)) <;> rfl

theorem written_of_ok {text : String}
    (h : ((pullWorkspace settings id directory base timeout).run m disk []).value = .ok text) :
    let pull := pullWorkspace settings id directory base timeout
    ∃ files, pulled id (pullSession settings id base m disk) = .ok files ∧
      text = pullReport directory files ∧
      pull.deeds m disk [] = files.flatMap (leafDeeds directory) ∧
      Deed.makeAll disk (pull.deeds m disk []) = .ok (pull.run m disk []).disk := by
  intro pull
  have hdeeds := (deeds_pullWorkspace settings id directory base timeout m disk).2 text h
  cases hpulled : pulled id (pullSession settings id base m disk) with
  | error problem =>
    have hrefused := (endsUntouched_of_pulled directory hwait hpulled).value_eq
    cases hrefused.symm.trans h
  | ok files =>
    rw [← files_of_pulled base m disk settings id hpulled] at hdeeds
    have hvalue := value_of_pulled directory hwait hpulled
    rw [h] at hvalue
    cases hmade : Deed.makeAll disk (files.flatMap (leafDeeds directory)) with
    | error e =>
      rw [hmade] at hvalue
      cases hvalue
    | ok made =>
      rw [hmade] at hvalue
      refine ⟨files, rfl, Report.ok.inj hvalue, hdeeds, ?_⟩
      rw [Script.disk_run, hdeeds, hmade, Deed.attemptAll_of_makeAll hmade]

end

section
variable {settings id base m}

theorem tookLoad (hid : (Text.trim id).isEmpty = false) {files : List Leaf}
    (h : loadAnswer base id m.server = some (.ok files)) :
    TookLoad ((Session.start settings).dispatch 0 (.workspaceOpen id)) (Text.trim id) files
        (pullSession settings id base m disk) ∧
      (pullSession settings id base m disk).tree = .ofLeaves files := by
  have hvalue := value_request base m disk (.start settings) hid
  rw [h] at hvalue
  let opened : Session Unit := { Session.start settings with
    requests := ((Session.start settings : Session Unit).requests.begin .load).1 }
  have hpending : opened.requests.pending? .load = some 0 := rfl
  rw [Session.dispatch_workspaceOpen hid, pullSession]
  refine ⟨⟨0, rfl, ?_, ?_⟩, ?_⟩
  · show (opened.dispatch 0 (.workspaceLoaded 0 (FlowStudio.Text.trim id) files)).changed = true
    rw [Session.dispatch, Session.completed_eq_of_pending hpending]
    rfl
  · exact hvalue.trans (Session.session_dispatch_loaded hpending _ files 0).symm
  · rw [hvalue]
    rfl

theorem tookCreation {tree : FileTree} {new : String}
    (h : createAnswer base tree.readAll m.server = some (.ok new)) :
    TookCreation ((pushSession settings tree).dispatch 0 .workspaceCreate) tree.readAll new
      ((request base (pushSession settings tree) .workspaceCreate).run m disk []).value := by
  have hvalue := value_request_workspaceCreate base m disk (pushSession settings tree)
  have hfiles : (pushSession settings tree).tree.readAll = tree.readAll := rfl
  rw [hfiles, h] at hvalue
  let begun : Session Unit := ((pushSession settings tree).dispatch 0 .workspaceCreate).session
  have hpending : begun.requests.pending? .create = some 0 := rfl
  refine ⟨0, rfl, ?_, hvalue⟩
  show (begun.dispatch 0 (.workspaceCreated 0 new)).changed = true
  rw [Session.dispatch, Session.completed_eq_of_pending hpending]
  rfl

end

/-- How a pull ends, with the session when its wait is over. -/
structure PullEnds (ended : Session Unit) (pull : Script Report) : Prop where
  of_ok : ∀ text, (pull.run m disk []).value = .ok text → m.CanWait timeout ∧ ∃ files,
    loadAnswer base id m.server = some (.ok files) ∧
    TookLoad ((Session.start settings).dispatch 0 (.workspaceOpen id)) (Text.trim id) files ended ∧
    ended.tree = .ofLeaves files ∧
    pull.deeds m disk [] = ended.tree.readAll.flatMap (leafDeeds directory) ∧
    Deed.makeAll disk (pull.deeds m disk []) = .ok (pull.run m disk []).disk ∧
    text = pullReport directory ended.tree.readAll
  of_no_executor : ∀ error, m.executor = .error error →
    EndsUntouched m disk pull (.error error.message)
  of_no_deadline : m.executor = .ok () → m.reaches timeout = false →
    EndsUntouched m disk pull .crash
  of_blank : m.CanWait timeout → (Text.trim id).isEmpty = true →
    EndsUntouched m disk pull (.error "Workspace id is empty")
  of_failed : m.CanWait timeout → (Text.trim id).isEmpty = false → ∀ error,
    loadAnswer base id m.server = some (.error error) →
      EndsUntouched m disk pull (.error (Session.loadFailure error))
  of_late : m.CanWait timeout → (Text.trim id).isEmpty = false →
    loadAnswer base id m.server = none →
      EndsUntouched m disk pull (.error ("timed out loading workspace " ++ id))
  of_shown : m.CanWait timeout → ∀ text, shownError? ended = some text →
    EndsUntouched m disk pull (.error text)
  of_loaded : m.CanWait timeout → (Text.trim id).isEmpty = false → ∀ files,
    loadAnswer base id m.server = some (.ok files) →
      let leaves := (FileTree.ofLeaves files).readAll
      (pull.run m disk []).value =
        writingReport directory leaves (Deed.makeAll disk (leaves.flatMap (leafDeeds directory)))

structure PushEnds (push : Script Report) : Prop where
  of_ok : ∀ text, (push.run m disk []).value = .ok text → m.CanWait timeout ∧ ∃ tree new,
    disk.loadTree directory = .ok tree ∧ tree.readAll ≠ [] ∧
    createAnswer base tree.readAll m.server = some (.ok new) ∧
    TookCreation ((pushSession settings tree).dispatch 0 .workspaceCreate) tree.readAll new
      ((request base (pushSession settings tree) .workspaceCreate).run m disk []).value ∧
    (push.run m disk []).sent = [createRequest base tree.readAll] ∧
    text = new ++ "\n"
  of_unread : ∀ error, disk.loadTree directory = .error error →
    push.run m disk [] = ⟨.error error.message, disk, []⟩
  of_no_files : ∀ tree, disk.loadTree directory = .ok tree → tree.readAll = [] →
    push.run m disk [] = ⟨.error ("no files under " ++ directory), disk, []⟩
  of_no_executor : ∀ tree, disk.loadTree directory = .ok tree → tree.readAll ≠ [] → ∀ error,
    m.executor = .error error → push.run m disk [] = ⟨.error error.message, disk, []⟩
  of_no_deadline : ∀ tree, disk.loadTree directory = .ok tree → tree.readAll ≠ [] →
    m.executor = .ok () → m.reaches timeout = false → (push.run m disk []).value = .crash
  of_files : ∀ tree, disk.loadTree directory = .ok tree → tree.readAll ≠ [] →
    m.CanWait timeout →
      (push.run m disk []).value = creationReport (createAnswer base tree.readAll m.server)
  untouched : push.deeds m disk [] = [] ∧ (push.run m disk []).disk = disk

theorem pullEnds : PullEnds settings id directory base timeout m disk
    (pullSession settings id base m disk) (pullWorkspace settings id directory base timeout) where
  of_ok text h := by
    have hwait := canWait_of_ok base disk _ _ _ [] h
    obtain ⟨files, hpulled, htext, hdeeds, hmade⟩ := written_of_ok directory hwait h
    obtain ⟨hid, found, hanswer, rfl⟩ := exists_of_pulled base m disk settings id hpulled
    obtain ⟨htook, htree⟩ := tookLoad disk hid hanswer
    refine ⟨hwait, found, hanswer, htook, htree, ?_, hmade, ?_⟩
    · rw [htree, hdeeds]
    · rw [htree, htext]
  of_no_executor error h := by
    obtain ⟨hrun, hdeeds⟩ := afterRequest_of_no_executor base disk _ _ _ [] h
    exact endsUntouched_of_deeds (congrArg Script.End.value hrun) hdeeds
  of_no_deadline hstart hreach := by
    obtain ⟨hrun, hdeeds⟩ := afterRequest_of_no_deadline base disk _ _ _ [] hstart hreach
    exact endsUntouched_of_deeds (congrArg Script.End.value hrun) hdeeds
  of_blank hwait hid := by
    refine endsUntouched_of_pulled directory hwait ?_
    rw [pullSession, value_request_of_isEmpty base m disk _ hid, pulled_notify]
  of_failed hwait hid error h := by
    refine endsUntouched_of_pulled directory hwait ?_
    rw [pullSession, pulled_request base m disk settings hid, h]
  of_late hwait hid h := by
    refine endsUntouched_of_pulled directory hwait ?_
    rw [pullSession, pulled_request base m disk settings hid, h]
  of_shown hwait text h := by
    refine endsUntouched_of_pulled directory hwait ?_
    rw [pulled, h]
  of_loaded hwait hid files h := by
    refine value_of_pulled directory hwait ?_
    rw [pullSession, pulled_request base m disk settings hid, h]

theorem pushEnds : PushEnds settings directory base timeout m disk
    (pushDirectory settings directory base timeout) where
  of_ok text h := by
    cases htree : disk.loadTree directory with
    | error error =>
      rw [run_pushDirectory_of_unread base m disk settings directory timeout htree] at h
      cases h
    | ok tree =>
      by_cases hfiles : tree.readAll = []
      · rw [run_pushDirectory_of_no_files base m disk timeout htree hfiles] at h
        cases h
      · have hrun : (pushDirectory settings directory base timeout).run m disk [] = _ :=
          run_pushDirectory_of_files base m disk timeout htree hfiles
        rw [hrun] at h
        have hwait := canWait_of_ok base disk _ _ _ [] h
        obtain ⟨hsent, hvalue⟩ := run_pushing base m disk settings tree hwait
        rw [hvalue, creationReport] at h
        cases hresult : creationResult (createAnswer base tree.readAll m.server) with
        | error problem =>
          rw [hresult] at h
          cases h
        | ok new =>
          rw [hresult] at h
          have hanswer := creationResult_eq_ok_iff.mp hresult
          have htook : TookCreation ((pushSession settings tree).dispatch 0 .workspaceCreate) _ _ _ :=
            tookCreation disk hanswer
          exact ⟨hwait, tree, new, rfl, hfiles, hanswer, htook, hrun ▸ hsent,
            (Report.ok.inj h).symm⟩
  of_unread _ h := run_pushDirectory_of_unread base m disk settings directory timeout h
  of_no_files _ htree hfiles := run_pushDirectory_of_no_files base m disk timeout htree hfiles
  of_no_executor _ htree hfiles error h := by
    rw [run_pushDirectory_of_files base m disk timeout htree hfiles]
    exact (afterRequest_of_no_executor base disk _ _ _ [] h).1
  of_no_deadline _ htree hfiles hstart hreach := by
    rw [run_pushDirectory_of_files base m disk timeout htree hfiles,
      (afterRequest_of_no_deadline base disk _ _ _ [] hstart hreach).1]
  of_files tree htree hfiles hwait := by
    rw [run_pushDirectory_of_files base m disk timeout htree hfiles]
    exact (run_pushing base m disk settings tree hwait).2
  untouched := by
    have hdeeds := deeds_pushDirectory base m disk settings directory timeout
    refine ⟨hdeeds, ?_⟩
    rw [Script.disk_run, hdeeds]
    rfl

theorem exists_of_map_eq_ok {ε α β : Type} {f : α → β} {x : Except ε α} {b : β}
    (h : x.map f = .ok b) : ∃ a, x = .ok a ∧ f a = b := by
  cases x with
  | error e => cases h
  | ok a => exact ⟨a, rfl, Except.ok.inj h⟩

def answeringMachine : Machine where
  server
    | .get "http://h/workspace/w" :: _ =>
      .response ⟨200, some (Text.toUtf8 "[\"w/b\",\"w/lib/a\"]"), ""⟩
    | .get "http://h/workspace/w/b" :: _ => .response ⟨200, some [66], ""⟩
    | .get "http://h/workspace/w/lib/a" :: _ => .response ⟨200, some [65], ""⟩
    | .post "http://h/workspace" _ :: _ => .response ⟨201, some (Text.toUtf8 "new\n"), ""⟩
    | .get "http://h/workspace/slow" :: _ => .late
    | _ => .response ⟨404, some [], ""⟩
  executor := .ok ()
  reaches seconds := seconds < 0x8000000000000000

def twoDirectories : Disk :=
  ⟨[(["src"], .dir), (["src", "a.def"], .file [65]), (["none"], .dir), (["none", ".a"], .file [66])],
    []⟩

end FlowStudio.Command
