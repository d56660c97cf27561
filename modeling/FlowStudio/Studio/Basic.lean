import FlowStudio.Session.Dispatch
import FlowStudio.Studio.Broadcast

/-! The studio: a session with what runs its effects. Files are analysed at once; requests to the
workspace server are answered later, and their answers wait in an inbox until it is looked at. -/

namespace FlowStudio

/-- Parses files one by one, checks them together, and draws the flow of a checked system. -/
structure Analyzer (σ : Type) where
  Parser : Type
  fresh : Parser
  parse : Parser → Leaf → Except String Parser
  check : Parser → Except String σ
  draw : σ → Except String (Design Float)

inductive Job where
  | load (request : UInt64) (id : String)
  | create (request : UInt64) (files : List Leaf)
  deriving DecidableEq, Repr

structure Backend where
  load : String → Except WorkspaceError (List Leaf)
  create : List Leaf → Except WorkspaceError String

def Job.completion {σ : Type} (backend : Backend) : Job → Action σ
  | .load request id =>
    match backend.load id with
    | .ok files => .workspaceLoaded request id files
    | .error e => .workspaceLoadFailed request e
  | .create request files =>
    match backend.create files with
    | .ok id => .workspaceCreated request id
    | .error e => .workspaceCreateFailed request e

inductive Event (σ : Type) where
  | parse (name : String)
  | check
  | draw (system : σ)
  | post (message : ToolMessage σ)
  | request (job : Job)

structure Studio (σ : Type) where
  session : Session σ
  outstanding : List Job
  inbox : List (Action σ)
  channel : Broadcast (ToolMessage σ)

structure Turn (σ : Type) where
  studio : Studio σ
  changed : Bool
  events : List (Event σ)

def noAnalyzerText : String := "analysis engine is not loaded"

namespace Analyzer
variable {σ : Type}

def parseAll (a : Analyzer σ) : a.Parser → List Leaf → Except String a.Parser × List (Event σ)
  | p, [] => (.ok p, [])
  | p, leaf :: leaves =>
    match a.parse p leaf with
    | .error text => (.error text, [.parse leaf.name])
    | .ok p =>
      let (result, events) := a.parseAll p leaves
      (result, .parse leaf.name :: events)

def checkAll (a : Analyzer σ) (files : List Leaf) : Except String σ × List (Event σ) :=
  match a.parseAll a.fresh files with
  | (.error text, events) => (.error text, events)
  | (.ok p, events) => (a.check p, events ++ [.check])

end Analyzer

namespace Studio
variable {σ : Type}

def ofSession (session : Session σ) : Studio σ := ⟨session, [], [], .blank⟩

def perform (analyzer : Option (Analyzer σ)) (s : Studio σ) :
    Effect σ → Studio σ × Option (Action σ) × List (Event σ)
  | .parseWorkspace files =>
    match analyzer with
    | none => (s, some (.parseFinished (.error noAnalyzerText)), [])
    | some a =>
      let (result, events) := a.checkAll files
      (s, some (.parseFinished result), events)
  | .generateFlow system =>
    match analyzer with
    | none => (s, some (.flowFailed noAnalyzerText), [])
    | some a =>
      match a.draw system with
      | .ok design => (s, some (.flowGenerated design), [.draw system])
      | .error text => (s, some (.flowFailed text), [.draw system])
  | .postSystem message => ({ s with channel := s.channel.post message }, none, [.post message])
  | .loadWorkspace request id =>
    let job := Job.load request id
    ({ s with outstanding := s.outstanding ++ [job] }, none, [.request job])
  | .createWorkspace request files =>
    let job := Job.create request files
    ({ s with outstanding := s.outstanding ++ [job] }, none, [.request job])

def performAll (analyzer : Option (Analyzer σ)) :
    Studio σ → List (Effect σ) → Studio σ × List (Action σ) × List (Event σ)
  | s, [] => (s, [], [])
  | s, e :: es =>
    let (s, next, events) := s.perform analyzer e
    let (s, actions, more) := performAll analyzer s es
    (s, next.toList ++ actions, events ++ more)

def run (analyzer : Option (Analyzer σ)) (now : Nat) :
    Nat → Studio σ → List (Action σ) → Turn σ × List (Action σ)
  | 0, s, queue => (⟨s, false, []⟩, queue)
  | _, s, [] => (⟨s, false, []⟩, [])
  | fuel + 1, s, a :: queue =>
    let outcome := s.session.dispatch now a
    let s := { s with session := outcome.session }
    let (s, actions, events) := performAll analyzer s outcome.effects
    let (turn, left) := run analyzer now fuel s (queue ++ actions)
    (⟨turn.studio, outcome.changed || turn.changed, events ++ turn.events⟩, left)

/-- Applies an action with all that follows from it: a parse, its result, and the flow at most. -/
def dispatch (analyzer : Option (Analyzer σ)) (now : Nat) (s : Studio σ) (a : Action σ) : Turn σ :=
  (run analyzer now 3 s [a]).1

def deliver (backend : Backend) (place : Nat) (s : Studio σ) : Studio σ :=
  match s.outstanding[place]? with
  | none => s
  | some job =>
    { s with
      outstanding := s.outstanding.eraseIdx place
      inbox := s.inbox ++ [job.completion backend] }

def Turn.andThen (t : Turn σ) (next : Studio σ → Turn σ) : Turn σ :=
  let u := next t.studio
  ⟨u.studio, t.changed || u.changed, t.events ++ u.events⟩

def dispatchAll (analyzer : Option (Analyzer σ)) (now : Nat) : List (Action σ) → Studio σ → Turn σ
  | [], s => ⟨s, false, []⟩
  | a :: actions, s => Turn.andThen (s.dispatch analyzer now a) (dispatchAll analyzer now actions)

def poll (analyzer : Option (Analyzer σ)) (now : Nat) (s : Studio σ) : Turn σ :=
  dispatchAll analyzer now s.inbox { s with inbox := [] }

structure Arrival where
  place : Nat
  backend : Backend

/-- Waits until no request is pending, or for as long as answers arrive. -/
def wait (analyzer : Option (Analyzer σ)) (now : Nat) : List Arrival → Studio σ → Turn σ
  | [], s => s.poll analyzer now
  | a :: arrivals, s =>
    Turn.andThen (s.poll analyzer now) fun s =>
      if s.session.hasPending then wait analyzer now arrivals (s.deliver a.backend a.place)
      else ⟨s, false, []⟩

def dispatchAndWait (analyzer : Option (Analyzer σ)) (now : Nat)
    (arrivals : Studio σ → List Arrival) (s : Studio σ) (a : Action σ) : Turn σ :=
  Turn.andThen (s.dispatch analyzer now a) fun s => wait analyzer now (arrivals s) s

end Studio
end FlowStudio
