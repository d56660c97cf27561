import FlowStudio.FileTree.Basic
import FlowStudio.Json.Decoding
import FlowStudio.Session.Requests
import FlowStudio.Text.Basic
import FlowStudio.Text.Utf8
import FlowStudio.Workspace.Address

/-! The conversation with a workspace server: which requests are sent, one after the other, and what
follows from the replies. How an address is read, how a request travels and what is said of one that
does not arrive is up to the library that carries it. So a request names its address as it was given,
and a reply brings the words of the library. -/

namespace FlowStudio.Workspace

structure Part where
  name : String
  fileName : String
  body : String
  deriving DecidableEq, Repr

inductive Request where
  | get (address : String)
  | post (address : String) (parts : List Part)
  deriving DecidableEq, Repr

/-- A response as the library delivers it. It has no body if that did not come to its end, and
`complaint` is what the library says if the body cannot be had in the form that is asked for. -/
structure Response where
  status : Nat
  body : Option (List UInt8)
  complaint : String
  deriving DecidableEq, Repr, Inhabited

/-- What comes of a request: `failed` has the words of the library, and `late` is a reply that nobody
waits for any more. -/
inductive Reply where
  | response (response : Response)
  | failed (error : String)
  | late
  deriving DecidableEq, Repr, Inhabited

/-- A server, with all that lies on the way to it, replies in view of the requests so far, the latest
first. -/
abbrev Server := List Request → Reply

inductive Exchange (α : Type) where
  | done (result : α)
  | ask (request : Request) (next : Reply → Exchange α)

namespace Exchange
variable {α : Type}

structure End (α : Type) where
  result : α
  /-- The requests that were sent, the latest first. -/
  sent : List Request

def run (server : Server) : Exchange α → List Request → End α
  | done a, sent => ⟨a, sent⟩
  | ask request next, sent => (next (server (request :: sent))).run server (request :: sent)

end Exchange

abbrev Answer (α : Type) := Option (Except WorkspaceError α)

def fail {α : Type} (e : WorkspaceError) : Exchange (Answer α) := .done (some (.error e))

def succeed {α : Type} (a : α) : Exchange (Answer α) := .done (some (.ok a))

def afterReply {α : Type} (next : Response → Exchange (Answer α)) : Reply → Exchange (Answer α)
  | .response r => next r
  | .failed error => fail (.transport error)
  | .late => .done none

def askFor {α : Type} (request : Request) (next : Response → Exchange (Answer α)) :
    Exchange (Answer α) :=
  .ask request (afterReply next)

theorem run_askFor {α : Type} (request : Request) (next : Response → Exchange (Answer α))
    (server : Server) (sent : List Request) :
    (askFor request next).run server sent =
      (afterReply next (server (request :: sent))).run server (request :: sent) := rfl

def keys? (body : List UInt8) : Option (List String) := do
  let text ← Text.ofUtf8? body
  ((Json.Document.ofString text).decode (Json.decodeList Json.decodeString)).toOption

namespace Response

def check (r : Response) : Except WorkspaceError Unit :=
  if r.status = 404 then .error .notFound
  else if 200 ≤ r.status ∧ r.status < 300 then .ok ()
  else .error (.http r.status)

def text (r : Response) : Except WorkspaceError String := do
  r.check
  match r.body with
  | none => .error (.decode r.complaint)
  | some body => .ok (Text.ofUtf8Lenient body)

def keys (r : Response) : Except WorkspaceError (List String) := do
  r.check
  match r.body.bind keys? with
  | none => .error (.decode r.complaint)
  | some keys => .ok keys

end Response

/-- Fetches files in listing order. A key that is no path is passed over, and so is one that the
server no longer has. -/
def fetch (base id : String) (found : List Leaf) : List String → Exchange (Answer (List Leaf))
  | [] => succeed found.reverse
  | key :: keys =>
    match keyPath id key with
    | .error _ => fetch base id found keys
    | .ok name =>
      askFor (.get (url base key)) fun r =>
        if r.status = 404 then fetch base id found keys
        else match r.text with
          | .error e => fail e
          | .ok body => fetch base id (⟨name, body⟩ :: found) keys

def fetchListed (base id : String) (listing : Response) : Exchange (Answer (List Leaf)) :=
  match listing.keys with
  | .error e => fail e
  | .ok [] => fail .notFound
  | .ok keys => fetch base id [] keys

def load (base id : String) : Exchange (Answer (List Leaf)) :=
  askFor (.get (url base id)) (fetchListed base id)

def partOf (leaf : Leaf) : Part := ⟨partName leaf.name, partName leaf.name, leaf.body⟩

def create (base : String) (files : List Leaf) : Exchange (Answer String) :=
  askFor (.post (url base "") (files.map partOf)) fun r =>
    match r.text with
    | .error e => fail e
    | .ok text =>
      let id := FlowStudio.Text.trim text
      if id.isEmpty then fail (.decode "empty workspace id") else succeed id

end FlowStudio.Workspace
