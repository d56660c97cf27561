/-! Requests on their way to the workspace server, of which only the latest of each kind counts, and
why they fail. -/

namespace FlowStudio

inductive WorkspaceError where
  | notFound
  | http (status : Nat)
  | transport (text : String)
  | decode (text : String)
  deriving DecidableEq, Repr

namespace WorkspaceError

def notFoundText : String := "The specified workspace is not found."

def message : WorkspaceError → String
  | .notFound => notFoundText
  | .http status => "server responded with status " ++ toString status
  | .transport text => "request failed: " ++ text
  | .decode text => "invalid response: " ++ text

end WorkspaceError

inductive RequestKind where
  | load
  | create
  deriving DecidableEq, Repr

/-- The number of the pending request of each kind and that of the next one, and the identifier of
the workspace that is open. -/
structure Requests where
  workspace : Option String
  next : UInt64
  load : Option UInt64
  create : Option UInt64
  deriving DecidableEq, Repr

namespace Requests

def none : Requests := ⟨.none, 0, .none, .none⟩

def pending? (r : Requests) : RequestKind → Option UInt64
  | .load => r.load
  | .create => r.create

def isPending (r : Requests) (kind : RequestKind) : Bool := (r.pending? kind).isSome

def setPending (r : Requests) (kind : RequestKind) (request : Option UInt64) : Requests :=
  match kind with
  | .load => { r with load := request }
  | .create => { r with create := request }

theorem pending?_setPending (r : Requests) (kind other : RequestKind) (request : Option UInt64) :
    (r.setPending kind request).pending? other =
      if other = kind then request else r.pending? other := by
  cases kind <;> cases other <;> rfl

def begin (r : Requests) (kind : RequestKind) : Requests × UInt64 :=
  ({ r with next := r.next + 1 }.setPending kind (some r.next), r.next)

def finish? (r : Requests) (kind : RequestKind) (request : UInt64) : Option Requests :=
  if r.pending? kind = some request then some (r.setPending kind .none) else .none

def withWorkspace (r : Requests) (workspace : String) : Requests :=
  { r with workspace := some workspace }

end Requests
end FlowStudio
