import FlowStudio.Session.Dispatch

/-! Sessions that take in one action after the other, and the requests that come and go in them. -/

namespace FlowStudio
variable {σ : Type}

structure Arrival (σ : Type) where
  now : Nat
  action : Action σ

structure Step (σ : Type) where
  arrival : Arrival σ
  outcome : Outcome σ

/-- The request that an action ends, if it is the answer to one. -/
def Action.completion? : Action σ → Option (RequestKind × UInt64)
  | .workspaceLoaded request .. => some (.load, request)
  | .workspaceLoadFailed request _ => some (.load, request)
  | .workspaceCreated request _ => some (.create, request)
  | .workspaceCreateFailed request _ => some (.create, request)
  | _ => none

def Effect.begun? : Effect σ → Option (RequestKind × UInt64)
  | .loadWorkspace request _ => some (.load, request)
  | .createWorkspace request _ => some (.create, request)
  | _ => none

def Outcome.begun (o : Outcome σ) : List (RequestKind × UInt64) := o.effects.filterMap Effect.begun?

namespace Requests

theorem pending?_begin (r : Requests) (kind other : RequestKind) :
    (r.begin kind).1.pending? other = if other = kind then some r.next else r.pending? other :=
  pending?_setPending { r with next := r.next + 1 } kind other (some r.next)

theorem next_begin (r : Requests) (kind : RequestKind) : (r.begin kind).1.next = r.next + 1 := by
  cases kind <;> rfl

theorem next_setPending (r : Requests) (kind : RequestKind) (request : Option UInt64) :
    (r.setPending kind request).next = r.next := by
  cases kind <;> rfl

theorem pending?_withWorkspace (r : Requests) (workspace : String) (kind : RequestKind) :
    (r.withWorkspace workspace).pending? kind = r.pending? kind := by
  cases kind <;> rfl

end Requests

namespace Session

def run (s : Session σ) : List (Arrival σ) → List (Step σ)
  | [] => []
  | e :: es =>
    let o := s.dispatch e.now e.action
    ⟨e, o⟩ :: o.session.run es

def runSession (s : Session σ) : List (Arrival σ) → Session σ
  | [] => s
  | e :: es => (s.dispatch e.now e.action).session.runSession es

def runEffects (s : Session σ) (es : List (Arrival σ)) : List (Effect σ) :=
  (s.run es).flatMap fun step => step.outcome.effects

theorem run_append (s : Session σ) (es fs : List (Arrival σ)) :
    s.run (es ++ fs) = s.run es ++ (s.runSession es).run fs := by
  induction es generalizing s with
  | nil => rfl
  | cons e es ih => simp only [List.cons_append, run, runSession, ih]

theorem runSession_append (s : Session σ) (es fs : List (Arrival σ)) :
    s.runSession (es ++ fs) = (s.runSession es).runSession fs := by
  induction es generalizing s with
  | nil => rfl
  | cons e es ih => exact ih _

theorem runEffects_cons (s : Session σ) (e : Arrival σ) (es : List (Arrival σ)) :
    s.runEffects (e :: es) = (s.dispatch e.now e.action).effects ++
      (s.dispatch e.now e.action).session.runEffects es := by
  simp only [runEffects, run, List.flatMap_cons]

end Session
end FlowStudio
