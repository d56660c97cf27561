import FlowStudio.Proofs.Session.Endings

/-! What an action does to the requests on their way: it begins one, it ends the one that is waited
for, or it leaves them alone. -/

namespace FlowStudio
variable {σ : Type}

def Outcome.Quiet (o : Outcome σ) (r : Requests) : Prop := o.begun = [] ∧ o.session.requests = r

def Outcome.Begins (o : Outcome σ) (r : Requests) (kind : RequestKind) : Prop :=
  o.begun = [(kind, r.next)] ∧ o.session.requests = (r.begin kind).1

/-- An outcome that ends the pending request of a kind. -/
structure Outcome.Ends (o : Outcome σ) (r : Requests) (kind : RequestKind) : Prop where
  changed_eq : o.changed = true
  effects_eq : o.effects = []
  next_eq : o.session.requests.next = r.next
  pending?_eq : ∀ other,
    o.session.requests.pending? other = if other = kind then none else r.pending? other

namespace Session
variable {s : Session σ}

section
variable {request : UInt64} (h : s.requests.pending? .load = some request)
include h

theorem session_dispatch_loaded (id : String) (files : List Leaf) (now : Nat) :
    (s.dispatch now (.workspaceLoaded request id files)).session =
      { s with requests := s.requests.setPending .load none }.adoptWorkspace id files now := by
  rw [dispatch, completed_eq_of_pending h]
  rfl

theorem session_dispatch_loadFailed (error : WorkspaceError) (now : Nat) :
    (s.dispatch now (.workspaceLoadFailed request error)).session =
      { s with requests := s.requests.setPending .load none }.notify .error (loadFailure error)
        now := by
  rw [dispatch, completed_eq_of_pending h]
  rfl

end

theorem completed_of_pending {kind : RequestKind} {request : UInt64}
    (h : s.requests.pending? kind = some request) (next : Session σ → Session σ)
    (hnext : ∀ s : Session σ, (next s).requests.next = s.requests.next ∧
      ∀ other, (next s).requests.pending? other = s.requests.pending? other) :
    (s.completed kind request next).Ends s.requests kind := by
  rw [completed_eq_of_pending h]
  refine ⟨rfl, rfl, ?_, fun other => ?_⟩
  · exact (hnext _).1.trans (Requests.next_setPending s.requests kind none)
  · exact ((hnext _).2 other).trans (Requests.pending?_setPending s.requests kind other none)

theorem exists_completed {a : Action σ} {kind : RequestKind} {request : UInt64}
    (ha : a.completion? = some (kind, request)) (s : Session σ) (now : Nat) :
    ∃ next : Session σ → Session σ, s.dispatch now a = s.completed kind request next ∧
      ∀ u : Session σ, (next u).requests.next = u.requests.next ∧
        ∀ other, (next u).requests.pending? other = u.requests.pending? other := by
  cases a with
  | workspaceLoaded id name files =>
    obtain ⟨rfl, rfl⟩ := Prod.mk.inj (Option.some.inj ha)
    exact ⟨fun u => u.adoptWorkspace name files now, rfl, fun u =>
      ⟨rfl, Requests.pending?_withWorkspace u.requests name⟩⟩
  | workspaceLoadFailed id error =>
    obtain ⟨rfl, rfl⟩ := Prod.mk.inj (Option.some.inj ha)
    exact ⟨fun u => u.notify .error (loadFailure error) now, rfl, fun _ => ⟨rfl, fun _ => rfl⟩⟩
  | workspaceCreated id name =>
    obtain ⟨rfl, rfl⟩ := Prod.mk.inj (Option.some.inj ha)
    exact ⟨fun u => { u with requests := u.requests.withWorkspace name }.notify .success
      ("Workspace created: " ++ name) now, rfl, fun u =>
      ⟨rfl, Requests.pending?_withWorkspace u.requests name⟩⟩
  | workspaceCreateFailed id error =>
    obtain ⟨rfl, rfl⟩ := Prod.mk.inj (Option.some.inj ha)
    exact ⟨fun u => u.notify .error (createFailure error) now, rfl, fun _ => ⟨rfl, fun _ => rfl⟩⟩
  | _ => simp [Action.completion?] at ha

theorem dispatch_ends {a : Action σ} {kind : RequestKind} {request : UInt64}
    (ha : a.completion? = some (kind, request)) (h : s.requests.pending? kind = some request)
    (now : Nat) : (s.dispatch now a).Ends s.requests kind := by
  obtain ⟨next, hnext, hkeeps⟩ := exists_completed ha s now
  rw [hnext]
  exact completed_of_pending h next hkeeps

theorem dispatch_dropped {a : Action σ} {kind : RequestKind} {request : UInt64}
    (ha : a.completion? = some (kind, request)) (h : s.requests.pending? kind ≠ some request)
    (now : Nat) : s.dispatch now a = s.unchanged := by
  obtain ⟨next, hnext, -⟩ := exists_completed ha s now
  rw [hnext]
  exact completed_of_not_pending h next

theorem begun_postEffects (s : Session σ) : s.postEffects.filterMap Effect.begun? = [] := by
  rw [postEffects]
  cases s.toolMessage? <;> rfl

theorem Yields.begins {now : Nat} {a : Action σ} {o : Outcome σ} (h : s.Yields now a o)
    (ha : a.completion? = none) : o.Quiet s.requests ∨ ∃ kind, o.Begins s.requests kind := by
  cases h with
  | parsed | selectTool | reloadTool => exact .inl ⟨begun_postEffects _, rfl⟩
  | openWorkspace => exact .inr ⟨.load, rfl, rfl⟩
  | createWorkspace => exact .inr ⟨.create, rfl, rfl⟩
  | loaded | loadFailed | created | createFailed => exact absurd ha (Option.some_ne_none _)
  | _ => exact .inl ⟨rfl, rfl⟩

theorem dispatch_begins {a : Action σ} (ha : a.completion? = none) (now : Nat) :
    (s.dispatch now a).Quiet s.requests ∨ ∃ kind, (s.dispatch now a).Begins s.requests kind :=
  (s.yields_dispatch now a).begins ha

end Session
end FlowStudio
