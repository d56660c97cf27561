import FlowStudio.Proofs.Session.Endings

/-! What an action asks for. At most one effect leads to another action, and what the tool is to
show changes together with a message to it, unless there is nothing left to show. -/

namespace FlowStudio
variable {σ : Type}

def Action.followers : Action σ → Nat
  | .saveFile .. => 2
  | .parse => 2
  | .parseFinished _ => 1
  | _ => 0

def Session.ShowsNoMore (s u : Session σ) : Prop :=
  u.toolMessage? = s.toolMessage? ∨ u.toolMessage? = none

/-- What an action in a session may come to. -/
inductive Outcome.Asks (s : Session σ) (a : Action σ) (o : Outcome σ) : Prop
  | nothing : o.effects = [] → s.ShowsNoMore o.session → Asks s a o
  | check (files : List Leaf) : o.effects = [.parseWorkspace files] → a.followers = 2 →
    s.ShowsNoMore o.session → Asks s a o
  | draw (system : σ) : o.effects = .generateFlow system :: o.session.postEffects →
    a.followers = 1 → Asks s a o
  | post : o.effects = o.session.postEffects → Asks s a o
  | load (request : UInt64) (id : String) : o.effects = [.loadWorkspace request id] →
    s.ShowsNoMore o.session → Asks s a o
  | create (request : UInt64) (files : List Leaf) : o.effects = [.createWorkspace request files] →
    s.ShowsNoMore o.session → Asks s a o

namespace Session
variable {s : Session σ} {now : Nat} {a : Action σ} {o : Outcome σ}

theorem ShowsNoMore.refl (s : Session σ) : s.ShowsNoMore s := .inl rfl

theorem toolMessage?_adoptWorkspace (s : Session σ) (id : String) (files : List Leaf) (now : Nat) :
    (s.adoptWorkspace id files now).toolMessage? = none := by
  have hsystem : (s.adoptWorkspace id files now).system = none := rfl
  unfold toolMessage?
  rw [hsystem]
  cases (s.adoptWorkspace id files now).toolbox.selected? <;> rfl

theorem Yields.asks (h : s.Yields now a o) : o.Asks s a := by
  cases h with
  | saveFile => exact .check _ rfl rfl (.inl rfl)
  | parse => exact .check _ rfl rfl (.refl s)
  | parsed system => exact .draw system rfl rfl
  | openWorkspace => exact .load _ _ rfl (.inl rfl)
  | createWorkspace => exact .create _ _ rfl (.inl rfl)
  | loaded id files => exact .nothing rfl (.inr (toolMessage?_adoptWorkspace _ id files now))
  | selectTool | reloadTool => exact .post rfl
  | _ => exact .nothing rfl (.inl rfl)

theorem dispatch_asks (s : Session σ) (now : Nat) (a : Action σ) : (s.dispatch now a).Asks s a :=
  (s.yields_dispatch now a).asks

end Session
end FlowStudio
