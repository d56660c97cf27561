import FlowStudio.Proofs.Session.Endings

/-! What an action does to what a session holds of the analysis. The system and the flow are told by
different actions, a failure takes neither of them away, and a loaded workspace takes both. -/

namespace FlowStudio
variable {σ : Type}

structure Analysis (σ : Type) where
  system : Option σ
  flow : Option (Design Float)
  layout : LayoutConfig Float

namespace Analysis

def void (d : Analysis σ) : Analysis σ := { d with system := none, flow := none }

def take (d : Analysis σ) : Action σ → Analysis σ
  | .parseFinished (.ok system) => { d with system := some system }
  | .flowGenerated design => { d with flow := some (Layout.arrangeRanked d.layout design) }
  | _ => d

end Analysis

theorem Analysis.take_of_completion? {a : Action σ} {answer : RequestKind × UInt64}
    (h : a.completion? = some answer) (d : Analysis σ) : d.take a = d := by
  cases a with
  | parseFinished | flowGenerated => exact absurd h (Option.some_ne_none _).symm
  | _ => rfl

namespace Session
variable {s : Session σ} {now : Nat} {a : Action σ} {o : Outcome σ}

def analysis (s : Session σ) : Analysis σ := ⟨s.system, s.flow, s.layout⟩

theorem Rejects.take_eq {text : String} (h : s.Rejects a text) (d : Analysis σ) : d.take a = d := by
  cases h <;> rfl

theorem Ignores.take_eq (h : s.Ignores a) (d : Analysis σ) : d.take a = d := by
  cases h with
  | answer ha => exact Analysis.take_of_completion? ha d
  | _ => rfl

theorem Yields.analysis (h : s.Yields now a o) : o.session.analysis = s.analysis.take a ∨
    (∃ request id files, a = .workspaceLoaded request id files) ∧
      o.session.analysis = s.analysis.void := by
  cases h with
  | rejected h => exact .inl (h.take_eq s.analysis).symm
  | ignored h => exact .inl (h.take_eq s.analysis).symm
  | loaded id files => exact .inr ⟨⟨_, id, files, rfl⟩, rfl⟩
  | _ => exact .inl rfl

theorem analysis_dispatch (s : Session σ) (now : Nat) (a : Action σ) :
    (s.dispatch now a).session.analysis = s.analysis.take a ∨
      (∃ request id files, a = .workspaceLoaded request id files) ∧
        (s.dispatch now a).session.analysis = s.analysis.void :=
  (s.yields_dispatch now a).analysis

theorem analysis_dispatch_of_no_completion {a : Action σ} (h : a.completion? = none)
    (s : Session σ) (now : Nat) : (s.dispatch now a).session.analysis = s.analysis.take a := by
  refine (s.analysis_dispatch now a).resolve_right ?_
  rintro ⟨⟨request, id, files, rfl⟩, -⟩
  exact Option.some_ne_none _ h

end Session
end FlowStudio
