import FlowStudio.Proofs.Session.Effects
import FlowStudio.Proofs.Session.Requests
import FlowStudio.Studio.Basic

/-! What running effects does to a studio. Requests wait for their answers and messages go to the
channel, the answers that have come are left alone, and few actions follow. -/

namespace FlowStudio
variable {σ : Type} {analyzer : Option (Analyzer σ)}

def Job.key : Job → RequestKind × UInt64
  | .load request _ => (.load, request)
  | .create request _ => (.create, request)

def Effect.job? : Effect σ → Option Job
  | .loadWorkspace request id => some (.load request id)
  | .createWorkspace request files => some (.create request files)
  | _ => none

def Effect.message? : Effect σ → Option (ToolMessage σ)
  | .postSystem message => some message
  | _ => none

def Event.job? : Event σ → Option Job
  | .request job => some job
  | _ => none

def Event.message? : Event σ → Option (ToolMessage σ)
  | .post message => some message
  | _ => none

def spawned (events : List (Event σ)) : List Job := events.filterMap Event.job?

def posted (events : List (Event σ)) : List (ToolMessage σ) := events.filterMap Event.message?

def Effect.follow? (analyzer : Option (Analyzer σ)) : Effect σ → Option (Action σ)
  | .parseWorkspace files =>
    match analyzer with
    | none => some (.parseFinished (.error noAnalyzerText))
    | some a => some (.parseFinished (a.checkAll files).1)
  | .generateFlow system =>
    match analyzer with
    | none => some (.flowFailed noAnalyzerText)
    | some a =>
      match a.draw system with
      | .ok design => some (.flowGenerated design)
      | .error text => some (.flowFailed text)
  | _ => none

theorem Effect.begun?_eq (e : Effect σ) : e.begun? = e.job?.map Job.key := by cases e <;> rfl

theorem Outcome.begun_eq (o : Outcome σ) :
    o.begun = (o.effects.filterMap Effect.job?).map Job.key := by
  rw [begun, List.map_filterMap]
  exact congrArg (List.filterMap · o.effects) (funext Effect.begun?_eq)

theorem Job.completion?_completion (backend : Backend) (job : Job) :
    (job.completion backend : Action σ).completion? = some job.key := by
  cases job with
  | load request id =>
    rw [completion]
    split <;> rfl
  | create request files =>
    rw [completion]
    split <;> rfl

theorem spawned_append (es fs : List (Event σ)) : spawned (es ++ fs) = spawned es ++ spawned fs :=
  List.filterMap_append

theorem posted_append (es fs : List (Event σ)) : posted (es ++ fs) = posted es ++ posted fs :=
  List.filterMap_append

theorem Analyzer.filterMap_parseAll {β : Type} {f : Event σ → Option β}
    (hparse : ∀ name, f (.parse name) = none) (a : Analyzer σ) (p : a.Parser)
    (leaves : List Leaf) : (a.parseAll p leaves).2.filterMap f = [] := by
  induction leaves generalizing p with
  | nil => rfl
  | cons leaf leaves ih =>
    rw [parseAll]
    split
    · rw [List.filterMap_cons_none (hparse leaf.name), List.filterMap_nil]
    · next q _ => exact (List.filterMap_cons_none (hparse leaf.name)).trans (ih q)

theorem Analyzer.filterMap_checkAll {β : Type} {f : Event σ → Option β}
    (hparse : ∀ name, f (.parse name) = none) (hcheck : f .check = none) (a : Analyzer σ)
    (files : List Leaf) : (a.checkAll files).2.filterMap f = [] := by
  have hread := a.filterMap_parseAll hparse a.fresh files
  rw [checkAll]
  split
  · next text events heq =>
    rw [heq] at hread
    exact hread
  · next p events heq =>
    rw [heq] at hread
    rw [List.filterMap_append, hread, List.filterMap_cons_none hcheck]
    rfl

namespace Studio
variable {s t u : Studio σ} {es fs : List (Event σ)}

/-- What was done to a studio shows in its events, but for the session. -/
structure Extends (s : Studio σ) (es : List (Event σ)) (t : Studio σ) : Prop where
  inbox_eq : t.inbox = s.inbox
  outstanding_eq : t.outstanding = s.outstanding ++ spawned es
  channel_eq : t.channel = (posted es).foldl Broadcast.post s.channel

theorem Extends.refl (s : Studio σ) : s.Extends [] s :=
  ⟨rfl, (List.append_nil s.outstanding).symm, rfl⟩

theorem Extends.trans (hs : s.Extends es t) (ht : t.Extends fs u) : s.Extends (es ++ fs) u := by
  refine ⟨ht.inbox_eq.trans hs.inbox_eq, ?_, ?_⟩
  · rw [ht.outstanding_eq, hs.outstanding_eq, spawned_append, List.append_assoc]
  · rw [ht.channel_eq, hs.channel_eq, posted_append, List.foldl_append]

structure Performs (analyzer : Option (Analyzer σ)) (s : Studio σ) (effects : List (Effect σ))
    (t : Studio σ) (actions : List (Action σ)) (events : List (Event σ)) : Prop where
  session_eq : t.session = s.session
  grows : s.Extends events t
  spawned_eq : spawned events = effects.filterMap Effect.job?
  posted_eq : posted events = effects.filterMap Effect.message?
  actions_eq : actions = effects.filterMap (Effect.follow? analyzer)

theorem performs_quiet {e : Effect σ} {next : Option (Action σ)} (hjob : e.job? = none)
    (hmessage : e.message? = none) (hnext : e.follow? analyzer = next)
    (h : spawned es = [] ∧ posted es = []) : Performs analyzer s [e] s next.toList es := by
  obtain ⟨hspawned, hposted⟩ := h
  refine ⟨rfl, ⟨rfl, ?_, ?_⟩, ?_, ?_, ?_⟩
  · rw [hspawned, List.append_nil]
  · rw [hposted, List.foldl_nil]
  · rw [hspawned, List.filterMap_cons_none hjob, List.filterMap_nil]
  · rw [hposted, List.filterMap_cons_none hmessage, List.filterMap_nil]
  · cases next with
    | none => rw [List.filterMap_cons_none hnext, List.filterMap_nil, Option.toList_none]
    | some b => rw [List.filterMap_cons_some hnext, List.filterMap_nil, Option.toList_some]

theorem performs_perform (analyzer : Option (Analyzer σ)) (s : Studio σ) (e : Effect σ) :
    Performs analyzer s [e] (s.perform analyzer e).1 (s.perform analyzer e).2.1.toList
      (s.perform analyzer e).2.2 := by
  cases e with
  | parseWorkspace files =>
    cases analyzer with
    | none => exact performs_quiet rfl rfl rfl ⟨rfl, rfl⟩
    | some a =>
      exact performs_quiet rfl rfl rfl
        ⟨a.filterMap_checkAll (fun _ => rfl) rfl files, a.filterMap_checkAll (fun _ => rfl) rfl files⟩
  | generateFlow system =>
    cases analyzer with
    | none => exact performs_quiet rfl rfl rfl ⟨rfl, rfl⟩
    | some a =>
      rw [perform]
      split
      · next design hdraw =>
        have hnext : (Effect.generateFlow system).follow? (some a) =
            some (.flowGenerated design) := by rw [Effect.follow?, hdraw]
        exact performs_quiet rfl rfl hnext ⟨rfl, rfl⟩
      · next text hdraw =>
        have hnext : (Effect.generateFlow system).follow? (some a) =
            some (.flowFailed text) := by rw [Effect.follow?, hdraw]
        exact performs_quiet rfl rfl hnext ⟨rfl, rfl⟩
  | postSystem message =>
    exact ⟨rfl, ⟨rfl, (List.append_nil s.outstanding).symm, rfl⟩, rfl, rfl, rfl⟩
  | loadWorkspace request id => exact ⟨rfl, ⟨rfl, rfl, rfl⟩, rfl, rfl, rfl⟩
  | createWorkspace request files => exact ⟨rfl, ⟨rfl, rfl, rfl⟩, rfl, rfl, rfl⟩

theorem performs_performAll (analyzer : Option (Analyzer σ)) (s : Studio σ)
    (effects : List (Effect σ)) :
    Performs analyzer s effects (s.performAll analyzer effects).1
      (s.performAll analyzer effects).2.1 (s.performAll analyzer effects).2.2 := by
  induction effects generalizing s with
  | nil => exact ⟨rfl, .refl s, rfl, rfl, rfl⟩
  | cons e effects ih =>
    have hfirst := performs_perform analyzer s e
    have hrest := ih (s.perform analyzer e).1
    have hcons {β : Type} (f : Effect σ → Option β) :
        (e :: effects).filterMap f = [e].filterMap f ++ effects.filterMap f := by
      rw [← List.filterMap_append, List.singleton_append]
    show Performs analyzer s (e :: effects) ((s.perform analyzer e).1.performAll analyzer effects).1
      ((s.perform analyzer e).2.1.toList ++
        ((s.perform analyzer e).1.performAll analyzer effects).2.1)
      ((s.perform analyzer e).2.2 ++ ((s.perform analyzer e).1.performAll analyzer effects).2.2)
    refine ⟨hrest.session_eq.trans hfirst.session_eq, hfirst.grows.trans hrest.grows, ?_, ?_, ?_⟩
    · rw [spawned_append, hfirst.spawned_eq, hrest.spawned_eq, hcons]
    · rw [posted_append, hfirst.posted_eq, hrest.posted_eq, hcons]
    · rw [hfirst.actions_eq, hrest.actions_eq, hcons]

def advance (analyzer : Option (Analyzer σ)) (now : Nat) (s : Studio σ) (a : Action σ) :
    Studio σ × List (Action σ) × List (Event σ) :=
  let outcome := s.session.dispatch now a
  performAll analyzer { s with session := outcome.session } outcome.effects

theorem performs_advance (analyzer : Option (Analyzer σ)) (now : Nat) (s : Studio σ)
    (a : Action σ) :
    Performs analyzer { s with session := (s.session.dispatch now a).session }
      (s.session.dispatch now a).effects (s.advance analyzer now a).1
      (s.advance analyzer now a).2.1 (s.advance analyzer now a).2.2 :=
  performs_performAll analyzer _ _

theorem session_advance (analyzer : Option (Analyzer σ)) (now : Nat) (s : Studio σ) (a : Action σ) :
    (s.advance analyzer now a).1.session = (s.session.dispatch now a).session :=
  (performs_advance analyzer now s a).session_eq

theorem extends_advance (analyzer : Option (Analyzer σ)) (now : Nat) (s : Studio σ) (a : Action σ) :
    s.Extends (s.advance analyzer now a).2.2 (s.advance analyzer now a).1 := by
  obtain ⟨hinbox, houtstanding, hchannel⟩ := (performs_advance analyzer now s a).grows
  exact ⟨hinbox, houtstanding, hchannel⟩

end Studio
end FlowStudio
