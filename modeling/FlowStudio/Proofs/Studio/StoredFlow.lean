import FlowStudio.Proofs.Session.Analysis
import FlowStudio.Proofs.Studio.HostedTool

/-! Where the stored flow comes from. A system is drawn in the turn in which it is stored. When that
fails the flow before it stays, so the stored flow is that of the last drawing that did not fail. -/

namespace FlowStudio
variable {σ : Type}

structure Drawing (σ : Type) where
  system : σ
  result : Except String (Design Float)

def Analyzer.drawing (a : Analyzer σ) (system : σ) : Drawing σ := ⟨system, a.draw system⟩

def Drawing.design? (x : Drawing σ) : Option (Design Float) := x.result.toOption

def Drawing.action (x : Drawing σ) : Action σ :=
  match x.result with
  | .ok design => .flowGenerated design
  | .error text => .flowFailed text

def Event.drawing? (analyzer : Option (Analyzer σ)) : Event σ → Option (Drawing σ)
  | .draw system => analyzer.map (·.drawing system)
  | _ => none

def Effect.drawing? (analyzer : Option (Analyzer σ)) : Effect σ → Option (Drawing σ)
  | .generateFlow system => analyzer.map (·.drawing system)
  | _ => none

def drawings (analyzer : Option (Analyzer σ)) (events : List (Event σ)) : List (Drawing σ) :=
  events.filterMap (Event.drawing? analyzer)

def latestDesign? (past : List (Drawing σ)) : Option (Design Float) :=
  (past.filterMap Drawing.design?).getLast?

theorem latestDesign?_concat (past : List (Drawing σ)) (x : Drawing σ) :
    latestDesign? (past ++ [x]) = x.design?.or (latestDesign? past) := by
  rw [latestDesign?, latestDesign?, List.filterMap_append, List.getLast?_append]
  cases h : x.design? with
  | none =>
    rw [List.filterMap_cons_none h]
    rfl
  | some design =>
    rw [List.filterMap_cons_some h]
    rfl

theorem drawings_append (analyzer : Option (Analyzer σ)) (es fs : List (Event σ)) :
    drawings analyzer (es ++ fs) = drawings analyzer es ++ drawings analyzer fs :=
  List.filterMap_append

theorem Effect.follow?_generateFlow (a : Analyzer σ) (system : σ) :
    (Effect.generateFlow system).follow? (some a) = some (a.drawing system).action := by
  rw [follow?, Drawing.action, Analyzer.drawing]
  cases a.draw system <;> rfl

theorem Drawing.action_isFlow (x : Drawing σ) : x.action.IsFlow := by
  rw [action]
  split
  · exact .inl ⟨_, rfl⟩
  · exact .inr ⟨_, rfl⟩

def Action.isAnalysis : Action σ → Bool
  | .parseFinished _ | .flowGenerated _ | .flowFailed _ => true
  | _ => false

def Move.isAnalysis : Move σ → Bool
  | .act _ a => a.isAnalysis
  | _ => false

theorem Action.isAnalysis_of_completion? {a : Action σ} {key : RequestKind × UInt64}
    (h : a.completion? = some key) : a.isAnalysis = false := by
  cases a with
  | parseFinished _ | flowGenerated _ | flowFailed _ => exact absurd h (Option.some_ne_none key).symm
  | _ => rfl

theorem Action.followers_ne_one {a : Action σ} (h : a.isAnalysis = false) : a.followers ≠ 1 := by
  cases a with
  | parseFinished _ => exact absurd h Bool.false_ne_true.symm
  | saveFile _ _ | parse => exact Nat.succ_succ_ne_one 0
  | _ => exact Nat.zero_ne_one

namespace Analysis

theorem take_of_not_isAnalysis {a : Action σ} (h : a.isAnalysis = false) (d : Analysis σ) :
    d.take a = d := by
  cases a with
  | parseFinished _ | flowGenerated _ | flowFailed _ => exact absurd h Bool.false_ne_true.symm
  | _ => rfl

def draw (d : Analysis σ) (x : Drawing σ) : Analysis σ :=
  (d.take (.parseFinished (.ok x.system))).take x.action

theorem draw_eq (d : Analysis σ) (x : Drawing σ) : d.draw x =
    ⟨some x.system, (x.design?.map (Layout.arrangeRanked d.layout)).or d.flow, d.layout⟩ := by
  rw [draw, Drawing.action, Drawing.design?]
  cases x.result <;> rfl

end Analysis

structure Stored (layout : LayoutConfig Float) (past : List (Drawing σ)) (d : Analysis σ) :
    Prop where
  layout_eq : d.layout = layout
  system_eq : ∀ system, d.system = some system → past.getLast?.map Drawing.system = some system
  flow_eq : ∀ flow, d.flow = some flow →
    d.system.isSome = true ∧ (latestDesign? past).map (Layout.arrangeRanked layout) = some flow

namespace Stored
variable {layout : LayoutConfig Float} {past : List (Drawing σ)} {d : Analysis σ}

theorem void (h : Stored layout past d) : Stored layout past d.void :=
  ⟨h.layout_eq, fun _ hnone => absurd hnone (Option.some_ne_none _).symm,
    fun _ hnone => absurd hnone (Option.some_ne_none _).symm⟩

theorem draw (h : Stored layout past d) (x : Drawing σ) :
    Stored layout (past ++ [x]) (d.draw x) := by
  rw [Analysis.draw_eq]
  refine ⟨h.layout_eq, fun system hsystem => ?_, fun flow hflow => ⟨rfl, ?_⟩⟩
  · rwa [List.getLast?_concat]
  · rw [latestDesign?_concat]
    cases hx : x.design? with
    | none =>
      rw [hx] at hflow
      exact (h.flow_eq flow hflow).2
    | some design =>
      rw [hx, h.layout_eq] at hflow
      exact hflow

theorem exists_last (h : Stored layout past d) {flow : Design Float} (hflow : d.flow = some flow) :
    ∃ earlier last design, past = earlier ++ [last] ∧ d.system = some last.system ∧
      flow = Layout.arrangeRanked layout design ∧
      (last.result = .ok design ∨
        (∃ text, last.result = .error text) ∧ latestDesign? earlier = some design) := by
  obtain ⟨hstored, hlatest⟩ := h.flow_eq flow hflow
  obtain ⟨system, hsystem⟩ := Option.isSome_iff_exists.mp hstored
  obtain ⟨last, hlast, rfl⟩ := Option.map_eq_some_iff.mp (h.system_eq system hsystem)
  obtain ⟨earlier, rfl⟩ := List.getLast?_eq_some_iff.mp hlast
  obtain ⟨design, hdesign, rfl⟩ := Option.map_eq_some_iff.mp hlatest
  refine ⟨earlier, last, design, rfl, hsystem, rfl, ?_⟩
  rw [latestDesign?_concat, Drawing.design?] at hdesign
  cases hresult : last.result with
  | ok answer =>
    rw [hresult] at hdesign
    exact .inl (congrArg Except.ok (Option.some.inj hdesign))
  | error text =>
    rw [hresult] at hdesign
    exact .inr ⟨⟨text, rfl⟩, hdesign⟩

end Stored

namespace Studio
variable {analyzer : Option (Analyzer σ)} {now : Nat} {s : Studio σ} {a : Action σ}

theorem drawings_perform (analyzer : Option (Analyzer σ)) (s : Studio σ) (e : Effect σ) :
    drawings analyzer (s.perform analyzer e).2.2 = (e.drawing? analyzer).toList := by
  cases e with
  | parseWorkspace files =>
    cases analyzer with
    | none => rfl
    | some a => exact a.filterMap_checkAll (fun _ => rfl) rfl files
  | generateFlow system =>
    cases analyzer with
    | none => rfl
    | some a =>
      rw [perform]
      split <;> rfl
  | postSystem message => rfl
  | loadWorkspace request id => rfl
  | createWorkspace request files => rfl

theorem drawings_performAll (analyzer : Option (Analyzer σ)) (s : Studio σ)
    (effects : List (Effect σ)) : drawings analyzer (s.performAll analyzer effects).2.2 =
      effects.filterMap (Effect.drawing? analyzer) := by
  induction effects generalizing s with
  | nil => rfl
  | cons e effects ih =>
    have hrest := ih (s.perform analyzer e).1
    rw [performAll]
    dsimp only
    rw [drawings_append, drawings_perform, hrest]
    cases h : e.drawing? analyzer with
    | none => rw [List.filterMap_cons_none h, Option.toList_none, List.nil_append]
    | some x => rw [List.filterMap_cons_some h, Option.toList_some, List.singleton_append]

theorem drawings_advance (analyzer : Option (Analyzer σ)) (now : Nat) (s : Studio σ)
    (a : Action σ) : drawings analyzer (s.advance analyzer now a).2.2 =
      (s.session.dispatch now a).effects.filterMap (Effect.drawing? analyzer) :=
  drawings_performAll analyzer _ _

theorem drawings_postEffects (analyzer : Option (Analyzer σ)) (s : Session σ) :
    s.postEffects.filterMap (Effect.drawing? analyzer) = [] := by
  rw [Session.postEffects]
  cases s.toolMessage? <;> rfl

theorem advance_of_not_isAnalysis (ha : a.isAnalysis = false) (analyzer : Option (Analyzer σ))
    (now : Nat) (s : Studio σ) : drawings analyzer (s.advance analyzer now a).2.2 = [] ∧
      ((s.advance analyzer now a).2.1 = [] ∨ ∃ files b, (s.advance analyzer now a).2.1 = [b] ∧
        (Effect.parseWorkspace files).follow? analyzer = some b) := by
  rw [drawings_advance, (performs_advance analyzer now s a).actions_eq]
  cases s.session.dispatch_asks now a with
  | nothing heffects _ => exact ⟨by rw [heffects]; rfl, .inl (by rw [heffects]; rfl)⟩
  | check files heffects _ _ =>
    obtain ⟨result, hfollow⟩ := Effect.exists_follow?_parseWorkspace analyzer files
    refine ⟨by rw [heffects]; rfl, .inr ⟨files, .parseFinished result, ?_, hfollow⟩⟩
    rw [heffects, List.filterMap_cons_some hfollow, List.filterMap_nil]
  | draw system _ hfollowers => exact absurd hfollowers (Action.followers_ne_one ha)
  | post heffects =>
    rw [heffects]
    exact ⟨drawings_postEffects _ _, .inl (Session.follow?_postEffects _ _)⟩
  | load request id heffects _ => exact ⟨by rw [heffects]; rfl, .inl (by rw [heffects]; rfl)⟩
  | create request files heffects _ =>
    exact ⟨by rw [heffects]; rfl, .inl (by rw [heffects]; rfl)⟩

theorem run_parsed (engine : Analyzer σ) (now fuel : Nat) (s : Studio σ) (system : σ) :
    let t := (run (some engine) now (fuel + 2) s [.parseFinished (.ok system)]).1
    drawings (some engine) t.events = [engine.drawing system] ∧
      t.studio.session.analysis = s.session.analysis.draw (engine.drawing system) := by
  intro t
  let u := s.advance (some engine) now (.parseFinished (.ok system))
  have hdrawn : drawings (some engine) u.2.2 = [engine.drawing system] := by
    rw [drawings_advance]
    exact congrArg (engine.drawing system :: ·) (drawings_postEffects _ _)
  have hnext : u.2.1 = [(engine.drawing system).action] := by
    rw [(performs_advance _ _ _ _).actions_eq]
    refine (List.filterMap_cons_some (Effect.follow?_generateFlow engine system)).trans ?_
    rw [Session.follow?_postEffects]
  have hflow := (engine.drawing system).action_isFlow
  have hlast : (u.1.advance (some engine) now (engine.drawing system).action).2.1 = [] := by
    rw [(performs_advance _ _ _ _).actions_eq, hflow.effects_eq, List.filterMap_nil]
  obtain ⟨hstudio, hevents⟩ := run_of_last hlast fuel
  constructor
  · show drawings (some engine) (run _ now (fuel + 2) s _).1.events = _
    rw [events_run_cons, List.nil_append, hnext, hevents, drawings_append, hdrawn, drawings_advance,
      hflow.effects_eq]
    rfl
  · show (run _ now (fuel + 2) s _).1.studio.session.analysis = _
    have hstored : u.1.session.analysis =
        s.session.analysis.take (.parseFinished (.ok system)) := by
      rw [session_advance, Session.analysis_dispatch_of_no_completion rfl]
    rw [studio_run_cons, List.nil_append, hnext, hstudio, session_advance,
      Session.analysis_dispatch_of_no_completion hflow.completion?_eq, hstored]
    rfl

theorem run_parse_failed (analyzer : Option (Analyzer σ)) (now fuel : Nat) (s : Studio σ)
    (text : String) : let t := (run analyzer now (fuel + 1) s [.parseFinished (.error text)]).1
    drawings analyzer t.events = [] ∧ t.studio.session.analysis = s.session.analysis := by
  intro t
  have hlast : (s.advance analyzer now (.parseFinished (.error text))).2.1 = [] := rfl
  obtain ⟨hstudio, hevents⟩ := run_of_last hlast fuel
  exact ⟨by rw [hevents]; rfl, by rw [hstudio]; rfl⟩

end Studio

namespace Stored
variable {layout : LayoutConfig Float} {past : List (Drawing σ)}
  {analyzer : Option (Analyzer σ)} {now : Nat} {s : Studio σ} {a b : Action σ}

theorem run_checked (h : Stored layout past s.session.analysis) {files : List Leaf}
    (hb : (Effect.parseWorkspace files).follow? analyzer = some b) (fuel : Nat) :
    Stored layout (past ++ drawings analyzer (Studio.run analyzer now (fuel + 2) s [b]).1.events)
      (Studio.run analyzer now (fuel + 2) s [b]).1.studio.session.analysis := by
  have hfailed (text : String) (htext : b = .parseFinished (.error text)) :
      Stored layout (past ++ drawings analyzer (Studio.run analyzer now (fuel + 2) s [b]).1.events)
        (Studio.run analyzer now (fuel + 2) s [b]).1.studio.session.analysis := by
    obtain ⟨hdrawn, hsame⟩ := Studio.run_parse_failed analyzer now (fuel + 1) s text
    rwa [htext, hdrawn, hsame, List.append_nil]
  cases analyzer with
  | none => exact hfailed noAnalyzerText (Option.some.inj hb).symm
  | some engine =>
    have hresult : b = .parseFinished (engine.checkAll files).1 := (Option.some.inj hb).symm
    cases hchecked : (engine.checkAll files).1 with
    | error text => exact hfailed text (hchecked ▸ hresult)
    | ok system =>
      obtain ⟨hdrawn, hstored⟩ := Studio.run_parsed engine now fuel s system
      rw [hresult, hchecked, hdrawn, hstored]
      exact h.draw _

theorem dispatch (h : Stored layout past s.session.analysis) (ha : a.isAnalysis = false) :
    Stored layout (past ++ drawings analyzer (s.dispatch analyzer now a).events)
      (s.dispatch analyzer now a).studio.session.analysis := by
  have hfirst : Stored layout past (s.advance analyzer now a).1.session.analysis := by
    rw [Studio.session_advance]
    rcases s.session.analysis_dispatch now a with htaken | ⟨-, hvoid⟩
    · rwa [htaken, Analysis.take_of_not_isAnalysis ha]
    · rw [hvoid]
      exact h.void
  obtain ⟨hquiet, hnext⟩ := Studio.advance_of_not_isAnalysis ha analyzer now s
  rw [Studio.dispatch, Studio.events_run_cons, Studio.studio_run_cons, drawings_append, hquiet,
    List.nil_append, List.nil_append]
  rcases hnext with hnone | ⟨files, b, hone, hb⟩
  · rw [hnone, Studio.run_nil]
    exact (List.append_nil past).symm ▸ hfirst
  · rw [hone]
    exact hfirst.run_checked hb 0

end Stored

/-- A move, with the analyzer as it is then. It may answer otherwise the next time. -/
structure Moment (σ : Type) where
  analyzer : Option (Analyzer σ)
  move : Move σ

structure Journal (σ : Type) where
  studio : Studio σ
  drawings : List (Drawing σ)

namespace Journal

def move (j : Journal σ) (m : Moment σ) : Journal σ :=
  let p := (Progress.ofStudio j.studio).move m.analyzer m.move
  ⟨p.studio, j.drawings ++ FlowStudio.drawings m.analyzer p.events⟩

def follow (j : Journal σ) (moments : List (Moment σ)) : Journal σ := moments.foldl move j

/-- What a journal keeps: nothing in the inbox comes from an analysis. -/
structure Kept (layout : LayoutConfig Float) (j : Journal σ) : Prop where
  stored : Stored layout j.drawings j.studio.session.analysis
  inbox : ∀ a ∈ j.studio.inbox, a.isAnalysis = false

variable {layout : LayoutConfig Float} {j : Journal σ}

theorem Kept.move (h : j.Kept layout) {m : Moment σ} (hm : m.move.isAnalysis = false) :
    (j.move m).Kept layout := by
  obtain ⟨analyzer, m⟩ := m
  cases m with
  | act now a =>
    have hinbox := (Studio.extends_dispatch analyzer now j.studio a).inbox_eq
    refine ⟨h.stored.dispatch hm, ?_⟩
    show ∀ b ∈ (j.studio.dispatch analyzer now a).studio.inbox, b.isAnalysis = false
    rw [hinbox]
    exact h.inbox
  | answer backend place =>
    have hsession := Studio.session_deliver backend place j.studio
    refine ⟨?_, fun a ha => ?_⟩
    · show Stored layout (j.drawings ++ []) (j.studio.deliver backend place).session.analysis
      rw [hsession, List.append_nil]
      exact h.stored
    · rcases Studio.mem_inbox_deliver ha with hold | ⟨job, -, rfl⟩
      · exact h.inbox a hold
      · exact Action.isAnalysis_of_completion? (job.completion?_completion backend)
  | take now =>
    rw [Journal.move, Progress.move, Progress.ofStudio]
    dsimp only
    split
    · exact ⟨(List.append_nil j.drawings).symm ▸ h.stored, h.inbox⟩
    · next a inbox hinbox =>
      obtain ⟨ha, hrest⟩ := List.forall_mem_cons.mp (hinbox ▸ h.inbox)
      have hstored : Stored layout j.drawings (j.studio.withInbox inbox).session.analysis :=
        h.stored
      have hsame := (Studio.extends_dispatch analyzer now (j.studio.withInbox inbox) a).inbox_eq
      refine ⟨hstored.dispatch ha, ?_⟩
      dsimp only
      rw [hsame]
      exact hrest

theorem Kept.follow (h : j.Kept layout) {moments : List (Moment σ)}
    (hmoments : ∀ m ∈ moments, m.move.isAnalysis = false) :
    (j.follow moments).Kept layout := by
  induction moments generalizing j with
  | nil => exact h
  | cons m moments ih =>
    obtain ⟨hm, hmoments⟩ := List.forall_mem_cons.mp hmoments
    exact ih (h.move hm) hmoments

end Journal

def Studio.journal (s : Studio σ) (moments : List (Moment σ)) : Journal σ :=
  Journal.follow ⟨s, []⟩ moments

/-- However the analyzer answers, the stored flow was laid out from the design that the last drawing
of the run gave, which was asked for the stored system. If that drawing failed, it is the design of
the last one before it that did not. -/
theorem Studio.stored_flow_is_last_drawn (first : Studio σ) (hsystem : first.session.system = none)
    (hflow : first.session.flow = none) (hinbox : ∀ a ∈ first.inbox, a.isAnalysis = false)
    (moments : List (Moment σ)) (huser : ∀ m ∈ moments, m.move.isAnalysis = false) :
    let j := first.journal moments
    ∀ flow, j.studio.session.flow = some flow → ∃ earlier last design,
      j.drawings = earlier ++ [last] ∧ j.studio.session.system = some last.system ∧
      flow = Layout.arrangeRanked first.session.layout design ∧
      (last.result = .ok design ∨
        (∃ text, last.result = .error text) ∧ latestDesign? earlier = some design) := by
  intro j flow hstored
  have hfirst : Stored first.session.layout [] first.session.analysis := by
    refine ⟨rfl, fun system h => ?_, fun flow h => ?_⟩
    · exact absurd (hsystem.symm.trans h) (Option.some_ne_none system).symm
    · exact absurd (hflow.symm.trans h) (Option.some_ne_none flow).symm
  have hkept : j.Kept first.session.layout := Journal.Kept.follow ⟨hfirst, hinbox⟩ huser
  exact hkept.stored.exists_last hstored

def singleAnalyzer : Analyzer Nat :=
  ⟨Nat, 0, fun n _ => .ok (n + 1), .ok, fun n =>
    if n = 1 then .ok ⟨[.make "v" .var none], []⟩ else .error "no flow"⟩

def savedAgain : List (Moment Nat) :=
  [⟨some singleAnalyzer, .act 0 (.saveFile "design.def" "x")⟩,
    ⟨some singleAnalyzer, .act 1 (.saveFile "a" "y")⟩, ⟨none, .act 2 (.saveFile "b" "z")⟩]

theorem Studio.stored_flow_is_last_drawn_failed :
    let first : Studio Nat := ofSession (.start .default)
    (first.journal savedAgain).studio.session.system = some 2 ∧
      ∃ flow earlier last design, (first.journal savedAgain).studio.session.flow = some flow ∧
        (first.journal savedAgain).drawings = earlier ++ [last] ∧ last.system = 2 ∧
        flow = Layout.arrangeRanked first.session.layout design ∧
        latestDesign? earlier = some design := by
  intro first
  have huser : ∀ m ∈ savedAgain, m.move.isAnalysis = false := by decide
  have hsystem : (first.journal savedAgain).studio.session.system = some 2 := by decide +kernel
  have hsome : (first.journal savedAgain).studio.session.flow.isSome = true := by decide +kernel
  obtain ⟨flow, hflow⟩ := Option.isSome_iff_exists.mp hsome
  obtain ⟨earlier, last, design, hdrawings, hlast, hdesign, hresult⟩ :=
    stored_flow_is_last_drawn first rfl rfl (List.forall_mem_nil _) savedAgain huser flow hflow
  have htwo : last.system = 2 := Option.some.inj (hlast.symm.trans hsystem)
  refine ⟨hsystem, flow, earlier, last, design, hflow, hdrawings, htwo, hdesign, ?_⟩
  rcases hresult with hok | ⟨-, hlatest⟩
  · -- the drawing of two files failed
    have hfailed : ∀ x ∈ (first.journal savedAgain).drawings, x.system = 2 →
        x.design?.isNone = true := by decide +kernel
    have hmem : last ∈ (first.journal savedAgain).drawings :=
      hdrawings ▸ List.mem_append_right _ List.mem_cons_self
    have hnone := hfailed last hmem htwo
    rw [Drawing.design?, hok] at hnone
    exact absurd hnone Bool.false_ne_true
  · exact hlatest

/-- Whether the stored flow was laid out from a design that was drawn of the stored system. -/
def Journal.FlowIsOfSystem (j : Journal σ) : Prop :=
  ∀ flow, j.studio.session.flow = some flow → ∃ system design,
    j.studio.session.system = some system ∧ ⟨system, .ok design⟩ ∈ j.drawings ∧
    flow = Layout.arrangeRanked j.studio.session.layout design

theorem Studio.not_flow_is_of_system :
    ¬∀ moments : List (Moment Nat), (∀ m ∈ moments, m.move.isAnalysis = false) →
      ((ofSession (.start .default)).journal moments).FlowIsOfSystem := by
  intro h
  let first : Studio Nat := ofSession (.start .default)
  have hclaim : (first.journal savedAgain).FlowIsOfSystem := h savedAgain (by decide)
  have hsystem : (first.journal savedAgain).studio.session.system = some 2 := by decide +kernel
  have hsome : (first.journal savedAgain).studio.session.flow.isSome = true := by decide +kernel
  have hfailed : ∀ x ∈ (first.journal savedAgain).drawings, x.system = 2 →
      x.design?.isNone = true := by decide +kernel
  obtain ⟨flow, hflow⟩ := Option.isSome_iff_exists.mp hsome
  obtain ⟨system, design, hstored, hmem, -⟩ := hclaim flow hflow
  obtain rfl := Option.some.inj (hstored.symm.trans hsystem)
  exact Bool.false_ne_true (hfailed _ hmem rfl)

end FlowStudio
