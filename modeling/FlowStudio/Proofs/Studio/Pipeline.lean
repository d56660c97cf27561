import FlowStudio.Proofs.FileTree.Listing
import FlowStudio.Proofs.Studio.StoredFlow

/-! A turn in which files are checked. One action at a time is waiting, and after the third none is.
The parser gets every file once, up to the first that it refuses. A failure leaves what is stored as
it was, and what is checked is stored, drawn and sent to the tool. -/

namespace FlowStudio
variable {σ : Type}

def Leaf.parsed (leaf : Leaf) : Event σ := .parse leaf.name

inductive Action.Checks (t : FileTree) : Action σ → FileTree → Prop
  | parse : Checks t .parse t
  | save {path body : String} {id : Nat} : (t.addFile path body).result = .ok id →
    Checks t (.saveFile path body) (t.addFile path body).tree

theorem Action.Checks.wellFormed {t tree : FileTree} {a : Action σ} (h : a.Checks t tree)
    (hw : t.WellFormed) : tree.WellFormed := by
  cases h with
  | parse => exact hw
  | save _ => exact hw.addFile _ _

/-- What is made of some files: what is asked for on the way, and the system with its drawing unless
there is a failure before that. -/
inductive Analyzed (files : List Leaf) :
    Option (Analyzer σ) → List (Event σ) → Except String (Drawing σ) → Prop
  | missing : Analyzed files none [] (.error noAnalyzerText)
  | refused {engine : Analyzer σ} {before later : List Leaf} {leaf : Leaf} {p : engine.Parser}
    {text : String} : files = before ++ leaf :: later →
    before.foldlM engine.parse engine.fresh = .ok p → engine.parse p leaf = .error text →
    Analyzed files (some engine) ((before ++ [leaf]).map Leaf.parsed) (.error text)
  | unsound {engine : Analyzer σ} {p : engine.Parser} {text : String} :
    files.foldlM engine.parse engine.fresh = .ok p → engine.check p = .error text →
    Analyzed files (some engine) (files.map Leaf.parsed ++ [.check]) (.error text)
  | drawn {engine : Analyzer σ} {p : engine.Parser} {system : σ} :
    files.foldlM engine.parse engine.fresh = .ok p → engine.check p = .ok system →
    Analyzed files (some engine) (files.map Leaf.parsed ++ [.check, .draw system])
      (.ok (engine.drawing system))

structure Turn.Failed (t : Turn σ) (s : Studio σ) (tree : FileTree) (now : Nat)
    (events : List (Event σ)) (text : String) : Prop where
  events_eq : t.events = events
  tree_eq : t.studio.session.tree = tree
  channel_eq : t.studio.channel = s.channel
  system_eq : t.studio.session.system = s.session.system
  flow_eq : t.studio.session.flow = s.session.flow
  notice_eq : t.studio.session.notices.current = some ⟨.error, text, now⟩

/-- A turn with a system that was checked. The selected tool gets it, if there is one. -/
structure Turn.Completed (t : Turn σ) (s : Studio σ) (tree : FileTree) (now : Nat)
    (events : List (Event σ)) (x : Drawing σ) : Prop where
  events_eq : t.events = events ++ t.studio.session.toolMessage?.toList.map .post
  tree_eq : t.studio.session.tree = tree
  channel_eq : t.studio.channel =
    t.studio.session.toolMessage?.toList.foldl Broadcast.post s.channel
  system_eq : t.studio.session.system = some x.system
  drawn : ∀ design, x.result = .ok design →
    t.studio.session.flow = some (Layout.arrangeRanked s.session.layout design) ∧
      t.studio.session.notices.current = some ⟨.success, "OK", now⟩
  not_drawn : ∀ text, x.result = .error text →
    t.studio.session.flow = s.session.flow ∧
      t.studio.session.notices.current = some ⟨.error, text, now⟩

namespace Turn
variable {t t' : Turn σ} {s : Studio σ} {u : Session σ} {tree : FileTree} {now : Nat}
  {es fs : List (Event σ)}

theorem Failed.after {text : String} (h : t.Failed { s with session := u } tree now es text)
    (hu : u.analysis = s.session.analysis) (hstudio : t'.studio = t.studio)
    (hevents : t'.events = fs ++ t.events) : t'.Failed s tree now (fs ++ es) text := by
  obtain ⟨hsystem, hflow, -⟩ := Analysis.mk.inj hu
  exact ⟨by rw [hevents, h.events_eq], by rw [hstudio, h.tree_eq], by rw [hstudio, h.channel_eq],
    by rw [hstudio, h.system_eq, hsystem], by rw [hstudio, h.flow_eq, hflow],
    by rw [hstudio, h.notice_eq]⟩

theorem Completed.after {x : Drawing σ} (h : t.Completed { s with session := u } tree now es x)
    (hu : u.analysis = s.session.analysis) (hstudio : t'.studio = t.studio)
    (hevents : t'.events = fs ++ t.events) : t'.Completed s tree now (fs ++ es) x := by
  obtain ⟨-, hflow, hlayout⟩ := Analysis.mk.inj hu
  refine ⟨by rw [hevents, h.events_eq, hstudio, List.append_assoc], by rw [hstudio, h.tree_eq],
    by rw [hstudio, h.channel_eq], by rw [hstudio, h.system_eq], fun design hdesign => ?_,
    fun text htext => ?_⟩
  · rw [hstudio, ← hlayout]
    exact h.drawn design hdesign
  · rw [hstudio, ← hflow]
    exact h.not_drawn text htext

end Turn

namespace Analyzer
variable {a : Analyzer σ} {p q : a.Parser} {leaf : Leaf}

theorem parseAll_cons_of_ok (h : a.parse p leaf = .ok q) (files : List Leaf) :
    a.parseAll p (leaf :: files) = ((a.parseAll q files).1, leaf.parsed :: (a.parseAll q files).2) := by
  rw [parseAll, h]
  rfl

theorem parseAll_cons_of_error {text : String} (h : a.parse p leaf = .error text)
    (files : List Leaf) : a.parseAll p (leaf :: files) = (.error text, [leaf.parsed]) := by
  rw [parseAll, h]
  rfl

theorem foldlM_parse_cons (h : a.parse p leaf = .ok q) (files : List Leaf) :
    (leaf :: files).foldlM a.parse p = files.foldlM a.parse q := by
  rw [List.foldlM_cons, h]
  rfl

theorem parseAll_cases (a : Analyzer σ) (p : a.Parser) (files : List Leaf) :
    (∃ q, files.foldlM a.parse p = .ok q ∧ a.parseAll p files = (.ok q, files.map Leaf.parsed)) ∨
      ∃ before leaf later q text, files = before ++ leaf :: later ∧
        before.foldlM a.parse p = .ok q ∧ a.parse q leaf = .error text ∧
        a.parseAll p files = (.error text, (before ++ [leaf]).map Leaf.parsed) := by
  induction files generalizing p with
  | nil => exact .inl ⟨p, rfl, rfl⟩
  | cons leaf files ih =>
    cases hleaf : a.parse p leaf with
    | error text =>
      exact .inr ⟨[], leaf, files, p, text, rfl, rfl, hleaf, parseAll_cons_of_error hleaf files⟩
    | ok q =>
      rw [parseAll_cons_of_ok hleaf]
      rcases ih q with ⟨r, hall, hread⟩ | ⟨before, last, later, r, text, rfl, hbefore, hlast, hread⟩
      · exact .inl ⟨r, (foldlM_parse_cons hleaf files).trans hall, by rw [hread]; rfl⟩
      · exact .inr ⟨leaf :: before, last, later, r, text, rfl,
          (foldlM_parse_cons hleaf before).trans hbefore, hlast, by rw [hread]; rfl⟩

theorem checkAll_cases (a : Analyzer σ) (files : List Leaf) :
    (∃ text events, a.checkAll files = (.error text, events) ∧
        Analyzed files (some a) events (.error text)) ∨
      ∃ system events, a.checkAll files = (.ok system, events) ∧
        Analyzed files (some a) (events ++ [.draw system]) (.ok (a.drawing system)) := by
  rw [checkAll]
  rcases a.parseAll_cases a.fresh files with
    ⟨p, hall, hread⟩ | ⟨before, leaf, later, p, text, hfiles, hbefore, hleaf, hread⟩
  · rw [hread]
    dsimp only
    cases hcheck : a.check p with
    | error text => exact .inl ⟨text, _, rfl, .unsound hall hcheck⟩
    | ok system =>
      refine .inr ⟨system, _, rfl, ?_⟩
      rw [List.append_assoc]
      exact .drawn hall hcheck
  · rw [hread]
    exact .inl ⟨text, _, rfl, .refused hfiles hbefore hleaf⟩

end Analyzer

theorem Session.kept_by_drawing (s : Session σ) (now : Nat) (x : Drawing σ) :
    let u := (s.dispatch now x.action).session
    u.tree = s.tree ∧ u.system = s.system ∧ u.toolMessage? = s.toolMessage? := by
  rw [Drawing.action]
  cases x.result <;> exact ⟨rfl, rfl, rfl⟩

namespace Studio
variable {analyzer : Option (Analyzer σ)} {now : Nat} {s : Studio σ} {a : Action σ}

theorem length_left_run (analyzer : Option (Analyzer σ)) (now fuel : Nat) (s : Studio σ)
    (a : Action σ) : (run analyzer now fuel s [a]).2.length ≤ 1 := by
  -- a step takes the only waiting action away and leaves one at most in its place
  induction fuel generalizing s a with
  | zero => exact Nat.le_refl 1
  | succ fuel ih =>
    rw [left_run_cons, List.nil_append]
    rcases advance_actions analyzer now s a with hnone | ⟨b, hone, -, -⟩
    · rw [hnone, run_nil]
      exact Nat.zero_le 1
    · rw [hone]
      exact ih _ b

theorem run_cons (fuel : Nat) (s : Studio σ) (a : Action σ) (queue : List (Action σ)) :
    run analyzer now (fuel + 1) s (a :: queue) =
      let next := s.advance analyzer now a
      let rest := run analyzer now fuel next.1 (queue ++ next.2.1)
      (⟨rest.1.studio, (s.session.dispatch now a).changed || rest.1.changed,
        next.2.2 ++ rest.1.events⟩, rest.2) := rfl

theorem run_add {fuel : Nat} {queue : List (Action σ)} (h : (run analyzer now fuel s queue).2 = [])
    (more : Nat) : run analyzer now (fuel + more) s queue = run analyzer now fuel s queue := by
  induction fuel generalizing s queue with
  | zero =>
    -- without fuel all of the queue is left, so it was empty
    obtain rfl : queue = [] := h
    rw [run_nil, run_nil]
  | succ fuel ih =>
    cases queue with
    | nil => rw [run_nil, run_nil]
    | cons a queue =>
      rw [left_run_cons] at h
      rw [Nat.add_right_comm, run_cons, run_cons]
      dsimp only
      rw [ih h]

theorem run_of_le (analyzer : Option (Analyzer σ)) (now : Nat) (s : Studio σ) (a : Action σ)
    {fuel : Nat} (h : 3 ≤ fuel) : run analyzer now fuel s [a] = (s.dispatch analyzer now a, []) := by
  have hleft := left_dispatch analyzer now s a
  obtain ⟨more, rfl⟩ := Nat.exists_eq_add_of_le h
  rw [run_add hleft]
  exact Prod.ext rfl hleft

theorem advance_checks {tree : FileTree} (h : a.Checks s.session.tree tree)
    (analyzer : Option (Analyzer σ)) (now : Nat) : ∃ u : Session σ, u.tree = tree ∧
      u.analysis = s.session.analysis ∧
      s.advance analyzer now a =
        performAll analyzer { s with session := u } [.parseWorkspace tree.readAll] := by
  cases h with
  | parse => exact ⟨s.session, rfl, rfl, rfl⟩
  | @save path body id hid =>
    refine ⟨s.session.withTree (s.session.tree.addFile path body).tree, rfl, rfl, ?_⟩
    rw [advance, Session.dispatch, Session.edited, hid]
    rfl

theorem performAll_postEffects (analyzer : Option (Analyzer σ)) (s : Studio σ) (u : Session σ) :
    performAll analyzer s u.postEffects =
      ({ s with channel := u.toolMessage?.toList.foldl Broadcast.post s.channel }, [],
        u.toolMessage?.toList.map .post) := by
  rw [Session.postEffects]
  cases u.toolMessage? <;> rfl

theorem perform_generateFlow (engine : Analyzer σ) (s : Studio σ) (system : σ) :
    s.perform (some engine) (.generateFlow system) =
      (s, some (engine.drawing system).action, [.draw system]) := by
  rw [perform, Drawing.action, Analyzer.drawing]
  cases engine.draw system <;> rfl

theorem advance_parsed (engine : Analyzer σ) (now : Nat) (s : Studio σ) (system : σ) :
    let u := { s.session with system := some system }.notify .success "OK" now
    s.advance (some engine) now (.parseFinished (.ok system)) =
      ({ s with
          session := u
          channel := u.toolMessage?.toList.foldl Broadcast.post s.channel },
        [(engine.drawing system).action], .draw system :: u.toolMessage?.toList.map .post) := by
  intro u
  show performAll (some engine) { s with session := u } (.generateFlow system :: u.postEffects) = _
  rw [performAll, perform_generateFlow]
  dsimp only
  rw [performAll_postEffects]
  rfl

theorem run_drawing (analyzer : Option (Analyzer σ)) (now fuel : Nat) (s : Studio σ)
    (x : Drawing σ) :
    (run analyzer now (fuel + 1) s [x.action]).1.studio =
        { s with session := (s.session.dispatch now x.action).session } ∧
      (run analyzer now (fuel + 1) s [x.action]).1.events = [] := by
  have hadvance : s.advance analyzer now x.action =
      ({ s with session := (s.session.dispatch now x.action).session }, [], []) := by
    rw [advance, x.action_isFlow.effects_eq]
    rfl
  have hlast := run_of_last (congrArg (·.2.1) hadvance) fuel
  rwa [hadvance] at hlast

theorem failed_run (analyzer : Option (Analyzer σ)) (now fuel : Nat) (s : Studio σ)
    (text : String) : (run analyzer now (fuel + 1) s [.parseFinished (.error text)]).1.Failed s
      s.session.tree now [] text := by
  have hlast : (s.advance analyzer now (.parseFinished (.error text))).2.1 = [] := rfl
  obtain ⟨hstudio, hevents⟩ := run_of_last hlast fuel
  exact ⟨by rw [hevents]; rfl, by rw [hstudio]; rfl, by rw [hstudio]; rfl, by rw [hstudio]; rfl,
    by rw [hstudio]; rfl, by rw [hstudio]; rfl⟩

theorem completed_run (engine : Analyzer σ) (now fuel : Nat) (s : Studio σ) (system : σ) :
    (run (some engine) now (fuel + 2) s [.parseFinished (.ok system)]).1.Completed s
      s.session.tree now [.draw system] (engine.drawing system) := by
  let x := engine.drawing system
  let u := { s.session with system := some system }.notify .success "OK" now
  let v : Studio σ := { s with
    session := u
    channel := u.toolMessage?.toList.foldl Broadcast.post s.channel }
  -- the session after the check differs from the last one in what the drawing shows only
  obtain ⟨hdrawn, hquiet⟩ := run_drawing (some engine) now fuel v x
  have hfirst := advance_parsed engine now s system
  have hstudio : (run (some engine) now (fuel + 2) s [.parseFinished (.ok system)]).1.studio =
      { v with session := (u.dispatch now x.action).session } := by
    rw [studio_run_cons, hfirst]
    exact hdrawn
  have hevents : (run (some engine) now (fuel + 2) s [.parseFinished (.ok system)]).1.events =
      .draw system :: u.toolMessage?.toList.map .post := by
    rw [events_run_cons, hfirst]
    exact (congrArg _ hquiet).trans (List.append_nil _)
  obtain ⟨htree, hsystem, hmessage⟩ := u.kept_by_drawing now x
  refine ⟨?_, ?_, ?_, ?_, fun design hdesign => ?_, fun text htext => ?_⟩
  · rw [hevents, hstudio, hmessage]
    rfl
  · rw [hstudio]
    exact htree
  · rw [hstudio, hmessage]
  · rw [hstudio]
    exact hsystem
  · rw [hstudio, Drawing.action, hdesign]
    exact ⟨rfl, rfl⟩
  · rw [hstudio, Drawing.action, htext]
    exact ⟨rfl, rfl⟩

theorem dispatch_of_advance {v : Studio σ} {b : Action σ} {es : List (Event σ)}
    (h : s.advance analyzer now a = (v, [b], es)) :
    (s.dispatch analyzer now a).studio = (run analyzer now 2 v [b]).1.studio ∧
      (s.dispatch analyzer now a).events = es ++ (run analyzer now 2 v [b]).1.events := by
  rw [dispatch, studio_run_cons, events_run_cons, h]
  exact ⟨rfl, rfl⟩

theorem performAll_parseWorkspace {engine : Analyzer σ} {files : List Leaf}
    {result : Except String σ} {events : List (Event σ)}
    (h : engine.checkAll files = (result, events)) (s : Studio σ) :
    performAll (some engine) s [.parseWorkspace files] = (s, [.parseFinished result], events) := by
  have hperform : s.perform (some engine) (.parseWorkspace files) =
      (s, some (.parseFinished result), events) := by
    rw [perform, h]
  rw [performAll, hperform]
  exact congrArg (fun es => (s, [Action.parseFinished result], es)) (List.append_nil events)

theorem analyzed_dispatch {tree : FileTree} (h : a.Checks s.session.tree tree)
    (analyzer : Option (Analyzer σ)) (now : Nat) : ∃ events result,
      Analyzed tree.readAll analyzer events result ∧
      (∀ text, result = .error text →
        (s.dispatch analyzer now a).Failed s tree now events text) ∧
      ∀ x, result = .ok x → (s.dispatch analyzer now a).Completed s tree now events x := by
  obtain ⟨u, rfl, hanalysis, hadvance⟩ := advance_checks h analyzer now
  cases analyzer with
  | none =>
    obtain ⟨hstudio, hevents⟩ := dispatch_of_advance hadvance
    refine ⟨[], _, .missing, fun text htext => ?_, nofun⟩
    obtain rfl := Except.error.inj htext
    exact (failed_run none now 1 _ noAnalyzerText).after hanalysis hstudio hevents
  | some engine =>
    rcases engine.checkAll_cases u.tree.readAll with
      ⟨text, events, hcheck, hanalyzed⟩ | ⟨system, events, hcheck, hanalyzed⟩
    · obtain ⟨hstudio, hevents⟩ :=
        dispatch_of_advance (hadvance.trans (performAll_parseWorkspace hcheck _))
      refine ⟨events, _, hanalyzed, fun text' htext => ?_, nofun⟩
      obtain rfl := Except.error.inj htext
      have hfailed := (failed_run (some engine) now 1 _ text).after hanalysis hstudio hevents
      rwa [List.append_nil] at hfailed
    · obtain ⟨hstudio, hevents⟩ :=
        dispatch_of_advance (hadvance.trans (performAll_parseWorkspace hcheck _))
      refine ⟨_, _, hanalyzed, nofun, fun x hx => ?_⟩
      obtain rfl := Except.ok.inj hx
      exact (completed_run engine now 0 _ system).after hanalysis hstudio hevents

/-- In each turn one action at most is waiting at any time, and after the third none is. Where files
are checked the parser gets each of them once, up to the first that it refuses. After a failure all
that is stored stays and nothing is sent to the tool; a system that is checked is stored and drawn
once, and what comes of the drawing shows last. -/
theorem turn_runs_analysis_once (analyzer : Option (Analyzer σ)) (now : Nat) (s : Studio σ)
    (a : Action σ) :
    let turn := s.dispatch analyzer now a
    (∀ fuel, (run analyzer now fuel s [a]).2.length ≤ 1) ∧
    (∀ fuel, 3 ≤ fuel → run analyzer now fuel s [a] = (turn, [])) ∧
    ∀ tree, a.Checks s.session.tree tree →
      (s.session.tree.WellFormed → (tree.readAll.map Leaf.name).Nodup ∧
        ∀ leaf, leaf ∈ tree.readAll ↔
          Path.normalize leaf.name = .ok leaf.name ∧ tree.read? leaf.name = some leaf.body) ∧
      ∃ events result, Analyzed tree.readAll analyzer events result ∧
        (∀ text, result = .error text → turn.Failed s tree now events text) ∧
        ∀ x, result = .ok x → turn.Completed s tree now events x := by
  refine ⟨fun fuel => length_left_run analyzer now fuel s a, fun fuel => run_of_le analyzer now s a,
    fun tree hchecks => ⟨fun hw => ?_, analyzed_dispatch hchecks analyzer now⟩⟩
  have htree : tree.WellFormed := hchecks.wellFormed hw
  exact ⟨FileTree.nodup_name_readAll htree, fun _ => FileTree.mem_readAll_iff_read? htree⟩

theorem turn_runs_analysis_once_saved :
    let s : Studio Nat := ofSession (.start .default)
    let turn := s.dispatch (some countingAnalyzer) 5 (.saveFile "a" "x")
    turn.studio.session.system = some 2 ∧ turn.studio.session.flow = none ∧
      turn.studio.session.notices.current = some ⟨.error, "no flow", 5⟩ := by
  intro s turn
  obtain ⟨id, hid⟩ : ∃ id, (s.session.tree.addFile "a" "x").result = .ok id :=
    ⟨2, by decide +kernel⟩
  obtain ⟨-, -, hchecked⟩ :=
    turn_runs_analysis_once (some countingAnalyzer) 5 s (.saveFile "a" "x")
  obtain ⟨-, events, result, hanalyzed, -, hcompleted⟩ := hchecked _ (.save hid)
  have hfiles : (s.session.tree.addFile "a" "x").tree.readAll =
      [⟨"/a", "x"⟩, ⟨"/design.def", "unit design;"⟩] := by decide +kernel
  rw [hfiles] at hanalyzed
  cases hanalyzed with
  | refused _ _ hleaf => exact absurd hleaf (by simp [countingAnalyzer])
  | unsound _ hcheck => exact absurd hcheck (by simp [countingAnalyzer])
  | @drawn _ p system hread hcheck =>
    have hp : (.ok (2 : Nat) : Except String Nat) = .ok p := hread
    obtain rfl := Except.ok.inj hp
    obtain rfl : (2 : Nat) = system := Except.ok.inj hcheck
    have hturn : turn.Completed s _ 5 _ (countingAnalyzer.drawing 2) := hcompleted _ rfl
    obtain ⟨hflow, hnotice⟩ := hturn.not_drawn "no flow" rfl
    have hnone : s.session.flow = none := rfl
    exact ⟨hturn.system_eq, hflow.trans hnone, hnotice⟩

end Studio
end FlowStudio
