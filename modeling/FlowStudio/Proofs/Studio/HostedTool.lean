import FlowStudio.Proofs.Studio.Moves

/-! The hosted tool and the session. The tool is told of every system that it is to show and of no
other, so that the latest message to it is never out of date. -/

namespace FlowStudio
variable {σ : Type} {analyzer : Option (Analyzer σ)} {now : Nat}

namespace Session
variable {s : Session σ} {a : Action σ}

theorem toolMessage?_eq_some_iff {message : ToolMessage σ} : s.toolMessage? = some message ↔
    ∃ tool system, s.toolbox.selected? = some tool ∧ s.system = some system ∧
      message = ⟨tool.path, system⟩ := by
  unfold toolMessage?
  cases s.toolbox.selected? with
  | none => exact ⟨fun h => by simp at h, fun ⟨_, _, h, _⟩ => by simp at h⟩
  | some tool =>
    cases s.system with
    | none => exact ⟨fun h => by simp at h, fun ⟨_, _, _, h, _⟩ => by simp at h⟩
    | some system =>
      refine ⟨fun h => ⟨tool, system, rfl, rfl, (Option.some.inj h).symm⟩, ?_⟩
      rintro ⟨_, _, htool, hsystem, rfl⟩
      rw [← Option.some.inj htool, ← Option.some.inj hsystem]
      rfl

theorem messages_postEffects (s : Session σ) :
    s.postEffects.filterMap Effect.message? = s.toolMessage?.toList := by
  unfold postEffects
  cases s.toolMessage? <;> rfl

theorem messages_dispatch (s : Session σ) (now : Nat) (a : Action σ) :
    (s.dispatch now a).effects.filterMap Effect.message? =
        (s.dispatch now a).session.toolMessage?.toList ∨
      (s.dispatch now a).effects.filterMap Effect.message? = [] ∧
        s.ShowsNoMore (s.dispatch now a).session := by
  cases s.dispatch_asks now a with
  | nothing heffects hno => exact .inr ⟨by rw [heffects]; rfl, hno⟩
  | check files heffects _ hno => exact .inr ⟨by rw [heffects]; rfl, hno⟩
  | draw system heffects _ => exact .inl (by rw [heffects]; exact messages_postEffects _)
  | post heffects => exact .inl (by rw [heffects, messages_postEffects])
  | load request id heffects hno => exact .inr ⟨by rw [heffects]; rfl, hno⟩
  | create request files heffects hno => exact .inr ⟨by rw [heffects]; rfl, hno⟩

end Session

namespace Studio
variable {s t : Studio σ} {a b : Action σ}

/-- The latest message carries the system that is stored to the tool that is selected. -/
def InSync (s : Studio σ) : Prop :=
  ∀ tool system, s.session.toolbox.selected? = some tool → s.session.system = some system →
    s.channel.latest = some ⟨tool.path, system⟩

theorem inSync_iff : s.InSync ↔
    ∀ message, s.session.toolMessage? = some message → s.channel.latest = some message := by
  constructor
  · intro h message hmessage
    obtain ⟨tool, system, htool, hsystem, rfl⟩ := Session.toolMessage?_eq_some_iff.mp hmessage
    exact h tool system htool hsystem
  · intro h tool system htool hsystem
    exact h _ (Session.toolMessage?_eq_some_iff.mpr ⟨tool, system, htool, hsystem, rfl⟩)

theorem posted_advance (analyzer : Option (Analyzer σ)) (now : Nat) (s : Studio σ)
    (a : Action σ) : posted (s.advance analyzer now a).2.2 =
      (s.session.dispatch now a).effects.filterMap Effect.message? :=
  (performs_advance analyzer now s a).posted_eq

theorem InSync.advance (h : s.InSync) : (s.advance analyzer now a).1.InSync := by
  rw [inSync_iff] at h ⊢
  have hgrows := extends_advance analyzer now s a
  rw [session_advance, hgrows.channel_eq, posted_advance]
  intro message hmessage
  rcases s.session.messages_dispatch now a with htold | ⟨hnone, hsame | hvoid⟩
  · rw [htold, hmessage]
    rfl
  · rw [hnone]
    exact h message (hsame ▸ hmessage)
  · exact absurd (hvoid.symm.trans hmessage) (Option.some_ne_none message).symm

theorem InSync.dispatch (h : s.InSync) : (s.dispatch analyzer now a).studio.InSync := by
  refine run_keeps (Q := fun _ => True) (R := fun s _ t => s.InSync → t.InSync) ?_ ?_ ?_ ?_ 3 s
    (fun _ _ => trivial) h
  · exact fun _ h => h
  · exact fun hs ht h => ht (hs h)
  · exact fun s a _ h => h.advance
  · exact fun _ _ _ _ _ => trivial

theorem toolMessage?_run_flow (hb : b.IsFlow) (fuel : Nat) (s : Studio σ) :
    (run analyzer now fuel s [b]).1.studio.session.toolMessage? = s.session.toolMessage? := by
  cases fuel with
  | zero => rfl
  | succ fuel =>
    have hlast : (s.advance analyzer now b).2.1 = [] := by
      rw [(performs_advance analyzer now s b).actions_eq, hb.effects_eq, List.filterMap_nil]
    rw [studio_run_cons, hlast, List.nil_append, run_nil, session_advance]
    rcases hb with ⟨design, rfl⟩ | ⟨text, rfl⟩ <;> rfl

theorem toolMessage?_advance_of_posted {message : ToolMessage σ}
    (h : message ∈ posted (s.advance analyzer now a).2.2) :
    (s.advance analyzer now a).1.session.toolMessage? = some message := by
  rw [posted_advance] at h
  rw [session_advance]
  rcases s.session.messages_dispatch now a with htold | ⟨hnone, -⟩
  · rw [htold] at h
    exact Option.mem_toList.mp h
  · rw [hnone] at h
    exact absurd h List.not_mem_nil

theorem advance_actions_of_posted {message : ToolMessage σ}
    (h : message ∈ posted (s.advance analyzer now a).2.2) :
    (s.advance analyzer now a).2.1 = [] ∨
      ∃ b, (s.advance analyzer now a).2.1 = [b] ∧ b.IsFlow := by
  rw [posted_advance] at h
  rw [(performs_advance analyzer now s a).actions_eq]
  cases s.session.dispatch_asks now a with
  | nothing heffects _ => simp [heffects] at h
  | check files heffects _ _ => simp [heffects, Effect.message?] at h
  | draw system heffects _ =>
    obtain ⟨b, hfollow, hflow⟩ := Effect.exists_follow?_generateFlow analyzer system
    refine .inr ⟨b, ?_, hflow⟩
    rw [heffects, List.filterMap_cons_some hfollow, Session.follow?_postEffects]
  | post heffects => exact .inl (by rw [heffects, Session.follow?_postEffects])
  | load request id heffects _ => simp [heffects, Effect.message?] at h
  | create request files heffects _ => simp [heffects, Effect.message?] at h

theorem toolMessage?_of_mem_posted {fuel : Nat} {message : ToolMessage σ}
    (h : message ∈ posted (run analyzer now fuel s [a]).1.events) :
    (run analyzer now fuel s [a]).1.studio.session.toolMessage? = some message := by
  induction fuel generalizing s a with
  | zero => exact absurd h List.not_mem_nil
  | succ fuel ih =>
    rw [events_run_cons, posted_append, List.nil_append] at h
    rw [studio_run_cons, List.nil_append]
    rcases List.mem_append.mp h with hfirst | hrest
    · have hsession := toolMessage?_advance_of_posted hfirst
      rcases advance_actions_of_posted hfirst with hnone | ⟨b, hone, hflow⟩
      · rw [hnone, run_nil, hsession]
      · rw [hone, toolMessage?_run_flow hflow, hsession]
    · rcases advance_actions analyzer now s a with hnone | ⟨b, hone, -, -⟩
      · rw [hnone, run_nil] at hrest
        exact absurd hrest List.not_mem_nil
      · rw [hone] at hrest ⊢
        exact ih hrest

theorem InSync.follow {p : Progress σ} (h : p.studio.InSync) (moves : List (Move σ)) :
    (p.follow analyzer moves).studio.InSync := by
  induction moves generalizing p with
  | nil => exact h
  | cons m moves ih =>
    refine ih ?_
    cases m with
    | act now a => exact h.dispatch
    | answer backend place =>
      show (p.studio.deliver backend place).InSync
      unfold deliver
      split
      · exact h
      · exact h
    | take now =>
      unfold Progress.move
      dsimp only
      split
      · exact h
      · next a inbox _ =>
        have hrest : (p.studio.withInbox inbox).InSync := h
        exact hrest.dispatch

theorem channel_follow {p : Progress σ} {channel : Broadcast (ToolMessage σ)}
    (h : p.studio.channel = (posted p.events).foldl Broadcast.post channel)
    (moves : List (Move σ)) : (p.follow analyzer moves).studio.channel =
      (posted (p.follow analyzer moves).events).foldl Broadcast.post channel := by
  induction moves generalizing p with
  | nil => exact h
  | cons m moves ih =>
    refine ih ?_
    cases m with
    | act now a =>
      have hgrows := extends_dispatch analyzer now p.studio a
      show (p.studio.dispatch analyzer now a).studio.channel = _
      rw [hgrows.channel_eq, h, ← List.foldl_append, ← posted_append]
      rfl
    | answer backend place =>
      show (p.studio.deliver backend place).channel = _
      unfold deliver
      split
      · exact h
      · exact h
    | take now =>
      unfold Progress.move
      dsimp only
      split
      · exact h
      · next a inbox _ =>
        have hgrows := extends_dispatch analyzer now (p.studio.withInbox inbox) a
        have hsame : (p.studio.withInbox inbox).channel = p.studio.channel := rfl
        dsimp only
        rw [hgrows.channel_eq, hsame, h, ← List.foldl_append, ← posted_append]

/-- Whatever is done, the tool that is selected was sent the system that is stored. However far a
turn has come, what was posted in it is addressed to the tool that is selected and carries the
system that is stored, and nothing else comes to the channel. -/
theorem hosted_tool_is_in_sync (analyzer : Option (Analyzer σ)) (first : Studio σ)
    (hfirst : first.session.system = none) (moves : List (Move σ)) :
    let p := first.after analyzer moves
    let s := p.studio
    s.InSync ∧ (∀ now, (s.poll analyzer now).studio.InSync) ∧
    (∀ now arrivals, (s.wait analyzer now arrivals).studio.InSync) ∧
    s.channel = (posted p.events).foldl Broadcast.post first.channel ∧
    ∀ (t : Studio σ) now a actions,
      let turn := (run analyzer now actions t [a]).1
      ∀ message ∈ posted turn.events, ∃ tool system,
        turn.studio.session.toolbox.selected? = some tool ∧
        turn.studio.session.system = some system ∧ message = ⟨tool.path, system⟩ := by
  intro p s
  have hstart : first.InSync := by
    intro tool system _ hsystem
    exact absurd (hsystem.symm.trans hfirst) (Option.some_ne_none system)
  have hsync : p.studio.InSync := InSync.follow (p := .ofStudio first) hstart moves
  refine ⟨hsync, ?_, ?_, ?_, ?_⟩
  · intro now
    have hpolled : (p.follow analyzer (s.polling now)).studio.InSync := hsync.follow _
    rwa [follow_polling] at hpolled
  · intro now arrivals
    have hwaited : (p.follow analyzer (s.waiting analyzer now arrivals)).studio.InSync :=
      hsync.follow _
    rwa [(follow_waiting analyzer now arrivals p).1] at hwaited
  · exact channel_follow (p := .ofStudio first) rfl moves
  · intro t now a actions turn message hmessage
    exact Session.toolMessage?_eq_some_iff.mp (toolMessage?_of_mem_posted hmessage)

def countingAnalyzer : Analyzer Nat :=
  ⟨Nat, 0, fun n _ => .ok (n + 1), fun n => .ok n, fun _ => .error "no flow"⟩

theorem hosted_tool_is_in_sync_selected_again :
    let first : Studio Nat := ofSession (.start .default)
    let moves : List (Move Nat) :=
      [.act 0 (.selectTool "std@json v1.0.0"), .act 1 (.selectTool "no tool"),
        .act 2 (.saveFile "a" "x"), .act 3 (.selectTool "std@view v0.2.0"), .act 4 .reloadTool]
    let s := (first.after (some countingAnalyzer) moves).studio
    first.session.system = none ∧ s.session.system = some 2 ∧
      s.channel.latest = some ⟨"/std/view/0.2.0", 2⟩ ∧ s.channel.version = 3 := by
  intro first moves s
  have hsystem : s.session.system = some 2 := by decide +kernel
  have htool : s.session.toolbox.selected? = some ⟨"std@view v0.2.0", "/std/view/0.2.0"⟩ := by
    decide +kernel
  have hsync : s.InSync := (hosted_tool_is_in_sync (some countingAnalyzer) first rfl moves).1
  exact ⟨rfl, hsystem, hsync _ 2 htool hsystem, by decide +kernel⟩

end Studio
end FlowStudio
