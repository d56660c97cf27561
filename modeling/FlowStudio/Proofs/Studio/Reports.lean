import FlowStudio.Proofs.Studio.HostedTool

/-! What is reported of changes. A session that is not reported to have changed is the one that was
there before, however many actions were taken in, so what shows it need not look at it again. -/

namespace FlowStudio
variable {σ : Type}

def Outcome.Reports (s : Session σ) (o : Outcome σ) : Prop := o.changed = true ∨ o.session = s

namespace Session

theorem Yields.reports {s : Session σ} {now : Nat} {a : Action σ} {o : Outcome σ}
    (h : s.Yields now a o) : o.Reports s := by
  cases h with
  | ignored | parse | reloadTool => exact .inr rfl
  | _ => exact .inl rfl

theorem dispatch_reports (s : Session σ) (now : Nat) (a : Action σ) :
    (s.dispatch now a).Reports s := (s.yields_dispatch now a).reports

end Session

def Turn.Reports (s : Studio σ) (t : Turn σ) : Prop :=
  t.changed = true ∨ t.studio.session = s.session

theorem Turn.Reports.andThen {s : Studio σ} {t : Turn σ} {next : Studio σ → Turn σ}
    (h : t.Reports s) (hnext : (next t.studio).Reports t.studio) :
    (Studio.Turn.andThen t next).Reports s := by
  rcases h with hchanged | hsame
  · exact .inl (Bool.or_eq_true_iff.mpr (.inl hchanged))
  · rcases hnext with hchanged | hstill
    · exact .inl (Bool.or_eq_true_iff.mpr (.inr hchanged))
    · exact .inr (hstill.trans hsame)

namespace Studio
variable (analyzer : Option (Analyzer σ)) (now : Nat)

theorem run_reports (fuel : Nat) (s : Studio σ) (queue : List (Action σ)) :
    (run analyzer now fuel s queue).1.Reports s := by
  induction fuel generalizing s queue with
  | zero => exact .inr rfl
  | succ fuel ih =>
    cases queue with
    | nil => exact .inr rfl
    | cons a queue =>
      rcases s.session.dispatch_reports now a with hchanged | hsame
      · exact .inl (Bool.or_eq_true_iff.mpr (.inl hchanged))
      · rcases ih (s.advance analyzer now a).1 (queue ++ (s.advance analyzer now a).2.1)
          with hchanged | hstill
        · exact .inl (Bool.or_eq_true_iff.mpr (.inr hchanged))
        · refine .inr ?_
          rw [studio_run_cons, hstill, session_advance, hsame]

theorem dispatch_reports (s : Studio σ) (a : Action σ) : (s.dispatch analyzer now a).Reports s :=
  run_reports analyzer now 3 s [a]

theorem dispatchAll_reports (actions : List (Action σ)) (s : Studio σ) :
    (dispatchAll analyzer now actions s).Reports s := by
  induction actions generalizing s with
  | nil => exact .inr rfl
  | cons a actions ih => exact (s.dispatch_reports analyzer now a).andThen (ih _)

theorem poll_reports (s : Studio σ) : (s.poll analyzer now).Reports s :=
  dispatchAll_reports analyzer now s.inbox (s.withInbox [])

theorem wait_reports (arrivals : List Arrival) (s : Studio σ) :
    (wait analyzer now arrivals s).Reports s := by
  induction arrivals generalizing s with
  | nil => exact s.poll_reports analyzer now
  | cons arrival arrivals ih =>
    refine (s.poll_reports analyzer now).andThen ?_
    split
    · -- an answer that comes in waits outside the session
      rcases ih ((s.poll analyzer now).studio.deliver arrival.backend arrival.place) with
        hchanged | hsame
      · exact .inl hchanged
      · exact .inr (hsame.trans (session_deliver ..))
    · exact .inr rfl

theorem dispatchAndWait_reports (arrivals : Studio σ → List Arrival) (s : Studio σ)
    (a : Action σ) : (s.dispatchAndWait analyzer now arrivals a).Reports s :=
  (s.dispatch_reports analyzer now a).andThen (wait_reports analyzer now _ _)

/-- Whether a move is reported to have changed the session. -/
def reports (s : Studio σ) : Move σ → Bool
  | .act now a => (s.dispatch analyzer now a).changed
  | .answer .. => false
  | .take now =>
    match s.inbox with
    | [] => false
    | a :: inbox => ((s.withInbox inbox).dispatch analyzer now a).changed

theorem session_move_of_not_reports {p : Progress σ} {m : Move σ}
    (h : p.studio.reports analyzer m = false) :
    (p.move analyzer m).studio.session = p.studio.session := by
  cases m with
  | act now a =>
    exact (p.studio.dispatch_reports analyzer now a).resolve_left (Bool.eq_false_iff.mp h)
  | answer backend place => exact session_deliver backend place p.studio
  | take now =>
    rw [reports] at h
    rw [Progress.move]
    split
    · rfl
    · next a inbox hinbox =>
      rw [hinbox] at h
      exact ((p.studio.withInbox inbox).dispatch_reports analyzer now a).resolve_left
        (Bool.eq_false_iff.mp h)

theorem session_follow_of_not_reports {p : Progress σ} {moves : List (Move σ)}
    (h : ∀ before m later, moves = before ++ m :: later →
      (p.follow analyzer before).studio.reports analyzer m = false) :
    (p.follow analyzer moves).studio.session = p.studio.session := by
  induction moves generalizing p with
  | nil => rfl
  | cons m moves ih =>
    have hfirst := session_move_of_not_reports analyzer (h [] m moves rfl)
    refine (ih fun before m' later heq => ?_).trans hfirst
    exact h (m :: before) m' later (by rw [heq, List.cons_append])

/-- Whatever is done, by one action with all that follows from it, by a look into the inbox, by a
wait or by any row of moves, the session is as it was unless a change is reported. -/
theorem unreported_session_is_same (analyzer : Option (Analyzer σ)) (s : Studio σ) :
    (∀ now a, (s.session.dispatch now a).changed = false →
      (s.session.dispatch now a).session = s.session) ∧
    (∀ now a, (s.dispatch analyzer now a).changed = false →
      (s.dispatch analyzer now a).studio.session = s.session) ∧
    (∀ now, (s.poll analyzer now).changed = false →
      (s.poll analyzer now).studio.session = s.session) ∧
    (∀ now arrivals, (s.wait analyzer now arrivals).changed = false →
      (s.wait analyzer now arrivals).studio.session = s.session) ∧
    (∀ now arrivals a, (s.dispatchAndWait analyzer now arrivals a).changed = false →
      (s.dispatchAndWait analyzer now arrivals a).studio.session = s.session) ∧
    ∀ moves, (∀ before m later, moves = before ++ m :: later →
        (s.after analyzer before).studio.reports analyzer m = false) →
      (s.after analyzer moves).studio.session = s.session := by
  refine ⟨?_, ?_, ?_, ?_, ?_, ?_⟩
  · intro now a h
    exact (s.session.dispatch_reports now a).resolve_left (Bool.eq_false_iff.mp h)
  · intro now a h
    exact (s.dispatch_reports analyzer now a).resolve_left (Bool.eq_false_iff.mp h)
  · intro now h
    exact (s.poll_reports analyzer now).resolve_left (Bool.eq_false_iff.mp h)
  · intro now arrivals h
    exact (s.wait_reports analyzer now arrivals).resolve_left (Bool.eq_false_iff.mp h)
  · intro now arrivals a h
    exact (s.dispatchAndWait_reports analyzer now arrivals a).resolve_left (Bool.eq_false_iff.mp h)
  · exact fun moves h => session_follow_of_not_reports analyzer (p := .ofStudio s) h

theorem unreported_session_is_same_superseded :
    let backend : Backend := ⟨fun _ => .ok [⟨"/c", "x"⟩], fun _ => .error .notFound⟩
    let moves : List (Move Nat) :=
      [.act 0 (.selectTool "std@json v1.0.0"), .act 1 (.saveFile "a" "x"),
        .act 2 (.workspaceOpen "b"), .act 3 (.workspaceOpen "c"), .answer backend 0]
    let analyzer := some countingAnalyzer
    let s := ((ofSession (.start .default)).after analyzer moves).studio
    (s.dispatch analyzer 4 .reloadTool).changed = false ∧
      (s.dispatch analyzer 4 .reloadTool).studio.channel.version = s.channel.version + 1 ∧
      (s.dispatch analyzer 4 .reloadTool).studio.session = s.session ∧
      s.inbox.length = 1 ∧ (s.poll analyzer 5).changed = false ∧
      (s.poll analyzer 5).studio.inbox.length = 0 ∧
      (s.poll analyzer 5).studio.session = s.session := by
  intro backend moves analyzer s
  have htold : (s.dispatch analyzer 4 .reloadTool).changed = false := by decide +kernel
  have hpolled : (s.poll analyzer 5).changed = false := by decide +kernel
  obtain ⟨-, hdispatch, hpoll, -⟩ := unreported_session_is_same analyzer s
  exact ⟨htold, by decide +kernel, hdispatch 4 _ htold, by decide +kernel, hpolled,
    by decide +kernel, hpoll 5 hpolled⟩

end Studio
end FlowStudio
