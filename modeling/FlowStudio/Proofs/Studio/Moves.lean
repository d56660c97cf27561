import FlowStudio.Proofs.Studio.Turns

/-! Studios to which one thing happens after the other. Looking into the inbox and waiting for
answers are rows of such moves. -/

namespace FlowStudio
variable {σ : Type}

/-- Something is done in the studio, the server answers the outstanding request at a place, or the
oldest answer is taken out of the inbox. -/
inductive Move (σ : Type) where
  | act (now : Nat) (action : Action σ)
  | answer (backend : Backend) (place : Nat)
  | take (now : Nat)

/-- Where a studio has come to, what it did on the way and which answers it took. -/
structure Progress (σ : Type) where
  studio : Studio σ
  events : List (Event σ)
  taken : List (Action σ)

def Studio.withInbox (s : Studio σ) (inbox : List (Action σ)) : Studio σ := { s with inbox }

namespace Progress

def ofStudio (s : Studio σ) : Progress σ := ⟨s, [], []⟩

def move (analyzer : Option (Analyzer σ)) (p : Progress σ) : Move σ → Progress σ
  | .act now a =>
    let t := p.studio.dispatch analyzer now a
    ⟨t.studio, p.events ++ t.events, p.taken⟩
  | .answer backend place => { p with studio := p.studio.deliver backend place }
  | .take now =>
    match p.studio.inbox with
    | [] => p
    | a :: inbox =>
      let t := (p.studio.withInbox inbox).dispatch analyzer now a
      ⟨t.studio, p.events ++ t.events, p.taken ++ [a]⟩

def follow (analyzer : Option (Analyzer σ)) (p : Progress σ) (moves : List (Move σ)) :
    Progress σ := moves.foldl (move analyzer) p

theorem follow_append (analyzer : Option (Analyzer σ)) (p : Progress σ)
    (moves more : List (Move σ)) :
    p.follow analyzer (moves ++ more) = (p.follow analyzer moves).follow analyzer more :=
  List.foldl_append

end Progress

namespace Studio
variable {analyzer : Option (Analyzer σ)} {now : Nat}

def after (analyzer : Option (Analyzer σ)) (s : Studio σ) (moves : List (Move σ)) : Progress σ :=
  (Progress.ofStudio s).follow analyzer moves

def polling (now : Nat) (s : Studio σ) : List (Move σ) := List.replicate s.inbox.length (.take now)

def waiting (analyzer : Option (Analyzer σ)) (now : Nat) : List Arrival → Studio σ → List (Move σ)
  | [], s => s.polling now
  | a :: arrivals, s =>
    let t := (s.poll analyzer now).studio
    s.polling now ++
      if t.session.hasPending then
        .answer a.backend a.place :: waiting analyzer now arrivals (t.deliver a.backend a.place)
      else []

section
variable (analyzer : Option (Analyzer σ)) (now : Nat) (s : Studio σ) (inbox : List (Action σ))

theorem perform_withInbox (e : Effect σ) : (s.withInbox inbox).perform analyzer e =
    ((s.perform analyzer e).1.withInbox inbox, (s.perform analyzer e).2) := by
  cases e with
  | parseWorkspace files => cases analyzer <;> rfl
  | generateFlow system =>
    cases analyzer with
    | none => rfl
    | some a =>
      unfold perform
      dsimp only
      split <;> rfl
  | postSystem message => rfl
  | loadWorkspace request id => rfl
  | createWorkspace request files => rfl

theorem performAll_withInbox (effects : List (Effect σ)) :
    (s.withInbox inbox).performAll analyzer effects =
      ((s.performAll analyzer effects).1.withInbox inbox, (s.performAll analyzer effects).2) := by
  induction effects generalizing s with
  | nil => rfl
  | cons e effects ih => simp only [performAll, perform_withInbox, ih]

theorem advance_withInbox (a : Action σ) : (s.withInbox inbox).advance analyzer now a =
    ((s.advance analyzer now a).1.withInbox inbox, (s.advance analyzer now a).2) :=
  performAll_withInbox analyzer { s with session := (s.session.dispatch now a).session } inbox _

theorem run_withInbox (fuel : Nat) (queue : List (Action σ)) :
    (run analyzer now fuel (s.withInbox inbox) queue).1.studio =
        (run analyzer now fuel s queue).1.studio.withInbox inbox ∧
      (run analyzer now fuel (s.withInbox inbox) queue).1.events =
        (run analyzer now fuel s queue).1.events := by
  induction fuel generalizing s queue with
  | zero => exact ⟨rfl, rfl⟩
  | succ fuel ih =>
    cases queue with
    | nil => exact ⟨rfl, rfl⟩
    | cons a queue =>
      obtain ⟨hstudio, hevents⟩ := ih (s.advance analyzer now a).1
        (queue ++ (s.advance analyzer now a).2.1)
      rw [studio_run_cons, studio_run_cons, events_run_cons, events_run_cons, advance_withInbox]
      exact ⟨hstudio, congrArg _ hevents⟩

end

theorem session_deliver (backend : Backend) (place : Nat) (s : Studio σ) :
    (s.deliver backend place).session = s.session := by
  rw [deliver]
  split <;> rfl

theorem mem_inbox_deliver {backend : Backend} {place : Nat} {s : Studio σ} {a : Action σ}
    (h : a ∈ (s.deliver backend place).inbox) :
    a ∈ s.inbox ∨ ∃ job ∈ s.outstanding, a = job.completion backend := by
  rw [deliver] at h
  split at h
  · exact .inl h
  · next job hjob =>
    refine (List.mem_append.mp h).imp_right fun hnew => ?_
    exact ⟨job, List.mem_of_getElem? hjob, List.mem_singleton.mp hnew⟩

/-- Answers that are taken one by one come to the same as when they are taken all at once. -/
theorem follow_takes {s : Studio σ} (hempty : s.inbox = []) (es : List (Event σ))
    (taken inbox : List (Action σ)) :
    Progress.follow analyzer ⟨s.withInbox inbox, es, taken⟩
        (List.replicate inbox.length (.take now)) =
      ⟨(dispatchAll analyzer now inbox s).studio, es ++ (dispatchAll analyzer now inbox s).events,
        taken ++ inbox⟩ := by
  induction inbox generalizing s es taken with
  | nil =>
    have hsame : s.withInbox [] = s := by rw [withInbox, ← hempty]
    rw [hsame, dispatchAll, List.append_nil, List.append_nil]
    rfl
  | cons a inbox ih =>
    obtain ⟨hstudio, hevents⟩ := run_withInbox analyzer now s inbox 3 [a]
    have hfirst : Progress.move analyzer ⟨s.withInbox (a :: inbox), es, taken⟩ (.take now) =
        ⟨(s.dispatch analyzer now a).studio.withInbox inbox,
          es ++ (s.dispatch analyzer now a).events, taken ++ [a]⟩ := by
      show (⟨((s.withInbox inbox).dispatch analyzer now a).studio,
        es ++ ((s.withInbox inbox).dispatch analyzer now a).events, taken ++ [a]⟩ : Progress σ) = _
      rw [dispatch, hstudio, hevents]
      rfl
    have hinbox := (extends_dispatch analyzer now s a).inbox_eq.trans hempty
    rw [List.length_cons, List.replicate_succ, Progress.follow, List.foldl_cons, hfirst]
    refine (ih hinbox _ _).trans ?_
    rw [dispatchAll, List.append_assoc, List.append_assoc]
    rfl

theorem follow_polling (analyzer : Option (Analyzer σ)) (now : Nat) (p : Progress σ) :
    p.follow analyzer (p.studio.polling now) =
      ⟨(p.studio.poll analyzer now).studio, p.events ++ (p.studio.poll analyzer now).events,
        p.taken ++ p.studio.inbox⟩ :=
  follow_takes (s := p.studio.withInbox []) rfl p.events p.taken p.studio.inbox

theorem follow_waiting (analyzer : Option (Analyzer σ)) (now : Nat) (arrivals : List Arrival)
    (p : Progress σ) :
    (p.follow analyzer (p.studio.waiting analyzer now arrivals)).studio =
        (p.studio.wait analyzer now arrivals).studio ∧
      (p.follow analyzer (p.studio.waiting analyzer now arrivals)).events =
        p.events ++ (p.studio.wait analyzer now arrivals).events := by
  induction arrivals generalizing p with
  | nil =>
    rw [waiting, follow_polling]
    exact ⟨rfl, rfl⟩
  | cons a arrivals ih =>
    have hpolled := follow_polling analyzer now p
    rw [waiting, Progress.follow_append, hpolled, wait, Turn.andThen]
    dsimp only
    split
    · obtain ⟨hstudio, hevents⟩ := ih ⟨(p.studio.poll analyzer now).studio.deliver a.backend a.place,
        p.events ++ (p.studio.poll analyzer now).events, p.taken ++ p.studio.inbox⟩
      exact ⟨hstudio, hevents.trans (List.append_assoc ..)⟩
    · exact ⟨rfl, by rw [List.append_nil]; rfl⟩

end Studio
end FlowStudio
