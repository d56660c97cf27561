import FlowStudio.Proofs.Studio.Performing

/-! A turn of a studio goes from an action to the last one that follows from it. It is never cut
short, and what each action of it keeps, the turn keeps. -/

namespace FlowStudio
variable {σ : Type} {analyzer : Option (Analyzer σ)} {now : Nat} {s : Studio σ} {a b : Action σ}

def Action.IsFlow (a : Action σ) : Prop :=
  (∃ design, a = .flowGenerated design) ∨ ∃ text, a = .flowFailed text

theorem Effect.exists_follow?_parseWorkspace (analyzer : Option (Analyzer σ)) (files : List Leaf) :
    ∃ result, (Effect.parseWorkspace files).follow? analyzer = some (.parseFinished result) := by
  cases analyzer with
  | none => exact ⟨_, rfl⟩
  | some a => exact ⟨_, rfl⟩

theorem Effect.exists_follow?_generateFlow (analyzer : Option (Analyzer σ)) (system : σ) :
    ∃ b, (Effect.generateFlow system).follow? analyzer = some b ∧ b.IsFlow := by
  cases analyzer with
  | none => exact ⟨_, rfl, .inr ⟨_, rfl⟩⟩
  | some a =>
    rw [follow?]
    split
    · exact ⟨_, rfl, .inl ⟨_, rfl⟩⟩
    · exact ⟨_, rfl, .inr ⟨_, rfl⟩⟩

theorem Session.follow?_postEffects (analyzer : Option (Analyzer σ)) (s : Session σ) :
    s.postEffects.filterMap (Effect.follow? analyzer) = [] := by
  unfold postEffects
  cases s.toolMessage? <;> rfl

theorem Action.IsFlow.followers_eq (h : a.IsFlow) : a.followers = 0 := by
  rcases h with ⟨design, rfl⟩ | ⟨text, rfl⟩ <;> rfl

theorem Action.IsFlow.completion?_eq (h : a.IsFlow) : a.completion? = none := by
  rcases h with ⟨design, rfl⟩ | ⟨text, rfl⟩ <;> rfl

theorem Action.IsFlow.effects_eq (h : a.IsFlow) (s : Session σ) (now : Nat) :
    (s.dispatch now a).effects = [] := by
  rcases h with ⟨design, rfl⟩ | ⟨text, rfl⟩ <;> rfl

namespace Studio

theorem advance_actions (analyzer : Option (Analyzer σ)) (now : Nat) (s : Studio σ)
    (a : Action σ) : (s.advance analyzer now a).2.1 = [] ∨
      ∃ b, (s.advance analyzer now a).2.1 = [b] ∧ b.followers < a.followers ∧
        b.completion? = none := by
  rw [(performs_advance analyzer now s a).actions_eq]
  cases s.session.dispatch_asks now a with
  | nothing heffects _ => exact .inl (by rw [heffects, List.filterMap_nil])
  | check files heffects hfollowers _ =>
    obtain ⟨result, hfollow⟩ := Effect.exists_follow?_parseWorkspace analyzer files
    refine .inr ⟨.parseFinished result, ?_, ?_, rfl⟩
    · rw [heffects, List.filterMap_cons_some hfollow, List.filterMap_nil]
    · rw [hfollowers]
      exact Nat.one_lt_two
  | draw system heffects hfollowers =>
    obtain ⟨b, hfollow, hflow⟩ := Effect.exists_follow?_generateFlow analyzer system
    refine .inr ⟨b, ?_, ?_, hflow.completion?_eq⟩
    · rw [heffects, List.filterMap_cons_some hfollow, Session.follow?_postEffects]
    · rw [hfollowers, hflow.followers_eq]
      exact Nat.one_pos
  | post heffects => exact .inl (by rw [heffects, Session.follow?_postEffects])
  | load request id heffects _ => exact .inl (by rw [heffects]; rfl)
  | create request files heffects _ => exact .inl (by rw [heffects]; rfl)

theorem run_nil (fuel : Nat) (s : Studio σ) :
    run analyzer now fuel s [] = (⟨s, false, []⟩, []) := by
  cases fuel <;> rfl

section
variable (fuel : Nat) (s : Studio σ) (a : Action σ) (queue : List (Action σ))

theorem studio_run_cons : (run analyzer now (fuel + 1) s (a :: queue)).1.studio =
    (run analyzer now fuel (s.advance analyzer now a).1
      (queue ++ (s.advance analyzer now a).2.1)).1.studio := rfl

theorem events_run_cons : (run analyzer now (fuel + 1) s (a :: queue)).1.events =
    (s.advance analyzer now a).2.2 ++ (run analyzer now fuel (s.advance analyzer now a).1
      (queue ++ (s.advance analyzer now a).2.1)).1.events := rfl

theorem left_run_cons : (run analyzer now (fuel + 1) s (a :: queue)).2 =
    (run analyzer now fuel (s.advance analyzer now a).1
      (queue ++ (s.advance analyzer now a).2.1)).2 := rfl

end

theorem left_run {fuel : Nat} (h : a.followers < fuel) :
    (run analyzer now fuel s [a]).2 = [] := by
  induction fuel generalizing s a with
  | zero => exact absurd h (Nat.not_lt_zero _)
  | succ fuel ih =>
    rw [left_run_cons, List.nil_append]
    rcases advance_actions analyzer now s a with hnone | ⟨b, hone, hfewer, -⟩
    · rw [hnone, run_nil]
    · rw [hone]
      exact ih (Nat.lt_of_lt_of_le hfewer (Nat.le_of_lt_succ h))

/-- The fuel of a dispatch is no limit to what it does. -/
theorem left_dispatch (analyzer : Option (Analyzer σ)) (now : Nat) (s : Studio σ)
    (a : Action σ) : (run analyzer now 3 s [a]).2 = [] := by
  apply left_run
  cases a <;> simp [Action.followers]

/-- A relation that holds over every action of a kind that is followed by its own kind holds over
whole turns. -/
theorem run_keeps {Q : Action σ → Prop} {R : Studio σ → List (Event σ) → Studio σ → Prop}
    (hrefl : ∀ s, R s [] s) (htrans : ∀ {s t u es fs}, R s es t → R t fs u → R s (es ++ fs) u)
    (hstep : ∀ s a, Q a → R s (advance analyzer now s a).2.2 (advance analyzer now s a).1)
    (hnext : ∀ s a, Q a → ∀ b ∈ (advance analyzer now s a).2.1, Q b)
    (fuel : Nat) (s : Studio σ) {queue : List (Action σ)} (hqueue : ∀ a ∈ queue, Q a) :
    R s (run analyzer now fuel s queue).1.events (run analyzer now fuel s queue).1.studio := by
  induction fuel generalizing s queue with
  | zero => exact hrefl s
  | succ fuel ih =>
    cases queue with
    | nil => exact hrefl s
    | cons a queue =>
      obtain ⟨ha, hqueue⟩ := List.forall_mem_cons.mp hqueue
      rw [events_run_cons, studio_run_cons]
      exact htrans (hstep s a ha) (ih _ (List.forall_mem_append.mpr ⟨hqueue, hnext s a ha⟩))

theorem extends_dispatch (analyzer : Option (Analyzer σ)) (now : Nat) (s : Studio σ)
    (a : Action σ) :
    s.Extends (s.dispatch analyzer now a).events (s.dispatch analyzer now a).studio :=
  run_keeps (Q := fun _ => True) Extends.refl Extends.trans
    (fun s a _ => extends_advance analyzer now s a) (fun _ _ _ _ _ => trivial) 3 s
    (fun _ _ => trivial)

theorem run_of_last (h : (s.advance analyzer now a).2.1 = []) (fuel : Nat) :
    (run analyzer now (fuel + 1) s [a]).1.studio = (s.advance analyzer now a).1 ∧
      (run analyzer now (fuel + 1) s [a]).1.events = (s.advance analyzer now a).2.2 := by
  rw [studio_run_cons, events_run_cons, h, List.nil_append, run_nil]
  exact ⟨rfl, List.append_nil _⟩

theorem dispatch_of_completion {key : RequestKind × UInt64} (ha : a.completion? = some key)
    (analyzer : Option (Analyzer σ)) (now : Nat) (s : Studio σ) :
    (s.session.dispatch now a).effects = [] ∧ (s.dispatch analyzer now a).events = [] ∧
      (s.dispatch analyzer now a).studio =
        { s with session := (s.session.dispatch now a).session } := by
  have heffects : (s.session.dispatch now a).effects = [] := by
    by_cases hp : s.session.requests.pending? key.1 = some key.2
    · exact (Session.dispatch_ends ha hp now).effects_eq
    · rw [Session.dispatch_dropped ha hp now]
      rfl
  have hadvance : s.advance analyzer now a =
      ({ s with session := (s.session.dispatch now a).session }, [], []) := by
    rw [advance, heffects]
    rfl
  obtain ⟨hstudio, hevents⟩ := run_of_last (congrArg (·.2.1) hadvance) 2
  rw [dispatch, hstudio, hevents, hadvance]
  exact ⟨heffects, rfl, rfl⟩

end Studio
end FlowStudio
