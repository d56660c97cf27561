import FlowStudio.Proofs.Studio.Balance

/-! A request is pending while its answer is on its way or waits in the inbox, and no longer. So
looking into the inbox comes to an end, and so does waiting for answers. -/

namespace FlowStudio
variable {σ : Type} {analyzer : Option (Analyzer σ)}

namespace Studio

theorem notMem_polling (s : Studio σ) {now u : Nat} {a : Action σ} :
    .act u a ∉ s.polling now := by
  intro hmem
  have heq := List.eq_of_mem_replicate hmem
  exact absurd heq (by simp)

theorem notMem_waiting (s : Studio σ) {now u : Nat} {a : Action σ} (arrivals : List Arrival) :
    .act u a ∉ s.waiting analyzer now arrivals := by
  induction arrivals generalizing s with
  | nil => exact s.notMem_polling
  | cons arrival arrivals ih =>
    rw [waiting]
    intro hmem
    rcases List.mem_append.mp hmem with hmem | hmem
    · exact s.notMem_polling hmem
    · split at hmem
      · exact ih _ ((List.mem_cons.mp hmem).resolve_left (by simp))
      · exact List.not_mem_nil hmem

theorem extends_dispatchAll (analyzer : Option (Analyzer σ)) (now : Nat) (actions : List (Action σ))
    (s : Studio σ) : s.Extends (dispatchAll analyzer now actions s).events
      (dispatchAll analyzer now actions s).studio := by
  induction actions generalizing s with
  | nil => exact .refl s
  | cons a actions ih => exact (extends_dispatch analyzer now s a).trans (ih _)

theorem extends_poll (analyzer : Option (Analyzer σ)) (now : Nat) (s : Studio σ) :
    (s.withInbox []).Extends (s.poll analyzer now).events (s.poll analyzer now).studio :=
  extends_dispatchAll analyzer now s.inbox (s.withInbox [])

theorem balanced_poll {start : UInt64} {p : Progress σ} (h : p.Balanced start)
    (hall : p.studio.outstanding = []) (now : Nat) :
    let q := p.follow analyzer (p.studio.polling now)
    q.studio = (p.studio.poll analyzer now).studio ∧ q.studio.session.hasPending = false ∧
      q.studio.outstanding = [] ∧ q.studio.inbox = [] ∧
      (q.taken.map Action.completion?).Perm ((spawned q.events).map (some ·.key)) := by
  intro q
  have hfollow := follow_polling analyzer now p
  have hpolled : q.studio = (p.studio.poll analyzer now).studio := congrArg Progress.studio hfollow
  have hlater : q.Balanced start := h.follow fun u a hmem => absurd hmem p.studio.notMem_polling
  have hquiet : q.events = p.events := h.events_follow fun u a => p.studio.notMem_polling
  have hevents : (p.studio.poll analyzer now).events = [] := by
    have heq := (congrArg Progress.events hfollow).symm.trans hquiet
    exact List.append_right_eq_self.mp heq
  have hgrows := extends_poll analyzer now p.studio
  have hinbox : q.studio.inbox = [] := by
    rw [hpolled, hgrows.inbox_eq]
    rfl
  have houtstanding : q.studio.outstanding = [] := by
    rw [hpolled, hgrows.outstanding_eq, hevents]
    exact List.append_eq_nil_iff.mpr ⟨hall, rfl⟩
  have hnil : q.studio.unapplied = [] := by
    rw [unapplied, hinbox, houtstanding]
    rfl
  obtain ⟨hidle, hanswered⟩ := hlater.of_unapplied_eq_nil hnil
  exact ⟨hpolled, hidle, houtstanding, hinbox, hanswered⟩

/-- A request is pending only while exactly one request of its kind and number is unapplied, and
nothing is sent out by an answer. When all answers have come and the inbox was looked into, nothing
is pending and every request was answered once. Unless something is done, no more answers are taken
than there are requests to be answered, however long the wait. -/
theorem pending_is_outstanding (analyzer : Option (Analyzer σ)) (session : Session σ)
    (hidle : session.hasPending = false) (moves : List (Move σ))
    (huser : ∀ now a, .act now a ∈ moves → a.completion? = none)
    (hnew : (spawned ((ofSession session).after analyzer moves).events).length < UInt64.size) :
    let p := (ofSession session).after analyzer moves
    let s := p.studio
    let requests := (spawned p.events).map Job.key
    requests.Nodup ∧ requests.Perm (p.taken.filterMap Action.completion? ++ s.unapplied) ∧
    (∀ kind request, s.session.requests.pending? kind = some request →
      s.unapplied.count (kind, request) = 1) ∧
    (∀ (t : Studio σ) now a, a.completion?.isSome = true →
      (t.session.dispatch now a).effects = [] ∧ (t.dispatch analyzer now a).events = [] ∧
      (t.dispatch analyzer now a).studio.outstanding = t.outstanding) ∧
    (s.outstanding = [] → ∀ now,
      let q := p.follow analyzer (s.polling now)
      q.studio = (s.poll analyzer now).studio ∧ q.studio.session.hasPending = false ∧
      q.studio.outstanding = [] ∧ q.studio.inbox = [] ∧
      (q.taken.map Action.completion?).Perm ((spawned q.events).map (some ·.key))) ∧
    (∀ more, (∀ now a, .act now a ∉ more) →
      (p.follow analyzer more).taken.length ≤ p.taken.length + s.unapplied.length) ∧
    (∀ now,
      let q := p.follow analyzer (s.polling now)
      q.studio = (s.poll analyzer now).studio ∧
      q.taken.length ≤ p.taken.length + s.unapplied.length) ∧
    ∀ now arrivals,
      let q := p.follow analyzer (s.waiting analyzer now arrivals)
      q.studio = (s.wait analyzer now arrivals).studio ∧
      q.taken.length ≤ p.taken.length + s.unapplied.length := by
  intro p s requests
  have hbalanced : p.Balanced session.requests.next :=
    (Progress.Balanced.ofStudio hidle).follow huser
  have hnodup := hbalanced.nodup_spawned hnew
  refine ⟨hnodup, hbalanced.perm, ?_, ?_, ?_, ?_, ?_, ?_⟩
  · intro kind request hpending
    have hunapplied := ((hbalanced.perm.nodup_iff.mp hnodup).of_append_right)
    exact List.count_eq_one_of_mem hunapplied (hbalanced.unapplied_of_pending hpending)
  · intro t now a ha
    obtain ⟨key, hkey⟩ := Option.isSome_iff_exists.mp ha
    obtain ⟨heffects, hevents, hstudio⟩ := dispatch_of_completion hkey analyzer now t
    exact ⟨heffects, hevents, by rw [hstudio]⟩
  · exact fun hall now => balanced_poll hbalanced hall now
  · exact fun more hno => hbalanced.length_taken_follow hno
  · intro now q
    exact ⟨congrArg Progress.studio (follow_polling analyzer now p),
      hbalanced.length_taken_follow fun u a => s.notMem_polling⟩
  · intro now arrivals q
    exact ⟨(follow_waiting analyzer now arrivals p).1,
      hbalanced.length_taken_follow fun u a => s.notMem_waiting arrivals⟩

def crossedMoves : List (Move Nat) :=
  let backend : Backend := ⟨fun id => .ok [⟨"/" ++ id, "x"⟩], fun _ => .ok "new"⟩
  [.act 0 (.workspaceOpen "a"), .act 1 (.workspaceOpen "b"), .act 2 .workspaceCreate,
    .answer backend 1, .answer backend 0, .take 3, .act 4 (.workspaceOpen "c"),
    .answer backend 1, .answer backend 0]

theorem pending_is_outstanding_crossed :
    let p := (ofSession (.start .default)).after none crossedMoves
    p.studio.session.requests.pending? .load = some 3 ∧
      p.studio.unapplied.count (.load, 3) = 1 ∧ p.studio.outstanding = [] ∧
      p.studio.inbox.length = 3 ∧ (p.studio.poll none 5).studio.session.hasPending = false := by
  intro p
  have hload : p.studio.session.requests.pending? .load = some 3 := by decide +kernel
  have hall : p.studio.outstanding = [] := by decide +kernel
  have huser : ∀ now a, .act now a ∈ crossedMoves → a.completion? = none := by
    intro now a hmem
    simp only [crossedMoves, List.mem_cons, Move.act.injEq, reduceCtorEq, List.not_mem_nil,
      or_false, false_or] at hmem
    rcases hmem with ⟨-, rfl⟩ | ⟨-, rfl⟩ | ⟨-, rfl⟩ | ⟨-, rfl⟩ <;> rfl
  obtain ⟨-, -, hcount, -, hpolled, -⟩ :=
    pending_is_outstanding none (.start .default) rfl crossedMoves huser (by decide +kernel)
  obtain ⟨hstudio, hidle, -⟩ := hpolled hall 5
  exact ⟨hload, hcount .load 3 hload, hall, by decide +kernel, hstudio ▸ hidle⟩

end Studio
end FlowStudio
