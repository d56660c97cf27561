import FlowStudio.Proofs.Studio.Moves
import Mathlib.Data.List.Nodup
import Mathlib.Data.List.Perm.Basic

/-! Requests and their answers in balance. Whatever happens to a studio, each request that was sent
out was answered by what was taken in or is still to be answered, and what is pending is among the
latter. -/

namespace FlowStudio
variable {σ : Type} {analyzer : Option (Analyzer σ)} {start : UInt64}

def Studio.unapplied (s : Studio σ) : List (RequestKind × UInt64) :=
  s.outstanding.map Job.key ++ s.inbox.filterMap Action.completion?

/-- The requests sent out have numbers in a row. Each of them was answered by what was taken in or
is still to be answered, and so are those that are pending. -/
structure Progress.Balanced (start : UInt64) (p : Progress σ) : Prop where
  numbers_eq : (spawned p.events).map (·.key.2) =
    (List.range (spawned p.events).length).map (start + UInt64.ofNat ·)
  next_eq : p.studio.session.requests.next = start + UInt64.ofNat (spawned p.events).length
  perm : ((spawned p.events).map Job.key).Perm
    (p.taken.filterMap Action.completion? ++ p.studio.unapplied)
  answers_taken : ∀ a ∈ p.taken, a.completion?.isSome = true
  answers_waiting : ∀ a ∈ p.studio.inbox, a.completion?.isSome = true
  unapplied_of_pending : ∀ {kind request},
    p.studio.session.requests.pending? kind = some request → (kind, request) ∈ p.studio.unapplied

namespace Studio
variable {s : Studio σ}

theorem unapplied_deliver_perm (s : Studio σ) (backend : Backend) (place : Nat) :
    (s.deliver backend place).unapplied.Perm s.unapplied := by
  rw [deliver]
  split
  · exact .refl _
  · next job hjob =>
    obtain ⟨hlt, rfl⟩ := List.getElem?_eq_some_iff.mp hjob
    have hanswer := Job.completion?_completion (σ := σ) backend s.outstanding[place]
    have hall := (List.getElem_cons_eraseIdx_perm hlt).map Job.key
    rw [unapplied, unapplied, List.filterMap_append, List.filterMap_cons_some hanswer,
      List.filterMap_nil]
    -- the request moves from its place to the end of the row
    have hlast : (s.inbox.filterMap Action.completion? ++ [s.outstanding[place].key]).Perm
        (s.outstanding[place].key :: s.inbox.filterMap Action.completion?) := List.perm_append_comm
    exact ((hlast.append_left _).trans List.perm_middle).trans (hall.append_right _)

theorem unapplied_perm_of_extends {t : Studio σ} {es : List (Event σ)} (h : s.Extends es t) :
    t.unapplied.Perm (s.unapplied ++ (spawned es).map Job.key) := by
  rw [unapplied, unapplied, h.inbox_eq, h.outstanding_eq, List.map_append, List.append_assoc,
    List.append_assoc]
  exact List.perm_append_comm.append_left _

theorem mem_unapplied_of_extends {t : Studio σ} {es : List (Event σ)} (h : s.Extends es t)
    {key : RequestKind × UInt64} :
    key ∈ t.unapplied ↔ key ∈ s.unapplied ∨ key ∈ (spawned es).map Job.key :=
  (unapplied_perm_of_extends h).mem_iff.trans List.mem_append

end Studio

theorem Session.pending?_dispatch_of_completion {s : Session σ} {a : Action σ}
    {key : RequestKind × UInt64} (ha : a.completion? = some key) {now : Nat} {kind : RequestKind}
    {request : UInt64}
    (h : (s.dispatch now a).session.requests.pending? kind = some request) :
    s.requests.pending? kind = some request ∧ (kind, request) ≠ key := by
  obtain ⟨other, number⟩ := key
  by_cases hp : s.requests.pending? other = some number
  · rw [(Session.dispatch_ends ha hp now).pending?_eq] at h
    split at h
    · exact absurd h.symm (Option.some_ne_none request)
    · next hne => exact ⟨h, fun heq => hne (Prod.mk.inj heq).1⟩
  · rw [Session.dispatch_dropped ha hp now] at h
    refine ⟨h, fun heq => hp ?_⟩
    obtain ⟨rfl, rfl⟩ := Prod.mk.inj heq
    exact h

theorem Session.next_dispatch_of_completion {s : Session σ} {a : Action σ}
    {key : RequestKind × UInt64} (ha : a.completion? = some key) (now : Nat) :
    (s.dispatch now a).session.requests.next = s.requests.next := by
  by_cases hp : s.requests.pending? key.1 = some key.2
  · exact (Session.dispatch_ends ha hp now).next_eq
  · rw [Session.dispatch_dropped ha hp now]
    rfl

namespace Progress
variable {p : Progress σ} {now : Nat}

theorem move_take_nil (h : p.studio.inbox = []) : p.move analyzer (.take now) = p := by
  rw [move, h]

theorem move_take_cons {a : Action σ} {inbox : List (Action σ)} {key : RequestKind × UInt64}
    (h : p.studio.inbox = a :: inbox) (ha : a.completion? = some key) :
    p.move analyzer (.take now) = ⟨{ p.studio.withInbox inbox with
      session := (p.studio.session.dispatch now a).session }, p.events, p.taken ++ [a]⟩ := by
  obtain ⟨-, hevents, hstudio⟩ :=
    Studio.dispatch_of_completion ha analyzer now (p.studio.withInbox inbox)
  rw [move, h]
  dsimp only
  rw [hevents, hstudio, List.append_nil]
  rfl

end Progress

namespace Progress.Balanced
variable {p : Progress σ}

theorem ofStudio {session : Session σ} (hidle : session.hasPending = false) :
    Balanced session.requests.next (.ofStudio (.ofSession session)) := by
  have hnone : ∀ kind, session.requests.pending? kind = none := by
    intro kind
    obtain ⟨hload, hcreate⟩ := Bool.or_eq_false_iff.mp hidle
    cases kind with
    | load => exact Option.isSome_eq_false_iff.mp hload |> Option.isNone_iff_eq_none.mp
    | create => exact Option.isSome_eq_false_iff.mp hcreate |> Option.isNone_iff_eq_none.mp
  refine ⟨rfl, ?_, .refl _, fun a ha => absurd ha List.not_mem_nil,
    fun a ha => absurd ha List.not_mem_nil, ?_⟩
  · exact (UInt64.add_zero session.requests.next).symm
  · intro kind request hpending
    exact absurd (hpending.symm.trans (hnone kind)) (Option.some_ne_none request)

section
variable {t : Studio σ} {es : List (Event σ)} (h : p.Balanced start)
  (hgrows : p.studio.Extends es t)
include h hgrows

theorem perm_of_extends : ((spawned (p.events ++ es)).map Job.key).Perm
    (p.taken.filterMap Action.completion? ++ t.unapplied) := by
  rw [spawned_append, List.map_append]
  refine (h.perm.append_right _).trans ?_
  rw [List.append_assoc]
  exact (Studio.unapplied_perm_of_extends hgrows).symm.append_left _

theorem extend_quiet (hnone : spawned es = [])
    (hrequests : t.session.requests = p.studio.session.requests) :
    Balanced start ⟨t, p.events ++ es, p.taken⟩ := by
  have hsame : spawned (p.events ++ es) = spawned p.events := by
    rw [spawned_append, hnone, List.append_nil]
  refine ⟨?_, ?_, h.perm_of_extends hgrows, h.answers_taken, ?_, ?_⟩
  · rw [hsame]
    exact h.numbers_eq
  · rw [hsame, hrequests]
    exact h.next_eq
  · rw [hgrows.inbox_eq]
    exact h.answers_waiting
  · intro kind request hpending
    rw [hrequests] at hpending
    exact (Studio.mem_unapplied_of_extends hgrows).mpr (.inl (h.unapplied_of_pending hpending))

theorem extend_begins {kind : RequestKind} {job : Job} (hone : spawned es = [job])
    (hkey : job.key = (kind, p.studio.session.requests.next))
    (hrequests : t.session.requests = (p.studio.session.requests.begin kind).1) :
    Balanced start ⟨t, p.events ++ es, p.taken⟩ := by
  have hall : spawned (p.events ++ es) = spawned p.events ++ [job] := by
    rw [spawned_append, hone]
  refine ⟨?_, ?_, h.perm_of_extends hgrows, h.answers_taken, ?_, ?_⟩
  · rw [hall, List.map_append, h.numbers_eq, List.length_append, List.length_singleton,
      List.range_succ, List.map_append, List.map_singleton, List.map_singleton, hkey, h.next_eq]
  · rw [hall, hrequests, Requests.next_begin, h.next_eq, List.length_append,
      List.length_singleton, UInt64.ofNat_add, UInt64.add_assoc]
    rfl
  · rw [hgrows.inbox_eq]
    exact h.answers_waiting
  · intro other request hpending
    rw [hrequests, Requests.pending?_begin] at hpending
    rw [Studio.mem_unapplied_of_extends hgrows, hone]
    split at hpending
    · next hkind =>
      -- the request that has just been sent out
      rw [hkind, ← Option.some.inj hpending, List.map_singleton, hkey]
      exact .inr (List.mem_singleton_self _)
    · exact .inl (h.unapplied_of_pending hpending)

end

theorem advance (h : p.Balanced start) {a : Action σ} (ha : a.completion? = none) (now : Nat) :
    Balanced start ⟨(p.studio.advance analyzer now a).1,
      p.events ++ (p.studio.advance analyzer now a).2.2, p.taken⟩ := by
  have hgrows := Studio.extends_advance analyzer now p.studio a
  have hsession := Studio.session_advance analyzer now p.studio a
  have hkeys : (p.studio.session.dispatch now a).begun =
      (spawned (p.studio.advance analyzer now a).2.2).map Job.key := by
    rw [Outcome.begun_eq, (Studio.performs_advance analyzer now p.studio a).spawned_eq]
  rcases Session.dispatch_begins (s := p.studio.session) ha now with hquiet | ⟨kind, hbegins⟩
  · have hnone := List.map_eq_nil_iff.mp (hkeys.symm.trans hquiet.1)
    exact h.extend_quiet hgrows hnone (by rw [hsession, hquiet.2])
  · obtain ⟨job, hone, hkey⟩ := List.map_eq_singleton_iff.mp (hkeys.symm.trans hbegins.1)
    exact h.extend_begins hgrows hone hkey (by rw [hsession, hbegins.2])

theorem dispatch (h : p.Balanced start) {a : Action σ} (ha : a.completion? = none) (now : Nat) :
    Balanced start ⟨(p.studio.dispatch analyzer now a).studio,
      p.events ++ (p.studio.dispatch analyzer now a).events, p.taken⟩ := by
  let R (s : Studio σ) (es : List (Event σ)) (t : Studio σ) : Prop := ∀ past taken,
    Balanced start ⟨s, past, taken⟩ → Balanced start ⟨t, past ++ es, taken⟩
  have hkeeps : R p.studio (p.studio.dispatch analyzer now a).events
      (p.studio.dispatch analyzer now a).studio := by
    refine Studio.run_keeps (Q := fun b => b.completion? = none) ?_ ?_ ?_ ?_ 3 p.studio ?_
    · intro s past taken h
      rwa [List.append_nil]
    · intro s t u es fs hs ht past taken h
      rw [← List.append_assoc]
      exact ht _ taken (hs past taken h)
    · intro s b hb past taken h
      exact h.advance hb now
    · intro s b hb c hc
      rcases Studio.advance_actions analyzer now s b with hnone | ⟨d, hone, -, hd⟩
      · rw [hnone] at hc
        exact absurd hc List.not_mem_nil
      · rw [hone] at hc
        rw [List.mem_singleton.mp hc, hd]
    · intro b hb
      rw [List.mem_singleton.mp hb, ha]
  exact hkeeps p.events p.taken h

theorem answer (h : p.Balanced start) (backend : Backend) (place : Nat) :
    Balanced start { p with studio := p.studio.deliver backend place } := by
  have hperm := p.studio.unapplied_deliver_perm backend place
  have hsession := p.studio.session_deliver backend place
  refine ⟨h.numbers_eq, ?_, h.perm.trans (hperm.symm.append_left _), h.answers_taken, ?_, ?_⟩
  · show (p.studio.deliver backend place).session.requests.next = _
    rw [hsession]
    exact h.next_eq
  · show ∀ a ∈ (p.studio.deliver backend place).inbox, _
    rw [Studio.deliver]
    split
    · exact h.answers_waiting
    · next job _ =>
      intro a ha
      rcases List.mem_append.mp ha with ha | ha
      · exact h.answers_waiting a ha
      · rw [List.mem_singleton.mp ha, Job.completion?_completion]
        rfl
  · intro kind request hpending
    rw [hsession] at hpending
    exact hperm.mem_iff.mpr (h.unapplied_of_pending hpending)

theorem take (h : p.Balanced start) (now : Nat) :
    Balanced start (p.move analyzer (.take now)) ∧
      (p.move analyzer (.take now)).events = p.events := by
  cases hinbox : p.studio.inbox with
  | nil =>
    rw [move_take_nil hinbox]
    exact ⟨h, rfl⟩
  | cons a inbox =>
    have hwaiting := List.forall_mem_cons.mp (hinbox ▸ h.answers_waiting)
    obtain ⟨⟨kind, request⟩, ha⟩ := Option.isSome_iff_exists.mp hwaiting.1
    rw [move_take_cons hinbox ha]
    refine ⟨⟨h.numbers_eq, ?_, ?_, ?_, hwaiting.2, ?_⟩, rfl⟩
    · exact (Session.next_dispatch_of_completion ha now).trans h.next_eq
    · -- the answer goes over from those that wait to those that were taken
      refine h.perm.trans ?_
      rw [Studio.unapplied, hinbox, List.filterMap_cons_some ha, List.filterMap_append,
        List.filterMap_cons_some ha, List.filterMap_nil, List.append_assoc]
      exact List.perm_middle.append_left _
    · exact List.forall_mem_append.mpr ⟨h.answers_taken, List.forall_mem_singleton.mpr hwaiting.1⟩
    · intro other number hpending
      obtain ⟨hbefore, hne⟩ := Session.pending?_dispatch_of_completion ha hpending
      have hmem := h.unapplied_of_pending hbefore
      rw [Studio.unapplied, hinbox, List.filterMap_cons_some ha] at hmem
      exact (List.mem_cons.mp (List.perm_middle.mem_iff.mp hmem)).resolve_left hne

theorem move (h : p.Balanced start) {m : Move σ}
    (huser : ∀ now a, m = .act now a → a.completion? = none) :
    Balanced start (p.move analyzer m) := by
  cases m with
  | act now a => exact h.dispatch (huser now a rfl) now
  | answer backend place => exact h.answer backend place
  | take now => exact (h.take now).1

theorem follow (h : p.Balanced start) {moves : List (Move σ)}
    (huser : ∀ now a, .act now a ∈ moves → a.completion? = none) :
    Balanced start (p.follow analyzer moves) := by
  induction moves generalizing p with
  | nil => exact h
  | cons m moves ih =>
    refine ih (h.move ?_) fun now a hmem => huser now a (List.mem_cons_of_mem m hmem)
    intro now a hm
    exact huser now a (hm ▸ List.mem_cons_self)

theorem events_follow (h : p.Balanced start) {moves : List (Move σ)}
    (hno : ∀ now a, .act now a ∉ moves) : (p.follow analyzer moves).events = p.events := by
  induction moves generalizing p with
  | nil => rfl
  | cons m moves ih =>
    have hrest : ∀ now a, Move.act now a ∉ moves :=
      fun now a hmem => hno now a (List.mem_cons_of_mem m hmem)
    cases m with
    | act now a => exact absurd List.mem_cons_self (hno now a)
    | answer backend place => exact ih (h.answer backend place) hrest
    | take now => exact (ih (h.take now).1 hrest).trans (h.take now).2

theorem length_eq (h : p.Balanced start) :
    (spawned p.events).length = p.taken.length + p.studio.unapplied.length := by
  have hlength := h.perm.length_eq
  rwa [List.length_map, List.length_append,
    List.filterMap_length_eq_length.mpr h.answers_taken] at hlength

theorem length_taken_follow (h : p.Balanced start) {moves : List (Move σ)}
    (hno : ∀ now a, .act now a ∉ moves) :
    (p.follow analyzer moves).taken.length ≤ p.taken.length + p.studio.unapplied.length := by
  have hlater : Balanced start (p.follow analyzer moves) :=
    h.follow fun now a hmem => absurd hmem (hno now a)
  have hquiet : (p.follow analyzer moves).events = p.events := h.events_follow hno
  rw [← h.length_eq, ← hquiet, hlater.length_eq]
  exact Nat.le_add_right _ _

theorem nodup_spawned (h : p.Balanced start) (hnew : (spawned p.events).length < UInt64.size) :
    ((spawned p.events).map Job.key).Nodup := by
  apply List.Nodup.of_map Prod.snd
  rw [List.map_map]
  show ((spawned p.events).map (·.key.2)).Nodup
  rw [h.numbers_eq]
  refine List.Nodup.map_on (fun i hi j hj heq => ?_) List.nodup_range
  have hi := Nat.lt_trans (List.mem_range.mp hi) hnew
  have hj := Nat.lt_trans (List.mem_range.mp hj) hnew
  have hnat := congrArg UInt64.toNat ((UInt64.add_right_inj start).mp heq)
  rwa [UInt64.toNat_ofNat_of_lt' hi, UInt64.toNat_ofNat_of_lt' hj] at hnat

/-- When nothing is left to be answered, nothing is pending and all was answered. -/
theorem of_unapplied_eq_nil (h : p.Balanced start) (hnil : p.studio.unapplied = []) :
    p.studio.session.hasPending = false ∧
      (p.taken.map Action.completion?).Perm ((spawned p.events).map (some ·.key)) := by
  constructor
  · have hnone : ∀ kind, p.studio.session.requests.isPending kind = false := by
      intro kind
      rw [Requests.isPending, Option.isSome_eq_false_iff, Option.isNone_iff_eq_none,
        Option.eq_none_iff_forall_ne_some]
      intro request hpending
      have hmem := h.unapplied_of_pending hpending
      rw [hnil] at hmem
      exact List.not_mem_nil hmem
    rw [Session.hasPending, hnone, hnone]
    rfl
  · have hall := h.perm.symm.map some
    rw [hnil, List.append_nil, List.map_filterMap_some_eq_filter_map_isSome, List.map_map,
      List.filter_eq_self.mpr (List.forall_mem_map.mpr h.answers_taken)] at hall
    exact hall

end Progress.Balanced

end FlowStudio
