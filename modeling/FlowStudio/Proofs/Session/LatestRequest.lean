import FlowStudio.Proofs.Session.Requests
import Mathlib.Data.List.Basic

/-! Of each kind of request only the latest one counts, and its answer only once. Which requests are
pending follows from what a run has sent out and taken in. -/

namespace FlowStudio
variable {σ : Type}

def begun (past : List (Step σ)) : List (RequestKind × UInt64) :=
  past.flatMap fun step => step.outcome.begun

def latest? (past : List (Step σ)) (kind : RequestKind) : Option UInt64 :=
  ((begun past).filter (·.1 = kind)).getLast?.map (·.2)

def answered (past : List (Step σ)) (kind : RequestKind) (request : UInt64) : Bool :=
  past.any fun step =>
    step.arrival.action.completion? = some (kind, request) && step.outcome.changed

def isCurrent (past : List (Step σ)) (kind : RequestKind) (request : UInt64) : Bool :=
  latest? past kind = some request && !answered past kind request

/-- Whether something that comes in is anything but an answer too late or to nothing. -/
def counts (past : List (Step σ)) (e : Arrival σ) : Bool :=
  match e.action.completion? with
  | some (kind, request) => isCurrent past kind request
  | none => true

def Session.essential (past : List (Step σ)) (s : Session σ) : List (Arrival σ) → List (Arrival σ)
  | [] => []
  | e :: es =>
    let o := s.dispatch e.now e.action
    let later := o.session.essential (past ++ [⟨e, o⟩]) es
    if counts past e then e :: later else later

theorem begun_append (past later : List (Step σ)) :
    begun (past ++ later) = begun past ++ begun later :=
  List.flatMap_append

theorem begun_concat (past : List (Step σ)) (step : Step σ) :
    begun (past ++ [step]) = begun past ++ step.outcome.begun := by
  simp [begun]

theorem latest?_concat_of_begun_eq_nil (past : List (Step σ)) {step : Step σ}
    (h : step.outcome.begun = []) : latest? (past ++ [step]) = latest? past := by
  funext kind
  rw [latest?, begun_concat, h, List.append_nil, latest?]

theorem latest?_concat_of_begun (past : List (Step σ)) {step : Step σ} {kind : RequestKind}
    {request : UInt64} (h : step.outcome.begun = [(kind, request)]) (other : RequestKind) :
    latest? (past ++ [step]) other =
      if other = kind then some request else latest? past other := by
  rw [latest?, begun_concat, h, List.filter_append]
  by_cases hk : other = kind
  · simp [hk]
  · simp [hk, Ne.symm hk, latest?]

theorem mem_begun_of_latest? {past : List (Step σ)} {kind : RequestKind} {request : UInt64}
    (h : latest? past kind = some request) : request ∈ (begun past).map (·.2) := by
  obtain ⟨p, hp, rfl⟩ := Option.map_eq_some_iff.mp h
  exact List.mem_map_of_mem (List.mem_filter.mp (List.mem_of_getLast? hp)).1

theorem answered_concat (past : List (Step σ)) (step : Step σ) (kind : RequestKind)
    (request : UInt64) : answered (past ++ [step]) kind request =
      (answered past kind request ||
        step.arrival.action.completion? = some (kind, request) && step.outcome.changed) := by
  simp [answered]

theorem answered_concat_of_not_changed (past : List (Step σ)) {step : Step σ}
    (h : step.outcome.changed = false) : answered (past ++ [step]) = answered past := by
  funext kind request
  simp [answered_concat, h]

theorem answered_concat_of_no_completion (past : List (Step σ)) {step : Step σ}
    (h : step.arrival.action.completion? = none) : answered (past ++ [step]) = answered past := by
  funext kind request
  simp [answered_concat, h]

theorem isCurrent_eq_true_iff {past : List (Step σ)} {kind : RequestKind} {request : UInt64} :
    isCurrent past kind request = true ↔
      latest? past kind = some request ∧ answered past kind request = false := by
  simp [isCurrent]

/-- What a session knows of its requests agrees with what it sent out and took in. -/
structure Tracks (past : List (Step σ)) (s : Session σ) : Prop where
  numbers_eq : (begun past).map (·.2) = (List.range (begun past).length).map UInt64.ofNat
  next_eq : s.requests.next = UInt64.ofNat (begun past).length
  pending?_iff : ∀ {kind request},
    s.requests.pending? kind = some request ↔ isCurrent past kind request = true
  begun_of_answered : ∀ {kind request}, answered past kind request = true →
    request ∈ (begun past).map (·.2)

namespace Tracks
variable {past : List (Step σ)} {s : Session σ}

theorem fresh (tree : FileTree) (target : Option String) (settings : Settings) :
    Tracks [] (Session.ofTree tree target settings : Session σ) where
  numbers_eq := rfl
  next_eq := rfl
  pending?_iff {kind request} := by cases kind <;> simp [Session.ofTree, Requests.none,
    Requests.pending?, isCurrent, latest?, begun]
  begun_of_answered h := by simp [answered] at h

theorem next_notMem (h : Tracks past s) (hlt : (begun past).length < UInt64.size) :
    s.requests.next ∉ (begun past).map (·.2) := by
  rw [h.numbers_eq, h.next_eq, List.mem_map]
  rintro ⟨n, hn, heq⟩
  have hn := List.mem_range.mp hn
  have hnat := congrArg UInt64.toNat heq
  rw [UInt64.toNat_ofNat_of_lt' (Nat.lt_trans hn hlt), UInt64.toNat_ofNat_of_lt' hlt] at hnat
  exact Nat.ne_of_lt hn hnat

theorem concat_same (h : Tracks past s) {step : Step σ} (hbegun : step.outcome.begun = [])
    (hanswered : answered (past ++ [step]) = answered past) {u : Session σ}
    (hu : u.requests = s.requests) : Tracks (past ++ [step]) u := by
  have hall : begun (past ++ [step]) = begun past := by
    rw [begun_concat, hbegun, List.append_nil]
  refine ⟨by rw [hall]; exact h.numbers_eq, by rw [hall, hu]; exact h.next_eq, ?_, ?_⟩
  · intro kind request
    rw [hu, isCurrent, latest?_concat_of_begun_eq_nil past hbegun, hanswered]
    exact h.pending?_iff
  · intro kind request
    rw [hall, hanswered]
    exact h.begun_of_answered

theorem concat_begins (h : Tracks past s) (hlt : (begun past).length < UInt64.size) {step : Step σ}
    {kind : RequestKind} (hstep : step.outcome.Begins s.requests kind)
    (hnone : step.arrival.action.completion? = none) :
    Tracks (past ++ [step]) step.outcome.session := by
  obtain ⟨hbegun, hrequests⟩ := hstep
  have hall : begun (past ++ [step]) = begun past ++ [(kind, s.requests.next)] := by
    rw [begun_concat, hbegun]
  have hlatest := latest?_concat_of_begun past hbegun
  have hanswered := answered_concat_of_no_completion past hnone
  refine ⟨?_, ?_, ?_, ?_⟩
  · rw [hall, List.map_append, h.numbers_eq, h.next_eq, List.length_append, List.length_singleton,
      List.range_succ, List.map_append]
    rfl
  · rw [hrequests, Requests.next_begin, hall, h.next_eq, List.length_append, List.length_singleton,
      UInt64.ofNat_add]
    rfl
  · intro other request
    rw [hrequests, Requests.pending?_begin, isCurrent_eq_true_iff, hlatest, hanswered]
    split
    · next hk =>
      refine ⟨fun hn => ⟨hn, ?_⟩, And.left⟩
      -- an answer that counted names a number sent out before
      by_contra hyes
      have hmem := h.begun_of_answered (Bool.of_not_eq_false hyes)
      exact h.next_notMem hlt (Option.some.inj hn ▸ hmem)
    · exact h.pending?_iff.trans isCurrent_eq_true_iff
  · intro other request hyes
    rw [hanswered] at hyes
    rw [hall, List.map_append]
    exact List.mem_append_left _ (h.begun_of_answered hyes)

theorem concat_ends (h : Tracks past s) {step : Step σ} {kind : RequestKind} {request : UInt64}
    (hstep : step.outcome.Ends s.requests kind)
    (ha : step.arrival.action.completion? = some (kind, request))
    (hp : s.requests.pending? kind = some request) :
    Tracks (past ++ [step]) step.outcome.session := by
  have hbegun : step.outcome.begun = [] := by rw [Outcome.begun, hstep.effects_eq]; rfl
  have hall : begun (past ++ [step]) = begun past := by
    rw [begun_concat, hbegun, List.append_nil]
  have hlatest := latest?_concat_of_begun_eq_nil past hbegun
  obtain ⟨hcurrent, -⟩ := isCurrent_eq_true_iff.mp (h.pending?_iff.mp hp)
  have hanswered : ∀ other number, answered (past ++ [step]) other number = true ↔
      answered past other number = true ∨ (kind = other ∧ request = number) := by
    intro other number
    simp [answered_concat, ha, hstep.changed_eq]
  refine ⟨by rw [hall]; exact h.numbers_eq, ?_, ?_, ?_⟩
  · rw [hstep.next_eq, hall, h.next_eq]
  · intro other number
    rw [hstep.pending?_eq, isCurrent_eq_true_iff, hlatest, ← Bool.not_eq_true, hanswered]
    split
    · next hk =>
      subst hk
      -- the number just answered is the latest of its kind
      refine ⟨fun hn => by simp at hn, fun ⟨hnumber, hout⟩ => ?_⟩
      exact absurd (.inr ⟨rfl, Option.some.inj (hcurrent.symm.trans hnumber)⟩) hout
    · next hk =>
      rw [h.pending?_iff, isCurrent_eq_true_iff, ← Bool.not_eq_true]
      simp [Ne.symm hk]
  · intro other number hyes
    rw [hall]
    rcases (hanswered other number).mp hyes with hyes | ⟨-, rfl⟩
    · exact h.begun_of_answered hyes
    · exact mem_begun_of_latest? hcurrent

theorem dispatch (h : Tracks past s) (hlt : (begun past).length < UInt64.size) (e : Arrival σ) :
    Tracks (past ++ [⟨e, s.dispatch e.now e.action⟩]) (s.dispatch e.now e.action).session := by
  cases ha : e.action.completion? with
  | none =>
    rcases Session.dispatch_begins (s := s) ha e.now with hquiet | ⟨kind, hbegins⟩
    · exact h.concat_same hquiet.1 (answered_concat_of_no_completion past ha) hquiet.2
    · exact h.concat_begins hlt hbegins ha
  | some p =>
    obtain ⟨kind, request⟩ := p
    by_cases hp : s.requests.pending? kind = some request
    · exact h.concat_ends (Session.dispatch_ends ha hp e.now) ha hp
    · rw [Session.dispatch_dropped ha hp e.now]
      exact h.concat_same rfl (answered_concat_of_not_changed past rfl) rfl

theorem run (h : Tracks past s) {es : List (Arrival σ)}
    (hlt : (begun (past ++ s.run es)).length < UInt64.size) :
    Tracks (past ++ s.run es) (s.runSession es) := by
  induction es generalizing past s with
  | nil => simpa [Session.run, Session.runSession] using h
  | cons e es ih =>
    have hlen := hlt
    rw [begun_append, List.length_append] at hlen
    have hnext := h.dispatch (by omega) e
    have happ : past ++ s.run (e :: es) =
        past ++ [⟨e, s.dispatch e.now e.action⟩] ++ (s.dispatch e.now e.action).session.run es := by
      simp [Session.run]
    rw [happ] at hlt ⊢
    exact ih hnext hlt

theorem changed_of_isCurrent (h : Tracks past s) {a : Action σ} {kind : RequestKind}
    {request : UInt64} (ha : a.completion? = some (kind, request))
    (hcurrent : isCurrent past kind request = true) (now : Nat) :
    (s.dispatch now a).changed = true ∧ (s.dispatch now a).session ≠ s := by
  have hp := h.pending?_iff.mpr hcurrent
  have hends := Session.dispatch_ends ha hp now
  refine ⟨hends.changed_eq, fun hs => ?_⟩
  have hnone := hends.pending?_eq kind
  rw [hs, hp, if_pos rfl] at hnone
  exact Option.some_ne_none _ hnone

theorem unchanged_of_not_isCurrent (h : Tracks past s) {a : Action σ} {kind : RequestKind}
    {request : UInt64} (ha : a.completion? = some (kind, request))
    (hother : ¬isCurrent past kind request = true) (now : Nat) : s.dispatch now a = s.unchanged :=
  Session.dispatch_dropped ha (fun hp => hother (h.pending?_iff.mp hp)) now

theorem unchanged_of_not_counts (h : Tracks past s) {e : Arrival σ} (he : ¬counts past e = true) :
    s.dispatch e.now e.action = s.unchanged := by
  rw [counts] at he
  split at he
  · next kind request ha => exact h.unchanged_of_not_isCurrent ha he e.now
  · exact absurd rfl he

/-- What does not count may as well be left out. -/
theorem essential (h : Tracks past s) {es : List (Arrival σ)}
    (hlt : (begun (past ++ s.run es)).length < UInt64.size) :
    s.runSession (s.essential past es) = s.runSession es ∧
      s.runEffects (s.essential past es) = s.runEffects es := by
  induction es generalizing past s with
  | nil => exact ⟨rfl, rfl⟩
  | cons e es ih =>
    have hlen := hlt
    rw [begun_append, List.length_append] at hlen
    have hnext := h.dispatch (by omega) e
    rw [Session.run, List.append_cons] at hlt
    obtain ⟨hsession, heffects⟩ := ih hnext hlt
    rw [Session.essential]
    split
    · exact ⟨hsession, by rw [Session.runEffects_cons, Session.runEffects_cons, heffects]⟩
    · next he =>
      -- left out, it would have left the session as it was
      have hsame := h.unchanged_of_not_counts he
      rw [hsame] at hsession heffects
      rw [Session.runSession, Session.runEffects_cons, hsame]
      exact ⟨hsession, heffects⟩

end Tracks

/-- Of each kind of request only the latest one counts, and its answer only once. Without all the
other answers a run comes to the same end, by the same effects. -/
theorem Session.latest_request_wins (tree : FileTree) (target : Option String) (settings : Settings)
    (es : List (Arrival σ))
    (hnew : (begun ((Session.ofTree tree target settings).run es)).length < UInt64.size) :
    let fresh : Session σ := Session.ofTree tree target settings
    (∀ before e later kind request, es = before ++ e :: later →
      e.action.completion? = some (kind, request) →
      let past := fresh.run before
      let s := fresh.runSession before
      let o := s.dispatch e.now e.action
      (latest? past kind = some request ∧ answered past kind request = false →
        o.changed = true ∧ o.session ≠ s) ∧
      (¬(latest? past kind = some request ∧ answered past kind request = false) →
        o.effects = [] ∧ o.changed = false ∧ o.session = s)) ∧
    fresh.runSession (fresh.essential [] es) = fresh.runSession es ∧
    fresh.runEffects (fresh.essential [] es) = fresh.runEffects es := by
  intro fresh
  have hfresh : Tracks [] fresh := Tracks.fresh tree target settings
  refine ⟨?_, hfresh.essential hnew⟩
  rintro before e later kind request rfl ha past s o
  have hlen : (begun past).length < UInt64.size := by
    rw [Session.run_append, begun_append, List.length_append] at hnew
    exact Nat.lt_of_le_of_lt (Nat.le_add_right _ _) hnew
  have htracks : Tracks past s := hfresh.run hlen
  rw [← isCurrent_eq_true_iff]
  refine ⟨fun hcurrent => htracks.changed_of_isCurrent ha hcurrent e.now, fun hother => ?_⟩
  have hsame : o = s.unchanged := htracks.unchanged_of_not_isCurrent ha hother e.now
  rw [hsame]
  exact ⟨rfl, rfl, rfl⟩

def mixedAnswers : List (Arrival Nat) :=
  [⟨0, .workspaceOpen "a"⟩, ⟨1, .workspaceOpen "b"⟩, ⟨2, .workspaceCreate⟩,
    ⟨3, .workspaceLoaded 0 "a" []⟩, ⟨4, .workspaceCreated 1 "b"⟩, ⟨5, .workspaceLoaded 1 "b" []⟩,
    ⟨6, .workspaceLoadFailed 1 .notFound⟩, ⟨7, .workspaceCreated 2 "c"⟩]

theorem Session.latest_request_wins_mixed :
    let fresh : Session Nat := Session.ofTree .empty none .default
    let current : List (Arrival Nat) :=
      [⟨0, .workspaceOpen "a"⟩, ⟨1, .workspaceOpen "b"⟩, ⟨2, .workspaceCreate⟩,
        ⟨5, .workspaceLoaded 1 "b" []⟩, ⟨7, .workspaceCreated 2 "c"⟩]
    (begun (fresh.run mixedAnswers)).length < UInt64.size ∧
      fresh.runSession current = fresh.runSession mixedAnswers ∧
      fresh.runEffects current = fresh.runEffects mixedAnswers := by
  intro fresh current
  have hnew : (begun (fresh.run mixedAnswers)).length < UInt64.size := by decide
  obtain ⟨-, hsame⟩ := Session.latest_request_wins .empty none .default mixedAnswers hnew
  exact ⟨hnew, hsame⟩

end FlowStudio
