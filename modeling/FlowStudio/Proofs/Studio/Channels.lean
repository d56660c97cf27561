import FlowStudio.Proofs.Studio.HostedTool
import FlowStudio.Studio.Mailbox

/-! What comes into a studio and what goes out. A mailbox loses nothing as long as it is read from,
the inbox of a studio is the queue of one, and a watcher of its channel learns of what was posted
since it last looked. -/

namespace FlowStudio
variable {σ : Type}

namespace Mailbox
variable {α : Type}

inductive Use (α : Type) where
  | send (value : α)
  | addSender
  | dropSender
  | receive
  | dropReceiver
  deriving DecidableEq, Repr

def Use.sent? : Use α → Option α
  | .send value => some value
  | _ => none

structure Used (α : Type) where
  mailbox : Mailbox α
  received : List α

namespace Used

def next (u : Used α) : Use α → Used α
  | .send value => { u with mailbox := (u.mailbox.send? value).getD u.mailbox }
  | .addSender => { u with mailbox := u.mailbox.addSender }
  | .dropSender => { u with mailbox := u.mailbox.dropSender }
  | .receive =>
    match u.mailbox.receive with
    | (mailbox, .item value) => ⟨mailbox, u.received ++ [value]⟩
    | (mailbox, .idle) | (mailbox, .closed) => { u with mailbox }
  | .dropReceiver => { u with mailbox := u.mailbox.dropReceiver }

def row (u : Used α) : List α := u.received ++ u.mailbox.queue

theorem receive_cases (m : Mailbox α) :
    (∃ value queue, m.queue = value :: queue ∧ m.receive = ({ m with queue }, .item value)) ∨
      (m.queue = [] ∧ (m.receive = (m, .closed) ∨ m.receive = (m, .idle))) := by
  unfold receive
  cases hqueue : m.queue with
  | nil =>
    refine .inr ⟨rfl, ?_⟩
    by_cases hsenders : m.senders = 0
    · exact .inl (by rw [if_pos hsenders])
    · exact .inr (by rw [if_neg hsenders])
  | cons value queue => exact .inl ⟨value, queue, rfl, rfl⟩

theorem hasReceiver_next (u : Used α) (use : Use α) :
    (u.next use).mailbox.hasReceiver = true ↔
      u.mailbox.hasReceiver = true ∧ use ≠ .dropReceiver := by
  cases use with
  | send value =>
    rw [next, send?]
    split <;> simp
  | addSender => simp [next, addSender]
  | dropSender => simp [next, dropSender]
  | receive =>
    rw [next]
    obtain ⟨value, queue, -, h⟩ | ⟨-, h | h⟩ := receive_cases u.mailbox <;> simp [h]
  | dropReceiver => simp [next, dropReceiver]

theorem row_next {u : Used α} {use : Use α} (h : (u.next use).mailbox.hasReceiver = true) :
    (u.next use).row = u.row ++ use.sent?.toList := by
  obtain ⟨hreceiver, hkept⟩ := (hasReceiver_next u use).mp h
  cases use with
  | send value => simp [next, row, send?, hreceiver, Use.sent?]
  | addSender => simp [next, row, addSender, Use.sent?]
  | dropSender => simp [next, row, dropSender, Use.sent?]
  | receive =>
    rw [next]
    obtain ⟨value, queue, hqueue, h⟩ | ⟨-, h | h⟩ := receive_cases u.mailbox
    · simp [h, row, hqueue, Use.sent?]
    · simp [h, row, Use.sent?]
    · simp [h, row, Use.sent?]
  | dropReceiver => exact absurd rfl hkept

theorem hasReceiver_foldl_next (u : Used α) (uses : List (Use α)) :
    (uses.foldl next u).mailbox.hasReceiver = true ↔
      u.mailbox.hasReceiver = true ∧ .dropReceiver ∉ uses := by
  induction uses generalizing u with
  | nil => simp
  | cons use uses ih =>
    rw [List.foldl_cons, ih, hasReceiver_next, List.mem_cons, not_or, and_assoc]
    exact and_congr_right fun _ => and_congr_left fun _ => ne_comm

theorem row_foldl_next {u : Used α} {uses : List (Use α)}
    (h : (uses.foldl next u).mailbox.hasReceiver = true) :
    (uses.foldl next u).row = u.row ++ uses.filterMap Use.sent? := by
  induction uses generalizing u with
  | nil => exact (List.append_nil _).symm
  | cons use uses ih =>
    have hnext := ((hasReceiver_foldl_next (u.next use) uses).mp h).1
    rw [List.foldl_cons, ih h, row_next hnext, List.append_assoc, List.filterMap_cons]
    cases use.sent? <;> rfl

end Used

/-- However a mailbox is used, sending fails just when the receiver has been dropped. Until then
nothing is lost or comes out of turn: what was received and what still waits are what was sent. -/
theorem received_append_queue (uses : List (Use α)) :
    let u := uses.foldl Used.next ⟨create, []⟩
    (∀ value, u.mailbox.send? value = none ↔ .dropReceiver ∈ uses) ∧
      (.dropReceiver ∉ uses → u.received ++ u.mailbox.queue = uses.filterMap Use.sent?) := by
  intro u
  have hreceiver : u.mailbox.hasReceiver = true ↔ .dropReceiver ∉ uses :=
    (Used.hasReceiver_foldl_next _ uses).trans (and_iff_right rfl)
  refine ⟨fun value => ?_, fun h => Used.row_foldl_next (hreceiver.mpr h)⟩
  rw [send?, ← not_iff_not, ← hreceiver]
  cases u.mailbox.hasReceiver <;> simp

end Mailbox

structure Mailbox.Serves (m : Mailbox (Action σ)) (s : Studio σ) : Prop where
  queue_eq : m.queue = s.inbox
  hasReceiver : m.hasReceiver = true

namespace Studio
variable (analyzer : Option (Analyzer σ)) (now : Nat)

theorem drain_eq_dispatchAll {fuel : Nat} {m : Mailbox (Action σ)} (h : m.queue.length ≤ fuel)
    (s : Studio σ) : drain analyzer now fuel m s = dispatchAll analyzer now m.queue s := by
  induction fuel generalizing m s with
  | zero =>
    rw [List.length_eq_zero_iff.mp (Nat.le_zero.mp h)]
    rfl
  | succ fuel ih =>
    rw [drain, Mailbox.receive]
    cases hqueue : m.queue with
    | nil =>
      dsimp only
      split
      · next hitem => exact absurd hitem (by split <;> nofun)
      · rfl
      · rfl
    | cons a queue =>
      rw [hqueue, List.length_cons] at h
      dsimp only
      rw [dispatchAll, Turn.andThen, Turn.andThen, ih (Nat.le_of_succ_le_succ h)]

/-- A look into the inbox takes out of the mailbox all that it holds. Whoever still sends to it has
no part in this. -/
theorem poll_eq_drain {m : Mailbox (Action σ)} {s : Studio σ} (h : m.Serves s) :
    s.poll analyzer now = drain analyzer now m.queue.length m (s.withInbox []) := by
  rw [drain_eq_dispatchAll analyzer now (Nat.le_refl _), h.queue_eq]
  rfl

theorem serves_deliver {m : Mailbox (Action σ)} {s : Studio σ} (h : m.Serves s) {place : Nat}
    {job : Job} (hjob : s.outstanding[place]? = some job) (backend : Backend) :
    ∃ sent, m.send? (job.completion backend) = some sent ∧ sent.Serves (s.deliver backend place) := by
  refine ⟨_, if_pos h.hasReceiver, ?_, h.hasReceiver⟩
  rw [deliver, hjob, h.queue_eq]

end Studio

namespace Broadcast
variable {α : Type} (b : Broadcast α) (values : List α)

theorem version_foldl_post : (values.foldl post b).version = b.version + values.length := by
  induction values generalizing b with
  | nil => rfl
  | cons value values ih =>
    rw [List.foldl_cons, ih, List.length_cons, ← Nat.add_assoc, Nat.add_right_comm]
    rfl

theorem latest_foldl_post : (values.foldl post b).latest = values.getLast?.or b.latest := by
  induction values generalizing b with
  | nil => rfl
  | cons value values ih =>
    rw [List.foldl_cons, ih, post, List.getLast?_cons]
    cases values.getLast? <;> rfl

end Broadcast

/-- Whatever is done in a studio, who watches its channel from now on has news exactly when something
was posted, gets the last of that, and then has no news. -/
theorem Studio.watcher_sees_last_post (analyzer : Option (Analyzer σ)) (s : Studio σ)
    (moves : List (Move σ)) :
    let p := s.after analyzer moves
    let channel := p.studio.channel
    (channel.hasNews s.channel.watch = true ↔ posted p.events ≠ []) ∧
      channel.take.1 = (posted p.events).getLast?.or s.channel.latest ∧
      channel.hasNews channel.take.2 = false := by
  intro p channel
  have hchannel : channel = (posted p.events).foldl Broadcast.post s.channel :=
    channel_follow (p := .ofStudio s) rfl moves
  refine ⟨?_, ?_, bne_self_eq_false _⟩
  · have hseen : s.channel.watch.seen = s.channel.version := rfl
    rw [hchannel, Broadcast.hasNews, Broadcast.version_foldl_post, bne_iff_ne, hseen,
      ← List.length_pos_iff_ne_nil]
    omega
  · rw [Broadcast.take, hchannel, Broadcast.latest_foldl_post]

end FlowStudio
