import FlowStudio.Studio.Basic

/-! A queue from many senders to one receiver. It is closed when all senders are gone; what was sent
before is still received. The answers to a studio come in through one. -/

namespace FlowStudio

structure Mailbox (α : Type) where
  queue : List α
  senders : Nat
  hasReceiver : Bool
  deriving DecidableEq, Repr

inductive Received (α : Type) where
  | item (value : α)
  | idle
  | closed
  deriving DecidableEq, Repr

namespace Mailbox
variable {α : Type}

def create : Mailbox α := ⟨[], 1, true⟩

def send? (m : Mailbox α) (value : α) : Option (Mailbox α) :=
  if m.hasReceiver then some { m with queue := m.queue ++ [value] } else none

def addSender (m : Mailbox α) : Mailbox α := { m with senders := m.senders + 1 }

def dropSender (m : Mailbox α) : Mailbox α := { m with senders := m.senders - 1 }

def dropReceiver (m : Mailbox α) : Mailbox α := { m with queue := [], hasReceiver := false }

def receive (m : Mailbox α) : Mailbox α × Received α :=
  match m.queue with
  | value :: queue => ({ m with queue }, .item value)
  | [] => (m, if m.senders = 0 then .closed else .idle)

end Mailbox

def Studio.drain {σ : Type} (analyzer : Option (Analyzer σ)) (now : Nat) :
    Nat → Mailbox (Action σ) → Studio σ → Turn σ
  | 0, _, s => ⟨s, false, []⟩
  | fuel + 1, m, s =>
    match m.receive with
    | (m, .item a) => Turn.andThen (s.dispatch analyzer now a) (drain analyzer now fuel m)
    | (_, .idle) | (_, .closed) => ⟨s, false, []⟩

end FlowStudio
