/-! A value that many may watch. Only the latest one is kept, and each watcher knows which one it
saw last. -/

namespace FlowStudio

/-- `version` counts the values posted. -/
structure Broadcast (α : Type) where
  latest : Option α
  version : Nat
  deriving DecidableEq, Repr

structure Watcher where
  seen : Nat
  deriving DecidableEq, Repr

namespace Broadcast
variable {α : Type}

def blank : Broadcast α := ⟨none, 0⟩

def post (b : Broadcast α) (value : α) : Broadcast α := ⟨some value, b.version + 1⟩

def watch (b : Broadcast α) : Watcher := ⟨b.version⟩

def hasNews (b : Broadcast α) (w : Watcher) : Bool := w.seen != b.version

def take (b : Broadcast α) : Option α × Watcher := (b.latest, ⟨b.version⟩)

end Broadcast
end FlowStudio
