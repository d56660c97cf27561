/-! The one message on screen. It hides by itself after a while, and a new one takes its place.
Times are milliseconds from a common origin. -/

namespace FlowStudio

inductive Severity where
  | success
  | error
  deriving DecidableEq, Repr

structure Notice where
  severity : Severity
  text : String
  shownAt : Nat
  deriving DecidableEq, Repr

structure NoticeBoard where
  current : Option Notice
  autoHide : Nat
  deriving DecidableEq, Repr

namespace NoticeBoard

def blank (autoHide : Nat) : NoticeBoard := ⟨none, autoHide⟩

def put (b : NoticeBoard) (severity : Severity) (text : String) (now : Nat) : NoticeBoard :=
  { b with current := some ⟨severity, text, now⟩ }

def dismiss? (b : NoticeBoard) : Option NoticeBoard :=
  b.current.map fun _ => { b with current := none }

/-- Takes the message away if its time is over. A time before it was shown counts as that time. -/
def tick? (b : NoticeBoard) (now : Nat) : Option NoticeBoard :=
  match b.current with
  | none => none
  | some n => if b.autoHide ≤ now - n.shownAt then some { b with current := none } else none

end NoticeBoard
end FlowStudio
