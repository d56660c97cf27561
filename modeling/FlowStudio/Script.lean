import FlowStudio.Disk.Load
import FlowStudio.Workspace.Client

/-! A script is what the program asks of the machine it runs on, one thing after the other, and what
it does next for every answer. It can be run on a machine and a disk that are values, or for real. -/

namespace FlowStudio
open Workspace

inductive Script (α : Type) where
  | done (value : α)
  | send (request : Request) (next : Reply → Script α)
  /-- Starts what carries requests in the background. -/
  | startExecutor (next : Except IoError Unit → Script α)
  /-- Sets the end of the time to wait. The clock may not reach that far. -/
  | setDeadline (seconds : Nat) (next : Bool → Script α)
  | contains (path : String) (next : Bool → Script α)
  | readText (path : String) (next : Except IoError String → Script α)
  | loadTree (path : String) (next : Except IoError FileTree → Script α)
  | makeDirs (path : String) (next : Except IoError Unit → Script α)
  | writeText (path text : String) (next : Except IoError Unit → Script α)

/-- What a script finds beside the disk; `reaches` tells which times from now the clock can tell. -/
structure Machine where
  server : Server
  executor : Except IoError Unit
  reaches : Nat → Bool

namespace Script
variable {α β : Type}

def bind (f : α → Script β) : Script α → Script β
  | done a => f a
  | send request next => send request fun r => (next r).bind f
  | startExecutor next => startExecutor fun r => (next r).bind f
  | setDeadline seconds next => setDeadline seconds fun r => (next r).bind f
  | contains path next => contains path fun r => (next r).bind f
  | readText path next => readText path fun r => (next r).bind f
  | loadTree path next => loadTree path fun r => (next r).bind f
  | makeDirs path next => makeDirs path fun r => (next r).bind f
  | writeText path text next => writeText path text fun r => (next r).bind f

instance : Monad Script where
  pure := done
  bind s f := bind f s

def ofExchange : Exchange α → Script α
  | .done a => done a
  | .ask request next => send request fun r => ofExchange (next r)

structure End (α : Type) where
  value : α
  disk : Disk
  /-- The requests that were sent, the latest first. -/
  sent : List Request

def attempt (disk : Disk) : Except IoError Disk → Disk × Except IoError Unit
  | .ok changed => (changed, .ok ())
  | .error e => (disk, .error e)

def run (m : Machine) : Script α → Disk → List Request → End α
  | done a, disk, sent => ⟨a, disk, sent⟩
  | send request next, disk, sent =>
    (next (m.server (request :: sent))).run m disk (request :: sent)
  | startExecutor next, disk, sent => (next m.executor).run m disk sent
  | setDeadline seconds next, disk, sent => (next (m.reaches seconds)).run m disk sent
  | contains path next, disk, sent => (next (disk.contains path)).run m disk sent
  | readText path next, disk, sent => (next (disk.readText path)).run m disk sent
  | loadTree path next, disk, sent => (next (disk.loadTree path)).run m disk sent
  | makeDirs path next, disk, sent =>
    let (disk, result) := attempt disk (disk.makeDirs path)
    (next result).run m disk sent
  | writeText path text next, disk, sent =>
    let (disk, result) := attempt disk (disk.write path (Text.toUtf8 text))
    (next result).run m disk sent

theorem run_bind (m : Machine) (f : α → Script β) (s : Script α) (disk : Disk)
    (sent : List Request) :
    (s.bind f).run m disk sent =
      (f (s.run m disk sent).value).run m (s.run m disk sent).disk (s.run m disk sent).sent := by
  induction s generalizing disk sent with
  | done a => rfl
  | send request next ih => exact ih _ disk (request :: sent)
  | startExecutor next ih => exact ih _ disk sent
  | setDeadline seconds next ih => exact ih _ disk sent
  | contains path next ih => exact ih _ disk sent
  | readText path next ih => exact ih _ disk sent
  | loadTree path next ih => exact ih _ disk sent
  | makeDirs path next ih => exact ih _ _ sent
  | writeText path text next ih => exact ih _ _ sent

theorem run_ofExchange (m : Machine) (e : Exchange α) (disk : Disk) (sent : List Request) :
    (ofExchange e).run m disk sent =
      ⟨(e.run m.server sent).result, disk, (e.run m.server sent).sent⟩ := by
  induction e generalizing sent with
  | done a => rfl
  | ask request next ih => exact ih _ (request :: sent)

end Script
end FlowStudio
