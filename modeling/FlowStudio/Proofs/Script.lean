import FlowStudio.Script

/-! What a script does to a disk. The changes it attempts are told apart from what it reads and what
it sends, in the order in which they are attempted. -/

namespace FlowStudio
open Workspace

inductive Deed where
  | makeDirs (path : String)
  | writeText (path text : String)
  deriving DecidableEq, Repr

def Deed.written? : Deed → Option String
  | .makeDirs _ => none
  | .writeText path _ => some path

namespace Deed

def make (disk : Disk) : Deed → Except IoError Disk
  | .makeDirs path => disk.makeDirs path
  | .writeText path text => disk.write path (Text.toUtf8 text)

def makeAll (disk : Disk) (deeds : List Deed) : Except IoError Disk := deeds.foldlM make disk

/-- The disk after some changes, of which those are passed over that cannot be made. -/
def attemptAll (disk : Disk) (deeds : List Deed) : Disk :=
  deeds.foldl (fun disk deed => (Script.attempt disk (deed.make disk)).1) disk

theorem attemptAll_of_makeAll {disk changed : Disk} {deeds : List Deed}
    (h : makeAll disk deeds = .ok changed) : attemptAll disk deeds = changed := by
  induction deeds generalizing disk with
  | nil => exact Except.ok.inj h
  | cons deed deeds ih =>
    rw [makeAll, List.foldlM_cons] at h
    rw [attemptAll, List.foldl_cons]
    cases hmake : deed.make disk with
    | error e =>
      rw [hmake] at h
      cases h
    | ok next =>
      rw [hmake] at h
      exact ih h

end Deed

namespace Script
variable {α β : Type}

def deeds (m : Machine) : Script α → Disk → List Request → List Deed
  | done _, _, _ => []
  | send request next, disk, sent =>
    (next (m.server (request :: sent))).deeds m disk (request :: sent)
  | startExecutor next, disk, sent => (next m.executor).deeds m disk sent
  | setDeadline seconds next, disk, sent => (next (m.reaches seconds)).deeds m disk sent
  | contains path next, disk, sent => (next (disk.contains path)).deeds m disk sent
  | readText path next, disk, sent => (next (disk.readText path)).deeds m disk sent
  | loadTree path next, disk, sent => (next (disk.loadTree path)).deeds m disk sent
  | makeDirs path next, disk, sent =>
    let (disk, result) := attempt disk (disk.makeDirs path)
    .makeDirs path :: (next result).deeds m disk sent
  | writeText path text next, disk, sent =>
    let (disk, result) := attempt disk (disk.write path (Text.toUtf8 text))
    .writeText path text :: (next result).deeds m disk sent

theorem deeds_bind (m : Machine) (f : α → Script β) (s : Script α) (disk : Disk)
    (sent : List Request) :
    (s.bind f).deeds m disk sent = s.deeds m disk sent ++
      (f (s.run m disk sent).value).deeds m (s.run m disk sent).disk (s.run m disk sent).sent := by
  induction s generalizing disk sent with
  | done a => rfl
  | send request next ih => exact ih _ disk (request :: sent)
  | startExecutor next ih => exact ih _ disk sent
  | setDeadline seconds next ih => exact ih _ disk sent
  | contains path next ih => exact ih _ disk sent
  | readText path next ih => exact ih _ disk sent
  | loadTree path next ih => exact ih _ disk sent
  | makeDirs path next ih => exact congrArg _ (ih _ _ sent)
  | writeText path text next ih => exact congrArg _ (ih _ _ sent)

theorem disk_run (m : Machine) (s : Script α) (disk : Disk) (sent : List Request) :
    (s.run m disk sent).disk = Deed.attemptAll disk (s.deeds m disk sent) := by
  induction s generalizing disk sent with
  | done a => rfl
  | send request next ih => exact ih _ disk (request :: sent)
  | startExecutor next ih => exact ih _ disk sent
  | setDeadline seconds next ih => exact ih _ disk sent
  | contains path next ih => exact ih _ disk sent
  | readText path next ih => exact ih _ disk sent
  | loadTree path next ih => exact ih _ disk sent
  | makeDirs path next ih => exact ih _ _ sent
  | writeText path text next ih => exact ih _ _ sent

theorem deeds_ofExchange (m : Machine) (e : Exchange α) (disk : Disk) (sent : List Request) :
    (ofExchange e).deeds m disk sent = [] := by
  induction e generalizing sent with
  | done a => rfl
  | ask request next ih => exact ih _ (request :: sent)

/-- A script attempts changes one after the other, up to the first that fails. -/
def Attempts (s : Script (Except IoError Unit)) (all : List Deed) : Prop :=
  ∀ m disk sent, s.deeds m disk sent <+: all ∧
    ((s.run m disk sent).value = .ok () → s.deeds m disk sent = all)

theorem attempts_done : Attempts (done (.ok ())) [] :=
  fun _ _ _ => ⟨List.prefix_rfl, fun _ => rfl⟩

section
variable {s : Script (Except IoError Unit)} {all : List Deed}

theorem attempts_next {deed : Deed} {result : Except IoError Unit} (h : s.Attempts all)
    (m : Machine) (disk : Disk) (sent : List Request) :
    let next : Script (Except IoError Unit) := match result with
      | .error e => done (.error e)
      | .ok () => s
    deed :: next.deeds m disk sent <+: deed :: all ∧
      ((next.run m disk sent).value = .ok () →
        deed :: next.deeds m disk sent = deed :: all) := by
  intro next
  rw [List.cons_prefix_cons, and_iff_right rfl, List.cons.injEq, and_iff_right rfl]
  cases result with
  | error e => exact ⟨List.nil_prefix, fun hvalue => by simp [next, run] at hvalue⟩
  | ok _ => exact h m disk sent

theorem attempts_makeDirs (path : String) (h : s.Attempts all) :
    Attempts (.makeDirs path fun
      | .error e => .done (.error e)
      | .ok () => s) (.makeDirs path :: all) :=
  fun m _ sent => attempts_next h m _ sent

theorem attempts_writeText (path text : String) (h : s.Attempts all) :
    Attempts (.writeText path text fun
      | .error e => .done (.error e)
      | .ok () => s) (.writeText path text :: all) :=
  fun m _ sent => attempts_next h m _ sent

end

/-- A script comes to what making some changes comes to, the first that fails included. -/
def Makes (s : Script (Except IoError Unit)) (all : List Deed) : Prop :=
  ∀ m disk sent, (s.run m disk sent).value = (Deed.makeAll disk all).map fun _ => ()

theorem makes_done : Makes (done (.ok ())) [] := fun _ _ _ => rfl

section
variable {s : Script (Except IoError Unit)} {all : List Deed} (h : s.Makes all)
include h

theorem makes_makeDirs (path : String) :
    Makes (.makeDirs path fun
      | .error e => .done (.error e)
      | .ok () => s) (.makeDirs path :: all) := by
  intro m disk sent
  rw [Deed.makeAll, List.foldlM_cons, Deed.make, run]
  cases disk.makeDirs path with
  | error e => rfl
  | ok made => exact h m made sent

theorem makes_writeText (path text : String) :
    Makes (.writeText path text fun
      | .error e => .done (.error e)
      | .ok () => s) (.writeText path text :: all) := by
  intro m disk sent
  rw [Deed.makeAll, List.foldlM_cons, Deed.make, run]
  cases disk.write path (Text.toUtf8 text) with
  | error e => rfl
  | ok written => exact h m written sent

end

end Script
end FlowStudio
