import FlowStudio.FileTree.Rows

/-! The same rows from a stack of entries, which no tree is too deep for. -/

namespace FlowStudio

structure Waiting where
  entry : Nat
  depth : UInt16
  deriving DecidableEq, Repr

namespace FileTree

def pushAll (depth : UInt16) (ids : List Nat) (stack : List Waiting) : List Waiting :=
  -- the last one first, so that the first of them ends up on top
  ids.reverse.foldl (fun stack id => ⟨id, depth⟩ :: stack) stack

/-- What waits behind an entry once its row is there: first its sub-directories and then its files,
if it is open. -/
def waitingAfter (t : FileTree) (isOpen : Bool) (w : Waiting) (stack : List Waiting) :
    List Waiting :=
  if isOpen then
    pushAll (w.depth + 1) (t.members .dir w.entry)
      (pushAll (w.depth + 1) (t.members .file w.entry) stack)
  else stack

def rowsOfStack (t : FileTree) (isOpen : String → Bool) : Nat → List Waiting → List Row
  | 0, _ => []
  | _ + 1, [] => []
  | fuel + 1, w :: stack =>
    match t.arena.get? w.entry with
    | none => t.rowsOfStack isOpen fuel stack
    | some e =>
      if w.entry = t.root then t.rowsOfStack isOpen fuel (t.waitingAfter true w stack)
      else row e w.depth (isOpen e.path) ::
        t.rowsOfStack isOpen fuel (t.waitingAfter (isOpen e.path) w stack)

def stackedRows (t : FileTree) (expanded : List String) : List Row :=
  -- no entry comes onto the stack twice, so there are no more steps than numbers
  t.rowsOfStack expanded.contains t.arena.next [⟨t.root, 0⟩]

end FileTree
end FlowStudio
