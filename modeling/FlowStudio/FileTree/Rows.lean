import FlowStudio.FileTree.Basic

/-! The tree as an indented list: one row for each entry all of whose directories are open. -/

namespace FlowStudio

structure Row where
  path : String
  depth : UInt16
  name : String
  isDir : Bool
  isExpanded : Bool
  deriving DecidableEq, Repr

namespace FileTree

def row (e : Entry) (depth : UInt16) (isOpen : Bool) : Row :=
  ⟨e.path, depth, Path.lastPiece e.path, e.kind == .dir, e.kind == .dir && isOpen⟩

/-- The rows below an open directory, no deeper than the fuel. Sub-directories come before files. -/
def rowsBelow (t : FileTree) (isOpen : String → Bool) : Nat → Nat → UInt16 → List Row
  | 0, _, _ => []
  | fuel + 1, dir, depth =>
    let dirs := (t.members .dir dir).flatMap fun id =>
      let e := t.arena.value id
      let inside := if isOpen e.path then t.rowsBelow isOpen fuel id (depth + 1) else []
      row e depth (isOpen e.path) :: inside
    dirs ++ (t.members .file dir).map fun id => row (t.arena.value id) depth false

def rows (t : FileTree) (expanded : List String) : List Row :=
  t.rowsBelow expanded.contains t.arena.next t.root 1

end FileTree
end FlowStudio
