import FlowStudio.FileTree.Edit
import FlowStudio.FileTree.Rows

/-! The explorer: which directories are open, and the rows that follow from it. -/

namespace FlowStudio

/-- The open paths are kept in order and without repeats, so that equal sets are equal lists. -/
structure Explorer where
  expanded : List String
  rows : List Row
  deriving DecidableEq, Repr

namespace Explorer

def insertPath (path : String) : List String → List String
  | [] => [path]
  | p :: ps => if path < p then path :: p :: ps else p :: insertPath path ps

def refresh (tree : FileTree) (expanded : List String) : Explorer :=
  let expanded := expanded.filter tree.isDir
  ⟨expanded, tree.rows expanded⟩

def ofTree (tree : FileTree) : Explorer := refresh tree []

def isExpanded (e : Explorer) (path : String) : Bool := e.expanded.contains path

def toggle? (e : Explorer) (tree : FileTree) (path : String) : Option Explorer :=
  if !tree.isDir path || path == "/" then none
  else if e.expanded.contains path then some (refresh tree (e.expanded.erase path))
  else some (refresh tree (insertPath path e.expanded))

end Explorer
end FlowStudio
