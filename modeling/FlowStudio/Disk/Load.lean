import FlowStudio.Disk.Lists
import FlowStudio.FileTree.Edit

/-! Loading a directory into a file tree. Hidden names and what the ignore files pass over are left
out, and so are links and files that are not text. -/

namespace FlowStudio.Disk
open Ignore

def isHidden (name : String) : Bool := name.toList.head? == some '.'

def passesOver (levels : List Lists) (path : List String) (name : String) (isDir : Bool) : Bool :=
  match verdict? levels path isDir with
  | some .drop => true
  | some .keep => false
  | none => isHidden name

/-- The text files below a directory, with their names from there; `outer` are the lists of the
directories above. The fuel bounds the depth. -/
def textsBelow (d : Disk) :
    Nat → (outer : List Lists) → (root : List String) → (below : List String) → List Leaf
  | 0, _, _, _ => []
  | fuel + 1, outer, root, below =>
    let levels := d.listsIn (root ++ below) :: outer
    (d.children (root ++ below)).flatMap fun (name, entry) =>
      let here := below ++ [name]
      match entry with
      | .dir =>
        if passesOver levels (root ++ here) name true then []
        else textsBelow d fuel levels root here
      | .file bytes =>
        if passesOver levels (root ++ here) name false then []
        else ((Text.ofUtf8? bytes).map fun body => ⟨"/".intercalate here, body⟩).toList
      | .link _ => []

def gather : List Leaf → FileTree → Except IoError FileTree
  | [], t => .ok t
  | leaf :: leaves, t =>
    match t.makeFile leaf.name leaf.body with
    | .ok (t, _) => gather leaves t
    | .error e => .error (.refused e)

def loadTree (d : Disk) (path : String) : Except IoError FileTree := do
  match ← d.resolve path with
  | (_, .file bytes) => gather ((Text.ofUtf8? bytes).map (Leaf.mk "" ·)).toList .empty
  | (real, _) =>
    -- no directory is deeper than there are entries
    let outer := (List.range real.length).reverse.map fun n => d.listsIn (real.take n)
    gather (d.textsBelow (d.entries.length + 1) outer real []) .empty

end FlowStudio.Disk
