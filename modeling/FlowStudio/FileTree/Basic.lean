import FlowStudio.FileTree.Arena
import FlowStudio.Path
import Std.Data.TreeMap.Lemmas

/-! The tree of files and directories that is being edited. All entries stand side by side in an
arena. An entry knows its parent and its own path, and a directory the numbers of its entries, in
the byte order of their names. -/

namespace FlowStudio

structure Leaf where
  name : String
  body : String
  deriving DecidableEq, Repr, Inhabited

inductive EntryKind where
  | file
  | dir
  deriving DecidableEq, Repr, Inhabited

abbrev Names := Std.TreeMap String Nat

/-- A directory has names, even if there are none in it; a file has no use for them. -/
structure Entry where
  kind : EntryKind
  path : String
  parent : Option Nat
  names : Option Names
  body : String
  deriving Inhabited

namespace Entry

def ofFile (path : String) (parent : Nat) (body : String) : Entry :=
  ⟨.file, path, some parent, none, body⟩

def ofDir (path : String) (parent : Option Nat) : Entry := ⟨.dir, path, parent, some ∅, ""⟩

def find? (e : Entry) (name : String) : Option Nat := e.names.bind fun names => names[name]?

def ids (e : Entry) : List Nat :=
  match e.names with
  | none => []
  | some names => names.toList.map (·.2)

def withName (e : Entry) (name : String) (id : Nat) : Entry :=
  { e with names := e.names.map (·.insert name id) }

def withoutName (e : Entry) (name : String) : Entry :=
  { e with names := e.names.map (·.erase name) }

def withBody (e : Entry) (body : String) : Entry := { e with body }

theorem mem_ids_iff {e : Entry} {id : Nat} : id ∈ e.ids ↔ ∃ name, e.find? name = some id := by
  cases hn : e.names with
  | none => simp [ids, find?, hn]
  | some names =>
    simp only [ids, find?, hn, List.mem_map, Prod.exists, exists_eq_right, Option.bind_some,
      Std.TreeMap.mem_toList_iff_getElem?_eq_some]

theorem find?_ofFile (path : String) (parent : Nat) (body name : String) :
    (ofFile path parent body).find? name = none := rfl

theorem find?_ofDir (path : String) (parent : Option Nat) (name : String) :
    (ofDir path parent).find? name = none := by
  simp [ofDir, find?]

theorem find?_withName {e : Entry} (he : e.names.isSome) (name : String) (id : Nat)
    (other : String) :
    (e.withName name id).find? other = if other = name then some id else e.find? other := by
  obtain ⟨names, hn⟩ := Option.isSome_iff_exists.mp he
  simp only [find?, withName, hn, Option.map_some, Option.bind_some, Std.TreeMap.getElem?_insert,
    Std.LawfulEqOrd.compare_eq_iff_eq, @eq_comm _ other name]

theorem find?_withoutName (e : Entry) (name other : String) :
    (e.withoutName name).find? other = if other = name then none else e.find? other := by
  cases hn : e.names with
  | none => simp [find?, withoutName, hn]
  | some names =>
    simp only [find?, withoutName, hn, Option.map_some, Option.bind_some,
      Std.TreeMap.getElem?_erase, Std.LawfulEqOrd.compare_eq_iff_eq, @eq_comm _ other name]

end Entry

structure FileTree where
  arena : Arena Entry
  root : Nat

structure Item where
  name : String
  path : String
  kind : EntryKind
  deriving DecidableEq, Repr

namespace FileTree

def empty : FileTree :=
  let (arena, root) := Arena.empty.insert (.ofDir "/" none)
  ⟨arena, root⟩

def child? (t : FileTree) (dir : Nat) (name : String) : Option Nat :=
  (t.arena.get? dir).bind (·.find? name)

def resolve? (t : FileTree) (segs : List String) : Option Nat := segs.foldlM t.child? t.root

def entry? (t : FileTree) (path : String) : Option Entry :=
  (t.resolve? (Path.segments path)).bind t.arena.get?

def kind? (t : FileTree) (path : String) : Option EntryKind := (t.entry? path).map (·.kind)

def isDir (t : FileTree) (path : String) : Bool := t.kind? path == some .dir

def isFile (t : FileTree) (path : String) : Bool := t.kind? path == some .file

def contains (t : FileTree) (path : String) : Bool := (t.resolve? (Path.segments path)).isSome

def read? (t : FileTree) (path : String) : Option String := do
  let e ← t.entry? path
  if e.kind = .file then some e.body else none

def list? (t : FileTree) (path : String) : Option (List Item) := do
  let names ← (← t.entry? path).names
  return names.toList.filterMap fun (name, id) =>
    (t.arena.get? id).map fun e => ⟨name, e.path, e.kind⟩

def members (t : FileTree) (kind : EntryKind) (dir : Nat) : List Nat :=
  match t.arena.get? dir with
  | none => []
  | some e => e.ids.filter fun id => (t.arena.value id).kind = kind

def leaf (t : FileTree) (id : Nat) : Leaf :=
  let e := t.arena.value id
  ⟨e.path, e.body⟩

/-- The files below a directory, no deeper than the fuel. Those of a sub-directory come before the
directory's own. -/
def leavesBelow (t : FileTree) : Nat → Nat → List Leaf
  | 0, _ => []
  | fuel + 1, dir =>
    (t.members .dir dir).flatMap (t.leavesBelow fuel) ++ (t.members .file dir).map t.leaf

/-- Every file. No way down is longer than there are numbers. -/
def readAll (t : FileTree) : List Leaf := t.leavesBelow t.arena.next t.root

def size (t : FileTree) : Nat := t.arena.values.countP fun e => e.kind = .file

def isEmpty (t : FileTree) : Bool := t.size == 0

end FileTree
end FlowStudio
