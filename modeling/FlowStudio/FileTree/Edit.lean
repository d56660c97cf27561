import FlowStudio.FileTree.Basic

/-! Changes of a tree. An edit that is refused says why, and what it leaves behind is part of its
answer. -/

namespace FlowStudio

structure Edit (α : Type) where
  tree : FileTree
  result : Except PathError α

/-- An edit for those who have no use for the tree of one that was refused. -/
def Edit.outcome {α : Type} (e : Edit α) : Except PathError (FileTree × α) :=
  e.result.map fun a => (e.tree, a)

namespace FileTree

def insertChild (t : FileTree) (parent : Nat) (name : String) (entry : Entry) : FileTree × Nat :=
  let (arena, id) := t.arena.insert entry
  ({ t with arena := arena.modify parent (·.withName name id) }, id)

def obstacle? (t : FileTree) (dir : Nat) (above : List String) : List String → Option String
  | [] => none
  | s :: ss =>
    match t.child? dir s with
    | none => none
    | some id =>
      if (t.arena.value id).kind = .dir then t.obstacle? id (above ++ [s]) ss
      else some (Path.join (above ++ [s]))

def descend (t : FileTree) (dir : Nat) (above : List String) : List String → FileTree × Nat
  | [] => (t, dir)
  | s :: ss =>
    match t.child? dir s with
    | some id => t.descend id (above ++ [s]) ss
    | none =>
      let (t, id) := t.insertChild dir s (.ofDir (Path.join (above ++ [s])) (some dir))
      t.descend id (above ++ [s]) ss

def addDirectory (t : FileTree) (path : String) : Edit Nat :=
  match Path.checked path with
  | .error e => ⟨t, .error e⟩
  | .ok segs =>
    match t.obstacle? t.root [] segs with
    | some file => ⟨t, .error (.conflict file)⟩
    | none =>
      let (t, id) := t.descend t.root [] segs
      ⟨t, .ok id⟩

def write (t : FileTree) (id : Nat) (body : String) : FileTree :=
  { t with arena := t.arena.modify id (·.withBody body) }

def addParents (t : FileTree) (parents : List String) : Edit Nat :=
  if parents.isEmpty then ⟨t, .ok t.root⟩ else t.addDirectory (Path.join parents)

def addFile (t : FileTree) (path body : String) : Edit Nat :=
  match Path.checked path with
  | .error e => ⟨t, .error e⟩
  | .ok segs =>
    match segs.getLast? with
    | none => ⟨t, .error (.invalidPath path)⟩
    | some name =>
      match t.resolve? segs with
      | some id =>
        let e := t.arena.value id
        if e.kind = .dir then ⟨t, .error (.conflict e.path)⟩ else ⟨t.write id body, .ok id⟩
      | none =>
        let above := t.addParents segs.dropLast
        match above.result with
        | .error e => ⟨above.tree, .error e⟩
        | .ok parent =>
          let (t, id) := above.tree.insertChild parent name (.ofFile (Path.join segs) parent body)
          ⟨t, .ok id⟩

def prune : Nat → Arena Entry → Nat → Arena Entry
  | 0, arena, _ => arena
  | fuel + 1, arena, id =>
    match arena.get? id with
    | none => arena
    | some e => e.ids.foldl (prune fuel) (arena.erase id)

def unlink (t : FileTree) (id : Nat) (name : String) : FileTree :=
  match (t.arena.get? id).bind (·.parent) with
  | none => t
  | some parent => { t with arena := t.arena.modify parent (·.withoutName name) }

def delete (t : FileTree) (path : String) : Edit Unit :=
  let segs := Path.segments path
  match segs.getLast? with
  | none => ⟨t, .error .rootRemoval⟩
  | some name =>
    match t.resolve? segs with
    | none => ⟨t, .error (.notFound (Path.join segs))⟩
    | some id =>
      let t := t.unlink id name
      -- numbers grow on the way down, so none is longer than the next number
      ⟨{ t with arena := prune t.arena.next t.arena id }, .ok ()⟩

def makeDirectory (t : FileTree) (path : String) : Except PathError (FileTree × Nat) :=
  (t.addDirectory path).outcome

def makeFile (t : FileTree) (path body : String) : Except PathError (FileTree × Nat) :=
  (t.addFile path body).outcome

def remove (t : FileTree) (path : String) : Except PathError FileTree :=
  (t.delete path).outcome.map (·.1)

def writeAll (t : FileTree) (leaves : List Leaf) : FileTree :=
  leaves.foldl (fun t leaf => (t.addFile leaf.name leaf.body).tree) t

def ofLeaves (leaves : List Leaf) : FileTree := empty.writeAll leaves

end FileTree
end FlowStudio
