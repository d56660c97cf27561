import FlowStudio.Disk.Basic
import FlowStudio.Ignore.Rules

/-! What a directory says to pass over: in an ignore file of its own, and, if it lies in a
repository, in the files of the repository. -/

namespace FlowStudio.Disk
open Ignore

structure Lists where
  depth : Nat
  plain : List Rule
  versioned : List Rule
  own : List Rule
  isRepository : Bool

def rulesIn (d : Disk) (path : String) : List Rule :=
  match d.read path with
  | .ok bytes => rulesOf bytes
  | .error _ => []

def firstLine? (bytes : List UInt8) : Option (List Char) :=
  if bytes.isEmpty then none else (textLines bytes).head?

def repositoryAt? (bytes : List UInt8) : Option String := do
  let line ← firstLine? bytes
  ("gitdir: ".toList.isPrefixOf? line).map String.ofList

def sharedAt? (repository : String) (bytes : List UInt8) : Option String :=
  (firstLine? bytes).map fun line =>
    if line.head? == some '.' then join repository (String.ofList line) else String.ofList line

def ownFilesAt {m : Type → Type} [Monad m] (read : String → m (Option (List UInt8)))
    (path : String) : m (Option String) := do
  match ← read path with
  | none => return some path
  | some bytes =>
    -- a file in place of the directory tells where it is
    match repositoryAt? bytes with
    | none => return none
    | some repository =>
      return (← read (join repository "commondir")).bind (sharedAt? repository)

def listsIn (d : Disk) (dir : List String) : Lists :=
  let file (name : String) : String := spell true (dir ++ [name])
  let own? : Option String :=
    Id.run (ownFilesAt (fun path => (d.read path).toOption) (file ".git"))
  ⟨dir.length, d.rulesIn (file ".ignore"), d.rulesIn (file ".gitignore"),
    own?.elim [] fun path => d.rulesIn (join path "info/exclude"),
    d.contains (file ".git") || d.contains (file ".jj")⟩

def firstVerdict? (rules : Lists → List Rule) (path : List String) (isDir : Bool)
    (levels : List Lists) : Option Verdict :=
  levels.findSome? fun l => judge (rules l) (path.drop l.depth) isDir

def insideRepository (levels : List Lists) : List Lists :=
  if levels.any (·.isRepository) then
    let (inner, outer) := levels.span (!·.isRepository)
    -- lists from above the nearest repository are not its own
    inner ++ outer.take 1
  else []

/-- The verdict on a path; `levels` are the lists of the directories above it, the nearest first.
Plain ignore files count before those of a repository. -/
def verdict? (levels : List Lists) (path : List String) (isDir : Bool) : Option Verdict :=
  let inside := insideRepository levels
  firstVerdict? (·.plain) path isDir levels
    <|> firstVerdict? (·.versioned) path isDir inside
    <|> firstVerdict? (·.own) path isDir inside

end FlowStudio.Disk
