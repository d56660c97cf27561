import FlowStudio.Path
import FlowStudio.Text.Utf8

/-! The files of a machine, as far as the program sees them: directories, files with their bytes,
and symbolic links, with the rules by which a path finds its way among them. -/

namespace FlowStudio

/-- Why a file operation fails. The first six are the system's reasons, `other` is any other one. A
path with a zero byte is not even asked for. -/
inductive IoError where
  | notFound
  | exists
  | notDirectory
  | isDirectory
  | linkLoop
  | nameTooLong
  | zeroByte
  | notText
  | refused (error : PathError)
  | noLogDirectory
  | other (text : String)
  deriving DecidableEq, Repr

def IoError.message : IoError → String
  | .notFound => "No such file or directory (os error 2)"
  | .exists => "File exists (os error 17)"
  | .notDirectory => "Not a directory (os error 20)"
  | .isDirectory => "Is a directory (os error 21)"
  | .linkLoop => "Too many levels of symbolic links (os error 40)"
  | .nameTooLong => "File name too long (os error 36)"
  | .zeroByte => "file name contained an unexpected NUL byte"
  | .notText => "stream did not contain valid UTF-8"
  | .refused error => error.message
  | .noLogDirectory => "Cannot determine log directory"
  | .other text => text

inductive DiskEntry where
  | file (bytes : List UInt8)
  | dir
  | link (target : String)
  deriving DecidableEq, Repr

/-- Entries by the names that lead to them from the root, which is a directory and not listed. -/
structure Disk where
  entries : List (List String × DiskEntry)
  workDir : List String
  deriving Repr

/-- Where a path leads: to an entry, or to a name that is free in a directory; `asDirectory` tells
whether the path ends in a slash. -/
inductive Place where
  | found (path : List String) (entry : DiskEntry)
  | free (directory : List String) (name : String) (asDirectory : Bool)

namespace Disk

def empty (workDir : List String) : Disk := ⟨[], workDir⟩

def entry? (d : Disk) : List String → Option DiskEntry
  | [] => some .dir
  | path => d.entries.lookup path

def put (d : Disk) (path : List String) (entry : DiskEntry) : Disk :=
  { d with entries := d.entries.filter (·.1 != path) ++ [(path, entry)] }

def children (d : Disk) (path : List String) : List (String × DiskEntry) :=
  d.entries.filterMap fun (p, e) => match p.getLast? with
    | some name => if p.dropLast = path then some (name, e) else none
    | none => none

def pieces (path : String) : List String := (Path.pieces path.toList).map String.ofList

def isAbsolute (path : String) : Bool := path.toList.head? == some '/'

/-- Follows names from a directory up to a symbolic link that is not the end, or that `through` says
to follow even there; `jump` goes on from the directory and with the names that the link leads to. -/
def walk (d : Disk) (through : Bool) (jump : List String → List String → Except IoError Place) :
    List String → List String → Except IoError Place
  | here, [] => .ok (.found here .dir)
  | here, name :: rest =>
    if name = "" ∨ name = "." then d.walk through jump here rest
    else if name = ".." then d.walk through jump here.dropLast rest
    else if 255 < name.utf8ByteSize then .error .nameTooLong
    else
      match d.entry? (here ++ [name]) with
      | some .dir => d.walk through jump (here ++ [name]) rest
      | some (.file bytes) =>
        if rest.isEmpty then .ok (.found (here ++ [name]) (.file bytes)) else .error .notDirectory
      | some (.link target) =>
        if rest.isEmpty && !through then .ok (.found (here ++ [name]) (.link target))
        else jump (if isAbsolute target then [] else here) (pieces target ++ rest)
      | none =>
        if rest.all (· == "") then .ok (.free here name !rest.isEmpty) else .error .notFound

def follow (d : Disk) (through : Bool) : Nat → List String → List String → Except IoError Place
  | 0 => d.walk through fun _ _ => .error .linkLoop
  | links + 1 => d.walk through (d.follow through links)

def place (d : Disk) (through : Bool) (path : String) : Except IoError Place :=
  if path.toList.contains '\x00' then .error .zeroByte
  else if path.isEmpty then .error .notFound
  else if 4096 ≤ path.utf8ByteSize then .error .nameTooLong
  else d.follow through 40 (if isAbsolute path then [] else d.workDir) (pieces path)

def resolve (d : Disk) (path : String) : Except IoError (List String × DiskEntry) := do
  match ← d.place true path with
  | .found real entry => .ok (real, entry)
  | .free .. => .error .notFound

def contains (d : Disk) (path : String) : Bool := (d.resolve path).isOk

def isDir (d : Disk) (path : String) : Bool :=
  match d.resolve path with
  | .ok (_, .dir) => true
  | _ => false

def read (d : Disk) (path : String) : Except IoError (List UInt8) := do
  match ← d.resolve path with
  | (_, .file bytes) => .ok bytes
  | _ => .error .isDirectory

def readText (d : Disk) (path : String) : Except IoError String := do
  match Text.ofUtf8? (← d.read path) with
  | some text => .ok text
  | none => .error .notText

def write (d : Disk) (path : String) (bytes : List UInt8) : Except IoError Disk := do
  match ← d.place true path with
  | .found real (.file _) => .ok (d.put real (.file bytes))
  | .found .. => .error .isDirectory
  | .free directory name asDirectory =>
    if asDirectory then .error .isDirectory else .ok (d.put (directory ++ [name]) (.file bytes))

def makeDir (d : Disk) (path : String) : Except IoError Disk := do
  match ← d.place false path with
  | .found .. => .error .exists
  | .free directory name _ => .ok (d.put (directory ++ [name]) .dir)

def join (base name : String) : String :=
  if base.isEmpty || base.endsWith "/" then base ++ name else base ++ "/" ++ name

def spell (rooted : Bool) (names : List String) : String :=
  (if rooted then "/" else "") ++ "/".intercalate names

/-- Makes the directory of some names, given in reverse, and those above it that are missing. -/
def makeDirsFrom (rooted : Bool) : List String → Disk → Except IoError Disk
  | [], d => .ok d
  | name :: above, d =>
    let path := spell rooted (name :: above).reverse
    match d.makeDir path with
    | .ok d => .ok d
    | .error .notFound => do
      let d ← makeDirsFrom rooted above d
      match d.makeDir path with
      | .ok d => .ok d
      | .error e => if d.isDir path then .ok d else .error e
    | .error e => if d.isDir path then .ok d else .error e

def makeDirs (d : Disk) (path : String) : Except IoError Disk :=
  makeDirsFrom (isAbsolute path) ((pieces path).filter (· != "")).reverse d

end Disk
end FlowStudio
