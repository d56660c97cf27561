import FlowStudio.Text.Quoted

/-! Slash-separated paths. Empty pieces do not count, so a path stands for the list of its non-empty
pieces, and `join` writes such a list in the one canonical way. -/

namespace FlowStudio

inductive PathError where
  | invalidPath (path : String)
  | conflict (path : String)
  | notFound (path : String)
  | rootRemoval
  deriving DecidableEq, Repr

def PathError.message : PathError → String
  | .invalidPath path => "invalid path: " ++ Text.quoted path
  | .conflict path => path ++ " already exists with a different kind"
  | .notFound path => path ++ " not found"
  | .rootRemoval => "the root directory cannot be removed"

namespace Path

def pieces : List Char → List (List Char)
  | [] => [[]]
  | c :: cs =>
    if c = '/' then [] :: pieces cs
    else match pieces cs with
      | [] => [[c]]
      | p :: ps => (c :: p) :: ps

def lastPiece (path : String) : String := String.ofList ((pieces path.toList).getLastD [])

def segments (path : String) : List String :=
  ((pieces path.toList).filter fun p => !p.isEmpty).map String.ofList

def isStep (segment : String) : Bool := segment == "." || segment == ".."

def checked (path : String) : Except PathError (List String) :=
  let segs := segments path
  if segs.any isStep then .error (.invalidPath path) else .ok segs

def join : List String → String
  | [] => "/"
  | segs => String.join (segs.map ("/" ++ ·))

/-- The canonical form: a leading slash, no empty segment, no step. -/
def normalize (path : String) : Except PathError String := (checked path).map join

end Path
end FlowStudio
