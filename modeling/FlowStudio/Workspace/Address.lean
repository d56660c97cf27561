import FlowStudio.Path

/-! Addresses on the workspace server. -/

namespace FlowStudio.Workspace

def trimSlashes (cs : List Char) : List Char := cs.dropWhile (· == '/')

def trimLeft (s : String) : String := String.ofList (trimSlashes s.toList)

def trimRight (s : String) : String := String.ofList (trimSlashes s.toList.reverse).reverse

/-- The address of a workspace or of a file in it, with one slash at each join; an empty tail is the
address of all workspaces. -/
def url (base tail : String) : String :=
  let tail := trimLeft tail
  if tail.isEmpty then trimRight base ++ "/workspace" else trimRight base ++ "/workspace/" ++ tail

/-- The rest of a key after the identifier of its workspace, or the whole key if that does not stand
in front of it as a name of its own. -/
def keyRest (id key : String) : String :=
  match id.toList.isPrefixOf? key.toList with
  | some [] => ""
  | some ('/' :: rest) => String.ofList ('/' :: rest)
  | _ => key

def keyPath (id key : String) : Except PathError String := Path.normalize (keyRest id key)

def partName (name : String) : String := trimLeft name

end FlowStudio.Workspace
