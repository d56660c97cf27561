/-! The tools that a checked system can be shown in, at most one of them selected. -/

namespace FlowStudio

structure Tool where
  name : String
  path : String
  deriving DecidableEq, Repr

def defaultTools : List Tool :=
  [⟨"std@debug v1.0.0", "/std/debug/1.0.0"⟩, ⟨"std@json v1.0.0", "/std/json/1.0.0"⟩,
    ⟨"std@view v0.2.0", "/std/view/0.2.0"⟩, ⟨"std@eval v0.1.0", "/std/eval/0.1.0"⟩,
    ⟨"std@check v0.1.0", "/std/check/0.1.0"⟩]

structure Toolbox where
  tools : List Tool
  selection : Option Nat
  deriving DecidableEq, Repr

namespace Toolbox

def ofTools (tools : List Tool) : Toolbox := ⟨tools, none⟩

def selected? (t : Toolbox) : Option Tool := t.selection.bind fun i => t.tools[i]?

/-- Selects the first tool of a name, none if there is no such tool or it is selected already. -/
def select? (t : Toolbox) (name : String) : Option Toolbox :=
  match t.tools.findIdx? (·.name == name) with
  | none => none
  | some i => if t.selection = some i then none else some { t with selection := some i }

end Toolbox
end FlowStudio
