import FlowStudio.Decimal.Format
import FlowStudio.Json.Quote

/-! Writing a JSON value, on one line or with one item a line. -/

namespace FlowStudio.Json

def Number.text : Number → String
  | .integer n => toString n
  | .float x => Decimal.Format.design.text x

def keyText : Except Fault String → String
  | .ok name => quoted name
  | .error _ => quoted ""

mutual

def compact : Json → String
  | .null => "null"
  | .bool b => if b then "true" else "false"
  | .number n => n.text
  | .string s => quoted s
  | .array items _ => "[" ++ ",".intercalate (compactItems items) ++ "]"
  | .object members _ => "\x7b" ++ ",".intercalate (compactMembers members) ++ "\x7d"
  | .cut .. => "null"

def compactItems : List Json → List String
  | [] => []
  | v :: vs => compact v :: compactItems vs

def compactMembers : List (Except Fault String × Json) → List String
  | [] => []
  | (key, v) :: rest => (keyText key ++ ":" ++ compact v) :: compactMembers rest

end

def block (opening closing : String) (indent : String) (lines : List String) : String :=
  if lines.isEmpty then opening ++ closing
  else
    opening ++ "\n" ++ ",\n".intercalate (lines.map (indent ++ "  " ++ ·)) ++ "\n" ++ indent ++
      closing

mutual

def prettyAt (indent : String) : Json → String
  | .array items _ => block "[" "]" indent (prettyItems (indent ++ "  ") items)
  | .object members _ => block "\x7b" "\x7d" indent (prettyMembers (indent ++ "  ") members)
  | .null => "null"
  | .bool b => if b then "true" else "false"
  | .number n => n.text
  | .string s => quoted s
  | .cut .. => "null"

def prettyItems (indent : String) : List Json → List String
  | [] => []
  | v :: vs => prettyAt indent v :: prettyItems indent vs

def prettyMembers (indent : String) : List (Except Fault String × Json) → List String
  | [] => []
  | (key, v) :: rest => (keyText key ++ ": " ++ prettyAt indent v) :: prettyMembers indent rest

end

def pretty : Json → String := prettyAt ""

end FlowStudio.Json
