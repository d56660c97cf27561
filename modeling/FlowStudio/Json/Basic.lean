/-! JSON values, together with the places at which a text stops being JSON. A text is read as far
as it goes; where it breaks off, the value holds a `cut` and every array or object around it is
`broken`. Whoever decodes the value walks it in text order, so of two problems the earlier one is
found first, whether it lies in the text or in the shape of the value. -/

namespace FlowStudio

namespace Json

/-- Why a text is not JSON. The first four are texts that end too early. -/
inductive Fault where
  | openValue
  | openText
  | openList
  | openObject
  | noValue
  | noWord
  | noColon
  | noListEnd
  | noObjectEnd
  | badNumber
  | outOfRange
  | badEscape
  | control
  | halfPair
  | openPair
  | unnamed
  | trailingComma
  | trailingText
  deriving DecidableEq, Repr, Inhabited

def Fault.message : Fault → String
  | .openValue => "EOF while parsing a value"
  | .openText => "EOF while parsing a string"
  | .openList => "EOF while parsing a list"
  | .openObject => "EOF while parsing an object"
  | .noValue => "expected value"
  | .noWord => "expected ident"
  | .noColon => "expected `:`"
  | .noListEnd => "expected `,` or `]`"
  | .noObjectEnd => "expected `,` or `\x7d`"
  | .badNumber => "invalid number"
  | .outOfRange => "number out of range"
  | .badEscape => "invalid escape"
  | .control => "control character (\\u0000-\\u001F) found while parsing a string"
  | .halfPair => "lone leading surrogate in hex escape"
  | .openPair => "unexpected end of hex escape"
  | .unnamed => "key must be a string"
  | .trailingComma => "trailing comma"
  | .trailingText => "trailing characters"

inductive Number where
  | integer (value : Int)
  | float (value : Float)
  deriving Repr, Inhabited

inductive Shape where
  | null
  | boolean (value : Bool)
  | integer (value : Int)
  | float (value : Float)
  | string (text : String)
  | sequence
  | map
  deriving Repr, Inhabited

inductive Start where
  | nothing
  | word
  | quote
  deriving DecidableEq, Repr, Inhabited

inductive Ending where
  | closed
  | broken (fault : Fault)
  deriving Repr, Inhabited

end Json

inductive Json where
  | null
  | bool (value : Bool)
  | number (value : Json.Number)
  | string (text : String)
  | array (items : List Json) (ending : Json.Ending)
  | object (members : List (Except Json.Fault String × Json)) (ending : Json.Ending)
  | cut (start : Json.Start) (fault : Json.Fault)
  deriving Inhabited

namespace Json

def Number.shape : Number → Shape
  | .integer n => .integer n
  | .float x => .float x

def shape : Json → Except Fault Shape
  | .null => .ok .null
  | .bool b => .ok (.boolean b)
  | .number n => .ok n.shape
  | .string s => .ok (.string s)
  | .array .. => .ok .sequence
  | .object .. => .ok .map
  | .cut _ fault => .error fault

def list (items : List Json) : Json := .array items .closed

def record (members : List (String × Json)) : Json :=
  .object (members.map fun (name, value) => (.ok name, value)) .closed

def nat (n : Nat) : Json := .number (.integer n)

def float (x : Float) : Json := if x.isFinite then .number (.float x) else .null

end Json
end FlowStudio
