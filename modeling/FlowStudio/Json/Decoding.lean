import FlowStudio.Decimal.Format
import FlowStudio.Json.Reader
import FlowStudio.Text.Quoted

/-! Decoding: from a JSON value to a value of the library. The first problem in text order is the
one reported. A record is read from an object, whose members may stand in any order and among
unknown ones, or from an array of its fields in order. -/

namespace FlowStudio.Json

inductive Mismatch where
  | invalidType (found : Shape) (expected : String)
  | invalidValue (found : Shape) (expected : String)
  | invalidLength (length : Nat) (expected : String)
  | unknownVariant (name : String) (known : List String)
  | duplicateField (name : String)
  | missingField (name : String)
  deriving Repr

inductive Problem where
  | text (fault : Fault)
  | shape (mismatch : Mismatch)
  deriving Repr

abbrev Decoder (α : Type) := Json → Except Problem α

def Shape.describe : Shape → String
  | .null => "null"
  | .boolean b => "boolean `" ++ (if b then "true" else "false") ++ "`"
  | .integer n => "integer `" ++ toString n ++ "`"
  | .float x => "floating point `" ++ Decimal.Format.design.text x ++ "`"
  | .string s => "string " ++ FlowStudio.Text.quoted s
  | .sequence => "sequence"
  | .map => "map"

def ticked (name : String) : String := "`" ++ name ++ "`"

def Mismatch.message : Mismatch → String
  | .invalidType found expected => "invalid type: " ++ found.describe ++ ", expected " ++ expected
  | .invalidValue found expected => "invalid value: " ++ found.describe ++ ", expected " ++ expected
  | .invalidLength n expected => "invalid length " ++ toString n ++ ", expected " ++ expected
  | .unknownVariant name known =>
    "unknown variant " ++ ticked name ++ ", expected one of " ++ ", ".intercalate (known.map ticked)
  | .duplicateField name => "duplicate field " ++ ticked name
  | .missingField name => "missing field " ++ ticked name

def Problem.message : Problem → String
  | .text fault => fault.message
  | .shape mismatch => mismatch.message

def refuse {α : Type} (expected : String) (found : Json) : Except Problem α :=
  match found.shape with
  | .ok shape => .error (.shape (.invalidType shape expected))
  | .error fault => .error (.text fault)

def Ending.check : Ending → Except Problem Unit
  | .closed => .ok ()
  | .broken fault => .error (.text fault)

def decodeString : Decoder String
  | .string s => .ok s
  | other => refuse "a string" other

def Number.toFloat : Number → Float
  | .integer n =>
    if n < 0 then -(n.natAbs.toUInt64.toFloat) else n.natAbs.toUInt64.toFloat
  | .float x => x

def decodeFloat : Decoder Float
  | .number n => .ok n.toFloat
  | other => refuse "f64" other

def decodeUInt64 : Decoder UInt64
  | .number (.integer n) =>
    if n < 0 then .error (.shape (.invalidValue (.integer n) "u64")) else .ok n.natAbs.toUInt64
  | other => refuse "u64" other

def decodeUnit : Decoder Unit
  | .null => .ok ()
  | other => refuse "unit" other

def decodeOption {α : Type} (decode : Decoder α) : Decoder (Option α)
  | .null => .ok none
  | other => (decode other).map some

def decodeItems {α : Type} (decode : Decoder α) (ending : Ending) :
    List Json → Except Problem (List α)
  | [] => ending.check.map fun _ => []
  | v :: vs => do
    let x ← decode v
    let xs ← decodeItems decode ending vs
    .ok (x :: xs)

def decodeList {α : Type} (decode : Decoder α) : Decoder (List α)
  | .array items ending => decodeItems decode ending items
  | other => refuse "a sequence" other

def finish (items : List Json) (ending : Ending) : Except Problem Unit :=
  match items, ending with
  | [], .closed => .ok ()
  | [], .broken .openList => .error (.text .openList)
  | .cut _ .trailingComma :: _, _ => .error (.text .trailingComma)
  | _, _ => .error (.text .trailingText)

def short {α : Type} (ending : Ending) (length : Nat) (expected : String) : Except Problem α := do
  ending.check
  .error (.shape (.invalidLength length expected))

def decodePair {α β : Type} (first : Decoder α) (second : Decoder β) : Decoder (α × β)
  | .array items ending =>
    match items with
    | [] => short ending 0 "a tuple of size 2"
    | v :: items => do
      let a ← first v
      match items with
      | [] => short ending 1 "a tuple of size 2"
      | w :: items => do
        let b ← second w
        finish items ending
        .ok (a, b)
  | other => refuse "a tuple of size 2" other

def finishOnly (members : List (Except Fault String × Json)) (ending : Ending) :
    Except Problem Unit :=
  match members, ending with
  | [], .closed => .ok ()
  | [], .broken .openObject => .error (.text .openObject)
  | _, _ => .error (.text .noValue)

/-- One of several names, standing alone or as the only member of an object, with `null` for its
value. An object must go on with the name; anything else in its place counts as no value at all. -/
def decodeName {α : Type} (names : List (String × α)) : Decoder α
  | .string s => named s
  | .object [] ending =>
    match ending with
    | .closed => .error (.text .unnamed)
    | .broken fault => .error (.text fault)
  | .object ((.error fault, _) :: _) _ => .error (.text fault)
  | .object ((.ok key, value) :: more) ending => do
    let a ← named key
    decodeUnit value
    finishOnly more ending
    .ok a
  | .cut .quote fault => .error (.text fault)
  | .cut .nothing fault => .error (.text fault)
  | _ => .error (.text .noValue)
where
  named (s : String) : Except Problem α :=
    match names.lookup s with
    | some a => .ok a
    | none => .error (.shape (.unknownVariant s (names.map (·.1))))

structure Field (α : Type) where
  name : String
  required : Bool
  read : Json → α → Except Problem α

def field {α β : Type} (name : String) (decode : Decoder β) (set : β → α → α) : Field α :=
  ⟨name, true, fun v record => (decode v).map (set · record)⟩

def Field.optional {α : Type} (f : Field α) : Field α := { f with required := false }

/-- A record type: its name, its fields in order, and the record to start from, which holds the
values of the fields that may be left out. -/
structure Form (α : Type) where
  name : String
  fields : List (Field α)
  blank : α

def Form.elements {α : Type} (form : Form α) : String :=
  "struct " ++ form.name ++ " with " ++ toString form.fields.length ++
    (if form.fields.length = 1 then " element" else " elements")

def Form.missing? {α : Type} (form : Form α) (seen : List String) : Option String :=
  (form.fields.find? fun f => f.required && !seen.contains f.name).map (·.name)

def Form.decodeMembers {α : Type} (form : Form α) (ending : Ending) :
    List (Except Fault String × Json) → List String → α → Except Problem α
  | [], seen, record => do
    ending.check
    match form.missing? seen with
    | some name => .error (.shape (.missingField name))
    | none => .ok record
  | (.error fault, _) :: _, _, _ => .error (.text fault)
  | (.ok key, value) :: more, seen, record =>
    match form.fields.find? (·.name == key) with
    | none => form.decodeMembers ending more seen record
    | some f => do
      if seen.contains key then .error (.shape (.duplicateField key))
      let record ← f.read value record
      form.decodeMembers ending more (key :: seen) record

def decodeElements {α : Type} (expected : String) (ending : Ending) :
    Nat → List (Field α) → List Json → α → Except Problem α
  | _, [], items, record => (finish items ending).map fun _ => record
  | n, f :: fs, [], record => do
    ending.check
    if f.required then .error (.shape (.invalidLength n expected))
    decodeElements expected ending (n + 1) fs [] record
  | n, f :: fs, v :: items, record => do
    let record ← f.read v record
    decodeElements expected ending (n + 1) fs items record

def Form.decode {α : Type} (form : Form α) : Decoder α
  | .object members ending => form.decodeMembers ending members [] form.blank
  | .array items ending => decodeElements form.elements ending 0 form.fields items form.blank
  | other => refuse ("struct " ++ form.name) other

def Document.decode {α : Type} (d : Document) (decode : Decoder α) : Except Problem α := do
  let a ← decode d.root
  match d.trailer with
  | some fault => .error (.text fault)
  | none => .ok a

end FlowStudio.Json
