import FlowStudio.Text.Basic
import FlowStudio.Text.Direction
import FlowStudio.Text.PlainForm
import FlowStudio.Text.Punycode
import FlowStudio.Text.Utf8

/-! Hosts in web addresses: names, and addresses of four or sixteen bytes. -/

namespace FlowStudio.Http
open Text

inductive Host where
  | named (text : String)
  /-- An address of four bytes, as one number. -/
  | short (address : Nat)
  /-- An address of sixteen bytes, as eight groups of two. -/
  | long (groups : List Nat)
  deriving DecidableEq, Repr

namespace Host

def group? (cs : List Char) : Option Nat :=
  if cs.isEmpty || 4 < cs.length then none else number? 16 cs

def byte? (cs : List Char) : Option Nat := do
  if cs.isEmpty || (cs.head? == some '0' && 1 < cs.length) then none
  let n ← number? 10 cs
  if n < 256 then some n else none

def lastGroups? (cs : List Char) : Option (List Nat) := do
  match ← (parts (· == '.') cs).mapM byte? with
  | [a, b, c, d] => some [256 * a + b, 256 * c + d]
  | _ => none

def groups? : List (List Char) → Option (List Nat)
  | [] => some []
  | [last] => (group? last).map ([·]) <|> lastGroups? last
  | cs :: rest => do some ((← group? cs) :: (← groups? rest))

def splitAtColons : List Char → List (List Char)
  | [] => [[]]
  | ':' :: ':' :: cs => [] :: splitAtColons cs
  | c :: cs => (splitAtColons cs).modifyHead (c :: ·)

def ofBrackets? (cs : List Char) : Option Host := do
  match splitAtColons cs with
  | [all] =>
    let groups ← groups? (parts (· == ':') all)
    if groups.length = 8 then some (.long groups) else none
  | [front, back] =>
    let front ← if front.isEmpty then some [] else (parts (· == ':') front).mapM group?
    let back ← if back.isEmpty then some [] else groups? (parts (· == ':') back)
    let given := front.length + back.length
    if given < 8 then some (.long (front ++ List.replicate (8 - given) 0 ++ back)) else none
  | _ => none

def part? : List Char → Option Nat
  | [] => none
  | '0' :: 'x' :: cs => number? 16 cs
  | '0' :: cs => number? 8 cs
  | cs => number? 10 cs

def valueBelow? : Nat → List Nat → Option Nat
  | _, [] => none
  | room, [last] => if last < room then some last else none
  | room, n :: rest => do
    let room := room / 256
    if room ≤ 1 ∨ 256 ≤ n then none
    some (n * room + (← valueBelow? room rest))

def ofName? (name : List Char) : Option Host :=
  let labels := parts (· == '.') name
  let labels := if 1 < labels.length && labels.getLast? == some [] then labels.dropLast else labels
  let last := labels.getLast?.getD []
  if (!last.isEmpty && last.all Char.isDigit) || (part? last).isSome then
    ((labels.mapM part?).bind (valueBelow? 4294967296)).map .short
  else some (.named (String.ofList name))

def standIn? (c : Char) : Option (List Char) :=
  if ignorable.has c then some []
  else if unprintable.has c || blankForms.has c || c == '\ufffc' || c == '\ufffd' then none
  else some (plainForm c)

/-- What a part of a name reads, none if it reads nothing. What follows `xn--` must spell a part in
another script, and no part begins with a mark. -/
def label? (label : List Char) : Option (List Char) := do
  let read ← match ['x', 'n', '-', '-'].isPrefixOf? label with
    | none => some label
    | some code =>
      let read ← Punycode.decode? code
      if read.any (0x80 ≤ ·.toNat) && read.all (fun c => standIn? c == some [c]) then some read
      else none
  if read.head?.any isMark then none else some read

def isReadable (labels : List (List Char)) : Bool :=
  !labels.any (·.any fun c => (Direction.of c).isRightward) || labels.all keepsDirection

def isForbidden (c : Char) : Bool := " \"#%/:<>?@[\\]^\x60\x7b|\x7d".toList.contains c

def unescaped : List Char → List UInt8
  | [] => []
  | '%' :: a :: b :: cs =>
    match number? 16 [a, b] with
    | some n => n.toUInt8 :: unescaped cs
    | none => 37 :: unescaped (a :: b :: cs)
  | c :: cs => toUtf8 (String.singleton c) ++ unescaped cs

def ofChars? : List Char → Option Host
  | '[' :: cs => if cs.getLast? == some ']' then ofBrackets? cs.dropLast else none
  | cs => do
    let text ← ofUtf8? (unescaped cs)
    let name := (← text.toList.mapM standIn?).flatten
    if name.isEmpty || name.any isForbidden then none
    let labels ← (parts (· == '.') name).mapM label?
    if isReadable labels then ofName? name else none

def figures (n : Nat) : String := String.ofList (Nat.toDigits 16 n)

def bare : Host → String
  | named text => text
  | short n =>
    ".".intercalate ([n / 16777216, n / 65536 % 256, n / 256 % 256, n % 256].map toString)
  | long groups => ":".intercalate (groups.map figures)

def text : Host → String
  | long groups => "[" ++ bare (long groups) ++ "]"
  | host => bare host

end Host
end FlowStudio.Http
