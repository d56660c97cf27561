import FlowStudio.Json.Number
import FlowStudio.Json.Quote

/-! Reading a JSON text. -/

namespace FlowStudio.Json

/-- A value with the text that follows it, or the fault that keeps it from being passed over. -/
structure Parsed (α : Type) where
  value : α
  rest : Except Fault (List Char)

def isGap (c : Char) : Bool := c = ' ' || c = '\n' || c = '\t' || c = '\r'

def skipGap (cs : List Char) : List Char := cs.dropWhile isGap

def word (value : Json) : List Char → List Char → Parsed Json
  | [], cs => ⟨value, .ok cs⟩
  | _ :: _, [] => ⟨.cut .word .openValue, .error .openValue⟩
  | w :: ws, c :: cs =>
    if w = c then word value ws cs else ⟨.cut .word .noWord, .error .noWord⟩

def numeral (cs : List Char) : Parsed Json :=
  match literal cs with
  | .error fault => ⟨.cut .word fault, .error .badNumber⟩
  | .ok (l, rest) =>
    ⟨match l.value with
      | .ok n => .number n
      | .error fault => .cut .word fault, .ok rest⟩

def Scan.json (s : Scan String) : Parsed Json :=
  ⟨match s.value with
    | .ok text => .string text
    | .error fault => .cut .quote fault, s.rest⟩

mutual

/-- Reads a value. The fuel is more than twice the number of characters left. -/
def readValue : Nat → List Char → Parsed Json
  | 0, _ => ⟨.cut .nothing .noValue, .error .noValue⟩
  | fuel + 1, cs =>
    match skipGap cs with
    | [] => ⟨.cut .nothing .openValue, .error .openValue⟩
    | 'n' :: r => word .null ['u', 'l', 'l'] r
    | 't' :: r => word (.bool true) ['r', 'u', 'e'] r
    | 'f' :: r => word (.bool false) ['a', 'l', 's', 'e'] r
    | '"' :: r => (quote fuel r).json
    | '[' :: r =>
      match skipGap r with
      | ']' :: rest => ⟨.array [] .closed, .ok rest⟩
      | [] => ⟨.array [] (.broken .openList), .error .openList⟩
      | r =>
        let p := readItems fuel r
        ⟨.array p.value.1 p.value.2, p.rest⟩
    | '{' :: r =>
      match skipGap r with
      | '}' :: rest => ⟨.object [] .closed, .ok rest⟩
      | [] => ⟨.object [] (.broken .openObject), .error .openObject⟩
      | r =>
        let p := readMembers fuel r
        ⟨.object p.value.1 p.value.2, p.rest⟩
    | c :: r =>
      if c = '-' ∨ c.isDigit then numeral (c :: r)
      else ⟨.cut .nothing .noValue, .error .noValue⟩

def readItems : Nat → List Char → Parsed (List Json × Ending)
  | 0, _ => ⟨([], .broken .noValue), .error .noValue⟩
  | fuel + 1, cs =>
    let p := readValue fuel cs
    let stop (fault : Fault) : Parsed (List Json × Ending) :=
      ⟨([p.value], .broken fault), .error fault⟩
    match p.rest with
    | .error fault => stop fault
    | .ok after =>
      match skipGap after with
      | [] => stop .openList
      | ']' :: rest => ⟨([p.value], .closed), .ok rest⟩
      | ',' :: more =>
        match skipGap more with
        | ']' :: _ =>
          ⟨([p.value, .cut .nothing .trailingComma], .broken .noValue), .error .noValue⟩
        | more =>
          let q := readItems fuel more
          ⟨(p.value :: q.value.1, q.value.2), q.rest⟩
      | _ => stop .noListEnd

def readMembers : Nat → List Char → Parsed (List (Except Fault String × Json) × Ending)
  | 0, _ => ⟨([], .broken .noValue), .error .noValue⟩
  | fuel + 1, cs =>
    match cs with
    | '"' :: r =>
      let key := quote fuel r
      let stop (value : Json) (fault : Fault) :
          Parsed (List (Except Fault String × Json) × Ending) :=
        ⟨([(key.value, value)], .broken fault), .error fault⟩
      match key.rest with
      | .error fault => stop (.cut .nothing fault) fault
      | .ok afterKey =>
        match skipGap afterKey with
        | [] => stop (.cut .nothing .openObject) .openObject
        | ':' :: atValue =>
          let p := readValue fuel atValue
          match p.rest with
          | .error fault => stop p.value fault
          | .ok after =>
            match skipGap after with
            | [] => stop p.value .openObject
            | '}' :: rest => ⟨([(key.value, p.value)], .closed), .ok rest⟩
            | ',' :: more =>
              match skipGap more with
              | [] => ⟨([(key.value, p.value)], .broken .openValue), .error .openObject⟩
              | '}' :: _ => ⟨([(key.value, p.value)], .broken .trailingComma), .error .unnamed⟩
              | more =>
                let q := readMembers fuel more
                ⟨((key.value, p.value) :: q.value.1, q.value.2), q.rest⟩
            | _ => stop p.value .noObjectEnd
        | _ => stop (.cut .nothing .noColon) .noColon
    | _ => ⟨([], .broken .unnamed), .error .unnamed⟩

end

structure Document where
  root : Json
  trailer : Option Fault

def Document.ofString (text : String) : Document :=
  let cs := text.toList
  let p := readValue (2 * cs.length + 2) cs
  ⟨p.value, match p.rest with
    | .error fault => some fault
    | .ok rest => if (skipGap rest).isEmpty then none else some .trailingText⟩

end FlowStudio.Json
