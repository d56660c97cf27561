import FlowStudio.Json.Basic
import FlowStudio.Text.Basic

/-! Texts between double quotes, read and written. A text that is only skipped may hold half of a
surrogate pair, one that is read may not, so what was read and what follows have faults of their
own. -/

namespace FlowStudio.Json

structure Scan (α : Type) where
  value : Except Fault α
  rest : Except Fault (List Char)

def Scan.stop {α : Type} (fault : Fault) : Scan α := ⟨.error fault, .error fault⟩

/-- Four hexadecimal digits. A text with fewer than four bytes left ends too early, whatever they
are. -/
def fourHex (cs : List Char) : Except Fault (Nat × List Char) :=
  if (String.ofList (cs.take 4)).utf8ByteSize < 4 then .error .openText
  else match Text.number? 16 (cs.take 4) with
    | some n => .ok (n, cs.drop 4)
    | none => .error .badEscape

def isLeading (unit : Nat) : Bool := 0xd800 ≤ unit && unit ≤ 0xdbff

def isTrailing (unit : Nat) : Bool := 0xdc00 ≤ unit && unit ≤ 0xdfff

def unicodeEscape (cs : List Char) : Except Fault (Except Fault Char × List Char) := do
  let (unit, rest) ← fourHex cs
  if isTrailing unit then .ok (.error .halfPair, rest)
  else if !isLeading unit then .ok (.ok (Char.ofNat unit), rest)
  else match rest with
    | [] => .error .openText
    | ['\\'] => .error .openText
    | '\\' :: 'u' :: more => do
      let (second, after) ← fourHex more
      if isTrailing second then
        .ok (.ok (Char.ofNat (0x10000 + (unit - 0xd800) * 0x400 + (second - 0xdc00))), after)
      else .ok (.error .halfPair, after)
    | _ => .ok (.error .openPair, rest)

def simpleEscape? : Char → Option Char
  | '"' => some '"'
  | '\\' => some '\\'
  | '/' => some '/'
  | 'b' => some '\x08'
  | 'f' => some '\x0c'
  | 'n' => some '\n'
  | 'r' => some '\r'
  | 't' => some '\t'
  | _ => none

/-- Reads up to the closing quote. `done` is what has been read, last character first, or the first
half of a surrogate pair that was met. The fuel is more than the number of characters left. -/
def quoteFrom : Nat → Except Fault (List Char) → List Char → Scan String
  | 0, _, _ => .stop .openText
  | fuel + 1, done, cs =>
    let stop (fault : Fault) : Scan String := ⟨done.bind fun _ => .error fault, .error fault⟩
    match cs with
    | [] => stop .openText
    | '"' :: rest => ⟨done.map fun text => String.ofList text.reverse, .ok rest⟩
    | '\\' :: 'u' :: more =>
      match unicodeEscape more with
      | .error fault => stop fault
      | .ok (c, rest) => quoteFrom fuel (do let text ← done; let c ← c; .ok (c :: text)) rest
    | '\\' :: e :: rest =>
      match simpleEscape? e with
      | some c => quoteFrom fuel (done.map (c :: ·)) rest
      | none => stop .badEscape
    | ['\\'] => stop .openText
    | c :: rest =>
      if c.toNat < 0x20 then stop .control else quoteFrom fuel (done.map (c :: ·)) rest

def quote (fuel : Nat) (cs : List Char) : Scan String := quoteFrom fuel (.ok []) cs

def escape (c : Char) : List Char :=
  if c = '"' then ['\\', '"']
  else if c = '\\' then ['\\', '\\']
  else if c = '\x08' then ['\\', 'b']
  else if c = '\x0c' then ['\\', 'f']
  else if c = '\n' then ['\\', 'n']
  else if c = '\r' then ['\\', 'r']
  else if c = '\t' then ['\\', 't']
  else if c.toNat < 0x20 then
    ['\\', 'u', '0', '0', Nat.digitChar (c.toNat / 16), Nat.digitChar (c.toNat % 16)]
  else [c]

def quoted (s : String) : String := String.ofList ('"' :: s.toList.flatMap escape ++ ['"'])

end FlowStudio.Json
