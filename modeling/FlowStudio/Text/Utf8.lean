/-! Text in bytes. Strict decoding refuses what is not UTF-8; lenient decoding puts a replacement
character for each stretch of bytes that begins a character and does not go on as one. -/

namespace FlowStudio.Text

/-- The bytes that may follow a lead byte: how many, and the range of the first of them. -/
structure Tail where
  count : Nat
  low : Nat
  high : Nat

def tail? (lead : Nat) : Option Tail :=
  if lead < 0x80 then some ⟨0, 0, 0⟩
  else if 0xc2 ≤ lead ∧ lead ≤ 0xdf then some ⟨1, 0x80, 0xbf⟩
  else if lead = 0xe0 then some ⟨2, 0xa0, 0xbf⟩
  else if lead = 0xed then some ⟨2, 0x80, 0x9f⟩
  else if 0xe1 ≤ lead ∧ lead ≤ 0xef then some ⟨2, 0x80, 0xbf⟩
  else if lead = 0xf0 then some ⟨3, 0x90, 0xbf⟩
  else if lead = 0xf4 then some ⟨3, 0x80, 0x8f⟩
  else if 0xf1 ≤ lead ∧ lead ≤ 0xf3 then some ⟨3, 0x80, 0xbf⟩
  else none

def Tail.payload (t : Tail) (lead : Nat) : Nat :=
  match t.count with
  | 0 => lead
  | 1 => lead - 0xc0
  | 2 => lead - 0xe0
  | _ => lead - 0xf0

def Tail.take : Tail → Nat → List UInt8 → Nat × Nat × List UInt8
  | ⟨0, _, _⟩, bits, bytes => (bits, 0, bytes)
  | ⟨missing + 1, _, _⟩, bits, [] => (bits, missing + 1, [])
  | ⟨missing + 1, low, high⟩, bits, b :: bytes =>
    if low ≤ b.toNat ∧ b.toNat ≤ high then
      Tail.take ⟨missing, 0x80, 0xbf⟩ (64 * bits + (b.toNat - 0x80)) bytes
    else (bits, missing + 1, b :: bytes)
termination_by t _ _ => t.count

def leadChar (b : UInt8) (bytes : List UInt8) : Option Char × List UInt8 :=
  match tail? b.toNat with
  | none => (none, bytes)
  | some t =>
    match t.take (t.payload b.toNat) bytes with
    | (bits, 0, rest) => (some (Char.ofNat bits), rest)
    | (_, _, rest) => (none, rest)

/-- Characters in order. Every one takes a byte at least, so the number of bytes is fuel enough. -/
def chars : Nat → List UInt8 → List (Option Char)
  | 0, _ => []
  | _ + 1, [] => []
  | fuel + 1, b :: bytes =>
    let (c?, rest) := leadChar b bytes
    c? :: chars fuel rest

def ofUtf8? (bytes : List UInt8) : Option String :=
  ((chars bytes.length bytes).mapM id).map String.ofList

def ofUtf8Lenient (bytes : List UInt8) : String :=
  String.ofList ((chars bytes.length bytes).map (·.getD '\ufffd'))

def toUtf8 (s : String) : List UInt8 := s.toUTF8.toList

end FlowStudio.Text
