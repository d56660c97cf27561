/-! Blanks at the ends of a text, rows taken apart, and numbers in figures. The class of blanks is
the whole Unicode property, so it holds line and paragraph separators and the wide spaces beside the
ASCII blanks. -/

namespace FlowStudio.Text

def isBlank (c : Char) : Bool :=
  let n := c.toNat
  (9 ≤ n && n ≤ 13) || n == 0x20 || n == 0x85 || n == 0xa0 || n == 0x1680 ||
    (0x2000 ≤ n && n ≤ 0x200a) || n == 0x2028 || n == 0x2029 || n == 0x202f || n == 0x205f ||
    n == 0x3000

def dropBlanks (cs : List Char) : List Char := cs.dropWhile isBlank

def trimList (cs : List Char) : List Char := (dropBlanks (dropBlanks cs).reverse).reverse

def trim (s : String) : String := String.ofList (trimList s.toList)

def parts {α : Type} (divides : α → Bool) : List α → List (List α)
  | [] => [[]]
  | a :: as =>
    if divides a then [] :: parts divides as
    else match parts divides as with
      | [] => [[a]]
      | p :: ps => (a :: p) :: ps

def digit? (radix : Nat) (c : Char) : Option Nat :=
  let value :=
    if c.isDigit then c.toNat - 48
    else if c.isAlpha then c.toLower.toNat - 87
    else radix
  if value < radix then some value else none

def number? (radix : Nat) (cs : List Char) : Option Nat :=
  (cs.mapM (digit? radix)).map (·.foldl (fun n d => radix * n + d) 0)

end FlowStudio.Text
