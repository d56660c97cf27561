import FlowStudio.Text.Utf8

/-! Patterns for file paths. `?` and `*` stay inside a name, `**` goes through directories, brackets
give a class of bytes and braces a choice. A path is matched byte by byte: a pattern takes a row of
marks, one before each byte and one at the end, from where it may begin to where it may end. -/

namespace FlowStudio.Ignore

inductive Token where
  | byte (value : UInt8)
  | one
  | many
  | class (negated : Bool) (ranges : List (UInt8 × UInt8))
  /-- Nothing, or any directories from the start of the path. -/
  | deepStart
  /-- A slash and anything after it. -/
  | deepEnd
  /-- A slash, or any directories between two slashes. -/
  | deepMiddle
  deriving DecidableEq, Repr

def charBytes (c : Char) : List UInt8 := Text.toUtf8 (String.singleton c)

def byteRanges (low high : Char) : List (UInt8 × UInt8) :=
  if low = high then (charBytes low).map fun b => (b, b)
  else
    let lows := charBytes low
    let highs := charBytes high
    let single := (lows.dropLast ++ highs.tail).map fun b => (b, b)
    match lows.getLast?, highs.head? with
    | some a, some b => (a, b) :: single
    | _, _ => single

/-- Character ranges up to the closing bracket, last one first; none if there is no such bracket.
A dash after a range moves the end of that range. A range that runs backwards is an error and makes
the whole class `some none`. -/
def classItems : List Char → Bool → Bool → List (Char × Char) →
    Option (Option (List (Char × Char)) × List Char)
  | [], _, _, _ => none
  | ']' :: cs, first, open_, ranges =>
    if first then classItems cs false false ((']', ']') :: ranges)
    else some (some (if open_ then ('-', '-') :: ranges else ranges), cs)
  | c :: cs, first, open_, ranges =>
    if c = '-' ∧ !first ∧ !open_ then classItems cs false true ranges
    else match open_, ranges with
      | true, (low, _) :: more =>
        if c < low then some (none, cs) else classItems cs false false ((low, c) :: more)
      | _, _ => classItems cs false false ((c, c) :: ranges)

def class? (cs : List Char) : Option (Option Token × List Char) :=
  let (negated, cs) := match cs with
    | '!' :: r => (true, r)
    | '^' :: r => (true, r)
    | r => (false, r)
  (classItems cs true false []).map fun (ranges?, rest) =>
    (ranges?.map fun ranges => .class negated (ranges.flatMap fun (a, b) => byteRanges a b), rest)

inductive Sign where
  /-- A character that stands for itself; an escaped one does so whatever it is. -/
  | plain (c : Char)
  | slash
  | one
  | star
  | class (token : Token)
  | openBrace
  | comma
  | closeBrace
  deriving DecidableEq, Repr

def Sign.last : Sign → Char
  | .plain c => c
  | .slash => '/'
  | .one => '?'
  | .star => '*'
  | .class _ => ']'
  | .openBrace => '{'
  | .comma => ','
  | .closeBrace => '}'

/-- Reads the signs of a pattern, none if a class or an escape is wrong. A bracket that is not
closed stands for itself, and so do all after it: there are no `classes` any more. Each sign takes
one unit of fuel. -/
def signs (classes : Bool) : Nat → List Char → Option (List Sign)
  | 0, _ => none
  | _, [] => some []
  | fuel + 1, c :: cs =>
    match c, cs with
    | '?', cs => (signs classes fuel cs).map (.one :: ·)
    | '*', cs => (signs classes fuel cs).map (.star :: ·)
    | '/', cs => (signs classes fuel cs).map (.slash :: ·)
    | '{', cs => (signs classes fuel cs).map (.openBrace :: ·)
    | ',', cs => (signs classes fuel cs).map (.comma :: ·)
    | '}', cs => (signs classes fuel cs).map (.closeBrace :: ·)
    | '\\', [] => none
    | '\\', e :: cs => (signs classes fuel cs).map (.plain e :: ·)
    | '[', cs =>
      match if classes then class? cs else none with
      | none => (signs false fuel cs).map (.plain '[' :: ·)
      | some (none, _) => none
      | some (some token, rest) => (signs classes fuel rest).map (.class token :: ·)
    | c, cs => (signs classes fuel cs).map (.plain c :: ·)

/-- A piece of a pattern: a token, or a choice between patterns. A choice between none stands for
nothing. -/
inductive Piece where
  | token (value : Token)
  | choice (options : List (List Piece))

def isVoid (pieces : List Piece) : Bool :=
  pieces.all fun
    | .choice [] => true
    | _ => false

def Piece.ofBranches (branches : List (List Piece)) : Piece :=
  .choice (branches.filter (!isVoid ·))

def literal (c : Char) : List Piece := ((charBytes c).map fun b => .token (.byte b)).reverse

def deepen (token : Token) : List Piece → List Piece
  | .token .deepStart :: done => .token .deepStart :: done
  | .token .deepEnd :: done => .token .deepEnd :: done
  | _ :: done => .token token :: done
  | [] => [.token token]

structure Level where
  -- in both the last one comes first
  outer : List Piece
  branches : List (List Piece)

/-- Puts signs together, none if a brace is wrong. `before` is the character in front, `done` holds
the pieces of the branch so far, last one first, and `levels` the choices around it. Two stars go
through directories if they stand where a name begins and where one ends; inside a choice a branch
begins and ends a name too. -/
def assemble : Char → List Piece → List Level → List Sign → Option (List Piece)
  | _, done, levels, [] => if levels.isEmpty then some done.reverse else none
  | before, done, levels, .star :: .star :: ss =>
    let plain := assemble '*' (.token .many :: done) levels ss
    if done.isEmpty then
      match ss with
      | [] => assemble '*' [.token .deepStart] levels []
      | .slash :: ss => assemble '/' [.token .deepStart] levels ss
      | _ => plain
    else if before = '/' ∨ (!levels.isEmpty ∧ (before = ',' ∨ before = '{')) then
      match ss with
      | [] => assemble '*' (deepen .deepEnd done) levels []
      | .slash :: ss => assemble '/' (deepen .deepMiddle done) levels ss
      | .comma :: ss =>
        if levels.isEmpty then plain
        else assemble '*' (deepen .deepEnd done) levels (.comma :: ss)
      | .closeBrace :: ss =>
        if levels.isEmpty then plain
        else assemble '*' (deepen .deepEnd done) levels (.closeBrace :: ss)
      | _ => plain
    else plain
  | _, done, levels, .star :: ss => assemble '*' (.token .many :: done) levels ss
  | _, done, levels, .one :: ss => assemble '?' (.token .one :: done) levels ss
  | _, done, levels, .class token :: ss => assemble ']' (.token token :: done) levels ss
  | _, done, levels, .slash :: ss => assemble '/' (literal '/' ++ done) levels ss
  | _, done, levels, .plain c :: ss => assemble c (literal c ++ done) levels ss
  | _, done, levels, .openBrace :: ss => assemble '{' [] (⟨done, []⟩ :: levels) ss
  | _, done, [], .comma :: ss => assemble ',' (literal ',' ++ done) [] ss
  | _, done, level :: levels, .comma :: ss =>
    assemble ',' [] (⟨level.outer, done.reverse :: level.branches⟩ :: levels) ss
  | _, _, [], .closeBrace :: _ => none
  | _, done, level :: levels, .closeBrace :: ss =>
    let branches := (done.reverse :: level.branches).reverse
    assemble '}' (.ofBranches branches :: level.outer) levels ss

inductive Glob where
  | everything
  | row (pieces : List Piece)

def Glob.ofChars? (cs : List Char) : Option Glob := do
  match ← assemble '\x00' [] [] (← signs true (cs.length + 1) cs) with
  | [.token .deepStart] => some .everything
  | pieces => some (.row pieces)

def slash : UInt8 := 47

def either (marks others : List Bool) : List Bool := List.zipWith (· || ·) marks others

def stepOver (fits : UInt8 → Bool) (path : List UInt8) (marks : List Bool) : List Bool :=
  false :: List.zipWith (fun b mark => mark && fits b) path marks

def onward : Bool → List Bool → List Bool
  | _, [] => []
  | seen, mark :: marks => (seen || mark) :: onward (seen || mark) marks

def withinName : Bool → List UInt8 → List Bool → List Bool
  | carried, b :: path, mark :: marks =>
    (carried || mark) :: withinName ((carried || mark) && b != slash) path marks
  | carried, _, marks => marks.map (carried || ·)

def intoDirs (path : List UInt8) (marks : List Bool) : List Bool :=
  either marks (stepOver (· == slash) path (onward false marks))

def Token.step (path : List UInt8) (marks : List Bool) : Token → List Bool
  | .byte value => stepOver (· == value) path marks
  | .one => stepOver (· != slash) path marks
  | .many => withinName false path marks
  | .class negated ranges =>
    stepOver (fun b => ranges.any (fun (low, high) => low ≤ b && b ≤ high) != negated) path marks
  | .deepStart => intoDirs path marks
  | .deepEnd => onward false (stepOver (· == slash) path marks)
  | .deepMiddle => intoDirs path (stepOver (· == slash) path marks)

mutual

def Piece.step (path : List UInt8) : Piece → List Bool → List Bool
  | .token t, marks => t.step path marks
  | .choice [], marks => marks
  | .choice (option :: options), marks =>
    either (stepAll path option marks) (stepAny path options marks)

def stepAll (path : List UInt8) : List Piece → List Bool → List Bool
  | [], marks => marks
  | p :: ps, marks => stepAll path ps (p.step path marks)

def stepAny (path : List UInt8) : List (List Piece) → List Bool → List Bool
  | [], marks => marks.map fun _ => false
  | option :: options, marks =>
    either (stepAll path option marks) (stepAny path options marks)

end

def Glob.matches (path : List UInt8) : Glob → Bool
  | .everything => true
  | .row pieces =>
    (stepAll path pieces (true :: path.map fun _ => false)).getLast? == some true

def Token.parts : Token → Nat
  | .deepEnd => 2
  | _ => 1

def Token.depth : Token → Nat
  | .byte _ => 0
  | .one => 1
  | .many => 2
  | .class _ ranges => if ranges.length ≤ 1 then 1 else 2
  | .deepStart => 4
  | .deepEnd => 1
  | .deepMiddle => 4

def Piece.parts : Piece → Nat
  | .token t => t.parts
  | .choice options => if options.isEmpty then 0 else 1

mutual

def Piece.depth : Piece → Nat
  | .token t => t.depth
  | .choice options => 1 + (if 2 ≤ options.length then 1 else 0) + depthOfAny options

def depthOfAll : List Piece → Nat
  | [] => 0
  | p :: ps => max p.depth (depthOfAll ps)

def depthOfAny : List (List Piece) → Nat
  | [] => 0
  | option :: options =>
    let parts := (option.map Piece.parts).foldl (· + ·) 0
    max ((if 2 ≤ parts then 1 else 0) + depthOfAll option) (depthOfAny options)

end

def depthLimit : Nat := 250

def Glob.isUsable : Glob → Bool
  | .everything => true
  | .row pieces => 1 + depthOfAll pieces ≤ depthLimit

end FlowStudio.Ignore
