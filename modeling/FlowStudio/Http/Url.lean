import FlowStudio.Http.Host

/-! Reading the text of an address as a browser does: what is asked of a server for it. -/

namespace FlowStudio.Http

def tidy (cs : List Char) : List Char :=
  let isEdge (c : Char) : Bool := c.toNat ≤ 0x20
  let cs := ((cs.dropWhile isEdge).reverse.dropWhile isEdge).reverse
  cs.filter fun c => c != '\t' && c != '\n' && c != '\r'

def scheme? (cs : List Char) : Option (String × List Char) :=
  let isPart (c : Char) : Bool := c.isAlphanum || c == '+' || c == '-' || c == '.'
  match cs.takeWhile isPart, cs.dropWhile isPart with
  | c :: name, ':' :: rest =>
    if c.isAlpha then some (String.ofList ((c :: name).map Char.toLower), rest) else none
  | _, _ => none

def isSlash (c : Char) : Bool := c == '/' || c == '\\'

structure Authority where
  host : Host
  service : List Char

def isService (service : List Char) : Bool :=
  service.all Char.isDigit && (Text.number? 10 service).getD 0 ≤ 65535

def cutHost : Bool → List Char → List Char × List Char
  | _, [] => ([], [])
  | isInside, c :: cs =>
    -- a colon in brackets belongs to the host
    if c = ':' ∧ !isInside then ([], c :: cs)
    else
      let (host, rest) := cutHost (c = '[' ∨ (isInside ∧ c ≠ ']')) cs
      (c :: host, rest)

def Authority.ofChars? (cs : List Char) : Option Authority := do
  let (host, rest) := cutHost false cs
  let host ← Host.ofChars? host
  if isService rest.tail then some ⟨host, rest.tail⟩ else none

def withoutUser (cs : List Char) : List Char :=
  if cs.contains '@' then (cs.reverse.takeWhile (· != '@')).reverse else cs

def percent (b : UInt8) : List Char :=
  let digit (n : Nat) : Char := (Nat.digitChar n).toUpper
  ['%', digit (b.toNat / 16), digit (b.toNat % 16)]

def spelled (also : List Char) (cs : List Char) : List Char :=
  cs.flatMap fun c =>
    if c.toNat ≤ 0x20 || 0x7f ≤ c.toNat || also.contains c then
      (Text.toUtf8 (String.singleton c)).flatMap percent
    else [c]

def readDots : List Char → List Char
  | '%' :: '2' :: 'e' :: cs => '.' :: readDots cs
  | c :: cs => c :: readDots cs
  | [] => []

def isDot (segment : List Char) : Bool := readDots (segment.map Char.toLower) == ['.']

def isDots (segment : List Char) : Bool := readDots (segment.map Char.toLower) == ['.', '.']

def isDrive : List Char → Bool
  | [c, mark] => c.isAlpha && (mark == ':' || mark == '|')
  | _ => false

/-- Takes steps back and drops steps to the same place; `done` holds the segments before, last one
first. A step at the end leaves an empty segment. No step leads back from a drive. -/
def straighten : List (List Char) → List (List Char) → List (List Char)
  | done, [] => done.reverse
  | done, s :: ss =>
    if isDots s then
      let done := if done.head?.any isDrive then done else done.tail
      straighten (if ss.isEmpty then [] :: done else done) ss
    else if isDot s then straighten (if ss.isEmpty then [] :: done else done) ss
    else straighten (s :: done) ss

def target (cs : List Char) : String :=
  let cs := cs.takeWhile (· != '#')
  let path := cs.takeWhile (· != '?')
  let query := cs.dropWhile (· != '?')
  let segments := match Text.parts isSlash path with
    | [] :: more@(_ :: _) => more
    | segments => segments
  let path := (straighten [] segments).flatMap fun s =>
    '/' :: spelled ['"', '#', '<', '>', '?', '\x60', '\x7b', '\x7d'] s
  let query := match query with
    | [] => []
    | c :: query => c :: spelled ['"', '#', '<', '>', '\''] query
  String.ofList (path ++ query)

structure WebAddress where
  scheme : String
  server : Authority
  path : List Char

def WebAddress.ofString? (text : String) : Option WebAddress := do
  let (scheme, rest) ← scheme? (tidy text.toList)
  if scheme ≠ "http" ∧ scheme ≠ "https" then none
  let rest := rest.dropWhile isSlash
  let isEnd (c : Char) : Bool := isSlash c || c == '?' || c == '#'
  let server ← Authority.ofChars? (withoutUser (rest.takeWhile fun c => !isEnd c))
  some ⟨scheme, server, rest.dropWhile fun c => !isEnd c⟩

def WebAddress.service? (a : WebAddress) : Option Nat := do
  if a.server.service.isEmpty then none
  let number ← Text.number? 10 a.server.service
  if number = (if a.scheme = "http" then 80 else 443) then none else some number

def WebAddress.text (a : WebAddress) : String :=
  let fragment := a.path.dropWhile (· != '#')
  a.scheme ++ "://" ++ a.server.host.text ++ (a.service?.elim "" fun n => ":" ++ toString n) ++
    target a.path ++ String.ofList (spelled ['"', '<', '>', '\x60'] fragment)

def longest : Nat := 65534

def WebAddress.toSend? (text : String) : Option WebAddress := do
  let a ← WebAddress.ofString? text
  if a.text.utf8ByteSize ≤ longest then some a else none

end FlowStudio.Http
