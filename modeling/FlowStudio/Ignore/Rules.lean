import FlowStudio.Ignore.Glob
import FlowStudio.Text.Basic

/-! Files that list what to pass over, one pattern a line. The last pattern that matches a path
decides; one with a `!` in front of it keeps the path. -/

namespace FlowStudio.Ignore

inductive Verdict where
  | drop
  | keep
  deriving DecidableEq, Repr

structure Rule where
  glob : Glob
  verdict : Verdict
  onlyDirs : Bool

def trimEnd (line : List Char) : List Char :=
  if ['\\', ' '].isSuffixOf line then line else (Text.dropBlanks line.reverse).reverse

/-- A pattern without a slash matches a name in any directory; one that ends in `**` matches only
what is inside the directory. -/
def widen (anchored : Bool) (pattern : List Char) : List Char :=
  let pattern :=
    if anchored || pattern.contains '/' || pattern == ['*', '*'] then pattern
    else ['*', '*', '/'] ++ pattern
  if ['/', '*', '*'].isSuffixOf pattern then pattern ++ ['/', '*'] else pattern

def dirsOnly (pattern : List Char) : Bool × List Char :=
  match pattern.reverse with
  | '/' :: '\\' :: r => (true, r.reverse)
  | '/' :: r => (true, r.reverse)
  | _ => (false, pattern)

def Rule.ofLine? (line : List Char) : Option Rule := do
  if line.head? = some '#' then none
  let line := trimEnd line
  if line.isEmpty then none
  let (verdict, anchored, pattern) : Verdict × Bool × List Char :=
    match line with
    | '\\' :: '!' :: r => (.drop, false, '!' :: r)
    | '\\' :: '#' :: r => (.drop, false, '#' :: r)
    | '!' :: '/' :: r => (.keep, true, r)
    | '!' :: r => (.keep, false, r)
    | '/' :: r => (.drop, true, r)
    | r => (.drop, false, r)
  let (onlyDirs, pattern) := dirsOnly pattern
  let glob ← Glob.ofChars? (widen anchored pattern)
  some ⟨glob, verdict, onlyDirs⟩

def dropReturn (line : List UInt8) : List UInt8 :=
  if line.getLast? = some 13 then line.dropLast else line

def textLines (bytes : List UInt8) : List (List Char) :=
  let lines := Text.parts (· == 10) bytes
  let lines := lines.dropLast.map dropReturn ++ lines.drop (lines.length - 1)
  let lines := (lines.map Text.ofUtf8?).takeWhile Option.isSome
  lines.filterMap fun line => line.map (·.toList)

/-- Lines that are no patterns are passed over, and so is a byte order mark. A file counts for
nothing if a pattern in it nests too deep. -/
def rulesOf (bytes : List UInt8) : List Rule :=
  let lines := match textLines bytes with
    | [] => []
    | line :: rest => line.dropWhile (· == '\ufeff') :: rest
  let rules := lines.filterMap Rule.ofLine?
  if rules.all (·.glob.isUsable) then rules else []

def judge (rules : List Rule) (path : List String) (isDir : Bool) : Option Verdict :=
  let bytes := Text.toUtf8 ("/".intercalate path)
  (rules.reverse.find? fun r => (!r.onlyDirs || isDir) && r.glob.matches bytes).map (·.verdict)

end FlowStudio.Ignore
