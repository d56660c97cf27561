/-! The commands and how they are written on the command line. -/

namespace FlowStudio

structure Connection where
  baseUrl : Option String
  timeout : Nat
  deriving DecidableEq, Repr

inductive Command where
  | layout (input : String) (output : Option String)
  | pull (id directory : String) (connection : Connection)
  | push (directory : String) (connection : Connection)
  deriving DecidableEq, Repr

namespace Command

structure Words where
  plain : List String
  options : List (String × String)

def Words.addPlain (w : Words) (word : String) : Words := { w with plain := w.plain ++ [word] }

def Words.addOption? (w : Words) (name value : String) : Option Words :=
  if w.options.any (·.1 == name) then none
  else some { w with options := w.options ++ [(name, value)] }

structure Flag where
  name : String
  value : Option String

/-- What an option's word says: `--name`, `--name=value`, `-n`, `-nvalue` or `-n=value`. -/
def flag? (names : List (Char × String)) (long : List String) (word : List Char) : Option Flag :=
  match word with
  | '-' :: '-' :: rest =>
    let name := String.ofList (rest.takeWhile (· != '='))
    if long.contains name then
      match rest.dropWhile (· != '=') with
      | [] => some ⟨name, none⟩
      | _ :: value => some ⟨name, some (String.ofList value)⟩
    else none
  | '-' :: c :: rest =>
    (names.lookup c).map fun name => match rest with
      | [] => ⟨name, none⟩
      | '=' :: value => ⟨name, some (String.ofList value)⟩
      | value => ⟨name, some (String.ofList value)⟩
  | _ => none

def isFlag (word : String) : Bool :=
  match word.toList with
  | '-' :: _ :: _ => true
  | _ => false

def sortWords (short : List (Char × String)) (long : List String) :
    List String → Words → Option Words
  | [], w => some w
  | word :: rest, w =>
    if word = "--" then some { w with plain := w.plain ++ rest }
    else if !isFlag word then sortWords short long rest (w.addPlain word)
    else match flag? short long word.toList with
      | none => none
      | some ⟨name, some value⟩ => do sortWords short long rest (← w.addOption? name value)
      | some ⟨name, none⟩ =>
        match rest with
        | [] => none
        | value :: rest =>
          if isFlag value then none else do sortWords short long rest (← w.addOption? name value)

def number? (text : String) : Option Nat :=
  let ds := match text.toList with
    | '+' :: ds => ds
    | ds => ds
  if ds.isEmpty || !ds.all Char.isDigit then none
  else
    let n := ds.foldl (fun n d => 10 * n + (d.toNat - '0'.toNat)) 0
    if n < UInt64.size then some n else none

def path? (text : String) : Option String := if text.isEmpty then none else some text

def Words.optional? {α : Type} (w : Words) (name : String) (read : String → Option α) :
    Option (Option α) :=
  match w.options.lookup name with
  | none => some none
  | some text => (read text).map some

def Words.connection? (w : Words) : Option Connection := do
  let baseUrl ← w.optional? "base-url" some
  let timeout ← w.optional? "timeout" number?
  some ⟨baseUrl, timeout.getD 30⟩

def ofWords? : List String → Option Command
  | "layout" :: rest => do
    let w ← sortWords [('o', "output")] ["output"] rest ⟨[], []⟩
    let output ← w.optional? "output" path?
    match w.plain with
    | [input] => some (.layout (← path? input) output)
    | _ => none
  | "pull" :: rest => do
    let w ← sortWords [] ["base-url", "timeout"] rest ⟨[], []⟩
    let connection ← w.connection?
    match w.plain with
    | [id, directory] => some (.pull id (← path? directory) connection)
    | _ => none
  | "push" :: rest => do
    let w ← sortWords [] ["base-url", "timeout"] rest ⟨[], []⟩
    let connection ← w.connection?
    match w.plain with
    | [directory] => some (.push (← path? directory) connection)
    | _ => none
  | _ => none

def usage : String :=
  "usage: flow-studio layout INPUT [-o OUTPUT]\n" ++
  "       flow-studio pull ID DIR [--base-url URL] [--timeout SECONDS]\n" ++
  "       flow-studio push DIR [--base-url URL] [--timeout SECONDS]\n"

end Command
end FlowStudio
