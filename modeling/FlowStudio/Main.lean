import FlowStudio.Command.Run
import FlowStudio.Http.Connection
import Std.Async.DNS
import Std.Async.TCP
import Std.Async.Timer

/-! The command line: scripts run on the machine itself. -/

namespace FlowStudio.System
open Std.Async Std.Net Workspace Http

def reason : IO.Error → IoError
  | .noFileOrDirectory .. => .notFound
  | .alreadyExists .. => .exists
  | .inappropriateType _ 20 _ => .notDirectory
  | .inappropriateType _ 21 _ => .isDirectory
  | .invalidArgument _ 36 _ => .nameTooLong
  | .invalidArgument _ 40 _ => .linkLoop
  | e => .other (toString e)

def attempt {α : Type} (act : IO α) : IO (Except IoError α) := do
  try return .ok (← act)
  catch e => return .error (reason e)

def readText (path : String) : IO (Except IoError String) := do
  match ← attempt (IO.FS.readBinFile path) with
  | .error e => return .error e
  | .ok bytes =>
    match Text.ofUtf8? bytes.toList with
    | some text => return .ok text
    | none => return .error .notText

def contains (path : String) : IO Bool := return (← attempt (IO.FS.realPath path)).isOk

def bytesAt (path : String) : IO (Option (List UInt8)) :=
  return ((← attempt (IO.FS.readBinFile path)).toOption.map (·.toList))

def fileAt (names : List String) : IO (List (List String × DiskEntry)) :=
  return ((← bytesAt (Disk.spell true names)).map fun bytes => (names, .file bytes)).toList

def repositoryIn (directory : List String) : IO (List (List String × DiskEntry)) := do
  let other := directory ++ [".jj"]
  let others := if ← contains (Disk.spell true other) then [(other, DiskEntry.dir)] else []
  let repository := directory ++ [".git"]
  let info := repository ++ ["info"]
  if !(← contains (Disk.spell true repository)) then return others
  let own ← match ← Disk.ownFilesAt bytesAt (Disk.spell true repository) with
    | none => pure none
    | some path => bytesAt (Disk.join path "info/exclude")
  return others ++ (repository, .dir) :: (info, .dir) ::
    (own.map fun bytes => (info ++ ["exclude"], DiskEntry.file bytes)).toList

def rulesAt (directory : List String) : IO (List (List String × DiskEntry)) := do
  let plain ← fileAt (directory ++ [".ignore"])
  let listed ← fileAt (directory ++ [".gitignore"])
  return (directory, .dir) :: plain ++ listed ++ (← repositoryIn directory)

partial def entriesFrom (names : List String) : IO (List (List String × DiskEntry)) := do
  let directory ← IO.FS.realPath (Disk.spell true names)
  let mut found := #[(names, .dir)]
  for entry in ← directory.readDir do
    let here := names ++ [entry.fileName]
    if entry.fileName == ".git" then
      found := found.append (← repositoryIn names).toArray
      continue
    match (← entry.path.symlinkMetadata).type with
    | .dir => found := found.append (← entriesFrom here).toArray
    | .file => found := found.append (← fileAt here).toArray
    | _ => pure ()
  return found.toList

def diskAround (names : List String) : IO Disk := do
  let above ← (List.range names.length).mapM fun n => rulesAt (names.take n)
  let isDirectory ← (← IO.FS.realPath (Disk.spell true names)).isDir
  let here ← if isDirectory then entriesFrom names else fileAt names
  return ⟨above.flatten ++ here, []⟩

def loadTree (path : String) : IO (Except IoError FileTree) := do
  match ← attempt (IO.FS.realPath path) with
  | .error e => return .error e
  | .ok real =>
    let names := Path.segments real.toString
    match ← attempt (diskAround names) with
    | .error e => return .error e
    | .ok disk => return disk.loadTree (Disk.spell true names)

partial def receiveAll (client : TCP.Socket.Client) (received : ByteArray) : Async ByteArray := do
  match ← client.recv? 65536 with
  | some bytes => receiveAll client (received ++ bytes)
  | none => return received

def converse (service : UInt16) (text : String) : List IPAddr → Async ByteArray
  | [] => throw (.userError "no address")
  | address :: more => do
    try
      let client ← TCP.Socket.Client.mk
      client.connect (match address with
        | .v4 address => .v4 ⟨address, service⟩
        | .v6 address => .v6 ⟨address, service⟩)
      client.send text.toUTF8
      receiveAll client .empty
    catch e => if more.isEmpty then throw e else converse service text more

def responseFrom (server : Endpoint) (target : String) (request : Request) :
    Async (Option Response) := do
  let boundary := "boundary" ++ toString (← IO.rand 0 1000000000000000000)
  let addresses ← DNS.getAddrInfo server.host.bare (toString server.service)
  let text := requestText server target boundary request
  return responseOfBytes? (← converse server.service text addresses.toList).toList

def addressOf : Request → String
  | .get address => address
  | .post address _ => address

def send (deadline : Nat) (request : Request) : IO Reply := do
  let now ← IO.monoMsNow
  if deadline ≤ now then return .late
  match WebAddress.toSend? (addressOf request) with
  | none => return unaddressed
  | some address =>
    match address.endpoint? with
    | none => return unanswered address
    | some server =>
      let answer : Async Reply := do
        let response ← responseFrom server (target address.path) request
        return response.elim (unanswered address) .response
      let silence : Async Reply := do
        sleep (Std.Time.Millisecond.Offset.ofNat (min (deadline - now) 1000000000000))
        return .late
      try (Async.race answer silence).block
      catch _ => return unanswered address

def clockEnd : Nat := 0x8000000000000000

/-- Runs a script; requests that are answered after a time in milliseconds are answered late. -/
def run {α : Type} (deadline : Nat) : Script α → IO α
  | .done a => return a
  | .send request next => do run deadline (next (← send deadline request))
  | .startExecutor next => run deadline (next (.ok ()))
  | .setDeadline seconds next => do
    let now ← IO.monoMsNow
    let isReached := now / 1000 + seconds < clockEnd
    run (now + 1000 * seconds) (next isReached)
  | .contains path next => do run deadline (next (← contains path))
  | .readText path next => do run deadline (next (← readText path))
  | .loadTree path next => do run deadline (next (← loadTree path))
  | .makeDirs path next => do run deadline (next (← attempt (IO.FS.createDirAll path)))
  | .writeText path text next => do run deadline (next (← attempt (IO.FS.writeFile path text)))

end FlowStudio.System

def main (args : List String) : IO UInt32 := do
  match FlowStudio.Command.ofWords? args with
  | none =>
    IO.eprint FlowStudio.Command.usage
    return 2
  | some command =>
    let cache := FlowStudio.Settings.cacheDir? (← IO.getEnv "XDG_CACHE_HOME") (← IO.getEnv "HOME")
    -- the directory of the logs is made even if nothing is logged
    discard (FlowStudio.System.run 0 (FlowStudio.Settings.ensureLogs cache))
    match ← FlowStudio.System.run 0 (command.run cache) with
    | .ok text =>
      IO.print text
      return 0
    | .error text =>
      IO.eprintln ("error: " ++ text)
      return 1
    | .crash =>
      IO.eprintln "overflow when adding duration to instant"
      return 101
