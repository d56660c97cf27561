import FlowStudio.Http.Url
import FlowStudio.Workspace.Client

/-! Requests and replies as they stand on a connection that carries one of each and is closed. This
is the part of the library that carries requests; nothing is proved from it. -/

namespace FlowStudio.Http
open Workspace

def isInterim (status : Nat) : Bool := 100 ≤ status && status < 200 && status != 101

def hasNoBody (status : Nat) : Bool := status == 101 || status == 204 || status == 304

/-- The response with a status, and with its body if that came to its end. One that only announces
another, which does not follow, or whose status has not three figures, is as good as none. -/
def response? (status : Nat) (body : Option (List UInt8)) : Option Response :=
  if status < 100 ∨ 999 < status ∨ isInterim status then none
  else some ⟨status, if hasNoBody status then some [] else body, "error decoding response body"⟩

def unaddressed : Reply := .failed "builder error"

def unanswered (address : WebAddress) : Reply :=
  .failed ("error sending request for url (" ++ address.text ++ ")")

structure Endpoint where
  host : Host
  service : UInt16
  deriving DecidableEq, Repr

def WebAddress.endpoint? (a : WebAddress) : Option Endpoint :=
  if a.scheme = "http" then some ⟨a.server.host, (a.service?.getD 80).toUInt16⟩ else none

def Endpoint.text (e : Endpoint) : String := e.host.text ++ ":" ++ toString e.service

def line (text : String) : String := text ++ "\r\n"

def inQuotes (name : String) : String :=
  "\"" ++ String.ofList (name.toList.flatMap fun c =>
    if c = '"' ∨ c = '\r' ∨ c = '\n' then percent c.toNat.toUInt8 else [c]) ++ "\""

def partText (boundary : String) (p : Part) : String :=
  line ("--" ++ boundary) ++
    line ("Content-Disposition: form-data; name=" ++ inQuotes p.name ++ "; filename=" ++
      inQuotes p.fileName) ++
    line "" ++ line p.body

def requestText (server : Endpoint) (target boundary : String) (request : Request) : String :=
  let head (method : String) : String :=
    line (method ++ " " ++ target ++ " HTTP/1.1") ++ line ("Host: " ++ server.text) ++
      line "Connection: close"
  match request with
  | .get _ => head "GET" ++ line ""
  | .post _ parts =>
    let body := String.join (parts.map (partText boundary)) ++ line ("--" ++ boundary ++ "--")
    head "POST" ++ line ("Content-Type: multipart/form-data; boundary=" ++ boundary) ++
      line ("Content-Length: " ++ toString body.utf8ByteSize) ++ line "" ++ body

def splitAt? (mark : List UInt8) : List UInt8 → Option (List UInt8 × List UInt8)
  | [] => none
  | b :: bytes =>
    match mark.isPrefixOf? (b :: bytes) with
    | some rest => some ([], rest)
    | none => (splitAt? mark bytes).map fun (before, rest) => (b :: before, rest)

def lineEnd : List UInt8 := [13, 10]

structure Head where
  status : Nat
  fields : List (String × String)

def Head.ofText? (text : String) : Option Head :=
  match text.splitOn "\r\n" with
  | [] => none
  | first :: rest => do
    let status ← (← (first.splitOn " ")[1]?).toNat?
    some ⟨status, rest.filterMap fun field =>
      match field.splitOn ":" with
      | name :: value@(_ :: _) =>
        some (String.ofList (name.toList.map Char.toLower), Text.trim (":".intercalate value))
      | _ => none⟩

def joinChunks? : Nat → List UInt8 → Option (List UInt8)
  | 0, _ => none
  | fuel + 1, bytes => do
    let (size, rest) ← splitAt? lineEnd bytes
    let size ← Text.number? 16 ((Text.ofUtf8Lenient size).toList.takeWhile (· != ';'))
    if size = 0 then some []
    else if rest.length < size then none
    else some (rest.take size ++ (← joinChunks? fuel (rest.drop (size + lineEnd.length))))

def Head.body? (h : Head) (bytes : List UInt8) : Option (Option (List UInt8)) :=
  if h.fields.lookup "transfer-encoding" = some "chunked" then some (joinChunks? bytes.length bytes)
  else match h.fields.lookup "content-length" with
    | none => some (some bytes)
    | some length => do
      let length ← length.toNat?
      some (if bytes.length < length then none else some (bytes.take length))

def readResponse? : Nat → List UInt8 → Option Response
  | 0, _ => none
  | fuel + 1, bytes => do
    let (head, rest) ← splitAt? (lineEnd ++ lineEnd) bytes
    let head ← Head.ofText? (Text.ofUtf8Lenient head)
    if isInterim head.status then readResponse? fuel rest
    else if hasNoBody head.status then response? head.status (some [])
    else response? head.status (← head.body? rest)

def responseOfBytes? (bytes : List UInt8) : Option Response := readResponse? bytes.length bytes

end FlowStudio.Http
