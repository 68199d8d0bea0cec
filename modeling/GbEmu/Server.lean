import GbEmu.Configuration
import GbEmu.JoyPad
import GbEmu.Lib.Messages

/-!
The HTTP half of `gameserver.cpp` on one connection. What arrives is the list of the
results of `read`, up to the first that is not positive; what is written is collected, and
the console is its joypad. Files are regular ones.
-/

namespace GbEmu

namespace GameServer

open Text Util GbEmu.Configuration

abbrev Line := List UInt8

def recvBufferSize : Nat := 512

def carriageReturn : UInt8 := 0x0D
def crlf : Line := [carriageReturn, newline]

/-! ## Requests -/

/-- A pass of the inner loop of `wait`, which the blank line leaves with the headers. -/
def takeByte (s : List Line × Line) (b : UInt8) : Except (List Line) (List Line × Line) :=
  let (headers, stream) := s
  if b = newline then
    let headers := headers ++ [stream]
    if headers.getLast? = some [carriageReturn] then .error headers else .ok (headers, [])
  else .ok (headers, stream ++ [b])

def wait (reads : List (List UInt8)) : Option (List Line × List (List UInt8)) :=
  Messages.receive takeByte ([], []) reads

/-! ## Events -/

def keyUp : Int := 0
def keyDown : Int := 1

def handleEvent (console : JoyPad) (request : Line) : Except Fault JoyPad := do
  let parts := split request 0x3F
  if parts.length ≠ 2 then return console
  let tokens := split (parts.getD 1 []) 0x3D
  if tokens.length < 2 then return console
  let event ← stoi (tokens.getD 0 [])
  if event = keyUp then
    let button ← stoi (tokens.getD 1 [])
    console.clr button
  else if event = keyDown then
    let button ← stoi (tokens.getD 1 [])
    console.set button
  else return console

/-! ## Responses -/

inductive ResponseCode
  | http101
  | http200
  | http204
  | http400
  | http404
  deriving DecidableEq, Repr

namespace ResponseCode

def toNat : ResponseCode → Nat
  | http101 => 101
  | http200 => 200
  | http204 => 204
  | http400 => 400
  | http404 => 404

/-- `RESPONSE_MSG`. -/
def message : ResponseCode → Line
  | http101 => ascii "Switching Protocols"
  | http200 => ascii "OK"
  | http204 => ascii "No Content"
  | http400 => ascii "Bad Request"
  | http404 => ascii "Not Found"

end ResponseCode

def header (code : ResponseCode) (length : Int32) (mime : Line) : List UInt8 :=
  ascii "HTTP/1.1 " ++ decimal code.toNat ++ ascii " " ++ code.message ++ crlf ++
  (ascii "Date: Mon, 27 Jul 2009 12:28:53 GMT" ++ crlf) ++
  (ascii "Server: GameBoy Trilogy" ++ crlf) ++
  (if length ≠ 0 then
    (ascii "Last-Modified: Wed, 22 Jul 2019 19:15:56 GMT" ++ crlf) ++
    (ascii "Content-Length: " ++ intText length ++ crlf) ++
    (ascii "Content-Type: " ++ mime ++ crlf)
  else []) ++
  (ascii "Connection: Closed" ++ crlf) ++ crlf

/-- The directory `html`, by the path of a file in it. -/
abbrev Files := Line → Option (List UInt8)

/-- The end of `getResponse`, with a file that can be read. The message is as long as
`resize` makes it, and a negative size makes `resize` throw. -/
def fileResponse (code : ResponseCode) (file : Line) (content : List UInt8) :
    Except Fault (List UInt8) :=
  let length := Int32.ofNat content.length
  let mime := if ascii ".css" <:+: file then ascii "text/css" else ascii "text/html"
  let size := (length + 1).toInt
  if size < 0 then .error .thrown
  else
    let message := (content ++ List.replicate size.toNat 0).take size.toNat
    .ok (header code length mime ++ message)

def page404 : Line := ascii "404.html"

def getResponse (files : Files) (code : ResponseCode) (file : Line) :
    Except Fault (List UInt8) :=
  match files file with
  | some content => fileResponse code file content
  | none =>
    if page404 = file then .ok []
    else
      match files page404 with
      | some content => fileResponse .http404 page404 content
      | none => .ok []

/-- `handleRequest`: the console after it, and what it writes to the connection. -/
def handleRequest (files : Files) (console : JoyPad) (request : List Line) :
    Except Fault (JoyPad × List UInt8) :=
  match request with
  | [] => .error .outOfRange
  | line :: _ =>
    let tokens := split line 0x20
    if 3 ≠ tokens.length then .ok (console, [])
    else
      let method := tokens.getD 0 []
      let protocol := tokens.getD 2 []
      let file := if ascii "/" = tokens.getD 1 [] then ascii "index.html" else tokens.getD 1 []
      if ascii "GET" ≠ method ∨ ascii "HTTP/1.1" ≠ protocol then
        (getResponse files .http400 (ascii "400.html")).map fun response => (console, response)
      else if ascii "event" <:+: file then
        (handleEvent console file).map fun console =>
          (console, header .http204 0 (ascii "text/html"))
      else (getResponse files .http200 file).map fun response => (console, response)

/-! ## The connection -/

/-- What comes of a connection: the headers passed to `handleRequest`, the console and
all that is written. -/
structure Session where
  passed : List (List Line)
  console : JoyPad
  written : List UInt8
  deriving DecidableEq, Repr

/-- The answers to requests, up to one that throws. -/
def serve (files : Files) (console : JoyPad) : List (List Line) → Session
  | [] => { passed := [], console := console, written := [] }
  | request :: requests =>
    match handleRequest files console request with
    | .error _ => { passed := [request], console := console, written := [] }
    | .ok (console, response) =>
      let s := serve files console requests
      { s with passed := request :: s.passed, written := response ++ s.written }

/-- `http`, from the accepted connection on. -/
def http (files : Files) (console : JoyPad) (reads : List (List UInt8)) : Session :=
  match _h : wait reads with
  | none => { passed := [], console := console, written := [] }
  | some (request, rest) =>
    match handleRequest files console request with
    | .error _ => { passed := [request], console := console, written := [] }
    | .ok (console, response) =>
      let s := http files console rest
      { s with passed := request :: s.passed, written := response ++ s.written }
  termination_by reads.length
  decreasing_by exact Messages.receive_length (by assumption)

end GameServer

end GbEmu
