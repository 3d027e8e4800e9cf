import Recode.Lib.Utf8
import Recode.Text

/-! # The socket of a client

The server reads a first request, and when it asks for a stream and gets one, the lines
after it are commands of the stream. Every chunk is decoded by itself. What requests
and commands mean is given to the socket. -/

namespace Recode.Orchestrator
namespace Ipc

open Utf8

def MAX_IPC_MESSAGE_BYTES : Nat := 1048576

def MAX_QUEUED_RPC_REQUESTS : Nat := 64

/-- A first request that is authenticated. -/
inductive Request
  | rpcStream
  | other
deriving DecidableEq

/-- What the server does with a line: nothing comes of a request that cannot be parsed or
authenticated, or of a command that cannot be parsed. -/
structure Protocol (Command : Type) where
  authenticate : String → Option Request
  parse : String → Option Command

/-- A stream that was opened: the lines that wait, whether one is being handled, and the
commands that `handleRequest` was given. -/
structure RpcStream (Command : Type) where
  waiting : List String := []
  handling : Bool := false
  received : List Command := []

/-- `queuedRpcRequests`. -/
def RpcStream.queued {Command : Type} (stream : RpcStream Command) : Nat :=
  stream.waiting.length + if stream.handling then 1 else 0

/-- Who is told of the next chunk. -/
inductive Listener
  | first
  | stream (id : Nat)
  | nobody
deriving DecidableEq

/-- A socket: the requests that are being answered, and the streams that were opened. It is
ended when the server ends or destroys it. -/
structure Socket (Command : Type) where
  listener : Listener := .first
  buffer : List Char := []
  openings : Nat := 0
  others : Nat := 0
  opened : Nat := 0
  streams : Nat → RpcStream Command := fun _ => {}
  ended : Bool := false

/-- The text before the first line feed, and the text after it. -/
def cutLine : List Char → Option (List Char × List Char)
  | [] => none
  | char :: rest =>
    if char = '\n' then some ([], rest)
    else (cutLine rest).map fun cut => (char :: cut.1, cut.2)

namespace Socket

variable {Command : Type}

/-- The listener of the first request takes one line of a chunk. -/
def firstData (protocol : Protocol Command) (socket : Socket Command) (chunk : List UInt8) :
    Socket Command :=
  let socket := { socket with buffer := socket.buffer ++ decode chunk }
  match cutLine socket.buffer with
  | none =>
    if MAX_IPC_MESSAGE_BYTES < byteLength socket.buffer then { socket with ended := true }
    else socket
  | some (line, rest) =>
    if MAX_IPC_MESSAGE_BYTES < byteLength line then { socket with ended := true }
    else
      let socket := { socket with buffer := rest }
      if Text.trim (String.ofList line) = "" then socket
      else
        match protocol.authenticate (Text.trim (String.ofList line)) with
        | none => { socket with ended := true }
        | some .rpcStream => { socket with openings := socket.openings + 1 }
        | some .other => { socket with others := socket.others + 1 }

def enqueue (socket : Socket Command) (id : Nat) (line : String) : Socket Command :=
  { socket with
    streams := Function.update socket.streams id
      { socket.streams id with waiting := (socket.streams id).waiting ++ [line] } }

/-- The listener of a stream takes all lines there are. -/
def readLines (id : Nat) : Nat → Socket Command → Socket Command
  | 0, socket => socket
  | fuel + 1, socket =>
    match cutLine socket.buffer with
    | none =>
      if MAX_IPC_MESSAGE_BYTES < byteLength socket.buffer then { socket with ended := true }
      else socket
    | some (line, rest) =>
      if MAX_IPC_MESSAGE_BYTES < byteLength line then { socket with ended := true }
      else
        let socket := { socket with buffer := rest }
        if Text.trim (String.ofList line) = "" then readLines id fuel socket
        else if MAX_QUEUED_RPC_REQUESTS ≤ (socket.streams id).queued then
          { socket with ended := true }
        else readLines id fuel (socket.enqueue id (Text.trim (String.ofList line)))

def streamData (socket : Socket Command) (id : Nat) (chunk : List UInt8) : Socket Command :=
  let socket := { socket with buffer := socket.buffer ++ decode chunk }
  socket.readLines id (socket.buffer.length + 1)

def data (protocol : Protocol Command) (socket : Socket Command) (chunk : List UInt8) :
    Socket Command :=
  match socket.listener with
  | .first => socket.firstData protocol chunk
  | .stream id => socket.streamData id chunk
  | .nobody => socket

/-- The answer to a request for a stream: it is opened, its instance is not known, or the
handler does not grant it. -/
inductive Opening
  | opened
  | unknown
  | refused
deriving DecidableEq

def answer (socket : Socket Command) : Opening → Socket Command
  | .opened =>
    { socket with
      openings := socket.openings - 1
      listener := .stream socket.opened
      opened := socket.opened + 1 }
  | .unknown =>
    { socket with openings := socket.openings - 1, listener := .nobody, ended := true }
  | .refused => { socket with openings := socket.openings - 1, ended := true }

def answerOther (socket : Socket Command) : Socket Command :=
  { socket with others := socket.others - 1, ended := true }

/-- The next line of a stream is handled. One that cannot be parsed is answered with an
error. -/
def handle (protocol : Protocol Command) (socket : Socket Command) (id : Nat) : Socket Command :=
  match (socket.streams id).waiting with
  | [] => socket
  | line :: rest =>
    { socket with
      streams := Function.update socket.streams id
        { waiting := rest
          handling := true
          received := (socket.streams id).received ++ (protocol.parse line).toList } }

def settle (socket : Socket Command) (id : Nat) : Socket Command :=
  { socket with
    streams := Function.update socket.streams id { socket.streams id with handling := false } }

end Socket

/-- What happens to a socket. A write may exceed the limit of the output buffer. -/
inductive Event
  | data (chunk : List UInt8)
  | answer (opening : Socket.Opening)
  | answerOther
  | handle (id : Nat)
  | settle (id : Nat)
  | exceeded

variable {Command : Type}

/-- An event can happen while some bytes are still to come. -/
def Event.Possible (socket : Socket Command) (bytes : List UInt8) : Event → Prop
  | .data chunk => chunk <+: bytes
  | .answer _ => 0 < socket.openings
  | .answerOther => 0 < socket.others
  | .handle id => (socket.streams id).handling = false ∧ (socket.streams id).waiting ≠ []
  | .settle id => (socket.streams id).handling = true
  | .exceeded => True

def Socket.step (protocol : Protocol Command) (socket : Socket Command) :
    Event → Socket Command
  | .data chunk => socket.data protocol chunk
  | .answer opening => socket.answer opening
  | .answerOther => socket.answerOther
  | .handle id => socket.handle protocol id
  | .settle id => socket.settle id
  | .exceeded => { socket with ended := true }

def Event.left (bytes : List UInt8) : Event → List UInt8
  | .data chunk => bytes.drop chunk.length
  | _ => bytes

/-- The sockets that the bytes of a client lead to, each event under a condition. -/
inductive Reached (protocol : Protocol Command)
    (condition : Socket Command → List UInt8 → Event → Prop) (bytes : List UInt8) :
    Socket Command → List UInt8 → Prop
  | start : Reached protocol condition bytes {} bytes
  | step {socket : Socket Command} {left : List UInt8} {event : Event}
      (reached : Reached protocol condition bytes socket left)
      (possible : event.Possible socket left) (keeps : condition socket left event) :
      Reached protocol condition bytes (socket.step protocol event) (event.left left)

end Ipc
end Recode.Orchestrator
