import DeviceScript.Pattern.Search
import DeviceScript.Session.Basic

/-!
Sessions over websockets. Each device has an address; a connection to it is made when it is
first needed. Frames that the peer sends wait in a queue until a command or a pattern takes them.
-/

namespace DeviceScript

open Text

/-- What answers at an address: it sends its greeting at once, then for every command some frames,
and hangs up after one of the commands. -/
structure Endpoint where
  greeting : List Text
  replies : List (Text × List Text)
  hangsUpOn : Option Text
deriving Repr, DecidableEq

def Endpoint.repliesTo (e : Endpoint) (command : Text) : List Text :=
  ((e.replies.find? fun entry => entry.1 == command).map Prod.snd).getD []

/-- Endpoints by the names of their hosts. -/
abbrev Network := List (Text × Endpoint)

inductive DialProblem where
  | malformed
  | missingScheme (url : Text)
  | canceled
  | refused
  | badHandshake
deriving Repr, DecidableEq

def DialProblem.message : DialProblem → Text
  | malformed => "malformed ws or wss URL"
  | missingScheme url => "parse " ++ quote url ++ ": missing protocol scheme"
  | canceled => "operation was canceled"
  | refused => "connection refused"
  | badHandshake => "websocket: bad handshake"

/-- The host and the path of a websocket address. Ports do not matter. -/
def readAddress (url : Text) : Except DialProblem (Text × Text) :=
  if startsWith ":" url then .error (.missingScheme url)
  else
    match cutText "://" url with
    | none => .error .malformed
    | some (scheme, rest) =>
        let scheme := scheme.map toLowerByte
        let endsHost (b : UInt8) : Bool := b == ascii '/' || b == ascii '?' || b == ascii '#'
        let authority := rest.takeWhile fun b => !endsHost b
        let path := rest.drop authority.length
        if (scheme == ofString "ws" || scheme == ofString "wss") && !authority.contains (ascii '@')
        then .ok (authority.takeWhile (· != ascii ':'), path)
        else .error .malformed

/-- A connection: its frames that nobody has taken, what was received and not matched, and whether
the peer has hung up. -/
structure Connection where
  device : Text
  peer : Endpoint
  queue : List Text
  buffer : Text
  hungUp : Bool
deriving Repr, DecidableEq

namespace Connection

/-- A queue that nobody empties keeps this many of its latest frames. -/
def queueLimit : Nat := 100

def enqueue (c : Connection) (frames : List Text) : Connection :=
  let all := c.queue ++ frames
  { c with queue := all.drop (all.length - queueLimit) }

def sent (c : Connection) (command : Text) : Connection :=
  { c with
    queue := c.queue ++ c.peer.repliesTo command
    hungUp := c.hungUp || c.peer.hangsUpOn == some command }

def lost (c : Connection) : Fault :=
  .plain (.deviceFailure ("connection to " ++ c.device ++ " closed"))

/-- Takes frames until the buffer matches or the queue is empty. -/
def seek (searcher : Pattern.Searcher) (buffer : Text) : List Text → Bool × Text × List Text
  | [] =>
      match searcher.matchEnd? buffer with
      | some stop => (true, buffer.drop stop, [])
      | none => (false, buffer, [])
  | frame :: rest =>
      match searcher.matchEnd? buffer with
      | some stop => (true, buffer.drop stop, frame :: rest)
      | none => seek searcher (buffer ++ frame) rest

end Connection

structure WebSocket where
  urls : List (Text × Text)
  connections : List Connection
  current : Option Text
deriving Repr, DecidableEq

namespace WebSocket

def new (urls : List (Text × Text)) : WebSocket := ⟨urls, [], none⟩

def connection? (s : WebSocket) (device : Text) : Option Connection :=
  s.connections.find? fun c => c.device == device

def setConnection (s : WebSocket) (c : Connection) : WebSocket :=
  { s with connections := c :: s.connections.filter fun other => other.device != c.device }

def dial (network : Network) (canceled : Bool) (device url : Text) :
    Except DialProblem Connection :=
  match readAddress url with
  | .error problem => .error problem
  | .ok (host, path) =>
      if canceled then .error .canceled
      else
        match network.find? fun entry => entry.1 == host with
        | none => .error .refused
        | some (_, peer) =>
            if startsWith "/deny" path then .error .badHandshake
            else .ok (Connection.enqueue ⟨device, peer, [], [], false⟩ peer.greeting)

def switchDevice (network : Network) (canceled : Bool) (s : WebSocket) (name : Text) :
    Except Fault Unit × WebSocket :=
  if (s.connection? name).any fun c => !c.hungUp then (.ok (), { s with current := some name })
  else
    match s.urls.find? fun entry => entry.1 == name with
    | none =>
        (.error (.plain (.deviceFailure ("no url configured for device " ++ quote name))), s)
    | some (_, url) =>
        match dial network canceled name url with
        | .error problem =>
            (.error (.plain (.deviceFailure ("dial " ++ name ++ ": " ++ problem.message))), s)
        | .ok c => (.ok (), { s.setConnection c with current := some name })

def active (s : WebSocket) : Except Fault Connection :=
  match s.current.bind s.connection? with
  | some c => .ok c
  | none => .error (.plain (.deviceFailure "no device selected"))

/-- Sends a command. The output is all that has come in; it may stand beside a fault. -/
def send (canceled : Bool) (s : WebSocket) (command : Text) : Text × Option Fault × WebSocket :=
  match s.active with
  | .error fault => ([], some fault, s)
  | .ok c =>
      if c.hungUp then
        ([], some (.plain (.deviceFailure ("connection to " ++ c.device ++ " is closed"))), s)
      else
        let c := c.sent command
        if canceled then ([], some (.plain .canceled), s.setConnection (c.enqueue []))
        else
          let output := c.queue.flatten
          let s := s.setConnection { c with queue := [], buffer := c.buffer ++ output }
          (output, if c.hungUp then some c.lost else none, s)

def await (canceled : Bool) (s : WebSocket) (pattern : Text) (clear : Bool) :
    Except Fault Bool × WebSocket :=
  match Pattern.compile pattern with
  | .error refusal => (.error (.plain (.invalidPattern pattern refusal)), s)
  | .ok searcher =>
      match s.active with
      | .error fault => (.error fault, s)
      | .ok c =>
          let c := if clear then { c with buffer := [] } else c
          let (found, buffer, queue) :=
            Connection.seek searcher c.buffer (if canceled then [] else c.queue)
          let c := { c with buffer := buffer, queue := if canceled then c.queue else queue }
          let s := s.setConnection c
          if found then (.ok true, s)
          else if canceled then (.error (.plain .canceled), s)
          else if c.hungUp then (.error c.lost, s)
          else (.ok false, s)

def close (s : WebSocket) : WebSocket := { s with connections := [], current := none }

end WebSocket
end DeviceScript
