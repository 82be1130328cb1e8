import DeviceScript.Pattern.Search
import DeviceScript.Session.Basic

/-!
A session in memory. Devices answer commands with canned outputs, and what they send waits in
a buffer until it is matched.
-/

namespace DeviceScript

open Text

structure Simulated where
  current : Text
  responses : List ((Text × Text) × Text)
  buffers : List (Text × Text)
  transcript : List Exchange
  known : Option (List Text)
deriving Repr, DecidableEq

namespace Simulated

def empty : Simulated := ⟨[], [], [], [], none⟩

def restrict (s : Simulated) (devices : List Text) : Simulated := { s with known := some devices }

/-- Sets the output of a command; the device with the empty name stands for every device. -/
def respond (s : Simulated) (device command output : Text) : Simulated :=
  { s with responses := ((device, command), output) :: s.responses }

def response? (s : Simulated) (device command : Text) : Option Text :=
  (s.responses.find? fun entry => entry.1.1 == device && entry.1.2 == command).map Prod.snd

def buffer (s : Simulated) (device : Text) : Text :=
  ((s.buffers.find? fun entry => entry.1 == device).map Prod.snd).getD []

def setBuffer (s : Simulated) (device content : Text) : Simulated :=
  { s with buffers := (device, content) :: s.buffers.filter fun entry => entry.1 != device }

/-- Output that no command asked for. -/
def emit (s : Simulated) (device output : Text) : Simulated :=
  s.setBuffer device (s.buffer device ++ output)

def switchDevice (s : Simulated) (name : Text) : Except Fault Unit × Simulated :=
  if s.known.all fun devices => devices.contains name then (.ok (), { s with current := name })
  else (.error (.plain (.deviceFailure ("unknown device " ++ quote name))), s)

def send (s : Simulated) (canceled : Bool) (command : Text) : Except Fault Text × Simulated :=
  if canceled then (.error (.plain .canceled), s)
  else
    let output := ((s.response? s.current command).or (s.response? [] command)).getD []
    let sent := s.emit s.current output
    (.ok output, { sent with transcript := s.transcript ++ [⟨s.current, command, output⟩] })

/-- Matches the waiting output and takes it up to the end of the match. -/
def await (s : Simulated) (canceled : Bool) (pattern : Text) (clear : Bool) :
    Except Fault Bool × Simulated :=
  match Pattern.compile pattern with
  | .error refusal => (.error (.plain (.invalidPattern pattern refusal)), s)
  | .ok searcher =>
      if canceled then (.error (.plain .canceled), s)
      else
        let s := if clear then s.setBuffer s.current [] else s
        let content := s.buffer s.current
        match searcher.matchEnd? content with
        | none => (.ok false, s)
        | some stop => (.ok true, s.setBuffer s.current (content.drop stop))

end Simulated
end DeviceScript
