import DeviceScript.Fault

/-! For each open chain of branches, whether one of them has run. -/

namespace DeviceScript

/-- The innermost chain comes first. -/
structure ControlStack where
  branches : List Bool
deriving Repr, DecidableEq

namespace ControlStack

def empty : ControlStack := ⟨[]⟩

def push (s : ControlStack) (taken : Bool) : ControlStack := ⟨taken :: s.branches⟩

def pop (s : ControlStack) : Except Reason (Bool × ControlStack) :=
  match s.branches with
  | [] => .error .stackUnderflow
  | taken :: rest => .ok (taken, ⟨rest⟩)

def peek (s : ControlStack) : Except Reason Bool :=
  match s.branches with
  | [] => .error .stackEmpty
  | taken :: _ => .ok taken

def replace (s : ControlStack) (taken : Bool) : Except Reason ControlStack :=
  match s.branches with
  | [] => .error .stackEmpty
  | _ :: rest => .ok ⟨taken :: rest⟩

def size (s : ControlStack) : Nat := s.branches.length

/-- The outermost chain first, a letter each. -/
def render (s : ControlStack) : Text :=
  s.branches.reverse.map fun taken => if taken then ascii 'T' else ascii 'F'

end ControlStack
end DeviceScript
