import DeviceScript.Script.Value

/-! Linear code: what scripts are compiled to. -/

namespace DeviceScript

inductive Opcode where
  | device
  | command
  | inclusion
  | ifNotGoto
  | elseIf
  | elseBranch
  | fi
  | loop
  | endWhile
  | untilMet
  | call (operation : Text)
deriving Repr, DecidableEq

namespace Opcode

def name : Opcode → Text
  | device => "device"
  | command => "command"
  | inclusion => "include"
  | ifNotGoto => "if_not_goto"
  | elseIf => "elseif"
  | elseBranch => "else"
  | fi => "fi"
  | loop => "loop"
  | endWhile => "endwhile"
  | untilMet => "until"
  | call operation => operation

def reserved : List Opcode :=
  [device, command, inclusion, ifNotGoto, elseIf, elseBranch, fi, loop, endWhile, untilMet]

/-- The opcode of a name; names that the machine does not reserve are calls. -/
def ofName (n : Text) : Opcode :=
  (reserved.find? fun op => op.name == n).getD (call n)

def isInternal : Opcode → Bool
  | call _ => false
  | _ => true

/-- The operands are used as written, without variables. -/
def isContextSwitch : Opcode → Bool
  | device | inclusion => true
  | _ => false

end Opcode

structure Instruction where
  line : Int
  op : Opcode
  params : List Value
deriving Repr, DecidableEq

namespace Instruction

def append (i : Instruction) (vs : List Value) : Instruction := { i with params := i.params ++ vs }

def prepend (i : Instruction) (v : Value) : Instruction := { i with params := v :: i.params }

def target? (i : Instruction) : Option Int := i.params.getLast?.bind Value.int?

def render (i : Instruction) : Text :=
  Text.joinWith " " (Text.ofInt i.line :: i.op.name :: i.params.map Value.render)

end Instruction

/-- One inclusion of a script: the path as written, the file it stands for, the section it is in. -/
structure Inclusion where
  raw : Text
  resolved : Text
  sectionName : Text
  line : Int
deriving Repr, DecidableEq

structure Script where
  path : Text
  code : List Instruction
  sections : List Text
  inclusions : List Inclusion
deriving Repr, DecidableEq

namespace Script

def empty (path : Text) : Script := ⟨path, [], [], []⟩

def emit (s : Script) (i : Instruction) : Script := { s with code := s.code ++ [i] }

/-- Records a section name once. -/
def addSection (s : Script) (name : Text) : Script :=
  if s.sections.contains name then s else { s with sections := s.sections ++ [name] }

/-- Records an inclusion once per path and section. -/
def addInclusion (s : Script) (i : Inclusion) : Script :=
  if s.inclusions.any fun e => e.raw == i.raw && e.sectionName == i.sectionName then s
  else { s with inclusions := s.inclusions ++ [i] }

def dump (s : Script) : Text := s.code.flatMap fun i => i.render ++ [Text.newline]

end Script
end DeviceScript
