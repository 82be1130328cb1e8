import DeviceScript.Library.Basic
import DeviceScript.Operation.Registry
import DeviceScript.Run.Condition
import DeviceScript.Run.ControlStack
import DeviceScript.Run.Interpolation

/-!
The machine that runs linear code. A machine owns its position, its control stack and its
variables; an inclusion runs in a machine of its own, one level deeper, over the same world.
-/

namespace DeviceScript

open Text

inductive RunState where
  | running
  | awaitingJump
  | halted
  | aborted
deriving Repr, DecidableEq

def RunState.name : RunState → Text
  | running => "running"
  | awaitingJump => "awaiting-jump"
  | halted => "halted"
  | aborted => "aborted"

structure Machine where
  script : Script
  pc : Nat
  state : RunState
  stack : ControlStack
  vars : Vars
  /-- The section that the machine last switched to. -/
  device : Text
  depth : Nat
  abortReason : Text
  runId : Text
  missing : MissingPolicy
deriving Repr

/-- An instruction about to be executed, with the state of the machine it belongs to. -/
structure Boundary where
  depth : Nat
  pc : Nat
  instruction : Instruction
  stack : ControlStack
  vars : Vars
deriving Repr

/-- One line per instruction: the position, then the instruction as it will be executed. -/
def Boundary.trace (label : Text) (b : Boundary) : Text :=
  let start : Text := if label.isEmpty then [] else label ++ " "
  start ++ padded 4 b.pc ++ " " ++ b.instruction.render

structure Host (ω : Type) extends Services ω where
  stopRequested : ω → Bool
  /-- Told of every instruction before it is executed. -/
  observe : Boundary → ω → ω
  registry : Option (Registry ω)
  load : Option (Text → ω → Except Breakdown Script × ω)

/-- Inclusions deeper than this are refused. -/
def maxDepth : Nat := 64

/-- A machine after some work, and what kept it from finishing that work. -/
structure Progress (ω : Type) where
  machine : Machine
  world : ω
  breakdown : Option Breakdown

namespace Progress

variable {ω : Type}

def ok (m : Machine) (w : ω) : Progress ω := ⟨m, w, none⟩

def failed (f : Fault) (m : Machine) (w : ω) : Progress ω := ⟨m, w, some (.fault f)⟩

end Progress

namespace Machine

def start (script : Script) (vars : Vars) (missing : MissingPolicy) (runId : Text) : Machine :=
  ⟨script, 0, .running, .empty, vars, [], 0, [], runId, missing⟩

def child (m : Machine) (script : Script) : Machine :=
  { m with
    script := script, pc := 0, state := .running, stack := .empty, depth := m.depth + 1,
    abortReason := [] }

def advance (m : Machine) : Machine := { m with pc := m.pc + 1 }

/-- The source line of the current instruction, past the end that of the last one. -/
def line (m : Machine) : Int :=
  match m.script.code[m.pc]? with
  | some i => i.line
  | none => (m.script.code.getLast?.map Instruction.line).getD 0

def report (m : Machine) (kind : FaultKind) (text : Text) : Fault :=
  .located (Report.atInstruction kind text m.script.path m.line m.pc) none

/-- Places a fault at the current instruction. One that is placed already keeps its place. -/
def locate (m : Machine) (kind : FaultKind) (f : Fault) : Fault :=
  match f.report? with
  | some r =>
      .located (if r.pc < 0 ∧ r.kind ≠ .syntaxError then { r with pc := m.pc } else r) f.cause?
  | none =>
      .located (Report.atInstruction kind f.message m.script.path m.line m.pc) (some f)

variable {ω : Type}

def refuse (m : Machine) (kind : FaultKind) (reason : Reason) (w : ω) : Progress ω :=
  .failed (m.locate kind (.plain reason)) m w

/-- A failure of a session or an operation. A lost session and a canceled run abort the script. -/
def sessionFault (m : Machine) (canceled : Bool) (f : Fault) (w : ω) : Progress ω :=
  if f.report?.isSome then .failed f m w
  else if f.isFatal || canceled then
    .failed (m.locate .abort f) { m with abortReason := f.message } w
  else .failed (m.locate .handler f) m w

/-! Jumps go to the nearest instruction of a line, in one direction. -/

def forwardTarget? (code : List Instruction) (pc : Nat) (line : Int) : Option Nat :=
  ((code.drop (pc + 1)).findIdx? fun i => i.line == line).map (pc + 1 + ·)

def backwardTarget? (code : List Instruction) (pc : Nat) (line : Int) : Option Nat :=
  ((code.take pc).reverse.findIdx? fun i => i.line == line).map (pc - 1 - ·)

def jumpForward (m : Machine) (line : Int) : Except Reason Machine :=
  match forwardTarget? m.script.code m.pc line with
  | some pc => .ok { m with pc := pc }
  | none => .error (.jumpNotFound line)

def jumpBackward (m : Machine) (line : Int) : Except Reason Machine :=
  match backwardTarget? m.script.code m.pc line with
  | some pc => .ok { m with pc := pc }
  | none => .error (.jumpNotFound line)

/-- Parameters that end with the line of a jump target: the words before it, and the line. -/
def splitTarget (params : List Value) : Except Reason (List Text × Int) :=
  match params.getLast? with
  | none => .error .noJumpTarget
  | some (.int line) => .ok (params.dropLast.map Value.render, line)
  | some other => .error (.jumpTargetNotLine other)

/-- Why control flow stopped: a condition, or the flow itself. -/
def flowFault (reason : Reason) : FaultKind × Reason := (.handler, reason)

def conditionFault (reason : Reason) : FaultKind × Reason := (.expression, reason)

abbrev Flow := Except (FaultKind × Reason) Machine

/-- The condition of a branch, and the line of the next keyword of its chain. -/
def branchTest (params : List Value) : Except (FaultKind × Reason) (Bool × Int) := do
  let (condition, target) ← (splitTarget params).mapError flowFault
  let holds ← (Condition.evaluate condition).mapError conditionFault
  return (holds, target)

def elseIf (m : Machine) (params : List Value) : Flow := do
  let (condition, target) ← (splitTarget params).mapError flowFault
  let taken ← m.stack.peek.mapError flowFault
  if taken then (m.jumpForward target).mapError flowFault
  else
    let holds ← (Condition.evaluate condition).mapError conditionFault
    if holds then
      let stack ← (m.stack.replace true).mapError flowFault
      return { m with stack := stack }.advance
    (m.jumpForward target).mapError flowFault

def elseBranch (m : Machine) (params : List Value) : Flow := do
  let (_, target) ← (splitTarget params).mapError flowFault
  let taken ← m.stack.peek.mapError flowFault
  if taken then (m.jumpForward target).mapError flowFault else return m.advance

def fi (m : Machine) : Flow := do
  let (_, stack) ← m.stack.pop.mapError flowFault
  return { m with stack := stack }.advance

/-- The head of a loop. A guard that fails leaves the loop behind, its end included. -/
def loop (m : Machine) (params : List Value) : Flow := do
  let (guard, target) ← (splitTarget params).mapError flowFault
  if guard.isEmpty then return m.advance
  let holds ← (Condition.evaluate guard).mapError conditionFault
  if holds then return m.advance
  return (← (m.jumpForward target).mapError flowFault).advance

/-- The end of a loop: the line of its head, then the condition on which it is left, if any. -/
def loopEnd (m : Machine) (op : Opcode) (params : List Value) : Flow :=
  match params with
  | [] => .error (flowFault (.noLoopStart op.name))
  | .int start :: [] => (m.jumpBackward start).mapError flowFault
  | .int start :: condition => do
      let done ← (Condition.evaluate (condition.map Value.render)).mapError conditionFault
      if done then return m.advance
      (m.jumpBackward start).mapError flowFault
  | other :: _ => .error (flowFault (.loopStartNotLine op.name other))

/-- A jump or condition that fails leaves the machine as it was before. -/
def follow (before : Machine) (flow : Flow) (w : ω) : Progress ω :=
  match flow with
  | .ok m => .ok m w
  | .error (kind, reason) => before.refuse kind reason w

/-- The head of a chain of branches. The chain is on the stack before the jump is tried. -/
def ifNotGoto (m : Machine) (params : List Value) (w : ω) : Progress ω :=
  match branchTest params with
  | .error (kind, reason) => m.refuse kind reason w
  | .ok (holds, target) =>
      let m := { m with stack := m.stack.push holds }
      m.follow (if holds then .ok m.advance else (m.jumpForward target).mapError flowFault) w

/-! Instructions that reach out of the machine. -/

def switchDevice (h : Host ω) (m : Machine) (params : List Value) (w : ω) : Progress ω :=
  match params with
  | [] => ⟨m, w, some .crash⟩
  | operand :: _ =>
      let name := operand.render
      let (answer, w) : Reply ω Unit :=
        match h.session with
        | some session => session.switchDevice name w
        | none => (.ok (), w)
      match answer with
      | .error fault => m.sessionFault (h.canceled w) fault w
      | .ok () =>
          .ok { m with device := name }.advance
            (h.log ⟨.debug, "device", [("name", name), ("line", ofInt m.line)]⟩ w)

def command (h : Host ω) (m : Machine) (params : List Value) (w : ω) : Progress ω :=
  match h.session, params with
  | none, _ => m.refuse .handler (.noSession "command") w
  | some _, [] => ⟨m, w, some .crash⟩
  | some session, operand :: _ =>
      match session.send operand.render w with
      | (.error fault, w) => m.sessionFault (h.canceled w) fault w
      | (.ok output, w) => .ok { m with vars := m.vars.set outputVar output }.advance w

/-- Goes on after an inclusion has run to its end. The session may have been left on another
device. -/
def resume (h : Host ω) (m included : Machine) (w : ω) : Progress ω :=
  match h.session with
  | some session =>
      if m.device.isEmpty || included.device == m.device then .ok m.advance w
      else
        match session.switchDevice m.device w with
        | (.error fault, w) => m.sessionFault (h.canceled w) fault w
        | (.ok (), w) => .ok m.advance w
  | none => .ok m.advance w

/-- The fault of an inclusion as the including script reports it: with a frame for itself. -/
def framed (m : Machine) (line : Int) (f : Fault) (w : ω) : Progress ω :=
  match f.report? with
  | some r =>
      let m := if r.kind = .abort then { m with abortReason := r.text } else m
      .failed (.located (r.addFrame ⟨m.script.path, line, m.pc⟩) f.cause?) m w
  | none => .failed (m.locate .handler f) m w

def inclusion (h : Host ω) (runChild : Machine → ω → Progress ω) (m : Machine) (line : Int)
    (params : List Value) (w : ω) : Progress ω :=
  match params with
  | [] => ⟨m, w, some .crash⟩
  | operand :: _ =>
      let path := operand.render
      match h.load with
      | none => m.refuse .handler (.noLoader path) w
      | some load =>
          if maxDepth ≤ m.depth then m.refuse .handler (.nestedTooDeep path maxDepth) w
          else
            match load path w with
            | (.error (.fault f), w) => .failed (m.locate .syntaxError f) m w
            | (.error other, w) => ⟨m, w, some other⟩
            | (.ok script, w) =>
                let w := h.log
                  ⟨.debug, "include", [("path", path), ("depth", ofNat (m.depth + 1))]⟩ w
                let p := runChild (m.child script) w
                match p.breakdown with
                | none => m.resume h p.machine p.world
                | some (.fault f) => m.framed line f p.world
                | some other => ⟨m, p.world, some other⟩

def call (h : Host ω) (m : Machine) (i : Instruction) (params : List Value) (w : ω) :
    Progress ω :=
  match h.registry.bind fun r => r.lookup? i.op.name with
  | none =>
      .failed (.located (Report.atInstruction .unknownOperation
        ("unknown operation '" ++ i.op.name ++ "'") m.script.path i.line m.pc) none) m w
  | some operation =>
      match operation.spec.bind params with
      | .error reason => m.refuse .handler reason w
      | .ok bound =>
          let site : CallSite := ⟨m.runId, m.script.path, i.line, i.op.name, m.device⟩
          let r := operation.handler h.toServices site bound m.vars w
          let m := { m with vars := r.vars, abortReason := r.abort.getD m.abortReason }
          match r.fault with
          | some fault => m.sessionFault (h.canceled r.world) fault r.world
          | none => .ok m.advance r.world

def execute (h : Host ω) (runChild : Machine → ω → Progress ω) (m : Machine) (i : Instruction)
    (params : List Value) (w : ω) : Progress ω :=
  match i.op with
  | .device => m.switchDevice h params w
  | .command => m.command h params w
  | .inclusion => m.inclusion h runChild i.line params w
  | .ifNotGoto => m.ifNotGoto params w
  | .elseIf => m.follow (m.elseIf params) w
  | .elseBranch => m.follow (m.elseBranch params) w
  | .fi => m.follow m.fi w
  | .loop => m.follow (m.loop params) w
  | .endWhile => m.follow (m.loopEnd .endWhile params) w
  | .untilMet => m.follow (m.loopEnd .untilMet params) w
  | .call _ => m.call h i params w

def warnings (m : Machine) (i : Instruction) : List LogEntry :=
  (i.missingVars m.vars).map fun name =>
    ⟨.warn, "variable not set",
      [("name", name), ("script", m.script.path), ("line", ofInt m.line)]⟩

/-- Fills in the variables of an instruction and executes it. -/
def step (h : Host ω) (runChild : Machine → ω → Progress ω) (m : Machine) (i : Instruction)
    (w : ω) : Progress ω :=
  let go (w : ω) : Progress ω :=
    let params := i.interpolated m.vars
    let boundary : Boundary := ⟨m.depth, m.pc, { i with params := params }, m.stack, m.vars⟩
    m.execute h runChild i params (h.observe boundary w)
  match m.missing, i.missingVars m.vars with
  | .error, name :: _ =>
      .failed (m.report .missingVariable ("variable '" ++ name ++ "' is not set")) m w
  | .warn, _ => go ((m.warnings i).foldl (fun w entry => h.log entry w) w)
  | _, _ => go w

def stopReason? (h : Host ω) (w : ω) : Option Text :=
  if h.stopRequested w then some "stop requested"
  else if h.canceled w then some (Reason.message .canceled)
  else none

def finish (h : Host ω) (m : Machine) (w : ω) : Progress ω :=
  .ok m (h.log ⟨.debug, "script halted", [("script", m.script.path), ("run", m.runId)]⟩ w)

/-- Runs until the script ends, for at most `fuel` instructions of any one script. -/
def run (h : Host ω) : Nat → Machine → ω → Progress ω
  | 0, m, w => ⟨m, w, some .outOfFuel⟩
  | fuel + 1, m, w =>
      if m.state ≠ .running then m.finish h w
      else
        match m.script.code[m.pc]? with
        | none => { m with state := .halted }.finish h w
        | some i =>
            match stopReason? h w with
            | some reason =>
                .failed (m.report .abort reason)
                  { m with state := .aborted, abortReason := reason } w
            | none =>
                let p := m.step h (run h fuel) i w
                match p.breakdown with
                | some (.fault f) => .failed f { p.machine with state := .aborted } p.world
                | some other => ⟨p.machine, p.world, some other⟩
                | none =>
                    if p.machine.abortReason.isEmpty then run h fuel p.machine p.world
                    else
                      .failed
                        (.located (Report.atInstruction .abort p.machine.abortReason
                          m.script.path i.line m.pc) none)
                        { p.machine with state := .aborted } p.world

end Machine
end DeviceScript
