import DeviceScript.Proofs.Run.Boundary

/-!
What a block means by itself, without code, jumps or a stack. Chains and loops are followed as
they are written, up to a bound on the rounds of a loop; a simple statement does what a script of
that statement alone would do. The course of a machine is told in the same terms.
-/

namespace DeviceScript

structure Scene (ω : Type) where
  vars : Vars
  device : Text
  world : ω

/-- What has been done: the simple instructions that were carried out, with their variables
filled in, what they left behind and, if this did not come to its end, the reason. -/
structure Course (ω : Type) where
  trace : List Instruction
  scene : Scene ω
  breakdown : Option Breakdown

namespace Course

variable {ω : Type}

def through (c : Scene ω) : Course ω := ⟨[], c, none⟩

def after (c : Course ω) (earlier : List Instruction) : Course ω :=
  { c with trace := earlier ++ c.trace }

def andThen (done : Course ω) (next : Scene ω → Course ω) : Course ω :=
  match done.breakdown with
  | some _ => done
  | none => (next done.scene).after done.trace

/-- Goes on by a verdict, or breaks down for want of one. -/
def choose (verdict : Except Fault Bool) (c : Scene ω) (yes no : Scene ω → Course ω) : Course ω :=
  match verdict with
  | .error fault => ⟨[], c, some (.fault fault)⟩
  | .ok true => yes c
  | .ok false => no c

/-- A loop: left when its guard fails, or after a body when its end says so. -/
def rounds (guard : Scene ω → Except Fault Bool) (body : Scene ω → Course ω)
    (leave : Scene ω → Except Fault Bool) : Nat → Scene ω → Course ω
  | 0, c => ⟨[], c, some .outOfFuel⟩
  | n + 1, c =>
      choose (guard c) c
        (fun c => (body c).andThen fun c => choose (leave c) c through (rounds guard body leave n))
        through

/-- The one course is the other, or a beginning of it that a bound cut off. -/
def Within (part whole : Course ω) : Prop :=
  part = whole ∨ part.breakdown = some .outOfFuel ∧ part.trace <+: whole.trace

end Course

namespace Machine

variable {ω : Type}

/-- The simple instruction that is executed next, as it will be executed. -/
def due (h : Host ω) (m : Machine) (w : ω) : List Instruction :=
  match m.script.code[m.pc]? with
  | none => []
  | some i =>
      if m.state = .running ∧ stopReason? h w = none ∧ i.op.isControl = false ∧
        (m.missing = .error → i.missingVars m.vars = []) then
        [{ i with params := i.interpolated m.vars }]
      else []

def dispatched (h : Host ω) : Nat → Machine → ω → List Instruction
  | 0, _, _ => []
  | fuel + 1, m, w =>
      m.due h w ++
        match m.next? h (run h fuel) w with
        | none => []
        | some (m', w') => dispatched h fuel m' w'

/-- What a run has done. Faults are told by their lines. -/
def course (h : Host ω) (fuel : Nat) (m : Machine) (w : ω) : Course ω where
  trace := m.dispatched h fuel w
  scene := ⟨(m.run h fuel w).machine.vars, (m.run h fuel w).machine.device, (m.run h fuel w).world⟩
  breakdown := (m.run h fuel w).breakdown.map Breakdown.unplaced

end Machine

structure Setting where
  path : Text
  depth : Nat
  runId : Text
  missing : MissingPolicy

namespace Setting

variable {ω : Type}

def machine (s : Setting) (script : Script) (pc : Nat) (stack : ControlStack) (c : Scene ω) :
    Machine :=
  ⟨script, pc, .running, stack, c.vars, c.device, s.depth, [], s.runId, s.missing⟩

def perform (h : Host ω) (s : Setting) (bound : Nat) (code : List Instruction) (c : Scene ω) :
    Course ω :=
  (s.machine ⟨s.path, code, [], []⟩ 0 .empty c).course h (bound + 2) c.world

def condition (words : List Value) (leftOut : Bool) (vars : Vars) : Except Reason Bool :=
  if words = [] then .ok leftOut
  else Condition.evaluate ((words.map (Value.interpolate vars)).map Value.render)

/-- The verdict of a keyword on its line, where a run may be stopped too. -/
def verdict (h : Host ω) (s : Setting) (line : Int) (words : List Value) (leftOut : Bool)
    (c : Scene ω) : Except Fault Bool :=
  match Machine.stopReason? h c.world with
  | some text => .error (.located (Report.atLine .abort text s.path line) none)
  | none =>
      (condition words leftOut c.vars).mapError fun reason =>
        .located (Report.atLine .expression reason.message s.path line) (some (.plain reason))

def pass (h : Host ω) (s : Setting) (line : Int) (c : Scene ω) : Course ω :=
  .choose (s.verdict h line [] true c) c .through .through

end Setting

section

variable {ω : Type} (h : Host ω) (s : Setting) (bound : Nat)

mutual

/-- The course of a block, with at most `bound` rounds for any loop. -/
def Block.course : Block → Scene ω → Course ω
  | .done, c => .through c
  | .simple st rest, c => (s.perform h bound st.code c).andThen rest.course
  | .branch head body chain rest, c =>
      (Course.choose (s.verdict h head.line head.words true c) c
        (fun c => (body.course c).andThen (s.pass h chain.line))
        chain.course).andThen rest.course
  | .whileLoop head body last rest, c =>
      (Course.rounds (s.verdict h head.line head.words true) body.course
        (s.verdict h last.line last.words false) bound c).andThen rest.course
  | .untilLoop head body last rest, c =>
      (Course.rounds (s.verdict h head.line [] true) body.course
        (s.verdict h last.line last.words false) bound c).andThen rest.course

/-- The course of a chain none of whose branches has been taken yet. The first condition that
holds decides: no later one is looked at. -/
def Chain.course : Chain → Scene ω → Course ω
  | .close last, c => s.pass h last.line c
  | .elseIf head body rest, c =>
      Course.choose (s.verdict h head.line head.words true c) c
        (fun c => (body.course c).andThen (s.pass h rest.line))
        rest.course
  | .otherwise head body last, c =>
      ((s.pass h head.line c).andThen body.course).andThen (s.pass h last.line)

end

end

end DeviceScript
