import DeviceScript.Proofs.Grammar.Block
import DeviceScript.Run.Machine

/-!
The layout of the code of a block, seen from each of its instructions: how deep in chains it
stands, and what lies between a jump and the instruction on the line that it names.
-/

namespace DeviceScript

def openChains (code : List Instruction) : Int :=
  (code.countP fun i => i.op = .ifNotGoto : Nat) - (code.countP fun i => i.op = .fi : Nat)

@[simp] theorem open_chains_nil : openChains [] = 0 := rfl

@[simp] theorem open_chains_append (front back : List Instruction) :
    openChains (front ++ back) = openChains front + openChains back := by
  simp only [openChains, List.countP_append]
  omega

/-- What an instruction does to the number of open chains. -/
def Opcode.rise : Opcode → Int
  | .ifNotGoto => 1
  | .fi => -1
  | _ => 0

@[simp] theorem open_chains_cons (i : Instruction) (rest : List Instruction) :
    openChains (i :: rest) = i.op.rise + openChains rest := by
  cases op : i.op <;> simp [openChains, op, Opcode.rise]
  all_goals omega

/-- The machine follows such an instruction itself, by its conditions and its stack. -/
def Opcode.isControl : Opcode → Bool
  | .ifNotGoto | .elseIf | .elseBranch | .fi | .loop | .endWhile | .untilMet => true
  | _ => false

/-- What an instruction finds before and after it. A branch finds the next keyword of its chain
after a body that closes all chains it opens, and stands in a chain itself unless it begins one;
the two ends of a loop find each other in the same way. -/
def LinkedAt (before : List Instruction) (i : Instruction) (after : List Instruction) : Prop :=
  match i.op with
  | .device | .command | .inclusion => i.params ≠ []
  | .call _ => True
  | .ifNotGoto =>
      ∃ words body next rest, i.params = words ++ [.int (Instruction.line next)] ∧
        after = body ++ next :: rest ∧ openChains body = 0
  | .elseIf | .elseBranch =>
      0 < openChains before ∧ ∃ words body next rest,
        i.params = words ++ [.int (Instruction.line next)] ∧
        after = body ++ next :: rest ∧ openChains body = 0
  | .fi => 0 < openChains before
  | .loop =>
      ∃ words body last rest, i.params = words ++ [.int (Instruction.line last)] ∧
        after = body ++ last :: rest ∧ last.op.rise = 0 ∧ openChains body = 0
  | .endWhile | .untilMet =>
      ∃ words outer head body, i.params = .int (Instruction.line head) :: words ∧
        before = outer ++ head :: body ∧ head.op.rise = 0 ∧ openChains body = 0

/-- Holds of every instruction of the middle part, with all that stands before and after it. -/
def Along (P : List Instruction → Instruction → List Instruction → Prop) :
    List Instruction → List Instruction → List Instruction → Prop
  | _, [], _ => True
  | before, i :: rest, after => P before i (rest ++ after) ∧ Along P (before ++ [i]) rest after

section Along

variable {P : List Instruction → Instruction → List Instruction → Prop}

theorem along_append (before front back after : List Instruction) :
    Along P before (front ++ back) after ↔
      Along P before front (back ++ after) ∧ Along P (before ++ front) back after := by
  induction front generalizing before with
  | nil => simp [Along]
  | cons i rest ih => simp [Along, ih, and_assoc]

theorem along_split (before code after : List Instruction) (all : Along P before code after)
    (front : List Instruction) (i : Instruction) (back : List Instruction)
    (split : code = front ++ i :: back) : P (before ++ front) i (back ++ after) := by
  subst split
  exact ((along_append ..).mp all).2.1

end Along

theorem statement_code_open_chains (s : Statement) : openChains s.code = 0 := by
  unfold Statement.code
  repeat' split
  all_goals rfl

mutual

theorem Block.code_open_chains : (b : Block) → openChains b.code = 0
  | .done => rfl
  | .simple s rest => by
      simp [Block.code, statement_code_open_chains, rest.code_open_chains]
  | .branch head body chain rest => by
      simp [Block.code, Opcode.rise, body.code_open_chains, chain.code_open_chains,
        rest.code_open_chains]
  | .whileLoop head body last rest => by
      simp [Block.code, Opcode.rise, body.code_open_chains, rest.code_open_chains]
  | .untilLoop head body last rest => by
      simp [Block.code, Opcode.rise, body.code_open_chains, rest.code_open_chains]

-- The head that opened the chain stands before this code.
theorem Chain.code_open_chains : (k : Chain) → openChains k.code = -1
  | .close last => rfl
  | .elseIf head body rest => by
      simp [Chain.code, Opcode.rise, body.code_open_chains, rest.code_open_chains]
  | .otherwise head body last => by
      simp [Chain.code, Opcode.rise, body.code_open_chains]

end

theorem Chain.code_begins (k : Chain) :
    ∃ first rest, k.code = first :: rest ∧ first.line = k.line := by
  cases k <;> exact ⟨_, _, rfl, rfl⟩

theorem statement_code_linked (s : Statement) (before after : List Instruction) :
    Along LinkedAt before s.code after := by
  unfold Statement.code
  repeat' split
  all_goals simp [Along, LinkedAt]

mutual

/-- Every instruction of a block is linked, whatever code stands around the block. -/
theorem Block.linked : (b : Block) → (before after : List Instruction) → 0 ≤ openChains before →
    Along LinkedAt before b.code after
  | .done, _, _, _ => trivial
  | .simple s rest, before, after, outside => by
      refine (along_append ..).mpr ⟨statement_code_linked s _ _, rest.linked _ _ ?_⟩
      simpa [statement_code_open_chains] using outside
  | .branch head body chain rest, before, after, outside => by
      -- The target is the first instruction of the chain, so only the body lies between.
      obtain ⟨next, others, begins, line⟩ := chain.code_begins
      refine ⟨⟨head.words, body.code, next, others ++ (rest.code ++ after), by rw [line],
        by simp [begins], body.code_open_chains⟩, ?_⟩
      refine (along_append ..).mpr ⟨body.linked _ _ ?_, (along_append ..).mpr
        ⟨chain.linked _ _ ?_, rest.linked _ _ ?_⟩⟩
      all_goals
        simp only [open_chains_append, open_chains_cons, open_chains_nil, Opcode.rise,
          body.code_open_chains, chain.code_open_chains]
        omega
  | .whileLoop head body last rest, before, after, outside => by
      refine ⟨⟨head.words, body.code, ⟨last.line, .endWhile, .int head.line :: last.words⟩,
        rest.code ++ after, rfl, by simp, rfl, body.code_open_chains⟩, ?_⟩
      refine (along_append ..).mpr ⟨body.linked _ _ ?_, ?_, rest.linked _ _ ?_⟩
      · simpa [Opcode.rise] using outside
      · exact ⟨last.words, before, ⟨head.line, .loop, head.words ++ [.int last.line]⟩, body.code,
          rfl, by simp, rfl, body.code_open_chains⟩
      · simpa [Opcode.rise, body.code_open_chains] using outside
  | .untilLoop head body last rest, before, after, outside => by
      refine ⟨⟨[], body.code, ⟨last.line, .untilMet, .int head.line :: last.words⟩,
        rest.code ++ after, rfl, by simp, rfl, body.code_open_chains⟩, ?_⟩
      refine (along_append ..).mpr ⟨body.linked _ _ ?_, ?_, rest.linked _ _ ?_⟩
      · simpa [Opcode.rise] using outside
      · exact ⟨last.words, before, ⟨head.line, .loop, [.int last.line]⟩, body.code,
          rfl, by simp, rfl, body.code_open_chains⟩
      · simpa [Opcode.rise, body.code_open_chains] using outside

theorem Chain.linked : (k : Chain) → (before after : List Instruction) → 0 < openChains before →
    Along LinkedAt before k.code after
  | .close last, _, _, within => ⟨within, trivial⟩
  | .elseIf head body rest, before, after, within => by
      obtain ⟨next, others, begins, line⟩ := rest.code_begins
      refine ⟨⟨within, head.words, body.code, next, others ++ after, by rw [line],
        by simp [begins], body.code_open_chains⟩, ?_⟩
      refine (along_append ..).mpr ⟨body.linked _ _ ?_, rest.linked _ _ ?_⟩
      all_goals
        simp only [open_chains_append, open_chains_cons, open_chains_nil, Opcode.rise,
          body.code_open_chains]
        omega
  | .otherwise head body last, before, after, within => by
      refine ⟨⟨within, [], body.code, ⟨last.line, .fi, []⟩, after, rfl, by simp,
        body.code_open_chains⟩, ?_⟩
      refine (along_append ..).mpr ⟨body.linked _ _ ?_, ?_, trivial⟩
      all_goals
        simp only [LinkedAt, open_chains_append, open_chains_cons, open_chains_nil, Opcode.rise,
          body.code_open_chains]
        omega

end

end DeviceScript
