import DeviceScript.Proofs.Grammar.Statement

/-!
The block grammar of the standard language. A block is a derivation: it holds its statements at
the places where the grammar puts them, so it can be written out as statements and, with every
jump given as the line of the keyword it goes to, as code.
-/

namespace DeviceScript

open Text

mutual

/-- Statements in order, up to the end or to a keyword that closes what they stand in. -/
inductive Block where
  | done
  | simple (s : Statement) (rest : Block)
  | branch (head : Statement) (body : Block) (chain : Chain) (rest : Block)
  | whileLoop (head : Statement) (body : Block) (last : Statement) (rest : Block)
  | untilLoop (head : Statement) (body : Block) (last : Statement) (rest : Block)

/-- What follows the first branch of a chain. -/
inductive Chain where
  | close (last : Statement)
  | elseIf (head : Statement) (body : Block) (rest : Chain)
  | otherwise (head : Statement) (body : Block) (last : Statement)

end

namespace Statement

def IsFi (s : Statement) : Prop := (s.IsKeyword "fi" ∨ s.IsKeyword "endif") ∧ s.args = []

def IsElseIf (s : Statement) : Prop := s.IsKeyword "elseif" ∧ IsCondition s.args

def IsElse (s : Statement) : Prop := s.IsKeyword "else" ∧ s.args = []

def IsIf (s : Statement) : Prop := s.IsKeyword "if" ∧ IsCondition s.args

def IsWhile (s : Statement) : Prop := s.IsKeyword "while" ∧ IsCondition s.args

/-- The end of a guarded loop, with a condition or without. -/
def IsEndWhile (s : Statement) : Prop :=
  s.IsKeyword "endwhile" ∧ (IsCondition s.args ∨ s.args = [])

def IsLoop (s : Statement) : Prop := s.IsKeyword "loop" ∧ s.args = []

def IsUntil (s : Statement) : Prop := s.IsKeyword "until" ∧ IsCondition s.args

end Statement

def Chain.line : Chain → Int
  | .close last => last.line
  | .elseIf head _ _ => head.line
  | .otherwise head _ _ => head.line

mutual

def Block.statements : Block → List Statement
  | .done => []
  | .simple s rest => s :: rest.statements
  | .branch head body chain rest =>
      head :: (body.statements ++ (chain.statements ++ rest.statements))
  | .whileLoop head body last rest => head :: (body.statements ++ (last :: rest.statements))
  | .untilLoop head body last rest => head :: (body.statements ++ (last :: rest.statements))

def Chain.statements : Chain → List Statement
  | .close last => [last]
  | .elseIf head body rest => head :: (body.statements ++ rest.statements)
  | .otherwise head body last => head :: (body.statements ++ [last])

end

mutual

/-- Every statement is of the form that its place asks for. -/
def Block.Fits : Block → Prop
  | .done => True
  | .simple s rest => s.IsSimple ∧ rest.Fits
  | .branch head body chain rest => head.IsIf ∧ body.Fits ∧ chain.Fits ∧ rest.Fits
  | .whileLoop head body last rest => head.IsWhile ∧ body.Fits ∧ last.IsEndWhile ∧ rest.Fits
  | .untilLoop head body last rest => head.IsLoop ∧ body.Fits ∧ last.IsUntil ∧ rest.Fits

def Chain.Fits : Chain → Prop
  | .close last => last.IsFi
  | .elseIf head body rest => head.IsElseIf ∧ body.Fits ∧ rest.Fits
  | .otherwise head body last => head.IsElse ∧ body.Fits ∧ last.IsFi

end

mutual

/-- The code of a block in the order of its statements. A branch ends with the line of the next
keyword of its own chain, the head of a loop with the line of its own end, and the end of a loop
begins with the line of its own head. -/
def Block.code : Block → List Instruction
  | .done => []
  | .simple s rest => s.code ++ rest.code
  | .branch head body chain rest =>
      ⟨head.line, .ifNotGoto, head.words ++ [.int chain.line]⟩ ::
        (body.code ++ (chain.code ++ rest.code))
  | .whileLoop head body last rest =>
      ⟨head.line, .loop, head.words ++ [.int last.line]⟩ ::
        (body.code ++ (⟨last.line, .endWhile, .int head.line :: last.words⟩ :: rest.code))
  | .untilLoop head body last rest =>
      ⟨head.line, .loop, [.int last.line]⟩ ::
        (body.code ++ (⟨last.line, .untilMet, .int head.line :: last.words⟩ :: rest.code))

def Chain.code : Chain → List Instruction
  | .close last => [⟨last.line, .fi, []⟩]
  | .elseIf head body rest =>
      ⟨head.line, .elseIf, head.words ++ [.int rest.line]⟩ :: (body.code ++ rest.code)
  | .otherwise head body last =>
      ⟨head.line, .elseBranch, [.int last.line]⟩ :: (body.code ++ [⟨last.line, .fi, []⟩])

end

/-- The statements stand on lines of their own, one after the other. -/
def LinesAscend (ss : List Statement) : Prop := ss.Pairwise fun s t => s.line < t.line

theorem statement_code_lines (s : Statement) :
    (s.code.map Instruction.line).Sublist [s.line] := by
  unfold Statement.code
  split
  · exact List.Sublist.refl _
  · exact List.Sublist.refl _
  · exact List.Sublist.refl _
  · split
    · exact List.nil_sublist _
    · split
      · exact List.nil_sublist _
      · exact List.Sublist.refl _
  · exact List.nil_sublist _

-- A sublist only, since a comment has a line and no code.
mutual

theorem Block.code_lines : (b : Block) →
    (b.code.map Instruction.line).Sublist (b.statements.map Statement.line)
  | .done => List.Sublist.refl _
  | .simple s rest => by
      have tail := rest.code_lines
      have both := (statement_code_lines s).append tail
      simpa [Block.code, Block.statements] using both
  | .branch head body chain rest => by
      have all := (body.code_lines.append (chain.code_lines.append rest.code_lines)).cons_cons
        head.line
      simpa [Block.code, Block.statements] using all
  | .whileLoop head body last rest => by
      have all := (body.code_lines.append (rest.code_lines.cons_cons last.line)).cons_cons head.line
      simpa [Block.code, Block.statements] using all
  | .untilLoop head body last rest => by
      have all := (body.code_lines.append (rest.code_lines.cons_cons last.line)).cons_cons head.line
      simpa [Block.code, Block.statements] using all

theorem Chain.code_lines : (k : Chain) →
    (k.code.map Instruction.line).Sublist (k.statements.map Statement.line)
  | .close last => List.Sublist.refl _
  | .elseIf head body rest => by
      have all := (body.code_lines.append rest.code_lines).cons_cons head.line
      simpa [Chain.code, Chain.statements] using all
  | .otherwise head body last => by
      have all := (body.code_lines.append (List.Sublist.refl [last.line])).cons_cons head.line
      simpa [Chain.code, Chain.statements] using all

end

theorem Block.code_lines_ascend (b : Block) (ascend : LinesAscend b.statements) :
    (b.code.map Instruction.line).Pairwise (· < ·) := by
  have lines : (b.statements.map Statement.line).Pairwise (· < ·) :=
    List.pairwise_map.mpr ascend
  exact lines.sublist b.code_lines

end DeviceScript
