import DeviceScript.Proofs.Grammar.Taking

/-!
Whole sources. Taking all statements and ending with no open block is the same as deriving them
from the block grammar, and the code that is left then is the code of the derivation.
-/

namespace DeviceScript

open Text

namespace Assembly

/-- Statements taken one after the other, none of them rejected. -/
inductive Taken (c : AssemblyContext) : Assembly → List Statement → Assembly → Prop where
  | done (a : Assembly) : Taken c a [] a
  | next {a b d : Assembly} {s : Statement} {rest : List Statement} :
      a.take c s = (b, none) → Taken c b rest d → Taken c a (s :: rest) d

variable {c : AssemblyContext}

theorem Taken.append {a b d : Assembly} {ss ts : List Statement} (first : Taken c a ss b)
    (second : Taken c b ts d) : Taken c a (ss ++ ts) d := by
  induction first with
  | done => exact second
  | next taken _ ih => exact .next taken (ih second)

theorem Taken.unique {a b d : Assembly} {ss : List Statement} (first : Taken c a ss b)
    (second : Taken c a ss d) : b = d := by
  induction first with
  | done => cases second; rfl
  | next taken _ ih =>
      cases second with
      | next again rest =>
          rw [taken] at again
          cases again
          exact ih rest

/-- A strict assembly succeeds if it takes every statement and closes every block. -/
theorem run_strict_ok_iff (strict : c.lenient = false) (lastLine : Int) (a : Assembly)
    (ss : List Statement) (script : Script) :
    (run c lastLine a ss).result = .ok script ↔
      ∃ b, Taken c a ss b ∧ b.blocks = [] ∧ b.script = script := by
  induction ss generalizing a with
  | nil =>
      constructor
      · intro ended
        unfold run at ended
        cases blocks : a.blocks with
        | nil =>
            simp only [blocks, Except.ok.injEq] at ended
            exact ⟨a, .done a, blocks, ended⟩
        | cons block outer => simp [blocks] at ended
      · rintro ⟨b, taken, blocks, rfl⟩
        cases taken
        simp [run, blocks]
  | cons s rest ih =>
      unfold run
      -- A rejected statement ends a strict run, whether it is skippable or not.
      rcases step : a.take c s with ⟨b, _ | rejection⟩
      · simp only
        rw [ih b]
        constructor
        · rintro ⟨d, taken, ended⟩
          exact ⟨d, .next step taken, ended⟩
        · rintro ⟨d, taken, ended⟩
          cases taken with
          | next again taken =>
              rw [step] at again
              cases again
              exact ⟨d, taken, ended⟩
      · constructor
        · intro ended
          cases rejection <;> simp [strict] at ended
        · rintro ⟨d, taken, -⟩
          cases taken with
          | next again _ =>
              rw [step] at again
              cases again

end Assembly

/-- The statements that end a block which waits for `p`. -/
def Pending.EndsWith : Pending → List Statement → Prop
  | .chain, tail => ∃ chain : Chain, chain.Fits ∧ chain.statements = tail
  | .otherwise, tail => ∃ last : Statement, last.IsFi ∧ tail = [last]
  | .whileLoop, tail => ∃ last : Statement, last.IsEndWhile ∧ tail = [last]
  | .untilLoop, tail => ∃ last : Statement, last.IsUntil ∧ tail = [last]

/-- Statements that finish all open blocks, the innermost first, and go on to the end. -/
def Completes : List Pending → List Statement → Prop
  | [], ss => ∃ b : Block, b.Fits ∧ b.statements = ss
  | p :: ps, ss => ∃ (b : Block) (tail rest : List Statement),
      b.Fits ∧ p.EndsWith tail ∧ Completes ps rest ∧ ss = b.statements ++ (tail ++ rest)

theorem Completes.construct {ps : List Pending} {ss : List Statement}
    (front : List Statement) (build : Block → Block) (fits : ∀ b : Block, b.Fits → (build b).Fits)
    (written : ∀ b : Block, (build b).statements = front ++ b.statements)
    (completes : Completes ps ss) : Completes ps (front ++ ss) := by
  cases ps with
  | nil =>
      obtain ⟨b, fit, rfl⟩ := completes
      exact ⟨build b, fits b fit, written b⟩
  | cons p ps =>
      obtain ⟨b, tail, rest, fit, ends, after, rfl⟩ := completes
      exact ⟨build b, tail, rest, fits b fit, ends, after, by simp [written]⟩

theorem Completes.finish {p : Pending} {ps : List Pending} {ss : List Statement}
    (tail : List Statement) (ends : p.EndsWith tail) (completes : Completes ps ss) :
    Completes (p :: ps) (tail ++ ss) :=
  ⟨.done, tail, ss, trivial, ends, completes, rfl⟩

theorem Pending.ends_injective {p q : Pending} (same : p.ends = q.ends) : p = q := by
  revert same
  cases p <;> cases q <;> decide

theorem awaited_innermost {p : Pending} {index : Nat} {loopLine : Option Int}
    {outer : List OpenBlock} {ps : List Pending}
    (awaits : List.Forall₂ OpenBlock.Awaits (⟨p.ends, index, loopLine⟩ :: outer) ps) :
    ∃ qs, ps = p :: qs ∧ List.Forall₂ OpenBlock.Awaits outer qs := by
  cases awaits with
  | @cons _ q _ qs first others =>
      obtain rfl := Pending.ends_injective first.1
      exact ⟨qs, rfl, others⟩

namespace Assembly

variable {c : AssemblyContext} (standard : c.schema = Schema.standard)

include standard

/-- The stack of open blocks says what the statements to come must do. -/
theorem taken_completes {a b : Assembly} {ss : List Statement} {ps : List Pending}
    (taken : Taken c a ss b) (closed : b.blocks = [])
    (awaits : List.Forall₂ OpenBlock.Awaits a.blocks ps) : Completes ps ss := by
  -- By induction from the front: an opener pushes what it waits for, and the derivation of its
  -- body is what the induction hypothesis gives for that innermost block.
  induction taken generalizing ps with
  | done a =>
      rw [closed] at awaits
      cases awaits
      exact ⟨.done, trivial, rfl⟩
  | @next a b _ s rest step _ ih =>
      cases take_sound standard awaits step with
      | simple read =>
          have form := simple_sound c standard a b s read
          obtain ⟨d, again, extended⟩ := simple_complete a s form
          rw [again c standard] at read
          cases read
          have after := ih closed (extended.2.1 ▸ awaits)
          exact after.construct [s] (.simple s) (fun _ fit => ⟨form, fit⟩) (fun _ => rfl)
      | openIf form =>
          have inner : Completes (.chain :: ps) rest := ih closed (.cons ⟨rfl, by simp⟩ awaits)
          obtain ⟨body, tail, rest, bodyFits, ⟨chain, chainFits, rfl⟩, after, rfl⟩ := inner
          have whole := after.construct (s :: (body.statements ++ chain.statements))
            (.branch s body chain) (fun _ fit => ⟨form, bodyFits, chainFits, fit⟩)
            (fun _ => by simp [Block.statements])
          simpa using whole
      | openWhile form =>
          have inner : Completes (.whileLoop :: ps) rest := ih closed (.cons ⟨rfl, by simp⟩ awaits)
          obtain ⟨body, tail, rest, bodyFits, ⟨last, lastForm, rfl⟩, after, rfl⟩ := inner
          have whole := after.construct (s :: (body.statements ++ [last]))
            (.whileLoop s body last) (fun _ fit => ⟨form, bodyFits, lastForm, fit⟩)
            (fun _ => by simp [Block.statements])
          simpa using whole
      | openLoop form =>
          have inner : Completes (.untilLoop :: ps) rest := ih closed (.cons ⟨rfl, by simp⟩ awaits)
          obtain ⟨body, tail, rest, bodyFits, ⟨last, lastForm, rfl⟩, after, rfl⟩ := inner
          have whole := after.construct (s :: (body.statements ++ [last]))
            (.untilLoop s body last) (fun _ fit => ⟨form, bodyFits, lastForm, fit⟩)
            (fun _ => by simp [Block.statements])
          simpa using whole
      | elseIf blocks form =>
          obtain ⟨ps, rfl, outer⟩ := awaited_innermost (blocks ▸ awaits)
          have inner : Completes (.chain :: ps) rest := ih closed (.cons ⟨rfl, by simp⟩ outer)
          obtain ⟨body, tail, rest, bodyFits, ⟨chain, chainFits, rfl⟩, after, rfl⟩ := inner
          have whole : Completes (.chain :: ps) ((Chain.elseIf s body chain).statements ++ rest) :=
            after.finish _ ⟨.elseIf s body chain, ⟨form, bodyFits, chainFits⟩, rfl⟩
          simpa [Chain.statements] using whole
      | otherwise blocks form =>
          obtain ⟨ps, rfl, outer⟩ := awaited_innermost (blocks ▸ awaits)
          have inner : Completes (.otherwise :: ps) rest := ih closed (.cons ⟨rfl, by simp⟩ outer)
          obtain ⟨body, tail, rest, bodyFits, ⟨last, lastForm, rfl⟩, after, rfl⟩ := inner
          have whole :
              Completes (.chain :: ps) ((Chain.otherwise s body last).statements ++ rest) :=
            after.finish _ ⟨.otherwise s body last, ⟨form, bodyFits, lastForm⟩, rfl⟩
          simpa [Chain.statements] using whole
      | fi which blocks form =>
          obtain ⟨ps, rfl, outer⟩ := awaited_innermost (blocks ▸ awaits)
          have after : Completes ps rest := ih closed outer
          rcases which with rfl | rfl
          · exact after.finish [s] ⟨.close s, form, rfl⟩
          · exact after.finish [s] ⟨s, form, rfl⟩
      | endWhile blocks form =>
          obtain ⟨ps, rfl, outer⟩ := awaited_innermost (blocks ▸ awaits)
          have after : Completes ps rest := ih closed outer
          exact after.finish [s] ⟨s, form, rfl⟩
      | untilMet blocks form =>
          obtain ⟨ps, rfl, outer⟩ := awaited_innermost (blocks ▸ awaits)
          have after : Completes ps rest := ih closed outer
          exact after.finish [s] ⟨s, form, rfl⟩

omit standard in
theorem append_at_code (pre mid : List Instruction) (i : Instruction) (v : Value) :
    appendAt (pre ++ i :: mid) pre.length v = pre ++ i.append [v] :: mid := by
  unfold appendAt
  induction pre with
  | nil => rfl
  | cons first rest ih => simpa using ih

omit standard in
theorem linked_code {a : Assembly} {pre mid : List Instruction} {i : Instruction}
    (code : a.script.code = pre ++ i :: mid) (outer : List OpenBlock) (line : Int) :
    ({ a with blocks := outer }.linked (some pre.length) line).script.code =
      pre ++ i.append [.int line] :: mid := by
  simp only [linked, code, append_at_code]

theorem take_opens {a : Assembly} {s : Statement} {ps : List Pending} {i : Instruction}
    {p : Pending} {loopLine : Option Int} (awaits : List.Forall₂ OpenBlock.Awaits a.blocks ps)
    (takes : Takes c a s (a.opened i p.ends loopLine)) :
    ∃ b, a.take c s = (b, none) ∧ b.script.code = a.script.code ++ [i] ∧
      b.blocks = ⟨p.ends, a.script.code.length, loopLine⟩ :: a.blocks ∧ b.skipped = a.skipped :=
  ⟨_, take_complete standard awaits takes, rfl, rfl, rfl⟩

theorem take_goes_on {a : Assembly} {s : Statement} {ps : List Pending}
    {pre mid : List Instruction} {i j : Instruction} {p : Pending} {loopLine : Option Int}
    {outer : List OpenBlock} (awaits : List.Forall₂ OpenBlock.Awaits a.blocks ps)
    (code : a.script.code = pre ++ i :: mid)
    (takes : Takes c a s (({ a with blocks := outer }.linked (some pre.length) s.line).opened
      j p.ends loopLine)) :
    ∃ b, a.take c s = (b, none) ∧
      b.script.code = (pre ++ i.append [.int s.line] :: mid) ++ [j] ∧
      b.blocks = ⟨p.ends, (pre ++ i.append [.int s.line] :: mid).length, loopLine⟩ :: outer ∧
      b.skipped = a.skipped := by
  have linkedCode := linked_code code outer s.line
  refine ⟨_, take_complete standard awaits takes, ?_, ?_, rfl⟩
  · simp only [opened, Script.emit, linkedCode]
  · simp only [opened, linkedCode]
    rfl

theorem take_ends {a : Assembly} {s : Statement} {ps : List Pending}
    {pre mid : List Instruction} {i : Instruction} {op : Opcode} {params : List Value}
    {outer : List OpenBlock} (awaits : List.Forall₂ OpenBlock.Awaits a.blocks ps)
    (code : a.script.code = pre ++ i :: mid)
    (takes : Takes c a s (({ a with blocks := outer }.linked (some pre.length) s.line).emit
      s.line op params)) :
    ∃ b, a.take c s = (b, none) ∧
      b.script.code = pre ++ i.append [.int s.line] :: (mid ++ [⟨s.line, op, params⟩]) ∧
      b.blocks = outer ∧ b.skipped = a.skipped := by
  have linkedCode := linked_code code outer s.line
  refine ⟨_, take_complete standard awaits takes, ?_, rfl, rfl⟩
  simp [emit, Script.emit, linkedCode]

/-- A loop of either kind, whose body can be taken wherever its end is awaited. -/
theorem loop_taken {a : Assembly} {ps : List Pending} {p : Pending} {head last : Statement}
    {body : Block} {words : List Value} {op : Opcode}
    (awaits : List.Forall₂ OpenBlock.Awaits a.blocks ps)
    (opens : Takes c a head (a.opened ⟨head.line, .loop, words⟩ p.ends (some head.line)))
    (inside : ∀ b : Assembly, List.Forall₂ OpenBlock.Awaits b.blocks (p :: ps) →
      ∃ d, Taken c b body.statements d ∧ b.Extends d body.code)
    (ends : ∀ (d : Assembly) (index : Nat) (outer : List OpenBlock),
      d.blocks = ⟨p.ends, index, some head.line⟩ :: outer →
      Takes c d last (({ d with blocks := outer }.linked (some index) last.line).emit last.line op
        (.int head.line :: last.words))) :
    ∃ d, Taken c a (head :: (body.statements ++ [last])) d ∧
      a.Extends d (⟨head.line, .loop, words ++ [.int last.line]⟩ ::
        (body.code ++ [⟨last.line, op, .int head.line :: last.words⟩])) := by
  obtain ⟨b, step, code, blocks, skipped⟩ := take_opens standard awaits opens
  have waiting : List.Forall₂ OpenBlock.Awaits b.blocks (p :: ps) := by
    rw [blocks]
    exact .cons ⟨rfl, fun _ => ⟨head.line, rfl⟩⟩ awaits
  obtain ⟨d, bodyTaken, bodyCode, bodyBlocks, bodySkipped⟩ := inside b waiting
  have whole : d.script.code = a.script.code ++ ⟨head.line, .loop, words⟩ :: body.code := by
    simp [bodyCode, code]
  obtain ⟨e, lastStep, lastCode, lastBlocks, lastSkipped⟩ :=
    take_ends standard (bodyBlocks ▸ waiting) whole (ends d _ _ (bodyBlocks.trans blocks))
  refine ⟨e, .next step (bodyTaken.append (.next lastStep (.done e))), ?_, lastBlocks, ?_⟩
  · simp [lastCode, Instruction.append]
  · rw [lastSkipped, bodySkipped, skipped]

mutual

/-- A derivation can be taken, and what it leaves in the code is its own code. -/
theorem block_taken : (b : Block) → b.Fits → (a : Assembly) → (ps : List Pending) →
    List.Forall₂ OpenBlock.Awaits a.blocks ps →
    ∃ d, Taken c a b.statements d ∧ a.Extends d b.code
  | .done, _, a, _, _ => ⟨a, .done a, by simp [Extends, Block.code]⟩
  | .simple s rest, fits, a, ps, awaits => by
      obtain ⟨b, read, code, blocks, skipped⟩ := simple_complete a s fits.1
      have step := take_complete standard awaits (.simple (read c standard))
      obtain ⟨d, taken, restCode, restBlocks, restSkipped⟩ :=
        block_taken rest fits.2 b ps (blocks ▸ awaits)
      refine ⟨d, .next step taken, ?_, restBlocks.trans blocks, restSkipped.trans skipped⟩
      simp [restCode, code, Block.code]
  | .branch head body chain rest, fits, a, ps, awaits => by
      obtain ⟨b, step, code, blocks, skipped⟩ := take_opens standard awaits (.openIf fits.1)
      have waiting : List.Forall₂ OpenBlock.Awaits b.blocks (.chain :: ps) := by
        rw [blocks]
        exact .cons ⟨rfl, by simp⟩ awaits
      obtain ⟨d, bodyTaken, bodyCode, bodyBlocks, bodySkipped⟩ :=
        block_taken body fits.2.1 b _ waiting
      obtain ⟨e, chainTaken, chainCode, chainBlocks, chainSkipped⟩ :=
        chain_taken chain fits.2.2.1 d ps a.blocks none a.script.code body.code
          ⟨head.line, .ifNotGoto, head.words⟩ (bodyBlocks.trans blocks) awaits
          (by simp [bodyCode, code])
      obtain ⟨f, restTaken, restCode, restBlocks, restSkipped⟩ :=
        block_taken rest fits.2.2.2 e ps (chainBlocks ▸ awaits)
      refine ⟨f, .next step (bodyTaken.append (chainTaken.append restTaken)), ?_,
        restBlocks.trans chainBlocks, ?_⟩
      · simp [restCode, chainCode, Block.code, Instruction.append]
      · rw [restSkipped, chainSkipped, bodySkipped, skipped]
  | .whileLoop head body last rest, fits, a, ps, awaits => by
      obtain ⟨d, loopTaken, loopCode, loopBlocks, loopSkipped⟩ :=
        loop_taken standard awaits (.openWhile fits.1)
          (fun b waiting => block_taken body fits.2.1 b _ waiting)
          (fun _ _ _ blocks => .endWhile blocks fits.2.2.1)
      obtain ⟨e, restTaken, restCode, restBlocks, restSkipped⟩ :=
        block_taken rest fits.2.2.2 d ps (loopBlocks ▸ awaits)
      refine ⟨e, ?_, ?_, restBlocks.trans loopBlocks, restSkipped.trans loopSkipped⟩
      · simpa [Block.statements] using loopTaken.append restTaken
      · simp [restCode, loopCode, Block.code]
  | .untilLoop head body last rest, fits, a, ps, awaits => by
      obtain ⟨d, loopTaken, loopCode, loopBlocks, loopSkipped⟩ :=
        loop_taken standard awaits (.openLoop fits.1)
          (fun b waiting => block_taken body fits.2.1 b _ waiting)
          (fun _ _ _ blocks => .untilMet blocks fits.2.2.1)
      obtain ⟨e, restTaken, restCode, restBlocks, restSkipped⟩ :=
        block_taken rest fits.2.2.2 d ps (loopBlocks ▸ awaits)
      refine ⟨e, ?_, ?_, restBlocks.trans loopBlocks, restSkipped.trans loopSkipped⟩
      · simpa [Block.statements] using loopTaken.append restTaken
      · simp [restCode, loopCode, Block.code]

-- The instruction `i` at `pre.length` still lacks its target, which the first keyword of the chain
-- gives it.
theorem chain_taken : (k : Chain) → k.Fits → (a : Assembly) → (ps : List Pending) →
    (outer : List OpenBlock) → (loopLine : Option Int) → (pre mid : List Instruction) →
    (i : Instruction) → a.blocks = ⟨Pending.chain.ends, pre.length, loopLine⟩ :: outer →
    List.Forall₂ OpenBlock.Awaits outer ps → a.script.code = pre ++ i :: mid →
    ∃ d, Taken c a k.statements d ∧
      d.script.code = pre ++ i.append [.int k.line] :: (mid ++ k.code) ∧
      d.blocks = outer ∧ d.skipped = a.skipped
  | .close last, fits, a, ps, outer, loopLine, pre, mid, i, blocks, awaits, code => by
      have waiting : List.Forall₂ OpenBlock.Awaits a.blocks (.chain :: ps) := by
        rw [blocks]
        exact .cons ⟨rfl, by simp⟩ awaits
      obtain ⟨b, step, ended⟩ :=
        take_ends standard waiting code (.fi (Or.inl rfl) blocks fits)
      exact ⟨b, .next step (.done b), ended⟩
  | .elseIf head body rest, fits, a, ps, outer, loopLine, pre, mid, i, blocks, awaits, code => by
      have waiting : List.Forall₂ OpenBlock.Awaits a.blocks (.chain :: ps) := by
        rw [blocks]
        exact .cons ⟨rfl, by simp⟩ awaits
      obtain ⟨b, step, stepCode, stepBlocks, stepSkipped⟩ :=
        take_goes_on standard waiting code (.elseIf blocks fits.1)
      have inner : List.Forall₂ OpenBlock.Awaits b.blocks (.chain :: ps) := by
        rw [stepBlocks]
        exact .cons ⟨rfl, by simp⟩ awaits
      obtain ⟨d, bodyTaken, bodyCode, bodyBlocks, bodySkipped⟩ :=
        block_taken body fits.2.1 b _ inner
      -- The rest of the chain completes this instruction, as its own keyword has completed the one
      -- before.
      obtain ⟨e, restTaken, restCode, restBlocks, restSkipped⟩ :=
        chain_taken rest fits.2.2 d ps outer loopLine (pre ++ i.append [.int head.line] :: mid)
          body.code ⟨head.line, .elseIf, head.words⟩ (bodyBlocks.trans stepBlocks) awaits
          (by rw [bodyCode, stepCode]; simp)
      refine ⟨e, .next step (bodyTaken.append restTaken), ?_, restBlocks, ?_⟩
      · simp [restCode, Chain.code, Chain.line, Instruction.append]
      · rw [restSkipped, bodySkipped, stepSkipped]
  | .otherwise head body last, fits, a, ps, outer, loopLine, pre, mid, i, blocks, awaits, code => by
      have waiting : List.Forall₂ OpenBlock.Awaits a.blocks (.chain :: ps) := by
        rw [blocks]
        exact .cons ⟨rfl, by simp⟩ awaits
      obtain ⟨b, step, stepCode, stepBlocks, stepSkipped⟩ :=
        take_goes_on standard waiting code (.otherwise blocks fits.1)
      have inner : List.Forall₂ OpenBlock.Awaits b.blocks (.otherwise :: ps) := by
        rw [stepBlocks]
        exact .cons ⟨rfl, by simp⟩ awaits
      obtain ⟨d, bodyTaken, bodyCode, bodyBlocks, bodySkipped⟩ :=
        block_taken body fits.2.1 b _ inner
      have whole : d.script.code = (pre ++ i.append [.int head.line] :: mid) ++
          ⟨head.line, .elseBranch, []⟩ :: body.code := by
        simp [bodyCode, stepCode]
      obtain ⟨e, lastStep, lastCode, lastBlocks, lastSkipped⟩ :=
        take_ends standard (bodyBlocks ▸ inner) whole
          (.fi (Or.inr rfl) (bodyBlocks.trans stepBlocks) fits.2.2)
      refine ⟨e, .next step (bodyTaken.append (.next lastStep (.done e))), ?_, lastBlocks, ?_⟩
      · simp [lastCode, Chain.code, Chain.line, Instruction.append]
      · rw [lastSkipped, bodySkipped, stepSkipped]

end

end Assembly
end DeviceScript
