import DeviceScript.Proofs.Schema.Accepted
import DeviceScript.Proofs.Source.Rejection
import DeviceScript.Proofs.Source.Steps
import Mathlib.Data.List.Nodup

/-!
The jumps of assembled code, whatever keywords a schema has. An assembly that has skipped no end of
a loop outside of a loop leaves no jump open, and one that has skipped such an end leaves its
instruction behind without the line to go back to.
-/

namespace DeviceScript

open Text

def Schema.WrittenAt (schema : Schema) (ss : List Statement) (kw : KeywordSpec) (line : Int) :
    Prop :=
  ∃ s ∈ ss, s.head.kind = .keyword ∧ schema.keyword? s.head.text = some kw ∧ s.line = line

namespace Schema

variable (schema : Schema) (ss : List Statement)

def LoopAt (code : List Instruction) (index : Nat) (line : Int) : Prop :=
  ∃ i, code[index]? = some i ∧ i.op = .loop ∧ i.line = line ∧
    ∃ kw, schema.WrittenAt ss kw line ∧ kw.kind = .loop

/-- The line to go back to, if there is one, is that of a loop. -/
def KnowsLoop (code : List Instruction) (loopLine : Option Int) : Prop :=
  ∀ line, loopLine = some line → ∃ before, schema.LoopAt ss code before line

def GoesBack (code : List Instruction) (index : Nat) : Prop :=
  ∃ i before line, code[index]? = some i ∧ before < index ∧ schema.LoopAt ss code before line ∧
    i.params.head? = some (.int line)

def GoesOn (code : List Instruction) (index : Nat) : Prop :=
  ∃ (i : Instruction) (later : Nat) (next : Instruction),
    code[index]? = some i ∧ index < later ∧ code[later]? = some next ∧
    i.params.getLast? = some (.int next.line)

/-- Every instruction of a keyword that links backwards goes back to a loop, and every one of a
keyword that waits for a terminator goes on to a later instruction. -/
def FullyLinked (code : List Instruction) : Prop :=
  ∀ (index : Nat) (i : Instruction) (kw : KeywordSpec),
    code[index]? = some i → schema.WrittenAt ss kw i.line →
    (kw.backLink = true → schema.GoesBack ss code index) ∧ (kw.Waits → GoesOn code index)

end Schema

/-- Code that has become longer: an instruction keeps its line and what it does, and may have
learned the line of a later one. -/
def Longer (code after : List Instruction) : Prop :=
  ∀ (index : Nat) (i : Instruction), code[index]? = some i →
    ∃ j, after[index]? = some j ∧ j.line = i.line ∧ j.op = i.op ∧
      (j.params = i.params ∨ ∃ (later : Nat) (next : Instruction), index < later ∧
        after[later]? = some next ∧ j.params = i.params ++ [.int next.line])

section Longer

variable {schema : Schema} {ss : List Statement} {code after : List Instruction} {index : Nat}

theorem longer_append (code : List Instruction) (i : Instruction) : Longer code (code ++ [i]) := by
  intro index j found
  refine ⟨j, ?_, rfl, rfl, .inl rfl⟩
  rw [List.getElem?_append_left (List.getElem?_eq_some_iff.mp found).1]
  exact found

theorem loop_longer (longer : Longer code after) {line : Int}
    (loop : schema.LoopAt ss code index line) : schema.LoopAt ss after index line := by
  obtain ⟨i, found, op, place, written⟩ := loop
  obtain ⟨j, still, same, does, -⟩ := longer index i found
  exact ⟨j, still, does.trans op, same.trans place, written⟩

theorem knows_longer (longer : Longer code after) {loopLine : Option Int}
    (knows : schema.KnowsLoop ss code loopLine) : schema.KnowsLoop ss after loopLine := by
  intro line begun
  obtain ⟨before, loop⟩ := knows line begun
  exact ⟨before, loop_longer longer loop⟩

theorem goes_back_longer (longer : Longer code after) (back : schema.GoesBack ss code index) :
    schema.GoesBack ss after index := by
  obtain ⟨i, before, line, found, earlier, loop, first⟩ := back
  obtain ⟨j, still, -, -, params⟩ := longer index i found
  refine ⟨j, before, line, still, earlier, loop_longer longer loop, ?_⟩
  rcases params with same | ⟨_, _, -, -, more⟩
  · rw [same]
    exact first
  · rw [more, List.head?_append, first]
    rfl

theorem goes_on_longer (longer : Longer code after) (on : Schema.GoesOn code index) :
    Schema.GoesOn after index := by
  obtain ⟨i, later, next, found, past, ahead, last⟩ := on
  obtain ⟨j, still, -, -, params⟩ := longer index i found
  obtain ⟨further, stands, line, -⟩ := longer later next ahead
  rcases params with same | ⟨place, target, beyond, there, more⟩
  · refine ⟨j, later, further, still, past, stands, ?_⟩
    rw [same, last, line]
  · refine ⟨j, place, target, still, beyond, there, ?_⟩
    rw [more, List.getLast?_append]
    rfl

end Longer

namespace Assembly

variable {c : AssemblyContext}

section Linked

variable (a : Assembly) (previous : Option Nat) (line : Int) (op : Opcode) (params : List Value)

/-- The code after a keyword: the instruction before it in its chain has learned its line. -/
def extended : List Instruction :=
  ((a.linked previous line).emit line op params).script.code

theorem extended_new :
    (a.extended previous line op params)[a.script.code.length]? = some ⟨line, op, params⟩ := by
  unfold extended emit Script.emit
  rw [← linked_length a previous line]
  simp

theorem extended_length :
    (a.extended previous line op params).length = a.script.code.length + 1 := by
  unfold extended emit Script.emit
  simp [linked_length]

theorem extended_other {index : Nat} {i : Instruction} (found : a.script.code[index]? = some i)
    (other : previous ≠ some index) :
    (a.extended previous line op params)[index]? = some i := by
  have within := (List.getElem?_eq_some_iff.mp found).1
  unfold extended emit Script.emit
  rw [List.getElem?_append_left (by rwa [linked_length])]
  cases previous with
  | none => exact found
  | some chosen =>
      have apart : chosen ≠ index := fun same => other (congrArg some same)
      simp [linked, appendAt, apart, found]

theorem extended_previous {index : Nat} {i : Instruction}
    (found : a.script.code[index]? = some i) :
    (a.extended (some index) line op params)[index]? = some (i.append [.int line]) := by
  have within := (List.getElem?_eq_some_iff.mp found).1
  unfold extended emit Script.emit
  rw [List.getElem?_append_left (by rwa [linked_length])]
  simp [linked, appendAt, found]

theorem extended_longer : Longer a.script.code (a.extended previous line op params) := by
  intro index i found
  by_cases chosen : previous = some index
  · subst chosen
    refine ⟨_, extended_previous a line op params found, rfl, rfl, .inr ?_⟩
    exact ⟨_, _, (List.getElem?_eq_some_iff.mp found).1, extended_new a _ line op params, rfl⟩
  · exact ⟨i, extended_other a previous line op params found chosen, rfl, rfl, .inl rfl⟩

theorem extended_goes_on {index : Nat} (within : index < a.script.code.length) :
    Schema.GoesOn (a.extended (some index) line op params) index := by
  obtain ⟨i, found⟩ : ∃ i, a.script.code[index]? = some i :=
    ⟨_, List.getElem?_eq_getElem within⟩
  refine ⟨_, _, _, extended_previous a line op params found, within,
    extended_new a _ line op params, ?_⟩
  simp [Instruction.append]

end Linked

/-- Every jump stands or belongs to a block that waits for its terminator, and every such block
knows the loop that it is part of. -/
structure Wired (schema : Schema) (ss : List Statement) (a : Assembly) : Prop where
  links : ∀ (index : Nat) (i : Instruction) (kw : KeywordSpec),
    a.script.code[index]? = some i → schema.WrittenAt ss kw i.line →
    (kw.backLink = true → schema.GoesBack ss a.script.code index) ∧
    (kw.Waits → Schema.GoesOn a.script.code index ∨ ∃ b ∈ a.blocks, b.instruction = index)
  blocks : ∀ b ∈ a.blocks, b.instruction < a.script.code.length ∧
    schema.KnowsLoop ss a.script.code b.loopLine

/-- An assembly about to meet a keyword that completes the instruction `previous` and may go back
to `loopLine`. -/
structure Ready (schema : Schema) (ss : List Statement) (a : Assembly) (previous : Option Nat)
    (loopLine : Option Int) : Prop where
  links : ∀ (index : Nat) (i : Instruction) (kw : KeywordSpec),
    a.script.code[index]? = some i → schema.WrittenAt ss kw i.line →
    (kw.backLink = true → schema.GoesBack ss a.script.code index) ∧
    (kw.Waits → Schema.GoesOn a.script.code index ∨ previous = some index ∨
      ∃ b ∈ a.blocks, b.instruction = index)
  blocks : ∀ b ∈ a.blocks, b.instruction < a.script.code.length ∧
    schema.KnowsLoop ss a.script.code b.loopLine
  loop : schema.KnowsLoop ss a.script.code loopLine

/-- The instruction was to go back to a loop and does not, and no block waits to complete it. -/
def TornAt (schema : Schema) (ss : List Statement) (a : Assembly) (index : Nat) : Prop :=
  ∃ (i : Instruction) (kw : KeywordSpec), a.script.code[index]? = some i ∧
    schema.WrittenAt ss kw i.line ∧ kw.backLink = true ∧ i.params = [] ∧
    ∀ b ∈ a.blocks, b.instruction ≠ index

section Kept

variable {ss : List Statement} (ascend : LinesAscend ss)
variable {a b : Assembly} {s : Statement} (member : s ∈ ss)

include ascend member

/-- Where statements stand on lines of their own, a line tells the keyword on it. -/
theorem written_here {schema : Schema} {kw : KeywordSpec}
    (written : schema.WrittenAt ss kw s.line) :
    s.head.kind = .keyword ∧ schema.keyword? s.head.text = some kw := by
  obtain ⟨t, among, isKeyword, known, line⟩ := written
  have distinct : (ss.map Statement.line).Nodup :=
    List.pairwise_map.mpr (List.Pairwise.imp Int.ne_of_lt ascend)
  obtain rfl := List.inj_on_of_nodup_map distinct among member line
  exact ⟨isKeyword, known⟩

theorem adds_wired {schema : Schema} (other : s.head.kind ≠ .keyword) (adds : Adds a b s)
    (wired : Wired schema ss a) : Wired schema ss b := by
  rcases adds.code with same | ⟨i, more, line, -⟩
  · constructor
    · rw [same, adds.blocks]
      exact wired.links
    · rw [same, adds.blocks]
      exact wired.blocks
  · have longer : Longer a.script.code b.script.code := more ▸ longer_append _ i
    have length : b.script.code.length = a.script.code.length + 1 := by simp [more]
    constructor
    · intro index j kw found written
      rw [adds.blocks]
      by_cases old : index < a.script.code.length
      · rw [more, List.getElem?_append_left old] at found
        obtain ⟨back, waits⟩ := wired.links index j kw found written
        exact ⟨fun link => goes_back_longer longer (back link),
          fun ends => (waits ends).imp_left (goes_on_longer longer)⟩
      · -- The new instruction stands on the line of a statement that is no keyword.
        have last : index = a.script.code.length := by
          have within := (List.getElem?_eq_some_iff.mp found).1
          omega
        subst last
        simp only [more, List.getElem?_concat_length, Option.some.injEq] at found
        subst found
        exact absurd (written_here ascend member (line ▸ written)).1 other
    · intro block waiting
      rw [adds.blocks] at waiting
      obtain ⟨within, knows⟩ := wired.blocks block waiting
      exact ⟨by omega, knows_longer longer knows⟩

theorem ready_wired {kw : KeywordSpec} (isKeyword : s.head.kind = .keyword)
    (known : c.schema.keyword? s.head.text = some kw) {previous : Option Nat}
    {loopLine : Option Int} (ready : Ready c.schema ss a previous loopLine)
    (meets : Meets c a kw s previous loopLine b none) : Wired c.schema ss b := by
  cases meets with
  | taken params opens back waits =>
      have longer := extended_longer a previous s.line kw.kind.opcode params
      have new := extended_new a previous s.line kw.kind.opcode params
      have length := extended_length a previous s.line kw.kind.opcode params
      constructor
      · intro index i other found written
        change (a.extended previous s.line kw.kind.opcode params)[index]? = some i at found
        -- The instruction stood there before the keyword, or it is the keyword's own.
        by_cases old : index < a.script.code.length
        · obtain ⟨before, stood⟩ : ∃ before, a.script.code[index]? = some before :=
            ⟨_, List.getElem?_eq_getElem old⟩
          obtain ⟨_, still, line, -⟩ := longer index before stood
          rw [found] at still
          cases still
          obtain ⟨goes, ends⟩ := ready.links index before other stood (line ▸ written)
          refine ⟨fun link => goes_back_longer longer (goes link), ?_⟩
          intro waiting
          rcases ends waiting with on | rfl | ⟨block, among, here⟩
          · exact .inl (goes_on_longer longer on)
          · exact .inl (extended_goes_on a s.line kw.kind.opcode params old)
          · exact .inr ⟨block, List.mem_append_right opens among, here⟩
        · have last : index = a.script.code.length := by
            have within := (List.getElem?_eq_some_iff.mp found).1
            omega
          subst last
          rw [new] at found
          cases found
          obtain ⟨-, again⟩ := written_here ascend member written
          rw [known] at again
          cases again
          constructor
          · intro link
            obtain ⟨line, begun, first⟩ := back link
            obtain ⟨before, loop⟩ := ready.loop line begun
            have inside := (List.getElem?_eq_some_iff.mp loop.choose_spec.1).1
            exact ⟨_, before, line, new, inside, loop_longer longer loop, first⟩
          · intro waiting
            rcases waits with ⟨-, never⟩ | ⟨ends, opened⟩
            · exact absurd waiting never
            · subst opened
              exact .inr ⟨_, List.mem_cons_self, rfl⟩
      · intro block among
        change block.instruction < (a.extended previous s.line kw.kind.opcode params).length ∧
          c.schema.KnowsLoop ss (a.extended previous s.line kw.kind.opcode params) block.loopLine
        rcases List.mem_append.mp among with own | outer
        · rcases waits with ⟨none, -⟩ | ⟨ends, opened⟩
          · simp [none] at own
          · obtain rfl := List.mem_singleton.mp (opened ▸ own)
            refine ⟨by simp [length], ?_⟩
            by_cases loop : kw.kind = .loop
            · -- A loop begins here, so its own instruction is the one to go back to.
              rw [if_pos loop]
              rintro _ ⟨⟩
              exact ⟨a.script.code.length, ⟨s.line, kw.kind.opcode, params⟩, new, by rw [loop]; rfl,
                rfl, kw, ⟨s, member, isKeyword, known, rfl⟩, loop⟩
            · rw [if_neg loop]
              exact knows_longer longer ready.loop
        · obtain ⟨within, knows⟩ := ready.blocks block outer
          exact ⟨by omega, knows_longer longer knows⟩

end Kept

section Steps

variable {schema : Schema} {ss : List Statement} {a b : Assembly} {s : Statement} {index : Nat}

theorem wired_begins (wired : Wired schema ss a) : Ready schema ss a none none where
  links index i kw found written :=
    ⟨(wired.links index i kw found written).1,
      fun ends => ((wired.links index i kw found written).2 ends).imp_right .inr⟩
  blocks := wired.blocks
  loop := nofun

/-- A terminator takes the innermost block away, and completes the instruction of that block. -/
theorem wired_continues (wired : Wired schema ss a) {block : OpenBlock} {outer : List OpenBlock}
    (blocks : a.blocks = block :: outer) :
    Ready schema ss { a with blocks := outer } (some block.instruction) block.loopLine where
  links index i kw found written := by
    obtain ⟨back, waits⟩ := wired.links index i kw found written
    refine ⟨back, ?_⟩
    intro ends
    rcases waits ends with on | ⟨other, among, here⟩
    · exact .inl on
    · rw [blocks] at among
      rcases List.mem_cons.mp among with rfl | further
      · exact .inr (.inl (congrArg some here))
      · exact .inr (.inr ⟨other, further, here⟩)
  blocks other among := wired.blocks other (by simp [blocks, among])
  loop := (wired.blocks block (by simp [blocks])).2

theorem adds_torn (adds : Adds a b s) (torn : TornAt schema ss a index) :
    TornAt schema ss b index := by
  obtain ⟨i, kw, found, written, back, empty, free⟩ := torn
  refine ⟨i, kw, ?_, written, back, empty, adds.blocks ▸ free⟩
  rcases adds.code with same | ⟨j, more, -⟩
  · rw [same]
    exact found
  · rw [more, List.getElem?_append_left (List.getElem?_eq_some_iff.mp found).1]
    exact found

/-- A keyword completes one instruction only, so that one which is torn stays so. -/
theorem meets_torn {kw : KeywordSpec} {previous : Option Nat} {loopLine : Option Int}
    {r : Option Rejection} (torn : TornAt schema ss a index) (other : previous ≠ some index)
    (meets : Meets c a kw s previous loopLine b r) (goesOn : ∀ fault, r ≠ some (.fatal fault)) :
    TornAt schema ss b index := by
  obtain ⟨i, back, found, written, link, empty, free⟩ := torn
  have still params := extended_other a previous s.line kw.kind.opcode params found other
  cases meets with
  | fatal _ fault => exact absurd rfl (goesOn fault)
  | outside => exact ⟨i, back, still [], written, link, empty, free⟩
  | taken params opens _ waits =>
      refine ⟨i, back, still params, written, link, empty, ?_⟩
      intro block among
      rcases List.mem_append.mp among with own | outer
      · rcases waits with ⟨none, -⟩ | ⟨ends, opened⟩
        · simp [none] at own
        · obtain rfl := List.mem_singleton.mp (opened ▸ own)
          exact Nat.ne_of_gt (List.getElem?_eq_some_iff.mp found).1
      · exact free block outer

theorem outside_torn {kw : KeywordSpec} {previous : Option Nat} {loopLine : Option Int}
    {fault : Fault} (written : schema.WrittenAt ss kw s.line)
    (meets : Meets c a kw s previous loopLine b (some (.block fault))) :
    fault = c.fault ⟨.outsideLoop kw.name, s.line⟩ ∧
      TornAt schema ss { b with blocks := [], skipped := b.skipped ++ [fault] }
        a.script.code.length := by
  cases meets with
  | outside back unknown =>
      exact ⟨rfl, _, kw, extended_new a previous s.line kw.kind.opcode [], written, back, rfl,
        nofun⟩

end Steps

end Assembly
end DeviceScript
