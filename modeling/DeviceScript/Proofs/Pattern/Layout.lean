import DeviceScript.Proofs.Pattern.Spans

/-!
A pattern laid out as instructions leads from the place where it starts to the instruction
behind it, over the spans that it covers and over no others.
-/

namespace DeviceScript.Pattern

open Text

/-- Where an instruction goes from the place `i` of the text: to which instruction, and to
which place of the text. -/
def Inst.Goes (whole : List Rune) (i : Nat) : Inst → Nat → Nat → Prop
  | .accept, _, _ => False
  | .char c next, place, j => place = next ∧ (codeAt? whole i).any c.mem = true ∧ j = i + 1
  | .assertion a next, place, j =>
      place = next ∧ Assertion.holds a (codeBefore? whole i) (codeAt? whole i) = true ∧ j = i
  | .save _ next, place, j => place = next ∧ j = i
  | .fork first second, place, j => (place = first ∨ place = second) ∧ j = i

def Inst.nexts : Inst → List Nat
  | .accept => []
  | .char _ next | .assertion _ next | .save _ next => [next]
  | .fork first second => [first, second]

/-- Neither accepting nor going to the accepting instruction. -/
def Inst.Inner (inst : Inst) : Prop := inst ≠ .accept ∧ 0 ∉ inst.nexts

def Moves (code : Array Inst) (whole : List Rune) (place i next j : Nat) : Prop :=
  ∃ inst, code[place]? = some inst ∧ inst.Goes whole i next j

/-- From a place of the code and a place of the text to accepting at the place `stop`, in so
many moves. -/
def Leads (code : Array Inst) (whole : List Rune) (stop : Nat) : Nat → Nat → Nat → Prop
  | 0, place, i => place = 0 ∧ i = stop
  | moves + 1, place, i =>
      ∃ next j, Moves code whole place i next j ∧ Leads code whole stop moves next j

section Code

variable {code : Array Inst} {whole : List Rune} {stop place i moves : Nat} {inst : Inst}

theorem moves_from (here : code[place]? = some inst) {next j : Nat} :
    Moves code whole place i next j ↔ inst.Goes whole i next j := by
  constructor
  · rintro ⟨other, there, goes⟩
    rw [here] at there
    cases there
    exact goes
  · exact fun goes => ⟨inst, here, goes⟩

theorem goes_forked {greedy : Bool} {first second next j : Nat} :
    (forked greedy first second).Goes whole i next j ↔
      (next = first ∨ next = second) ∧ j = i := by
  cases greedy with
  | true => rfl
  | false => rw [or_comm]; rfl

theorem goes_nexts {next j : Nat} (goes : inst.Goes whole i next j) : next ∈ inst.nexts := by
  cases inst with
  | accept => exact goes.elim
  | char | assertion | save => exact List.mem_singleton.mpr goes.1
  | fork first second =>
      obtain ⟨rfl | rfl, -⟩ := goes
      · exact List.mem_cons_self
      · exact List.mem_cons_of_mem _ List.mem_cons_self

theorem inner_forked (greedy : Bool) {first second : Nat} (left : first ≠ 0)
    (right : second ≠ 0) : (forked greedy first second).Inner := by
  cases greedy <;> simp [forked, Inst.Inner, Inst.nexts, left.symm, right.symm]

/-- At a place other than the accepting one there is at least one more move. -/
theorem leads_from (here : code[place]? = some inst) (behind : 0 < place)
    (leads : Leads code whole stop moves place i) :
    ∃ fewer next j, moves = fewer + 1 ∧ inst.Goes whole i next j ∧
      Leads code whole stop fewer next j := by
  cases moves with
  | zero => exact absurd leads.1 (Nat.ne_of_gt behind)
  | succ fewer =>
      obtain ⟨next, j, move, more⟩ := leads
      exact ⟨fewer, next, j, rfl, (moves_from here).mp move, more⟩

theorem leads_accepting (here : code[0]? = some .accept)
    (leads : Leads code whole stop moves 0 i) : i = stop := by
  cases moves with
  | zero => exact leads.2
  | succ fewer =>
      obtain ⟨next, j, move, -⟩ := leads
      exact ((moves_from here).mp move).elim

theorem leads_step (here : code[place]? = some inst) {next j : Nat}
    (goes : inst.Goes whole i next j) (more : Leads code whole stop moves next j) :
    Leads code whole stop (moves + 1) place i :=
  ⟨next, j, (moves_from here).mpr goes, more⟩

end Code

def Keeps (code more : Array Inst) : Prop :=
  ∀ (place : Nat) (inst : Inst), code[place]? = some inst → more[place]? = some inst

theorem Keeps.trans {code more most : Array Inst} (first : Keeps code more)
    (second : Keeps more most) : Keeps code most :=
  fun place inst here => second place inst (first place inst here)

theorem Keeps.size_le {code more : Array Inst} (keeps : Keeps code more) :
    code.size ≤ more.size := by
  refine Nat.le_of_not_lt fun shorter => ?_
  have here := keeps _ _ (Array.getElem?_eq_getElem shorter)
  rw [Array.getElem?_eq_none (Nat.le_refl _)] at here
  cases here

theorem keeps_push (code : Array Inst) (inst : Inst) : Keeps code (code.push inst) := by
  intro place held here
  rw [Array.getElem?_push, if_neg, here]
  rintro rfl
  simp at here

/-- Behind the first two instructions, which end every match, there are inner ones only. -/
def Tight (code : Array Inst) : Prop :=
  ∀ (place : Nat) (inst : Inst), 2 ≤ place → code[place]? = some inst → inst.Inner

theorem Tight.push {code : Array Inst} {inst : Inst} (tight : Tight code) (inner : inst.Inner) :
    Tight (code.push inst) := by
  intro place held behind here
  rw [Array.getElem?_push] at here
  split at here
  · cases here
    exact inner
  · exact tight place held behind here

theorem Tight.set {code : Array Inst} {inst : Inst} (tight : Tight code) (inner : inst.Inner)
    (index : Nat) : Tight (code.setIfInBounds index inst) := by
  intro place held behind here
  rw [Array.getElem?_setIfInBounds] at here
  split at here
  · split at here
    · cases here
      exact inner
    · cases here
  · exact tight place held behind here

/-- From the place `size` on, the instructions stand in the final code as they stand here. -/
def Final (final : Array Inst) (size : Nat) (code : Array Inst) : Prop :=
  ∀ (place : Nat) (inst : Inst), size ≤ place → code[place]? = some inst →
    final[place]? = some inst

theorem Final.before {final code more : Array Inst} {size : Nat} (held : Final final size more)
    (keeps : Keeps code more) : Final final size code :=
  fun place inst after here => held place inst after (keeps place inst here)

theorem Final.behind {final code : Array Inst} {size later : Nat} (held : Final final size code)
    (after : size ≤ later) : Final final later code :=
  fun place inst behind => held place inst (Nat.le_trans after behind)

theorem Final.pushed {final code : Array Inst} {inst : Inst} {size : Nat}
    (held : Final final size (code.push inst)) (after : size ≤ code.size) :
    final[code.size]? = some inst :=
  held code.size inst after (by simp)

/-- Something is laid out behind `code` and in front of `next`: from its start it comes to
`next` over the spans `R`, and over no others. -/
structure Laid (whole : List Rune) (code : Array Inst) (next : Nat) (R : Nat → Nat → Prop)
    (out : Nat × Array Inst) : Prop where
  keeps : Keeps code out.2
  closed : next ≠ 0 → Tight code → out.1 ≠ 0 ∧ Tight out.2
  sound : ∀ {final stop moves i}, Final final code.size out.2 →
    Leads final whole stop moves out.1 i →
      ∃ j fewer, R i j ∧ fewer ≤ moves ∧ Leads final whole stop fewer next j
  complete : ∀ {final stop moves i j}, Final final code.size out.2 → R i j →
    Leads final whole stop moves next j → ∃ more, Leads final whole stop more out.1 i

/-- A layer lays out the spans `R` wherever it is put behind the accepting instruction. -/
def Lays (whole : List Rune) (layer : Layer) (R : Nat → Nat → Prop) : Prop :=
  ∀ next code, 0 < code.size → Laid whole code next R (layer next code)

namespace Laid

variable {whole : List Rune} {code : Array Inst} {next : Nat} {R S : Nat → Nat → Prop}

theorem room {out : Nat × Array Inst} (laid : Laid whole code next R out)
    (front : 0 < code.size) : 0 < out.2.size :=
  Nat.lt_of_lt_of_le front laid.keeps.size_le

theorem congr {out : Nat × Array Inst} (laid : Laid whole code next R out)
    (same : ∀ i j, R i j ↔ S i j) : Laid whole code next S out := by
  have equal : R = S := funext₂ fun i j => propext (same i j)
  exact equal ▸ laid

theorem nothing (whole : List Rune) (code : Array Inst) (next : Nat) :
    Laid whole code next Eq (next, code) where
  keeps _ _ here := here
  closed behind tight := ⟨behind, tight⟩
  sound {_ _ moves i} _ leads := ⟨i, moves, rfl, Nat.le_refl _, leads⟩
  complete {_ _ moves _ _} _ same leads := ⟨moves, same ▸ leads⟩

theorem single (front : 0 < code.size) {inst : Inst}
    (goes : ∀ i place j, inst.Goes whole i place j ↔ place = next ∧ R i j)
    (nexts : inst.nexts = [next]) :
    Laid whole code next R (code.size, code.push inst) where
  keeps := keeps_push code inst
  closed behind tight := by
    refine ⟨Nat.ne_of_gt front, tight.push ⟨?_, ?_⟩⟩
    · rintro rfl
      cases nexts
    · simpa [nexts] using behind.symm
  sound held leads := by
    have here := held.pushed (Nat.le_refl _)
    obtain ⟨fewer, place, j, rfl, goes_on, more⟩ := leads_from here front leads
    obtain ⟨rfl, spans⟩ := (goes _ place j).mp goes_on
    exact ⟨j, fewer, spans, Nat.le_succ _, more⟩
  complete held spans leads :=
    have here := held.pushed (Nat.le_refl _)
    ⟨_, leads_step here ((goes _ next _).mpr ⟨rfl, spans⟩) leads⟩

theorem saved (whole : List Rune) (front : 0 < code.size) (slot next : Nat) :
    Laid whole code next Eq (code.size, code.push (.save slot next)) :=
  single front (fun _ _ _ => and_congr_right fun _ => eq_comm) rfl

theorem comp {mid out : Nat × Array Inst} (behind : Laid whole code next S mid)
    (front : Laid whole mid.2 mid.1 R out) : Laid whole code next (Relation.Comp R S) out where
  keeps := behind.keeps.trans front.keeps
  closed apart tight :=
    let ⟨start, more⟩ := behind.closed apart tight
    front.closed start more
  sound held leads := by
    obtain ⟨k, fewer, first, less, rest⟩ := front.sound (held.behind behind.keeps.size_le) leads
    obtain ⟨j, least, second, lesser, last⟩ := behind.sound (held.before front.keeps) rest
    exact ⟨j, least, ⟨k, first, second⟩, Nat.le_trans lesser less, last⟩
  complete held spans leads := by
    obtain ⟨k, first, second⟩ := spans
    obtain ⟨more, rest⟩ := behind.complete (held.before front.keeps) second leads
    exact front.complete (held.behind behind.keeps.size_le) first rest

theorem followed {out : Nat × Array Inst} {more : Array Inst} (laid : Laid whole code next R out)
    (keeps : Keeps out.2 more)
    (closed : next ≠ 0 → Tight code → Tight more) :
    Laid whole code next R (out.1, more) where
  keeps := laid.keeps.trans keeps
  closed behind tight := ⟨(laid.closed behind tight).1, closed behind tight⟩
  sound held := laid.sound (held.before keeps)
  complete held := laid.complete (held.before keeps)

/-- The same instructions may be entered at `next` itself. -/
theorem skipped {out : Nat × Array Inst} (laid : Laid whole code next R out) :
    Laid whole code next Eq (next, out.2) :=
  (nothing whole code next).followed laid.keeps fun behind tight => (laid.closed behind tight).2

theorem choice (front : 0 < code.size) {first second : Nat} {both : Array Inst}
    (one : Laid whole code next R (first, both)) (other : Laid whole code next S (second, both))
    (greedy : Bool) :
    Laid whole code next (fun i j => R i j ∨ S i j)
      (both.size, both.push (forked greedy first second)) where
  keeps := one.keeps.trans (keeps_push _ _)
  closed behind tight := by
    obtain ⟨left, rest⟩ := one.closed behind tight
    obtain ⟨right, -⟩ := other.closed behind tight
    exact ⟨Nat.ne_of_gt (one.room front),
      rest.push (inner_forked greedy left right)⟩
  sound held leads := by
    have here := held.pushed one.keeps.size_le
    have rest := held.before (keeps_push _ _)
    obtain ⟨fewer, place, j, rfl, goes, more⟩ := leads_from here (one.room front) leads
    obtain ⟨rfl | rfl, rfl⟩ := goes_forked.mp goes
    · obtain ⟨k, least, spans, less, last⟩ := one.sound rest more
      exact ⟨k, least, .inl spans, Nat.le_succ_of_le less, last⟩
    · obtain ⟨k, least, spans, less, last⟩ := other.sound rest more
      exact ⟨k, least, .inr spans, Nat.le_succ_of_le less, last⟩
  complete held spans leads := by
    have here := held.pushed one.keeps.size_le
    have rest := held.before (keeps_push _ _)
    rcases spans with spans | spans
    · obtain ⟨more, on⟩ := one.complete rest spans leads
      exact ⟨more + 1, leads_step here (goes_forked.mpr ⟨.inl rfl, rfl⟩) on⟩
    · obtain ⟨more, on⟩ := other.complete rest spans leads
      exact ⟨more + 1, leads_step here (goes_forked.mpr ⟨.inr rfl, rfl⟩) on⟩

end Laid

namespace Lays

variable {whole : List Rune} {layer : Layer} {R : Nat → Nat → Prop} {greedy : Bool} {next : Nat}
  {code : Array Inst}

/-- One pass of a loop leads back to the place where its fork will be. -/
theorem loop_pass (lays : Lays whole layer R) (next : Nat) (code : Array Inst) :
    Laid whole (code.push (.fork next next)) code.size R
      (layer code.size (code.push (.fork next next))) :=
  lays _ _ (by simp)

theorem loop_fork (lays : Lays whole layer R) (greedy : Bool) (next : Nat) (code : Array Inst) :
    (Layer.oneOrMore layer greedy next code).2[code.size]? =
      some (forked greedy (Layer.oneOrMore layer greedy next code).1 next) := by
  have body := lays.loop_pass next code
  have room : code.size < (layer code.size (code.push (.fork next next))).2.size := by
    have size := body.keeps.size_le
    rw [Array.size_push] at size
    omega
  simp [Layer.oneOrMore, room]

theorem loop_body {final : Array Inst}
    (held : Final final code.size (Layer.oneOrMore layer greedy next code).2) :
    Final final (code.push (.fork next next)).size
      (layer code.size (code.push (.fork next next))).2 := by
  intro place inst after here
  rw [Array.size_push] at after
  refine held place inst (by omega) ?_
  rw [Layer.oneOrMore, Array.getElem?_setIfInBounds, if_neg (by omega)]
  exact here

theorem loop_keeps (lays : Lays whole layer R) (greedy : Bool) (next : Nat) (code : Array Inst) :
    Keeps code (Layer.oneOrMore layer greedy next code).2 := by
  intro place inst here
  have inside : place < code.size := (Array.getElem?_eq_some_iff.mp here).1
  have body := lays.loop_pass next code
  rw [Layer.oneOrMore, Array.getElem?_setIfInBounds, if_neg (by omega)]
  exact ((keeps_push _ _).trans body.keeps) place inst here

theorem loop_closed (lays : Lays whole layer R) (front : 0 < code.size) (behind : next ≠ 0)
    (tight : Tight code) :
    (Layer.oneOrMore layer greedy next code).1 ≠ 0 ∧
      Tight (Layer.oneOrMore layer greedy next code).2 := by
  have body := lays.loop_pass next code
  obtain ⟨start, rest⟩ :=
    body.closed (Nat.ne_of_gt front) (tight.push (inner_forked true behind behind))
  exact ⟨start, rest.set (inner_forked greedy start behind) code.size⟩

/-- From its fork a loop comes to `next` over any number of passes. -/
theorem loop_sound (lays : Lays whole layer R) (front : 0 < code.size) {final : Array Inst}
    {stop moves i : Nat}
    (held : Final final code.size (Layer.oneOrMore layer greedy next code).2)
    (leads : Leads final whole stop moves code.size i) :
    ∃ j fewer, Star R i j ∧ fewer ≤ moves ∧ Leads final whole stop fewer next j := by
  have body := lays.loop_pass next code
  have here := held _ _ (Nat.le_refl _) (lays.loop_fork greedy next code)
  induction moves using Nat.strongRecOn generalizing i with
  | _ moves ih =>
      obtain ⟨fewer, place, k, rfl, goes, more⟩ := leads_from here front leads
      obtain ⟨rfl | rfl, rfl⟩ := goes_forked.mp goes
      -- a pass may read nothing, so it is the fork itself that makes the moves fewer
      · obtain ⟨k, less, pass, shorter, again⟩ := body.sound (loop_body held) more
        obtain ⟨j, least, ⟨count, passes⟩, shortest, last⟩ := ih less (by omega) again
        exact ⟨j, least, ⟨count + 1, k, pass, passes⟩, by omega, last⟩
      · exact ⟨k, fewer, ⟨0, rfl⟩, Nat.le_succ _, more⟩

theorem loop_complete (lays : Lays whole layer R) {final : Array Inst} {stop moves i j : Nat}
    (held : Final final code.size (Layer.oneOrMore layer greedy next code).2)
    (star : Star R i j) (leads : Leads final whole stop moves next j) :
    ∃ more, Leads final whole stop more code.size i := by
  have body := lays.loop_pass next code
  have here := held _ _ (Nat.le_refl _) (lays.loop_fork greedy next code)
  obtain ⟨count, passes⟩ := star
  induction count generalizing i with
  | zero =>
      cases passes
      exact ⟨moves + 1, leads_step here (goes_forked.mpr ⟨.inr rfl, rfl⟩) leads⟩
  | succ count ih =>
      obtain ⟨k, pass, passes⟩ := passes
      obtain ⟨more, again⟩ := ih passes
      obtain ⟨most, start⟩ := body.complete (loop_body held) pass again
      exact ⟨most + 1, leads_step here (goes_forked.mpr ⟨.inl rfl, rfl⟩) start⟩

theorem loop (lays : Lays whole layer R) (front : 0 < code.size) :
    Laid whole code next (Star R) (code.size, (Layer.oneOrMore layer greedy next code).2) where
  keeps := lays.loop_keeps greedy next code
  closed behind tight := ⟨Nat.ne_of_gt front, (lays.loop_closed front behind tight).2⟩
  sound := lays.loop_sound front
  complete := lays.loop_complete

theorem one_or_more (lays : Lays whole layer R) (front : 0 < code.size) :
    Laid whole code next (Relation.Comp R (Star R)) (Layer.oneOrMore layer greedy next code) where
  keeps := lays.loop_keeps greedy next code
  closed := lays.loop_closed front
  sound held leads := by
    have body := lays.loop_pass next code
    obtain ⟨k, fewer, pass, less, again⟩ := body.sound (loop_body held) leads
    obtain ⟨j, least, star, lesser, last⟩ := lays.loop_sound front held again
    exact ⟨j, least, ⟨k, pass, star⟩, Nat.le_trans lesser less, last⟩
  complete held spans leads := by
    have body := lays.loop_pass next code
    obtain ⟨k, pass, star⟩ := spans
    obtain ⟨more, again⟩ := lays.loop_complete held star leads
    exact body.complete (loop_body held) pass again

theorem copies (lays : Lays whole layer R) {S : Nat → Nat → Prop} {entry : Nat × Array Inst}
    (front : 0 < code.size) (behind : Laid whole code next S entry) (count : Nat) :
    Laid whole code next (Relation.Comp (Times R count) S) (layer.copies count entry) := by
  induction count with
  | zero => exact behind.congr fun i j => by simp [Relation.Comp, Times]
  | succ count ih =>
      have more := ih.comp (lays _ _ (ih.room front))
      rwa [← Relation.comp_assoc] at more

theorem up_to (lays : Lays whole layer R) (front : 0 < code.size) (count : Nat) :
    Laid whole code next (fun i j => ∃ passes ≤ count, Times R passes i j)
      (layer.upTo greedy next count code) := by
  induction count with
  | zero => exact (Laid.nothing whole code next).congr fun i j => by simp [Times]
  | succ count ih =>
      have more := ih.comp (lays _ _ (ih.room front))
      refine (more.choice front more.skipped greedy).congr fun i j => ?_
      constructor
      · rintro (⟨k, pass, passes, less, rest⟩ | rfl)
        · exact ⟨passes + 1, Nat.succ_le_succ less, k, pass, rest⟩
        · exact ⟨0, Nat.zero_le _, rfl⟩
      · rintro ⟨passes, less, rest⟩
        cases passes with
        | zero => exact .inr rest
        | succ passes =>
            obtain ⟨k, pass, rest⟩ := rest
            exact .inl ⟨k, pass, passes, Nat.le_of_succ_le_succ less, rest⟩

theorem zero_or_more (lays : Lays whole layer R) (front : 0 < code.size) (nullable : Bool) :
    Laid whole code next (Star R) (layer.zeroOrMore nullable greedy next code) := by
  cases nullable with
  | false => exact lays.loop front
  | true =>
      have once : Laid whole code next _ (layer.oneOrMore greedy next code) :=
        lays.one_or_more front
      refine (once.choice front once.skipped greedy).congr fun i j => ?_
      constructor
      · rintro (⟨k, pass, count, passes⟩ | rfl)
        · exact ⟨count + 1, k, pass, passes⟩
        · exact ⟨0, rfl⟩
      · rintro ⟨_ | count, passes⟩
        · exact .inr passes
        · obtain ⟨k, pass, passes⟩ := passes
          exact .inl ⟨k, pass, count, passes⟩

end Lays

/-- A pattern is laid out as what it spans. -/
theorem lays_spans (whole : List Rune) (p : Pattern) : Lays whole (layOut p) (p.Spans whole) := by
  induction p with
  | empty => exact fun next code _ => Laid.nothing whole code next
  | char c =>
      exact fun next code front => Laid.single front (fun i place j => Iff.rfl) rfl
  | assertion a =>
      exact fun next code front => Laid.single front (fun i place j => Iff.rfl) rfl
  | capture index body ih =>
      intro next code front
      have closing := Laid.saved whole front (2 * index + 1) next
      have inside := closing.comp (ih _ _ (closing.room front))
      have opening := Laid.saved whole (inside.room front) (2 * index)
      refine (inside.comp (opening _)).congr fun i j => ?_
      simp [Relation.Comp, Spans]
  | seq first second one other =>
      intro next code front
      have behind := other next code front
      exact behind.comp (one _ _ (behind.room front))
  | alt first second one other =>
      intro next code front
      have left := one next code front
      have right := other next _ (left.room front)
      have either := left.skipped.comp right
      -- the second side is laid out behind the first, so both stand in the code of the fork
      have both := left.followed right.keeps fun behind tight => (either.closed behind tight).2
      refine (both.choice front either true).congr fun i j => ?_
      simp [Relation.Comp, Spans]
  | repetition body least most greedy ih =>
      intro next code front
      rcases most with _ | most
      · cases least with
        | zero =>
            refine (ih.zero_or_more front body.nullable).congr fun i j => ?_
            simp [Star, Spans]
        | succ least =>
            refine (ih.copies front (ih.one_or_more front) least).congr fun i j => ?_
            exact spans_at_least
      · rw [layOut]
        refine (ih.copies front (ih.up_to front (most - least)) least).congr fun i j => ?_
        exact spans_between

/-- What the search relies on: the code begins with the two instructions that end a match, and
leads from its start to accepting over the spans `R`. -/
structure Searcher.Leading (whole : List Rune) (s : Searcher) (R : Nat → Nat → Prop) :
    Prop where
  accepting : s.insts[0]? = some .accept
  ending : s.insts[1]? = some (.save 1 0)
  tight : Tight s.insts
  start : s.start ≠ 0
  leads : ∀ i stop, (∃ moves, Leads s.insts whole stop moves s.start i) ↔ R i stop

theorem of_pattern_leading (whole : List Rune) (p : Pattern) (groups : Nat) :
    (Searcher.ofPattern p groups).Leading whole (p.Spans whole) := by
  have laid := lays_spans whole p 1 #[.accept, .save 1 0] (by decide)
  have keeps := laid.keeps.trans (keeps_push _ (.save 0 (layOut p 1 #[.accept, .save 1 0]).1))
  obtain ⟨start, rest⟩ := laid.closed (by decide) fun place inst behind here => by
    have inside := (Array.getElem?_eq_some_iff.mp here).1
    simp at inside
    omega
  have room := laid.keeps.size_le
  have final : Final (Searcher.ofPattern p groups).insts 2 (layOut p 1 #[.accept, .save 1 0]).2 :=
    fun place inst _ here => keeps_push _ _ place inst here
  have first : (Searcher.ofPattern p groups).insts[(Searcher.ofPattern p groups).start]? =
      some (.save 0 (layOut p 1 #[.accept, .save 1 0]).1) := by
    simp [Searcher.ofPattern]
  have accepting : (Searcher.ofPattern p groups).insts[0]? = some .accept := keeps _ _ rfl
  have ending : (Searcher.ofPattern p groups).insts[1]? = some (.save 1 0) := keeps _ _ rfl
  have behind : 0 < (Searcher.ofPattern p groups).start := Nat.lt_of_lt_of_le (by decide) room
  refine ⟨accepting, ending, ?_, Nat.ne_of_gt behind, fun i stop => ⟨?_, fun spans => ?_⟩⟩
  · refine rest.push ⟨by simp, ?_⟩
    simpa [Inst.nexts] using start.symm
  · rintro ⟨moves, leads⟩
    obtain ⟨fewer, next, k, rfl, ⟨rfl, rfl⟩, more⟩ := leads_from first behind leads
    obtain ⟨j, least, spans, -, last⟩ := laid.sound final more
    obtain ⟨none, next, k, rfl, ⟨rfl, rfl⟩, finish⟩ := leads_from ending Nat.one_pos last
    exact leads_accepting accepting finish ▸ spans
  · have finish : Leads (Searcher.ofPattern p groups).insts whole stop 0 0 stop := ⟨rfl, rfl⟩
    obtain ⟨more, leads⟩ := laid.complete final spans (leads_step ending ⟨rfl, rfl⟩ finish)
    exact ⟨more + 1, leads_step first ⟨rfl, rfl⟩ leads⟩

namespace Searcher.Leading

variable {s : Searcher} {whole : List Rune} {R : Nat → Nat → Prop} {place : Nat} {inst : Inst}

theorem last (leading : s.Leading whole R) (here : s.insts[place]? = some inst)
    (ends : 0 ∈ inst.nexts) : inst = .save 1 0 := by
  match place with
  | 0 =>
      rw [leading.accepting] at here
      cases here
      cases ends
  | 1 =>
      rw [leading.ending] at here
      exact (Option.some.inj here).symm
  | place + 2 => exact absurd ends (leading.tight _ _ (Nat.le_add_left 2 place) here).2

theorem accept_first (leading : s.Leading whole R) (here : s.insts[place]? = some .accept) :
    place = 0 := by
  match place with
  | 0 => rfl
  | 1 =>
      rw [leading.ending] at here
      cases here
  | place + 2 => exact absurd rfl (leading.tight _ _ (Nat.le_add_left 2 place) here).1

end Searcher.Leading

end DeviceScript.Pattern
