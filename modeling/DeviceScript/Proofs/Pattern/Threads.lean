import DeviceScript.Proofs.Pattern.Layout
import Mathlib.Data.List.Basic

/-!
The threads of a search at one place of the text. Threads are traced with the place where they
started, and stand in that order. Letting them settle loses no way to accept to a thread that
started later: whoever marked an instruction first came from further left.
-/

namespace DeviceScript.Pattern

open Text

def octets (whole : List Rune) (i : Nat) : Nat := (ofRunes (whole.take i)).length

/-- Accepting and reading instructions are where settled threads wait. -/
def Inst.Waits : Inst → Prop
  | .accept | .char _ _ => True
  | .assertion _ _ | .save _ _ | .fork _ _ => False

def Waits (code : Array Inst) (place : Nat) : Prop :=
  ∃ inst, code[place]? = some inst ∧ inst.Waits

/-- What a thread at the place `i` becomes by an instruction that reads nothing. -/
def slipped (whole : List Rune) (i : Nat) (t : Thread) : Inst → List Thread
  | .accept | .char _ _ => []
  | .assertion a next =>
      if Assertion.holds a (codeBefore? whole i) (codeAt? whole i) then [{ t with place := next }]
      else []
  | .save slot next => [⟨next, t.slots.setIfInBounds slot (some (octets whole i))⟩]
  | .fork first second => [{ t with place := first }, { t with place := second }]

section Slipping

variable {code : Array Inst} {whole : List Rune} {i : Nat} {t m : Thread} {inst : Inst}

theorem slipped_goes (member : m ∈ slipped whole i t inst) : inst.Goes whole i m.place i := by
  cases inst with
  | accept | char => cases member
  | assertion a next =>
      simp only [slipped] at member
      split at member
      · next holds =>
          cases List.mem_singleton.mp member
          exact ⟨rfl, holds, rfl⟩
      · cases member
  | save slot next =>
      cases List.mem_singleton.mp member
      exact ⟨rfl, rfl⟩
  | fork first second =>
      simp only [slipped, List.mem_cons, List.not_mem_nil, or_false] at member
      rcases member with rfl | rfl
      · exact ⟨.inl rfl, rfl⟩
      · exact ⟨.inr rfl, rfl⟩

theorem goes_slipped {next j : Nat} (slips : ¬ inst.Waits) (goes : inst.Goes whole i next j) :
    j = i ∧ ∃ m ∈ slipped whole i t inst, m.place = next := by
  cases inst with
  | accept | char => exact absurd trivial slips
  | assertion a place =>
      obtain ⟨rfl, holds, rfl⟩ := goes
      exact ⟨rfl, { t with place := _ }, by simp [slipped, holds], rfl⟩
  | save slot place =>
      obtain ⟨rfl, rfl⟩ := goes
      exact ⟨rfl, _, List.mem_singleton_self _, rfl⟩
  | fork first second =>
      obtain ⟨rfl | rfl, rfl⟩ := goes
      · exact ⟨rfl, _, List.mem_cons_self, rfl⟩
      · exact ⟨rfl, _, List.mem_cons_of_mem _ List.mem_cons_self, rfl⟩

theorem waits_reads (waits : inst.Waits) {next : Nat} : ¬ inst.Goes whole i next i := by
  cases inst with
  | accept => exact id
  | char => exact fun goes => absurd goes.2.2 (Nat.ne_of_lt (Nat.lt_succ_self i))
  | assertion | save | fork => exact waits.elim

theorem slipped_length (whole : List Rune) (i : Nat) (t : Thread) (inst : Inst) :
    (slipped whole i t inst).length ≤ 2 := by
  cases inst with
  | accept | char | save | fork => simp [slipped]
  | assertion => simp only [slipped]; split <;> simp

/-- Only the end of a match comes to the accepting instruction, and it notes where that is. -/
theorem slipped_ended (member : m ∈ slipped whole i t (.save 1 0)) (room : 2 ≤ t.slots.size) :
    m.slots[1]? = some (some (octets whole i)) := by
  cases List.mem_singleton.mp member
  have inside : 1 < t.slots.size := room
  simp [inside]

theorem slipped_room (member : m ∈ slipped whole i t inst) : m.slots.size = t.slots.size := by
  cases inst with
  | accept | char => cases member
  | assertion a next =>
      simp only [slipped] at member
      split at member
      · cases List.mem_singleton.mp member
        rfl
      · cases member
  | save slot next =>
      cases List.mem_singleton.mp member
      exact Array.size_setIfInBounds
  | fork first second =>
      simp only [slipped, List.mem_cons, List.not_mem_nil, or_false] at member
      rcases member with rfl | rfl <;> rfl

end Slipping

def unmarked (reached : Array Bool) : Nat := reached.toList.count false

theorem unmarked_set {reached : Array Bool} {place : Nat} (clear : reached[place]? = some false) :
    unmarked (reached.setIfInBounds place true) + 1 = unmarked reached := by
  obtain ⟨inside, value⟩ := Array.getElem?_eq_some_iff.mp clear
  have listed : place < reached.toList.length := by simpa using inside
  have here : reached.toList[place] = false := by simpa using value
  have least : 0 < reached.toList.count false :=
    List.count_pos_iff.mpr (here ▸ List.getElem_mem listed)
  rw [unmarked, unmarked, Array.toList_setIfInBounds, List.count_set listed, here]
  simp only [beq_self_eq_true, ↓reduceIte, beq_iff_eq, Bool.true_eq_false]
  omega

section Settling

variable {code : Array Inst} {whole : List Rune} {i fuel : Nat} {reached : Array Bool}
  {t : Thread} {work : List Thread} {inst : Inst}

abbrev settleAt (code : Array Inst) (whole : List Rune) (i : Nat) :
    Nat → Array Bool → List Thread → List Thread :=
  settle code (octets whole i) (codeBefore? whole i) (codeAt? whole i)

theorem settle_reached (marked : reached[t.place]? ≠ some false) :
    settleAt code whole i (fuel + 1) reached (t :: work) =
      settleAt code whole i fuel reached work := by
  have taken : (reached[t.place]?).getD true = true := by
    cases held : reached[t.place]? with
    | none => rfl
    | some value => cases value <;> simp_all
  simp [settleAt, settle, taken]

theorem settle_waits (clear : reached[t.place]? = some false)
    (here : code[t.place]? = some inst) (waits : inst.Waits) :
    settleAt code whole i (fuel + 1) reached (t :: work) =
      t :: settleAt code whole i fuel (reached.setIfInBounds t.place true) work := by
  cases inst <;> first | exact waits.elim | simp [settleAt, settle, clear, here]

theorem settle_slips (clear : reached[t.place]? = some false)
    (here : code[t.place]? = some inst) (slips : ¬ inst.Waits) :
    settleAt code whole i (fuel + 1) reached (t :: work) =
      settleAt code whole i fuel (reached.setIfInBounds t.place true)
        (slipped whole i t inst ++ work) := by
  cases inst with
  | accept | char => exact absurd trivial slips
  | assertion a next =>
      by_cases holds : Assertion.holds a (codeBefore? whole i) (codeAt? whole i) = true <;>
        simp [settleAt, settle, clear, here, slipped, holds]
  | save | fork => simp [settleAt, settle, clear, here, slipped]

end Settling

/-- A way from one instruction to another that reads nothing and meets no mark. -/
inductive Open (code : Array Inst) (whole : List Rune) (i : Nat) (reached : Array Bool) :
    Nat → Nat → Prop where
  | here {p : Nat} (clear : reached[p]? = some false) : Open code whole i reached p p
  | step {p next q : Nat} (clear : reached[p]? = some false)
      (move : Moves code whole p i next i) (rest : Open code whole i reached next q) :
      Open code whole i reached p q

theorem Open.clear {code : Array Inst} {whole : List Rune} {i p q : Nat} {reached : Array Bool}
    (way : Open code whole i reached p q) : reached[p]? = some false := by
  cases way <;> assumption

/-- A new mark at `x` leaves an open way open, or the way goes on from its last visit to `x`. -/
theorem Open.marked {code : Array Inst} {whole : List Rune} {i p q : Nat} {reached : Array Bool}
    (way : Open code whole i reached p q) (x : Nat) :
    Open code whole i (reached.setIfInBounds x true) p q ∨ x = q ∨
      ∃ next, Moves code whole x i next i ∧
        Open code whole i (reached.setIfInBounds x true) next q := by
  have kept : ∀ {place : Nat}, x ≠ place → reached[place]? = some false →
      (reached.setIfInBounds x true)[place]? = some false := by
    intro place apart clear
    rw [Array.getElem?_setIfInBounds_ne apart, clear]
  -- the last visit is the one found first from the end of the way
  induction way with
  | @here p clear =>
      by_cases same : x = p
      · exact .inr (.inl same)
      · exact .inl (.here (kept same clear))
  | @step p next q clear move rest ih =>
      rcases ih with way | later
      · by_cases same : x = p
        · exact .inr (.inr ⟨next, same ▸ move, way⟩)
        · exact .inl (.step (kept same clear) move way)
      · exact .inr later

/-- A thread and the place of the text where it started. -/
structure Traced where
  thread : Thread
  since : Nat

def Sorted (ts : List Traced) : Prop := ts.Pairwise fun a b => a.since ≤ b.since

/-- What settling makes of `work`: threads that wait, in the same order, and one of them,
started no later, wherever an open way leads. -/
structure Settled (code : Array Inst) (whole : List Rune) (i : Nat) (reached : Array Bool)
    (P : Traced → Prop) (work out : List Traced) : Prop where
  kept : ∀ a ∈ out, P a
  since : ∀ a ∈ out, ∃ w ∈ work, w.since = a.since
  waits : ∀ a ∈ out, Waits code a.thread.place
  sorted : Sorted out
  reaches : ∀ w ∈ work, ∀ q, Waits code q → Open code whole i reached w.thread.place q →
    ∃ a ∈ out, a.thread.place = q ∧ a.since ≤ w.since

/-- A thread that moves on does so with its place in the order. -/
def moved (whole : List Rune) (i : Nat) (w : Traced) (inst : Inst) : List Traced :=
  (slipped whole i w.thread inst).map fun t => ⟨t, w.since⟩

theorem sorted_moved {whole : List Rune} {i : Nat} {w : Traced} {inst : Inst}
    {work : List Traced} (first : ∀ v ∈ work, w.since ≤ v.since) (sorted : Sorted work) :
    Sorted (moved whole i w inst ++ work) := by
  refine List.pairwise_append.mpr ⟨?_, sorted, fun v member u later => ?_⟩
  · exact List.pairwise_map.mpr (List.pairwise_of_forall fun _ _ => Nat.le_refl _)
  · obtain ⟨t, -, rfl⟩ := List.mem_map.mp member
    exact first u later

namespace Settled

variable {code : Array Inst} {whole : List Rune} {i : Nat} {reached : Array Bool}
  {P : Traced → Prop} {w : Traced} {work out : List Traced}

/-- Once the first thread of the work has marked its instruction, an open way from a thread
behind it is still open, or goes on from the first, which started no later. -/
theorem way_on (first : ∀ v ∈ work, w.since ≤ v.since) {v : Traced} (member : v ∈ w :: work)
    {q : Nat} (way : Open code whole i reached v.thread.place q) :
    (v ∈ work ∧ Open code whole i (reached.setIfInBounds w.thread.place true) v.thread.place q) ∨
      (w.since ≤ v.since ∧ (w.thread.place = q ∨ ∃ next, Moves code whole w.thread.place i next i ∧
        Open code whole i (reached.setIfInBounds w.thread.place true) next q)) := by
  have least : w.since ≤ v.since := by
    rcases List.mem_cons.mp member with rfl | old
    · exact Nat.le_refl _
    · exact first v old
  rcases way.marked w.thread.place with still | onward
  · rcases List.mem_cons.mp member with rfl | old
    · exact absurd still.clear (by simp [Array.getElem?_setIfInBounds])
    · exact .inl ⟨old, still⟩
  · exact .inr ⟨least, onward⟩

theorem nothing : Settled code whole i reached P [] [] := by
  constructor <;> simp [Sorted]

theorem dropped (settled : Settled code whole i reached P work out)
    (marked : reached[w.thread.place]? ≠ some false) :
    Settled code whole i reached P (w :: work) out where
  kept := settled.kept
  since a member :=
    let ⟨v, old, same⟩ := settled.since a member
    ⟨v, List.mem_cons_of_mem w old, same⟩
  waits := settled.waits
  sorted := settled.sorted
  reaches v member q waits way := by
    rcases List.mem_cons.mp member with rfl | old
    · exact absurd way.clear marked
    · exact settled.reaches v old q waits way

theorem stayed
    (settled : Settled code whole i (reached.setIfInBounds w.thread.place true) P work out)
    (first : ∀ v ∈ work, w.since ≤ v.since) (held : P w) {inst : Inst}
    (here : code[w.thread.place]? = some inst) (waiting : inst.Waits) :
    Settled code whole i reached P (w :: work) (w :: out) where
  kept := List.forall_mem_cons.mpr ⟨held, settled.kept⟩
  since := by
    refine List.forall_mem_cons.mpr ⟨⟨w, List.mem_cons_self, rfl⟩, fun a member => ?_⟩
    obtain ⟨v, old, same⟩ := settled.since a member
    exact ⟨v, List.mem_cons_of_mem w old, same⟩
  waits := List.forall_mem_cons.mpr ⟨⟨inst, here, waiting⟩, settled.waits⟩
  sorted := by
    refine List.pairwise_cons.mpr ⟨fun a member => ?_, settled.sorted⟩
    obtain ⟨v, old, same⟩ := settled.since a member
    exact same ▸ first v old
  reaches v member q waits way := by
    rcases way_on first member way with ⟨old, still⟩ | ⟨least, rfl | ⟨next, move, -⟩⟩
    · obtain ⟨a, inside, there, sooner⟩ := settled.reaches v old q waits still
      exact ⟨a, List.mem_cons_of_mem w inside, there, sooner⟩
    · exact ⟨w, List.mem_cons_self, rfl, least⟩
    · exact absurd ((moves_from here).mp move) (waits_reads waiting)

theorem went {inst : Inst} (first : ∀ v ∈ work, w.since ≤ v.since)
    (settled : Settled code whole i (reached.setIfInBounds w.thread.place true) P
      (moved whole i w inst ++ work) out)
    (here : code[w.thread.place]? = some inst) (slips : ¬ inst.Waits) :
    Settled code whole i reached P (w :: work) out where
  kept := settled.kept
  since a member := by
    obtain ⟨v, old, same⟩ := settled.since a member
    rcases List.mem_append.mp old with new | old
    · obtain ⟨t, -, rfl⟩ := List.mem_map.mp new
      exact ⟨w, List.mem_cons_self, same⟩
    · exact ⟨v, List.mem_cons_of_mem w old, same⟩
  waits := settled.waits
  sorted := settled.sorted
  reaches v member q waits way := by
    rcases way_on first member way with ⟨old, still⟩ | ⟨least, rfl | ⟨next, move, onward⟩⟩
    · exact settled.reaches v (List.mem_append_right _ old) q waits still
    · obtain ⟨other, there, waiting⟩ := waits
      rw [here] at there
      cases there
      exact absurd waiting slips
    · obtain ⟨-, t, new, rfl⟩ := goes_slipped slips ((moves_from here).mp move)
      obtain ⟨a, inside, there, sooner⟩ := settled.reaches ⟨t, w.since⟩
        (List.mem_append_left _ (List.mem_map.mpr ⟨t, new, rfl⟩)) q waits onward
      exact ⟨a, inside, there, Nat.le_trans sooner least⟩

end Settled

/-- Any property of threads that moving on keeps holds of all that have settled. -/
theorem settles {code : Array Inst} {whole : List Rune} {i fuel : Nat} {reached : Array Bool}
    {P : Traced → Prop} {work : List Traced} (size : reached.size = code.size)
    (moving : ∀ {t since inst m}, code[t.place]? = some inst → m ∈ slipped whole i t inst →
      P ⟨t, since⟩ → P ⟨m, since⟩)
    (sorted : Sorted work) (held : ∀ w ∈ work, P w)
    (enough : 2 * unmarked reached + work.length ≤ fuel) :
    ∃ out, settleAt code whole i fuel reached (work.map Traced.thread) = out.map Traced.thread ∧
      Settled code whole i reached P work out := by
  induction fuel generalizing reached work with
  | zero =>
      obtain rfl : work = [] := List.length_eq_zero_iff.mp (by omega)
      exact ⟨[], rfl, Settled.nothing⟩
  | succ fuel ih =>
      cases work with
      | nil => exact ⟨[], rfl, Settled.nothing⟩
      | cons w work =>
          obtain ⟨first, later⟩ := List.pairwise_cons.mp sorted
          obtain ⟨front, behind⟩ := List.forall_mem_cons.mp held
          rw [List.length_cons] at enough
          by_cases clear : reached[w.thread.place]? = some false
          -- a mark weighs two, for the two threads that a fork may add
          · have marks := unmarked_set clear
            have same : (reached.setIfInBounds w.thread.place true).size = code.size := by
              rw [Array.size_setIfInBounds, size]
            obtain ⟨inst, here⟩ : ∃ inst, code[w.thread.place]? = some inst := by
              have inside := (Array.getElem?_eq_some_iff.mp clear).1
              exact ⟨_, Array.getElem?_eq_getElem (size ▸ inside)⟩
            by_cases waits : inst.Waits
            · obtain ⟨out, settled, facts⟩ := ih same later behind (by omega)
              refine ⟨w :: out, ?_, facts.stayed first front here waits⟩
              rw [List.map_cons, settle_waits clear here waits, settled, List.map_cons]
            · have few := slipped_length whole i w.thread inst
              have threads : (moved whole i w inst ++ work).map Traced.thread =
                  slipped whole i w.thread inst ++ work.map Traced.thread := by
                simp [moved, Function.comp_def]
              have kept : ∀ v ∈ moved whole i w inst ++ work, P v := by
                refine List.forall_mem_append.mpr ⟨fun v member => ?_, behind⟩
                obtain ⟨m, new, rfl⟩ := List.mem_map.mp member
                exact moving here new front
              obtain ⟨out, settled, facts⟩ := ih same (sorted_moved first later)
                kept (by simp [moved]; omega)
              refine ⟨out, ?_, facts.went first here waits⟩
              rw [List.map_cons, settle_slips clear here waits, ← threads, settled]
          · obtain ⟨out, settled, facts⟩ := ih size later behind (by omega)
            exact ⟨out, (settle_reached clear).trans settled, facts.dropped clear⟩

end DeviceScript.Pattern
