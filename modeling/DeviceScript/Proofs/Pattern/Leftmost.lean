import DeviceScript.Proofs.Pattern.Threads

/-!
The search finds the leftmost match. At each place of the text the threads stand for all that
started further left and can still accept, so the first to accept started leftmost.
-/

namespace DeviceScript.Pattern

open Text

def Live (code : Array Inst) (whole : List Rune) (place i : Nat) : Prop :=
  ∃ stop moves, Leads code whole stop moves place i

def blank (code : Array Inst) : Array Bool := Array.replicate code.size false

theorem blank_clear {code : Array Inst} {place : Nat} {inst : Inst}
    (here : code[place]? = some inst) : (blank code)[place]? = some false := by
  have inside := (Array.getElem?_eq_some_iff.mp here).1
  simp [blank, inside]

/-- A way to accept comes first to where a thread waits. -/
theorem live_waits {code : Array Inst} {whole : List Rune} {i place : Nat}
    (accepting : code[0]? = some .accept) (live : Live code whole place i) :
    ∃ q, Waits code q ∧ Open code whole i (blank code) place q ∧ Live code whole q i := by
  obtain ⟨stop, moves, leads⟩ := live
  induction moves generalizing place with
  | zero =>
      obtain ⟨rfl, same⟩ := leads
      exact ⟨0, ⟨.accept, accepting, trivial⟩, .here (blank_clear accepting),
        stop, 0, rfl, same⟩
  | succ fewer ih =>
      obtain ⟨next, j, ⟨inst, here, goes⟩, more⟩ := leads
      by_cases waits : inst.Waits
      · exact ⟨place, ⟨inst, here, waits⟩, .here (blank_clear here),
          stop, fewer + 1, leads_step here goes more⟩
      · obtain ⟨rfl, -⟩ := goes_slipped (t := ⟨place, #[]⟩) waits goes
        obtain ⟨q, waiting, way, live⟩ := ih more
        exact ⟨q, waiting, .step (blank_clear here) ⟨inst, here, goes⟩ way, live⟩

/-- What a thread at the place `i` stands for: whatever it leads to is led to from the start of
the code at the place where the thread started, and at the end it has noted where that is. -/
structure Traced.Sound (s : Searcher) (whole : List Rune) (i : Nat) (t : Traced) : Prop where
  begun : t.since ≤ i
  follows : ∀ {stop moves}, Leads s.insts whole stop moves t.thread.place i →
    ∃ more, Leads s.insts whole stop more s.start t.since
  room : 2 ≤ t.thread.slots.size
  ended : t.thread.place = 0 → t.thread.slots[1]? = some (some (octets whole i))

section Round

variable {s : Searcher} {whole : List Rune} {R : Nat → Nat → Prop} {i : Nat}

theorem sound_slipped (leading : s.Leading whole R) {t m : Thread} {since : Nat} {inst : Inst}
    (here : s.insts[t.place]? = some inst) (member : m ∈ slipped whole i t inst)
    (sound : Traced.Sound s whole i ⟨t, since⟩) : Traced.Sound s whole i ⟨m, since⟩ where
  begun := sound.begun
  follows leads := sound.follows (leads_step here (slipped_goes member) leads)
  room := slipped_room member ▸ sound.room
  ended finished := by
    have ends := goes_nexts (slipped_goes member)
    obtain rfl := leading.last here (finished ▸ ends)
    exact slipped_ended member sound.room

/-- Settling from no marks keeps, for every thread that can accept, one that started no later
and can. -/
theorem settles_live (leading : s.Leading whole R) {work : List Traced} (sorted : Sorted work)
    (sound : ∀ w ∈ work, w.Sound s whole i) {fuel : Nat}
    (enough : 2 * s.insts.size + work.length ≤ fuel) :
    ∃ alive, settleAt s.insts whole i fuel (blank s.insts) (work.map Traced.thread) =
        alive.map Traced.thread ∧
      Settled s.insts whole i (blank s.insts) (Traced.Sound s whole i) work alive ∧
      ∀ w ∈ work, Live s.insts whole w.thread.place i →
        ∃ a ∈ alive, a.since ≤ w.since ∧ Live s.insts whole a.thread.place i := by
  have marks : unmarked (blank s.insts) = s.insts.size := by simp [unmarked, blank]
  have size : (blank s.insts).size = s.insts.size := by simp [blank]
  have room : 2 * unmarked (blank s.insts) + work.length ≤ fuel := by omega
  obtain ⟨alive, settled, facts⟩ := settles size (sound_slipped leading) sorted sound room
  refine ⟨alive, settled, facts, fun w member live => ?_⟩
  -- without marks every way is open, also the one to where this thread would wait
  obtain ⟨q, waits, way, live⟩ := live_waits leading.accepting live
  obtain ⟨a, inside, there, sooner⟩ := facts.reaches w member q waits way
  exact ⟨a, inside, sooner, there ▸ live⟩

/-- What moving over a character makes of the threads: those in front of the first that accepts,
as far as they can read it. -/
structure Advanced (s : Searcher) (whole : List Rune) (i : Nat) (alive : List Traced)
    (accepted : Option Traced) (ahead : List Traced) : Prop where
  sound : ∀ m ∈ ahead, m.Sound s whole (i + 1)
  since : ∀ m ∈ ahead, ∃ a ∈ alive, a.since = m.since
  sorted : Sorted ahead
  ended : ∀ a ∈ accepted, a ∈ alive ∧ a.thread.place = 0
  before : ∀ a ∈ accepted, ∀ m ∈ ahead, m.since ≤ a.since
  lasting : ∀ b ∈ alive, Live s.insts whole b.thread.place i →
    (∀ a ∈ accepted, b.since < a.since) →
    ∃ m ∈ ahead, m.since = b.since ∧ Live s.insts whole m.thread.place (i + 1)

namespace Advanced

variable {t : Traced} {rest ahead : List Traced} {accepted : Option Traced} {c : CharClass}
  {next : Nat}

theorem accepts (first : ∀ v ∈ rest, t.since ≤ v.since) (finished : t.thread.place = 0) :
    Advanced s whole i (t :: rest) (some t) [] where
  sound := by simp
  since := by simp
  sorted := .nil
  ended := by simp [finished]
  before := by simp
  lasting b member _ sooner := by
    have less := sooner t rfl
    rcases List.mem_cons.mp member with rfl | old
    · omega
    · have order := first b old
      omega

theorem stuck (advanced : Advanced s whole i rest accepted ahead)
    (here : s.insts[t.thread.place]? = some (.char c next))
    (apart : t.thread.place ≠ 0) (unread : ¬ (codeAt? whole i).any c.mem = true) :
    Advanced s whole i (t :: rest) accepted ahead where
  sound := advanced.sound
  since m member :=
    let ⟨a, old, same⟩ := advanced.since m member
    ⟨a, List.mem_cons_of_mem t old, same⟩
  sorted := advanced.sorted
  ended a member :=
    let ⟨old, finished⟩ := advanced.ended a member
    ⟨List.mem_cons_of_mem t old, finished⟩
  before := advanced.before
  lasting b member live sooner := by
    rcases List.mem_cons.mp member with rfl | old
    · obtain ⟨stop, moves, leads⟩ := live
      obtain ⟨fewer, place, j, rfl, goes, more⟩ := leads_from here (by omega) leads
      exact absurd goes.2.1 unread
    · exact advanced.lasting b old live sooner

theorem read (advanced : Advanced s whole i rest accepted ahead)
    (first : ∀ v ∈ rest, t.since ≤ v.since) (sound : t.Sound s whole i)
    (here : s.insts[t.thread.place]? = some (.char c next)) (apart : t.thread.place ≠ 0)
    (inner : next ≠ 0) (reads : (codeAt? whole i).any c.mem = true) :
    Advanced s whole i (t :: rest) accepted
      (⟨{ t.thread with place := next }, t.since⟩ :: ahead) where
  sound := by
    refine List.forall_mem_cons.mpr ⟨⟨Nat.le_succ_of_le sound.begun, fun leads => ?_,
      sound.room, fun finished => absurd finished inner⟩, advanced.sound⟩
    exact sound.follows (leads_step here ⟨rfl, reads, rfl⟩ leads)
  since := by
    refine List.forall_mem_cons.mpr ⟨⟨t, List.mem_cons_self, rfl⟩, fun m member => ?_⟩
    obtain ⟨a, old, same⟩ := advanced.since m member
    exact ⟨a, List.mem_cons_of_mem t old, same⟩
  sorted := by
    refine List.pairwise_cons.mpr ⟨fun m member => ?_, advanced.sorted⟩
    obtain ⟨a, old, same⟩ := advanced.since m member
    exact same ▸ first a old
  ended a member :=
    let ⟨old, finished⟩ := advanced.ended a member
    ⟨List.mem_cons_of_mem t old, finished⟩
  before a member :=
    List.forall_mem_cons.mpr ⟨first a (advanced.ended a member).1, advanced.before a member⟩
  lasting b member live sooner := by
    rcases List.mem_cons.mp member with rfl | old
    · obtain ⟨stop, moves, leads⟩ := live
      obtain ⟨fewer, place, j, rfl, ⟨rfl, -, rfl⟩, more⟩ := leads_from here (by omega) leads
      exact ⟨_, List.mem_cons_self, rfl, stop, fewer, more⟩
    · obtain ⟨m, inside, same, live⟩ := advanced.lasting b old live sooner
      exact ⟨m, List.mem_cons_of_mem _ inside, same, live⟩

end Advanced

theorem advances (leading : s.Leading whole R) {alive : List Traced} (sorted : Sorted alive)
    (sound : ∀ a ∈ alive, a.Sound s whole i) (waits : ∀ a ∈ alive, Waits s.insts a.thread.place) :
    ∃ accepted ahead, advance s.insts (codeAt? whole i) (alive.map Traced.thread) =
        (ahead.map Traced.thread, accepted.map fun a => a.thread.slots) ∧
      Advanced s whole i alive accepted ahead := by
  induction alive with
  | nil => exact ⟨none, [], rfl, by constructor <;> simp [Sorted]⟩
  | cons t rest ih =>
      obtain ⟨first, later⟩ := List.pairwise_cons.mp sorted
      obtain ⟨front, behind⟩ := List.forall_mem_cons.mp sound
      obtain ⟨⟨inst, here, waiting⟩, others⟩ := List.forall_mem_cons.mp waits
      cases inst with
      | assertion | save | fork => exact waiting.elim
      | accept =>
          refine ⟨some t, [], ?_, .accepts first (leading.accept_first here)⟩
          simp [advance, here]
      | char c next =>
          obtain ⟨accepted, ahead, result, advanced⟩ := ih later behind others
          have apart : t.thread.place ≠ 0 := by
            intro finished
            rw [finished, leading.accepting] at here
            cases here
          have inner : next ≠ 0 := by
            rintro rfl
            cases leading.last here (List.mem_singleton_self 0)
          by_cases reads : (codeAt? whole i).any c.mem = true
          · refine ⟨accepted, _, ?_, advanced.read first front here apart inner reads⟩
            simp [advance, here, result, reads]
          · refine ⟨accepted, ahead, ?_, advanced.stuck here apart reads⟩
            simp [advance, here, result, reads]

end Round

/-- Up to where the threads at the place `i` must stand for every start: up to `i` itself, or
to where the match found so far starts. -/
def horizon (i : Nat) : Option Traced → Nat
  | none => i
  | some best => best.since

/-- The search at the place `i`, with the best match so far. -/
structure Front (s : Searcher) (whole : List Rune) (R : Nat → Nat → Prop) (i : Nat)
    (threads : List Traced) (best : Option Traced) : Prop where
  sorted : Sorted threads
  sound : ∀ t ∈ threads, t.Sound s whole i
  within : ∀ t ∈ threads, t.since ≤ horizon i best
  lasting : ∀ b < horizon i best, Live s.insts whole s.start b →
    ∃ t ∈ threads, t.since ≤ b ∧ Live s.insts whole t.thread.place i
  found : ∀ a ∈ best, a.since ≤ whole.length ∧ ∃ stop, R a.since stop ∧
    a.thread.slots[1]? = some (some (octets whole stop))

/-- While nothing is found, one more thread starts at each place. -/
def seeds (s : Searcher) (i : Nat) (threads : List Traced) (best : Option Traced) : List Traced :=
  if best.isNone then threads ++ [⟨searchFrom.fresh s, i⟩] else threads

namespace Front

variable {s : Searcher} {whole : List Rune} {R : Nat → Nat → Prop} {i : Nat}
  {threads : List Traced} {best : Option Traced}

theorem seeds_sound (front : Front s whole R i threads best) (leading : s.Leading whole R) :
    ∀ t ∈ seeds s i threads best, t.Sound s whole i := by
  have fresh : Traced.Sound s whole i ⟨searchFrom.fresh s, i⟩ :=
    ⟨Nat.le_refl i, fun leads => ⟨_, leads⟩, by simp [searchFrom.fresh],
      fun finished => absurd finished leading.start⟩
  intro t member
  unfold seeds at member
  split at member
  · rcases List.mem_append.mp member with old | new
    · exact front.sound t old
    · exact List.mem_singleton.mp new ▸ fresh
  · exact front.sound t member

theorem seeds_sorted (front : Front s whole R i threads best) :
    Sorted (seeds s i threads best) := by
  unfold seeds
  split
  · refine List.pairwise_append.mpr ⟨front.sorted, List.pairwise_singleton _ _, ?_⟩
    intro t old fresh new
    exact List.mem_singleton.mp new ▸ (front.sound t old).begun
  · exact front.sorted

theorem seeds_within (front : Front s whole R i threads best) :
    ∀ t ∈ seeds s i threads best, t.since ≤ horizon (i + 1) best := by
  intro t member
  cases best with
  | none =>
      rcases List.mem_append.mp member with old | new
      · exact Nat.le_succ_of_le (front.within t old)
      · exact List.mem_singleton.mp new ▸ Nat.le_succ i
  | some a => exact front.within t member

theorem seeds_lasting (front : Front s whole R i threads best) :
    ∀ b < horizon (i + 1) best, Live s.insts whole s.start b →
      ∃ t ∈ seeds s i threads best, t.since ≤ b ∧ Live s.insts whole t.thread.place i := by
  intro b before live
  cases best with
  | none =>
      rcases Nat.lt_succ_iff_lt_or_eq.mp before with older | rfl
      · obtain ⟨t, old, sooner, alive⟩ := front.lasting b older live
        exact ⟨t, List.mem_append_left _ old, sooner, alive⟩
      · exact ⟨_, List.mem_append_right _ (List.mem_singleton_self _), Nat.le_refl b, live⟩
  | some a => exact front.lasting b before live

theorem accepted_found (leading : s.Leading whole R) {a : Traced} (sound : a.Sound s whole i)
    (finished : a.thread.place = 0) :
    R a.since i ∧ a.thread.slots[1]? = some (some (octets whole i)) := by
  have finish : Leads s.insts whole i 0 a.thread.place i := ⟨finished, rfl⟩
  exact ⟨(leading.leads _ _).mp (sound.follows finish), sound.ended finished⟩

/-- One round of the search: the seeds settle and move over one character. -/
theorem round (front : Front s whole R i threads best) (leading : s.Leading whole R)
    (inside : i ≤ whole.length) {fuel : Nat}
    (enough : 2 * s.insts.size + (seeds s i threads best).length ≤ fuel) :
    ∃ (accepted : Option Traced) (ahead : List Traced),
      advance s.insts (codeAt? whole i) (settleAt s.insts whole i fuel (blank s.insts)
          ((seeds s i threads best).map Traced.thread)) =
        (ahead.map Traced.thread, accepted.map fun a => a.thread.slots) ∧
      Front s whole R (i + 1) ahead (accepted.or best) := by
  obtain ⟨alive, settled, facts, live⟩ :=
    settles_live leading front.seeds_sorted (front.seeds_sound leading) enough
  obtain ⟨accepted, ahead, result, advanced⟩ :=
    advances leading facts.sorted facts.kept facts.waits
  have within : ∀ a ∈ alive, a.since ≤ horizon (i + 1) best := by
    intro a member
    obtain ⟨w, seed, same⟩ := facts.since a member
    exact same ▸ front.seeds_within w seed
  have lasting : ∀ b < horizon (i + 1) best, (∀ a ∈ accepted, b < a.since) →
      Live s.insts whole s.start b →
      ∃ t ∈ ahead, t.since ≤ b ∧ Live s.insts whole t.thread.place (i + 1) := by
    intro b before sooner started
    -- what stands for `b` started in front of the accepting thread and is not dropped with
    -- those behind it
    obtain ⟨w, seed, first, goes⟩ := front.seeds_lasting b before started
    obtain ⟨a, member, second, waits⟩ := live w seed goes
    obtain ⟨m, inside, same, on⟩ := advanced.lasting a member waits fun c member => by
      have order := sooner c member
      omega
    exact ⟨m, inside, by omega, on⟩
  refine ⟨accepted, ahead, settled ▸ result, advanced.sorted, advanced.sound, ?_, ?_, ?_⟩
  · intro m member
    cases accepted with
    | none =>
        obtain ⟨a, old, same⟩ := advanced.since m member
        exact same ▸ within a old
    | some a => exact advanced.before a rfl m member
  · intro b before started
    cases accepted with
    | none => exact lasting b before (by simp) started
    | some a =>
        have order := within a (advanced.ended a rfl).1
        refine lasting b (Nat.lt_of_lt_of_le before order) ?_ started
        rintro c ⟨⟩
        exact before
  · intro a member
    cases accepted with
    | none => exact front.found a member
    | some c =>
        obtain rfl := Option.some.inj member
        obtain ⟨old, finished⟩ := advanced.ended c rfl
        obtain ⟨spans, noted⟩ := accepted_found leading (facts.kept c old) finished
        exact ⟨Nat.le_trans (facts.kept c old).begun inside, i, spans, noted⟩

end Front

theorem advance_end (code : Array Inst) (ts : List Thread) : (advance code none ts).1 = [] := by
  induction ts with
  | nil => rfl
  | cons t rest ih =>
      unfold advance
      split
      · rfl
      · simpa using ih
      · exact ih

section Search

variable {s : Searcher} {whole : List Rune} {R : Nat → Nat → Prop} {i : Nat}
  {threads : List Traced} {best : Option Traced} {a : Traced}

def slotsOf (best : Option Traced) : Option (Array (Option Nat)) :=
  best.map fun a => a.thread.slots

theorem seeds_threads : (seeds s i threads best).map Traced.thread =
    if (slotsOf best).isNone then threads.map Traced.thread ++ [searchFrom.fresh s]
    else threads.map Traced.thread := by
  cases best <;> simp [seeds, slotsOf]

theorem fuel_enough : 2 * s.insts.size + (seeds s i threads best).length ≤
    searchFrom.fuel s (threads.map Traced.thread) := by
  cases best <;> simp [seeds, searchFrom.fuel] <;> omega

theorem octets_succ {r : Rune} (here : whole[i]? = some r) :
    octets whole (i + 1) = octets whole i + r.raw.length := by
  simp [octets, ofRunes, List.take_add_one, here]

theorem search_last (front : Front s whole R whole.length threads best)
    (leading : s.Leading whole R) :
    ∃ last, searchFrom s (codeBefore? whole whole.length) (octets whole whole.length)
        (threads.map Traced.thread) (slotsOf best) [] = slotsOf last ∧
      Front s whole R (whole.length + 1) [] last := by
  have code : codeAt? whole whole.length = none := by simp [codeAt?]
  obtain ⟨accepted, ahead, result, next⟩ := front.round leading (Nat.le_refl _) fuel_enough
  have nothing := advance_end s.insts (settleAt s.insts whole whole.length
    (searchFrom.fuel s (threads.map Traced.thread)) (blank s.insts)
    ((seeds s whole.length threads best).map Traced.thread))
  rw [← code, result] at nothing
  obtain rfl : ahead = [] := List.map_eq_nil_iff.mp nothing
  rw [seeds_threads, settleAt, code] at result
  refine ⟨accepted.or best, ?_, next⟩
  calc searchFrom s (codeBefore? whole whole.length) (octets whole whole.length)
        (threads.map Traced.thread) (slotsOf best) []
      = (advance s.insts none (settle s.insts (octets whole whole.length)
          (codeBefore? whole whole.length) none
          (searchFrom.fuel s (threads.map Traced.thread)) (blank s.insts)
          (if (slotsOf best).isNone then threads.map Traced.thread ++ [searchFrom.fresh s]
            else threads.map Traced.thread))).2.or (slotsOf best) := rfl
    _ = (slotsOf accepted).or (slotsOf best) := by rw [result]; rfl
    _ = slotsOf (accepted.or best) := Option.map_or.symm

theorem search_round (front : Front s whole R i threads best) (leading : s.Leading whole R)
    {r : Rune} {rest : List Rune} (here : whole[i]? = some r)
    (some_left : (seeds s i threads best) ≠ []) :
    ∃ ahead more, searchFrom s (codeBefore? whole i) (octets whole i)
        (threads.map Traced.thread) (slotsOf best) (r :: rest) =
        searchFrom s (codeBefore? whole (i + 1)) (octets whole (i + 1))
          (ahead.map Traced.thread) (slotsOf more) rest ∧
      Front s whole R (i + 1) ahead more := by
  have inside : i ≤ whole.length := Nat.le_of_lt (List.getElem?_eq_some_iff.mp here).1
  have code : codeAt? whole i = some r.code := by simp [codeAt?, here]
  obtain ⟨accepted, ahead, result, next⟩ := front.round leading inside fuel_enough
  have left : (if (slotsOf best).isNone then threads.map Traced.thread ++ [searchFrom.fresh s]
      else threads.map Traced.thread).isEmpty = false := by
    rw [← seeds_threads (i := i), List.isEmpty_eq_false_iff]
    exact fun none => some_left (List.map_eq_nil_iff.mp none)
  rw [seeds_threads, settleAt, code] at result
  refine ⟨ahead, accepted.or best, ?_, next⟩
  have round : searchFrom s (codeBefore? whole i) (octets whole i)
      (threads.map Traced.thread) (slotsOf best) (r :: rest) =
      searchFrom s (some r.code) (octets whole i + r.raw.length) (ahead.map Traced.thread)
        ((slotsOf accepted).or (slotsOf best)) rest := by
    rw [searchFrom, left]
    simp only [Bool.false_eq_true, ↓reduceIte]
    rw [show searchFrom.blank s = blank s.insts from rfl, result]
    rfl
  rw [round, octets_succ here, slotsOf, slotsOf, ← Option.map_or]
  exact code ▸ rfl

/-- With a match and no threads left the search is over. -/
theorem search_over (front : Front s whole R i [] (some a)) :
    Front s whole R (whole.length + 1) [] (some a) where
  sorted := front.sorted
  sound := by simp
  within := by simp
  lasting := fun b before live => by simpa using front.lasting b before live
  found := front.found

theorem search_front (leading : s.Leading whole R) {rest : List Rune}
    (front : Front s whole R i threads best) (here : whole.drop i = rest)
    (inside : i ≤ whole.length) :
    ∃ last, searchFrom s (codeBefore? whole i) (octets whole i) (threads.map Traced.thread)
        (slotsOf best) rest = slotsOf last ∧
      Front s whole R (whole.length + 1) [] last := by
  induction rest generalizing i threads best with
  | nil =>
      obtain rfl : i = whole.length := Nat.le_antisymm inside (List.drop_eq_nil_iff.mp here)
      exact search_last front leading
  | cons r rest ih =>
      have next : whole[i]? = some r := by
        rw [← List.head?_drop, here, List.head?_cons]
      have behind : whole.drop (i + 1) = rest := by
        rw [← List.drop_drop, here, List.drop_one, List.tail_cons]
      by_cases none_left : seeds s i threads best = []
      · cases best with
        | none => simp [seeds] at none_left
        | some a =>
            obtain rfl : threads = [] := none_left
            exact ⟨some a, rfl, search_over front⟩
      · obtain ⟨ahead, more, round, onward⟩ := search_round front leading next none_left
        rw [round]
        exact ih onward behind (List.getElem?_eq_some_iff.mp next).1

end Search

/-- The leftmost place where the pattern matches, and an end of a match there. -/
structure Leftmost (whole : List Rune) (p : Pattern) (i j : Nat) : Prop where
  inside : i ≤ whole.length
  spans : p.Spans whole i j
  first : ∀ k l, p.Spans whole k l → i ≤ k

/-- The search finds the leftmost match if there is one, and notes where it ends. -/
theorem find_leftmost (p : Pattern) (groups : Nat) (t : Text) :
    (∃ slots i j, (Searcher.ofPattern p groups).find t = some slots ∧
      slots[1]? = some (some (octets (runes t) j)) ∧ Leftmost (runes t) p i j) ∨
    ((Searcher.ofPattern p groups).find t = none ∧
      ∀ i ≤ (runes t).length, ∀ j, ¬ p.Spans (runes t) i j) := by
  have leading := of_pattern_leading (runes t) p groups
  have live : ∀ i j, p.Spans (runes t) i j → Live (Searcher.ofPattern p groups).insts (runes t)
      (Searcher.ofPattern p groups).start i :=
    fun i j spans => ⟨j, (leading.leads i j).mpr spans⟩
  have front : Front (Searcher.ofPattern p groups) (runes t) (p.Spans (runes t)) 0 [] none := by
    constructor <;> simp [Sorted, horizon]
  obtain ⟨last, found, final⟩ := search_front leading front rfl (Nat.zero_le _)
  cases last with
  | none =>
      refine .inr ⟨found, fun i inside j spans => ?_⟩
      obtain ⟨t, none, -⟩ := final.lasting i (Nat.lt_succ_of_le inside) (live i j spans)
      cases none
  | some a =>
      obtain ⟨inside, stop, spans, noted⟩ := final.found a rfl
      refine .inl ⟨a.thread.slots, a.since, stop, found, noted, inside, spans, ?_⟩
      intro k l other
      refine Nat.le_of_not_lt fun before => ?_
      obtain ⟨t, none, -⟩ := final.lasting k before (live k l other)
      cases none

theorem match_end_leftmost {p : Pattern} {groups stop : Nat} {t : Text}
    (found : (Searcher.ofPattern p groups).matchEnd? t = some stop) :
    ∃ i j, Leftmost (runes t) p i j ∧ stop = octets (runes t) j := by
  rcases find_leftmost p groups t with ⟨slots, i, j, search, noted, leftmost⟩ | ⟨none, -⟩
  · refine ⟨i, j, leftmost, ?_⟩
    simpa [Searcher.matchEnd?, search, noted, eq_comm] using found
  · simp [Searcher.matchEnd?, none] at found

theorem no_match_end {p : Pattern} {groups : Nat} {t : Text}
    (none : (Searcher.ofPattern p groups).matchEnd? t = none) :
    ∀ i ≤ (runes t).length, ∀ j, ¬ p.Spans (runes t) i j := by
  rcases find_leftmost p groups t with ⟨slots, i, j, search, noted, -⟩ | ⟨-, nowhere⟩
  · simp [Searcher.matchEnd?, search, noted] at none
  · exact nowhere

end DeviceScript.Pattern
