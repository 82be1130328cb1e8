import DeviceScript.Outcome.Basic
import DeviceScript.Proofs.Library.Growth

/-!
Programs that ask for what they share with others: the library of compiled scripts, the compilations
under way, and the memory of results. What a program comes to is said whatever the others do between
two of its requests, as long as they keep to the same rules: only own scripts are kept, a
compilation hands out what its file compiles to, and results carry the id of their run.
-/

namespace DeviceScript

open Text

namespace Result

variable {id other : Text} {rs : List Result}

theorem of_run_append (id : Text) (rs more : List Result) :
    ofRun id (rs ++ more) = ofRun id rs ++ ofRun id more := by
  unfold ofRun
  exact List.filter_append ..

theorem of_run_own (named : ∀ r ∈ rs, r.runId = id) : ofRun id rs = rs := by
  unfold ofRun
  apply List.filter_eq_self.mpr
  intro r member
  simp [named r member]

theorem of_run_other (named : ∀ r ∈ rs, r.runId = id) (given : other ≠ []) (apart : other ≠ id) :
    ofRun other rs = [] := by
  unfold ofRun
  apply List.filter_eq_nil_iff.mpr
  intro r member
  simp [named r member, given, Ne.symm apart]

end Result

/-- A place at the compilation of a path. The first to come compiles; the others wait for it. -/
structure Seat where
  ticket : Nat
  leads : Bool
deriving Repr, DecidableEq

/-- What a program asks of what all programs share. -/
inductive Request where
  | lookup (path : Text)
  | join (path : Text)
  | keep (path : Text) (script : Script)
  /-- Ends a compilation and hands its outcome to all that wait. -/
  | leave (ticket : Nat) (outcome : Except Breakdown Script)
  | await (ticket : Nat)
  | record (result : Result)
  | gather

/-- What a request is answered with. -/
abbrev Request.Answer : Request → Type
  | lookup _ => Option Script
  | join _ => Seat
  | await _ => Except Breakdown Script
  | gather => List Result
  | keep .. | leave .. | record _ => Unit

/-- A program between two requests: it has an outcome, or goes on with an answer. -/
inductive Asking (α : Type) where
  | done (outcome : α)
  | ask (request : Request) (next : request.Answer → Asking α)

namespace Asking

variable {α β : Type}

def bind : Asking α → (α → Asking β) → Asking β
  | done a, f => f a
  | ask q next, f => .ask q fun a => (next a).bind f

end Asking

/-- A compilation, and what it has come to once it has ended. -/
structure Flight where
  path : Text
  outcome : Option (Except Breakdown Script)

structure Commons where
  library : Library
  flights : List Flight
  results : List Result

namespace Commons

def paths (c : Commons) : List Text := c.flights.map Flight.path

def ended (fs : List Flight) (ticket : Nat) (outcome : Except Breakdown Script) : List Flight :=
  fs.modify ticket fun f => ⟨f.path, some outcome⟩

/-- The answer to a request, in one step. Who awaits a compilation under way is not answered. -/
def answer? (c : Commons) : (q : Request) → Option (q.Answer × Commons)
  | .lookup path => some (c.library.get? path, c)
  | .join path =>
      match c.flights.findIdx? fun f => f.path == path && f.outcome.isNone with
      | some ticket => some (⟨ticket, false⟩, c)
      | none => some (⟨c.flights.length, true⟩, { c with flights := c.flights ++ [⟨path, none⟩] })
  | .keep path script => some ((), { c with library := c.library.insert path script })
  | .leave ticket outcome =>
      some ((), { c with flights := ended c.flights ticket outcome })
  | .await ticket => (c.flights[ticket]?.bind Flight.outcome).map fun outcome => (outcome, c)
  | .record result => some ((), { c with results := c.results ++ [result] })
  | .gather => some (c.results, c)

/-- Everything kept and handed out is what the files compile to. -/
structure Honest (own : Text → Except Breakdown Script) (c : Commons) : Prop where
  library : ∀ path script, c.library.get? path = some script → own path = .ok script
  flights : ∀ f ∈ c.flights, ∀ outcome, f.outcome = some outcome → outcome = own f.path

end Commons

namespace Request

variable (own : Text → Except Breakdown Script) (id : Text)

/-- Asking is within the rules, and `K` holds of each answer that the rules allow, with the
compilations and the own results of then. A program that is first at a compilation shall be one that
ends it. -/
def Allows (paths : List Text) (mine : List Result) :
    (q : Request) → (ends : Nat → q.Answer → Prop) →
      (K : q.Answer → List Text → List Result → Prop) → Prop
  | .lookup path, _, K =>
      K none paths mine ∧ ∀ script, own path = .ok script → K (some script) paths mine
  | .join path, ends, K =>
      ∀ more ticket leads, paths <+: more → more[ticket]? = some path →
        (leads = true → ends ticket ⟨ticket, leads⟩) ∧ K ⟨ticket, leads⟩ more mine
  | .keep path script, _, K => own path = .ok script ∧ K () paths mine
  | .leave ticket outcome, _, K =>
      (∃ path, paths[ticket]? = some path ∧ outcome = own path) ∧ K () paths mine
  | .await ticket, _, K => ∃ path, paths[ticket]? = some path ∧ K (own path) paths mine
  | .record result, _, K => result.runId = id ∧ K () paths (mine ++ [result])
  | .gather, _, K => ∀ rs, Result.ofRun id rs = mine → K rs paths mine

/-- The request ends a compilation, or `rest` says that it will be ended later, and nobody has to be
waited for before. -/
def Hands (ticket : Nat) (rest : Prop) : Request → Prop
  | .lookup _ | .keep .. => rest
  | .leave other _ => other = ticket
  | _ => False

variable {own id} {paths more : List Text} {mine : List Result} {q : Request}
variable {ends ends' : Nat → q.Answer → Prop} {K K' : q.Answer → List Text → List Result → Prop}

theorem allows_mono (allows : q.Allows own id paths mine ends K)
    (duty : ∀ ticket a, ends ticket a → ends' ticket a) (each : ∀ a ps rs, K a ps rs → K' a ps rs) :
    q.Allows own id paths mine ends' K' := by
  cases q with
  | lookup path =>
      constructor
      · exact each _ _ _ allows.1
      · intro script compiled
        exact each _ _ _ (allows.2 script compiled)
  | join path =>
      intro more ticket leads further known
      obtain ⟨owes, later⟩ := allows more ticket leads further known
      exact ⟨fun first => duty _ _ (owes first), each _ _ _ later⟩
  | keep path script => exact ⟨allows.1, each _ _ _ allows.2⟩
  | leave ticket outcome => exact ⟨allows.1, each _ _ _ allows.2⟩
  | await ticket =>
      obtain ⟨path, known, later⟩ := allows
      exact ⟨path, known, each _ _ _ later⟩
  | record result => exact ⟨allows.1, each _ _ _ allows.2⟩
  | gather =>
      intro rs own
      exact each _ _ _ (allows rs own)

theorem known_further {ticket : Nat} {path : Text} (further : paths <+: more)
    (known : paths[ticket]? = some path) : more[ticket]? = some path := by
  obtain ⟨later, rfl⟩ := further
  rw [List.getElem?_append_left (List.getElem?_eq_some_iff.mp known).1]
  exact known

/-- Compilations that others begin meanwhile change nothing. -/
theorem allows_further (allows : q.Allows own id paths mine ends K) (further : paths <+: more)
    (each : ∀ a ps ps' rs, ps <+: ps' → K a ps rs → K a ps' rs) :
    q.Allows own id more mine ends K := by
  cases q with
  | lookup path =>
      constructor
      · exact each _ _ _ _ further allows.1
      · intro script compiled
        exact each _ _ _ _ further (allows.2 script compiled)
  | join path =>
      intro still ticket leads later known
      exact allows still ticket leads (further.trans later) known
  | keep path script => exact ⟨allows.1, each _ _ _ _ further allows.2⟩
  | leave ticket outcome =>
      obtain ⟨⟨path, known, same⟩, later⟩ := allows
      exact ⟨⟨path, known_further further known, same⟩, each _ _ _ _ further later⟩
  | await ticket =>
      obtain ⟨path, known, later⟩ := allows
      exact ⟨path, known_further further known, each _ _ _ _ further later⟩
  | record result => exact ⟨allows.1, each _ _ _ _ further allows.2⟩
  | gather =>
      intro rs own
      exact each _ _ _ _ further (allows rs own)

end Request

namespace Asking

variable {α β : Type}

/-- The program ends a compilation without waiting for anybody before. -/
def Owes (ticket : Nat) : Asking α → Prop
  | done _ => False
  | ask q next => q.Hands ticket (∀ a, (next a).Owes ticket)

/-- The program keeps to the rules, and any outcome that it comes to is one of `Post`, with the
results that it has recorded by then. -/
def ComesTo (own : Text → Except Breakdown Script) (id : Text) (Post : List Result → α → Prop) :
    Asking α → List Text → List Result → Prop
  | done a, _, mine => Post mine a
  | ask q next, paths, mine =>
      q.Allows own id paths mine (fun ticket a => (next a).Owes ticket) fun a paths mine =>
        (next a).ComesTo own id Post paths mine

variable {own : Text → Except Breakdown Script} {id : Text} {Post : List Result → α → Prop}

theorem owes_bind {ticket : Nat} {program : Asking α} (owes : program.Owes ticket)
    (f : α → Asking β) : (program.bind f).Owes ticket := by
  induction program with
  | done a => exact owes.elim
  | ask q next ih =>
      cases q with
      | lookup path => exact fun a => ih a (owes a)
      | keep path script => exact fun a => ih a (owes a)
      | leave other outcome => exact owes
      | _ => exact owes.elim

theorem comes_further {program : Asking α} {paths more : List Text} {mine : List Result}
    (comes : program.ComesTo own id Post paths mine) (further : paths <+: more) :
    program.ComesTo own id Post more mine := by
  induction program generalizing paths more mine with
  | done a => exact comes
  | ask q next ih => exact Request.allows_further comes further fun a _ _ _ on held => ih a held on

theorem comes_bind {Mid : List Result → α → Prop} {Post : List Result → β → Prop}
    {program : Asking α} {f : α → Asking β} {paths : List Text} {mine : List Result}
    (first : program.ComesTo own id Mid paths mine)
    (then' : ∀ paths mine a, Mid mine a → (f a).ComesTo own id Post paths mine) :
    (program.bind f).ComesTo own id Post paths mine := by
  induction program generalizing paths mine with
  | done a => exact then' paths mine a first
  | ask q next ih =>
      refine Request.allows_mono first ?_ ?_
      · intro ticket a owes
        exact owes_bind owes f
      · intro a ps rs held
        exact ih a held

theorem comes_mono {Post Post' : List Result → α → Prop} {program : Asking α} {paths : List Text}
    {mine : List Result} (comes : program.ComesTo own id Post paths mine)
    (weaker : ∀ rs a, Post rs a → Post' rs a) : program.ComesTo own id Post' paths mine := by
  induction program generalizing paths mine with
  | done a => exact weaker _ _ comes
  | ask q next ih =>
      refine Request.allows_mono comes (fun _ _ owes => owes) ?_
      intro a ps rs held
      exact ih a held

/-- Two things that a program comes to have an outcome in common: one with answers that the rules
allow, such as those of a memory that nobody else writes to. -/
theorem comes_both {Post Post' : List Result → α → Prop} {program : Asking α} {paths : List Text}
    {mine : List Result} (alone : Result.ofRun id mine = mine)
    (one : program.ComesTo own id Post paths mine)
    (other : program.ComesTo own id Post' paths mine) : ∃ rs a, Post rs a ∧ Post' rs a := by
  induction program generalizing paths mine with
  | done a => exact ⟨mine, a, one, other⟩
  | ask q next ih =>
      cases q with
      | lookup path => exact ih none alone one.1 other.1
      | join path =>
          have known : (paths ++ [path])[paths.length]? = some path := by simp
          have further : paths <+: paths ++ [path] := List.prefix_append paths [path]
          exact ih ⟨paths.length, true⟩ alone (one _ _ _ further known).2
            (other _ _ _ further known).2
      | keep path script => exact ih () alone one.2 other.2
      | leave ticket outcome => exact ih () alone one.2 other.2
      | await ticket =>
          obtain ⟨path, known, onward⟩ := one
          obtain ⟨path', known', onward'⟩ := other
          rw [known] at known'
          cases known'
          exact ih (own path) alone onward onward'
      | record result =>
          apply ih () ?_ one.2 other.2
          rw [Result.of_run_append, alone,
            Result.of_run_own (List.forall_mem_singleton.mpr one.1)]
      | gather => exact ih mine alone (one mine alone) (other mine alone)

end Asking

namespace Commons

variable {own : Text → Except Breakdown Script} {id : Text} {c c' : Commons} {q : Request}
variable {a : q.Answer} {ends : Nat → q.Answer → Prop}
variable {K : q.Answer → List Text → List Result → Prop}

theorem ended_paths (fs : List Flight) (ticket : Nat) (outcome : Except Breakdown Script) :
    (ended fs ticket outcome).map Flight.path = fs.map Flight.path := by
  apply List.ext_getElem?
  intro i
  unfold ended
  rw [List.getElem?_map, List.getElem?_map, List.getElem?_modify]
  by_cases here : ticket = i
  · simp [here, Function.comp_def]
  · simp [here]

theorem ended_cases {fs : List Flight} {ticket i : Nat} {outcome : Except Breakdown Script}
    {f : Flight} (found : (ended fs ticket outcome)[i]? = some f) :
    (ticket = i ∧ ∃ g, fs[i]? = some g ∧ f = ⟨g.path, some outcome⟩) ∨
      ticket ≠ i ∧ fs[i]? = some f := by
  unfold ended at found
  rw [List.getElem?_modify] at found
  by_cases here : ticket = i
  · simp only [here, ↓reduceIte, Option.map_eq_map] at found
    obtain ⟨g, there, rfl⟩ := Option.map_eq_some_iff.mp found
    exact .inl ⟨here, g, there, rfl⟩
  · right
    constructor
    · exact here
    · simpa [here] using found

/-- Who joins either waits for a compilation of the path or begins one. -/
theorem join_cases {path : Text} {seat : Seat} (joined : c.answer? (.join path) = some (seat, c')) :
    (c' = c ∧ seat.leads = false ∧ c.paths[seat.ticket]? = some path) ∨
      seat = ⟨c.flights.length, true⟩ ∧
        c' = { c with flights := c.flights ++ [⟨path, none⟩] } := by
  unfold answer? at joined
  cases found : c.flights.findIdx? fun f => f.path == path && f.outcome.isNone with
  | some ticket =>
      simp only [found, Option.some.injEq, Prod.mk.injEq] at joined
      obtain ⟨rfl, rfl⟩ := joined
      obtain ⟨inside, under, -⟩ := List.findIdx?_eq_some_iff_getElem.mp found
      simp only [Bool.and_eq_true, beq_iff_eq] at under
      left
      refine ⟨rfl, rfl, ?_⟩
      unfold paths
      rw [List.getElem?_map, List.getElem?_eq_getElem inside, Option.map_some, under.1]
  | none =>
      simp only [found, Option.some.injEq, Prod.mk.injEq] at joined
      obtain ⟨rfl, rfl⟩ := joined
      exact .inr ⟨rfl, rfl⟩

section Begun

variable (c) (path : Text)

theorem begun_further : c.paths <+: paths { c with flights := c.flights ++ [⟨path, none⟩] } := by
  unfold paths
  rw [List.map_append]
  exact List.prefix_append _ _

theorem begun_known :
    (paths { c with flights := c.flights ++ [⟨path, none⟩] })[c.flights.length]? = some path := by
  simp [paths]

end Begun

theorem answer_honest {mine : List Result} (honest : c.Honest own)
    (allows : q.Allows own id c.paths mine ends K) (answered : c.answer? q = some (a, c')) :
    c'.Honest own := by
  cases q with
  | join path =>
      rcases join_cases answered with ⟨rfl, -, -⟩ | ⟨-, rfl⟩
      · exact honest
      · refine ⟨honest.library, ?_⟩
        intro f member outcome came
        rcases List.mem_append.mp member with before | new
        · exact honest.flights f before outcome came
        · rw [List.mem_singleton.mp new] at came
          cases came
  | keep path script =>
      cases answered
      refine ⟨?_, honest.flights⟩
      intro p x kept
      -- What was kept before stays; the new script is what its file compiles to.
      rw [Library.get_insert, Option.or_eq_some_iff] at kept
      rcases kept with before | ⟨-, new⟩
      · exact honest.library p x before
      · by_cases same : path = p
        · rw [if_pos same] at new
          cases new
          exact same ▸ allows.1
        · rw [if_neg same] at new
          cases new
  | leave ticket outcome =>
      cases answered
      obtain ⟨⟨path, known, rfl⟩, -⟩ := allows
      refine ⟨honest.library, ?_⟩
      intro f member outcome came
      obtain ⟨i, found⟩ := List.mem_iff_getElem?.mp member
      rcases ended_cases found with ⟨rfl, g, there, rfl⟩ | ⟨-, there⟩
      · cases came
        rw [paths, List.getElem?_map, there] at known
        rw [Option.some.inj known]
      · exact honest.flights f (List.mem_of_getElem? there) outcome came
  | await ticket =>
      obtain ⟨outcome, -, same⟩ := Option.map_eq_some_iff.mp answered
      cases same
      exact honest
  | _ =>
      cases answered
      exact ⟨honest.library, honest.flights⟩

theorem answer_further (answered : c.answer? q = some (a, c')) : c.paths <+: c'.paths := by
  cases q with
  | join path =>
      rcases join_cases answered with ⟨rfl, -, -⟩ | ⟨-, rfl⟩
      · exact List.prefix_rfl
      · exact c.begun_further path
  | leave ticket outcome =>
      cases answered
      unfold paths
      simp only [ended_paths]
      exact List.prefix_rfl
  | await ticket =>
      obtain ⟨outcome, -, same⟩ := Option.map_eq_some_iff.mp answered
      cases same
      exact List.prefix_rfl
  | _ =>
      cases answered
      exact List.prefix_rfl

theorem answer_allowed (honest : c.Honest own)
    (allows : q.Allows own id c.paths (Result.ofRun id c.results) ends K)
    (answered : c.answer? q = some (a, c')) : K a c'.paths (Result.ofRun id c'.results) := by
  cases q with
  | lookup path =>
      cases answered
      cases kept : c.library.get? path with
      | none => exact allows.1
      | some script => exact allows.2 script (honest.library path script kept)
  | join path =>
      rcases join_cases answered with ⟨rfl, -, known⟩ | ⟨rfl, rfl⟩
      · exact (allows _ _ _ List.prefix_rfl known).2
      · exact (allows _ _ true (c.begun_further path) (c.begun_known path)).2
  | keep path script =>
      cases answered
      exact allows.2
  | leave ticket outcome =>
      cases answered
      have later := allows.2
      unfold paths at later ⊢
      rw [ended_paths]
      exact later
  | await ticket =>
      obtain ⟨outcome, came, same⟩ := Option.map_eq_some_iff.mp answered
      cases same
      obtain ⟨path, known, later⟩ := allows
      -- What a compilation has handed out is what the file compiles to, which the rules allow.
      obtain ⟨f, there, out⟩ := Option.bind_eq_some_iff.mp came
      rw [paths, List.getElem?_map, there] at known
      have handed := honest.flights f (List.mem_of_getElem? there) _ out
      rw [Option.some.inj known] at handed
      exact handed ▸ later
  | record result =>
      cases answered
      obtain ⟨named, later⟩ := allows
      rw [Result.of_run_append, Result.of_run_own (List.forall_mem_singleton.mpr named)]
      exact later
  | gather =>
      cases answered
      exact allows _ rfl

theorem answer_apart {mine : List Result} (allows : q.Allows own id c.paths mine ends K)
    (answered : c.answer? q = some (a, c')) {other : Text} (given : other ≠ []) (apart : other ≠ id) :
    Result.ofRun other c'.results = Result.ofRun other c.results := by
  cases q with
  | join path =>
      rcases join_cases answered with ⟨rfl, -, -⟩ | ⟨-, rfl⟩
      · rfl
      · rfl
  | await ticket =>
      obtain ⟨outcome, -, same⟩ := Option.map_eq_some_iff.mp answered
      cases same
      rfl
  | record result =>
      cases answered
      rw [Result.of_run_append,
        Result.of_run_other (List.forall_mem_singleton.mpr allows.1) given apart, List.append_nil]
  | _ =>
      cases answered
      rfl

/-- A compilation under way was so before, and has not just been ended, or the answer puts the
program in charge of it. -/
theorem answer_open {mine : List Result} (allows : q.Allows own id c.paths mine ends K)
    (answered : c.answer? q = some (a, c')) {ticket : Nat} {f : Flight}
    (there : c'.flights[ticket]? = some f) (under : f.outcome = none) :
    (c.flights[ticket]? = some f ∧ ∀ outcome, q ≠ .leave ticket outcome) ∨ ends ticket a := by
  cases q with
  | join path =>
      rcases join_cases answered with ⟨rfl, -, -⟩ | ⟨rfl, rfl⟩
      · exact .inl ⟨there, nofun⟩
      · rcases Nat.lt_or_ge ticket c.flights.length with before | new
        · rw [List.getElem?_append_left before] at there
          exact .inl ⟨there, nofun⟩
        · have last : ticket = c.flights.length := by
            have inside := (List.getElem?_eq_some_iff.mp there).1
            rw [List.length_append, List.length_singleton] at inside
            omega
          subst last
          exact .inr ((allows _ _ true (c.begun_further path) (c.begun_known path)).1 rfl)
  | leave other outcome =>
      cases answered
      rcases ended_cases there with ⟨-, g, -, rfl⟩ | ⟨apart, before⟩
      · cases under
      · left
        refine ⟨before, ?_⟩
        rintro _ ⟨⟩
        exact apart rfl
  | await other =>
      obtain ⟨outcome, -, same⟩ := Option.map_eq_some_iff.mp answered
      cases same
      exact .inl ⟨there, nofun⟩
  | _ =>
      cases answered
      exact .inl ⟨there, nofun⟩

theorem answer_none {mine : List Result} (allows : q.Allows own id c.paths mine ends K)
    (blocked : c.answer? q = none) :
    ∃ (ticket : Nat) (f : Flight), c.flights[ticket]? = some f ∧ f.outcome = none := by
  cases q with
  | join path =>
      unfold answer? at blocked
      cases found : c.flights.findIdx? fun f => f.path == path && f.outcome.isNone with
      | some ticket => simp only [found, reduceCtorEq] at blocked
      | none => simp only [found, reduceCtorEq] at blocked
  | await ticket =>
      obtain ⟨path, known, -⟩ := allows
      rw [paths, List.getElem?_map] at known
      obtain ⟨f, there, -⟩ := Option.map_eq_some_iff.mp known
      refine ⟨ticket, f, there, ?_⟩
      simpa [answer?, there] using blocked
  | _ => cases blocked

end Commons

namespace Request

variable {q : Request} {ticket : Nat} {rest : Prop}

theorem hands_answered (hands : q.Hands ticket rest) (c : Commons) :
    ∃ a c', c.answer? q = some (a, c') := by
  cases q with
  | lookup path => exact ⟨_, _, rfl⟩
  | keep path script => exact ⟨_, _, rfl⟩
  | leave other outcome => exact ⟨_, _, rfl⟩
  | _ => exact hands.elim

theorem hands_rest (hands : q.Hands ticket rest) (other : ∀ outcome, q ≠ .leave ticket outcome) :
    rest := by
  cases q with
  | lookup path => exact hands
  | keep path script => exact hands
  | leave ended outcome => exact absurd (congrArg (Request.leave · outcome) hands) (other outcome)
  | _ => exact hands.elim

end Request
end DeviceScript
