import DeviceScript.Command.Dispatch
import DeviceScript.Proofs.Data.Sequence
import Mathlib.Algebra.BigOperators.Group.List.Basic
import Mathlib.Algebra.GroupWithZero.Nat

/-!
Reports and the exit status. What the statistics count, what each form of a report says of a run and
whether the command fails all come from the results and the faults of the runs, and none says
otherwise than another.
-/

namespace DeviceScript

open Text

theorem joined_shown (separator : Text) {part : Text} {parts : List Text} (member : part ∈ parts) :
    part <:+: joinWith separator parts := by
  induction parts with
  | nil => cases member
  | cons first rest ih =>
      cases rest with
      | nil =>
          rw [List.mem_singleton.mp member]
          exact List.infix_rfl
      | cons next others =>
          rcases List.mem_cons.mp member with rfl | later
          · exact ((List.prefix_append _ separator).trans (List.prefix_append _ _)).isInfix
          · exact (ih later).trans (List.suffix_append _ _).isInfix

namespace FinishedRun

def passedChecks (r : FinishedRun) : Nat := r.results.countP fun x => x.outcome == .pass

def failedChecks (r : FinishedRun) : Nat := r.results.countP fun x => x.outcome == .fail

/-- Every result is a check or information. -/
def Plain (r : FinishedRun) : Prop :=
  ∀ x ∈ r.results, x.outcome = .pass ∨ x.outcome = .fail ∨ x.outcome = .info

theorem passed_iff (r : FinishedRun) : r.passed = true ↔ r.fault = none ∧ r.failedChecks = 0 := by
  simp [passed, Result.tally, failedChecks]

end FinishedRun

namespace RunStats

theorem fold_add (s : RunStats) (rs : List FinishedRun) :
    (rs.foldl add s).runs = s.runs + rs.length ∧
    (rs.foldl add s).passed = s.passed + rs.countP FinishedRun.passed ∧
    (rs.foldl add s).failed = s.failed + rs.countP (fun r => !r.passed) ∧
    (rs.foldl add s).checks =
      s.checks + ((rs.map fun r => r.passedChecks + r.failedChecks).sum : Nat) ∧
    (rs.foldl add s).checksFailed =
      s.checksFailed + ((rs.map FinishedRun.failedChecks).sum : Nat) := by
  induction rs generalizing s with
  | nil => simp
  | cons r rs ih =>
      obtain ⟨runs, passed, failed, checks, checksFailed⟩ := ih (s.add r)
      have tally : Result.tally r.results = (r.passedChecks, r.failedChecks) := rfl
      rw [List.foldl_cons, runs, passed, failed, checks, checksFailed]
      simp only [add, tally, List.length_cons, List.countP_cons, List.map_cons, List.sum_cons]
      cases r.passed <;> simp <;> omega

variable (rs : List FinishedRun)

theorem of_runs : (of rs).runs = rs.length := by simpa [of, zero] using (fold_add zero rs).1

theorem of_passed : (of rs).passed = rs.countP FinishedRun.passed := by
  simpa [of, zero] using (fold_add zero rs).2.1

theorem of_failed : (of rs).failed = rs.countP fun r => !r.passed := by
  simpa [of, zero] using (fold_add zero rs).2.2.1

theorem of_checks :
    (of rs).checks = ((rs.map fun r => r.passedChecks + r.failedChecks).sum : Nat) := by
  have counted := (fold_add zero rs).2.2.2.1
  rwa [show zero.checks = 0 from rfl, Int.zero_add] at counted

theorem of_checks_failed :
    (of rs).checksFailed = ((rs.map FinishedRun.failedChecks).sum : Nat) := by
  have counted := (fold_add zero rs).2.2.2.2
  rwa [show zero.checksFailed = 0 from rfl, Int.zero_add] at counted

theorem passed_add_failed : (of rs).passed + (of rs).failed = (of rs).runs := by
  rw [of_passed, of_failed, of_runs, ← Int.natCast_add,
    List.length_eq_countP_add_countP FinishedRun.passed]
  simp

theorem failed_pos_iff : 0 < (of rs).failed ↔ rs.all FinishedRun.passed = false := by
  rw [of_failed]
  simp [List.countP_pos_iff]

end RunStats

namespace JsonReport

def Doc.field? (key : Text) : Doc → Option Doc
  | .object fields => (fields.find? fun field => field.1 == key).map Prod.snd
  | _ => none

def Doc.isTrue : Doc → Bool
  | .bool b => b
  | _ => false

/-- The entry of a run in the document. -/
structure Tells (r : FinishedRun) (entry : Doc) : Prop where
  id : entry.field? "id" = some (.text r.id)
  script : entry.field? "script" = some (.text r.script)
  passed : entry.field? "passed" = some (.bool r.passed)

theorem of_run_tells (r : FinishedRun) : Tells r (ofRun r) := by
  constructor <;> rfl

/-- The document has an entry for each run, in their order, and the totals of the statistics. -/
structure Document (rs : List FinishedRun) (st : RunStats) (entries : List Doc) (d : Doc) :
    Prop where
  runs : d.field? "runs" = some (.list entries)
  told : List.Forall₂ Tells rs entries
  total : d.field? "total" = some (.int st.runs)
  passed : d.field? "passed" = some (.int st.passed)
  failed : d.field? "failed" = some (.int st.failed)
  checks : d.field? "checks" = some (.int st.checks)
  checksFailed : d.field? "checks_failed" = some (.int st.checksFailed)

theorem document_told (rs : List FinishedRun) (st : RunStats) :
    Document rs st (rs.map ofRun) (document rs st) where
  runs := rfl
  told := List.forall₂_map_right_iff.mpr (List.forall₂_same.mpr fun r _ => of_run_tells r)
  total := rfl
  passed := rfl
  failed := rfl
  checks := rfl
  checksFailed := rfl

theorem told_passed {rs : List FinishedRun} {entries : List Doc}
    (told : List.Forall₂ Tells rs entries) :
    entries.countP (fun entry => (entry.field? "passed").any Doc.isTrue) =
      rs.countP FinishedRun.passed := by
  induction told with
  | nil => rfl
  | cons first _ ih => simp [List.countP_cons, first.passed, Doc.isTrue, ih]

def Doc.written (depth : Nat) (key : Text) (value : Doc) : Text :=
  string key ++ ": " ++ value.render depth

theorem field_line (depth : Nat) {fields : List (Text × Doc)} {field : Text × Doc}
    (member : field ∈ fields) :
    ∃ line ∈ renderFields depth fields,
      field.2.written depth field.1 <:+: line := by
  induction fields with
  | nil => cases member
  | cons first rest ih =>
      unfold renderFields
      rcases List.mem_cons.mp member with rfl | later
      · refine ⟨_, List.mem_cons_self, ?_⟩
        rw [List.append_assoc, List.append_assoc, ← List.append_assoc (string _)]
        exact (List.suffix_append _ _).isInfix
      · obtain ⟨line, among, shown⟩ := ih later
        exact ⟨line, List.mem_cons_of_mem _ among, shown⟩

theorem item_line (depth : Nat) {items : List Doc} {item : Doc} (member : item ∈ items) :
    ∃ line ∈ renderItems depth items, item.render depth <:+: line := by
  induction items with
  | nil => cases member
  | cons first rest ih =>
      unfold renderItems
      rcases List.mem_cons.mp member with rfl | later
      · exact ⟨_, List.mem_cons_self, (List.suffix_append _ _).isInfix⟩
      · obtain ⟨line, among, shown⟩ := ih later
        exact ⟨line, List.mem_cons_of_mem _ among, shown⟩

/-- What stands between brackets, in lines, is written out. -/
theorem bracketed_shown {part line separator opening indent closing : Text} {lines : List Text}
    (shown : part <:+: line) (among : line ∈ lines) :
    part <:+: opening ++ joinWith separator lines ++ indent ++ closing := by
  have inside := shown.trans (joined_shown separator among)
  rw [List.append_assoc]
  exact inside.trans (List.infix_append opening _ _)

theorem field_printed {d value : Doc} {key : Text} (found : d.field? key = some value)
    (depth : Nat) : value.written (depth + 1) key <:+: d.render depth := by
  cases d with
  | object fields =>
      obtain ⟨field, first, rfl⟩ := Option.map_eq_some_iff.mp found
      have named : field.1 = key := by simpa using List.find?_some first
      have member := List.mem_of_find?_eq_some first
      obtain ⟨line, among, shown⟩ := field_line (depth + 1) member
      rw [named] at shown
      cases fields with
      | nil => cases member
      | cons other rest => exact bracketed_shown shown among
  | _ => cases found

theorem item_printed {items : List Doc} {item : Doc} (member : item ∈ items) (depth : Nat) :
    item.render (depth + 1) <:+: (Doc.list items).render depth := by
  obtain ⟨line, among, shown⟩ := item_line (depth + 1) member
  cases items with
  | nil => cases member
  | cons first rest => exact bracketed_shown shown among

/-- A text is that of a document: all fields of the document and of its entries are written out. -/
structure Prints (entries : List Doc) (d : Doc) (t : Text) : Prop where
  whole : t = d.render 0 ++ ofString "\n"
  fields : ∀ key value, d.field? key = some value → value.written 1 key <:+: t
  entries : ∀ entry ∈ entries, ∀ key value, entry.field? key = some value →
    value.written 3 key <:+: t

theorem document_printed {entries : List Doc} {d : Doc}
    (runs : d.field? "runs" = some (.list entries)) :
    Prints entries d (d.render 0 ++ ofString "\n") where
  whole := rfl
  fields key value found := (field_printed found 0).trans (List.prefix_append _ _).isInfix
  entries entry member key value found := by
    have listed : (Doc.list entries).render 1 <:+: d.render 0 :=
      List.IsInfix.trans (List.suffix_append _ _).isInfix (field_printed runs 0)
    have shown := (field_printed found 2).trans ((item_printed member 1).trans listed)
    exact shown.trans (List.prefix_append _ _).isInfix

end JsonReport

namespace JUnitReport

theorem case_of_some (script : Text) {x : Result} (check : x.outcome ≠ .info) :
    ∃ c, caseOf? script x = some c ∧
      c.trouble = if x.outcome = .fail then some (.failure x.detail) else none := by
  exact ⟨_, if_neg check, rfl⟩

theorem case_of_none {script : Text} {x : Result} (info : x.outcome = .info) :
    caseOf? script x = none := if_pos info

/-- The suite says of a run what its results and its fault say. -/
structure Suite.Tells (r : FinishedRun) (s : Suite) : Prop where
  tests : s.tests = r.passedChecks + r.failedChecks + s.errors
  failures : s.failures = r.failedChecks
  errors : s.errors = if r.fault.isSome then 1 else 0
  passed : s.failures + s.errors = 0 ↔ r.passed = true

section Cases

variable (script name : Text) (time : Binary64) (more : List Case) (xs : List Result)

theorem checks_failures :
    (⟨name, time, xs.filterMap (caseOf? script) ++ more⟩ : Suite).failures =
      (xs.countP fun x => x.outcome == .fail) + (⟨name, time, more⟩ : Suite).failures := by
  induction xs with
  | nil => simp
  | cons x xs ih =>
      unfold Suite.failures at ih ⊢
      by_cases info : x.outcome = .info
      · rw [List.filterMap_cons_none (case_of_none info), ih]
        simp [info]
      · obtain ⟨c, case, trouble⟩ := case_of_some script info
        rw [List.filterMap_cons_some case, List.cons_append, List.countP_cons, ih,
          List.countP_cons, trouble]
        by_cases fail : x.outcome = .fail
        · simp only [fail, ↓reduceIte, beq_self_eq_true]
          omega
        · simp [fail]

theorem checks_errors :
    (⟨name, time, xs.filterMap (caseOf? script) ++ more⟩ : Suite).errors =
      (⟨name, time, more⟩ : Suite).errors := by
  induction xs with
  | nil => simp
  | cons x xs ih =>
      unfold Suite.errors at ih ⊢
      by_cases info : x.outcome = .info
      · rw [List.filterMap_cons_none (case_of_none info), ih]
      · obtain ⟨c, case, trouble⟩ := case_of_some script info
        rw [List.filterMap_cons_some case, List.cons_append, List.countP_cons, ih, trouble]
        by_cases fail : x.outcome = .fail <;> simp [fail]

end Cases

theorem checks_cases {script : Text} {xs : List Result}
    (plain : ∀ x ∈ xs, x.outcome = .pass ∨ x.outcome = .fail ∨ x.outcome = .info) :
    (xs.filterMap (caseOf? script)).length =
      xs.countP (fun x => x.outcome == .pass) + xs.countP fun x => x.outcome == .fail := by
  induction xs with
  | nil => rfl
  | cons x xs ih =>
      have rest := ih fun y member => plain y (List.mem_cons_of_mem x member)
      rcases plain x List.mem_cons_self with pass | fail | info
      · obtain ⟨c, case, -⟩ := case_of_some script (x := x) (by simp [pass])
        rw [List.filterMap_cons_some case, List.length_cons, rest]
        simp [pass]
        omega
      · obtain ⟨c, case, -⟩ := case_of_some script (x := x) (by simp [fail])
        rw [List.filterMap_cons_some case, List.length_cons, rest]
        simp [fail]
        omega
      · rw [List.filterMap_cons_none (case_of_none info), rest]
        simp [info]

theorem suite_tells {r : FinishedRun} (plain : r.Plain) : (Suite.ofRun r).Tells r := by
  have failures : (Suite.ofRun r).failures = r.failedChecks := by
    unfold Suite.ofRun
    rw [checks_failures]
    cases broke : r.fault <;> simp [runCase?, broke, Suite.failures, FinishedRun.failedChecks]
  have errors : (Suite.ofRun r).errors = if r.fault.isSome then 1 else 0 := by
    unfold Suite.ofRun
    rw [checks_errors]
    cases broke : r.fault <;> simp [runCase?, broke, Suite.errors]
  constructor
  · rw [errors]
    unfold Suite.tests Suite.ofRun
    rw [List.length_append, checks_cases plain]
    cases broke : r.fault <;>
      simp [runCase?, broke, FinishedRun.passedChecks, FinishedRun.failedChecks]
  · exact failures
  · exact errors
  · rw [failures, errors, r.passed_iff]
    cases broke : r.fault <;> simp

theorem suites_add_up {rs : List FinishedRun} (plain : ∀ r ∈ rs, r.Plain) :
    (rs.map fun r => (Suite.ofRun r).failures).sum = (rs.map FinishedRun.failedChecks).sum ∧
    (rs.map fun r => (Suite.ofRun r).tests - (Suite.ofRun r).errors).sum =
      (rs.map fun r => r.passedChecks + r.failedChecks).sum := by
  constructor
  · refine congrArg List.sum (List.map_congr_left fun r member => ?_)
    exact (suite_tells (plain r member)).failures
  · refine congrArg List.sum (List.map_congr_left fun r member => ?_)
    rw [(suite_tells (plain r member)).tests, Nat.add_sub_cancel]

/-- A text is that of the suites of runs: what each of them counts is written out. -/
structure Prints (rs : List FinishedRun) (t : Text) : Prop where
  whole : t = "<?xml version=\"1.0\" encoding=\"UTF-8\"?>\n" ++
    element 0 "testsuites" [] (rs.map fun r => (Suite.ofRun r).render) ++ "\n"
  counts : ∀ r ∈ rs,
    attributes [("name", (Suite.ofRun r).name), ("tests", ofNat (Suite.ofRun r).tests),
      ("failures", ofNat (Suite.ofRun r).failures), ("errors", ofNat (Suite.ofRun r).errors),
      ("time", (Suite.ofRun r).time.general)] <:+: t

theorem attributes_printed (depth : Nat) (name : Text) (as : List (Text × Text))
    (children : List Text) : attributes as <:+: element depth name as children := by
  have front {p t u : Text} (inside : p <:+: t) : p <:+: u ++ t :=
    inside.trans (List.suffix_append u t).isInfix
  unfold element
  simp only [List.append_assoc]
  exact front (front (front (List.prefix_append _ _).isInfix))

theorem child_printed {child : Text} {children : List Text} (member : child ∈ children)
    (depth : Nat) (name : Text) (as : List (Text × Text)) :
    child <:+: element depth name as children := by
  have among : child <:+: children.flatMap (newline :: ·) := by
    obtain ⟨front, rest, rfl⟩ := List.append_of_mem member
    rw [List.flatMap_append, List.flatMap_cons]
    exact ⟨front.flatMap (newline :: ·) ++ [newline], rest.flatMap (newline :: ·), by simp⟩
  unfold element
  simp only [List.append_assoc]
  rw [← List.append_assoc, ← List.append_assoc, ← List.append_assoc, ← List.append_assoc]
  exact among.trans (List.infix_append' _ _ _)

theorem suites_printed (rs : List FinishedRun) : Prints rs (render rs) where
  whole := rfl
  counts r member := by
    have suite : attributes _ <:+: (Suite.ofRun r).render := attributes_printed 1 "testsuite" _ _
    have among : (Suite.ofRun r).render ∈ rs.map fun r => (Suite.ofRun r).render :=
      List.mem_map.mpr ⟨r, member, rfl⟩
    have listed := child_printed among 0 "testsuites" []
    unfold render
    exact (suite.trans listed).trans (List.infix_append _ _ _)

end JUnitReport

namespace Command

/-- The command comes to its report: what it was asked and prepared with, and the runs that the
report is about. -/
def ComesTo (s : Surroundings) (args : List Text) (format : ReportFormat) (verbose : Bool)
    (runs : List FinishedRun) (bench : Bench) : Prop :=
  ∃ flags config setup missing store,
    runFlags.parseFor 1 args = .ok flags ∧ s.prepare flags = .ok (config, setup) ∧
    policyFor config (flags.text "missing") = .ok missing ∧
    formatFor (flags.text "format") = .ok format ∧ storeFor s.files config = .ok store ∧
    verbose = flags.switch "verbose" ∧
    BenchPlan.runScripts
      { surroundings := s, setup, urls := config.devices, simulate := flags.switch "simulate"
        trace := flags.switch "trace", verbose, missing
        vars := Vars.ofList (flags.assignments "var") } (.new store) flags.rest =
      .ok (runs, bench)

theorem run_ok_iff (s : Surroundings) (args : List Text) (c : Conclusion) :
    run s args = .ok c ↔ ∃ format verbose runs bench,
      ComesTo s args format verbose runs bench ∧
      c = { status := if runs.all FinishedRun.passed then 0 else 1
            output := format.render ⟨verbose, false⟩ runs (RunStats.of runs)
            notes := bench.notes
            files := (bench.store.map fun st => st.save s.files).getD s.files
            paused := bench.clock } := by
  unfold run
  simp only [bind_ok_iff, map_error_ok_iff, Prod.exists, pure, Except.pure, Except.ok.injEq]
  constructor
  · rintro ⟨flags, parsed, config, setup, prepared, missing, chosen, format, formed, store, opened,
      runs, bench, ran, rfl⟩
    exact ⟨format, flags.switch "verbose", runs, bench, ⟨flags, config, setup, missing, store,
      parsed, prepared, chosen, formed, opened, rfl, ran⟩, rfl⟩
  · rintro ⟨format, verbose, runs, bench, ⟨flags, config, setup, missing, store, parsed, prepared,
      chosen, formed, opened, rfl, ran⟩, rfl⟩
    exact ⟨flags, parsed, config, setup, prepared, missing, chosen, format, formed, store, opened,
      runs, bench, ran, rfl⟩

end Command

/-- The statistics of runs, their reports and the exit status agree. Every run has passed or failed;
the JSON document lists the runs in order with a mark of those that passed, as many as the
statistics count, and the JSON form writes it out; the suite of a run has its checks and an error
for its fault, so that it is free of trouble only if the run passed, and the JUnit form writes the
suites out; all suites have the checks and the failed checks that the statistics count; and the
command that ran them fails if and only if some run failed. -/
theorem reports_agree {rs : List FinishedRun} (plain : ∀ r ∈ rs, r.Plain) :
    (RunStats.of rs).passed + (RunStats.of rs).failed = (RunStats.of rs).runs ∧
    (RunStats.of rs).runs = rs.length ∧
    (∃ entries,
      JsonReport.Document rs (RunStats.of rs) entries
        (JsonReport.document rs (RunStats.of rs)) ∧
      (entries.countP fun entry => (entry.field? "passed").any JsonReport.Doc.isTrue) =
        (RunStats.of rs).passed ∧
      ∀ style, JsonReport.Prints entries (JsonReport.document rs (RunStats.of rs))
        (ReportFormat.json.render style rs (RunStats.of rs))) ∧
    (∀ r ∈ rs, (JUnitReport.Suite.ofRun r).Tells r) ∧
    (∀ style, JUnitReport.Prints rs (ReportFormat.junit.render style rs (RunStats.of rs))) ∧
    ((rs.map fun r => (JUnitReport.Suite.ofRun r).failures).sum : Nat) =
      (RunStats.of rs).checksFailed ∧
    ((rs.map fun r => (JUnitReport.Suite.ofRun r).tests - (JUnitReport.Suite.ofRun r).errors).sum :
      Nat) = (RunStats.of rs).checks ∧
    ∀ s args format verbose bench, Command.ComesTo s args format verbose rs bench →
      ∃ c, Command.run s args = .ok c ∧ Command.perform s ("run" :: args) = c ∧
        c.output = format.render ⟨verbose, false⟩ rs (RunStats.of rs) ∧
        (c.status ≠ 0 ↔ 0 < (RunStats.of rs).failed) := by
  obtain ⟨failures, tests⟩ := JUnitReport.suites_add_up plain
  refine ⟨RunStats.passed_add_failed rs, RunStats.of_runs rs,
    ⟨_, JsonReport.document_told rs _, ?_, fun _ => JsonReport.document_printed rfl⟩,
    fun r member => JUnitReport.suite_tells (plain r member),
    fun _ => JUnitReport.suites_printed rs, ?_, ?_, ?_⟩
  · rw [JsonReport.told_passed (JsonReport.document_told rs (RunStats.of rs)).told,
      RunStats.of_passed]
  · rw [failures, RunStats.of_checks_failed]
  · rw [tests, RunStats.of_checks]
  · intro s args format verbose bench comes
    have ran := (Command.run_ok_iff s args _).mpr ⟨format, verbose, rs, bench, comes, rfl⟩
    refine ⟨_, ran, ?_, rfl, ?_⟩
    · have work : Command.perform s ("run" :: args) = .ofExcept s (Command.run s args) := rfl
      rw [work, ran]
      rfl
    · rw [RunStats.failed_pos_iff]
      cases rs.all FinishedRun.passed <;> simp

def noted (line : Int) (outcome : Outcome) : Result :=
  ⟨"1", "boot.dts", line, "expect", "core", outcome, "ready", none⟩

/-- A run that passed, one with two checks that failed, and one that broke off after a check. -/
def mixedRuns : List FinishedRun :=
  [⟨"1", "boot.dts", 2000, none, [noted 1 .info, noted 2 .pass]⟩,
    ⟨"2", "boot.dts", 5000, none, [noted 1 .fail, noted 2 .pass, noted 3 .fail]⟩,
    ⟨"3", "boot.dts", 7000, some (.said "line dropped"), [noted 1 .pass]⟩]

/-- Where nothing but an empty directory is around. -/
def emptyDesk : Surroundings where
  files := .empty "/w"
  network := []
  buildDate := []
  runId n := ofNat (n + 1)
  patience := 5

/-- Two of three runs fail, one of them without a failed check; and a command that is given a script
that does not exist comes to its report and fails. -/
theorem mixed_runs_reported :
    (∀ r ∈ mixedRuns, r.Plain) ∧ (RunStats.of mixedRuns).failed = 2 ∧
    (∃ entries,
      JsonReport.Document mixedRuns (RunStats.of mixedRuns) entries
        (JsonReport.document mixedRuns (RunStats.of mixedRuns)) ∧
      (entries.countP fun entry => (entry.field? "passed").any JsonReport.Doc.isTrue) = 1) ∧
    (mixedRuns.map fun r => (JUnitReport.Suite.ofRun r).failures).sum = 2 ∧
    ∃ format verbose rs bench c,
      Command.ComesTo emptyDesk ["gone.dts"] format verbose rs bench ∧
      Command.run emptyDesk ["gone.dts"] = .ok c ∧ c.status = 1 := by
  have plain : ∀ r ∈ mixedRuns, r.Plain := by
    unfold FinishedRun.Plain
    decide
  have stats : RunStats.of mixedRuns = ⟨3, 1, 2, 5, 2, 14000⟩ := by decide +kernel
  obtain ⟨-, -, ⟨entries, told, marked, -⟩, -, -, failures, -⟩ := reports_agree plain
  refine ⟨plain, by rw [stats], ⟨entries, told, ?_⟩, ?_, ?_⟩
  · rw [stats] at marked
    exact Int.ofNat.inj marked
  · rw [stats] at failures
    exact Int.ofNat.inj failures
  · have status : (Command.run emptyDesk ["gone.dts"]).toOption.map (·.status) = some 1 := by
      decide +kernel
    cases ran : Command.run emptyDesk ["gone.dts"] with
    | error problem => simp [ran, Except.toOption] at status
    | ok c =>
        obtain ⟨format, verbose, rs, bench, comes, -⟩ := (Command.run_ok_iff _ _ c).mp ran
        rw [ran] at status
        exact ⟨format, verbose, rs, bench, c, comes, rfl, Option.some.inj status⟩

end DeviceScript
