import MemoryLimit.Program
import MemoryLimit.Proofs.LimitSearch.Accuracy
import MemoryLimit.Proofs.LimitSearch.InPlace
import MemoryLimit.Proofs.Trial.Sparing

/-!
# How the search of the program ends

The search of the program loads the history, runs its trials, saves the history, and prints the boundary.
If any of these fails up to the saving, nothing is printed and the history file is what it was. After
the saving only the printing is left, which fails if the boundary is too long to be written or the
standard output refuses it.

## Main definitions

* `Executor.Spares` — the trials of a command leave a file alone and print nothing.
* `Program.Unprintable` — why a boundary is not printed.
* `Program.Found` — what a search has done up to the saving.
* `Program.Searched` — what a search that was saved has done.

## Main statements

* `keeps_findLimit` — a search keeps what its trials and reports keep.
* `spares_groupExecutor` — the trials in groups of their own leave other files alone.
* `Program.bench_yields` — what is proved of searches holds of those of the program.
* `Program.searchFor_cases` — how the search of the program ends.
-/
namespace MemoryLimit

open MemoryLimit.Action (Keeps Compositional)
open MemoryLimit.Host (Unobserving Treeless)

variable {σ τ : Type}

/-! ## What a search keeps -/

namespace Action

/-- Actions keep a property one after the other. -/
theorem compositional_keeps (P : σ → Prop) :
    Compositional fun α (_ : Action σ α) x => Keeps P x where
  pure a := .pure a
  liftM x := .liftM x
  bind hfirst hnext := hfirst.bind hnext

theorem keeps_onFirst {α : Type} {P : σ → Prop} {x : Action σ α} (hx : Keeps P x) :
    Keeps (fun s : σ × τ => P s.1) x.onFirst := by
  rintro ⟨s, t⟩ hs
  exact hx s hs

/-- An action on the first part of a state has done there what it does, and nothing else. -/
theorem runOn_of_onFirst {α : Type} {x : Action σ α} {s t : σ × τ} {outcome : Except Failure α}
    (hrun : x.onFirst.runOn s = (outcome, t)) : x.runOn s.1 = (outcome, t.1) ∧ t.2 = s.2 := by
  obtain ⟨s, _⟩ := s
  rw [runOn_onFirst, Prod.mk.injEq] at hrun
  obtain ⟨rfl, rfl⟩ := hrun
  exact ⟨rfl, rfl⟩

end Action

section Searches

variable {bench : Bench σ} {settings : Settings} {history recorded : Option History} {i : Interval}
  {workload : Option RawText} {iterations : Option ℤ} {finding : Finding}

/-- **A search keeps what its trials and reports keep.** -/
theorem keeps_findLimit {P : σ → Prop} (hrun : ∀ limit, Keeps P (bench.run limit))
    (hreport : ∀ event, Keeps P (bench.report event)) :
    Keeps P (findLimit bench settings history i workload iterations) := by
  intro s hs
  have htrial : ∀ point, Keeps (fun s : σ × List Usage => P s.1) (trial bench settings point) := by
    intro point
    refine (Action.keeps_onFirst (hrun _)).bind fun usage => ?_
    exact Keeps.bind (.modify fun _ hs => hs) fun _ => .pure _
  have hsearch := searchLimit_of_compositional bench bench settings history i workload
    (iterations.getD settings.iterations) (Action.compositional_keeps _) htrial
    (fun event => Action.keeps_onFirst (hreport event)) (s, []) hs
  rw [runOn_findLimit_eq]
  cases hstart : (searchLimit bench settings history i workload
    (iterations.getD settings.iterations)).runOn (s, []) with
  | mk outcome ended =>
    obtain ⟨t, trials⟩ := ended
    rw [hstart] at hsearch
    cases outcome with
    | error failure => exact hsearch
    | ok found =>
      obtain ⟨start, boundary⟩ := found
      dsimp only
      split
      · exact hsearch
      · have hend := hreport (.searchFinished boundary trials.length workload) t hsearch
        split
        · rename_i failure u hfailed
          rwa [hfailed] at hend
        · rename_i u hreported
          rwa [hreported] at hend

/-- What a search that ended found: its trials were run on the bench, and the best of them was merged
into the history. -/
theorem findLimit_eq_ok {s t : σ}
    (hrun : (findLimit bench settings history i workload iterations).runOn s =
      (.ok (finding, recorded), t)) :
    (∃ made, Accounted bench made finding.trials) ∧
      finding.best = bestTrial settings finding.trials ∧
      recordBest history workload finding.best = .ok recorded := by
  obtain ⟨⟨outcome, ⟨u, made⟩, held⟩, hobserved⟩ : ∃ result,
    (findLimitInPlace bench.observed settings i workload iterations).runOn ((s, []), history) =
      result := ⟨_, rfl⟩
  rw [bench.observed_mirrors.findLimit iterations (s, []), findLimit, Action.runOn_withSecond,
    hobserved] at hrun
  rcases findLimitInPlace_cases hobserved with
    ⟨_, rfl, -⟩ | ⟨start, boundary, ⟨v, runs⟩, trials, hsearch, hended⟩
  · cases hrun
  have haccounted : Accounted bench runs trials := (keepsOr_searchLimit bench settings history i
    workload (iterations.getD settings.iterations) ((s, []), []) ⟨by simp, rfl⟩).1 _ _ hsearch
  rcases hended with ⟨_, rfl, -⟩ | ⟨hrecord, reported, -, rfl⟩
  · cases hrun
  · cases reported with
    | error _ => cases hrun
    | ok _ =>
      cases hrun
      exact ⟨⟨runs, haccounted⟩, rfl, hrecord⟩

/-- A trial that a search keeps was run. -/
theorem Accounted.exists_run {made : List Attempt} {trials : List Usage}
    (h : Accounted bench made trials) {usage : Usage} (husage : usage ∈ trials) :
    ∃ limit s t, (bench.run limit).runOn s = (.ok usage, t) := by
  have hmade : Except.ok usage ∈ made.map Prod.snd := by
    rw [h.outcomes_eq]
    exact List.mem_map_of_mem husage
  obtain ⟨attempt, hattempt, houtcome⟩ := List.mem_map.1 hmade
  obtain ⟨s, t, hrun⟩ := h.made_on attempt hattempt
  exact ⟨attempt.1, s, t, houtcome ▸ hrun⟩

end Searches

/-! ## The steps of the program -/

namespace Host

variable {P : Host → Prop}

/-- Nothing was written to the standard output, and no new kinds of disturbances came up. -/
structure Silent (h t : Host) : Prop where
  output : t.outputLines = h.outputLines
  disturbances : ∀ d ∈ t.disturbances, ∃ e ∈ h.disturbances, d.call = e.call ∧ d.effect = e.effect

/-- A silent host is so whatever becomes of its tree. -/
theorem treeless_silent (h : Host) : Treeless h.Silent where
  called _ _ _ hs := ⟨hs.output, hs.disturbances⟩
  disturbed _ _ _ hs := by
    refine ⟨hs.output, fun d hd => ?_⟩
    obtain ⟨e, he, hcall, heffect⟩ := exists_of_mem_strike hd
    obtain ⟨e', he', hcall', heffect'⟩ := hs.disturbances e he
    exact ⟨e', he', hcall.trans hcall', heffect.trans heffect'⟩
  reported _ _ hs := ⟨hs.output, hs.disturbances⟩
  paused _ _ hs := ⟨hs.output, hs.disturbances⟩
  ticked _ hs := ⟨hs.output, hs.disturbances⟩
  drawn _ _ hs := ⟨hs.output, hs.disturbances⟩
  planted _ _ hs := ⟨hs.output, hs.disturbances⟩

/-- A line is written to the standard output, or a disturbance of it keeps the line out. -/
theorem print_cases {line : String} {h t : Host} {outcome : Except Failure Unit}
    (hrun : (print line).runOn h = (outcome, t)) :
    (outcome = .ok () ∧ t.outputLines = h.outputLines ++ [line] ∨
      ∃ d ∈ h.disturbances, ∃ fault, d.call = .print ∧ d.effect = .fail fault ∧
        outcome = .error (.os fault) ∧ t.outputLines = h.outputLines) ∧
      t.tree = h.tree ∧ t.directory = h.directory := by
  rw [print, pass, bind_assoc, Action.runOn_bind_ok (runOn_disturb .print .empty h)] at hrun
  split at hrun
  · rename_i fault heffect
    obtain ⟨d, hd, hcall, hfail⟩ := exists_of_strike heffect
    cases hrun
    exact ⟨.inr ⟨d, hd, fault, hcall, hfail, rfl, rfl⟩, rfl, rfl⟩
  · cases hrun
    exact ⟨.inl ⟨rfl, rfl⟩, rfl, rfl⟩

/-- Replacing a file keeps what does not depend on the tree. -/
theorem keeps_replaceFile (hP : Treeless P) (target : Path) (text : RawText) :
    Keeps P (replaceFile target text) := by
  have hmove : ∀ source, Keeps P (moveFile source target) := by
    intro source
    refine (keeps_disturb hP.toUnobserving _ _).bind fun effect => ?_
    split
    · exact .throw _
    · exact ((keeps_change (hP.allows _ _)).onFault fun _ => .pure _).bind fun _ => .throw _
    · exact keeps_change (hP.allows _ _)
  refine (keeps_makeDirectories hP.toUnobserving fun _ _ => hP.allows _ _).bind fun _ =>
    Keeps.bind ?_ fun temporary => ?_
  · exact (keeps_pass hP.toUnobserving _ _).bind fun _ => Keeps.get.bind fun _ =>
      Keeps.get.bind fun _ => keeps_tryFresh hP.toUnobserving (fun _ => keeps_change (hP.allows _ _)) _
  · exact ((keeps_fill hP.toUnobserving (hP.allowsWriting temporary) text).bind fun _ =>
      hmove temporary).tryCatch fun failure =>
        (keeps_discard hP.toUnobserving (hP.allows _ _)).bind fun _ => .throw _

end Host

namespace History

variable {P : Host → Prop}

theorem keeps_load (hP : Unobserving P) (path : Path) : Keeps P (load path) := by
  refine Keeps.bind ?_ fun text => ?_
  · have hread : Keeps P (some <$> Host.readText path) := by
      rw [← bind_pure_comp]
      exact (Host.keeps_readText hP path).bind fun _ => .pure _
    refine hread.onFault fun fault => ?_
    split
    · exact .pure _
    · exact .throw _
  · split
    · exact (Host.keeps_report hP _).bind fun _ => .pure _
    · exact (Keeps.liftM _).bind fun _ => (Host.keeps_report hP _).bind fun _ => .pure _

theorem keeps_save (hP : Treeless P) (history : History) (path : Path) :
    Keeps P (history.save path) :=
  (Keeps.liftM _).bind fun _ => (Host.keeps_replaceFile hP path _).bind fun _ =>
    Host.keeps_report hP.toUnobserving _

/-- A history that could not be saved leaves its file as it was. -/
theorem spares_of_save {history : History} {path : Path} {h s t : Host} {failure : Failure}
    (hs : h.Spares (path.placeFrom h.directory) s)
    (hsave : (history.save path).runOn s = (.error failure, t)) :
    h.Spares (path.placeFrom h.directory) t := by
  rw [save] at hsave
  rcases Action.runOn_bind_cases hsave with ⟨_, hrender, -⟩ | ⟨text, u, hrender, hsave⟩
  · exact (Keeps.liftM _).after hrender hs
  have hu := (Keeps.liftM _).after hrender hs
  rcases Action.runOn_bind_cases hsave with ⟨_, hreplace, -⟩ | ⟨_, v, -, hreport⟩
  · exact Host.spares_of_replaceFile hu hreplace
  · cases hreport

end History

/-- The settings are loaded without any change. -/
theorem Settings.keeps_load (P : Host → Prop) (asked : Option Path) : Keeps P (Settings.load asked) := by
  have hread : ∀ p, Keeps P (readDocumentText? p) := by
    intro p
    have hopen : Keeps P (some <$> Host.openText p) := by
      rw [← bind_pure_comp]
      exact (Host.keeps_openText p).bind fun _ => .pure _
    refine hopen.onFault fun fault => ?_
    split
    · exact .pure _
    · exact .throw _
  refine Keeps.get.bind fun h => (Keeps.liftM _).bind fun base => (hread _).bind fun text => ?_
  split
  · exact .pure _
  · split
    · exact .throw _
    · split
      · exact .pure _
      · exact .liftM _

/-- The trials of a command leave the file at a place alone, print nothing and keep the surroundings of
the program, whatever they do otherwise; and what they record are numbers that there are. -/
structure Executor.Spares (execute : Executor τ) (settings : Settings) (command : Command)
    (place : Place) (h : Host) : Prop where
  keeps : ∀ limit, Keeps (fun s => h.Spares place s.1) (execute settings command limit)
  exact : ∀ limit s t usage, (execute settings command limit).runOn s = (.ok usage, t) → usage.Exact

/-- **The trials in groups of their own** leave every file alone that they do not write to. -/
theorem spares_groupExecutor {settings : Settings} {command : Command} {place : Place} {h : Host}
    (havoids : command.Avoids settings h place) :
    groupExecutor.Spares settings command place h where
  keeps limit := Action.keeps_onFirst (keeps_run_spares havoids (.bytes limit))
  exact _ _ _ _ hrun := exact_of_run (Action.runOn_of_onFirst hrun).1

namespace Program

variable {execute : Executor τ} {command : Command} {task : SearchTask} {path : Path} {h : Host}
  {s t : Host × τ}

theorem keeps_report {P : Host → Prop} (hP : Unobserving P) (event : Event) :
    Keeps (fun s : Host × τ => P s.1) (report event) := by
  refine Keeps.get.bind fun s => ?_
  dsimp only
  split
  · exact .throw _
  · exact Action.keeps_onFirst (Host.keeps_report hP event)

/-- The bench of the program is one on which trials between two bounds end with records, if they do
so with its executor: its reports fail for integers that are too long alone. -/
theorem bench_yields {settings : Settings} {low high : ℤ} {Good : Usage → Prop}
    (hends : ∀ limit s, low ≤ limit → limit ≤ high →
      ∃ usage t, (execute settings command limit).runOn s = (.ok usage, t) ∧ Good usage)
    (hlimit : ∀ limit s usage t, (execute settings command limit).runOn s = (.ok usage, t) →
      usage.limit = limit) :
    (bench execute settings command).Yields low high Good where
  run := hends
  limit_eq := hlimit
  report event s hwritable := by
    obtain ⟨host, own⟩ := s
    refine ⟨({ host with journal := host.journal ++ [event] }, own), ?_⟩
    simp only [bench, Program.report, hwritable, Bool.not_true, Bool.and_false, Bool.false_eq_true,
      if_false]
    rfl

/-! ## The boundary is printed -/

/-- Why a boundary is not printed: it is too long to be written, or the standard output refuses it, as
the schedule has it. -/
inductive Unprintable (boundary : ℤ) (h : Host) : Failure → Prop where
  | tooLong {fault : NumeralError} (hline : writeInteger boundary = .error fault) :
    Unprintable boundary h (.invalid (.numeral fault))
  | refused {d : Disturbance} {fault : OsFault} (hd : d ∈ h.disturbances) (hcall : d.call = .print)
    (heffect : d.effect = .fail fault) : Unprintable boundary h (.os fault)

/-- What a search that was saved leaves of the output and answers with: the boundary is printed, unless
something is in the way. -/
inductive Printed {α : Type} (done : α) (boundary : ℤ) (h t : Host) : Except Failure α → Prop where
  | done {line : String} (hline : writeInteger boundary = .ok line)
    (houtput : t.outputLines = h.outputLines ++ [line]) : Printed done boundary h t (.ok done)
  | failed {failure : Failure} (hwhy : Unprintable boundary h failure)
    (houtput : t.outputLines = h.outputLines) : Printed done boundary h t (.error failure)

/-- Printing a boundary changes the output alone. -/
theorem printed_of_print {boundary : ℤ} {outcome : Except Failure Unit}
    (hrun : (print (writeInteger boundary)).runOn s = (outcome, t)) :
    Printed () boundary s.1 t.1 outcome ∧ t.1.tree = s.1.tree ∧ t.1.directory = s.1.directory := by
  cases hline : writeInteger boundary with
  | error fault =>
    rw [hline] at hrun
    cases hrun
    exact ⟨.failed (.tooLong hline) rfl, rfl, rfl⟩
  | ok line =>
    rw [hline] at hrun
    obtain ⟨hended, htree, hwhere⟩ :=
      Host.print_cases (Action.runOn_of_onFirst (x := Host.print line) hrun).1
    rcases hended with ⟨rfl, houtput⟩ | ⟨d, hd, fault, hcall, hfail, rfl, houtput⟩
    · exact ⟨.done hline houtput, htree, hwhere⟩
    · exact ⟨.failed (.refused hd hcall hfail) houtput, htree, hwhere⟩

/-- A host that is silent up to the printing has the disturbance that is in its way from the start. -/
theorem Printed.of_silent {α : Type} {done : α} {boundary : ℤ} {s t : Host}
    {outcome : Except Failure α} (hsilent : h.Silent s)
    (hprinted : Printed done boundary s t outcome) : Printed done boundary h t outcome := by
  cases hprinted with
  | done hline houtput => exact .done hline (hsilent.output ▸ houtput)
  | failed hwhy houtput =>
    refine .failed ?_ (hsilent.output ▸ houtput)
    cases hwhy with
    | tooLong hline => exact .tooLong hline
    | refused hd hcall heffect =>
      obtain ⟨e, he, hsame, hsame'⟩ := hsilent.disturbances _ hd
      exact .refused he (hsame.symm.trans hcall) (hsame'.symm.trans heffect)

/-! ## The search of the program -/

/-- A search of the program has loaded a history, and found a limit with it and its new history. -/
structure Found (execute : Executor τ) (settings : Settings) (command : Command) (task : SearchTask)
    (path : Path) (s : Host × τ) (loaded : History) (finding : Finding) (recorded : History)
    (v : Host × τ) : Prop where
  steps : ∃ interval u, (Action.onFirst (History.load path)).runOn s = (.ok loaded, u) ∧
    Interval.ofFigures (.integer (bounds settings task).1) (.integer (bounds settings task).2) =
      .ok interval ∧
    (findLimit (bench execute settings command) settings (some loaded) interval task.workload
      task.iterations).runOn u = (.ok (finding, some recorded), v)

/-- What a search of the program has done when its history was saved: it found a limit, recorded the
best trial, and what it saved is loaded from the file. -/
structure Searched (execute : Executor τ) (settings : Settings) (command : Command)
    (task : SearchTask) (path : Path) (s : Host × τ) (loaded : History) (finding : Finding)
    (recorded : History) (t : Host) : Prop where
  found : ∃ v, Found execute settings command task path s loaded finding recorded v
  /-- The best trial is merged into what was loaded. -/
  records : loaded.Numeric → loaded.Records task.workload finding.best recorded
  /-- What was saved is loaded. -/
  saved : ∀ v : Host, v.tree = t.tree → v.directory = t.directory → v.Undisturbed .read path →
    ∃ g w, (History.load path).runOn v = (.ok g, w) ∧ ∀ id, g.get? id = recorded.get? id

section Searching

variable {settings : Settings} {loaded : History} {finding : Finding} {recorded : Option History}
  {interval : Interval}

/-- The best trial of a search is recorded, and the history with it is sound if the records of the
trials are exact. -/
theorem recorded_of_findLimit {place : Place} (hspares : execute.Spares settings command place h)
    (hloaded : loaded.Sound)
    (hfound : (findLimit (bench execute settings command) settings (some loaded) interval
      task.workload task.iterations).runOn s = (.ok (finding, recorded), t)) :
    ∃ g, recorded = some g ∧ g.Sound ∧
      (loaded.Numeric → loaded.Records task.workload finding.best g) := by
  obtain ⟨⟨made, haccounted⟩, hbest, hrecord⟩ := findLimit_eq_ok hfound
  have hexact : ∀ usage ∈ finding.best, usage.Exact := by
    intro usage husage
    rw [hbest] at husage
    obtain ⟨limit, u, v, hrun⟩ := haccounted.exists_run (bestTrial_mem husage).1
    exact hspares.exact limit u v usage hrun
  obtain ⟨g, rfl, hsound⟩ := hloaded.recordBest hexact hrecord
  refine ⟨g, rfl, hsound, fun hnumeric => ?_⟩
  have hhistory : ∀ h ∈ some loaded, h.Numeric := by
    rintro _ ⟨⟩
    exact hnumeric
  obtain ⟨g', hg', hrecords⟩ := (recordBest_records hhistory hrecord).2 loaded rfl
  cases hg'
  exact hrecords

/-- **Up to the saving** a search fails and leaves the file as it was, or it has found a limit, and
what is left to be done is to save the history and to print the boundary. -/
theorem searchFor_found {outcome : Except Failure Unit} (hfile : settings.historyFile = some path)
    {place : Place} (hspares : execute.Spares settings command place h) (hs : h.Spares place s.1)
    (hrun : (searchFor execute settings command task).runOn s = (outcome, t)) :
    (∃ failure, outcome = .error failure ∧ h.Spares place t.1) ∨
      ∃ loaded finding recorded v,
        Found execute settings command task path s loaded finding recorded v ∧
        h.Spares place v.1 ∧ recorded.Sound ∧
        (loaded.Numeric → loaded.Records task.workload finding.best recorded) ∧
        (do
          Action.onFirst (recorded.save path)
          print (writeInteger finding.boundary)).runOn v = (outcome, t) := by
  have hP := Host.unobserving_spares place h
  rw [searchFor, hfile] at hrun
  have hload : Keeps (fun s : Host × τ => h.Spares place s.1)
      (some <$> Action.onFirst (History.load path)) := by
    rw [← bind_pure_comp]
    exact (Action.keeps_onFirst (History.keeps_load hP path)).bind fun _ => .pure _
  rcases Action.runOn_bind_cases hrun with ⟨failure, hfail, rfl⟩ | ⟨history, u, hloaded, hrun⟩
  · exact .inl ⟨failure, rfl, hload.after hfail hs⟩
  have hu := hload.after hloaded hs
  obtain ⟨loaded, _, hloaded, hsome⟩ := Action.runOn_bind_eq_ok.1 hloaded
  cases hsome
  rcases Action.runOn_bind_cases hrun with ⟨failure, hfail, rfl⟩ | ⟨interval, u', hinterval, hrun⟩
  · rw [Action.runOn_liftM, Prod.mk.injEq] at hfail
    exact .inl ⟨failure, rfl, hfail.2 ▸ hu⟩
  rw [Action.runOn_liftM, Prod.mk.injEq] at hinterval
  obtain ⟨hinterval, rfl⟩ := hinterval
  have hsearch : Keeps (fun s : Host × τ => h.Spares place s.1)
      (findLimit (bench execute settings command) settings (some loaded) interval task.workload
        task.iterations) := keeps_findLimit hspares.keeps (keeps_report hP)
  rcases Action.runOn_bind_cases hrun with
    ⟨failure, hfail, rfl⟩ | ⟨⟨finding, recorded⟩, v, hfound, hrun⟩
  · exact .inl ⟨failure, rfl, hsearch.after hfail hu⟩
  obtain ⟨g, rfl, hsound, hrecords⟩ := recorded_of_findLimit hspares
    (History.sound_of_load (Action.runOn_of_onFirst hloaded).1) hfound
  exact .inr ⟨loaded, finding, g, v, ⟨interval, u, hloaded, hinterval, hfound⟩,
    hsearch.after hfound hu, hsound, hrecords, hrun⟩

/-- **How the search of a program ends.** It fails and leaves the history file as it was; or it has saved
the history, and the boundary is printed unless something is in the way. -/
theorem searchFor_cases {outcome : Except Failure Unit} (hfile : settings.historyFile = some path)
    (hspares : execute.Spares settings command (path.placeFrom h.directory) h)
    (hs : h.Spares (path.placeFrom h.directory) s.1)
    (hrun : (searchFor execute settings command task).runOn s = (outcome, t)) :
    (∃ failure, outcome = .error failure ∧ h.Spares (path.placeFrom h.directory) t.1) ∨
      ∃ loaded finding recorded,
        Searched execute settings command task path s loaded finding recorded t.1 ∧
          Printed () finding.boundary h t.1 outcome := by
  rcases searchFor_found hfile hspares hs hrun with
    hfailed | ⟨loaded, finding, recorded, v, hfound, hv, hsound, hrecords, hrun⟩
  · exact .inl hfailed
  rcases Action.runOn_bind_cases hrun with ⟨failure, hfail, rfl⟩ | ⟨_, w, hsaved, hprint⟩
  · exact .inl ⟨failure, rfl, History.spares_of_save hv (Action.runOn_of_onFirst hfail).1⟩
  -- the history was saved, and only the boundary is left to be printed
  have hsaved := (Action.runOn_of_onFirst hsaved).1
  have hsilent : h.Silent w.1 := (History.keeps_save (Host.treeless_silent h) recorded path).after
    hsaved ⟨hv.output, hv.disturbances⟩
  obtain ⟨hprinted, htree, hwhere⟩ := printed_of_print hprint
  exact .inr ⟨loaded, finding, recorded, ⟨⟨v, hfound⟩, hrecords, fun x hx hx' =>
    hsound.load_of_save hsaved (hx.trans htree) (hx'.trans hwhere)⟩, hprinted.of_silent hsilent⟩

end Searching

end Program

end MemoryLimit
