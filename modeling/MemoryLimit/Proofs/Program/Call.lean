import MemoryLimit.Proofs.Program.Search

/-!
# A call for a search does all of it or nothing

A call of the program that asks for a search reads its settings, searches, saves the history and prints
the boundary. Where it fails, whatever failed, nothing is printed and the history file is what it was.

Two things can come between. The trials may write to the history file themselves, as they do if it is
the file for their output; and it is only after the history was saved that the boundary turns out to be
too long to be printed, or that the standard output refuses it.

## Main definitions

* `Program.SearchCall` — a call that asks for a search, by trials that leave the history file alone.
* `Program.Completed` — what such a call has done, and what it answers with.

## Main statements

* `Program.answer_cases` — how a request for a search is answered.
* `program_search_all_or_nothing` — a call that asks for a search does all of it or nothing.
-/
namespace MemoryLimit

open MemoryLimit.Action (Keeps)

variable {τ : Type}

namespace Program

variable {execute : Executor τ} {path : Path} {h : Host} {s t : Host × τ} {place : Place}
  {outcome : Except Failure Nat}

/-! ## Requests that fail -/

/-- Lines on the standard error output spare everything. -/
theorem spares_of_errorLines {s : Host} (hs : h.Spares place s) (lines : List String) :
    h.Spares place { s with errorLines := lines } :=
  ⟨⟨hs.tree, hs.directory_eq, hs.vanish_eq, hs.disturbances⟩, hs.output, hs.userId, hs.child⟩

/-- A misuse is told on the standard error output alone. -/
theorem spares_of_misuse {name : String} {fault : UsageFault} (hs : h.Spares place s.1)
    (hrun : (misuse name fault).runOn s = (outcome, t)) :
    outcome ≠ .ok doneCode ∧ h.Spares place t.1 := by
  cases hrun
  exact ⟨by decide, spares_of_errorLines hs _⟩

/-- However a failure is answered, the file is spared and the program is not done. -/
theorem spares_of_reportFailure {failure : Failure} (hs : h.Spares place s.1)
    (hrun : (reportFailure failure).runOn s = (outcome, t)) :
    outcome ≠ .ok doneCode ∧ h.Spares place t.1 := by
  rw [reportFailure] at hrun
  split at hrun
  · cases hrun
    exact ⟨by rintro ⟨⟩, hs⟩
  · rcases Action.runOn_bind_cases hrun with ⟨_, hreport, rfl⟩ | ⟨_, u, hreport, hrun⟩
    · exact ⟨by rintro ⟨⟩, (keeps_report (Host.unobserving_spares place h) _).after hreport hs⟩
    · have hu := (keeps_report (Host.unobserving_spares place h) _).after hreport hs
      cases hrun
      exact ⟨by decide, spares_of_errorLines hu _⟩

/-! ## Requests for a search -/

/-- A request for a search with settings that name a history file, by trials that leave it alone. -/
structure SearchRequest (execute : Executor τ) (request : Request) (h : Host) (path : Path) :
    Prop where
  isSearch : ∃ task, request.arguments.task = .search task
  settled : ∀ settings, (Settings.load request.document).runOn h = (.ok settings, h) →
    settings.historyFile = some path ∧
      execute.Spares settings (request.arguments.command h.environment)
        (path.placeFrom h.directory) h

/-- What a request for a search has done when the history was saved, and what it answers with. -/
structure Completed (execute : Executor τ) (request : Request) (path : Path) (s : Host × τ)
    (loaded : History) (finding : Finding) (recorded : History) (t : Host)
    (outcome : Except Failure Nat) : Prop where
  searched : ∃ settings task, (Settings.load request.document).runOn s.1 = (.ok settings, s.1) ∧
    request.arguments.task = .search task ∧
    Searched execute settings (request.arguments.command s.1.environment) task path
      ({ s.1 with threshold := thresholdOf settings.logLevel }, s.2) loaded finding recorded t
  printed : Printed doneCode finding.boundary s.1 t outcome

/-- **How a search is carried out**: it fails, which may be reported, and leaves the history file as it
was; or it has saved the history, and prints the boundary unless something is in the way. -/
theorem carriedOut_cases {settings : Settings} {command : Command} {task : SearchTask}
    (hfile : settings.historyFile = some path)
    (hspares : execute.Spares settings command (path.placeFrom h.directory) h)
    (hs : h.Spares (path.placeFrom h.directory) s.1)
    (hrun : (tryCatch
      (do
        carryOut execute settings command (.search task)
        return doneCode)
      reportFailure).runOn s = (outcome, t)) :
    (outcome ≠ .ok doneCode ∧ h.Spares (path.placeFrom h.directory) t.1) ∨
      ∃ loaded finding recorded,
        Searched execute settings command task path s loaded finding recorded t.1 ∧
          Printed doneCode finding.boundary h t.1 outcome := by
  rw [carryOut, Action.runOn_tryCatch, Action.runOn_bind] at hrun
  cases hsearch : (searchFor execute settings command task).runOn s with
  | mk ended w =>
    rw [hsearch] at hrun
    rcases searchFor_cases hfile hspares hs hsearch with
      ⟨failure, rfl, hspared⟩ | ⟨loaded, finding, recorded, hsearched, hprinted⟩
    · exact .inl (spares_of_reportFailure hspared hrun)
    · refine .inr ⟨loaded, finding, recorded, ?_⟩
      cases hprinted with
      | done hline houtput =>
        cases hrun
        exact ⟨hsearched, .done hline houtput⟩
      | failed hwhy houtput =>
        -- neither of the failures of a printing is one that the user can do something about
        cases hwhy with
        | tooLong hline =>
          cases hrun
          exact ⟨hsearched, .failed (.tooLong hline) houtput⟩
        | refused hd hcall heffect =>
          cases hrun
          exact ⟨hsearched, .failed (.refused hd hcall heffect) houtput⟩

/-- **How a request for a search is answered.** -/
theorem answer_cases {request : Request} (hrequest : SearchRequest execute request s.1 path)
    (hrun : (answer execute request).runOn s = (outcome, t)) :
    (outcome ≠ .ok doneCode ∧ s.1.Spares (path.placeFrom s.1.directory) t.1) ∨
      ∃ loaded finding recorded,
        Completed execute request path s loaded finding recorded t.1 outcome := by
  have hsettings : ∀ P : Host → Prop, Keeps (fun s : Host × τ => P s.1)
      (Action.onFirst (Settings.load request.document)) :=
    fun P => Action.keeps_onFirst (Settings.keeps_load P request.document)
  rw [answer] at hrun
  rcases Action.runOn_bind_cases hrun with ⟨_, hfail, rfl⟩ | ⟨settings, u, hloaded, hrun⟩
  · exact .inl ⟨by rintro ⟨⟩, (hsettings _).after hfail (.refl _ _)⟩
  -- the settings are loaded without any change, and only the threshold of the messages is set
  obtain ⟨hload, hown⟩ := Action.runOn_of_onFirst hloaded
  have hsame : u = s :=
    Prod.ext ((Settings.keeps_load (· = s.1) request.document).after hload rfl) hown
  rw [hsame] at hload hrun
  obtain ⟨task, htask⟩ := hrequest.isSearch
  obtain ⟨hfile, hspares⟩ := hrequest.settled settings hload
  rw [Action.runOn_bind_ok (Action.runOn_modify _ s), Action.runOn_bind_ok (Action.runOn_get _),
    htask] at hrun
  have hquiet : s.1.Spares (path.placeFrom s.1.directory)
      { s.1 with threshold := thresholdOf settings.logLevel } :=
    ⟨⟨.refl _ _, rfl, rfl, fun d hd => ⟨d, hd, rfl, rfl⟩⟩, rfl, rfl, rfl⟩
  rcases Action.runOn_bind_cases hrun with ⟨_, hrefusal, rfl⟩ | ⟨refusal, v, hrefusal, hrun⟩
  · rw [Action.runOn_liftM, Prod.mk.injEq] at hrefusal
    rw [← hrefusal.2]
    exact .inl ⟨by rintro ⟨⟩, hquiet⟩
  rw [Action.runOn_liftM, Prod.mk.injEq] at hrefusal
  obtain ⟨-, rfl⟩ := hrefusal
  split at hrun
  · exact .inl (spares_of_misuse hquiet hrun)
  · rcases carriedOut_cases hfile hspares hquiet hrun with
      hfailed | ⟨loaded, finding, recorded, hsearched, hprinted⟩
    · exact .inl hfailed
    · exact .inr ⟨loaded, finding, recorded, ⟨settings, task, hload, htask, hsearched⟩, hprinted⟩

end Program

/-- A command line that is understood asks for a search, with settings that name a history file, and
by trials that leave it alone. -/
structure Program.SearchCall (execute : Executor τ) (understood : Except Stop Request) (h : Host)
    (path : Path) : Prop where
  noHelp : understood ≠ .error .help
  request : ∀ request, understood = .ok request → SearchRequest execute request h path

/-- A host with a delegated subtree, where commands need sixty bytes, and where the environment names
the subtree and a history file that is not there yet. -/
def Host.recording : Host :=
  { Host.delegated with
    environment := [("MEMPROBE_CGROUP_ROOT", "/m"), ("MEMPROBE_DELEGATED_ROOT", "/m/r"),
      ("MEMPROBE_USAGE_STORE", "/u.txt"), ("MEMPROBE_LOG_LEVEL", "ERROR")]
    child := { needs := some 60, exitCode := 95 } }

/-- A call that asks for a search in three steps. -/
def recordingCall : List String :=
  ["bisect", "--high", "100", "--iterations", "3", "--workload-id", "job", "true"]

/-- The settings of the environment. -/
theorem settings_recording {settings : Settings} {document : Option Path} {t : Host}
    (hdocument : document = none)
    (hload : (Settings.load document).runOn Host.recording = (.ok settings, t)) :
    settings = { groupMount := .read "/m", delegatedRoot := some (.read "/m/r"),
                 historyFile := some (.read "/u.txt"), logLevel := "ERROR" } := by
  have hsettings : ((Settings.load none).runOn Host.recording).1.toOption =
      some { groupMount := .read "/m", delegatedRoot := some (.read "/m/r"),
             historyFile := some (.read "/u.txt"), logLevel := "ERROR" } := by
    decide +kernel
  rw [hdocument] at hload
  rw [hload] at hsettings
  exact Option.some.inj hsettings

theorem searchCall_recording :
    Program.SearchCall groupExecutor (Request.read recordingCall) Host.recording
      (.read "/u.txt") := by
  have hread : ((Request.read recordingCall).toOption.map fun request =>
      (request.document, request.arguments.directory, request.arguments.task)) =
      some (none, none,
        .search { high := some 100, iterations := some 3, workload := some "job" }) := by
    decide +kernel
  refine ⟨fun hhelp => ?_, fun request hrequest => ?_⟩
  · rw [hhelp] at hread
    cases hread
  rw [hrequest] at hread
  simp only [Except.toOption, Option.map_some, Option.some.injEq, Prod.mk.injEq] at hread
  obtain ⟨hdocument, hdirectory, htask⟩ := hread
  refine ⟨⟨_, htask⟩, fun settings hload => ?_⟩
  obtain rfl := settings_recording hdocument hload
  refine ⟨rfl, spares_groupExecutor (Command.avoids_of_outside (by decide) (by decide)
    (by rintro _ ⟨⟩) ?_)⟩
  intro directory hmem
  rw [show (request.arguments.command _).directory = request.arguments.directory from rfl,
    hdirectory] at hmem
  cases hmem

/-- A host where the history is in the file that the output of commands in `/w` goes to, and where no
process can be started. -/
def Host.overlapping : Host :=
  { Host.delegated with
    tree := ⟨(["w"], .directory) :: (["w", "stdout.log"], .file "job 95 1 1 1000\n".toUTF8) ::
      Host.delegated.tree.entries⟩
    environment := [("MEMPROBE_CGROUP_ROOT", "/m"), ("MEMPROBE_DELEGATED_ROOT", "/m/r"),
      ("MEMPROBE_USAGE_STORE", "/w/stdout.log"), ("MEMPROBE_LOG_LEVEL", "ERROR")]
    child := { startFault := some (.ofCode OsFault.noEntry) } }

/-- A call that asks for a search in `/w`. -/
def overlappingCall : List String :=
  ["bisect", "--high", "100", "--workdir", "/w", "true"]

/-- Settings with an upper bound of one digit more than numerals have. -/
def Settings.unprintable : Settings :=
  { highBytes := 10 ^ maxNumeralDigits, historyFile := some (.read "/u.txt"), logLevel := "ERROR" }

/-- A host as the one before, where the standard output is on a device that is full. -/
def Host.overflowing : Host :=
  { Host.recording with
    disturbances := [{ call := .print, effect := .fail (.ofCode 28) }] }

end MemoryLimit
