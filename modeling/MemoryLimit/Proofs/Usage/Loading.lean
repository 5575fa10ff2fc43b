import Mathlib
import MemoryLimit.Proofs.Usage.File
import MemoryLimit.Proofs.Usage.Merge

/-!
# What loading a history depends on

A text is loaded by merging the records of its lines; blank lines and comments count for nothing. So
what is loaded depends on which record lines there are, and neither on their order nor on how often
each stands there. A line that holds no record ends the loading with a fault of its format. The only
other thing that ends it is a figure that is no number: a record in which it stands cannot be
compared with another one of its workload, unless the figures before it decide.

## Main definitions

* `History.recordLines`, `History.recordsOf` — the lines of a text that count, and their records.
* `History.Readable` — every line that counts holds a record.
* `History.HasClash` — a record cannot be compared with those on the lines before it.

## Main statements

* `merge_order_immaterial` — histories and files with the same records, in any order.
* `History.load_ok_or_format_iff` — how the loading of a text ends.
-/
namespace MemoryLimit

open Text

/-- A fold fails where one of its steps does, after others that went well. -/
theorem foldlM_eq_error_iff {α β ε : Type} {f : β → α → Except ε β} {l : List α} {b : β} {e : ε} :
    l.foldlM f b = .error e ↔
      ∃ before a after c,
        l = before ++ a :: after ∧ before.foldlM f b = .ok c ∧ f c a = .error e := by
  constructor
  · intro h
    induction l generalizing b with
    | nil => cases h
    | cons a rest ih =>
      rw [List.foldlM_cons] at h
      cases hstep : f b a with
      | error e' =>
        rw [hstep] at h
        exact ⟨[], a, rest, b, rfl, rfl, hstep.trans h⟩
      | ok c =>
        rw [hstep] at h
        obtain ⟨before, a', after, c', rfl, hbefore, herror⟩ := ih h
        refine ⟨a :: before, a', after, c', rfl, ?_, herror⟩
        rw [List.foldlM_cons, hstep]
        exact hbefore
  · rintro ⟨before, a, after, c, rfl, hbefore, hstep⟩
    rw [List.foldlM_append, hbefore]
    change (a :: after).foldlM f c = _
    rw [List.foldlM_cons, hstep]
    rfl

/-- A host with nothing but one file, `usage`, in its root directory. -/
def Host.holding (text : String) : Host :=
  { tree := ⟨[(["usage"], .file text.toUTF8)]⟩ }

theorem Host.holds_holding (text : String) : (Host.holding text).Holds (.read "/usage") text :=
  ⟨rfl, rfl, rfl⟩

namespace History

variable {h : History} {line : List Char} {lines : List (List Char)} {text : String}
  {failure : Failure}

/-- The lines of a text that are neither blank nor comments. -/
def recordLines (text : String) : List (List Char) :=
  (splitLines (foldReturns text.toList)).filter fun line => !isIgnored line

/-- The records of lines; those that hold none are left out. -/
def recordsIn (lines : List (List Char)) : List (RawText × Usage) :=
  lines.filterMap fun line => (readLine (String.ofList line)).toOption

/-- The records of a text. -/
def recordsOf (text : String) : List (RawText × Usage) :=
  recordsIn (recordLines text)

/-- Every line that is neither blank nor a comment holds a record. -/
def Readable (text : String) : Prop :=
  ∀ line ∈ recordLines text, ∃ entry, readLine (String.ofList line) = .ok entry

/-- The record of a line cannot be compared with the one that its workload has. -/
def Clashes (h : History) (line : List Char) : Prop :=
  ∃ id earlier later, readLine (String.ofList line) = .ok (id, later) ∧
    h.get? id = some earlier ∧ later.Undecided earlier

/-- The record of a line cannot be compared with what the lines before it leave. -/
def HasClash (text : String) : Prop :=
  ∃ before line after soFar, recordLines text = before ++ line :: after ∧
    before.foldlM mergeLine {} = .ok soFar ∧ soFar.Clashes line

/-! ## The lines that count -/

theorem mem_recordsIn {entry : RawText × Usage} :
    entry ∈ recordsIn lines ↔ ∃ line ∈ lines, readLine (String.ofList line) = .ok entry := by
  rw [recordsIn, List.mem_filterMap]
  refine exists_congr fun line => and_congr_right fun _ => ?_
  cases readLine (String.ofList line) <;> simp [Except.toOption]

/-- A text is read by merging the lines that count. -/
theorem read_eq_foldlM (text : String) :
    read (String.ofList (foldReturns text.toList)) = (recordLines text).foldlM mergeLine {} := by
  rw [read, String.toList_ofList, recordLines, List.foldlM_filter]
  congr 1
  funext h line
  cases hignored : isIgnored line
  · rfl
  · rw [mergeLine, if_pos hignored]
    rfl

theorem isIgnored_of_mem_recordLines (hline : line ∈ recordLines text) :
    isIgnored line = false := by
  simpa using (List.mem_filter.1 hline).2

/-- The record of a line that counts is merged. -/
theorem mergeLine_of_readLine (hrecord : isIgnored line = false) {id : RawText} {usage : Usage}
    (hread : readLine (String.ofList line) = .ok (id, usage)) :
    h.mergeLine line = Signal.raise (h.merge id usage) := by
  rw [mergeLine, hrecord, if_neg (by simp), hread]
  rfl

/-- Lines that all hold records are merged as their records are. -/
theorem foldlM_mergeLine_eq (hrecord : ∀ line ∈ lines, isIgnored line = false)
    (hread : ∀ line ∈ lines, ∃ entry, readLine (String.ofList line) = .ok entry) (h : History) :
    lines.foldlM mergeLine h = Signal.raise (h.mergeAll (recordsIn lines)) := by
  induction lines generalizing h with
  | nil => rfl
  | cons line rest ih =>
    obtain ⟨⟨id, usage⟩, hentry⟩ := hread line (by simp)
    have hin : recordsIn (line :: rest) = (id, usage) :: recordsIn rest := by
      rw [recordsIn, List.filterMap_cons_some (by rw [hentry]; rfl)]
      rfl
    rw [List.foldlM_cons, mergeLine_of_readLine (hrecord line (by simp)) hentry, hin,
      mergeAll_cons]
    cases h.merge id usage with
    | error signal => rfl
    | ok merged =>
      exact ih (fun other hother => hrecord other (List.mem_cons_of_mem _ hother))
        (fun other hother => hread other (List.mem_cons_of_mem _ hother)) merged

/-- Lines that were merged hold records, those that count. -/
theorem readLine_of_foldlM_mergeLine {g : History} (hfold : lines.foldlM mergeLine h = .ok g)
    (hline : line ∈ lines) (hrecord : isIgnored line = false) :
    ∃ entry, readLine (String.ofList line) = .ok entry := by
  induction lines generalizing h with
  | nil => cases hline
  | cons first rest ih =>
    rw [List.foldlM_cons] at hfold
    cases hmerge : h.mergeLine first with
    | error failure => simp [hmerge, bind, Except.bind] at hfold
    | ok next =>
      rw [hmerge] at hfold
      rcases List.mem_cons.1 hline with rfl | hline
      · cases hread : readLine (String.ofList line) with
        | error failure => simp [mergeLine, hrecord, hread, bind, Except.bind] at hmerge
        | ok entry => exact ⟨entry, rfl⟩
      · exact ih hfold hline

/-- **A text with a record on every line that counts is read by merging the records.** -/
theorem read_eq_mergeAll (hreadable : Readable text) :
    read (String.ofList (foldReturns text.toList)) =
      Signal.raise (mergeAll {} (recordsOf text)) := by
  rw [read_eq_foldlM]
  exact foldlM_mergeLine_eq (fun _ => isIgnored_of_mem_recordLines) hreadable {}

/-- A text with another line is not read. -/
theorem read_eq_error (hreadable : ¬ Readable text) :
    ∃ failure, read (String.ofList (foldReturns text.toList)) = .error failure := by
  cases hread : read (String.ofList (foldReturns text.toList)) with
  | error failure => exact ⟨failure, rfl⟩
  | ok g =>
    rw [read_eq_foldlM] at hread
    exact absurd (fun line hline =>
      readLine_of_foldlM_mergeLine hread hline (isIgnored_of_mem_recordLines hline)) hreadable

/-! ## How reading fails -/

/-- A line is refused for its format only. -/
theorem readLine_eq_error {line : String} (hread : readLine line = .error failure) :
    ∃ cause, failure = .storeFormat cause := by
  rw [readLine] at hread
  split at hread
  · split at hread <;> cases hread
    exact ⟨_, rfl⟩
  · cases hread
    exact ⟨_, rfl⟩

/-- A record is not merged exactly if it cannot be compared with the one that is there. -/
theorem merge_eq_error_iff {id : RawText} {usage : Usage} {signal : Signal} :
    h.merge id usage = .error signal ↔
      signal = .invalidOperation ∧
        ∃ earlier, h.get? id = some earlier ∧ usage.Undecided earlier := by
  rw [merge, mergedWith]
  cases hget : h.get? id with
  | none => simp [Except.map]
  | some current =>
    have hlarger : (current.larger usage).map (h.put id) = .error signal ↔
        usage.compare current = .error signal := by
      rw [Usage.larger]
      rcases usage.compare current with signal | _ | _ | _ <;>
        simp [bind, Except.bind, pure, Except.pure, Except.map]
    simp only [hlarger, Usage.compare_eq_error_iff, Option.some.injEq, exists_eq_left']

/-- A line that counts is not merged if it holds no record, or one that clashes. -/
theorem mergeLine_eq_error_iff (hrecord : isIgnored line = false) :
    h.mergeLine line = .error failure ↔
      readLine (String.ofList line) = .error failure ∨
        failure = .signal .invalidOperation ∧ h.Clashes line := by
  cases hread : readLine (String.ofList line) with
  | error cause => simp [mergeLine, hrecord, Clashes, hread, bind, Except.bind]
  | ok entry =>
    obtain ⟨id, usage⟩ := entry
    have hraise : Signal.raise (h.merge id usage) = .error failure ↔
        ∃ signal, h.merge id usage = .error signal ∧ failure = .signal signal := by
      cases h.merge id usage <;> simp [Signal.raise, Except.mapError, eq_comm]
    rw [mergeLine_of_readLine hrecord hread, hraise]
    simp only [merge_eq_error_iff, Clashes, hread, Except.ok.injEq, Prod.mk.injEq, reduceCtorEq,
      false_or]
    constructor
    · rintro ⟨signal, ⟨rfl, earlier, hearlier, hundecided⟩, rfl⟩
      exact ⟨rfl, id, earlier, usage, ⟨rfl, rfl⟩, hearlier, hundecided⟩
    · rintro ⟨rfl, _, earlier, _, ⟨rfl, rfl⟩, hearlier, hundecided⟩
      exact ⟨_, ⟨rfl, earlier, hearlier, hundecided⟩, rfl⟩

/-- **Reading fails for the format of a line, or because two records clash.** -/
theorem read_eq_error_cases
    (hread : read (String.ofList (foldReturns text.toList)) = .error failure) :
    (∃ cause, failure = .storeFormat cause) ∨
      failure = .signal .invalidOperation ∧ HasClash text := by
  rw [read_eq_foldlM, foldlM_eq_error_iff] at hread
  obtain ⟨before, line, after, soFar, hlines, hbefore, hline⟩ := hread
  have hrecord : isIgnored line = false := isIgnored_of_mem_recordLines (by rw [hlines]; simp)
  rcases (mergeLine_eq_error_iff hrecord).1 hline with hformat | ⟨hsignal, hclash⟩
  · exact .inl (readLine_eq_error hformat)
  · exact .inr ⟨hsignal, before, line, after, soFar, hlines, hbefore, hclash⟩

/-- A text with a clash is not read, whatever its other lines are. -/
theorem read_of_hasClash (hclash : HasClash text) :
    read (String.ofList (foldReturns text.toList)) = .error (.signal .invalidOperation) := by
  obtain ⟨before, line, after, soFar, hlines, hbefore, hline⟩ := hclash
  have hrecord : isIgnored line = false := isIgnored_of_mem_recordLines (by rw [hlines]; simp)
  rw [read_eq_foldlM, foldlM_eq_error_iff]
  exact ⟨before, line, after, soFar, hlines, hbefore,
    (mergeLine_eq_error_iff hrecord).2 (.inr ⟨rfl, hline⟩)⟩

/-- Records whose figures are numbers do not clash. -/
theorem not_hasClash (hnumeric : ∀ entry ∈ recordsOf text, entry.2.Numeric) : ¬ HasClash text := by
  rintro ⟨before, line, after, soFar, hlines, hbefore, id, earlier, later, hread, hget, hundecided⟩
  have hlater : later.Numeric :=
    hnumeric (id, later) (mem_recordsIn.2 ⟨line, by rw [hlines]; simp, hread⟩)
  have hsoFar : soFar.Numeric := by
    intro entry hentry
    rcases mem_of_foldlM_mergeLine hbefore entry hentry with hnew | ⟨other, hother, -, hown⟩
    · cases hnew
    · exact hnumeric entry (mem_recordsIn.2 ⟨other, by rw [hlines]; simp [hother], hown⟩)
  have hearlier := hsoFar.get? hget
  obtain ⟨-, -, hcpu | ⟨-, hwall⟩⟩ := hundecided
  · exact hcpu ⟨hlater.cpu, hearlier.cpu⟩
  · exact hwall ⟨hlater.wall, hearlier.wall⟩

/-- **A file is loaded, or refused for its format, exactly if its records do not clash.** No other
failure is one that is reported. Where they clash, the comparison of two records ends the loading
instead; they never do if all figures are numbers or infinities. -/
theorem load_ok_or_format_iff {path : Path} {h : Host} (hholds : h.Holds path text) :
    ∃ outcome t, (load path).runOn h = (outcome, t) ∧
      (((∃ history, outcome = .ok history) ∨ ∃ cause, outcome = .error (.storeFormat cause)) ↔
        ¬ HasClash text) ∧
      (outcome = .error (.signal .invalidOperation) ↔ HasClash text) ∧
      (∀ failure, outcome = .error failure →
        (failure.kindName? = some "StoreFormatError" ↔ ¬ HasClash text)) ∧
      ((∀ entry ∈ recordsOf text, entry.2.Numeric) → ¬ HasClash text) := by
  obtain ⟨t, hload⟩ := runOn_load hholds
  have hclashes : HasClash text ↔
      read (String.ofList (foldReturns text.toList)) = .error (.signal .invalidOperation) := by
    refine ⟨read_of_hasClash, fun hread => ?_⟩
    rcases read_eq_error_cases hread with ⟨cause, hcause⟩ | ⟨-, hclash⟩
    · cases hcause
    · exact hclash
  refine ⟨_, t, hload, ?_, hclashes.symm, ?_, not_hasClash⟩
  · rw [hclashes]
    cases hread : read (String.ofList (foldReturns text.toList)) with
    | ok history => simp
    | error failure =>
      rcases read_eq_error_cases hread with ⟨cause, rfl⟩ | ⟨rfl, -⟩ <;> simp
  · intro failure hread
    rw [hclashes, hread]
    rcases read_eq_error_cases hread with ⟨cause, rfl⟩ | ⟨rfl, -⟩ <;> simp [Failure.kindName?]

/-- Two records of one workload with no number in them clash under one limit, and do not under two.
-/
theorem load_ok_or_format_undecided :
    HasClash "w 1 NaN 1 5\nw 1 NaN 1 5\n" ∧ ¬ HasClash "w 1 NaN 1 5\n# again\nw 1 NaN 1 6\n" := by
  constructor
  · obtain ⟨outcome, t, hload, -, hsignal, -, -⟩ :=
      load_ok_or_format_iff (Host.holds_holding "w 1 NaN 1 5\nw 1 NaN 1 5\n")
    have houtcome : ((load (.read "/usage")).runOn (.holding "w 1 NaN 1 5\nw 1 NaN 1 5\n")).1 =
      .error (.signal .invalidOperation) := rfl
    rw [hload] at houtcome
    exact hsignal.1 houtcome
  · obtain ⟨outcome, t, hload, hended, -, -, -⟩ :=
      load_ok_or_format_iff (Host.holds_holding "w 1 NaN 1 5\n# again\nw 1 NaN 1 6\n")
    have houtcome : ((load (.read "/usage")).runOn
        (.holding "w 1 NaN 1 5\n# again\nw 1 NaN 1 6\n")).1 =
      .ok ⟨[("w", ⟨1, .nan false false 0, .ofInt 1, 6⟩)]⟩ := by decide +kernel
    rw [hload] at houtcome
    exact hended.1 (.inl ⟨_, houtcome⟩)

/-- A file with two such records is neither loaded nor refused for its format. -/
theorem load_not_ok_or_format :
    ¬ ((∃ history t, (load (.read "/usage")).runOn (.holding "w 1 NaN 1 5\nw 1 NaN 1 5\n") =
          (.ok history, t)) ∨
        ∃ cause t, (load (.read "/usage")).runOn (.holding "w 1 NaN 1 5\nw 1 NaN 1 5\n") =
          (.error (.storeFormat cause), t)) := by
  have hload : ((load (.read "/usage")).runOn (.holding "w 1 NaN 1 5\nw 1 NaN 1 5\n")).1 =
    .error (.signal .invalidOperation) := rfl
  rintro (⟨history, t, hrun⟩ | ⟨cause, t, hrun⟩) <;> rw [hrun] at hload <;> cases hload

end History

/-! ## Order and repetition -/

/-- **The order in which records are merged never matters, nor how often each is merged.** Records
whose figures are numbers or infinities are merged into any history of such records, and the outcome
depends on which they are only: the same workloads, with equal records. The record of a workload is
one of those that were offered for it, and none of them has a higher rank. So is the history that is
loaded from a file: two files with the same record lines, in any order and however often, and with
any blank lines and comments between them, are both loaded and agree, or are both refused. -/
theorem merge_order_immaterial :
    (∀ (history : History) (records others : List (RawText × Usage)), history.Distinct →
      history.Numeric → (∀ entry ∈ records, entry.2.Numeric) →
      (∀ entry, entry ∈ others ↔ entry ∈ records) →
      ∃ merged again, history.mergeAll records = .ok merged ∧ history.mergeAll others = .ok again ∧
        again.Agrees merged ∧ merged.KeepsLargest (history.offered records)) ∧
    ∀ (path other : Path) (h k : Host) (text variant : String), h.Holds path text →
      k.Holds other variant →
      (∀ line, line ∈ History.recordLines variant ↔ line ∈ History.recordLines text) →
      (∀ entry ∈ History.recordsOf text, entry.2.Numeric) →
      ∃ outcome again t u, (History.load path).runOn h = (outcome, t) ∧
        (History.load other).runOn k = (again, u) ∧
        (History.Readable text → ∃ loaded reloaded, outcome = .ok loaded ∧ again = .ok reloaded ∧
          reloaded.Agrees loaded ∧
          loaded.KeepsLargest fun id => {usage | (id, usage) ∈ History.recordsOf text}) ∧
        (¬ History.Readable text → ∃ failure refused, outcome = .error failure ∧
          again = .error refused) := by
  have hmerge : ∀ (history : History) (records others : List (RawText × Usage)), history.Distinct →
      history.Numeric → (∀ entry ∈ records, entry.2.Numeric) →
      (∀ entry, entry ∈ others ↔ entry ∈ records) →
      ∃ merged again, history.mergeAll records = .ok merged ∧ history.mergeAll others = .ok again ∧
        again.Agrees merged ∧ merged.KeepsLargest (history.offered records) := by
    intro history records others hdistinct hhistory hrecords hsame
    obtain ⟨merged, hmerged, hd, hkeeps⟩ := History.mergeAll_spec hhistory hrecords
    obtain ⟨again, hagain, hd', hkeeps'⟩ := History.mergeAll_spec hhistory
      (fun entry hentry => hrecords entry ((hsame entry).1 hentry))
    rw [History.offered_congr hsame] at hkeeps'
    exact ⟨merged, again, hmerged, hagain, hkeeps'.agrees hkeeps (hd' hdistinct) (hd hdistinct),
      hkeeps⟩
  refine ⟨hmerge, ?_⟩
  intro path other h k text variant htext hvariant hlines hnumeric
  obtain ⟨t, hload⟩ := History.runOn_load htext
  obtain ⟨u, hreload⟩ := History.runOn_load hvariant
  have hreadable : History.Readable variant ↔ History.Readable text := by
    simp only [History.Readable, hlines]
  have hrecords : ∀ entry, entry ∈ History.recordsOf variant ↔ entry ∈ History.recordsOf text := by
    intro entry
    simp only [History.recordsOf, History.mem_recordsIn, hlines]
  refine ⟨_, _, t, u, hload, hreload, ?_, ?_⟩
  · intro hread
    obtain ⟨merged, again, hmerged, hagain, hagrees, hkeeps⟩ := hmerge {} (History.recordsOf text)
      (History.recordsOf variant) List.nodup_nil (by simp [History.Numeric]) hnumeric hrecords
    rw [History.read_eq_mergeAll hread, History.read_eq_mergeAll (hreadable.2 hread), hmerged,
      hagain]
    refine ⟨merged, again, rfl, rfl, hagrees, ?_⟩
    have hoffered : History.offered {} (History.recordsOf text) =
        fun id => {usage | (id, usage) ∈ History.recordsOf text} := by
      funext id
      simp [History.offered, History.get?]
    rwa [← hoffered]
  · intro hread
    obtain ⟨failure, hfailure⟩ := History.read_eq_error hread
    obtain ⟨refused, hrefused⟩ := History.read_eq_error (mt hreadable.1 hread)
    exact ⟨failure, refused, hfailure, hrefused⟩

/-- The seconds of two records are spelt differently, one record is merged twice, and the lines of a
file are turned round and repeated. -/
theorem merge_order_immaterial_respelt :
    (∃ merged again,
      History.mergeAll ⟨[("w", ⟨95, .finite ⟨false, 10, -1⟩, .ofInt 2, 5⟩)]⟩
        [("w", ⟨95, .ofInt 1, .ofInt 2, 5⟩), ("v", ⟨0, .ofInt 3, .infinity false, 7⟩)] =
          .ok merged ∧
      History.mergeAll ⟨[("w", ⟨95, .finite ⟨false, 10, -1⟩, .ofInt 2, 5⟩)]⟩
        [("v", ⟨0, .ofInt 3, .infinity false, 7⟩), ("w", ⟨95, .ofInt 1, .ofInt 2, 5⟩),
          ("v", ⟨0, .ofInt 3, .infinity false, 7⟩)] = .ok again ∧
      again.Agrees merged) ∧
    ∃ loaded reloaded t u,
      (History.load (.read "/usage")).runOn (.holding "w 95 1.0 2 5\nv 0 3 4 7\n") = (.ok loaded, t) ∧
      (History.load (.read "/usage")).runOn
        (.holding "# twice\nv 0 3 4 7\n\nw 95 1.0 2 5\nv 0 3 4 7") = (.ok reloaded, u) ∧
      reloaded.Agrees loaded := by
  obtain ⟨hmerge, hload⟩ := merge_order_immaterial
  constructor
  · obtain ⟨merged, again, hmerged, hagain, hagrees, -⟩ := hmerge
      ⟨[("w", ⟨95, .finite ⟨false, 10, -1⟩, .ofInt 2, 5⟩)]⟩
      [("w", ⟨95, .ofInt 1, .ofInt 2, 5⟩), ("v", ⟨0, .ofInt 3, .infinity false, 7⟩)]
      [("v", ⟨0, .ofInt 3, .infinity false, 7⟩), ("w", ⟨95, .ofInt 1, .ofInt 2, 5⟩),
        ("v", ⟨0, .ofInt 3, .infinity false, 7⟩)]
      (List.nodup_singleton _)
      (by rintro entry hentry; rw [List.mem_singleton.1 hentry]; exact ⟨.finite _, .finite _⟩)
      (by simpa using ⟨⟨.finite _, .finite _⟩, ⟨.finite _, .infinity _⟩⟩)
      (by simp [or_comm])
    exact ⟨merged, again, hmerged, hagain, hagrees⟩
  · have hlines : History.recordLines "w 95 1.0 2 5\nv 0 3 4 7\n" =
      ["w 95 1.0 2 5".toList, "v 0 3 4 7".toList] := by decide +kernel
    have hvariant : History.recordLines "# twice\nv 0 3 4 7\n\nw 95 1.0 2 5\nv 0 3 4 7" =
      ["v 0 3 4 7".toList, "w 95 1.0 2 5".toList, "v 0 3 4 7".toList] := by decide +kernel
    have hrecords : History.recordsOf "w 95 1.0 2 5\nv 0 3 4 7\n" =
      [(RawText.ofString "w", ⟨95, .finite ⟨false, 10, -1⟩, .ofInt 2, 5⟩),
        (RawText.ofString "v", ⟨0, .ofInt 3, .ofInt 4, 7⟩)] := by
        decide +kernel
    obtain ⟨outcome, again, t, u, hrun, hrerun, hread, -⟩ := hload (.read "/usage") (.read "/usage")
      (.holding "w 95 1.0 2 5\nv 0 3 4 7\n")
      (.holding "# twice\nv 0 3 4 7\n\nw 95 1.0 2 5\nv 0 3 4 7") _ _
      (Host.holds_holding _) (Host.holds_holding _)
      (by
        intro line
        rw [hlines, hvariant]
        simp only [List.mem_cons, List.not_mem_nil, or_false]
        constructor
        · rintro (h | h | h)
          · exact .inr h
          · exact .inl h
          · exact .inr h
        · rintro (h | h)
          · exact .inr (.inl h)
          · exact .inl h)
      (by rw [hrecords]; simpa using ⟨⟨.finite _, .finite _⟩, ⟨.finite _, .finite _⟩⟩)
    have hreadable : History.Readable "w 95 1.0 2 5\nv 0 3 4 7\n" := by
      intro line hline
      rw [hlines] at hline
      rcases List.mem_cons.1 hline with rfl | hline
      · exact ⟨("w", _), rfl⟩
      · rw [List.mem_singleton.1 hline]
        exact ⟨("v", _), rfl⟩
    obtain ⟨loaded, reloaded, rfl, rfl, hagrees, -⟩ := hread hreadable
    exact ⟨loaded, reloaded, t, u, hrun, hrerun, hagrees⟩

end MemoryLimit
