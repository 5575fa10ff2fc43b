import Mathlib
import MemoryLimit.Proofs.Host.Tree
import MemoryLimit.Proofs.Path
import MemoryLimit.Settings.Sources

/-!
# Settings one by one

Each setting has a name, a way to be read from a value and one to be written. Settings are amended
one by one: each takes the value that is given for its name, and stays as it is if none is given.
What a setting was read from need not be what it is written as, but what it is written as is read as
the same again.

## Main definitions

* `Kind`, `Form` — what there is to read and to write, and what may be missing.
* `Setting` — a single setting, by the type of what it has.
* `Setting.Takes` — what a setting has after a value was given for it.

## Main statements

* `Form.read_write` — what was read is written so that it is read again.
* `Settings.amend_eq_ok_iff` — settings are amended one by one.
-/
namespace MemoryLimit

open Yaml (Value)

variable {α : Type}

/-! ## Kinds -/

/-- The kinds of what settings have. -/
inductive Kind : Type → Type where
  | path : Kind Path
  | text : Kind String
  | texts : Kind (List String)
  | bool : Kind Bool
  | float : Kind Binary64
  | integer : Kind Int

namespace Kind

/-- What a value is read as. -/
def read : {α : Type} → Kind α → Value → Except (List Issue) α
  | _, path => wholeIssue readPathField
  | _, text => wholeIssue readTextField
  | _, texts => readTextsField
  | _, bool => wholeIssue readBoolField
  | _, float => wholeIssue readFloatField
  | _, integer => wholeIssue readIntegerField

/-- The value that is written. -/
def write : {α : Type} → Kind α → α → Value
  | _, path, p => .text p.text
  | _, text, s => .text s
  | _, texts, words => .sequence (words.map .text)
  | _, bool, b => .bool b
  | _, float, x => .float x
  | _, integer, i => .integer i

variable {kind : Kind α} {v : Value} {a : α}

theorem write_ne_null (kind : Kind α) (a : α) : kind.write a ≠ .null := by
  cases kind <;> simp [write]

theorem readTexts_map (position : Nat) (words : List String) :
    readTexts position (words.map .text) = .ok words := by
  induction words generalizing position with
  | nil => rfl
  | cons word words ih =>
    rw [List.map_cons, readTexts, ih]
    rfl

/-- What was read is written so that it is read again. Of a path this needs that it was read: not
every path has a text that it is read from. -/
theorem read_write (hread : kind.read v = .ok a) : kind.read (kind.write a) = .ok a := by
  cases kind with
  | path =>
    obtain ⟨s, rfl⟩ : ∃ s, a = .read s := by
      rw [read, wholeIssue, mapError_eq_ok, readPathField] at hread
      split at hread
      · rename_i s hs
        cases hread
        exact ⟨s, rfl⟩
      · cases hread
    exact congrArg Except.ok (Path.read_text (.read s))
  | text => rfl
  | texts => exact readTexts_map 0 a
  | bool => rfl
  | float => rfl
  | integer => rfl

/-- A value that is not admitted has an issue. -/
theorem readTexts_ne_nil (position : Nat) (items : List Value) :
    readTexts position items ≠ .error [] := by
  induction items generalizing position with
  | nil => simp [readTexts]
  | cons item items ih =>
    rw [readTexts]
    split
    · simp
    · rename_i issues hissues
      intro h
      cases h
      exact ih _ hissues
    · simp
    · simp

theorem read_ne_nil (kind : Kind α) (v : Value) : kind.read v ≠ .error [] := by
  have hwhole : ∀ {β : Type} (read : Value → Field β), wholeIssue read v ≠ .error [] := by
    intro β read
    rw [wholeIssue]
    cases read v <;> simp [Except.mapError]
  cases kind with
  | texts =>
    rw [read, readTextsField]
    split
    · exact readTexts_ne_nil 0 _
    · simp
  | _ => exact hwhole _

end Kind

/-! ## Missing values -/

section Optional

variable {kind : Kind α} {v : Value} {a : Option α}

theorem optionalField_of_ne_null {ε : Type} {read : Value → Except ε α} (hv : v ≠ .null) :
    optionalField read v = some <$> read v := by
  cases v <;> first | rfl | exact absurd rfl hv

/-- What may be missing is written so that it is read again. -/
theorem optionalField_orNull (hread : optionalField kind.read v = .ok a) :
    optionalField kind.read (orNull kind.write a) = .ok a := by
  cases a with
  | none => rfl
  | some b =>
    have hv : v ≠ .null := by
      rintro rfl
      cases hread
    rw [optionalField_of_ne_null hv] at hread
    rw [← bind_pure_comp, bind_eq_ok] at hread
    obtain ⟨c, hb, hc⟩ := hread
    cases hc
    rw [orNull, optionalField_of_ne_null (kind.write_ne_null b), Kind.read_write hb]
    rfl

theorem optionalField_ne_nil (kind : Kind α) (v : Value) :
    optionalField kind.read v ≠ .error [] := by
  by_cases hv : v = .null
  · rw [hv]
    simp [optionalField]
  · rw [optionalField_of_ne_null hv]
    have hkind := kind.read_ne_nil v
    cases hread : kind.read v with
    | ok b => simp [Functor.map, Except.map]
    | error issues =>
      rw [hread] at hkind
      simpa [Functor.map, Except.map] using hkind

end Optional

/-- The forms of settings: of a kind, or of a kind but perhaps missing. -/
inductive Form : Type → Type 1 where
  | plain {α : Type} (kind : Kind α) : Form α
  | optional {α : Type} (kind : Kind α) : Form (Option α)

namespace Form

/-- What a value is read as. -/
def read : {α : Type} → Form α → Value → Except (List Issue) α
  | _, plain kind => kind.read
  | _, optional kind => optionalField kind.read

/-- The value that is written. -/
def write : {α : Type} → Form α → α → Value
  | _, plain kind => kind.write
  | _, optional kind => orNull kind.write

/-- **What was read is written so that it is read again.** -/
theorem read_write {form : Form α} {v : Value} {a : α} (hread : form.read v = .ok a) :
    form.read (form.write a) = .ok a := by
  cases form with
  | plain kind => exact Kind.read_write hread
  | optional kind => exact optionalField_orNull hread

theorem read_ne_nil (form : Form α) (v : Value) : form.read v ≠ .error [] := by
  cases form with
  | plain kind => exact kind.read_ne_nil v
  | optional kind => exact optionalField_ne_nil kind v

end Form

/-! ## Settings -/

/-- The settings one by one, by the type of what each of them has. -/
inductive Setting : Type → Type where
  | groupMount : Setting Path
  | processRoot : Setting Path
  | delegatedRoot : Setting (Option Path)
  | groupDirectory : Setting String
  | helper : Setting (Option (List String))
  | helperStatus : Setting (Option Bool)
  | timeout : Setting (Option Binary64)
  | successExitCode : Setting Int
  | iterations : Setting Int
  | lowBytes : Setting Int
  | highBytes : Setting Int
  | historyFile : Setting (Option Path)
  | logLevel : Setting String

namespace Setting

/-- The name of a setting. -/
def name : {α : Type} → Setting α → String
  | _, groupMount => "cgroup_root"
  | _, processRoot => "proc_root"
  | _, delegatedRoot => "delegated_root"
  | _, groupDirectory => "group_dir"
  | _, helper => "helper"
  | _, helperStatus => "helper_status_fd"
  | _, timeout => "timeout_s"
  | _, successExitCode => "success_exit_code"
  | _, iterations => "iterations"
  | _, lowBytes => "low_bytes"
  | _, highBytes => "high_bytes"
  | _, historyFile => "usage_store"
  | _, logLevel => "log_level"

/-- The form of a setting. -/
def form : {α : Type} → Setting α → Form α
  | _, groupMount | _, processRoot => .plain .path
  | _, delegatedRoot | _, historyFile => .optional .path
  | _, groupDirectory | _, logLevel => .plain .text
  | _, helper => .optional .texts
  | _, helperStatus => .optional .bool
  | _, timeout => .optional .float
  | _, successExitCode | _, iterations | _, lowBytes | _, highBytes => .plain .integer

/-- What settings have for one of them. -/
def value : {α : Type} → Setting α → Settings → α
  | _, groupMount, s => s.groupMount
  | _, processRoot, s => s.processRoot
  | _, delegatedRoot, s => s.delegatedRoot
  | _, groupDirectory, s => s.groupDirectory
  | _, helper, s => s.helper
  | _, helperStatus, s => s.helperStatus
  | _, timeout, s => s.timeout
  | _, successExitCode, s => s.successExitCode
  | _, iterations, s => s.iterations
  | _, lowBytes, s => s.lowBytes
  | _, highBytes, s => s.highBytes
  | _, historyFile, s => s.historyFile
  | _, logLevel, s => s.logLevel

/-- After a value was given for a setting, if one was: that counts, and is admitted; else the setting
is as it was. -/
def Takes (f : Setting α) (given : Option Value) (present a : α) : Prop :=
  match given with
  | some v => f.form.read v = .ok a
  | none => a = present

variable {s t : Settings} {given : Given}

theorem takes_iff_of_check (f : Setting α) (present a : α) :
    f.Takes (given.value? f.name) present a ↔
      (check given f.name present f.form.read).issues = [] ∧
        (check given f.name present f.form.read).value = a := by
  rw [check]
  cases given.value? f.name with
  | none => simp [Takes, eq_comm]
  | some v =>
    have hread := f.form.read_ne_nil v
    cases hv : f.form.read v with
    | ok b => simp [Takes, hv]
    | error issues =>
      have hissues : issues ≠ [] := by simpa [hv] using hread
      simp [Takes, hv, hissues]

end Setting

/-- Settings that have the same for each of them are the same. -/
theorem Settings.eq_of_value {s t : Settings}
    (h : ∀ (α : Type) (f : Setting α), f.value s = f.value t) : s = t := by
  cases s
  cases t
  rw [Settings.mk.injEq]
  exact ⟨h _ .groupMount, h _ .processRoot, h _ .delegatedRoot, h _ .groupDirectory, h _ .helper,
    h _ .helperStatus, h _ .timeout, h _ .successExitCode, h _ .iterations, h _ .lowBytes,
    h _ .highBytes, h _ .historyFile, h _ .logLevel⟩

/-- Settings are put together from what each of them is to have. -/
theorem Settings.exists_value {P : ∀ (α : Type), Setting α → α → Prop}
    (h : ∀ (α : Type) (f : Setting α), ∃ a, P α f a) :
    ∃ s, ∀ (α : Type) (f : Setting α), P α f (f.value s) := by
  choose a ha using h
  refine ⟨⟨a _ .groupMount, a _ .processRoot, a _ .delegatedRoot, a _ .groupDirectory, a _ .helper,
    a _ .helperStatus, a _ .timeout, a _ .successExitCode, a _ .iterations, a _ .lowBytes,
    a _ .highBytes, a _ .historyFile, a _ .logLevel⟩, fun α f => ?_⟩
  cases f <;> exact ha _ _

/-- **Settings are amended one by one.** -/
theorem Settings.amend_eq_ok_iff {s t : Settings} {given : Given} :
    s.amend given = .ok t ↔
      ∀ (α : Type) (f : Setting α), f.Takes (given.value? f.name) (f.value s) (f.value t) := by
  simp only [Setting.takes_iff_of_check]
  rw [amend]
  constructor
  · intro h
    split at h
    · rename_i hnil
      simp only [List.append_eq_nil_iff, and_assoc] at hnil
      obtain ⟨_, _, _, _, _, _, _, _, _, _, _, _, _⟩ := hnil
      cases h
      intro α f
      cases f <;> exact ⟨by assumption, rfl⟩
    · cases h
  · intro h
    split
    · refine congrArg Except.ok (eq_of_value fun α f => ?_)
      rw [← (h α f).2]
      cases f <;> rfl
    · rename_i hsome
      refine absurd ?_ hsome
      simp only [List.append_eq_nil_iff, and_assoc]
      exact ⟨(h _ .groupMount).1, (h _ .processRoot).1, (h _ .delegatedRoot).1,
        (h _ .groupDirectory).1, (h _ .helper).1, (h _ .helperStatus).1, (h _ .timeout).1,
        (h _ .successExitCode).1, (h _ .iterations).1, (h _ .lowBytes).1, (h _ .highBytes).1,
        (h _ .historyFile).1, (h _ .logLevel).1⟩

end MemoryLimit
