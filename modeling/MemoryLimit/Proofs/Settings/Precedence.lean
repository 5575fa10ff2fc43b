import Mathlib
import MemoryLimit.Proofs.Host.Frame
import MemoryLimit.Proofs.Settings.Fields

/-!
# The precedence of settings

A document that names a setting counts more than a variable of the environment, and that counts more
than the default. This is so for each setting by itself. Where a document gives anything, the
settings of the environment are written out, overlaid with what it gives and read again, together
with the environment; so each of them has to be read as what it was, whatever it was read from first.

## Main definitions

* `Settings.documentText` — the text of the document.

## Main statements

* `Settings.read_write_value` — the settings of an environment are written so that they are read again.
* `Settings.runOn_load_of_document` — the settings are read from what the environment, the settings
  written out and the document give.
* `Settings.load_precedence` — documents, variables and defaults, setting by setting.
-/
namespace MemoryLimit

open Yaml (Value)

variable {α : Type} {h : Host}

/-! ## Given values -/

/-- What is given last counts. -/
theorem Given.value?_append (first last : Given) (name : String) :
    (first ++ last).value? name = (last.value? name).or (first.value? name) := by
  rw [value?, List.reverse_append, List.lookup_append, value?, value?]

/-- All settings are written. -/
theorem Settings.value?_dump (s : Settings) (f : Setting α) :
    s.dump.value? f.name = some (f.form.write (f.value s)) := by
  cases f <;> rfl

theorem Setting.name_mem_names (f : Setting α) : f.name ∈ Settings.names := by
  cases f <;> decide

/-- A document gives a setting what it has for its name. -/
theorem Settings.value?_documentGiven (entries : List (Value × Value)) (f : Setting α) :
    (documentGiven (some (.mapping entries))).value? f.name =
      Value.member? f.name (.mapping entries) := by
  rw [documentGiven, Given.value?, ← List.filter_reverse, ← List.filterMap_reverse, Value.member?]
  induction entries.reverse with
  | nil => rfl
  | cons entry entries ih =>
    obtain ⟨key, v⟩ := entry
    cases htext : key.text? with
    | none => simpa [htext] using ih
    | some name =>
      by_cases hname : name = f.name
      · simp [htext, hname, f.name_mem_names]
      · have hother : (f.name == name) = false := by simpa using Ne.symm hname
        by_cases hknown : name ∈ names
        · simpa [htext, hname, hknown, List.lookup_cons, hother] using ih
        · simpa [htext, hname, hknown] using ih

namespace Settings

variable {base settings : Settings} {asked : Option Path}

/-- **The settings of an environment are written so that they are read again**: what a variable gave
was read, and so is what the defaults are written as. -/
theorem read_write_value (hbase : ofEnvironment h.environment [] = .ok base) (f : Setting α) :
    f.form.read (f.form.write (f.value base)) = .ok (f.value base) := by
  have htakes := amend_eq_ok_iff.1 hbase α f
  unfold Setting.Takes at htakes
  split at htakes
  · exact Form.read_write htakes
  · rw [htakes]
    cases f <;> rfl

/-- The settings of the environment, written out and overlaid, are as they were where nothing was laid
over them. -/
theorem ofEnvironment_dump_iff (hbase : ofEnvironment h.environment [] = .ok base) (given : Given) :
    ofEnvironment h.environment (base.dump ++ given) = .ok settings ↔
      ∀ (α : Type) (f : Setting α),
        f.Takes (given.value? f.name) (f.value base) (f.value settings) := by
  rw [ofEnvironment, amend_eq_ok_iff]
  refine forall_congr' fun α => forall_congr' fun f => ?_
  rw [Given.value?_append, Given.value?_append, value?_dump]
  cases given.value? f.name with
  | some v => rfl
  | none =>
    -- what was written out hides the environment, and is read as what it was
    change f.form.read (f.form.write (f.value base)) = .ok (f.value settings) ↔ _ = _
    rw [read_write_value hbase f, Except.ok.injEq, eq_comm]

/-! ## Loading -/

/-- The text of the document that is asked for, or else of the one that the environment names. -/
def documentText (asked : Option Path) (h : Host) : Except Failure String :=
  ((Host.openText (asked.getD (documentPath h.environment))).runOn h).1

/-- The document is read without any change, and may be missing. -/
theorem runOn_readDocumentText? (asked : Option Path) (h : Host) :
    (readDocumentText? (asked.getD (documentPath h.environment))).runOn h =
      (match documentText asked h with
        | .ok text => .ok (some text)
        | .error (.os fault) =>
          if fault.code = OsFault.noEntry then .ok none else .error (.os fault)
        | .error failure => .error failure, h) := by
  have hsame : ((Host.openText (asked.getD (documentPath h.environment))).runOn h).2 = h :=
    Host.keeps_openText (P := fun t => t = h) _ h rfl
  rw [readDocumentText?, Action.runOn_onFault, Action.runOn_map, hsame,
    show ((Host.openText _).runOn h).1 = documentText asked h from rfl]
  cases documentText asked h with
  | ok text => rfl
  | error failure =>
    cases failure with
    | os fault =>
      simp only [Except.map]
      split <;> rfl
    | _ => rfl

/-- The settings of the environment are there before the document is read. -/
theorem runOn_load (hbase : ofEnvironment h.environment [] = .ok base) {text? : Option String}
    (htext : (readDocumentText? (asked.getD (documentPath h.environment))).runOn h = (.ok text?, h)) :
    (load asked).runOn h =
      (match text? with
        | none => .ok base
        | some text =>
          match Yaml.readDocument text with
          | .error fault => .error (.document fault)
          | .ok document =>
            match documentGiven document with
            | [] => .ok base
            | given => (ofEnvironment h.environment (base.dump ++ given)).mapError .settings, h) := by
  have hsettle : (liftM ((ofEnvironment h.environment []).mapError Failure.settings) :
      Action Host Settings).runOn h = (.ok base, h) := by
    rw [Action.runOn_liftM, hbase]
    rfl
  rw [load, Action.runOn_bind_ok (Action.runOn_get h), Action.runOn_bind_ok hsettle,
    Action.runOn_bind_ok htext]
  cases text? with
  | none => rfl
  | some text =>
    simp only
    cases Yaml.readDocument text with
    | error fault => rfl
    | ok document =>
      simp only
      cases documentGiven document with
      | nil => rfl
      | cons first more => exact Action.runOn_liftM _ h

/-- A document that is missing gives nothing. -/
theorem runOn_load_of_missing {fault : OsFault} (hbase : ofEnvironment h.environment [] = .ok base)
    (hmissing : documentText asked h = .error (.os fault)) (hcode : fault.code = OsFault.noEntry) :
    (load asked).runOn h = (.ok base, h) := by
  have htext := runOn_readDocumentText? asked h
  simp only [hmissing, hcode, if_true] at htext
  exact runOn_load hbase htext

/-- **The settings are those that are read from what the environment, the settings written out and the
document give**, in this order. Where the document gives nothing, this changes nothing. -/
theorem runOn_load_of_document {text : String} {document : Option Value}
    (hbase : ofEnvironment h.environment [] = .ok base)
    (htext : documentText asked h = .ok text) (hdocument : Yaml.readDocument text = .ok document) :
    (load asked).runOn h =
      ((ofEnvironment h.environment (base.dump ++ documentGiven document)).mapError .settings, h) := by
  have hread := runOn_readDocumentText? asked h
  simp only [htext] at hread
  rw [runOn_load hbase hread]
  simp only [hdocument]
  cases documentGiven document with
  | nil =>
    have hsame : ofEnvironment h.environment (base.dump ++ []) = .ok base :=
      (ofEnvironment_dump_iff hbase []).2 fun _ _ => rfl
    rw [hsame]
    rfl
  | cons first more => rfl

theorem load_eq_ok_iff {text : String} {document : Option Value}
    (hbase : ofEnvironment h.environment [] = .ok base)
    (htext : documentText asked h = .ok text) (hdocument : Yaml.readDocument text = .ok document) :
    (load asked).runOn h = (.ok settings, h) ↔
      ∀ (α : Type) (f : Setting α),
        f.Takes ((documentGiven document).value? f.name) (f.value base) (f.value settings) := by
  rw [runOn_load_of_document hbase htext hdocument, ← ofEnvironment_dump_iff hbase, Prod.mk.injEq,
    mapError_eq_ok, and_iff_left rfl]

/-- **Documents, variables and defaults, setting by setting.** Where a variable names a setting, that
has the value of the variable, else the default. A document that is a mapping is admitted if what it
has for the names of settings is; then each setting that it names has the value that it gives, null
too where the setting may be missing, and the others are as without it, whatever else it has. A
document that is no mapping or is not there gives nothing. -/
theorem load_precedence (hbase : ofEnvironment h.environment [] = .ok base) (asked : Option Path) :
    (∀ (α : Type) (f : Setting α),
      f.Takes ((environmentGiven h.environment).value? f.name) (f.value {}) (f.value base)) ∧
    (∀ text entries, documentText asked h = .ok text →
      Yaml.readDocument text = .ok (some (.mapping entries)) →
      (∀ settings, (load asked).runOn h = (.ok settings, h) ↔ ∀ (α : Type) (f : Setting α),
        f.Takes (Value.member? f.name (.mapping entries)) (f.value base) (f.value settings)) ∧
      ((∀ (α : Type) (f : Setting α), ∀ v ∈ Value.member? f.name (.mapping entries),
        ∃ a, f.form.read v = .ok a) → ∃ settings, (load asked).runOn h = (.ok settings, h))) ∧
    (∀ text document, documentText asked h = .ok text → Yaml.readDocument text = .ok document →
      (∀ entries, document ≠ some (.mapping entries)) → (load asked).runOn h = (.ok base, h)) ∧
    ∀ fault, documentText asked h = .error (.os fault) → fault.code = OsFault.noEntry →
      (load asked).runOn h = (.ok base, h) := by
  refine ⟨fun α f => ?_, fun text entries htext hdocument => ?_,
    fun text document htext hdocument hmapping => ?_,
    fun fault hmissing hcode => runOn_load_of_missing hbase hmissing hcode⟩
  · have htakes := amend_eq_ok_iff.1 hbase α f
    rwa [List.append_nil] at htakes
  · have hload : ∀ settings, (load asked).runOn h = (.ok settings, h) ↔
        ∀ (α : Type) (f : Setting α),
          f.Takes (Value.member? f.name (.mapping entries)) (f.value base) (f.value settings) := by
      intro settings
      rw [load_eq_ok_iff hbase htext hdocument]
      simp only [value?_documentGiven]
    refine ⟨hload, fun hadmitted => ?_⟩
    simp only [hload]
    refine exists_value fun α f => ?_
    cases hmember : Value.member? f.name (.mapping entries) with
    | none => exact ⟨f.value base, rfl⟩
    | some v => exact hadmitted α f v hmember
  · refine (load_eq_ok_iff hbase htext hdocument).2 fun α f => ?_
    have hnone : documentGiven document = [] := by
      rw [documentGiven]
      exact hmapping
    rw [hnone]
    rfl

/-- A document with a number, a null, and an entry that no setting has the name of. -/
def overlayText : String :=
  "iterations: 5\ndelegated_root: null\nother: 1\n"

/-- Whether a document was read as that one. -/
def isOverlay : Except Yaml.Fault (Option Value) → Bool
  | .ok (some (.mapping [(.text "iterations", .integer 5), (.text "delegated_root", .null),
      (.text "other", .integer 1)])) => true
  | _ => false

end Settings

/-- A host whose environment has three settings, two of which its document replaces. -/
def Host.configured : Host where
  environment := [("MEMPROBE_CONF", "/c.yaml"), ("MEMPROBE_ITERATIONS", "12"),
    ("MEMPROBE_DELEGATED_ROOT", "/r"), ("MEMPROBE_LOW_BYTES", "7")]
  tree := ⟨[(["c.yaml"], .file Settings.overlayText.toUTF8)]⟩

/-- The number and the null of the document replace those of the environment, the rest stays. -/
theorem Settings.load_precedence_overlay :
    let base : Settings := { iterations := 12, delegatedRoot := some (.read "/r"), lowBytes := 7 }
    ofEnvironment Host.configured.environment [] = .ok base ∧
      documentText none Host.configured = .ok overlayText ∧
      isOverlay (Yaml.readDocument overlayText) = true ∧
      (load none).runOn Host.configured =
        (.ok { base with iterations := 5, delegatedRoot := none }, Host.configured) := by
  intro base
  have hbase : ofEnvironment Host.configured.environment [] = .ok base := by decide +kernel
  have htext : documentText none Host.configured = .ok overlayText := by decide +kernel
  have hoverlay : isOverlay (Yaml.readDocument overlayText) = true := by decide +kernel
  refine ⟨hbase, htext, hoverlay, ?_⟩
  obtain ⟨-, hmapping, -⟩ := load_precedence hbase none
  cases hdocument : Yaml.readDocument overlayText with
  | error fault => simp [hdocument, isOverlay] at hoverlay
  | ok document =>
    rw [hdocument] at hoverlay
    unfold isOverlay at hoverlay
    split at hoverlay
    · rename_i heq
      cases heq
      obtain ⟨hload, -⟩ := hmapping _ _ htext hdocument
      refine (hload _).2 fun α f => ?_
      cases f <;> rfl
    · cases hoverlay

end MemoryLimit
