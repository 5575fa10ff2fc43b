import MemoryLimit.Host.Files
import MemoryLimit.Proofs.Host.Tree
import MemoryLimit.Proofs.Text.Raw

/-!
# Texts in files

A file that was replaced has the text that it was replaced by, whatever was there before and
whatever name its bytes had meanwhile. A text without carriage returns is read as it is.

## Main definitions

* `Host.Holds` — the file at a path has a text, and reading it goes well.

## Main statements

* `Host.runOn_readText` — the text of a file is read.
* `Host.replaceFile_bytes` — what a file has after it was replaced.
-/
namespace MemoryLimit

/-- A path that no call takes. -/
def Path.hasNull (p : Path) : Bool :=
  p.names.any fun name => name.toList.contains '\x00'

namespace Host

variable {h t : Host} {p path : Path} {text : String}

/-! ## The smallest steps -/

theorem runOn_disturb (call : Call) (p : Path) (h : Host) :
    (disturb call p).runOn h =
      (.ok (Disturbance.strike call p.name h.disturbances).1,
        { h with deeds := h.deeds ++ [.called call p],
                 disturbances := (Disturbance.strike call p.name h.disturbances).2 }) := rfl

theorem runOn_checkPath (p : Path) (h : Host) :
    (checkPath p).runOn h =
      (if p.hasNull then .error (.invalid .nullCharacter) else .ok (), h) := by
  rw [checkPath, Path.hasNull]
  split <;> rfl

/-- A successful look at the tree gives what the tree has and changes nothing. -/
theorem lookUp_eq_ok {α : Type} {f : Tree → Place → Path → Except Int α} {a : α} :
    (lookUp p f).runOn h = (.ok a, t) ↔
      p.hasNull = false ∧ f h.tree h.directory p = .ok a ∧ t = h := by
  rw [lookUp, Action.runOn_bind, runOn_checkPath]
  cases hnull : p.hasNull with
  | true => simp
  | false =>
    rw [if_neg (by simp)]
    simp only [Action.runOn_bind, Action.runOn_get]
    cases hf : f h.tree h.directory p with
    | ok b => simp [eq_comm]
    | error code => simp

/-- A successful change of the tree changes nothing else. -/
theorem change_eq_ok {f : Tree → Place → Path → Except Int Tree} :
    (change p f).runOn h = (.ok (), t) ↔
      p.hasNull = false ∧
        ∃ tree, f h.tree h.directory p = .ok tree ∧ t = { h with tree := tree } := by
  rw [change, Action.runOn_bind_eq_ok]
  constructor
  · rintro ⟨tree, u, hlook, hset⟩
    obtain ⟨hnull, hf, rfl⟩ := lookUp_eq_ok.1 hlook
    rw [Action.runOn_modify] at hset
    cases hset
    exact ⟨hnull, tree, hf, rfl⟩
  · rintro ⟨hnull, tree, hf, rfl⟩
    exact ⟨tree, h, lookUp_eq_ok.2 ⟨hnull, hf, rfl⟩, rfl⟩

/-! ## Reading -/

theorem decode_toUTF8 (text : String) : decode text.toUTF8 = .ok text := by
  have hvalid : String.fromUTF8? text.toUTF8 = some text := by
    rw [String.fromUTF8?, String.toUTF8_eq_toByteArray, dif_pos text.isValidUTF8]
    rfl
  rw [decode, hvalid]

/-- The next call of a kind on a path goes as it should. -/
def Undisturbed (h : Host) (call : Call) (p : Path) : Prop :=
  (Disturbance.strike call p.name h.disturbances).1 = none

/-- The file at a path has a text, and the next reading of it is not disturbed. -/
structure Holds (h : Host) (p : Path) (text : String) : Prop where
  hasNull : p.hasNull = false
  undisturbed : h.Undisturbed .read p
  bytes : h.tree.readFile h.directory p = .ok text.toUTF8

/-- **The text of a file is read**, with its carriage returns folded. -/
theorem runOn_readText (hholds : h.Holds p text) :
    ∃ t, (readText p).runOn h = (.ok (String.ofList (Text.foldReturns text.toList)), t) := by
  let u : Host := { h with deeds := h.deeds ++ [.called .read p],
                           disturbances := (Disturbance.strike .read p.name h.disturbances).2 }
  have hlook : (lookUp p Tree.readFile).runOn u = (.ok text.toUTF8, u) :=
    lookUp_eq_ok.2 ⟨hholds.hasNull, hholds.bytes, rfl⟩
  refine ⟨u, ?_⟩
  rw [readText, Action.runOn_bind_ok (runOn_disturb .read p h),
    show (Disturbance.strike .read p.name h.disturbances).1 = none from hholds.undisturbed]
  simp only
  rw [openText, Action.runOn_bind_ok hlook,
    Action.runOn_bind_ok (a := text) (t := u) (by rw [Action.runOn_liftM, decode_toUTF8]),
    Action.runOn_pure]

/-! ## Replacing -/

/-- The bytes of a text are those of a string. -/
theorem encode_eq_ok_iff {text : RawText} {bytes : ByteArray} :
    encode text = .ok bytes ↔ text.isText = true ∧ bytes = text.string.toUTF8 := by
  rw [← RawText.encode_eq_ok_iff, encode]
  cases text.encode <;> simp [Except.mapError]

/-- An action whose failures are passed on succeeds only by itself. -/
theorem tryCatch_throw_eq_ok {α : Type} {x : Action Host α} {last : Failure → Action Host Unit}
    {a : α}
    (hrun : (tryCatch x fun failure => do last failure; throw failure).runOn h = (.ok a, t)) :
    x.runOn h = (.ok a, t) := by
  rw [Action.runOn_tryCatch] at hrun
  cases hx : x.runOn h with
  | mk outcome u =>
    rw [hx] at hrun
    cases outcome with
    | ok b => exact hrun
    | error failure =>
      simp only [Action.runOn_bind_eq_ok] at hrun
      obtain ⟨_, _, -, hthrow⟩ := hrun
      simp at hthrow

/-- A file that was moved is what the target has. -/
theorem moveFile_bytes {source target : Path} {bytes : ByteArray}
    (hrun : (moveFile source target).runOn h = (.ok (), t))
    (hsource : h.tree.readFile h.directory source = .ok bytes) :
    target.hasNull = false ∧ t.tree.readFile t.directory target = .ok bytes := by
  rw [moveFile, Action.runOn_bind_ok (runOn_disturb .replace target h)] at hrun
  split at hrun
  · cases hrun
  · obtain ⟨_, _, -, hthrow⟩ := Action.runOn_bind_eq_ok.1 hrun
    cases hthrow
  · obtain ⟨hnull, tree, hmove, rfl⟩ := change_eq_ok.1 hrun
    exact ⟨hnull, Tree.readFile_moveFile hmove hsource⟩

/-- Only the bytes of a text are written, so a text that was written is one without halves. -/
theorem fill_eq_ok {text : RawText} (hrun : (fill p text).runOn h = (.ok (), t)) :
    text.isText = true ∧ ∃ u,
      (change p fun tree directory p => tree.writeFile directory p text.string.toUTF8).runOn u =
        (.ok (), t) := by
  obtain ⟨bytes, u, hencode, hrun⟩ := Action.runOn_bind_eq_ok.1 hrun
  obtain ⟨_, v, -, hwrite⟩ := Action.runOn_bind_eq_ok.1 hrun
  rw [Action.runOn_liftM, Prod.mk.injEq, encode_eq_ok_iff] at hencode
  obtain ⟨⟨htext, rfl⟩, -⟩ := hencode
  exact ⟨htext, v, hwrite⟩

/-- **A file that was replaced has the text that it was replaced by**, and that has no halves. -/
theorem replaceFile_bytes {text : RawText} (hrun : (replaceFile p text).runOn h = (.ok (), t)) :
    text.isText = true ∧ p.hasNull = false ∧
      t.tree.readFile t.directory p = .ok text.string.toUTF8 := by
  rw [replaceFile, Action.runOn_bind_eq_ok] at hrun
  obtain ⟨_, h₁, -, hrun⟩ := hrun
  obtain ⟨temporary, h₂, -, hrun⟩ := Action.runOn_bind_eq_ok.1 hrun
  obtain ⟨_, h₃, hfill, hmove⟩ := Action.runOn_bind_eq_ok.1 (tryCatch_throw_eq_ok hrun)
  obtain ⟨htext, h₄, hwrite⟩ := fill_eq_ok hfill
  obtain ⟨-, tree, hwritten, rfl⟩ := change_eq_ok.1 hwrite
  exact ⟨htext, moveFile_bytes hmove (Tree.readFile_writeFile hwritten)⟩

end Host

end MemoryLimit
