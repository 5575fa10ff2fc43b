import MemoryLimit.Proofs.Host.Nodes

/-!
# The ways in which calls on files fail

What an action can fail with is settled by its parts. An action that is put together from calls on
the file tree fails by a fault of the operating system, or because a path is none. Looking whether
there is something at a path does not fail, unless the path is too long.

## Main definitions

* `Action.FailsAs` — every failure of an action is of a given kind.
* `Action.FailsByFault` — an action fails by faults of the operating system only.
* `Failure.OfFiles`, `Failure.OfWriting` — the failures of calls on files, and of writing a text.
* `Host.Overlong` — a path is too long to be looked for.

## Main statements

* `Host.nodeAt?_cases` — what becomes of looking at a path.
* `Host.ofWriting_replaceFile` — replacing a file fails as calls on files do, or for halves in the
  text.
-/
namespace MemoryLimit

namespace Action

variable {σ α β : Type} {Q : Failure → Prop}

/-- Every failure of the action is of the given kind. -/
def FailsAs (Q : Failure → Prop) (x : Action σ α) : Prop :=
  ∀ s e t, x.runOn s = (.error e, t) → Q e

theorem FailsAs.pure (a : α) : FailsAs Q (pure a : Action σ α) := by
  rintro _ _ _ ⟨⟩

theorem FailsAs.throw {e : Failure} (he : Q e) : FailsAs Q (throw e : Action σ α) := by
  rintro _ _ _ ⟨⟩
  exact he

theorem FailsAs.mono {R : Failure → Prop} {x : Action σ α} (hx : FailsAs Q x)
    (hQR : ∀ e, Q e → R e) : FailsAs R x :=
  fun s e t hrun => hQR e (hx s e t hrun)

theorem FailsAs.get : FailsAs Q (get : Action σ σ) := by
  rintro _ _ _ ⟨⟩

theorem FailsAs.modify (f : σ → σ) : FailsAs Q (modify f : Action σ PUnit) := by
  rintro _ _ _ ⟨⟩

theorem FailsAs.liftM {x : Except Failure α} (hx : ∀ e, x = .error e → Q e) :
    FailsAs Q (liftM x : Action σ α) := by
  intro s e t hrun
  rw [runOn_liftM] at hrun
  exact hx e (congrArg Prod.fst hrun)

theorem FailsAs.bind {x : Action σ α} {f : α → Action σ β} (hx : FailsAs Q x)
    (hf : ∀ a, FailsAs Q (f a)) : FailsAs Q (x >>= f) := by
  intro s e t hrun
  rcases runOn_bind_cases hrun with ⟨failure, hfirst, hsame⟩ | ⟨a, u, -, hsecond⟩
  · cases hsame
    exact hx s _ t hfirst
  · exact hf a u e t hsecond

/-- What is answered by a handler need be of the kind that the handler is for. -/
theorem FailsAs.tryCatch {x : Action σ α} {handle : Failure → Action σ α} (hx : FailsAs Q x)
    (hhandle : ∀ e, Q e → FailsAs Q (handle e)) : FailsAs Q (tryCatch x handle) := by
  intro s e t hrun
  rw [runOn_tryCatch] at hrun
  split at hrun
  · cases hrun
  · rename_i failure u hfailed
    exact hhandle failure (hx s failure u hfailed) u e t hrun

theorem FailsAs.onFault {x : Action σ α} {handle : OsFault → Action σ α} (hx : FailsAs Q x)
    (hhandle : ∀ fault, FailsAs Q (handle fault)) : FailsAs Q (x.onFault handle) := by
  refine hx.tryCatch fun e he => ?_
  cases e with
  | os fault => exact hhandle fault
  | _ => exact .throw he

/-- The action fails by faults of the operating system only. -/
def FailsByFault (x : Action σ α) : Prop :=
  ∀ s e t, x.runOn s = (.error e, t) → ∃ fault, e = .os fault

theorem FailsByFault.pure (a : α) : FailsByFault (pure a : Action σ α) :=
  FailsAs.pure a

theorem FailsByFault.throw (fault : OsFault) : FailsByFault (throw (.os fault) : Action σ α) :=
  FailsAs.throw ⟨fault, rfl⟩

theorem FailsByFault.bind {x : Action σ α} {f : α → Action σ β} (hx : FailsByFault x)
    (hf : ∀ a, FailsByFault (f a)) : FailsByFault (x >>= f) :=
  FailsAs.bind hx hf

theorem FailsByFault.modify (f : σ → σ) : FailsByFault (modify f : Action σ PUnit) :=
  FailsAs.modify f

/-- A fault that is answered without a failure is no failure. -/
theorem FailsByFault.runOn_onFault {x : Action σ α} (hx : FailsByFault x)
    (handle : OsFault → Action σ α) (hhandle : ∀ fault s, ∃ a t, (handle fault).runOn s = (.ok a, t)) (s : σ) :
    ∃ a t, (x.onFault handle).runOn s = (.ok a, t) := by
  rw [Action.runOn_onFault]
  cases hrun : x.runOn s with
  | mk outcome t =>
    cases outcome with
    | ok a => exact ⟨a, t, rfl⟩
    | error e =>
      obtain ⟨fault, rfl⟩ := hx s e t hrun
      exact hhandle fault t

end Action

/-! ## Looking for something -/

namespace Tree

variable {t : Tree} {directory place : Place} {p : Path} {code : Int}

/-- The codes of the faults that looking for something has. -/
def IsMiss (code : Int) : Prop :=
  code = OsFault.noEntry ∨ code = OsFault.notDirectory ∨ code = OsFault.nameTooLong

theorem isMiss_of_step {name : String} (h : t.step place name = .error code) : IsMiss code := by
  rw [step] at h
  split at h
  · cases h
    exact .inl rfl
  · cases h
    exact .inr (.inl rfl)
  · split at h
    · cases h
    · split at h
      · cases h
        exact .inr (.inr rfl)
      · cases h

theorem isMiss_of_locate (h : t.locate directory p = .error code) : IsMiss code := by
  rw [locate] at h
  split at h
  · cases h
    exact .inr (.inr rfl)
  · generalize (if p.isAbsolute then [] else directory) = start at h
    generalize p.names = names at h
    induction names generalizing start with
    | nil => cases h
    | cons name rest ih =>
      rw [List.foldlM_cons] at h
      cases hstep : t.step start name with
      | error other =>
        rw [hstep] at h
        cases h
        exact isMiss_of_step hstep
      | ok next =>
        rw [hstep] at h
        exact ih next h

theorem isMiss_of_find (h : t.find directory p = .error code) : IsMiss code := by
  rw [find] at h
  cases hlocate : t.locate directory p with
  | error other =>
    rw [hlocate] at h
    cases h
    exact isMiss_of_locate hlocate
  | ok place =>
    rw [hlocate] at h
    simp only [bind, Except.bind] at h
    split at h
    · cases h
    · cases h
      exact .inl rfl

end Tree

namespace Host

variable {h : Host} {p : Path}

/-- A path, or a name in it, is too long for the path to be looked for. -/
structure Overlong (h : Host) (p : Path) : Prop where
  hasNull : p.hasNull = false
  find : h.tree.find h.directory p = .error OsFault.nameTooLong

/-- Whether a path is too long depends on the tree and the working directory alone. -/
theorem overlong_congr {t : Host} (htree : t.tree = h.tree) (hdirectory : t.directory = h.directory) :
    t.Overlong p ↔ h.Overlong p := by
  constructor
  · intro hlong
    refine ⟨hlong.hasNull, ?_⟩
    rw [← htree, ← hdirectory]
    exact hlong.find
  · intro hlong
    refine ⟨hlong.hasNull, ?_⟩
    rw [htree, hdirectory]
    exact hlong.find

theorem Has.not_overlong {node : Node} (hhas : h.Has p node) : ¬ h.Overlong p := by
  intro hlong
  have hfind := hhas.find
  rw [hlong.find] at hfind
  cases hfind

/-- A path into a directory is too long only as a whole, if its last name is short. -/
theorem Overlong.le_text_of_directory {name : String} (hname : IsFileName name)
    (hshort : name.utf8ByteSize ≤ Tree.maxNameBytes) (hdirectory : h.Has p .directory)
    (hlong : h.Overlong (p.child name)) :
    Tree.maxPathBytes ≤ (p.child name).text.utf8ByteSize := by
  by_contra hlt
  obtain ⟨parent, hparent, hat⟩ := find_eq_ok_iff.1 hdirectory.find
  have hlocate : h.tree.locate h.directory (p.child name) = .ok (parent ++ [name]) := by
    rw [Tree.locate] at hparent ⊢
    rw [if_neg hlt, Path.names_child hname, Path.isAbsolute_child hname, List.foldlM_append, bind_eq_ok]
    split at hparent
    · cases hparent
    · refine ⟨parent, hparent, ?_⟩
      rw [List.foldlM_cons, Tree.step, hat]
      simp only [if_neg hname.ne_up, if_neg (Nat.not_lt.2 hshort)]
      rfl
  have hfind := hlong.find
  rw [Tree.find, hlocate] at hfind
  simp only [bind, Except.bind] at hfind
  split at hfind <;> cases hfind

theorem overlong_of_le_text (hnull : p.hasNull = false)
    (hlong : Tree.maxPathBytes ≤ p.text.utf8ByteSize) : h.Overlong p := by
  refine ⟨hnull, ?_⟩
  rw [Tree.find, Tree.locate, if_pos hlong]
  rfl

/-- **What becomes of looking at a path**: it is no failure, unless the path is too long. -/
theorem nodeAt?_cases (p : Path) (h : Host) :
    (∃ found, (nodeAt? p).runOn h = (.ok found, h)) ∨
      h.Overlong p ∧ ∃ fault, (nodeAt? p).runOn h = (.error (.os fault), h) := by
  rw [nodeAt?, Action.runOn_tryCatch, Action.runOn_map, runOn_lookUp]
  cases hnull : p.hasNull with
  | true => exact .inl ⟨none, rfl⟩
  | false =>
    rw [if_neg (by simp)]
    cases hfind : h.tree.find h.directory p with
    | ok node => exact .inl ⟨some node, rfl⟩
    | error code =>
      rcases Tree.isMiss_of_find hfind with rfl | rfl | rfl
      · exact .inl ⟨none, rfl⟩
      · exact .inl ⟨none, rfl⟩
      · exact .inr ⟨⟨hnull, hfind⟩, _, rfl⟩

theorem pathExists_cases (p : Path) (h : Host) :
    (∃ found, (pathExists p).runOn h = (.ok found, h)) ∨
      h.Overlong p ∧ ∃ fault, (pathExists p).runOn h = (.error (.os fault), h) := by
  rw [pathExists]
  rcases nodeAt?_cases p h with ⟨found, hrun⟩ | ⟨hlong, fault, hrun⟩
  · exact .inl ⟨_, by rw [Action.runOn_bind_ok hrun, Action.runOn_pure]⟩
  · exact .inr ⟨hlong, fault, Action.runOn_bind_error hrun⟩

theorem runOn_pathExists_of_has (hhas : h.Has p node) : (pathExists p).runOn h = (.ok true, h) := by
  rcases pathExists_cases p h with ⟨found, hlook⟩ | ⟨hlong, -⟩
  · obtain ⟨-, hfound⟩ := pathExists_eq_ok hlook
    obtain rfl := hfound.2 ⟨node, hhas⟩
    exact hlook
  · exact absurd hlong hhas.not_overlong

theorem isDirectory_cases (p : Path) (h : Host) :
    (∃ found, (isDirectory p).runOn h = (.ok found, h)) ∨
      h.Overlong p ∧ ∃ fault, (isDirectory p).runOn h = (.error (.os fault), h) := by
  rw [isDirectory]
  rcases nodeAt?_cases p h with ⟨found, hrun⟩ | ⟨hlong, fault, hrun⟩
  · exact .inl ⟨_, by rw [Action.runOn_bind_ok hrun, Action.runOn_pure]⟩
  · exact .inr ⟨hlong, fault, Action.runOn_bind_error hrun⟩

end Host

/-- A failure that a call on a file has: a fault of the operating system, or a path that is none. -/
inductive Failure.OfFiles : Failure → Prop
  | os (fault : OsFault) : OfFiles (.os fault)
  | nullCharacter : OfFiles (.invalid .nullCharacter)

/-- A failure that writing a text to a file has: one of a call on files, or that the text has halves,
which have no bytes. -/
inductive Failure.OfWriting (text : RawText) : Failure → Prop
  | ofFiles {failure : Failure} (h : failure.OfFiles) : OfWriting text failure
  | unencodable {halves : HalfRun} (h : text.encode = .error halves) :
    OfWriting text (.unencodable halves)

namespace Host

open MemoryLimit.Action (FailsAs FailsByFault)
open Failure (OfFiles OfWriting)

/-! ## Calls on the tree -/

section Calls

variable {Q : Failure → Prop} (hos : ∀ fault, Q (.os fault))
include hos

theorem failsAs_pass (call : Call) (p : Path) : FailsAs Q (pass call p) := by
  intro h e t hrun
  rw [pass, Action.runOn_bind_ok (runOn_disturb call p h)] at hrun
  split at hrun
  · cases hrun
    exact hos _
  · cases hrun

theorem failsAs_lookUp {α : Type} {p : Path}
    (hnull : p.hasNull = true → Q (.invalid .nullCharacter))
    (f : Tree → Place → Path → Except Int α) : FailsAs Q (lookUp p f) := by
  intro h e t hrun
  rw [runOn_lookUp] at hrun
  split at hrun
  · rename_i hp
    cases hrun
    exact hnull hp
  · cases hf : f h.tree h.directory p with
    | ok a =>
      rw [hf] at hrun
      cases hrun
    | error code =>
      rw [hf] at hrun
      cases hrun
      exact hos _

/-- A change of the tree fails by a fault, unless the path is none. -/
theorem failsAs_change {p : Path} (hnull : p.hasNull = true → Q (.invalid .nullCharacter))
    (f : Tree → Place → Path → Except Int Tree) : FailsAs Q (change p f) :=
  (failsAs_lookUp hos hnull f).bind fun _ => .modify _

theorem failsAs_isDirectory (p : Path) : FailsAs Q (isDirectory p) := by
  intro h e t hrun
  rcases isDirectory_cases p h with ⟨found, hok⟩ | ⟨-, fault, hfault⟩
  · rw [hok] at hrun
    cases hrun
  · rw [hfault] at hrun
    cases hrun
    exact hos fault

theorem failsAs_makeDirectory {p : Path} (hnull : p.hasNull = true → Q (.invalid .nullCharacter)) :
    FailsAs Q (makeDirectory p) := by
  refine (failsAs_pass hos _ _).bind fun _ => (failsAs_change hos hnull _).onFault fun fault => ?_
  refine (failsAs_isDirectory hos p).bind fun found => ?_
  split
  · exact .pure _
  · exact .throw (hos fault)

theorem failsAs_tryFresh {make : Path → Action Host Unit} {parent : Path} {stem : String}
    (hmake : ∀ count, FailsAs Q (make (freshPath parent stem count))) (fuel : Nat) :
    FailsAs Q (tryFresh make parent stem fuel) := by
  induction fuel with
  | zero => exact .throw (hos _)
  | succ fuel ih =>
    refine FailsAs.get.bind fun h => (FailsAs.modify _).bind fun _ => ?_
    refine (((hmake _).bind fun _ => .pure _).onFault fun fault => ?_).bind fun made => ?_
    · split
      · exact .pure _
      · exact .throw (hos fault)
    · split
      · exact .pure _
      · exact ih

theorem failsAs_makeFreshDirectory {parent : Path} {stem : String}
    (hnull : ∀ count, (freshPath parent stem count).hasNull = true → Q (.invalid .nullCharacter)) :
    FailsAs Q (makeFreshDirectory parent stem) :=
  (failsAs_pass hos _ _).bind fun _ => FailsAs.get.bind fun _ =>
    failsAs_tryFresh hos (fun count => failsAs_change hos (hnull count) _) _

end Calls

theorem failsByFault_pass (call : Call) (p : Path) : FailsByFault (pass call p) :=
  failsAs_pass (fun fault => ⟨fault, rfl⟩) call p

/-- A change of the tree fails by a fault, unless the path is none. -/
theorem failsByFault_change (hnull : p.hasNull = false)
    (f : Tree → Place → Path → Except Int Tree) : FailsByFault (change p f) :=
  failsAs_change (fun fault => ⟨fault, rfl⟩) (fun hp => by simp [hnull] at hp) f

theorem failsByFault_writeText (hnull : p.hasNull = false) (text : String) :
    FailsByFault (writeText p text) := by
  intro h e t hrun
  rw [writeText, Action.runOn_bind_ok (runOn_disturb .write p h)] at hrun
  split at hrun
  · cases hrun
    exact ⟨_, rfl⟩
  · cases hrun
  · exact failsByFault_change hnull _ _ _ _ hrun

theorem ofFiles_change (p : Path) (f : Tree → Place → Path → Except Int Tree) :
    FailsAs OfFiles (change p f) :=
  failsAs_change .os (fun _ => .nullCharacter) f

/-! ## Directories -/

theorem ofFiles_makeDirectory (p : Path) : FailsAs OfFiles (makeDirectory p) :=
  failsAs_makeDirectory .os fun _ => .nullCharacter

theorem ofFiles_makeDirectoriesUpTo (above : Nat) (p : Path) :
    FailsAs OfFiles (makeDirectoriesUpTo above p) := by
  induction above generalizing p with
  | zero => exact ofFiles_makeDirectory p
  | succ above ih =>
    rw [makeDirectoriesUpTo]
    refine (failsAs_pass .os _ _).bind fun _ => (ofFiles_change p _).onFault fun fault => ?_
    split
    · split
      · exact .throw (.os fault)
      · exact (ih p.parent).bind fun _ => ofFiles_makeDirectory p
    · refine (failsAs_isDirectory .os p).bind fun found => ?_
      split
      · exact .pure _
      · exact .throw (.os fault)

/-! ## Replacing a file -/

theorem ofFiles_createFresh (p : Path) : FailsAs OfFiles (createFresh p) :=
  (failsAs_pass .os _ _).bind fun _ => FailsAs.get.bind fun _ => FailsAs.get.bind fun _ =>
    failsAs_tryFresh .os (fun _ => ofFiles_change _ _) _

theorem ofFiles_discard (p : Path) : FailsAs OfFiles (discard p) := by
  refine ((failsAs_pass .os _ _).bind fun _ => ofFiles_change p _).onFault fun fault => ?_
  split
  · exact .pure _
  · exact .throw (.os fault)

theorem ofFiles_moveFile (source target : Path) : FailsAs OfFiles (moveFile source target) := by
  have hdisturb : FailsAs OfFiles (disturb .replace target) := by
    intro h e t hrun
    rw [runOn_disturb] at hrun
    cases hrun
  refine hdisturb.bind fun effect => ?_
  split
  · exact .throw (.os _)
  · exact ((ofFiles_change source _).onFault fun _ => .pure _).bind fun _ => .throw (.os _)
  · exact ofFiles_change target _

theorem ofWriting_fill (p : Path) (text : RawText) : FailsAs (OfWriting text) (fill p text) := by
  have hencode : ∀ e, encode text = .error e → OfWriting text e := by
    intro e herror
    rw [encode] at herror
    cases hbytes : text.encode with
    | ok bytes => simp [hbytes, Except.mapError] at herror
    | error halves =>
      rw [hbytes] at herror
      cases herror
      exact .unencodable hbytes
  have hwrite : FailsAs OfFiles (pass .fill p) := failsAs_pass .os _ _
  exact (FailsAs.liftM hencode).bind fun bytes =>
    (hwrite.bind fun _ => ofFiles_change p _).mono fun _ => .ofFiles

/-- **Replacing a file fails as writing the text to a file does.** -/
theorem ofWriting_replaceFile (target : Path) (text : RawText) :
    FailsAs (OfWriting text) (replaceFile target text) := by
  refine ((ofFiles_makeDirectoriesUpTo _ _).mono fun _ => .ofFiles).bind fun _ =>
    ((ofFiles_createFresh target).mono fun _ => .ofFiles).bind fun temporary => ?_
  have hwritten : FailsAs (OfWriting text) (do fill temporary text; moveFile temporary target) :=
    (ofWriting_fill temporary text).bind fun _ =>
      (ofFiles_moveFile temporary target).mono fun _ => .ofFiles
  exact hwritten.tryCatch fun failure hfailure =>
    ((ofFiles_discard temporary).mono fun _ => .ofFiles).bind fun _ => .throw hfailure

/-- A text that has bytes is written unless calls on files fail. -/
theorem ofFiles_replaceFile (target : Path) {text : RawText} (htext : text.isText = true) :
    FailsAs OfFiles (replaceFile target text) := by
  refine (ofWriting_replaceFile target text).mono fun failure hfailure => ?_
  cases hfailure with
  | ofFiles hfiles => exact hfiles
  | unencodable hencode =>
    rw [RawText.encode_of_isText htext] at hencode
    cases hencode

end Host

end MemoryLimit
