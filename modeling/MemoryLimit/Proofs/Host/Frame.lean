import MemoryLimit.Proofs.Host.Files
import MemoryLimit.Proofs.Path

/-!
# What actions keep

An action keeps a property of the state if the property still holds when the action has ended,
whether it ended with a value or with a failure. Whatever is put together from actions that keep
it keeps it. Looking at files changes nothing but the record of the calls, so it keeps whatever
does not depend on that; and how the file tree has changed since some moment is kept by every
action whose own changes are of that kind.

## Main definitions

* `Action.Keeps` — the property still holds after the action.
* `Host.Unobserving` — a property of the host that does not depend on what was called and reported.
* `Host.Unrecording` — one that does not depend on what was done with processes, either.
* `Host.Treeless` — a property that does not depend on the tree, either.
* `Host.Evolves` — how a host may have changed since, its tree in a way that is given.
* `Host.Grounded` — a property that only depends on the tree and on what lies beside it.
* `Host.Allows` — changes of the tree at a path that keep a property.

## Main statements

* `Host.keeps_readText` — reading a file keeps a property that does not depend on calls.
* `Host.keeps_writeText`, `Host.keeps_makeDirectory`, `Host.keeps_removeDirectory` — a call that
  changes the tree keeps what its change keeps.
-/
namespace MemoryLimit

namespace Action

variable {σ α β : Type} {P : σ → Prop}

/-- Two actions in a row end where the first one fails, or where the second one ends. -/
theorem runOn_bind_cases {x : Action σ α} {f : α → Action σ β} {s t : σ}
    {outcome : Except Failure β} (hrun : (x >>= f).runOn s = (outcome, t)) :
    (∃ failure, x.runOn s = (.error failure, t) ∧ outcome = .error failure) ∨
      ∃ a u, x.runOn s = (.ok a, u) ∧ (f a).runOn u = (outcome, t) := by
  rw [runOn_bind] at hrun
  cases hx : x.runOn s with
  | mk first u =>
    rw [hx] at hrun
    cases first with
    | ok a => exact .inr ⟨a, u, rfl, hrun⟩
    | error failure =>
      cases hrun
      exact .inl ⟨failure, rfl, rfl⟩

/-- The property still holds after the action, whatever that ended with. -/
def Keeps (P : σ → Prop) (x : Action σ α) : Prop :=
  ∀ s, P s → P (x.runOn s).2

theorem Keeps.after {x : Action σ α} {s t : σ} {outcome : Except Failure α} (hx : Keeps P x)
    (hrun : x.runOn s = (outcome, t)) (hs : P s) : P t := by
  have ht := hx s hs
  rwa [hrun] at ht

theorem Keeps.pure (a : α) : Keeps P (pure a : Action σ α) :=
  fun _ h => h

theorem Keeps.throw (e : Failure) : Keeps P (throw e : Action σ α) :=
  fun _ h => h

theorem Keeps.liftM (x : Except Failure α) : Keeps P (liftM x : Action σ α) := by
  intro s h
  rwa [runOn_liftM]

theorem Keeps.get : Keeps P (get : Action σ σ) :=
  fun _ h => h

/-- What follows the look at the state need keep the property only for states that have it. -/
theorem Keeps.get_bind {f : σ → Action σ β} (hf : ∀ s, P s → Keeps P (f s)) :
    Keeps P ((MonadState.get : Action σ σ) >>= f) := by
  intro s hs
  rw [runOn_bind_ok (runOn_get s)]
  exact hf s hs s hs

theorem Keeps.modify {f : σ → σ} (hf : ∀ s, P s → P (f s)) :
    Keeps P (modify f : Action σ PUnit) :=
  hf

theorem Keeps.modifyGet {f : σ → α × σ} (hf : ∀ s, P s → P (f s).2) :
    Keeps P (modifyGet f : Action σ α) :=
  hf

/-- The second action need keep the property only for the values that the first one gives. -/
theorem Keeps.bind_of_gives {x : Action σ α} {f : α → Action σ β} (given : α → Prop)
    (hx : Keeps P x) (hgiven : ∀ s a t, P s → x.runOn s = (.ok a, t) → given a)
    (hf : ∀ a, given a → Keeps P (f a)) : Keeps P (x >>= f) := by
  intro s h
  cases hrun : (x >>= f).runOn s with
  | mk outcome t =>
    rcases runOn_bind_cases hrun with ⟨failure, hfail, -⟩ | ⟨a, u, hfirst, hsecond⟩
    · exact hx.after hfail h
    · exact (hf a (hgiven s a u h hfirst)).after hsecond (hx.after hfirst h)

theorem Keeps.bind {x : Action σ α} {f : α → Action σ β} (hx : Keeps P x)
    (hf : ∀ a, Keeps P (f a)) : Keeps P (x >>= f) :=
  hx.bind_of_gives (fun _ => True) (fun _ _ _ _ _ => trivial) fun a _ => hf a

theorem Keeps.tryCatch {x : Action σ α} {handle : Failure → Action σ α} (hx : Keeps P x)
    (hhandle : ∀ e, Keeps P (handle e)) : Keeps P (tryCatch x handle) := by
  intro s h
  have hfirst := hx s h
  rw [runOn_tryCatch]
  cases hrun : x.runOn s with
  | mk outcome t =>
    rw [hrun] at hfirst
    cases outcome with
    | ok a => exact hfirst
    | error e => exact hhandle e t hfirst

theorem Keeps.onFault {x : Action σ α} {handle : OsFault → Action σ α} (hx : Keeps P x)
    (hhandle : ∀ fault, Keeps P (handle fault)) : Keeps P (x.onFault handle) := by
  refine hx.tryCatch fun e => ?_
  cases e with
  | os fault => exact hhandle fault
  | _ => exact .throw _

end Action

namespace Host

open MemoryLimit.Action (Keeps)

/-- The property still holds after calls, reports and pauses, whatever was disturbed, and after the
clock was read and names were drawn. -/
structure Unobserving (P : Host → Prop) : Prop where
  called : ∀ h call p, P h → P { h with deeds := h.deeds ++ [.called call p] }
  disturbed : ∀ h call name, P h →
    P { h with disturbances := (Disturbance.strike call name h.disturbances).2 }
  reported : ∀ h journal, P h → P { h with journal := journal }
  paused : ∀ h naps, P h → P { h with naps := naps }
  ticked : ∀ h, P h → P { h with clock := h.clock.tail }
  drawn : ∀ h count, P h → P { h with freshNames := count }

/-- A property that does not depend on what was done with processes, either. -/
structure Unrecording (P : Host → Prop) : Prop extends Unobserving P where
  noted : ∀ h deeds, P h → P { h with deeds := deeds }
  launched : ∀ h launches, P h → P { h with launches := launches }

variable {P : Host → Prop}

theorem keeps_disturb (hP : Unobserving P) (call : Call) (p : Path) : Keeps P (disturb call p) :=
  .bind (.modify fun h => hP.called h call p) fun _ => .modifyGet fun h => hP.disturbed h _ _

theorem keeps_pass (hP : Unobserving P) (call : Call) (p : Path) : Keeps P (pass call p) := by
  refine (keeps_disturb hP call p).bind fun effect => ?_
  split
  · exact .throw _
  · exact .pure _

theorem keeps_report (hP : Unobserving P) (event : Event) : Keeps P (report event) :=
  .modify fun h => hP.reported h _

/-- Looking something up changes nothing, so it keeps everything. -/
theorem keeps_lookUp {α : Type} (p : Path) (f : Tree → Place → Path → Except Int α) :
    Keeps P (lookUp p f) := by
  have hcheck : Keeps P (checkPath p) := by
    rw [checkPath]
    split
    · exact .throw _
    · exact .pure _
  refine hcheck.bind fun _ => Keeps.get.bind fun h => ?_
  split
  · exact .pure _
  · exact .throw _

theorem keeps_openText (p : Path) : Keeps P (openText p) := by
  rw [openText]
  exact (keeps_lookUp p _).bind fun _ => (Keeps.liftM _).bind fun _ => .pure _

/-- **Reading a file keeps what does not depend on the calls.** -/
theorem keeps_readText (hP : Unobserving P) (p : Path) : Keeps P (readText p) := by
  refine (keeps_disturb hP .read p).bind fun effect => ?_
  split
  · exact .throw _
  · exact .pure _
  · exact keeps_openText p

/-! ## The ground of a host -/

/-- What calls and changes make of a host: its file tree is related to the one before, it works in
the same directory, directories go as before, and no new kinds of disturbances came up. -/
structure Evolves (R : Tree → Tree → Prop) (h t : Host) : Prop where
  tree : R h.tree t.tree
  directory_eq : t.directory = h.directory
  vanish_eq : t.interfaceFilesVanish = h.interfaceFilesVanish
  disturbances : ∀ d ∈ t.disturbances, ∃ e ∈ h.disturbances, d.call = e.call ∧ d.effect = e.effect

variable {R : Tree → Tree → Prop} {h t u : Host}

theorem Evolves.refl (hR : R h.tree h.tree) : h.Evolves R h :=
  ⟨hR, rfl, rfl, fun d hd => ⟨d, hd, rfl, rfl⟩⟩

/-- Two changes in a row make one, whatever relation the trees are in after both. -/
theorem Evolves.comp {S T : Tree → Tree → Prop} (h₁ : h.Evolves R t) (h₂ : t.Evolves S u)
    (htree : T h.tree u.tree) : h.Evolves T u where
  tree := htree
  directory_eq := h₂.directory_eq.trans h₁.directory_eq
  vanish_eq := h₂.vanish_eq.trans h₁.vanish_eq
  disturbances := by
    intro d hd
    obtain ⟨e, he, hcall, heffect⟩ := h₂.disturbances d hd
    obtain ⟨e', he', hcall', heffect'⟩ := h₁.disturbances e he
    exact ⟨e', he', hcall.trans hcall', heffect.trans heffect'⟩

theorem Evolves.trans (htrans : ∀ x y z : Tree, R x y → R y z → R x z) (h₁ : h.Evolves R t)
    (h₂ : t.Evolves R u) : h.Evolves R u :=
  h₁.comp h₂ (htrans _ _ _ h₁.tree h₂.tree)

theorem Evolves.mono {S : Tree → Tree → Prop} (hRS : ∀ x y, R x y → S x y) (h₁ : h.Evolves R t) :
    h.Evolves S t :=
  ⟨hRS _ _ h₁.tree, h₁.directory_eq, h₁.vanish_eq, h₁.disturbances⟩

/-- Nothing changed but what was called and reported, and which disturbances are left. -/
abbrev SameGround (h t : Host) : Prop :=
  h.Evolves Eq t

theorem SameGround.refl (h : Host) : h.SameGround h :=
  Evolves.refl rfl

theorem SameGround.trans (h₁ : h.SameGround t) (h₂ : t.SameGround u) : h.SameGround u :=
  Evolves.trans (fun _ _ _ => Eq.trans) h₁ h₂

/-- The property depends only on the tree, the working directory, how directories go, and the
disturbances that may come up. -/
def Grounded (P : Host → Prop) : Prop :=
  ∀ h t, h.SameGround t → P h → P t

theorem grounded_evolves (R : Tree → Tree → Prop) (h : Host) : Grounded (h.Evolves R) := by
  intro t u hsame hevolves
  exact hevolves.comp hsame (hsame.tree ▸ hevolves.tree)

/-- An action that keeps whatever a host stands on leaves the ground as it is. -/
theorem sameGround_of_keeps {α : Type} {x : Action Host α}
    (hx : ∀ P, Grounded P → Action.Keeps P x) {outcome : Except Failure α}
    (hrun : x.runOn h = (outcome, t)) : h.SameGround t :=
  (hx _ (grounded_evolves Eq h)).after hrun (.refl rfl)

/-- A call uses disturbances up and adds none. -/
theorem exists_of_mem_strike {call : Call} {name : String} {disturbances : List Disturbance}
    {d : Disturbance} (hd : d ∈ (Disturbance.strike call name disturbances).2) :
    ∃ e ∈ disturbances, d.call = e.call ∧ d.effect = e.effect := by
  induction disturbances with
  | nil => simp [Disturbance.strike] at hd
  | cons first rest ih =>
    have hlater : d ∈ (Disturbance.strike call name rest).2 →
        ∃ e ∈ first :: rest, d.call = e.call ∧ d.effect = e.effect := by
      intro hrest
      obtain ⟨e, he, hsame⟩ := ih hrest
      exact ⟨e, List.mem_cons_of_mem _ he, hsame⟩
    rw [Disturbance.strike] at hd
    split at hd
    · split at hd
      · rcases List.mem_cons.1 hd with rfl | hrest
        · exact ⟨first, by simp, rfl, rfl⟩
        · exact ⟨d, List.mem_cons_of_mem _ hrest, rfl, rfl⟩
      · rcases List.mem_cons.1 hd with rfl | hrest
        · exact ⟨first, by simp, rfl, rfl⟩
        · exact hlater hrest
    · rcases List.mem_cons.1 hd with rfl | hrest
      · exact ⟨d, by simp, rfl, rfl⟩
      · exact hlater hrest

/-- A change of the records alone leaves the ground. -/
theorem Grounded.of_records (hP : Grounded P) (htree : t.tree = h.tree)
    (hdirectory : t.directory = h.directory)
    (hvanish : t.interfaceFilesVanish = h.interfaceFilesVanish)
    (hdisturbances : t.disturbances = h.disturbances) (hh : P h) : P t :=
  hP h t ⟨htree.symm, hdirectory, hvanish, fun d hd => ⟨d, hdisturbances ▸ hd, rfl, rfl⟩⟩ hh

theorem Grounded.unobserving (hP : Grounded P) : Unobserving P where
  called := fun _ _ _ => hP.of_records rfl rfl rfl rfl
  disturbed := fun h _ _ => hP h _ ⟨rfl, rfl, rfl, fun _ hd => exists_of_mem_strike hd⟩
  reported := fun _ _ => hP.of_records rfl rfl rfl rfl
  paused := fun _ _ => hP.of_records rfl rfl rfl rfl
  ticked := fun _ => hP.of_records rfl rfl rfl rfl
  drawn := fun _ _ => hP.of_records rfl rfl rfl rfl

theorem Grounded.unrecording (hP : Grounded P) : Unrecording P where
  toUnobserving := hP.unobserving
  noted := fun _ _ => hP.of_records rfl rfl rfl rfl
  launched := fun _ _ => hP.of_records rfl rfl rfl rfl

theorem unobserving_evolves (R : Tree → Tree → Prop) (h : Host) : Unobserving (h.Evolves R) :=
  (grounded_evolves R h).unobserving

/-! ## Steps that leave the tree -/

theorem keeps_note (hP : Unrecording P) (deed : Deed) : Keeps P (note deed) :=
  .modify fun h => hP.noted h _

theorem keeps_nap (hP : Unobserving P) (delay : Figure) : Keeps P (nap delay) :=
  .bind (.modify fun h => hP.paused h _) fun _ => keeps_pass hP _ _

theorem keeps_tick (hP : Unobserving P) : Keeps P tick := by
  refine .modifyGet fun h hh => ?_
  have hticked := hP.ticked h hh
  split
  · exact hh
  · exact hh
  · rename_i hclock
    rwa [hclock] at hticked

/-- Looking whether there is something changes nothing, so it keeps everything. -/
theorem keeps_nodeAt? (p : Path) : Keeps P (nodeAt? p) := by
  have hlook : Keeps P (some <$> lookUp p Tree.find) := by
    rw [← bind_pure_comp]
    exact (keeps_lookUp p _).bind fun _ => .pure _
  refine hlook.tryCatch fun failure => ?_
  split
  · split
    · exact .pure _
    · exact .throw _
  · exact .pure _
  · exact .throw _

theorem keeps_pathExists (p : Path) : Keeps P (pathExists p) :=
  (keeps_nodeAt? p).bind fun _ => .pure _

theorem keeps_isDirectory (p : Path) : Keeps P (isDirectory p) :=
  (keeps_nodeAt? p).bind fun _ => .pure _

/-! ## Steps that change the tree -/

/-- The property still holds after a change of the tree. -/
def Allows (P : Host → Prop) (p : Path) (f : Tree → Place → Path → Except Int Tree) : Prop :=
  ∀ h tree, P h → f h.tree h.directory p = .ok tree → P { h with tree := tree }

/-- The property still holds after a file was written. -/
def AllowsWriting (P : Host → Prop) (p : Path) : Prop :=
  ∀ bytes : ByteArray, Allows P p fun t directory p => t.writeFile directory p bytes

/-- What every change does to the tree is done to it by all of them together. -/
theorem allows_evolves (R : Tree → Tree → Prop)
    (htrans : ∀ x y z : Tree, R x y → R y z → R x z) {p : Path}
    {f : Tree → Place → Path → Except Int Tree}
    (hf : ∀ tree tree', f tree h.directory p = .ok tree' → R tree tree') :
    Allows (h.Evolves R) p f := by
  intro t tree hevolves hchange
  rw [hevolves.directory_eq] at hchange
  exact ⟨htrans _ _ _ hevolves.tree (hf _ _ hchange), hevolves.directory_eq, hevolves.vanish_eq,
    hevolves.disturbances⟩

/-- A change that fails changes nothing. -/
theorem change_eq_error {p : Path} {f : Tree → Place → Path → Except Int Tree} {failure : Failure}
    (hrun : (change p f).runOn h = (.error failure, t)) : t = h := by
  have hkept := keeps_lookUp (P := fun u => u = h) p f h rfl
  rw [change, Action.runOn_bind] at hrun
  cases hlook : (lookUp p f).runOn h with
  | mk outcome u =>
    rw [hlook] at hrun hkept
    cases outcome with
    | error other =>
      cases hrun
      exact hkept
    | ok tree => cases hrun

theorem keeps_change {p : Path} {f : Tree → Place → Path → Except Int Tree}
    (hf : Allows P p f) : Keeps P (change p f) := by
  intro h hh
  cases hrun : (change p f).runOn h with
  | mk outcome t =>
    cases outcome with
    | error failure =>
      rw [change_eq_error hrun]
      exact hh
    | ok _ =>
      obtain ⟨-, tree, hchange, rfl⟩ := change_eq_ok.1 hrun
      exact hf h tree hh hchange

variable {p : Path}

theorem keeps_writeText (hP : Unobserving P) (hwrite : AllowsWriting P p) (text : String) :
    Keeps P (writeText p text) := by
  refine (keeps_disturb hP .write p).bind fun effect => ?_
  split
  · exact .throw _
  · exact .pure _
  · exact keeps_change (hwrite _)

theorem keeps_fill (hP : Unobserving P) (hwrite : AllowsWriting P p) (text : RawText) :
    Keeps P (fill p text) :=
  (Keeps.liftM _).bind fun _ => (keeps_pass hP .fill p).bind fun _ => keeps_change (hwrite _)

theorem keeps_discard (hP : Unobserving P) (hunlink : Allows P p Tree.unlink) :
    Keeps P (discard p) := by
  refine Keeps.onFault ((keeps_pass hP .unlink p).bind fun _ => keeps_change hunlink)
    fun fault => ?_
  split
  · exact .pure _
  · exact .throw _

/-- A move that fails may lose the file, and changes nothing else. -/
theorem moveFile_failed {target : Path} {failure : Failure} (hP : Unobserving P)
    (hunlink : Allows P p Tree.unlink) (hh : P h)
    (hrun : (moveFile p target).runOn h = (.error failure, t)) : P t := by
  rw [moveFile] at hrun
  rcases Action.runOn_bind_cases hrun with ⟨_, hdisturb, -⟩ | ⟨effect, u, hdisturb, hrun⟩
  · exact (keeps_disturb hP _ _).after hdisturb hh
  have hu := (keeps_disturb hP _ _).after hdisturb hh
  split at hrun
  · cases hrun
    exact hu
  · have hlose : Keeps P (loseFile p) := (keeps_change hunlink).onFault fun _ => .pure _
    exact (hlose.bind fun _ => .throw _).after hrun hu
  · rw [change_eq_error hrun]
    exact hu

theorem keeps_makeDirectory (hP : Unobserving P) (hmake : Allows P p Tree.makeDirectory) :
    Keeps P (makeDirectory p) := by
  refine (keeps_pass hP .mkdir p).bind fun _ => (keeps_change hmake).onFault fun fault => ?_
  refine (keeps_isDirectory p).bind fun found => ?_
  split
  · exact .pure _
  · exact .throw _

/-- Making the directories on a path needs leave for each of its beginnings. -/
theorem keeps_makeDirectoriesUpTo (hP : Unobserving P)
    (hmake : ∀ q : Path, q.IsStart p → Allows P q Tree.makeDirectory)
    (above : Nat) {q : Path} (hq : q.IsStart p) : Keeps P (makeDirectoriesUpTo above q) := by
  induction above generalizing q with
  | zero => exact keeps_makeDirectory hP (hmake q hq)
  | succ above ih =>
    rw [makeDirectoriesUpTo]
    refine (keeps_pass hP .mkdir _).bind fun _ =>
      (keeps_change (hmake q hq)).onFault fun fault => ?_
    split
    · split
      · exact .throw _
      · exact (ih hq.parent).bind fun _ => keeps_makeDirectory hP (hmake q hq)
    · refine (keeps_isDirectory _).bind fun found => ?_
      split
      · exact .pure _
      · exact .throw _

theorem keeps_makeDirectories (hP : Unobserving P)
    (hmake : ∀ q : Path, q.IsStart p → Allows P q Tree.makeDirectory) :
    Keeps P (makeDirectories p) :=
  keeps_makeDirectoriesUpTo hP hmake _ (.refl p)

theorem keeps_removeDirectory (hP : Unobserving P)
    (hremove : ∀ vanish, Allows P p fun t directory p => t.removeDirectory vanish directory p) :
    Keeps P (removeDirectory p) :=
  (keeps_pass hP .rmdir p).bind fun _ => Keeps.get.bind fun _ => keeps_change (hremove _)

/-- Drawing names keeps what making something at each of them keeps. -/
theorem keeps_tryFresh {make : Path → Action Host Unit} {parent : Path} {stem : String}
    (hP : Unobserving P)
    (hmake : ∀ count, Keeps P (make (.read (parent.appendName (stem ++ freshSuffix count)))))
    (fuel : Nat) : Keeps P (tryFresh make parent stem fuel) := by
  induction fuel with
  | zero => exact .throw _
  | succ fuel ih =>
    refine Keeps.get.bind fun h => (Keeps.modify fun u => hP.drawn u _).bind fun _ => ?_
    refine (((hmake _).bind fun _ => .pure _).onFault fun fault => ?_).bind fun made => ?_
    · split
      · exact .pure _
      · exact .throw _
    · split
      · exact .pure _
      · exact ih

theorem keeps_makeFreshDirectory (hP : Unobserving P) {parent : Path} {stem : String}
    (hmake : ∀ count,
      Allows P (.read (parent.appendName (stem ++ freshSuffix count))) Tree.makeDirectory) :
    Keeps P (makeFreshDirectory parent stem) :=
  (keeps_pass hP .mkdtemp .empty).bind fun _ => Keeps.get.bind fun _ =>
    keeps_tryFresh hP (fun count => keeps_change (hmake count)) _

/-! ## Properties beside the tree -/

/-- The property does not depend on the tree, either. -/
structure Treeless (P : Host → Prop) : Prop extends Unobserving P where
  planted : ∀ h tree, P h → P { h with tree := tree }

theorem Treeless.allows (hP : Treeless P) (p : Path)
    (f : Tree → Place → Path → Except Int Tree) : Allows P p f :=
  fun h tree hh _ => hP.planted h tree hh

theorem Treeless.allowsWriting (hP : Treeless P) (p : Path) : AllowsWriting P p :=
  fun _ => hP.allows p _

end Host

end MemoryLimit
