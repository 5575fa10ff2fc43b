import MemoryLimit.Proofs.Host.Directories
import MemoryLimit.Proofs.Host.Frame

/-!
# Nodes at paths

What a host has at a path, as its calls see it: what they find, what is there after a file was
written or a directory made, and that a directory with a name of its own was not there before.

## Main definitions

* `Host.Has` — a node is at a path.
* `Host.freshPath` — the names that are drawn for a fresh directory.

## Main statements

* `Host.Has.of_grows` — what a growing tree keeps.
* `Host.makeFreshDirectory_cases` — a fresh directory is made where nothing was, or nothing is.
-/
namespace MemoryLimit.Host

variable {h t u : Host} {p : Path} {node : Node}

/-! ## What is at a path -/

/-- A node is at a path. -/
structure Has (h : Host) (p : Path) (node : Node) : Prop where
  hasNull : p.hasNull = false
  find : h.tree.find h.directory p = .ok node

theorem find_eq_ok_iff {t : Tree} {directory : Place} :
    t.find directory p = .ok node ↔
      ∃ place, t.locate directory p = .ok place ∧ t.get? place = some node := by
  rw [Tree.find, bind_eq_ok]
  refine exists_congr fun place => and_congr_right fun _ => ?_
  cases t.get? place with
  | none => simp [throw, throwThe, MonadExceptOf.throw]
  | some found => simp [pure, Except.pure]

/-- What is at a path is at the place that its names lead to. -/
theorem Has.get? (hhas : h.Has p node) : h.tree.get? (p.placeFrom h.directory) = some node := by
  obtain ⟨place, hplace, hnode⟩ := find_eq_ok_iff.1 hhas.find
  rwa [← Tree.locate_eq_placeFrom hplace]

theorem Has.unique {other : Node} (hhas : h.Has p node) (hother : h.Has p other) : node = other := by
  have hsame := hhas.get?
  rw [hother.get?] at hsame
  exact (Option.some.inj hsame).symm

theorem runOn_lookUp {α : Type} (p : Path) (f : Tree → Place → Path → Except Int α) (h : Host) :
    (lookUp p f).runOn h =
      (if p.hasNull then .error (.invalid .nullCharacter)
        else (f h.tree h.directory p).mapError fun code => .os (.ofCode code (some p.text)), h) := by
  rw [lookUp, Action.runOn_bind, runOn_checkPath]
  cases p.hasNull with
  | true => rfl
  | false =>
    simp only [Bool.false_eq_true, if_false, Action.runOn_bind, Action.runOn_get]
    cases f h.tree h.directory p <;> rfl

/-- Looking at a path finds the node that is there, if there is one. -/
theorem nodeAt?_eq_ok {found : Option Node} (hrun : (nodeAt? p).runOn h = (.ok found, t)) :
    t = h ∧ ∀ node, found = some node ↔ h.Has p node := by
  rw [nodeAt?, Action.runOn_tryCatch, Action.runOn_map, runOn_lookUp] at hrun
  cases hnull : p.hasNull with
  | true =>
    rw [hnull, if_pos rfl] at hrun
    cases hrun
    refine ⟨rfl, fun node => ⟨by simp, fun hhas => ?_⟩⟩
    simp [hhas.hasNull] at hnull
  | false =>
    rw [hnull, if_neg (by simp)] at hrun
    cases hfind : h.tree.find h.directory p with
    | ok node =>
      rw [hfind] at hrun
      cases hrun
      refine ⟨rfl, fun other => ⟨?_, fun hhas => ?_⟩⟩
      · rintro ⟨⟩
        exact ⟨hnull, hfind⟩
      · rw [hhas.unique ⟨hnull, hfind⟩]
    | error code =>
      rw [hfind] at hrun
      simp only [Except.mapError, Except.map] at hrun
      split at hrun
      · cases hrun
        refine ⟨rfl, fun node => ⟨by simp, fun hhas => ?_⟩⟩
        have := hhas.find
        rw [hfind] at this
        cases this
      · cases hrun

theorem pathExists_eq_ok {found : Bool} (hrun : (pathExists p).runOn h = (.ok found, t)) :
    t = h ∧ (found = true ↔ ∃ node, h.Has p node) := by
  obtain ⟨node?, u, hnode, hfound⟩ := Action.runOn_bind_eq_ok.1 hrun
  obtain ⟨rfl, hhas⟩ := nodeAt?_eq_ok hnode
  cases hfound
  refine ⟨rfl, ?_⟩
  rw [Option.isSome_iff_exists]
  exact exists_congr hhas

theorem isDirectory_eq_ok {found : Bool} (hrun : (isDirectory p).runOn h = (.ok found, t)) :
    t = h ∧ (found = true ↔ h.Has p .directory) := by
  obtain ⟨node?, u, hnode, hfound⟩ := Action.runOn_bind_eq_ok.1 hrun
  obtain ⟨rfl, hhas⟩ := nodeAt?_eq_ok hnode
  cases hfound
  refine ⟨rfl, ?_⟩
  rw [beq_iff_eq]
  exact hhas .directory

/-! ## Growing hosts -/

/-- A host whose tree grows. -/
abbrev Grows (new touched : Place → Prop) (h t : Host) : Prop :=
  h.Evolves (Tree.Grows new touched) t

variable {new touched new' touched' : Place → Prop}

theorem Grows.refl (new touched : Place → Prop) (h : Host) : h.Grows new touched h :=
  Evolves.refl (.refl _ _ _)

theorem Grows.trans (h₁ : h.Grows new touched t) (h₂ : t.Grows new touched u) :
    h.Grows new touched u :=
  Evolves.trans (fun _ _ _ => Tree.Grows.trans) h₁ h₂

theorem Grows.mono (h₁ : h.Grows new touched t) (hnew : ∀ place, new place → new' place)
    (htouched : ∀ place, touched place → touched' place) : h.Grows new' touched' t :=
  Evolves.mono (fun _ _ hgrows => Tree.Grows.mono hgrows hnew htouched) h₁

theorem Grows.of_eq (hsame : h.SameGround t) : h.Grows new touched t := by
  apply hsame.mono
  rintro x _ rfl
  exact Tree.Grows.refl new touched x

theorem Grows.adds (hgrows : h.Grows new touched t) : h.Evolves (Tree.Adds new) t :=
  Evolves.mono (fun _ _ => Tree.Grows.toAdds) hgrows

/-- What a growing tree does not touch stays at its path. -/
theorem Has.of_grows (hhas : h.Has p node) (hgrows : h.Grows new touched t)
    (hplace : ¬ touched (p.placeFrom h.directory)) : t.Has p node := by
  obtain ⟨place, hlocate, hnode⟩ := find_eq_ok_iff.1 hhas.find
  refine ⟨hhas.hasNull, find_eq_ok_iff.2 ⟨place, ?_, ?_⟩⟩
  · rw [hgrows.directory_eq]
    exact Tree.locate_mono hgrows.tree.directories hlocate
  · rw [hgrows.tree.same place (Tree.locate_eq_placeFrom hlocate ▸ hplace), hnode]

theorem Has.of_sameGround (hhas : h.Has p node) (hsame : h.SameGround t) : t.Has p node := by
  have hgrows : h.Grows (fun _ => False) (fun _ => False) t := .of_eq hsame
  exact hhas.of_grows hgrows id

/-- Directories stay at their paths. -/
theorem Has.directory_of_grows (hhas : h.Has p .directory) (hgrows : h.Grows new touched t) :
    t.Has p .directory := by
  obtain ⟨place, hlocate, hnode⟩ := find_eq_ok_iff.1 hhas.find
  refine ⟨hhas.hasNull, find_eq_ok_iff.2 ⟨place, ?_, hgrows.tree.directories place hnode⟩⟩
  rw [hgrows.directory_eq]
  exact Tree.locate_mono hgrows.tree.directories hlocate

/-- What is in a directory of a growing tree was there before, if it is at a place that was not
touched. -/
theorem Has.of_grows_child {name : String} (hname : IsFileName name) (hhas : t.Has (p.child name) node)
    (hdirectory : h.Has p .directory) (hgrows : h.Grows new touched t)
    (hplace : ¬ touched ((p.child name).placeFrom h.directory)) : h.Has (p.child name) node := by
  obtain ⟨place, hlocate, hnode⟩ := find_eq_ok_iff.1 hhas.find
  obtain ⟨parent, hparent, hat⟩ := find_eq_ok_iff.1 hdirectory.find
  rw [hgrows.directory_eq] at hlocate
  rw [Tree.locate_eq_placeFrom hlocate, hgrows.tree.same _ hplace] at hnode
  refine ⟨hhas.hasNull, find_eq_ok_iff.2 ⟨(p.child name).placeFrom h.directory, ?_, hnode⟩⟩
  rw [← Tree.locate_eq_placeFrom hlocate]
  exact Tree.locate_child_of_keepsDirectories hname hgrows.tree.directories hparent hat hlocate

/-- A growing tree may have a directory made where new ones are allowed. -/
theorem allows_makeDirectory (hnew : Tree.endsInName p = true → new (p.placeFrom h.directory))
    (htouched : touched (p.placeFrom h.directory)) :
    Allows (h.Grows new touched) p Tree.makeDirectory := by
  refine allows_evolves (Tree.Grows new touched) (fun _ _ _ => Tree.Grows.trans) ?_
  intro tree tree' hmake
  obtain ⟨-, -, hname, -⟩ := Tree.makeDirectory_eq_ok hmake
  apply (Tree.grows_makeDirectory hmake).mono
  · rintro place rfl
    exact hnew hname
  · rintro place rfl
    exact htouched

/-- A growing tree may have a file written where it may be touched. -/
theorem allowsWriting (hleads : p.Leads) (htouched : touched (p.placeFrom h.directory)) :
    AllowsWriting (h.Grows new touched) p := by
  intro bytes
  refine allows_evolves (Tree.Grows new touched) (fun _ _ _ => Tree.Grows.trans) ?_
  intro tree tree' hwrite
  apply (Tree.grows_writeFile hleads hwrite).mono
  · intro place hfalse
    exact hfalse.elim
  · rintro place rfl
    exact htouched

/-- An action that lets a host grow has let it grow when it has ended. -/
theorem grows_of_keeps {α : Type} {x : Action Host α} {outcome : Except Failure α}
    (hx : Action.Keeps (h.Grows new touched) x) (hrun : x.runOn h = (outcome, t)) :
    h.Grows new touched t :=
  hx.after hrun (.refl new touched h)

/-! ## Calls that take effect or fail -/

/-- A disturbed call fails: none is answered with something else, and none is passed over in
silence. -/
def FaultsOnly (h : Host) : Prop :=
  ∀ d ∈ h.disturbances, ∃ fault, d.effect = .fail fault

theorem FaultsOnly.of_evolves {R : Tree → Tree → Prop} (hfaults : h.FaultsOnly)
    (hevolves : h.Evolves R t) : t.FaultsOnly := by
  intro d hd
  obtain ⟨e, he, -, heffect⟩ := hevolves.disturbances d hd
  rw [heffect]
  exact hfaults e he

/-- The effect on a call is the effect of a disturbance of such calls. -/
theorem exists_of_strike {call : Call} {name : String} {disturbances : List Disturbance}
    {effect : Effect} (hstrike : (Disturbance.strike call name disturbances).1 = some effect) :
    ∃ d ∈ disturbances, d.call = call ∧ d.effect = effect := by
  induction disturbances with
  | nil => cases hstrike
  | cons first rest ih =>
    have hlater : (Disturbance.strike call name rest).1 = some effect →
        ∃ d ∈ first :: rest, d.call = call ∧ d.effect = effect := by
      intro hrest
      obtain ⟨d, hd, hsame⟩ := ih hrest
      exact ⟨d, List.mem_cons_of_mem _ hd, hsame⟩
    rw [Disturbance.strike] at hstrike
    split at hstrike
    · rename_i hconcerns
      rw [Disturbance.concerns, Bool.and_eq_true, Bool.and_eq_true, beq_iff_eq] at hconcerns
      split at hstrike
      · cases hstrike
        exact ⟨first, by simp, hconcerns.1.1, rfl⟩
      · exact hlater hstrike
    · exact hlater hstrike

/-- A call goes as it should, or fails. -/
theorem FaultsOnly.strike (hfaults : h.FaultsOnly) (call : Call) (name : String) :
    (Disturbance.strike call name h.disturbances).1 = none ∨
      ∃ fault, (Disturbance.strike call name h.disturbances).1 = some (.fail fault) := by
  cases heffect : (Disturbance.strike call name h.disturbances).1 with
  | none => exact .inl rfl
  | some effect =>
    obtain ⟨d, hd, -, rfl⟩ := exists_of_strike heffect
    obtain ⟨fault, hfault⟩ := hfaults d hd
    exact .inr ⟨fault, by rw [hfault]⟩

theorem has_of_writeFile {bytes : ByteArray}
    (hwrite : (change p fun t directory p => t.writeFile directory p bytes).runOn h = (.ok (), t)) :
    t.Has p (.file bytes) := by
  obtain ⟨hnull, tree, htree, rfl⟩ := change_eq_ok.1 hwrite
  obtain ⟨place, hplace, hdirectory, rfl⟩ := Tree.writeFile_eq_ok htree
  have hroot : place ≠ [] := by
    rintro rfl
    exact hdirectory rfl
  refine ⟨hnull, find_eq_ok_iff.2 ⟨place, ?_, Tree.get?_insert_self hroot⟩⟩
  apply Tree.locate_mono _ hplace
  apply Tree.keepsDirectories_insert
  rw [← Bool.not_eq_true, Tree.isDirectory_iff]
  exact hdirectory

/-- **What was written is there**, unless the writing failed. -/
theorem writeText_eq_ok {text : String} (hfaults : h.FaultsOnly)
    (hrun : (writeText p text).runOn h = (.ok (), t)) : t.Has p (.file text.toUTF8) := by
  rw [writeText, Action.runOn_bind_ok (runOn_disturb .write p h)] at hrun
  rcases hfaults.strike .write p.name with hnone | ⟨fault, hfault⟩
  · rw [hnone] at hrun
    exact has_of_writeFile hrun
  · rw [hfault] at hrun
    cases hrun

/-- **What was read is there**, unless the reading failed. -/
theorem readText_eq_ok {text : String} (hfaults : h.FaultsOnly)
    (hrun : (readText p).runOn h = (.ok text, t)) :
    ∃ bytes content, h.Has p (.file bytes) ∧ decode bytes = .ok content ∧
      text = String.ofList (Text.foldReturns content.toList) := by
  rw [readText, Action.runOn_bind_ok (runOn_disturb .read p h)] at hrun
  rcases hfaults.strike .read p.name with hnone | ⟨fault, hfault⟩
  · rw [hnone] at hrun
    obtain ⟨bytes, u, hlook, hdecode⟩ := Action.runOn_bind_eq_ok.1 hrun
    obtain ⟨hnull, hread, -⟩ := lookUp_eq_ok.1 hlook
    obtain ⟨place, hplace, hnode⟩ := Tree.readFile_eq_ok_iff.1 hread
    obtain ⟨content, v, hcontent, hend⟩ := Action.runOn_bind_eq_ok.1 hdecode
    rw [Action.runOn_liftM] at hcontent
    cases hend
    exact ⟨bytes, content, ⟨hnull, find_eq_ok_iff.2 ⟨place, hplace, hnode⟩⟩,
      (Prod.mk.inj hcontent).1, rfl⟩
  · rw [hfault] at hrun
    cases hrun

/-! ## Making directories -/

theorem has_of_makeDirectory (hmake : (change p Tree.makeDirectory).runOn h = (.ok (), t)) :
    t.Has p .directory := by
  obtain ⟨hnull, tree, htree, rfl⟩ := change_eq_ok.1 hmake
  obtain ⟨place, hplace, hname, -, rfl⟩ := Tree.makeDirectory_eq_ok htree
  refine ⟨hnull, find_eq_ok_iff.2 ⟨place, ?_, ?_⟩⟩
  · exact Tree.locate_mono (Tree.grows_makeDirectory htree).directories hplace
  · exact Tree.get?_insert_self (Tree.ne_nil_of_endsInName hname hplace)

/-- A directory that was made, or was there already, is there. -/
theorem makeDirectory_eq_ok (hrun : (makeDirectory p).runOn h = (.ok (), t)) :
    t.Has p .directory := by
  obtain ⟨_, u, -, hmake⟩ := Action.runOn_bind_eq_ok.1 hrun
  rw [Action.runOn_onFault] at hmake
  cases hchange : (change p Tree.makeDirectory).runOn u with
  | mk outcome v =>
    rw [hchange] at hmake
    cases outcome with
    | ok _ =>
      cases hmake
      exact has_of_makeDirectory hchange
    | error failure =>
      cases failure <;> try cases hmake
      obtain ⟨found, w, hfound, hend⟩ := Action.runOn_bind_eq_ok.1 hmake
      obtain ⟨rfl, hhas⟩ := isDirectory_eq_ok hfound
      split at hend
      · rename_i htrue
        cases hend
        exact hhas.1 htrue
      · cases hend

/-- The path of a fresh directory, by the count of the name that is drawn. -/
def freshPath (parent : Path) (stem : String) (count : Nat) : Path :=
  .read (parent.appendName (stem ++ freshSuffix count))

/-- A fresh name is one more than the count of those that were drawn; if something has it, the next
one is tried. -/
theorem runOn_tryFresh_succ (make : Path → Action Host Unit) (parent : Path) (stem : String)
    (fuel : Nat) (h : Host) :
    (tryFresh make parent stem (fuel + 1)).runOn h =
      match (make (freshPath parent stem (h.freshNames + 1))).runOn
          { h with freshNames := h.freshNames + 1 } with
      | (.ok _, t) => (.ok (freshPath parent stem (h.freshNames + 1)), t)
      | (.error (.os fault), t) =>
        if fault.code = OsFault.alreadyThere then (tryFresh make parent stem fuel).runOn t
        else (.error (.os fault), t)
      | (.error failure, t) => (.error failure, t) := by
  rw [tryFresh]
  simp only [Action.runOn_bind, Action.runOn_get, Action.runOn_modify, Action.runOn_onFault]
  rw [← freshPath]
  cases (make (freshPath parent stem (h.freshNames + 1))).runOn
      { h with freshNames := h.freshNames + 1 } with
  | mk outcome t =>
    cases outcome with
    | ok _ => simp
    | error failure =>
      cases failure with
      | os fault =>
        by_cases hthere : fault.code = OsFault.alreadyThere <;> simp [hthere]
      | _ => simp

/-- A name is drawn at which the change of the tree goes well, and it is made there; or nothing
changes but the count of names. -/
theorem tryFresh_cases {f : Tree → Place → Path → Except Int Tree} (parent : Path) (stem : String)
    (fuel : Nat) {h t : Host} {outcome : Except Failure Path}
    (hrun : (tryFresh (fun p => change p f) parent stem fuel).runOn h = (outcome, t)) :
    (∃ failure, outcome = .error failure ∧ h.SameGround t) ∨
      ∃ count u, outcome = .ok (freshPath parent stem count) ∧ h.SameGround u ∧
        (change (freshPath parent stem count) f).runOn u = (.ok (), t) := by
  induction fuel generalizing h with
  | zero =>
    cases hrun
    exact .inl ⟨_, rfl, SameGround.refl _⟩
  | succ fuel ih =>
    have hdrawn : h.SameGround { h with freshNames := h.freshNames + 1 } :=
      ⟨rfl, rfl, rfl, fun d hd => ⟨d, hd, rfl, rfl⟩⟩
    rw [runOn_tryFresh_succ] at hrun
    split at hrun
    · rename_i u hchange
      cases hrun
      exact .inr ⟨_, _, rfl, hdrawn, hchange⟩
    · rename_i fault u hchange
      obtain rfl := change_eq_error hchange
      by_cases hthere : fault.code = OsFault.alreadyThere
      · -- the name was taken, so the next one is tried
        rw [if_pos hthere] at hrun
        rcases ih hrun with ⟨failure, hfail, hsame⟩ | ⟨count, v, hmade, hsame, hmake⟩
        · exact .inl ⟨failure, hfail, hdrawn.trans hsame⟩
        · exact .inr ⟨count, v, hmade, hdrawn.trans hsame, hmake⟩
      · rw [if_neg hthere] at hrun
        cases hrun
        exact .inl ⟨_, rfl, hdrawn⟩
    · rename_i failure u hchange
      obtain rfl := change_eq_error hchange
      cases hrun
      exact .inl ⟨_, rfl, hdrawn⟩

/-- A directory was made at a path where there was nothing. -/
structure MakesFresh (h : Host) (p : Path) (t : Host) : Prop where
  endsInName : Tree.endsInName p = true
  free : h.tree.get? (p.placeFrom h.directory) = none
  has : t.Has p .directory
  grows : h.Grows (fun q => q = p.placeFrom h.directory) (fun q => q = p.placeFrom h.directory) t

theorem makesFresh_of_makeDirectory (hbefore : h.SameGround u)
    (hmake : (change p Tree.makeDirectory).runOn u = (.ok (), t)) : h.MakesFresh p t := by
  have hhas := has_of_makeDirectory hmake
  obtain ⟨-, tree, htree, rfl⟩ := change_eq_ok.1 hmake
  obtain ⟨place, hplace, hname, hfree, -⟩ := Tree.makeDirectory_eq_ok htree
  rw [Tree.locate_eq_placeFrom hplace, hbefore.directory_eq, ← hbefore.tree] at hfree
  rw [hbefore.directory_eq, ← hbefore.tree] at htree
  exact ⟨hname, hfree, hhas, Tree.grows_makeDirectory htree, hbefore.directory_eq,
    hbefore.vanish_eq, hbefore.disturbances⟩

/-- **A fresh directory** is made where there is nothing; or nothing changes but the record. -/
theorem makeFreshDirectory_cases {parent : Path} {stem : String} {outcome : Except Failure Path}
    (hrun : (makeFreshDirectory parent stem).runOn h = (outcome, t)) :
    (∃ failure, outcome = .error failure ∧ h.SameGround t) ∨
      ∃ count, outcome = .ok (freshPath parent stem count) ∧
        h.MakesFresh (freshPath parent stem count) t := by
  rw [makeFreshDirectory] at hrun
  rcases Action.runOn_bind_cases hrun with ⟨failure, hpass, rfl⟩ | ⟨_, u, hpass, hrun⟩
  · exact .inl ⟨failure, rfl, sameGround_of_keeps (fun _ hP => keeps_pass hP.unobserving _ _) hpass⟩
  have hpassed := sameGround_of_keeps (fun _ hP => keeps_pass hP.unobserving _ _) hpass
  rw [fresh, Action.runOn_bind_ok (Action.runOn_get u)] at hrun
  rcases tryFresh_cases _ _ _ hrun with ⟨failure, rfl, hsame⟩ | ⟨count, v, rfl, hsame, hmake⟩
  · exact .inl ⟨failure, rfl, hpassed.trans hsame⟩
  · exact .inr ⟨count, rfl, makesFresh_of_makeDirectory (hpassed.trans hsame) hmake⟩

end MemoryLimit.Host
