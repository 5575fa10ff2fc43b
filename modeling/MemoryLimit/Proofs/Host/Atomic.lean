import MemoryLimit.Proofs.Host.Replacing

/-!
# What a replacement does to the rest of the tree

A file is replaced by way of a draft, a file of a name of its own. Whatever fails on the way, the
draft is gone in the end, and nothing is left of the attempt but directories above the file that
were missing before. Only if its removal is refused, too, the draft stays beside the file. If nothing
fails, the file has its new bytes and the rest is as before but for such directories.

## Main definitions

* `Path.OnWay` — the places that a path leads through.
* `Tree.OnlyMakes` — nothing changed, but directories were made at certain places.
* `Tree.Drafts` — there may be a file more, or less, at one place.
* `Host.LeavesDraft` — the draft of a replacement is left at a place.

## Main statements

* `Host.discard_cases` — a draft that is discarded is gone, unless its removal is refused.
* `Host.replaceFile_cases` — what a replacement does to the whole tree, whether it fails or not.
* `Host.tree_of_replaceFile_failed` — what is left where, place by place, when it fails.
-/
namespace MemoryLimit

open MemoryLimit.Action (Keeps)

/-! ## Trees that are the same but for some places -/

/-- A place that a path leads through by its names alone: one where a beginning of it leads. -/
def Path.OnWay (p : Path) (directory q : Place) : Prop :=
  ∃ beginning : Path, beginning.IsStart p ∧ beginning.names ≠ [] ∧
    q = beginning.placeFrom directory

/-- A path without steps upwards does not lead through its own place on the way there. -/
theorem Path.not_onWay_parent {p : Path} (hnames : ∀ name ∈ p.names, name ≠ "..")
    (directory : Place) : ¬ p.parent.OnWay directory (p.placeFrom directory) := by
  rintro ⟨beginning, hstart, hne, hplace⟩
  have hall : beginning.names <+: p.names := hstart.names.trans (List.dropLast_prefix p.names)
  rw [Path.placeFrom, Path.placeFrom, hstart.isAbsolute_eq, Path.isAbsolute_parent,
    Host.foldl_step hnames,
    Host.foldl_step fun name hname => hnames name (hall.subset hname)] at hplace
  have hlength := congrArg List.length (List.append_cancel_left hplace)
  have hle := hstart.names.length_le
  have hpos := List.length_pos_of_ne_nil hne
  rw [Path.names_parent, List.length_dropLast] at hle
  omega

namespace Tree

variable {t u v : Tree} {directory place q : Place} {p source target : Path} {bytes : ByteArray}
  {made : Place → Prop}

/-- Nothing changed from one tree to another, but directories were made where there was nothing, at
certain places. -/
def OnlyMakes (made : Place → Prop) (t u : Tree) : Prop :=
  ∀ q, u.get? q = t.get? q ∨ made q ∧ t.get? q = none ∧ u.get? q = some .directory

theorem OnlyMakes.refl (made : Place → Prop) (t : Tree) : t.OnlyMakes made t :=
  fun _ => .inl rfl

theorem OnlyMakes.trans (h : t.OnlyMakes made u) (h' : u.OnlyMakes made v) :
    t.OnlyMakes made v := by
  intro q
  rcases h' q with hsame | ⟨hmade, hfree, hnew⟩
  · rw [hsame]
    exact h q
  · rcases h q with hsame | ⟨-, -, hdirectory⟩
    · exact .inr ⟨hmade, hsame ▸ hfree, hnew⟩
    · rw [hdirectory] at hfree
      cases hfree

/-- Where nothing was made, every file is what it was, and there is no other one. -/
theorem OnlyMakes.file_iff (h : t.OnlyMakes made u) (q : Place) (bytes : ByteArray) :
    u.get? q = some (.file bytes) ↔ t.get? q = some (.file bytes) := by
  rcases h q with hsame | ⟨-, hfree, hnew⟩
  · rw [hsame]
  · rw [hfree, hnew]
    simp

theorem onlyMakes_makeDirectory (h : t.makeDirectory directory p = .ok u) :
    t.OnlyMakes (fun q => p.names ≠ [] ∧ q = p.placeFrom directory) u := by
  obtain ⟨place, hplace, hname, hfree, rfl⟩ := makeDirectory_eq_ok h
  intro q
  by_cases hq : q = place
  · subst hq
    exact .inr ⟨⟨names_ne_nil_of_endsInName hname, locate_eq_placeFrom hplace⟩, hfree,
      get?_insert_self (ne_nil_of_endsInName hname hplace)⟩
  · exact .inl (get?_insert_of_ne hq)

/-- Two trees have the same everywhere. -/
def Agrees (t u : Tree) : Prop :=
  ∀ q, u.get? q = t.get? q

/-- A tree differs from another one at most by a file at one place. -/
structure Drafts (place : Place) (t u : Tree) : Prop where
  elsewhere : ∀ q, q ≠ place → u.get? q = t.get? q
  no_directory : u.get? place ≠ some .directory

theorem Drafts.trans (h : t.Drafts place u) (h' : u.Drafts place v) : t.Drafts place v where
  elsewhere := fun q hq => (h'.elsewhere q hq).trans (h.elsewhere q hq)
  no_directory := h'.no_directory

/-- A draft where there was nothing takes no directory away. -/
theorem Drafts.keepsDirectories (h : t.Drafts place u) (hfree : t.get? place = none) :
    t.KeepsDirectories u := by
  intro q hq
  have hne : q ≠ place := by
    rintro rfl
    simp [hfree] at hq
  rw [h.elsewhere q hne, hq]

theorem createFile_eq_ok (h : t.createFile directory p = .ok u) :
    ∃ place, t.locate directory p = .ok place ∧ endsInName p = true ∧ t.get? place = none ∧
      u = t.insert place (.file .empty) := by
  rw [createFile, bind_eq_ok] at h
  obtain ⟨place, hplace, hcreate⟩ := h
  split at hcreate
  · rename_i hfree
    cases hcreate
    rw [Bool.and_eq_true, Option.isNone_iff_eq_none] at hfree
    exact ⟨place, hplace, hfree.1, hfree.2, rfl⟩
  · cases hcreate

theorem drafts_insert (hplace : place ≠ []) (bytes : ByteArray) :
    t.Drafts place (t.insert place (.file bytes)) where
  elsewhere := fun _ hq => get?_insert_of_ne hq
  no_directory := by simp [get?_insert_self hplace]

theorem drafts_writeFile (h : t.writeFile directory p bytes = .ok u) :
    t.Drafts (p.placeFrom directory) u := by
  obtain ⟨place, hplace, hdirectory, rfl⟩ := writeFile_eq_ok h
  rw [← locate_eq_placeFrom hplace]
  refine drafts_insert ?_ bytes
  rintro rfl
  exact hdirectory rfl

theorem drafts_unlink (h : t.unlink directory p = .ok u) : t.Drafts (p.placeFrom directory) u := by
  rw [unlink, bind_eq_ok] at h
  obtain ⟨place, hplace, hunlink⟩ := h
  split at hunlink
  · cases hunlink
  · cases hunlink
  · rename_i bytes hfile
    cases hunlink
    have hroot : place ≠ [] := by
      rintro rfl
      cases hfile
    rw [← locate_eq_placeFrom hplace]
    refine ⟨fun q hq => get?_erase_of_ne hq, ?_⟩
    rw [get?_erase, if_neg hroot, if_pos rfl]
    simp

/-- Removing a file succeeds where there is one, and a tree without it is left. -/
theorem unlink_of_locate (hplace : t.locate directory p = .ok place) (bytes : ByteArray)
    (hfile : t.get? place = some (.file bytes)) : t.unlink directory p = .ok (t.erase place) := by
  rw [unlink, hplace]
  simp only [bind, Except.bind, hfile]
  rfl

theorem unlink_of_free (hplace : t.locate directory p = .ok place) (hfree : t.get? place = none) :
    t.unlink directory p = .error OsFault.noEntry := by
  rw [unlink, hplace]
  simp only [bind, Except.bind, hfree]
  rfl

/-- A file is moved from where it is to where there is no directory. -/
theorem moveFile_eq_ok (h : t.moveFile directory source target = .ok u) :
    ∃ bytes, t.get? (source.placeFrom directory) = some (.file bytes) ∧
      u = (t.erase (source.placeFrom directory)).insert (target.placeFrom directory)
        (.file bytes) := by
  simp only [moveFile, bind_eq_ok] at h
  obtain ⟨bytes, hbytes, start, hstart, place, hplace, hmove⟩ := h
  obtain ⟨start', hstart', hfile⟩ := readFile_eq_ok_iff.1 hbytes
  rw [hstart] at hstart'
  cases hstart'
  rw [locate_eq_placeFrom hstart] at hfile hmove
  rw [locate_eq_placeFrom hplace] at hmove
  split at hmove
  · cases hmove
  · split at hmove
    · cases hmove
    · cases hmove
      exact ⟨bytes, hfile, rfl⟩

end Tree

namespace Host

variable {h s t : Host} {place : Place} {p target : Path} {text : RawText}

/-! ## Directories on the way -/

/-- Making the directories of a path makes no others. -/
theorem onlyMakes_of_makeDirectories {outcome : Except Failure Unit}
    (hrun : (makeDirectories p).runOn h = (outcome, t)) :
    h.Evolves (Tree.OnlyMakes (p.OnWay h.directory)) t := by
  have hkeeps : Keeps (h.Evolves (Tree.OnlyMakes (p.OnWay h.directory))) (makeDirectories p) := by
    refine keeps_makeDirectories (unobserving_evolves _ h) fun beginning hbeginning => ?_
    refine allows_evolves (Tree.OnlyMakes (p.OnWay h.directory))
      (fun _ _ _ => Tree.OnlyMakes.trans) fun tree tree' hmake q => ?_
    refine (Tree.onlyMakes_makeDirectory hmake q).imp_right fun hnew => ⟨?_, hnew.2⟩
    exact ⟨beginning, hbeginning, hnew.1.1, hnew.1.2⟩
  exact hkeeps.after hrun (.refl (.refl _ _))

/-! ## Drafts -/

/-- A disturbance of a kind of call is scheduled. -/
def Schedules (h : Host) (call : Call) : Prop :=
  ∃ d ∈ h.disturbances, d.call = call

/-- A call that does not pass was disturbed. -/
theorem schedules_of_pass_error {call : Call} {failure : Failure}
    (hrun : (pass call p).runOn h = (.error failure, t)) : h.Schedules call := by
  rw [pass, Action.runOn_bind_ok (runOn_disturb call p h)] at hrun
  split at hrun
  · rename_i fault heffect
    obtain ⟨d, hd, hcall, -⟩ := exists_of_strike heffect
    exact ⟨d, hd, hcall⟩
  · cases hrun

theorem Schedules.of_evolves {R : Tree → Tree → Prop} {call : Call} (ht : t.Schedules call)
    (hevolves : h.Evolves R t) : h.Schedules call := by
  obtain ⟨d, hd, hcall⟩ := ht
  obtain ⟨e, he, hsame, -⟩ := hevolves.disturbances d hd
  exact ⟨e, he, hsame.symm.trans hcall⟩

/-- A path at which a file can be made: it leads to a place where there is nothing. -/
structure Admits (h : Host) (p : Path) (place : Place) : Prop where
  hasNull : p.hasNull = false
  locate : h.tree.locate h.directory p = .ok place
  free : h.tree.get? place = none

theorem allows_drafts {f : Tree → Place → Path → Except Int Tree}
    (hf : ∀ tree tree', f tree h.directory p = .ok tree' → tree.Drafts place tree') :
    Allows (h.Evolves (Tree.Drafts place)) p f :=
  allows_evolves (Tree.Drafts place) (fun _ _ _ => Tree.Drafts.trans) hf

/-- The path of a draft leads to it for as long as nothing else changes. -/
theorem Admits.locate_of_drafts (hadmits : h.Admits p place)
    (hs : h.Evolves (Tree.Drafts place) s) :
    s.tree.locate s.directory p = .ok place := by
  rw [hs.directory_eq]
  exact Tree.locate_mono (hs.tree.keepsDirectories hadmits.free) hadmits.locate

/-- A draft stays a draft, or is gone, while it is removed. -/
theorem allowsUnlink_drafts :
    Allows (h.Evolves (Tree.Drafts (p.placeFrom h.directory))) p Tree.unlink :=
  allows_drafts fun _ _ => Tree.drafts_unlink

/-- A draft whose removal is not refused is gone afterwards, whether it was there or not. -/
theorem change_unlink_cases {outcome : Except Failure Unit} (hadmits : h.Admits p place)
    (hs : h.Evolves (Tree.Drafts place) s) (hrun : (change p Tree.unlink).runOn s = (outcome, t)) :
    (outcome = .ok () ∨ ∃ fault, outcome = .error (.os fault) ∧ fault.code = OsFault.noEntry) ∧
      h.Evolves Tree.Agrees t := by
  have hplace := hadmits.locate_of_drafts hs
  have hroot : place ≠ [] := by
    rintro rfl
    exact hs.tree.no_directory rfl
  cases hnode : s.tree.get? place with
  | none =>
    have hlook := runOn_lookUp p Tree.unlink s
    rw [hadmits.hasNull, if_neg Bool.false_ne_true, Tree.unlink_of_free hplace hnode] at hlook
    rw [change, Action.runOn_bind_error hlook] at hrun
    cases hrun
    refine ⟨.inr ⟨_, rfl, rfl⟩, hs.comp (SameGround.refl s) fun q => ?_⟩
    by_cases hq : q = place
    · rw [hq, hnode, hadmits.free]
    · exact hs.tree.elsewhere q hq
  | some node =>
    obtain ⟨bytes, rfl⟩ : ∃ bytes, node = .file bytes := by
      cases node with
      | file bytes => exact ⟨bytes, rfl⟩
      | directory => exact absurd hnode hs.tree.no_directory
    have hunlink := Tree.unlink_of_locate hplace bytes hnode
    have hchange : (change p Tree.unlink).runOn s =
        (.ok (), { s with tree := s.tree.erase place }) :=
      change_eq_ok.2 ⟨hadmits.hasNull, _, hunlink, rfl⟩
    rw [hchange] at hrun
    cases hrun
    refine ⟨.inl rfl, fun q => ?_, hs.directory_eq, hs.vanish_eq, hs.disturbances⟩
    change (s.tree.erase place).get? q = h.tree.get? q
    by_cases hq : q = place
    · rw [Tree.get?_erase, hq, if_neg hroot, if_pos rfl, hadmits.free]
    · rw [Tree.get?_erase_of_ne hq, hs.tree.elsewhere q hq]

/-- **A draft that is discarded is gone**, whether it was there or not: everything is as it was
before the draft was made. Or its removal was refused, and there is a draft at most. -/
theorem discard_cases {outcome : Except Failure Unit}
    (hadmits : h.Admits p (p.placeFrom h.directory))
    (hs : h.Evolves (Tree.Drafts (p.placeFrom h.directory)) s)
    (hrun : (discard p).runOn s = (outcome, t)) :
    outcome = .ok () ∧ h.Evolves Tree.Agrees t ∨
      h.Evolves (Tree.Drafts (p.placeFrom h.directory)) t ∧ h.Schedules .unlink := by
  have hdrafts := (keeps_discard (unobserving_evolves _ h) allowsUnlink_drafts).after hrun hs
  cases hpass : (pass .unlink p).runOn s with
  | mk passed u =>
    have hu := (keeps_pass (unobserving_evolves _ h) _ _).after hpass hs
    cases passed with
    | error failure => exact .inr ⟨hdrafts, (schedules_of_pass_error hpass).of_evolves hs⟩
    | ok _ =>
      rw [discard, Action.runOn_onFault, Action.runOn_bind_ok hpass] at hrun
      cases hchange : (change p Tree.unlink).runOn u with
      | mk changed v =>
        obtain ⟨hchanged, hgone⟩ := change_unlink_cases hadmits hu hchange
        rw [hchange] at hrun
        rcases hchanged with rfl | ⟨fault, rfl, hcode⟩
        · cases hrun
          exact .inl ⟨rfl, hgone⟩
        · dsimp only at hrun
          rw [if_pos hcode] at hrun
          cases hrun
          exact .inl ⟨rfl, hgone⟩

/-- The path of a draft of a file, for the count of names that were drawn before. -/
def draftPath (h : Host) (target : Path) (count : Nat) : Path :=
  freshPath (normalize h.directory target.parent) ("." ++ target.name ++ ".") count

/-- A draft is made where there is nothing, beside the file that is to be replaced; or nothing
changes. -/
theorem createFresh_cases {outcome : Except Failure Path}
    (hrun : (createFresh target).runOn h = (outcome, t)) :
    (∃ failure, outcome = .error failure ∧ h.SameGround t) ∨
      ∃ temporary, outcome = .ok temporary ∧ (∃ count, temporary = h.draftPath target count) ∧
        h.Admits temporary (temporary.placeFrom h.directory) ∧
        h.Evolves (Tree.Drafts (temporary.placeFrom h.directory)) t := by
  rw [createFresh] at hrun
  rcases Action.runOn_bind_cases hrun with ⟨failure, hpass, rfl⟩ | ⟨_, u, hpass, hrun⟩
  · exact .inl ⟨failure, rfl, sameGround_of_keeps (fun _ hP => keeps_pass hP.unobserving _ _) hpass⟩
  have hpassed := sameGround_of_keeps (fun _ hP => keeps_pass hP.unobserving _ _) hpass
  rw [Action.runOn_bind_ok (Action.runOn_get u), fresh,
    Action.runOn_bind_ok (Action.runOn_get u), hpassed.directory_eq] at hrun
  rcases tryFresh_cases _ _ _ hrun with ⟨failure, rfl, hsame⟩ | ⟨count, v, rfl, hsame, hmake⟩
  · exact .inl ⟨failure, rfl, hpassed.trans hsame⟩
  · have hbefore := hpassed.trans hsame
    obtain ⟨hnull, tree, hcreate, rfl⟩ := change_eq_ok.1 hmake
    rw [hbefore.directory_eq, ← hbefore.tree] at hcreate
    obtain ⟨place, hplace, hname, hfree, rfl⟩ := Tree.createFile_eq_ok hcreate
    have hroot := Tree.ne_nil_of_endsInName hname hplace
    obtain rfl := Tree.locate_eq_placeFrom hplace
    exact .inr ⟨_, rfl, ⟨_, rfl⟩, ⟨hnull, hplace, hfree⟩, Tree.drafts_insert hroot .empty,
      hbefore.directory_eq, hbefore.vanish_eq, hbefore.disturbances⟩

/-- A draft that was filled, or was not, is a draft. -/
theorem keeps_fill_drafts (text : RawText) :
    Keeps (h.Evolves (Tree.Drafts (p.placeFrom h.directory))) (fill p text) :=
  keeps_fill (unobserving_evolves _ h) (fun _ => allows_drafts fun _ _ => Tree.drafts_writeFile) text

/-- A draft that was moved is gone, and nothing else changed but the target. -/
theorem agrees_of_moveFile (hadmits : h.Admits p (p.placeFrom h.directory))
    (hs : h.Evolves (Tree.Drafts (p.placeFrom h.directory)) s)
    (hrun : (moveFile p target).runOn s = (.ok (), t)) :
    t.directory = h.directory ∧
      ∀ q, q ≠ target.placeFrom h.directory → t.tree.get? q = h.tree.get? q := by
  have hdisturbed := (keeps_disturb (unobserving_evolves (Tree.Drafts (p.placeFrom h.directory)) h)
    .replace target).after (runOn_disturb .replace target s) hs
  rw [moveFile, Action.runOn_bind_ok (runOn_disturb .replace target s)] at hrun
  split at hrun
  · cases hrun
  · obtain ⟨_, _, -, hthrow⟩ := Action.runOn_bind_eq_ok.1 hrun
    cases hthrow
  · obtain ⟨-, tree, hmove, rfl⟩ := change_eq_ok.1 hrun
    rw [hdisturbed.directory_eq] at hmove
    obtain ⟨bytes, hfile, rfl⟩ := Tree.moveFile_eq_ok hmove
    have hroot : p.placeFrom h.directory ≠ [] := by
      intro hroot
      simp [hroot] at hfile
    refine ⟨hdisturbed.directory_eq, fun q hq => ?_⟩
    rw [Tree.get?_insert_of_ne hq]
    by_cases hdraft : q = p.placeFrom h.directory
    · rw [Tree.get?_erase, hdraft, if_neg hroot, if_pos rfl, hadmits.free]
    · rw [Tree.get?_erase_of_ne hdraft]
      exact hs.tree.elsewhere q hdraft

/-- A replacement leaves its draft beside the target, where there was nothing before. The schedule
refuses to remove it. -/
structure LeavesDraft (h : Host) (target : Path) (place : Place) (t : Host) : Prop where
  drawn : ∃ count, place = (h.draftPath target count).placeFrom h.directory
  free : h.tree.get? place = none
  left : ∃ bytes, t.tree.get? place = some (.file bytes)
  refused : h.Schedules .unlink

/-- The draft is not the file that was to be replaced. -/
theorem LeavesDraft.ne (hleaves : h.LeavesDraft target place t) :
    place ≠ target.placeFrom h.directory := by
  obtain ⟨count, rfl⟩ := hleaves.drawn
  exact placeFrom_freshPath_ne h.directory target count h.directory

/-- **What a replacement does to the whole tree.** If it fails, nothing is left of it but directories
above the target that were missing, and the draft if it could not be removed; if it does not, only the
target is different besides. -/
theorem replaceFile_cases {outcome : Except Failure Unit}
    (hrun : (replaceFile target text).runOn h = (outcome, t)) :
    ∃ u, h.Evolves (Tree.OnlyMakes (target.parent.OnWay h.directory)) u ∧
      ((∃ failure, outcome = .error failure ∧
          (u.Evolves Tree.Agrees t ∨
            ∃ count, u.tree.get? ((h.draftPath target count).placeFrom h.directory) = none ∧
              u.Evolves (Tree.Drafts ((h.draftPath target count).placeFrom h.directory)) t ∧
              h.Schedules .unlink)) ∨
        outcome = .ok () ∧ t.directory = h.directory ∧
          ∀ q, q ≠ target.placeFrom h.directory → t.tree.get? q = u.tree.get? q) := by
  have hagrees : ∀ {v w : Host}, v.SameGround w → v.Evolves Tree.Agrees w :=
    fun hsame => hsame.mono fun _ _ heq q => by rw [heq]
  rw [replaceFile] at hrun
  rcases Action.runOn_bind_cases hrun with ⟨failure, hmade, rfl⟩ | ⟨_, u, hmade, hrun⟩
  · exact ⟨t, onlyMakes_of_makeDirectories hmade, .inl ⟨failure, rfl, .inl (hagrees (.refl t))⟩⟩
  have hu := onlyMakes_of_makeDirectories hmade
  refine ⟨u, hu, ?_⟩
  rcases Action.runOn_bind_cases hrun with ⟨failure, hfresh, rfl⟩ | ⟨temporary, v, hfresh, hrun⟩
  · rcases createFresh_cases hfresh with ⟨_, -, hsame⟩ | ⟨_, hok, -⟩
    · exact .inl ⟨failure, rfl, .inl (hagrees hsame)⟩
    · cases hok
  rcases createFresh_cases hfresh with ⟨_, herror, -⟩ | ⟨_, hok, ⟨count, hcount⟩, hadmits, hv⟩
  · cases herror
  obtain rfl := Except.ok.inj hok
  rw [Action.runOn_tryCatch] at hrun
  split at hrun
  · rename_i w hmoved
    cases hrun
    obtain ⟨_, x, hfilled, hmove⟩ := Action.runOn_bind_eq_ok.1 hmoved
    have hx := (keeps_fill_drafts text).after hfilled hv
    obtain ⟨htdirectory, hsame⟩ := agrees_of_moveFile hadmits hx hmove
    rw [hu.directory_eq] at htdirectory hsame
    exact .inr ⟨rfl, htdirectory, hsame⟩
  · -- whatever failed, there is a draft at most, and it is removed
    rename_i failed w hfailed
    have hw : u.Evolves (Tree.Drafts (temporary.placeFrom u.directory)) w := by
      rcases Action.runOn_bind_cases hfailed with ⟨_, hfilled, -⟩ | ⟨_, x, hfilled, hmove⟩
      · exact (keeps_fill_drafts text).after hfilled hv
      · exact moveFile_failed (unobserving_evolves _ u) allowsUnlink_drafts
          ((keeps_fill_drafts text).after hfilled hv) hmove
    have hended : ∃ discarded failure, (discard temporary).runOn w = (discarded, t) ∧
        outcome = .error failure := by
      rcases Action.runOn_bind_cases hrun with ⟨failure, hdiscard, rfl⟩ | ⟨_, x, hdiscard, hthrow⟩
      · exact ⟨_, failure, hdiscard, rfl⟩
      · cases hthrow
        exact ⟨_, failed, hdiscard, rfl⟩
    obtain ⟨discarded, failure, hdiscard, rfl⟩ := hended
    refine .inl ⟨failure, rfl, ?_⟩
    rcases discard_cases hadmits hw hdiscard with ⟨-, hgone⟩ | ⟨hdrafts, hrefused⟩
    · exact .inl hgone
    · have hplace : temporary.placeFrom u.directory =
          (h.draftPath target count).placeFrom h.directory := by
        rw [hcount, draftPath, draftPath, hu.directory_eq]
      rw [hplace] at hadmits hdrafts
      exact .inr ⟨count, hadmits.free, hdrafts, hrefused.of_evolves hu⟩

/-- **What a replacement that failed leaves**, place by place. -/
theorem tree_of_replaceFile_failed {failure : Failure}
    (hrun : (replaceFile target text).runOn h = (.error failure, t)) :
    (∀ place, t.tree.get? place = h.tree.get? place ∨
      (target.parent.OnWay h.directory place ∧ h.tree.get? place = none ∧
        t.tree.get? place = some .directory) ∨ h.LeavesDraft target place t) ∧
    ∀ place other, h.LeavesDraft target place t → h.LeavesDraft target other t → place = other := by
  obtain ⟨u, hmade, ⟨_, -, hleft⟩ | ⟨hok, -⟩⟩ := replaceFile_cases hrun
  swap
  · cases hok
  have hfree : ∀ {q}, u.tree.get? q = none → h.tree.get? q = none := by
    intro q hq
    rcases hmade.tree q with hsame | ⟨-, hnone, -⟩
    · rw [← hsame, hq]
    · exact hnone
  rcases hleft with hagrees | ⟨count, hnone, hdrafts, hrefused⟩
  · have hsame : ∀ q, t.tree.get? q = u.tree.get? q := hagrees.tree
    refine ⟨fun q => ?_, fun place _ hplace => ?_⟩
    · rw [hsame q]
      exact (hmade.tree q).imp_right .inl
    · obtain ⟨bytes, hleft⟩ := hplace.left
      rw [hsame, hmade.tree.file_iff, hplace.free] at hleft
      cases hleft
  · obtain ⟨draft, hdraft⟩ : ∃ q, q = (h.draftPath target count).placeFrom h.directory := ⟨_, rfl⟩
    rw [← hdraft] at hnone hdrafts
    have honly : ∀ q, h.LeavesDraft target q t → q = draft := by
      intro q hq
      by_contra hne
      obtain ⟨bytes, hleft⟩ := hq.left
      rw [hdrafts.tree.elsewhere q hne, hmade.tree.file_iff, hq.free] at hleft
      cases hleft
    refine ⟨fun q => ?_, fun place other hplace hother =>
      (honly place hplace).trans (honly other hother).symm⟩
    by_cases hq : q = draft
    · subst hq
      cases hnode : t.tree.get? q with
      | none => exact .inl (hfree hnone).symm
      | some node =>
        cases node with
        | directory => exact absurd hnode hdrafts.tree.no_directory
        | file bytes =>
          exact .inr (.inr ⟨⟨count, hdraft⟩, hfree hnone, ⟨bytes, hnode⟩, hrefused⟩)
    · rw [hdrafts.tree.elsewhere q hq]
      exact (hmade.tree q).imp_right .inl

end Host

end MemoryLimit
