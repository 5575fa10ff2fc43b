import MemoryLimit.Proofs.Host.Nodes
import MemoryLimit.Proofs.Path
import MemoryLimit.Proofs.Text.Digits

/-!
# A file is replaced as a whole or not at all

The bytes of a replaced file come under another name first, and take the file's name in the last step.
So as long as that step is not taken the file is what it was, or still not there.

## Main definitions

* `Tree.SameFile` — the file at a place has the same bytes, or is not there.
* `Host.Spares` — the file at a place is the same, and nothing was written to the standard output.

## Main statements

* `Host.placeFrom_freshPath_ne` — the file that is written first is not the one that is replaced.
* `Host.spares_of_replaceFile` — a replacement that fails leaves the file as it was.
-/
namespace MemoryLimit

open MemoryLimit.Action (Keeps)

/-! ## The same file -/

namespace Tree

variable {t u v : Tree} {directory place q : Place} {p : Path}

/-- The file at a place has the same bytes, or is not there, in two trees. -/
def SameFile (place : Place) (t u : Tree) : Prop :=
  ∀ bytes, u.get? place = some (.file bytes) ↔ t.get? place = some (.file bytes)

theorem SameFile.refl (place : Place) (t : Tree) : t.SameFile place t :=
  fun _ => .rfl

theorem SameFile.trans (h : t.SameFile place u) (h' : u.SameFile place v) : t.SameFile place v :=
  fun bytes => (h' bytes).trans (h bytes)

theorem sameFile_of_get? (h : u.get? place = t.get? place) : t.SameFile place u :=
  fun bytes => by rw [h]

theorem sameFile_insert {node : Node} (h : q ≠ place) : t.SameFile place (t.insert q node) :=
  sameFile_of_get? (get?_insert_of_ne (Ne.symm h))

/-- A directory is made where there is no file, and it is none. -/
theorem sameFile_makeDirectory (h : t.makeDirectory directory p = .ok u) : t.SameFile place u := by
  obtain ⟨made, -, -, hfree, rfl⟩ := makeDirectory_eq_ok h
  by_cases hmade : made = place
  · subst hmade
    intro bytes
    rw [hfree, get?_insert]
    split <;> simp
  · exact sameFile_insert hmade

theorem sameFile_createFile (hne : p.placeFrom directory ≠ place)
    (h : t.createFile directory p = .ok u) : t.SameFile place u := by
  rw [createFile, bind_eq_ok] at h
  obtain ⟨made, hmade, hcreate⟩ := h
  split at hcreate
  · cases hcreate
    exact sameFile_insert (locate_eq_placeFrom hmade ▸ hne)
  · cases hcreate

theorem sameFile_writeFile {bytes : ByteArray} (hne : p.placeFrom directory ≠ place)
    (h : t.writeFile directory p bytes = .ok u) : t.SameFile place u := by
  obtain ⟨written, hwritten, -, rfl⟩ := writeFile_eq_ok h
  exact sameFile_insert (locate_eq_placeFrom hwritten ▸ hne)

theorem sameFile_unlink (hne : p.placeFrom directory ≠ place)
    (h : t.unlink directory p = .ok u) : t.SameFile place u := by
  rw [unlink, bind_eq_ok] at h
  obtain ⟨gone, hgone, hunlink⟩ := h
  split at hunlink
  · cases hunlink
  · cases hunlink
  · cases hunlink
    exact sameFile_of_get? (get?_erase_of_ne (Ne.symm (locate_eq_placeFrom hgone ▸ hne)))

end Tree

namespace Host

variable {h s t : Host} {place : Place} {p : Path}

/-- The file at a place is what it was, and nothing was written to the standard output. The user and
the plan of the processes are the same, too, and no new kinds of disturbances came up. -/
structure Spares (place : Place) (h t : Host) : Prop extends h.Evolves (Tree.SameFile place) t where
  output : t.outputLines = h.outputLines
  userId : t.userId = h.userId
  child : t.child = h.child

theorem Spares.refl (place : Place) (h : Host) : h.Spares place h :=
  ⟨.refl (.refl place _), rfl, rfl, rfl⟩

theorem unobserving_spares (place : Place) (h : Host) : Unobserving (h.Spares place) where
  called := fun s call p hs =>
    { hs with toEvolves := (unobserving_evolves _ h).called s call p hs.toEvolves }
  disturbed := fun s call name hs =>
    { hs with toEvolves := (unobserving_evolves _ h).disturbed s call name hs.toEvolves }
  reported := fun s journal hs =>
    { hs with toEvolves := (unobserving_evolves _ h).reported s journal hs.toEvolves }
  paused := fun s naps hs =>
    { hs with toEvolves := (unobserving_evolves _ h).paused s naps hs.toEvolves }
  ticked := fun s hs => { hs with toEvolves := (unobserving_evolves _ h).ticked s hs.toEvolves }
  drawn := fun s count hs =>
    { hs with toEvolves := (unobserving_evolves _ h).drawn s count hs.toEvolves }

/-- A change of the tree that spares the file is allowed. -/
theorem allows_spares {f : Tree → Place → Path → Except Int Tree}
    (hf : ∀ tree tree', f tree h.directory p = .ok tree' → tree.SameFile place tree') :
    Allows (h.Spares place) p f := by
  intro s tree hs hchange
  exact ⟨allows_evolves (Tree.SameFile place) (fun _ _ _ => Tree.SameFile.trans) hf s tree
      hs.toEvolves hchange,
    hs.output, hs.userId, hs.child⟩

theorem allows_makeDirectory_spares : Allows (h.Spares place) p Tree.makeDirectory :=
  allows_spares fun _ _ => Tree.sameFile_makeDirectory

theorem allowsWriting_spares (hne : p.placeFrom h.directory ≠ place) :
    AllowsWriting (h.Spares place) p :=
  fun _ => allows_spares fun _ _ => Tree.sameFile_writeFile hne

theorem allowsUnlink_spares (hne : p.placeFrom h.directory ≠ place) :
    Allows (h.Spares place) p Tree.unlink :=
  allows_spares fun _ _ => Tree.sameFile_unlink hne

/-! ## The file that is written first -/

/-- The name of the file that is written before a file of the given name is replaced. -/
def temporaryName (name : String) (count : Nat) : String :=
  "." ++ name ++ "." ++ freshSuffix count

theorem toList_temporaryName (name : String) (count : Nat) :
    (temporaryName name count).toList = '.' :: (name.toList ++ '.' :: (freshSuffix count).toList) := by
  simp [temporaryName]

theorem isDigit_of_mem_freshSuffix {count : Nat} {c : Char} (hc : c ∈ (freshSuffix count).toList) :
    c.isDigit = true := by
  rw [freshSuffix, String.toList_ofList, List.mem_append] at hc
  rcases hc with hzero | hdigit
  · rw [List.eq_of_mem_replicate hzero]
    decide
  · exact Text.isDigit_of_mem_natDigits hdigit

theorem le_length_freshSuffix (count : Nat) : 8 ≤ (freshSuffix count).toList.length := by
  rw [freshSuffix, String.toList_ofList, List.length_append, List.length_replicate]
  omega

/-- **A fresh name is a name of a file** if it does not begin with a path. -/
theorem isFileName_append_freshSuffix {stem : String} (hstem : '/' ∉ stem.toList) (count : Nat) :
    IsFileName (stem ++ freshSuffix count) := by
  have hlong := le_length_freshSuffix count
  have hne : ∀ short : String, short.toList.length ≤ 2 → stem ++ freshSuffix count ≠ short := by
    rintro short hshort rfl
    rw [String.toList_append, List.length_append] at hshort
    omega
  refine ⟨⟨hne "" (by decide), hne "." (by decide), ?_⟩, hne ".." (by decide)⟩
  rw [String.toList_append, List.mem_append]
  rintro (hslash | hdigit)
  · exact hstem hslash
  · have hslash := isDigit_of_mem_freshSuffix hdigit
    revert hslash
    decide

theorem isFileName_temporaryName {name : String} (hname : '/' ∉ name.toList) (count : Nat) :
    IsFileName (temporaryName name count) := by
  refine isFileName_append_freshSuffix ?_ count
  simpa using hname

theorem temporaryName_ne (name : String) (count : Nat) : temporaryName name count ≠ name := by
  intro heq
  have hlength := congrArg (·.toList.length) heq
  simp only [toList_temporaryName, List.length_cons, List.length_append] at hlength
  omega

/-- Steps by names that do not lead upwards lead down. -/
theorem foldl_step {names : List String} (hnames : ∀ name ∈ names, name ≠ "..")
    (start : Place) :
    names.foldl (fun place name => if name = ".." then place.dropLast else place ++ [name]) start =
      start ++ names := by
  induction names generalizing start with
  | nil => simp
  | cons name rest ih =>
    rw [List.foldl_cons, if_neg (hnames name (by simp)),
      ih (fun other hother => hnames other (List.mem_cons_of_mem _ hother))]
    simp

/-- The steps from a real place lead where they lead from its names. -/
theorem names_follow (place : RealPlace) (names : List String)
    (hnames : ∀ name ∈ names, Path.IsName name) :
    (place.follow names hnames).names =
      names.foldl (fun place name => if name = ".." then place.dropLast else place ++ [name])
        place.names := by
  induction names generalizing place with
  | nil => rfl
  | cons name rest ih =>
    rw [RealPlace.follow, List.foldl_cons]
    split
    · exact ih _ _
    · exact ih _ _

/-- A path without steps upwards leads to the same place. -/
theorem placeFrom_normalize (directory : RealPlace) (p : Path) (other : Place) :
    (normalize directory p).placeFrom other = p.placeFrom directory := by
  have habsolute : (normalize directory p).isAbsolute = true := by
    simp [normalize, Path.isAbsolute]
  have hstart : (if p.isAbsolute then .root else directory).names =
      if p.isAbsolute then [] else directory.names := by
    split <;> rfl
  rw [Path.placeFrom, if_pos habsolute, Path.placeFrom, ← hstart, ← names_follow _ _ p.isName]
  exact foldl_step (fun name hname => (RealPlace.isFileName _ name hname).ne_up) []

/-- A fresh file is directly in its directory. -/
theorem placeFrom_freshPath {parent : Path} {stem : String} {count : Nat}
    (hname : IsFileName (stem ++ freshSuffix count)) (directory : Place) :
    (freshPath parent stem count).placeFrom directory =
      parent.placeFrom directory ++ [stem ++ freshSuffix count] := by
  rw [freshPath, Path.read_appendName, Path.placeFrom_child hname]

/-- **The file that is written first is not the one that is replaced.** -/
theorem placeFrom_freshPath_ne (directory : RealPlace) (p : Path) (count : Nat) (other : Place) :
    (freshPath (normalize directory p.parent) ("." ++ p.name ++ ".") count).placeFrom other ≠
      p.placeFrom directory := by
  have hname : '/' ∉ p.name.toList := by
    rw [Path.name]
    cases hlast : p.names.getLast? with
    | none => decide
    | some name => exact (p.isName name (List.mem_of_getLast? hlast)).no_slash
  rw [placeFrom_freshPath (isFileName_temporaryName hname count), placeFrom_normalize]
  rcases List.eq_nil_or_concat p.names with hnil | ⟨names, name, hnames⟩
  · -- there is no last step
    have hsame : p.parent = p := by
      refine Path.ext rfl ?_
      rw [Path.names_parent, hnil, List.dropLast_nil]
    rw [hsame]
    intro heq
    have hlength := congrArg List.length heq
    simp at hlength
  · rw [List.concat_eq_append] at hnames
    have hlast : p.name = name := by simp [Path.name, hnames]
    have hplace : p.placeFrom directory =
        if name = ".." then (p.parent.placeFrom directory).dropLast
        else p.parent.placeFrom directory ++ [name] := by
      rw [Path.placeFrom, hnames, List.foldl_append, Path.placeFrom, Path.names_parent, hnames,
        List.dropLast_concat]
      rfl
    rw [hplace]
    split
    · intro heq
      have hlength := congrArg List.length heq
      simp at hlength
      omega
    · intro heq
      have hends := List.append_cancel_left heq
      rw [List.singleton_inj, ← hlast] at hends
      exact temporaryName_ne _ _ hends

/-! ## A replacement that fails -/

/-- A file with a name of its own that was made has one of the names that are drawn. -/
theorem exists_freshPath_of_tryFresh {make : Path → Action Host Unit} {parent : Path} {stem : String}
    {fuel : Nat} (hrun : (tryFresh make parent stem fuel).runOn s = (.ok p, t)) :
    ∃ count, p = freshPath parent stem count := by
  induction fuel generalizing s with
  | zero => cases hrun
  | succ fuel ih =>
    rw [runOn_tryFresh_succ] at hrun
    split at hrun
    · cases hrun
      exact ⟨_, rfl⟩
    · split at hrun
      · exact ih hrun
      · cases hrun
    · cases hrun

/-- An empty file with a name of its own is made beside the one that is to be replaced. -/
theorem spares_of_createFresh {target : Path} {outcome : Except Failure Path}
    (hs : h.Spares (target.placeFrom h.directory) s)
    (hrun : (createFresh target).runOn s = (outcome, t)) :
    h.Spares (target.placeFrom h.directory) t ∧ ∀ temporary, outcome = .ok temporary →
      temporary.placeFrom h.directory ≠ target.placeFrom h.directory := by
  have hne := fun count => placeFrom_freshPath_ne h.directory target count h.directory
  have hpass := keeps_pass (unobserving_spares (target.placeFrom h.directory) h) .mkstemp target
  rw [createFresh] at hrun
  rcases Action.runOn_bind_cases hrun with ⟨_, hpassed, rfl⟩ | ⟨_, u, hpassed, hrun⟩
  · exact ⟨hpass.after hpassed hs, by rintro _ ⟨⟩⟩
  replace hs := hpass.after hpassed hs
  rw [Action.runOn_bind_ok (Action.runOn_get u), fresh,
    Action.runOn_bind_ok (Action.runOn_get u), hs.directory_eq] at hrun
  refine ⟨?_, ?_⟩
  · refine (keeps_tryFresh (unobserving_spares _ h) (fun count => keeps_change ?_) _).after hrun hs
    exact allows_spares fun _ _ => Tree.sameFile_createFile (hne count)
  · rintro temporary rfl
    obtain ⟨count, rfl⟩ := exists_freshPath_of_tryFresh hrun
    exact hne count

/-- **A replacement that fails** leaves the file as it was. -/
theorem spares_of_replaceFile {target : Path} {text : RawText} {failure : Failure}
    (hs : h.Spares (target.placeFrom h.directory) s)
    (hrun : (replaceFile target text).runOn s = (.error failure, t)) :
    h.Spares (target.placeFrom h.directory) t := by
  have hmake : Keeps (h.Spares (target.placeFrom h.directory)) (makeDirectories target.parent) :=
    keeps_makeDirectories (unobserving_spares _ h) fun _ _ => allows_makeDirectory_spares
  rw [replaceFile] at hrun
  rcases Action.runOn_bind_cases hrun with ⟨_, hmade, -⟩ | ⟨_, u, hmade, hrun⟩
  · exact hmake.after hmade hs
  rcases Action.runOn_bind_cases hrun with ⟨_, hfresh, -⟩ | ⟨temporary, v, hfresh, hrun⟩
  · exact (spares_of_createFresh (hmake.after hmade hs) hfresh).1
  obtain ⟨hv, hne⟩ := spares_of_createFresh (hmake.after hmade hs) hfresh
  have hwrite := keeps_fill (unobserving_spares _ h) (allowsWriting_spares (hne temporary rfl)) text
  rw [Action.runOn_tryCatch] at hrun
  split at hrun
  · cases hrun
  · -- the last step was not taken, and whatever failed, the other file is removed
    rename_i failed w hfailed
    have hP := unobserving_spares (target.placeFrom h.directory) h
    have hunlink := allowsUnlink_spares (hne temporary rfl)
    have hw : h.Spares (target.placeFrom h.directory) w := by
      rcases Action.runOn_bind_cases hfailed with ⟨_, hwritten, -⟩ | ⟨_, x, hwritten, hmove⟩
      · exact hwrite.after hwritten hv
      · exact moveFile_failed hP hunlink (hwrite.after hwritten hv) hmove
    exact (Keeps.bind (keeps_discard hP hunlink) fun _ => .throw failed).after hrun hw

end Host

end MemoryLimit
