import Mathlib.Data.List.Induction
import MemoryLimit.Proofs.Entries
import MemoryLimit.Proofs.Host.Tree
import MemoryLimit.Proofs.Path

/-!
# Directories of a file tree

A file tree is well formed if every node is listed once and lies in a directory. Every call keeps
it so. What a call makes or changes lies where its path leads by its names alone, and a directory
that is removed takes nothing with it but the files directly in it.

## Main definitions

* `Path.placeFrom` — the place that a path leads to by its names alone.
* `Tree.WellFormed` — every node is listed once and lies in a directory.
* `Tree.Adds` — no directory is lost, and only certain ones are new.
* `Tree.Grows` — nothing is lost, and nothing changes but at certain places.
* `Tree.Loses` — nothing is missing but the directory at one place and what lies in it.

## Main statements

* `Tree.grows_writeFile`, `Tree.grows_makeDirectory` — what the calls that make something do.
* `Tree.loses_removeDirectory` — what the removal of a directory does.
* `Tree.exists_removeDirectory` — a directory without directories in it can be removed.
-/
namespace MemoryLimit

/-- The place that a path leads to by its names alone, whatever stands in its way. -/
def Path.placeFrom (directory : Place) (p : Path) : Place :=
  p.names.foldl (fun place name => if name = ".." then place.dropLast else place ++ [name])
    (if p.isAbsolute then [] else directory)

/-- A path that leads somewhere by a name of its own, or from the root. -/
def Path.Leads (p : Path) : Prop :=
  p.names ≠ [] ∨ p.isAbsolute = true

/-- A place lies below another one. -/
def Place.IsBelow (place root : Place) : Prop :=
  root <+: place ∧ place ≠ root

/-! ## Names of files -/

namespace Path

variable {p : Path} {name : String}

/-- A path below one that has names leads somewhere. -/
theorem leads_child (hp : p.names ≠ []) (name : String) : (p.child name).Leads := by
  rw [child, join]
  split
  · rename_i habsolute
    exact .inr habsolute
  · refine .inl ?_
    simp [hp]

/-- The path of a file in a directory is that of the directory with the name of the file at its end. -/
theorem child_of_isFileName (hname : IsFileName name) :
    (p.child name).slashes = p.slashes ∧ (p.child name).names = p.names ++ [name] := by
  have hrelative : ¬ (read name).isAbsolute = true := by
    simp [isAbsolute, read, leadingSlashes_of_isName hname.toIsName]
  rw [child, join, if_neg hrelative]
  exact ⟨rfl, congrArg (p.names ++ ·) (namesIn_toList hname.toIsName)⟩

theorem slashes_child (hname : IsFileName name) : (p.child name).slashes = p.slashes :=
  (child_of_isFileName hname).1

theorem names_child (hname : IsFileName name) : (p.child name).names = p.names ++ [name] :=
  (child_of_isFileName hname).2

theorem isAbsolute_child (hname : IsFileName name) :
    (p.child name).isAbsolute = p.isAbsolute := by
  rw [isAbsolute, slashes_child hname, isAbsolute]

/-- A file in a directory is directly below it. -/
theorem placeFrom_child (hname : IsFileName name) (directory : Place) :
    (p.child name).placeFrom directory = p.placeFrom directory ++ [name] := by
  rw [placeFrom, names_child hname, isAbsolute_child hname, List.foldl_append]
  simp only [List.foldl_cons, List.foldl_nil, if_neg hname.ne_up]
  rfl

theorem leads_child_of_isFileName (hname : IsFileName name) : (p.child name).Leads := by
  exact .inl (by simp [names_child hname])

/-- The texts of the paths of the files in a directory differ in their ends only. -/
theorem exists_text_child (p : Path) : ∃ start : String, ∀ name, IsFileName name →
    (p.child name).text = start ++ name := by
  by_cases hnames : p.names = []
  · refine ⟨String.ofList (List.replicate p.slashes '/'), fun name hname => ?_⟩
    rw [text, names_child hname, slashes_child hname, hnames]
    simp
  · refine ⟨String.ofList (List.replicate p.slashes '/') ++ String.intercalate "/" p.names ++ "/",
      fun name hname => ?_⟩
    rw [text, names_child hname, slashes_child hname,
      String.intercalate_append_of_ne_nil hnames (by simp)]
    simp [String.append_assoc]

end Path

namespace Tree

variable {t u v : Tree} {directory place q : Place} {p : Path} {node : Node} {bytes : ByteArray}

/-! ## Well-formed trees -/

/-- Every node is listed once and lies in a directory. -/
structure WellFormed (t : Tree) : Prop where
  nodup : (t.entries.map Prod.fst).Nodup
  inDirectory : ∀ entry ∈ t.entries, t.get? entry.1.dropLast = some .directory

@[simp] theorem get?_root (t : Tree) : t.get? [] = some .directory := rfl

theorem isDirectory_iff : t.isDirectory place = true ↔ t.get? place = some .directory := by
  simp [isDirectory]

/-- An insertion changes nothing elsewhere. -/
theorem get?_insert_of_ne (h : q ≠ place) : (t.insert place node).get? q = t.get? q := by
  rw [get?_insert, if_neg h]
  by_cases hroot : q = [] <;> simp [hroot]

theorem get?_insert_self (h : place ≠ []) : (t.insert place node).get? place = some node := by
  rw [get?_insert, if_neg h, if_pos rfl]

/-- A removal changes nothing elsewhere. -/
theorem get?_erase_of_ne (h : q ≠ place) : (t.erase place).get? q = t.get? q := by
  rw [get?_erase, if_neg h]
  by_cases hroot : q = [] <;> simp [hroot]

/-- What is at a place, the root aside, is what is listed there. -/
theorem WellFormed.get?_eq_some_iff (h : t.WellFormed) (hplace : place ≠ []) :
    t.get? place = some node ↔ (place, node) ∈ t.entries := by
  rw [get?, if_neg hplace, lookup_eq_some_iff_mem h.nodup]

/-- Whatever is in a tree lies in a directory. -/
theorem WellFormed.get?_dropLast (h : t.WellFormed) (hplace : t.get? place = some node) :
    t.get? place.dropLast = some .directory := by
  by_cases hroot : place = []
  · simp [hroot]
  · exact h.inDirectory _ ((h.get?_eq_some_iff hroot).1 hplace)

/-- Everything above a node is a directory. -/
theorem WellFormed.get?_of_isBelow (h : t.WellFormed) (hbelow : Place.IsBelow place q)
    (hplace : t.get? place = some node) : t.get? q = some .directory := by
  obtain ⟨⟨rest, rfl⟩, hne⟩ := hbelow
  induction rest using List.reverseRecOn generalizing node with
  | nil => simp at hne
  | append_singleton rest name ih =>
    have hparent := h.get?_dropLast hplace
    rw [← List.append_assoc, List.dropLast_concat] at hparent
    by_cases hrest : rest = []
    · simpa [hrest] using hparent
    · exact ih hparent (by simpa using hrest)

/-- A new node in a directory leaves a tree well formed, unless it takes the place of a
directory. -/
theorem WellFormed.insert (h : t.WellFormed) (hparent : t.get? place.dropLast = some .directory)
    (hplace : t.get? place = some .directory → node = .directory) :
    (t.insert place node).WellFormed := by
  have hkept : ∀ q, t.get? q = some .directory →
      (t.insert place node).get? q = some .directory := by
    intro q hq
    by_cases hat : q = place
    · subst hat
      by_cases hroot : q = []
      · simp [hroot]
      · rw [get?_insert_self hroot, hplace hq]
    · rw [get?_insert_of_ne hat, hq]
  constructor
  · have hrest : ((t.entries.filter (·.1 ≠ place)).map Prod.fst).Nodup :=
      h.nodup.sublist (List.filter_sublist.map _)
    simp only [Tree.insert, List.map_cons, List.nodup_cons]
    exact ⟨by simp, hrest⟩
  · intro entry hentry
    rcases List.mem_cons.1 hentry with rfl | hold
    · exact hkept _ hparent
    · exact hkept _ (h.inDirectory entry (List.mem_filter.1 hold).1)

/-! ## Where a path leads -/

/-- A step that can be taken is the step that its name says, from a directory. -/
theorem step_eq_ok {name : String} {next : Place} (h : t.step place name = .ok next) :
    t.get? place = some .directory ∧
      next = if name = ".." then place.dropLast else place ++ [name] := by
  rw [step] at h
  split at h
  · cases h
  · cases h
  · rename_i hnode
    refine ⟨hnode, ?_⟩
    split at h
    · rename_i hup
      cases h
      rw [if_pos hup]
    · rename_i hdown
      split at h
      · cases h
      · cases h
        rw [if_neg hdown]

/-- A path leads nowhere but where its names say. -/
theorem locate_eq_placeFrom (h : t.locate directory p = .ok place) :
    place = p.placeFrom directory := by
  rw [locate] at h
  split at h
  · cases h
  rw [Path.placeFrom]
  generalize (if p.isAbsolute then [] else directory) = start at h ⊢
  generalize p.names = names at h ⊢
  induction names generalizing start with
  | nil =>
    cases h
    rfl
  | cons name rest ih =>
    rw [List.foldlM_cons, bind_eq_ok] at h
    obtain ⟨next, hstep, hrest⟩ := h
    rw [List.foldl_cons, ← (step_eq_ok hstep).2]
    exact ih next hrest

/-- The last step of a path is taken from a directory. -/
theorem locate_concat {names : List String} {name : String}
    (hnames : p.names = names ++ [name]) (h : t.locate directory p = .ok place) :
    ∃ last, t.get? last = some .directory ∧
      place = if name = ".." then last.dropLast else last ++ [name] := by
  rw [locate] at h
  split at h
  · cases h
  rw [hnames, List.foldlM_append, bind_eq_ok] at h
  obtain ⟨last, -, hlast⟩ := h
  rw [List.foldlM_cons, bind_eq_ok] at hlast
  obtain ⟨next, hstep, hnext⟩ := hlast
  cases hnext
  exact ⟨last, step_eq_ok hstep⟩

/-- A path into a directory leads on to the same place in a tree that has more directories. -/
theorem locate_child_of_keepsDirectories {name : String} {parent : Place} (hname : IsFileName name)
    (hkeeps : t.KeepsDirectories u) (hparent : t.locate directory p = .ok parent)
    (hdirectory : t.get? parent = some .directory)
    (h : u.locate directory (p.child name) = .ok place) :
    t.locate directory (p.child name) = .ok place := by
  rw [locate] at h hparent ⊢
  split at h
  · cases h
  rename_i hshort
  rw [if_neg hshort]
  split at hparent
  · cases hparent
  rw [Path.names_child hname, Path.isAbsolute_child hname, List.foldlM_append, bind_eq_ok] at h ⊢
  obtain ⟨last, hlast, hstep⟩ := h
  have hsame := foldlM_step_mono hkeeps hparent
  rw [hlast] at hsame
  cases hsame
  refine ⟨parent, hparent, ?_⟩
  rw [List.foldlM_cons, step, hkeeps parent hdirectory] at hstep
  rw [List.foldlM_cons, step, hdirectory]
  exact hstep

/-- Where the path of one file in a directory leads somewhere, so does that of another one, if its name
is no longer. -/
theorem exists_locate_child {first second : String} (hfirst : IsFileName first)
    (hsecond : IsFileName second) (hlength : second.utf8ByteSize ≤ first.utf8ByteSize)
    (h : t.locate directory (p.child first) = .ok place) :
    ∃ place', t.locate directory (p.child second) = .ok place' := by
  obtain ⟨start, hstart⟩ := Path.exists_text_child p
  rw [locate, hstart first hfirst, String.utf8ByteSize_append] at h
  rw [locate, hstart second hsecond, String.utf8ByteSize_append]
  split at h
  · cases h
  rw [if_neg (by omega)]
  rw [Path.names_child hfirst, Path.isAbsolute_child hfirst, List.foldlM_append, bind_eq_ok] at h
  obtain ⟨last, hlast, hstep⟩ := h
  rw [List.foldlM_cons, bind_eq_ok] at hstep
  obtain ⟨next, hstep, -⟩ := hstep
  have hat := (step_eq_ok hstep).1
  have hshort : ¬ maxNameBytes < second.utf8ByteSize := by
    rw [step, hat] at hstep
    simp only [if_neg hfirst.ne_up] at hstep
    split at hstep
    · cases hstep
    · omega
  refine ⟨last ++ [second], ?_⟩
  rw [Path.names_child hsecond, Path.isAbsolute_child hsecond, List.foldlM_append, bind_eq_ok]
  refine ⟨last, hlast, ?_⟩
  rw [List.foldlM_cons, bind_eq_ok]
  refine ⟨last ++ [second], ?_, rfl⟩
  rw [step, hat]
  simp only [if_neg hsecond.ne_up, if_neg hshort]

/-- In a well-formed tree a path that leads somewhere leads into a directory. -/
theorem WellFormed.get?_dropLast_of_locate (h : t.WellFormed) (hleads : p.Leads)
    (hplace : t.locate directory p = .ok place) : t.get? place.dropLast = some .directory := by
  rcases List.eq_nil_or_concat p.names with hnil | ⟨names, name, hnames⟩
  · have habsolute : p.isAbsolute = true := hleads.resolve_left (by simp [hnil])
    have hroot := locate_eq_placeFrom hplace
    rw [Path.placeFrom, hnil, habsolute] at hroot
    simp [hroot]
  · obtain ⟨last, hlast, hnext⟩ := locate_concat (by rwa [List.concat_eq_append] at hnames) hplace
    by_cases hup : name = ".."
    · rw [hnext, if_pos hup]
      exact h.get?_dropLast (h.get?_dropLast hlast)
    · rw [hnext, if_neg hup, List.dropLast_concat]
      exact hlast

/-! ## Growth -/

/-- No directory is lost from a tree, and every new one is among those that are allowed. -/
structure Adds (new : Place → Prop) (t u : Tree) : Prop where
  directories : t.KeepsDirectories u
  new_of_directory : ∀ place, u.get? place = some .directory →
    t.get? place = some .directory ∨ new place
  wellFormed : t.WellFormed → u.WellFormed

/-- Besides, no file is lost, and nothing changes but at the places that may be touched. -/
structure Grows (new touched : Place → Prop) (t u : Tree) : Prop extends Adds new t u where
  nodes : ∀ place, t.get? place ≠ none → u.get? place ≠ none
  same : ∀ place, ¬ touched place → u.get? place = t.get? place

variable {new touched new' touched' : Place → Prop}

theorem Adds.refl (new : Place → Prop) (t : Tree) : t.Adds new t :=
  ⟨fun _ h => h, fun _ h => .inl h, fun h => h⟩

theorem Adds.trans (h : t.Adds new u) (h' : u.Adds new v) : t.Adds new v where
  directories := h.directories.trans h'.directories
  new_of_directory := by
    intro place hplace
    rcases h'.new_of_directory place hplace with hold | hnew
    · exact h.new_of_directory place hold
    · exact .inr hnew
  wellFormed := fun hwell => h'.wellFormed (h.wellFormed hwell)

theorem Adds.mono (h : t.Adds new u) (hnew : ∀ place, new place → new' place) : t.Adds new' u where
  directories := h.directories
  new_of_directory := fun place hplace => (h.new_of_directory place hplace).imp_right (hnew place)
  wellFormed := h.wellFormed

theorem Grows.refl (new touched : Place → Prop) (t : Tree) : t.Grows new touched t :=
  ⟨.refl new t, fun _ h => h, fun _ _ => rfl⟩

theorem Grows.trans (h : t.Grows new touched u) (h' : u.Grows new touched v) :
    t.Grows new touched v where
  toAdds := h.toAdds.trans h'.toAdds
  nodes := fun place hplace => h'.nodes place (h.nodes place hplace)
  same := fun place hplace => (h'.same place hplace).trans (h.same place hplace)

theorem Grows.mono (h : t.Grows new touched u) (hnew : ∀ place, new place → new' place)
    (htouched : ∀ place, touched place → touched' place) : t.Grows new' touched' u where
  toAdds := h.toAdds.mono hnew
  nodes := h.nodes
  same := fun place hplace => h.same place (mt (htouched place) hplace)

/-- A file is written where there is no directory. -/
theorem writeFile_eq_ok (h : t.writeFile directory p bytes = .ok u) :
    ∃ place, t.locate directory p = .ok place ∧ t.get? place ≠ some .directory ∧
      u = t.insert place (.file bytes) := by
  rw [writeFile, bind_eq_ok] at h
  obtain ⟨place, hplace, hwrite⟩ := h
  split at hwrite
  · cases hwrite
  · rename_i hdirectory
    cases hwrite
    exact ⟨place, hplace, mt isDirectory_iff.2 hdirectory, rfl⟩

/-- **Writing a file** changes nothing but the file that its path leads to. -/
theorem grows_writeFile (hleads : p.Leads) (h : t.writeFile directory p bytes = .ok u) :
    t.Grows (fun _ => False) (fun q => q = p.placeFrom directory) u := by
  obtain ⟨place, hplace, hdirectory, rfl⟩ := writeFile_eq_ok h
  rw [← locate_eq_placeFrom hplace]
  have hroot : place ≠ [] := by
    rintro rfl
    exact hdirectory rfl
  refine ⟨⟨keepsDirectories_insert ?_ bytes, fun q hq => .inl ?_, fun hwell => ?_⟩,
    fun q hq => ?_, fun q hq => get?_insert_of_ne hq⟩
  · rw [← Bool.not_eq_true, isDirectory_iff]
    exact hdirectory
  · by_cases hat : q = place
    · simp [hat, get?_insert_self hroot] at hq
    · rwa [get?_insert_of_ne hat] at hq
  · exact hwell.insert (hwell.get?_dropLast_of_locate hleads hplace) fun h => absurd h hdirectory
  · by_cases hat : q = place
    · simp [hat, get?_insert_self hroot]
    · rwa [get?_insert_of_ne hat]

/-- A directory is made where there is nothing, by a name of its own. -/
theorem makeDirectory_eq_ok (h : t.makeDirectory directory p = .ok u) :
    ∃ place, t.locate directory p = .ok place ∧ endsInName p = true ∧ t.get? place = none ∧
      u = t.insert place .directory := by
  rw [makeDirectory, bind_eq_ok] at h
  obtain ⟨place, hplace, hmake⟩ := h
  split at hmake
  · rename_i hfree
    cases hmake
    rw [Bool.and_eq_true, Option.isNone_iff_eq_none] at hfree
    exact ⟨place, hplace, hfree.1, hfree.2, rfl⟩
  · cases hmake

theorem names_ne_nil_of_endsInName (h : endsInName p = true) : p.names ≠ [] := by
  rw [endsInName, Bool.and_eq_true] at h
  simpa using h.1

theorem leads_of_endsInName (h : endsInName p = true) : p.Leads :=
  .inl (names_ne_nil_of_endsInName h)

/-- **Making a directory** changes nothing but that there is one where its path leads. -/
theorem grows_makeDirectory (h : t.makeDirectory directory p = .ok u) :
    t.Grows (fun q => q = p.placeFrom directory) (fun q => q = p.placeFrom directory) u := by
  obtain ⟨place, hplace, hname, hfree, rfl⟩ := makeDirectory_eq_ok h
  rw [← locate_eq_placeFrom hplace]
  have hroot : place ≠ [] := by
    rintro rfl
    simp at hfree
  refine ⟨⟨fun q hq => ?_, fun q hq => ?_, fun hwell => ?_⟩, fun q hq => ?_,
    fun q hq => get?_insert_of_ne hq⟩
  · have hne : q ≠ place := by
      rintro rfl
      simp [hfree] at hq
    rwa [get?_insert_of_ne hne]
  · by_cases hat : q = place
    · exact .inr hat
    · rw [get?_insert_of_ne hat] at hq
      exact .inl hq
  · exact hwell.insert (hwell.get?_dropLast_of_locate (leads_of_endsInName hname) hplace)
      fun _ => rfl
  · by_cases hat : q = place
    · simp [hat, get?_insert_self hroot]
    · rwa [get?_insert_of_ne hat]

/-! ## Removal -/

/-- Nothing is missing from a tree but one directory and what lies in it. -/
structure Loses (gone : Place) (t u : Tree) : Prop where
  directory_iff : t.WellFormed → ∀ place, place ≠ gone →
    (u.get? place = some .directory ↔ t.get? place = some .directory)
  same : ∀ place, ¬ gone <+: place → u.get? place = t.get? place
  wellFormed : t.WellFormed → u.WellFormed

variable {gone : Place}

theorem Loses.refl (gone : Place) (t : Tree) : t.Loses gone t :=
  ⟨fun _ _ _ => .rfl, fun _ _ => rfl, fun h => h⟩

theorem Loses.trans (h : t.Loses gone u) (h' : u.Loses gone v) : t.Loses gone v where
  directory_iff := fun hwell place hplace =>
    (h'.directory_iff (h.wellFormed hwell) place hplace).trans (h.directory_iff hwell place hplace)
  same := fun place hplace => (h'.same place hplace).trans (h.same place hplace)
  wellFormed := fun hwell => h'.wellFormed (h.wellFormed hwell)

/-- A directory that was new and is gone leaves no trace among the directories. -/
theorem Adds.of_loses (h : t.Adds (fun q => new q ∨ q = gone) u) (hloses : u.Loses gone v)
    (hwell : t.WellFormed) (hfree : t.get? gone = none) (hgone : v.get? gone = none) :
    t.Adds new v := by
  have huwell := h.wellFormed hwell
  refine ⟨fun place hplace => ?_, fun place hplace => ?_, fun _ => hloses.wellFormed huwell⟩
  · have hne : place ≠ gone := by
      rintro rfl
      simp [hfree] at hplace
    exact (hloses.directory_iff huwell place hne).2 (h.directories place hplace)
  · have hne : place ≠ gone := by
      rintro rfl
      simp [hgone] at hplace
    rcases h.new_of_directory place ((hloses.directory_iff huwell place hne).1 hplace) with
      hold | hnew | heq
    · exact .inl hold
    · exact .inr hnew
    · exact absurd heq hne

/-- A path that ends in a name does not lead to the root. -/
theorem ne_nil_of_endsInName (hname : endsInName p = true)
    (hplace : t.locate directory p = .ok place) : place ≠ [] := by
  rw [endsInName, Bool.and_eq_true] at hname
  rcases List.eq_nil_or_concat p.names with hnil | ⟨names, name, hnames⟩
  · simp [hnil] at hname
  · rw [List.concat_eq_append] at hnames
    have hup : name ≠ ".." := by
      intro hup
      simp [Path.name, hnames, hup] at hname
    obtain ⟨last, -, hnext⟩ := locate_concat hnames hplace
    simp [hnext, hup]

/-- A directory is removed that has no entries left, its files aside if they vanish with it. -/
theorem removeDirectory_eq_ok {vanish : Bool} (h : t.removeDirectory vanish directory p = .ok u) :
    ∃ place rest, t.locate directory p = .ok place ∧ endsInName p = true ∧
      (rest = t.eraseFiles place ∨ rest = t) ∧ rest.children place = [] ∧
      u = rest.erase place := by
  rw [removeDirectory, bind_eq_ok] at h
  obtain ⟨place, hplace, hremove⟩ := h
  split at hremove
  · cases hremove
  · cases hremove
  split at hremove
  · cases hremove
  rename_i hempty
  split at hremove
  · cases hremove
  rename_i hup
  dsimp only at hremove
  have hrest : (if vanish && !t.hasSubdirectory place then t.eraseFiles place else t) =
      t.eraseFiles place ∨ (if vanish && !t.hasSubdirectory place then t.eraseFiles place else t) =
        t := by
    split
    · exact .inl rfl
    · exact .inr rfl
  generalize (if vanish && !t.hasSubdirectory place then t.eraseFiles place else t) = rest
    at hremove hrest
  split at hremove
  · rename_i hchildren
    cases hremove
    exact ⟨place, rest, hplace, by simp [endsInName, hup, hempty], hrest,
      List.isEmpty_iff.1 hchildren, rfl⟩
  · cases hremove

/-- The files in a directory are not directories. -/
theorem get?_eraseFiles_of_directory (h : t.WellFormed) :
    (t.eraseFiles gone).get? place = some .directory ↔ t.get? place = some .directory := by
  by_cases hroot : place = []
  · simp [hroot]
  have hnodup : ((t.eraseFiles gone).entries.map Prod.fst).Nodup :=
    h.nodup.sublist (List.filter_sublist.map _)
  rw [h.get?_eq_some_iff hroot, get?, if_neg hroot, lookup_eq_some_iff_mem hnodup, eraseFiles,
    List.mem_filter]
  simp

/-- What is not in a directory is not one of its files. -/
theorem get?_eraseFiles_of_not_isPrefix (h : ¬ gone <+: place) :
    (t.eraseFiles gone).get? place = t.get? place := by
  by_cases hroot : place = []
  · simp [hroot]
  have hchild : isChild gone place = false := by
    rw [isChild, ← Bool.not_eq_true, Bool.and_eq_true, beq_iff_eq]
    rintro ⟨-, rfl⟩
    exact h (List.dropLast_prefix place)
  rw [get?, get?, if_neg hroot, if_neg hroot, eraseFiles]
  apply lookup_filter_of_forall
  intro node _
  simp [hchild]

/-- A directory that nothing lies in can be taken out of a well-formed tree. -/
theorem WellFormed.erase (h : t.WellFormed) (hchildren : t.children gone = []) :
    (t.erase gone).WellFormed := by
  constructor
  · exact h.nodup.sublist (List.filter_sublist.map _)
  · intro entry hentry
    have hold := (List.mem_filter.1 hentry).1
    have hne : entry.1 = [] ∨ entry.1.dropLast ≠ gone := by
      by_contra hcon
      rw [not_or, not_not] at hcon
      have hmem : entry ∈ t.children gone :=
        List.mem_filter.2 ⟨hold, by simp [isChild, hcon.1, hcon.2]⟩
      simp [hchildren] at hmem
    rcases hne with hroot | hne
    · simp [hroot]
    · rw [get?_erase_of_ne hne]
      exact h.inDirectory entry hold

theorem WellFormed.eraseFiles (h : t.WellFormed) (gone : Place) :
    (t.eraseFiles gone).WellFormed where
  nodup := h.nodup.sublist (List.filter_sublist.map _)
  inDirectory := fun entry hentry =>
    (get?_eraseFiles_of_directory h).2 (h.inDirectory entry (List.mem_filter.1 hentry).1)

/-- **The removal of a directory** takes away that directory, and nothing else but what lies in
it. -/
theorem loses_removeDirectory {vanish : Bool}
    (h : t.removeDirectory vanish directory p = .ok u) :
    t.Loses (p.placeFrom directory) u ∧ u.get? (p.placeFrom directory) = none := by
  obtain ⟨place, rest, hplace, hname, hrest, hchildren, rfl⟩ := removeDirectory_eq_ok h
  rw [← locate_eq_placeFrom hplace]
  have hroot := ne_nil_of_endsInName hname hplace
  refine ⟨⟨fun hwell q hq => ?_, fun q hq => ?_, fun hwell => ?_⟩, ?_⟩
  · rw [get?_erase_of_ne hq]
    rcases hrest with rfl | rfl
    · exact get?_eraseFiles_of_directory hwell
    · rfl
  · have hne : q ≠ place := by
      rintro rfl
      exact hq (List.prefix_refl q)
    rw [get?_erase_of_ne hne]
    rcases hrest with rfl | rfl
    · exact get?_eraseFiles_of_not_isPrefix hq
    · rfl
  · rcases hrest with rfl | rfl
    · exact (hwell.eraseFiles place).erase hchildren
    · exact hwell.erase hchildren
  · rw [get?_erase, if_neg hroot, if_pos rfl]

/-- **A directory without directories in it can be removed**, if its files vanish with it. -/
theorem exists_removeDirectory (hwell : t.WellFormed)
    (hplace : t.locate directory p = .ok place) (hname : endsInName p = true)
    (hdirectory : t.get? place = some .directory)
    (hbelow : ∀ q, Place.IsBelow q place → t.get? q ≠ some .directory) :
    ∃ u, t.removeDirectory true directory p = .ok u := by
  have hfiles : ∀ entry ∈ t.entries, isChild place entry.1 = true → entry.2 ≠ .directory := by
    intro entry hentry hchild hnode
    rw [isChild, Bool.and_eq_true, beq_iff_eq, decide_eq_true_eq] at hchild
    refine hbelow entry.1 ⟨?_, ?_⟩ ?_
    · rw [← hchild.2]
      exact List.dropLast_prefix entry.1
    · intro heq
      have hlength := congrArg List.length hchild.2
      rw [List.length_dropLast, heq] at hlength
      have := List.length_pos_iff.2 hchild.1
      rw [heq] at this
      omega
    · rw [hwell.get?_eq_some_iff hchild.1, ← hnode]
      exact hentry
  have hsub : t.hasSubdirectory place = false := by
    rw [hasSubdirectory, ← Bool.not_eq_true, List.any_eq_true]
    rintro ⟨entry, hentry, hnode⟩
    obtain ⟨hmem, hchild⟩ := List.mem_filter.1 hentry
    exact hfiles entry hmem hchild (by simpa using hnode)
  have hchildren : (t.eraseFiles place).children place = [] := by
    rw [children, List.filter_eq_nil_iff]
    intro entry hentry hchild
    obtain ⟨hmem, hkept⟩ := List.mem_filter.1 hentry
    have hnode := hfiles entry hmem hchild
    simp [hchild, hnode] at hkept
  rw [endsInName, Bool.and_eq_true] at hname
  have hempty : p.names.isEmpty = false := by simpa using hname.1
  have hup : p.name ≠ ".." := by simpa using hname.2
  refine ⟨(t.eraseFiles place).erase place, ?_⟩
  rw [removeDirectory, hplace]
  simp [bind, Except.bind, hdirectory, hempty, hup, hsub, hchildren, pure, Except.pure]

end Tree

end MemoryLimit
