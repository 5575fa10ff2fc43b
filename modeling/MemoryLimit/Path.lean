/-!
# Paths

A path is kept in the form in which it is shown: repeated slashes and single dots are dropped when it
is read, double dots are kept, and exactly two leading slashes are kept as two.

## Main definitions

* `Path.IsName` — what stands between the slashes: not empty, no single dot, and without slashes.
* `IsFileName` — the names of files, which are no steps upwards.
* `Path` — the leading slashes and the names between the slashes.
* `Path.namesIn` — the names between the slashes of a text.
* `Path.read`, `Path.text` — reading and showing a path.
* `Path.join`, `Path.child` — a path below another one.
* `Path.isWithin` — whether a path is another one or lies below it, by its names alone.
-/
namespace MemoryLimit

/-- A name that a path can have. -/
structure Path.IsName (name : String) : Prop where
  ne_empty : name ≠ ""
  ne_dot : name ≠ "."
  no_slash : '/' ∉ name.toList

instance (name : String) : Decidable (Path.IsName name) :=
  decidable_of_iff (name ≠ "" ∧ name ≠ "." ∧ '/' ∉ name.toList)
    ⟨fun h => ⟨h.1, h.2.1, h.2.2⟩, fun h => ⟨h.ne_empty, h.ne_dot, h.no_slash⟩⟩

/-- A name that a file can have: one that is no step upwards. -/
structure IsFileName (name : String) : Prop extends Path.IsName name where
  ne_up : name ≠ ".."

instance (name : String) : Decidable (IsFileName name) :=
  decidable_of_iff (Path.IsName name ∧ name ≠ "..")
    ⟨fun h => ⟨h.1, h.2⟩, fun h => ⟨h.toIsName, h.ne_up⟩⟩

/-- A path: how many slashes it begins with, and its names. -/
@[ext]
structure Path where
  slashes : Nat
  names : List String
  slashes_le : slashes ≤ 2
  isName : ∀ name ∈ names, Path.IsName name
deriving DecidableEq, Repr

namespace Path

/-- The path without names, which leads nowhere else. -/
def empty : Path where
  slashes := 0
  names := []
  slashes_le := by decide
  isName := by simp

instance : Inhabited Path := ⟨empty⟩

/-! ## Reading -/

/-- The pieces of a text between the occurrences of a character; `piece` is the one under
construction, reversed. -/
def splitFrom (mark : Char) : List Char → List Char → List (List Char)
  | [], piece => [piece.reverse]
  | c :: rest, piece =>
    if c = mark then piece.reverse :: splitFrom mark rest [] else splitFrom mark rest (c :: piece)

/-- No piece has the mark in it. -/
theorem not_mem_of_mem_splitFrom {mark : Char} {s piece x : List Char} (hpiece : mark ∉ piece)
    (hx : x ∈ splitFrom mark s piece) : mark ∉ x := by
  induction s generalizing piece with
  | nil =>
    rw [splitFrom, List.mem_singleton] at hx
    simp [hx, hpiece]
  | cons c s ih =>
    rw [splitFrom] at hx
    by_cases hc : c = mark
    · rw [if_pos hc] at hx
      rcases List.mem_cons.1 hx with rfl | hrest
      · simp [hpiece]
      · exact ih (by simp) hrest
    · rw [if_neg hc] at hx
      apply ih _ hx
      simp [Ne.symm hc, hpiece]

/-- The names between the slashes of a text. -/
def namesIn (s : List Char) : List String :=
  ((splitFrom '/' s []).map String.ofList).filter fun piece => piece ≠ "" && piece ≠ "."

theorem isName_of_mem_namesIn {name : String} {s : List Char} (h : name ∈ namesIn s) :
    IsName name := by
  rw [namesIn, List.mem_filter, Bool.and_eq_true, decide_eq_true_eq, decide_eq_true_eq] at h
  obtain ⟨hmem, hempty, hdot⟩ := h
  obtain ⟨x, hx, rfl⟩ := List.mem_map.1 hmem
  refine ⟨hempty, hdot, ?_⟩
  rw [String.toList_ofList]
  exact not_mem_of_mem_splitFrom (by simp) hx

/-- The number of leading slashes that count. -/
def leadingSlashes : List Char → Nat
  | '/' :: '/' :: '/' :: _ => 1
  | '/' :: '/' :: _ => 2
  | '/' :: _ => 1
  | _ => 0

theorem leadingSlashes_le (s : List Char) : leadingSlashes s ≤ 2 := by
  unfold leadingSlashes
  split <;> omega

/-- The path that a text denotes. -/
def read (text : String) : Path where
  slashes := leadingSlashes text.toList
  names := namesIn text.toList
  slashes_le := leadingSlashes_le _
  isName := fun _ => isName_of_mem_namesIn

/-! ## Parts of paths -/

/-- The text of a path; the empty path is a dot. -/
def text (p : Path) : String :=
  let names := String.intercalate "/" p.names
  if p.slashes = 0 && p.names.isEmpty then "."
  else String.ofList (List.replicate p.slashes '/') ++ names

/-- Whether the path begins at the root. -/
def isAbsolute (p : Path) : Bool :=
  p.slashes ≠ 0

/-- The last name, or nothing. -/
def name (p : Path) : String :=
  p.names.getLast?.getD ""

/-- The path without its last name. -/
def parent (p : Path) : Path :=
  { p with
    names := p.names.dropLast
    isName := fun name hname => p.isName name (List.dropLast_subset _ hname) }

/-- The second path taken from the first; an absolute one stays as it is. -/
def join (p q : Path) : Path :=
  if q.isAbsolute then q
  else
    { p with
      names := p.names ++ q.names
      isName := fun name hname => (List.mem_append.1 hname).elim (p.isName name) (q.isName name) }

/-- The path that a text denotes, taken from a path. -/
def child (p : Path) (text : String) : Path :=
  p.join (read text)

/-- Whether the path is another one or lies below it, by its names alone. -/
def isWithin (p root : Path) : Bool :=
  p.slashes == root.slashes && root.names.isPrefixOf p.names

/-- A name appended to a path as text: after a slash, unless the name itself is absolute. -/
def appendName (p : Path) (name : String) : String :=
  if name.toList.head? = some '/' then name
  else
    let base := p.text
    if base.toList.getLast? = some '/' then base ++ name else base ++ "/" ++ name

end Path

end MemoryLimit
