import MemoryLimit.Instances
import MemoryLimit.Path

/-!
# File trees

A tree of files and directories, seen as a finite map from places to nodes. The root is always a
directory.

## Main definitions

* `Place` — the names from the root to a node.
* `RealPlace` — a place whose names are names of files.
* `Node` — a file with its bytes, or a directory.
* `Tree` — the nodes by place, with `get?`, `insert` and `erase`.

## Main statements

* `Tree.get?_insert`, `Tree.get?_erase` — what is at each place after a change.
-/
namespace MemoryLimit

open Instances

/-- The names from the root to a node. -/
abbrev Place := List String

/-- A place whose names are names of files. -/
structure RealPlace where
  names : Place
  isFileName : ∀ name ∈ names, IsFileName name

namespace RealPlace

/-- The root. -/
def root : RealPlace :=
  ⟨[], fun _ h => nomatch h⟩

instance : Inhabited RealPlace := ⟨root⟩

instance : Coe RealPlace Place := ⟨names⟩

/-- The place directly below another one. -/
def child (place : RealPlace) (name : String) (h : IsFileName name) : RealPlace where
  names := place.names ++ [name]
  isFileName := by
    intro other hother
    rcases List.mem_append.1 hother with hold | hnew
    · exact place.isFileName other hold
    · exact List.mem_singleton.1 hnew ▸ h

/-- The place directly above another one; the root is above itself. -/
def parent (place : RealPlace) : RealPlace where
  names := place.names.dropLast
  isFileName := fun name hname => place.isFileName name (List.dropLast_subset _ hname)

/-- The place that names lead to, step by step. -/
def follow (place : RealPlace) (names : List String) (h : ∀ name ∈ names, Path.IsName name) :
    RealPlace :=
  match names with
  | [] => place
  | name :: rest =>
    have hrest := fun other hother => h other (List.mem_cons_of_mem _ hother)
    if hup : name = ".." then place.parent.follow rest hrest
    else (place.child name ⟨h name List.mem_cons_self, hup⟩).follow rest hrest

end RealPlace

/-- A file with its bytes, or a directory. -/
inductive Node where
  | file (bytes : ByteArray)
  | directory
deriving DecidableEq, Inhabited

/-- The nodes of a file system, by place. -/
structure Tree where
  entries : List (Place × Node) := []
deriving Inhabited

namespace Tree

/-- The node at a place. -/
def get? (t : Tree) (place : Place) : Option Node :=
  if place = [] then some .directory else t.entries.lookup place

/-- Puts a node at a place. -/
def insert (t : Tree) (place : Place) (node : Node) : Tree :=
  ⟨(place, node) :: t.entries.filter (·.1 ≠ place)⟩

/-- Removes the node at a place. -/
def erase (t : Tree) (place : Place) : Tree :=
  ⟨t.entries.filter (·.1 ≠ place)⟩

/-- Whether there is a directory at a place. -/
def isDirectory (t : Tree) (place : Place) : Bool :=
  t.get? place == some .directory

/-- Whether a place is directly below another one. -/
def isChild (parent place : Place) : Bool :=
  place ≠ [] && place.dropLast == parent

/-- The entries directly below a place. -/
def children (t : Tree) (parent : Place) : List (Place × Node) :=
  t.entries.filter fun entry => isChild parent entry.1

/-- Whether a directory has a directory in it. -/
def hasSubdirectory (t : Tree) (parent : Place) : Bool :=
  (t.children parent).any (·.2 == .directory)

/-- Removes the files directly below a place. -/
def eraseFiles (t : Tree) (parent : Place) : Tree :=
  ⟨t.entries.filter fun entry => !(isChild parent entry.1 && entry.2 != .directory)⟩

/-- Puts a directory at a place where there is nothing yet. -/
def ensureDirectory (t : Tree) (place : Place) : Tree :=
  if (t.get? place).isNone then t.insert place .directory else t

/-- Puts directories at a place and at all places above it, where there is nothing yet. -/
def ensureDirectories (t : Tree) (place : Place) : Tree :=
  (List.range (place.length + 1)).foldl (fun tree n => tree.ensureDirectory (place.take n)) t

/-- Puts a node at a place, and directories above it. -/
def plant (t : Tree) (place : Place) (node : Node) : Tree :=
  (t.ensureDirectories place.dropLast).insert place node

/-! ## What is at a place after a change -/

/-- Dropping the entries of one place leaves every other place as it was. -/
theorem lookup_filter_ne {β : Type} {p q : Place} (h : q ≠ p) (l : List (Place × β)) :
    (l.filter (·.1 ≠ p)).lookup q = l.lookup q := by
  induction l with
  | nil => rfl
  | cons e rest ih =>
    obtain ⟨a, node⟩ := e
    by_cases ha : a = p
    · have hq : (q == p) = false := beq_eq_false_iff_ne.2 h
      simpa [List.filter_cons, List.lookup_cons, ha, hq] using ih
    · simp only [List.filter_cons, List.lookup_cons, ha, ne_eq, not_false_eq_true, decide_true,
        if_true, ih]

/-- Nothing is found for a place whose entries were dropped. -/
theorem lookup_filter_self {β : Type} (p : Place) (l : List (Place × β)) :
    (l.filter (·.1 ≠ p)).lookup p = none := by
  simp only [List.lookup_eq_none_iff, List.mem_filter]
  intro e he
  have h : e.1 ≠ p := by simpa using he.2
  exact bne_iff_ne.2 h.symm

/-- After an insertion the place holds the new node, the root aside, which is always a directory. -/
theorem get?_insert (t : Tree) (p q : Place) (node : Node) :
    (t.insert p node).get? q =
      if q = [] then some .directory else if q = p then some node else t.get? q := by
  by_cases h0 : q = []
  · simp [get?, h0]
  · by_cases h : q = p
    · simp [get?, insert, h]
    · have hq : (q == p) = false := beq_eq_false_iff_ne.2 h
      simp only [get?, insert, h0, h, if_false, List.lookup_cons, hq, lookup_filter_ne h]

/-- After a removal nothing is at the place, the root aside. -/
theorem get?_erase (t : Tree) (p q : Place) :
    (t.erase p).get? q = if q = [] then some .directory else if q = p then none else t.get? q := by
  by_cases h0 : q = []
  · simp [get?, h0]
  · by_cases h : q = p
    · subst h
      simp only [get?, erase, h0, if_false, if_true, lookup_filter_self]
    · simp only [get?, erase, h0, h, if_false, lookup_filter_ne h]

end Tree

end MemoryLimit
