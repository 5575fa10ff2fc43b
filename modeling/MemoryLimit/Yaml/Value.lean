import MemoryLimit.Json.Value
import MemoryLimit.Text.Base64
import MemoryLimit.Yaml.Node
import MemoryLimit.Yaml.Number

/-!
# The value of a document

## Main definitions

* `Value` — a value.
* `Value.member?` — the value that a mapping has for a text.
* `Attempt` — a value, or a fault with its depth in the document.
* `Value.ofNode` — the value of a node.
* `Value.ofJson` — a JSON value as the value of a document.
* `readDocument` — the value of a document, if it has one.
-/
namespace MemoryLimit.Yaml

/-- A value. -/
inductive Value where
  | null
  | bool (value : Bool)
  | integer (value : Int)
  | float (value : Binary64)
  | text (value : String)
  | bytes (value : List UInt8)
  | moment (value : Moment)
  | sequence (items : List Value)
  | mapping (entries : List (Value × Value))
  | set (members : List Value)
deriving Repr, Inhabited

namespace Value

/-- Whether a value may be the key of a mapping. Values with parts may not. -/
def isKey : Value → Bool
  | sequence _ | mapping _ | set _ => false
  | _ => true

/-- The integer that a value is equal to, if there is one. True and false count as one and zero. -/
def whole? : Value → Option Int
  | bool b => some (if b then 1 else 0)
  | integer i => some i
  | float x => if x.isIntegral then x.truncate? else none
  | _ => none

/-- Whether two values are the same key. -/
def isSameKey : Value → Value → Bool
  | null, null => true
  | text s, text t => s = t
  | bytes s, bytes t => s = t
  | moment m, moment n => m = n
  | v, w =>
    match v.whole?, w.whole? with
    | some i, some j => i = j
    | none, none =>
      match v, w with
      | float x, float y => x = y && x ≠ .nan
      | _, _ => false
    | _, _ => false

/-- Keys without those that occur before. -/
def distinctKeys : List Value → List Value
  | [] => []
  | key :: rest => key :: (distinctKeys rest).filter (!isSameKey key ·)

/-- The keys of entries, each once. -/
def keysOf (entries : List (Value × Value)) : List Value :=
  distinctKeys (entries.map (·.1))

/-- The text of a value that is one. -/
def text? : Value → Option String
  | text s => some s
  | _ => none

/-- The value that a mapping has for a text; of several, the last. -/
def member? (name : String) : Value → Option Value
  | mapping entries => (entries.reverse.find? fun entry => entry.1.text? = some name).map (·.2)
  | _ => none

/-- The word for true or false. -/
def ofTruthWord (s : String) : Except Fault Value :=
  let word := String.ofList (s.toList.map Char.toLower)
  if word = "yes" || word = "true" || word = "on" then .ok (bool true)
  else if word = "no" || word = "false" || word = "off" then .ok (bool false)
  else .error (.truthWord word)

/-- The value of a date. -/
def ofMoment (s : String) : Except Fault Value :=
  match Moment.read? s with
  | none => .error .noMoment
  | some m =>
    match m.fault? with
    | some fault => .error (.calendar fault)
    | none => .ok (moment m)

/-- The bytes that a text stands for. It has no characters beyond ASCII. -/
def ofBase64 (s : String) : Except Fault Value :=
  match s.toList.all (·.toNat < 128), Text.decodeBase64? s.toList with
  | true, some octets => .ok (bytes octets)
  | _, _ => .error .malformed

/-- The value of a scalar. -/
def ofScalar (tag s : String) : Except Fault Value :=
  if tag = Tag.text then .ok (text s)
  else if tag = Tag.integer then integer <$> readNumber s
  else if tag = Tag.float then float <$> readFraction s
  else if tag = Tag.bool then ofTruthWord s
  else if tag = Tag.null then .ok null
  else if tag = Tag.moment then ofMoment s
  else if tag = Tag.binary then ofBase64 s
  else .error .malformed

/-- The text of a node that stands for a scalar: a scalar, or a mapping with a key that says what its
value is. -/
def scalarText : Node → Except Fault String
  | .scalar _ s => .ok s
  | .sequence .. => .error .malformed
  | .mapping _ pairs => ofPairs pairs
where
  /-- The text of the pair whose key says so. -/
  ofPairs : List (Node × Node) → Except Fault String
    | [] => .error .malformed
    | (.scalar tag _, value) :: rest => if tag = Tag.value then scalarText value else ofPairs rest
    | (.sequence tag _, value) :: rest => if tag = Tag.value then scalarText value else ofPairs rest
    | (.mapping tag _, value) :: rest => if tag = Tag.value then scalarText value else ofPairs rest

end Value

/-! ## Values of nodes

The values inside a collection are made after all values beside it. So of several faults the one with
the fewest collections around it counts, and of these the first one. -/

/-- A value, or a fault with the number of collections around it. -/
abbrev Attempt (α : Type) := Except (Nat × Fault) α

namespace Attempt

variable {α β : Type}

/-- A fault with no collection around it. -/
def fail (fault : Fault) : Attempt α :=
  .error (0, fault)

/-- A value, or a fault with no collection around it. -/
def ofExcept (outcome : Except Fault α) : Attempt α :=
  outcome.mapError (0, ·)

/-- Puts a collection around a value. -/
def inside (a : Attempt α) : Attempt α :=
  a.mapError fun (depth, fault) => (depth + 1, fault)

/-- Two values made beside each other. -/
def both (a : Attempt α) (b : Attempt β) : Attempt (α × β) :=
  match a, b with
  | .ok x, .ok y => .ok (x, y)
  | .error f, .ok _ => .error f
  | .ok _, .error g => .error g
  | .error f, .error g => .error (if f.1 ≤ g.1 then f else g)

/-- A value before others. -/
def before (a : Attempt α) (rest : Attempt (List α)) : Attempt (List α) :=
  (fun (x, xs) => x :: xs) <$> both a rest

/-- Values before others. -/
def append (a b : Attempt (List α)) : Attempt (List α) :=
  (fun (xs, ys) => xs ++ ys) <$> both a b

end Attempt

namespace Value

/-- The entries of a mapping: whether all that is merged into it are mappings, the entries of these, and
its own. -/
structure Entries where
  mergeable : Bool := true
  merged : Attempt (List (Value × Value)) := .ok []
  own : Attempt (List (Value × Value)) := .ok []

/-- All entries, those that are merged first. -/
def Entries.all (e : Entries) : Attempt (List (Value × Value)) :=
  if e.mergeable then e.merged.append e.own else .fail .malformed

/-- The value of a node as a key. A fault inside a collection does not count, because a collection may
not be a key. -/
def asKey : Attempt Value → Attempt Value
  | .ok key => if key.isKey then .ok key else .fail .malformed
  | .error (0, fault) => .fail fault
  | .error _ => .fail .malformed

/-- The value of a key with the tag of keys that stand for their mapping, which is a text where the mapping
is one. -/
def ofValueKey : Node → Attempt Value
  | .scalar _ s => .ok (text s)
  | _ => .fail .malformed

/-- Whether values with a tag are collections. -/
def isCollectionTag (tag : String) : Bool :=
  [Tag.sequence, Tag.ordered, Tag.pairs, Tag.mapping, Tag.set].contains tag

/-- The fault of a collection that does not fit its tag. -/
def misfit (tag : String) : Attempt Value :=
  if isCollectionTag tag then .inside (.fail .malformed) else .fail .malformed

mutual
/-- The value of a node. -/
def ofNode : Node → Attempt Value
  | .scalar tag s =>
    if isCollectionTag tag then misfit tag else .ofExcept (ofScalar tag s)
  | .sequence tag items =>
    if tag = Tag.sequence then sequence <$> .inside (ofItems items)
    else if tag = Tag.ordered || tag = Tag.pairs then sequence <$> .inside (ofSinglePairs items)
    else misfit tag
  | .mapping tag pairs =>
    if tag = Tag.mapping then mapping <$> .inside (ofPairs pairs).all
    else if tag = Tag.set then (set ∘ keysOf) <$> .inside (ofPairs pairs).all
    else if isCollectionTag tag then misfit tag
    else .ofExcept do ofScalar tag (← scalarText.ofPairs pairs)

/-- The values of the items of a sequence. -/
def ofItems : List Node → Attempt (List Value)
  | [] => .ok []
  | item :: rest => (ofNode item).before (ofItems rest)

/-- The values of items that are mappings of one pair each; a pair is a sequence of two. -/
def ofSinglePairs : List Node → Attempt (List Value)
  | [] => .ok []
  | .mapping _ [(key, value)] :: rest =>
    let pair := (fun (k, v) => sequence [k, v]) <$> (ofNode key).both (ofNode value)
    pair.before (ofSinglePairs rest)
  | _ => .fail .malformed

/-- The entries of a mapping. -/
def ofPairs : List (Node × Node) → Entries
  | [] => {}
  | (key, value) :: rest =>
    let later := ofPairs rest
    if key.tag = Tag.merge then
      let (mergeable, entries) := ofMerged value
      { later with
        mergeable := mergeable && later.mergeable
        merged := entries.append later.merged }
    else
      let name := if key.tag = Tag.value then ofValueKey key else asKey (ofNode key)
      { later with own := (name.both (ofNode value)).before later.own }

/-- The entries that are merged into a mapping, and whether they can be: those of a mapping, or of a
sequence of mappings, of which the first one counts most. -/
def ofMerged : Node → Bool × Attempt (List (Value × Value))
  | .mapping _ pairs =>
    let entries := ofPairs pairs
    (entries.mergeable, entries.merged.append entries.own)
  | .sequence _ items => ofMergedItems items
  | .scalar .. => (false, .ok [])

/-- The entries of mappings, those of the last one first, and whether all are mappings. -/
def ofMergedItems : List Node → Bool × Attempt (List (Value × Value))
  | [] => (true, .ok [])
  | .mapping _ pairs :: rest =>
    let entries := ofPairs pairs
    let (mergeable, later) := ofMergedItems rest
    (entries.mergeable && mergeable, later.append (entries.merged.append entries.own))
  | _ => (false, .ok [])
end

mutual
/-- A JSON value as the value of a document. -/
def ofJson : Json → Value
  | .null => null
  | .bool b => bool b
  | .integer i => integer i
  | .float x => float x
  | .string s => text s.string
  | .array items => sequence (ofJsonItems items)
  | .object members => mapping (ofJsonMembers members)

/-- The items of a JSON array. -/
def ofJsonItems : List Json → List Value
  | [] => []
  | item :: rest => ofJson item :: ofJsonItems rest

/-- The members of a JSON object. -/
def ofJsonMembers : List (String × Json) → List (Value × Value)
  | [] => []
  | (name, value) :: rest => (text name, ofJson value) :: ofJsonMembers rest
end

end Value

/-- The value of a document, if it has one. -/
def readDocument (document : String) : Except Fault (Option Value) := do
  match ← Node.ofTokens? (← tokens document) with
  | some node => some <$> (Value.ofNode node).mapError (·.2)
  | none => return none

end MemoryLimit.Yaml
