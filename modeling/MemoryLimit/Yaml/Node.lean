import MemoryLimit.Yaml.Lexer
import MemoryLimit.Yaml.Schema

/-!
# The nodes of a document

A document is a tree of scalars, sequences and mappings, each with a tag. An alias stands for the node
with its anchor. Where an alias stands inside the node that it refers to, that node is taken without
its contents, because the tree would have no end.

## Main definitions

* `Node` — a node.
* `Composer` — the tokens that are left, the anchors and the handles of tags that are known.
* `Node.ofTokens?` — the node of a document, if the document has one.
-/
namespace MemoryLimit.Yaml

/-- A node of a document. -/
inductive Node where
  | scalar (tag text : String)
  | sequence (tag : String) (items : List Node)
  | mapping (tag : String) (pairs : List (Node × Node))
deriving Repr, Inhabited

/-- The tag of a node. -/
def Node.tag : Node → String
  | scalar tag _ => tag
  | sequence tag _ => tag
  | mapping tag _ => tag

/-- What is known at a place among the tokens. -/
structure Composer where
  tokens : List Token
  anchors : List (String × Node) := []
  handles : List (String × String) := []

/-- The handles of tags that are always known. -/
def standardHandles : List (String × String) :=
  [("!", "!"), ("!!", Tag.space)]

/-- A step of composing nodes. -/
abbrev Compose := StateT Composer (Except Fault)

namespace Composer

/-- A document that is not well formed. -/
def fail {α : Type} : Compose α :=
  throw .malformed

/-- The next token. -/
def peek : Compose (Option Token) := do
  return (← get).tokens.head?

/-- Passes a token. -/
def advance : Compose Unit :=
  modify fun s => { s with tokens := s.tokens.tail }

/-- Passes a token if it is the given one, and says whether it was. -/
def accept (token : Token) : Compose Bool := do
  if (← peek) == some token then
    advance
    return true
  else return false

/-- Whether one of some tokens is next. -/
def nextIsOneOf (tokens : List Token) : Compose Bool := do
  return (← peek).any tokens.contains

/-- Gives a node to an anchor. -/
def bind (anchor : Option String) (node : Node) : Compose Unit :=
  match anchor with
  | some name => modify fun s => { s with anchors := (name, node) :: s.anchors }
  | none => pure ()

/-- The node that an alias stands for. -/
def resolve (name : String) : Compose Node := do
  match (← get).anchors.lookup name with
  | some node => return node
  | none => fail

/-- An anchor, if one is next. No two nodes have the same one. -/
def takeAnchor : Compose (Option String) := do
  match ← peek with
  | some (.anchor name) =>
    if ((← get).anchors.lookup name).isSome then fail
    advance
    return some name
  | _ => return none

/-- A tag, if one is next. Its handle must be known. -/
def takeTag : Compose (Option String) := do
  match ← peek with
  | some (.tag none text) =>
    advance
    return some text
  | some (.tag (some handle) text) =>
    match (← get).handles.lookup handle with
    | some meaning =>
      advance
      return some (meaning ++ text)
    | none => fail
  | _ => return none

/-- An anchor and a tag in any order, as far as they are there. -/
def takeProperties : Compose (Option String × Option String) := do
  match ← takeTag with
  | some tag => return (← takeAnchor, some tag)
  | none =>
    let anchor ← takeAnchor
    return (anchor, ← if anchor.isSome then takeTag else pure none)

/-- The tag of a node, which is the usual one if none is specified. -/
def tagOr (usual : String) : Option String → String
  | some tag => if tag = Tag.unspecified then usual else tag
  | none => usual

/-- The node of a missing scalar. -/
def missing : Node :=
  .scalar Tag.null ""

/-- The tag of a scalar. Its form decides if it is plain and has no tag, or has the tag that says so. -/
def scalarTag (tag : Option String) (text : String) (plain : Bool) : String :=
  match tag with
  | some tag => if tag = Tag.unspecified then plainTag text else tag
  | none => if plain then plainTag text else Tag.text

/-- A missing scalar, which needs an anchor or a tag. -/
def absent (anchor tag : Option String) : Compose Node := do
  if anchor.isNone && tag.isNone then fail
  else
    let result := Node.scalar (scalarTag tag "" true) ""
    bind anchor result
    return result

/-- A sequence with the given items. -/
def sequenceOf (anchor tag : Option String) (items : Compose (List Node)) : Compose Node := do
  let tag := tagOr Tag.sequence tag
  bind anchor (.sequence tag [])
  let result := Node.sequence tag (← items)
  bind anchor result
  return result

/-- A mapping with the given pairs. -/
def mappingOf (anchor tag : Option String) (pairs : Compose (List (Node × Node))) :
    Compose Node := do
  let tag := tagOr Tag.mapping tag
  bind anchor (.mapping tag [])
  let result := Node.mapping tag (← pairs)
  bind anchor result
  return result

mutual
/-- A node. Block collections may begin only if `block` is set, and sequences without an indentation of
their own only if `indentless` is. -/
def node (block indentless : Bool) : Nat → Compose Node
  | 0 => fail
  | fuel + 1 => do
    match ← peek with
    | some (.alias name) =>
      advance
      resolve name
    | _ =>
      let (anchor, tag) ← takeProperties
      match ← peek with
      | some (.scalar text plain) =>
        advance
        let result := Node.scalar (scalarTag tag text plain) text
        bind anchor result
        return result
      | some .blockEntry =>
        if indentless then
          sequenceOf anchor tag (indentlessItems fuel)
        else absent anchor tag
      | some .blockSequenceStart =>
        if block then
          advance
          sequenceOf anchor tag (blockItems fuel)
        else absent anchor tag
      | some .blockMappingStart =>
        if block then
          advance
          mappingOf anchor tag (blockPairs fuel)
        else absent anchor tag
      | some .flowSequenceStart =>
        advance
        sequenceOf anchor tag (flowItems true fuel)
      | some .flowMappingStart =>
        advance
        mappingOf anchor tag (flowPairs true fuel)
      | _ => absent anchor tag

/-- A node, unless one of some tokens is next. -/
def nodeUnless (stops : List Token) (block indentless : Bool) : Nat → Compose Node
  | 0 => fail
  | fuel + 1 => do
    if ← nextIsOneOf stops then return missing else node block indentless fuel

/-- A value behind its colon, which is missing without one. -/
def valueUnless (stops : List Token) (block : Bool) : Nat → Compose Node
  | 0 => fail
  | fuel + 1 => do
    if ← accept .value then nodeUnless stops block block fuel else return missing

/-- The items of a block sequence, and its end. -/
def blockItems : Nat → Compose (List Node)
  | 0 => fail
  | fuel + 1 => do
    if ← accept .blockEntry then
      let item ← nodeUnless [.blockEntry, .blockEnd] true false fuel
      return item :: (← blockItems fuel)
    else if ← accept .blockEnd then return []
    else fail

/-- The items of a sequence that has no indentation of its own. -/
def indentlessItems : Nat → Compose (List Node)
  | 0 => fail
  | fuel + 1 => do
    if ← accept .blockEntry then
      let item ← nodeUnless [.blockEntry, .key, .value, .blockEnd] true false fuel
      return item :: (← indentlessItems fuel)
    else return []

/-- The pairs of a block mapping, and its end. -/
def blockPairs : Nat → Compose (List (Node × Node))
  | 0 => fail
  | fuel + 1 => do
    if ← accept .key then
      let key ← nodeUnless [.key, .value, .blockEnd] true true fuel
      let value ← valueUnless [.key, .value, .blockEnd] true fuel
      return (key, value) :: (← blockPairs fuel)
    else if ← accept .blockEnd then return []
    else fail

/-- The items of a flow sequence, and its end. An item may be a mapping of one pair without braces. -/
def flowItems (first : Bool) : Nat → Compose (List Node)
  | 0 => fail
  | fuel + 1 => do
    if ← accept .flowSequenceEnd then return []
    if !first then
      if !(← accept .flowEntry) then fail
    if ← accept .key then
      let key ← nodeUnless [.value, .flowEntry, .flowSequenceEnd] false false fuel
      let value ← valueUnless [.flowEntry, .flowSequenceEnd] false fuel
      return .mapping Tag.mapping [(key, value)] :: (← flowItems false fuel)
    else if ← accept .flowSequenceEnd then return []
    else
      let item ← node false false fuel
      return item :: (← flowItems false fuel)

/-- The pairs of a flow mapping, and its end. -/
def flowPairs (first : Bool) : Nat → Compose (List (Node × Node))
  | 0 => fail
  | fuel + 1 => do
    if ← accept .flowMappingEnd then return []
    if !first then
      if !(← accept .flowEntry) then fail
    if ← accept .key then
      let key ← nodeUnless [.value, .flowEntry, .flowMappingEnd] false false fuel
      let value ← valueUnless [.flowEntry, .flowMappingEnd] false fuel
      return (key, value) :: (← flowPairs false fuel)
    else if ← accept .flowMappingEnd then return []
    else
      let key ← node false false fuel
      return (key, missing) :: (← flowPairs false fuel)
end

/-- The directives before a document. -/
def directives : Nat → Bool → Compose Unit
  | 0, _ => fail
  | fuel + 1, versioned => do
    match ← peek with
    | some (.version major) =>
      if versioned || major ≠ 1 then fail
      advance
      directives fuel true
    | some (.handle handle meaning) =>
      if ((← get).handles.lookup handle).isSome then fail
      advance
      modify fun s => { s with handles := (handle, meaning) :: s.handles }
      directives fuel versioned
    | some .reserved =>
      advance
      directives fuel versioned
    | _ => pure ()

/-- Adds the handles of tags that are always known. -/
def knowStandardHandles : Compose Unit :=
  modify fun s => { s with handles := s.handles ++ standardHandles }

/-- Passes the marks at the end of a document. -/
def skipEnds : Nat → Compose Unit
  | 0 => fail
  | fuel + 1 => do
    if ← accept .documentEnd then skipEnds fuel else pure ()

/-- Whether a token begins a document that has a mark at its beginning. -/
def opensDocument : Token → Bool
  | .version _ | .handle _ _ | .reserved | .documentStart => true
  | _ => false

/-- The node behind the mark at the beginning of a document. -/
def markedContent (fuel : Nat) : Compose Node := do
  directives fuel false
  if !(← accept .documentStart) then fail
  knowStandardHandles
  match ← peek with
  | none => return missing
  | some token =>
    if opensDocument token || token == .documentEnd then return missing else node true false fuel

/-- The node of a document, if there is one. No second document may follow. -/
def document (fuel : Nat) : Compose (Option Node) := do
  match ← peek with
  | none => return none
  | some token =>
    let result ←
      if opensDocument token then markedContent fuel
      else do
        knowStandardHandles
        node true false fuel
    skipEnds fuel
    if (← peek).isSome then fail
    return some result

end Composer

/-- The node of a document, if the document has one. -/
def Node.ofTokens? (tokens : List Token) : Except Fault (Option Node) :=
  (Composer.document (4 * tokens.length + 8)).run' { tokens := tokens }

end MemoryLimit.Yaml
