/-!
# Tokens

The tokens of a document. Indentation has become tokens too: the block collections that begin and end
are marked.

## Main definitions

* `Token` — a token.
-/
namespace MemoryLimit.Yaml

/-- A token of a document. -/
inductive Token where
  /-- The version of the format, by its first number. -/
  | version (major : Nat)
  /-- What a handle of tags stands for. -/
  | handle (handle meaning : String)
  /-- A directive that means nothing. -/
  | reserved
  | documentStart
  | documentEnd
  | blockSequenceStart
  | blockMappingStart
  | blockEnd
  | flowSequenceStart
  | flowSequenceEnd
  | flowMappingStart
  | flowMappingEnd
  | blockEntry
  | flowEntry
  | key
  | value
  | alias (name : String)
  | anchor (name : String)
  /-- A tag: its handle, if it has one, and its text. -/
  | tag (handle : Option String) (suffix : String)
  /-- A scalar. A plain one has no quotes and is no block. -/
  | scalar (text : String) (plain : Bool)
deriving DecidableEq, Repr, Inhabited

end MemoryLimit.Yaml
