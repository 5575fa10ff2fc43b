import MemoryLimit.Yaml.Cursor
import MemoryLimit.Yaml.Fault
import MemoryLimit.Yaml.Token

/-!
# Anchors, tags and directives

## Main definitions

* `takeName` — the name of an anchor or an alias.
* `takeTag` — a tag.
* `takeDirective` — a directive.
-/
namespace MemoryLimit.Yaml

/-- The name of an anchor or an alias, behind its mark. -/
def takeName (c : Cursor) : Except Fault (String × Cursor) :=
  let (name, after) := c.takeWhile isNameCharacter
  if name.isEmpty then .error .malformed
  else if endsWord after.peek || "?:,]\x7d%@\x60".toList.contains after.peek then
    .ok (String.ofList name, after)
  else .error .malformed

/-- A character of the text of a tag. -/
def isTagCharacter (c : Char) : Bool :=
  c.isAlphanum || "-;/?:@&=+$,_.!~*'()[]".toList.contains c

/-- The bytes of a run of percent signs that are each followed by two hexadecimal digits. -/
def takeTagBytes : Nat → Cursor → Except Fault (List UInt8 × Cursor)
  | 0, c => .ok ([], c)
  | fuel + 1, c =>
    if c.peek = '%' then
      match c.skip.takeHex? 2 with
      | some (n, after) => do
        let (more, after) ← takeTagBytes fuel after
        return (n.toUInt8 :: more, after)
      | none => .error .malformed
    else .ok ([], c)

/-- The characters of the text of a tag. Bytes in it must be those of a text. -/
def takeTagCharacters : Nat → Cursor → Except Fault (List Char × Cursor)
  | 0, c => .ok ([], c)
  | fuel + 1, c =>
    if c.peek = '%' then do
      let (bytes, after) ← takeTagBytes (c.rest.length + 1) c
      match String.fromUTF8? ⟨bytes.toArray⟩ with
      | none => throw .malformed
      | some text =>
        let (more, after) ← takeTagCharacters fuel after
        return (text.toList ++ more, after)
    else
      let (plain, after) := c.takeWhile isTagCharacter
      if plain.isEmpty then .ok ([], c)
      else do
        let (more, after) ← takeTagCharacters fuel after
        return (plain ++ more, after)

/-- The text of a tag, which has at least one character. -/
def takeTagText (c : Cursor) : Except Fault (String × Cursor) :=
  if c.peek = '%' || isTagCharacter c.peek then do
    let (text, after) ← takeTagCharacters (c.rest.length + 1) c
    return (String.ofList text, after)
  else .error .malformed

/-- The handle of a tag: an exclamation mark, or a name between two. -/
def takeHandle (c : Cursor) : Except Fault (String × Cursor) :=
  if c.peek ≠ '!' then .error .malformed
  else if c.peekAt 1 = ' ' then .ok ("!", c.skip)
  else
    let (name, after) := c.skip.takeWhile isNameCharacter
    if after.peek = '!' then .ok (String.ofList ('!' :: name ++ ['!']), after.skip)
    else .error .malformed

/-- A tag whose text is between angle brackets. -/
def takeVerbatimTag (c : Cursor) : Except Fault (Token × Cursor) := do
  let (text, c) ← takeTagText c
  if c.peek ≠ '>' then throw .malformed
  return (.tag none text, c.skip)

/-- A tag with a handle. If there is no second exclamation mark, the handle is the first one. -/
def takeShortTag (c : Cursor) : Except Fault (Token × Cursor) := do
  let word := c.skip.rest.takeWhile (!endsField ·)
  let (handle, c) ← if word.contains '!' then takeHandle c else pure ("!", c.skip)
  let (text, c) ← takeTagText c
  return (.tag (some handle) text, c)

/-- A tag, and the place behind it. -/
def takeTag (c : Cursor) : Except Fault (Token × Cursor) := do
  let (token, c) ←
    if c.peekAt 1 = '<' then takeVerbatimTag (c.skipMany 2)
    else if endsWord (c.peekAt 1) then pure (.tag none "!", c.skip)
    else takeShortTag c
  if endsField c.peek then return (token, c) else throw .malformed

/-- A number of the version of the format. -/
def takeVersionNumber (c : Cursor) : Except Fault (Nat × Cursor) :=
  let (digits, after) := c.takeWhile Char.isDigit
  if digits.isEmpty then .error .malformed
  else .ok (digits.foldl (fun n d => 10 * n + (d.toNat - 48)) 0, after)

/-- What a version directive says. -/
def takeVersion (c : Cursor) : Except Fault (Token × Cursor) := do
  let (major, c) ← takeVersionNumber (c.dropWhile (· = ' '))
  if c.peek ≠ '.' then throw .malformed
  let (_, c) ← takeVersionNumber c.skip
  if endsField c.peek then return (.version major, c) else throw .malformed

/-- What a tag directive says. -/
def takeHandleMeaning (c : Cursor) : Except Fault (Token × Cursor) := do
  let (handle, c) ← takeHandle (c.dropWhile (· = ' '))
  if c.peek ≠ ' ' then throw .malformed
  let (meaning, c) ← takeTagText (c.dropWhile (· = ' '))
  if endsField c.peek then return (.handle handle meaning, c) else throw .malformed

/-- A directive, and the place behind its line. -/
def takeDirective (c : Cursor) : Except Fault (Token × Cursor) := do
  let (name, c) := c.skip.takeWhile isNameCharacter
  if name.isEmpty || !endsField c.peek then throw .malformed
  let (token, c) ←
    if name = "YAML".toList then takeVersion c
    else if name = "TAG".toList then takeHandleMeaning c
    else pure (.reserved, c.dropWhile (!endsLine ·))
  let c := (c.dropWhile (· = ' ')).skipComment
  if endsLine c.peek then return (token, c.skipBreak) else throw .malformed

end MemoryLimit.Yaml
