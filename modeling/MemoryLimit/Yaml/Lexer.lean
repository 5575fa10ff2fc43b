import MemoryLimit.Yaml.BlockText
import MemoryLimit.Yaml.Mark
import MemoryLimit.Yaml.PlainText
import MemoryLimit.Yaml.QuotedText

/-!
# The tokens of a document

A key of a mapping is known as one only when its colon is found. Until then, what may be a key is
remembered; at the colon the tokens for the key, and for the mapping if it begins there, are put in
front of it. What may be a key stands on one line and has at most 1024 characters.

## Main definitions

* `PossibleKey` — a place where a key may begin.
* `Lexer` — what was read of a document, and what is open there.
* `tokens` — the tokens of a document.
-/
namespace MemoryLimit.Yaml

/-- A place where a key may begin: the number of tokens before it, where it stands, and whether it must
turn out to be a key because nothing else may stand there. -/
structure PossibleKey where
  before : Nat
  index : Nat
  line : Nat
  column : Nat
  required : Bool
deriving DecidableEq, Repr

/-- What was read of a document: the place, the tokens, last first, the columns of the open block
collections, innermost first, what may be a key in the innermost open collection and in the ones around
it (one more for each open flow collection), and whether a key may begin here. -/
structure Lexer where
  cursor : Cursor
  tokens : List Token := []
  count : Nat := 0
  indents : List Nat := []
  possible : Option PossibleKey := none
  outer : List (Option PossibleKey) := []
  keyAllowed : Bool := true
deriving Inhabited

/-- The number of characters that a key may have. -/
def maxKeyLength : Nat := 1024

/-- Forgets what may be a key if it is too far behind a place. -/
def PossibleKey.expire (c : Cursor) : Option PossibleKey → Except Fault (Option PossibleKey)
  | none => .ok none
  | some k =>
    if k.line ≠ c.line || maxKeyLength < c.index - k.index then
      if k.required then .error .malformed else .ok none
    else .ok (some k)

namespace Lexer

/-- Whether a flow collection is open. -/
def inFlow (l : Lexer) : Bool :=
  !l.outer.isEmpty

/-- Adds a token. -/
def emit (token : Token) (l : Lexer) : Lexer :=
  { l with tokens := token :: l.tokens, count := l.count + 1 }

/-- Adds a token, and moves on. -/
def emitAt (token : Token) (c : Cursor) (l : Lexer) : Lexer :=
  { l.emit token with cursor := c }

/-- Adds a token that takes so many characters. -/
def emitMark (token : Token) (length : Nat) (l : Lexer) : Lexer :=
  l.emitAt token (l.cursor.skipMany length)

/-- Puts tokens, last first, in front of the tokens that came after the first `before` ones. -/
def insertAt (before : Nat) (added : List Token) (l : Lexer) : Lexer :=
  let later := l.count - before
  { l with
    tokens := l.tokens.take later ++ added ++ l.tokens.drop later
    count := l.count + added.length }

/-- Ends the block collections of a class of columns, innermost first. -/
def unwind (ended : Nat → Bool) (l : Lexer) : Lexer :=
  if l.inFlow then l
  else
    let closed := (l.indents.takeWhile ended).length
    { l with
      tokens := List.replicate closed .blockEnd ++ l.tokens
      count := l.count + closed
      indents := l.indents.drop closed }

/-- Whether a block collection begins at a column. -/
def deepens (column : Nat) (l : Lexer) : Bool :=
  match l.indents with
  | [] => true
  | indent :: _ => indent < column

/-- Opens a block collection at the place, if it is further right than the open ones. -/
def openBlock (token : Token) (l : Lexer) : Lexer :=
  let column := l.cursor.column
  if l.deepens column then { l.emit token with indents := column :: l.indents } else l

/-- Forgets what may be a key. -/
def dropKey (l : Lexer) : Except Fault Lexer :=
  if l.possible.any (·.required) then .error .malformed else .ok { l with possible := none }

/-- Forgets what may be a key and is too far behind. -/
def expireKeys (l : Lexer) : Except Fault Lexer := do
  let possible ← PossibleKey.expire l.cursor l.possible
  let outer ← l.outer.mapM (PossibleKey.expire l.cursor)
  return { l with possible := possible, outer := outer }

/-- Remembers that a key may begin here. -/
def noteKey (l : Lexer) : Except Fault Lexer := do
  if l.keyAllowed then
    let l ← l.dropKey
    let c := l.cursor
    let required := !l.inFlow && l.indents.head? == some c.column
    return { l with possible := some ⟨l.count, c.index, c.line, c.column, required⟩ }
  else return l

/-- Remembers that a key may begin here, and that no other one may directly behind it. -/
def beginKey (l : Lexer) : Except Fault Lexer := do
  return { ← l.noteKey with keyAllowed := false }

/-- Reads a mark between documents, or a directive. -/
def takeLimit (token : Token) (c : Cursor) (l : Lexer) : Except Fault Lexer := do
  let l ← (l.unwind fun _ => true).dropKey
  return { l.emitAt token c with keyAllowed := false }

/-- Reads the beginning of a flow collection. -/
def takeFlowStart (token : Token) (l : Lexer) : Except Fault Lexer := do
  let l ← l.noteKey
  let l := { l with outer := l.possible :: l.outer, possible := none, keyAllowed := true }
  return l.emitMark token 1

/-- Reads the end of a flow collection. -/
def takeFlowEnd (token : Token) (l : Lexer) : Except Fault Lexer := do
  let l ← l.dropKey
  match l.outer with
  | [] => throw .malformed
  | possible :: outer =>
    return { l with outer := outer, possible := possible, keyAllowed := false }.emitMark token 1

/-- Reads the comma of a flow collection. -/
def takeFlowEntry (l : Lexer) : Except Fault Lexer := do
  let l ← { l with keyAllowed := true }.dropKey
  return l.emitMark .flowEntry 1

/-- Refuses what may stand only where a key may. -/
def checkKeyAllowed (l : Lexer) : Except Fault Unit :=
  if l.inFlow || l.keyAllowed then .ok () else .error .malformed

/-- Reads the dash of a block sequence. -/
def takeBlockEntry (l : Lexer) : Except Fault Lexer := do
  l.checkKeyAllowed
  let l := if l.inFlow then l else l.openBlock .blockSequenceStart
  let l ← { l with keyAllowed := true }.dropKey
  return l.emitMark .blockEntry 1

/-- Reads the question mark before a key. -/
def takeKey (l : Lexer) : Except Fault Lexer := do
  l.checkKeyAllowed
  let l := if l.inFlow then l else l.openBlock .blockMappingStart
  let l ← { l with keyAllowed := !l.inFlow }.dropKey
  return l.emitMark .key 1

/-- Makes what may be a key one. -/
def resolveKey (k : PossibleKey) (l : Lexer) : Lexer :=
  let l := { l with possible := none, keyAllowed := false }
  if !l.inFlow && l.deepens k.column then
    { l.insertAt k.before [.key, .blockMappingStart] with indents := k.column :: l.indents }
  else l.insertAt k.before [.key]

/-- Reads the colon before a value. -/
def takeValue (l : Lexer) : Except Fault Lexer := do
  match l.possible with
  | some k => return (l.resolveKey k).emitMark .value 1
  | none =>
    l.checkKeyAllowed
    let l := if l.inFlow then l else l.openBlock .blockMappingStart
    return { l with keyAllowed := !l.inFlow }.emitMark .value 1

/-- Reads an alias or an anchor. -/
def takeNamed (token : String → Token) (l : Lexer) : Except Fault Lexer := do
  let l ← l.beginKey
  let (name, c) ← takeName l.cursor.skip
  return l.emitAt (token name) c

/-- Reads a tag. -/
def takeTagged (l : Lexer) : Except Fault Lexer := do
  let l ← l.beginKey
  let (token, c) ← takeTag l.cursor
  return l.emitAt token c

/-- Reads a quoted scalar. -/
def takeQuotedScalar (l : Lexer) : Except Fault Lexer := do
  let l ← l.beginKey
  let (text, c) ← takeQuoted l.cursor
  return l.emitAt (.scalar (String.ofList text) false) c

/-- Reads a block scalar. A key may follow it. -/
def takeBlockScalar (l : Lexer) : Except Fault Lexer := do
  let l ← { l with keyAllowed := true }.dropKey
  let minimum :=
    match l.indents with
    | [] => 1
    | indent :: _ => indent + 1
  let (text, c) ← takeBlock minimum l.cursor
  return l.emitAt (.scalar (String.ofList text) false) c

/-- Reads a plain scalar. A key may follow it if a line ends behind it. -/
def takePlainScalar (l : Lexer) : Except Fault Lexer := do
  let l ← l.beginKey
  let indent :=
    match l.indents with
    | [] => 0
    | indent :: _ => indent + 1
  let (text, c, broken) := takePlain l.inFlow indent l.cursor
  return { l.emitAt (.scalar (String.ofList text) true) c with keyAllowed := broken }

/-- The place of the next token, behind blanks, comments and line ends, and whether a line ended. -/
def nextPlace : Nat → Cursor → Cursor × Bool
  | 0, c => (c, false)
  | fuel + 1, c =>
    let c := (c.dropWhile (· = ' ')).skipComment
    match c.takeBreak? with
    | none => (c, false)
    | some (_, after) => ((nextPlace fuel after).1, true)

/-- Moves to the next token. Outside flow collections, a key may begin in a new line, and block
collections end if it is less indented than they are. -/
def approach (l : Lexer) : Except Fault Lexer := do
  let c := if l.cursor.index = 0 && l.cursor.peek = '\uFEFF' then l.cursor.skip else l.cursor
  let (c, broken) := nextPlace (c.rest.length + 1) c
  let allowed := l.keyAllowed || (broken && !l.inFlow)
  let l ← { l with cursor := c, keyAllowed := allowed }.expireKeys
  return l.unwind (c.column < ·)

/-- Reads the token at the place. -/
def takeToken (l : Lexer) : Except Fault Lexer :=
  let c := l.cursor
  if c.column = 0 && c.peek = '%' then do
    let (token, after) ← takeDirective c
    l.takeLimit token after
  else if c.column = 0 && c.atWord "---" then l.takeLimit .documentStart (c.skipMany 3)
  else if c.column = 0 && c.atWord "..." then l.takeLimit .documentEnd (c.skipMany 3)
  else
    let isMark := endsWord (c.peekAt 1)
    match c.peek with
    | '[' => l.takeFlowStart .flowSequenceStart
    | '\x7b' => l.takeFlowStart .flowMappingStart
    | ']' => l.takeFlowEnd .flowSequenceEnd
    | '\x7d' => l.takeFlowEnd .flowMappingEnd
    | ',' => l.takeFlowEntry
    | '*' => l.takeNamed .alias
    | '&' => l.takeNamed .anchor
    | '!' => l.takeTagged
    | '\'' => l.takeQuotedScalar
    | '"' => l.takeQuotedScalar
    | x =>
      if x = '-' && isMark then l.takeBlockEntry
      else if x = '?' && (l.inFlow || isMark) then l.takeKey
      else if x = ':' && (l.inFlow || isMark) then l.takeValue
      else if (x = '|' || x = '>') && !l.inFlow then l.takeBlockScalar
      else if startsPlain l.inFlow c then l.takePlainScalar
      else .error .malformed

/-- Reads the tokens that are left. Each takes at least one character, so that `fuel` more than the
number of characters suffices. -/
def takeTokens : Nat → Lexer → Except Fault (List Token)
  | 0, _ => .error .malformed
  | fuel + 1, l => do
    let l ← l.approach
    if l.cursor.rest.isEmpty then
      let l ← (l.unwind fun _ => true).dropKey
      return l.tokens.reverse
    else takeTokens fuel (← l.takeToken)

end Lexer

/-- A character that a document may have. -/
def isAdmissible (c : Char) : Bool :=
  let n := c.toNat
  n = 9 || n = 10 || n = 13 || (0x20 ≤ n && n ≤ 0x7e) || n = 0x85 || (0xa0 ≤ n && n ≤ 0xfffd) ||
    0x10000 ≤ n

/-- The tokens of a document. -/
def tokens (text : String) : Except Fault (List Token) :=
  let s := text.toList
  if s.all isAdmissible then Lexer.takeTokens (s.length + 1) { cursor := ⟨s, 0, 0, 0⟩ }
  else .error .malformed

end MemoryLimit.Yaml
