import MemoryLimit.CommandLine.Usage
import MemoryLimit.Text.Digit
import MemoryLimit.Text.Line

/-!
# Command line grammars

A command line is a sequence of words. Words that begin with a dash are options, which may be shortened
to an unambiguous beginning and may have their value behind an equals sign; after the word `--` there
are no options. The other words go to the operands of the grammar, in order; an operand that takes the
rest takes options too.

## Main definitions

* `Opt`, `Operand`, `Grammar` — the options and operands of a program, and what they do to a value of
  type `α` that is built up while reading.
* `classify` — which words are options.
* `Grammar.read` — reads a command line.
-/
namespace MemoryLimit.CommandLine

/-- Why the value of an option is refused. -/
inductive Refusal where
  | complaint (complaint : Complaint)
  | failure (failure : Failure)

/-- What an option does. -/
inductive Opt.Effect (α : Type) where
  /-- It asks for help. -/
  | help
  /-- It takes no value. -/
  | flag (set : α → α)
  /-- It takes one value. -/
  | value (set : String → α → Except Refusal α)

/-- An option: its spellings, whether it must be there, and what it does. -/
structure Opt (α : Type) where
  spellings : List String
  required : Bool := false
  effect : Opt.Effect α

/-- The name of an option in messages. -/
def Opt.name {α : Type} (o : Opt α) : String :=
  String.intercalate "/" o.spellings

/-- How many words an operand takes. -/
inductive Shape where
  /-- One word. -/
  | single
  /-- All words that are left, also if there are none. -/
  | rest
  /-- A word and all words that are left. -/
  | subcommand
deriving DecidableEq, Repr

/-- An operand: its name, how many words it takes, and what it does. It may find words that it does not
understand, which are left over in the end. -/
structure Operand (α : Type) where
  name : String
  shape : Shape
  set : List String → α → Except Stop (α × List String)

/-- The options and operands of a program. -/
structure Grammar (α : Type) where
  program : String
  options : List (Opt α)
  operands : List (Operand α)

/-- An option found in a word: the spelling that it stands for, and the value in the word itself, which
follows an equals sign if `separated` is set. -/
structure Found (α : Type) where
  option : Opt α
  spelling : String
  value : Option String := none
  separated : Bool := false

/-- A word of a command line. -/
inductive Token (α : Type) where
  /-- The word that ends the options. -/
  | divider
  /-- A word that is no option. -/
  | word (text : String)
  /-- A word that is an option, or looks like one. -/
  | option (text : String) (found : Option (Found α))

/-- The text of a token. -/
def Token.text {α : Type} : Token α → String
  | divider => "--"
  | word text => text
  | option text _ => text

/-- Whether a token is an option or looks like one. -/
def Token.isOption {α : Type} : Token α → Bool
  | option .. => true
  | _ => false

variable {α : Type}

/-- All spellings of the options of a program, in order. -/
def spellings (options : List (Opt α)) : List (String × Opt α) :=
  options.flatMap fun o => o.spellings.map (·, o)

/-- A text before and after its first equals sign. -/
def splitEquals (s : List Char) : List Char × Option (List Char) :=
  match s.dropWhile (· ≠ '=') with
  | [] => (s, none)
  | _ :: value => (s.takeWhile (· ≠ '='), some value)

/-- The options that a word with two dashes may be short for. -/
def longCandidates (options : List (Opt α)) (s : List Char) : List (Found α) :=
  let (start, value) := splitEquals s
  (spellings options).filterMap fun (spelling, o) =>
    if start.isPrefixOf spelling.toList then
      some ⟨o, spelling, value.map String.ofList, value.isSome⟩
    else none

/-- The options that a word with one dash may stand for: one of two characters with its value behind it,
or one that the word begins. -/
def shortCandidates (options : List (Opt α)) (s : List Char) : List (Found α) :=
  (spellings options).filterMap fun (spelling, o) =>
    if spelling.toList = s.take 2 then some ⟨o, spelling, some (String.ofList (s.drop 2)), false⟩
    else if s.isPrefixOf spelling.toList then some ⟨o, spelling, none, false⟩
    else none

/-- The options that a word may stand for, if it is no spelling of one. -/
def candidates (options : List (Opt α)) : List Char → List (Found α)
  | '-' :: '-' :: rest => longCandidates options ('-' :: '-' :: rest)
  | s => shortCandidates options s

/-- Whether a word is a negative number: a minus sign, digits of any script, and possibly a fraction. A
line feed may follow. -/
def isNegativeNumber : List Char → Bool
  | '-' :: s =>
    let number := Text.dropFinalBreak s
    let whole := number.takeWhile Text.isDecimalDigit
    match number.dropWhile Text.isDecimalDigit with
    | [] => !whole.isEmpty
    | '.' :: places => !places.isEmpty && places.all Text.isDecimalDigit
    | _ => false
  | _ => false

/-- What a word is that is no spelling of an option, neither as a whole nor up to an equals sign. -/
def classifyShortened (options : List (Opt α)) (text : String) : Except UsageFault (Token α) :=
  match candidates options text.toList with
  | [found] => .ok (.option text (some found))
  | [] =>
    if isNegativeNumber text.toList || text.toList.contains ' ' then .ok (.word text)
    else .ok (.option text none)
  | several => .error (.ambiguous text (several.map (·.spelling)))

/-- What a word is. -/
def classifyWord (options : List (Opt α)) (text : String) : Except UsageFault (Token α) :=
  let s := text.toList
  if s.head? ≠ some '-' then .ok (.word text)
  else
    match (spellings options).lookup text with
    | some o => .ok (.option text (some ⟨o, text, none, false⟩))
    | none =>
      if s.length = 1 then .ok (.word text)
      else
        match splitEquals s with
        | (spelling, some value) =>
          match (spellings options).lookup (String.ofList spelling) with
          | some o =>
            .ok (.option text (some ⟨o, String.ofList spelling, some (String.ofList value), true⟩))
          | none => classifyShortened options text
        | _ => classifyShortened options text

/-- What the words of a command line are. After the divider no word is an option. -/
def classify (options : List (Opt α)) : List String → Except UsageFault (List (Token α))
  | [] => .ok []
  | "--" :: rest => .ok (.divider :: rest.map .word)
  | text :: rest => do
    let token ← classifyWord options text
    return token :: (← classify options rest)

/-- What was read so far: the value, the options that were seen, the operands that are still to come,
and the words that are left over. -/
structure Progress (α : Type) where
  value : α
  seen : List String := []
  operands : List (Operand α)
  extras : List String := []

namespace Grammar

variable (g : Grammar α)

/-- Ends with a misuse. -/
def misuse {β : Type} (fault : UsageFault) : Except Stop β :=
  .error (.misuse g.program fault)

/-- Ends with a complaint about an option. -/
def complain {β : Type} (o : Opt α) (complaint : Complaint) : Except Stop β :=
  g.misuse (.argument o.name complaint)

/-- Gives an option its value. -/
def setValue (o : Opt α) (set : String → α → Except Refusal α) (value : String)
    (p : Progress α) : Except Stop (Progress α) :=
  match set value p.value with
  | .ok a => .ok { p with value := a, seen := o.name :: p.seen }
  | .error (.complaint c) => g.complain o c
  | .error (.failure f) => .error (.failure f)

/-- The value that is ignored in a bundle of letters behind a single dash, of which `letter` asks for
help. Nothing if help is asked for before anything else is wrong. -/
def ignoredInBundle (letter : Char) : List Char → Option String
  | [] => none
  | c :: rest =>
    if c = letter then
      match rest with
      | '=' :: value => some (String.ofList value)
      | '-' :: value => some (String.ofList ('-' :: value))
      | _ => ignoredInBundle letter rest
    else none

/-- Reads an option that takes no value and has one in its word. Behind a single dash that may be more
letters; only the option that asks for help has a single dash. -/
def bundled {β : Type} (f : Found α) (value : String) : Except Stop β :=
  match f.spelling.toList, value.toList with
  | ['-', letter], c :: rest =>
    if f.separated || c = '-' then g.complain f.option (.ignoredValue value)
    else
      match ignoredInBundle letter (c :: rest) with
      | some ignored => g.complain f.option (.ignoredValue ignored)
      | none => .error .help
  | _, _ => g.complain f.option (.ignoredValue value)

/-- Reads an option and its value, which may be the next word. The answer has the words behind it. -/
def readOption (text : String) (found : Option (Found α)) (rest : List (Token α))
    (p : Progress α) : Except Stop (Progress α × List (Token α)) :=
  match found with
  | none => .ok ({ p with extras := p.extras ++ [text] }, rest)
  | some f =>
    match f.option.effect, f.value with
    | .value set, some value => do return (← g.setValue f.option set value p, rest)
    | .value set, none =>
      match rest with
      | .word value :: rest => do return (← g.setValue f.option set value p, rest)
      | _ => g.complain f.option .expectedValue
    | _, some value => g.bundled f value
    | .help, none => .error .help
    | .flag set, none =>
      .ok ({ p with value := set p.value, seen := f.option.name :: p.seen }, rest)

/-- The words that an operand takes off the front, and what follows them. Nothing if they do not suffice.
-/
def takeShape : Shape → List (Token α) → Option (List String × List (Token α))
  | .rest, tokens => some (tokens.map Token.text, [])
  | .single, .divider :: .word text :: rest => some ([text], rest)
  | .single, .word text :: .divider :: rest => some ([text], rest)
  | .single, .word text :: rest => some ([text], rest)
  | .subcommand, .divider :: .word text :: rest => some ("--" :: text :: rest.map Token.text, [])
  | .subcommand, .word text :: rest => some (text :: rest.map Token.text, [])
  | _, _ => none

/-- Gives words to as many operands as they suffice for. -/
def readOperands : List (Operand α) → List (Token α) → Progress α →
    Except Stop (Progress α × List (Token α))
  | [], tokens, p => .ok ({ p with operands := [] }, tokens)
  | operand :: later, tokens, p =>
    match takeShape operand.shape tokens with
    | none => .ok ({ p with operands := operand :: later }, tokens)
    | some (words, rest) => do
      let (value, unknown) ← operand.set words p.value
      readOperands later rest { p with value := value, extras := p.extras ++ unknown }

/-- Reads the words that are left, options and operands in turn. `fuel` bounds the number of turns. -/
def readTokens : Nat → List (Token α) → Progress α → Except Stop (Progress α)
  | 0, _, p => .ok p
  | fuel + 1, tokens, p =>
    if !tokens.any Token.isOption then do
      let (p, rest) ← readOperands p.operands tokens p
      return { p with extras := p.extras ++ rest.map Token.text }
    else
      match tokens with
      | .option text found :: rest => do
        let (p, rest) ← g.readOption text found rest p
        readTokens fuel rest p
      | _ => do
        let (p, rest) ← readOperands p.operands tokens p
        if rest.length < tokens.length then readTokens fuel rest p
        else
          let skipped := (rest.takeWhile (!·.isOption)).map Token.text
          readTokens fuel (rest.dropWhile (!·.isOption)) { p with extras := p.extras ++ skipped }

/-- The names of the options and operands that must be there and are not. -/
def missing (p : Progress α) : List String :=
  let operands := p.operands.map (·.name)
  let options := g.options.filter fun o => o.required && !p.seen.contains o.name
  options.map Opt.name ++ operands

/-- Reads a command line: the value, and the words that are left over. -/
def readKnown (words : List String) (initial : α) : Except Stop (α × List String) := do
  match classify g.options words with
  | .error fault => g.misuse fault
  | .ok tokens =>
    let p ← g.readTokens (tokens.length + 1) tokens ⟨initial, [], g.operands, []⟩
    match g.missing p with
    | [] => return (p.value, p.extras)
    | names => g.misuse (.required names)

/-- Reads a command line. No word may be left over. -/
def read (words : List String) (initial : α) : Except Stop α := do
  match ← g.readKnown words initial with
  | (value, []) => return value
  | (_, extras) => g.misuse (.unrecognized extras)

end Grammar

/-- The option that asks for help. -/
def helpOption : Opt α :=
  { spellings := ["-h", "--help"], effect := .help }

/-- The value of an option that takes an integer. -/
def integerValue (text : String) : Except Refusal Int :=
  (readInteger text).mapError fun _ => .complaint (.invalidValue "int" text)

/-- A command without the divider that may stand before it. -/
def withoutDivider : List String → List String
  | "--" :: words => words
  | words => words

end MemoryLimit.CommandLine
