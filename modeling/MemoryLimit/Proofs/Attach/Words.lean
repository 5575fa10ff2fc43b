import MemoryLimit.Proofs.Attach.Run
import MemoryLimit.Proofs.Numeral.Integer
import MemoryLimit.Proofs.Path
import MemoryLimit.Trial.Run

/-!
# The words of the helper

The words that a run gives to its helper are read back by the helper: the number of the status pipe,
the group, and the command, whose words may look like options of the helper. Two dividers before the
command are taken as the helper's own. Up to the first divider a word of the command that has an equals
sign right after two dashes is an option cut short to nothing, which may stand for several.

## Main definitions

* `Command.executed` — the words of a command without the dividers before them.
* `Command.Unambiguous` — no word of a command is such an option.

## Main statements

* `CommandLine.exists_classify` — words are classified one by one, and each keeps its text.
* `AttachRequest.read_words` — the helper reads what it is given.
* `attachMain_helperCommand` — what the helper does with the words of a run.
-/
namespace MemoryLimit

namespace CommandLine

variable {α : Type} {options : List (Opt α)} {words : List String} {token : Token α} {text : String}

/-! ## Classifying words -/

theorem text_of_classifyShortened (h : classifyShortened options text = .ok token) :
    token.text = text ∧ token ≠ .divider := by
  rw [classifyShortened] at h
  split at h
  · cases h
    exact ⟨rfl, by simp⟩
  · split at h
    · cases h
      exact ⟨rfl, by simp⟩
    · cases h
      exact ⟨rfl, by simp⟩
  · cases h

/-- A word that is classified keeps its text, and it is no divider. -/
theorem text_of_classifyWord (h : classifyWord options text = .ok token) :
    token.text = text ∧ token ≠ .divider := by
  have hfound : ∀ {found : Token α}, found.text = text → found ≠ .divider →
      (.ok found : Except UsageFault (Token α)) = .ok token →
      token.text = text ∧ token ≠ .divider := by
    rintro found htext hdivider ⟨⟩
    exact ⟨htext, hdivider⟩
  rw [classifyWord] at h
  split at h
  · exact hfound rfl (by simp) h
  · split at h
    · exact hfound rfl (by simp) h
    · split at h
      · exact hfound rfl (by simp) h
      · split at h
        · split at h
          · exact hfound rfl (by simp) h
          · exact text_of_classifyShortened h
        · exact text_of_classifyShortened h

/-- A word that begins with no dash is no option. -/
theorem classifyWord_of_head? (h : text.toList.head? ≠ some '-') :
    classifyWord options text = .ok (.word text) := by
  rw [classifyWord]
  exact if_pos h

/-- A word is classified if it cannot stand for several options. -/
theorem exists_classifyWord (h : text.toList.head? = some '-' → text.toList.length ≠ 1 →
      (candidates options text.toList).length ≤ 1) :
    ∃ token, classifyWord options text = .ok token := by
  rw [classifyWord]
  split
  · exact ⟨_, rfl⟩
  · rename_i hdash
    split
    · exact ⟨_, rfl⟩
    · split
      · exact ⟨_, rfl⟩
      · rename_i hlong
        have hshortened : ∃ token, classifyShortened options text = .ok token := by
          rw [classifyShortened]
          split
          · exact ⟨_, rfl⟩
          · split <;> exact ⟨_, rfl⟩
          · rename_i hnone hone
            have hfew := h (by simpa using hdash) hlong
            cases hcandidates : candidates options text.toList with
            | nil => exact absurd hcandidates hone
            | cons found more =>
              rw [hcandidates] at hfew
              cases more with
              | nil => exact absurd hcandidates (hnone found)
              | cons second more => simp at hfew
        split
        · split
          · exact ⟨_, rfl⟩
          · exact hshortened
        · exact hshortened

theorem length_longCandidates (options : List (Opt α)) (s : List Char) :
    (longCandidates options s).length =
      (spellings options).countP fun o => (splitEquals s).1.isPrefixOf o.1.toList := by
  rw [longCandidates, List.length_filterMap_eq_countP]
  congr 1
  funext o
  dsimp only
  cases (splitEquals s).1.isPrefixOf o.1.toList <;> rfl

theorem length_shortCandidates (options : List (Opt α)) (s : List Char) :
    (shortCandidates options s).length = (spellings options).countP fun o =>
      decide (o.1.toList = s.take 2) || s.isPrefixOf o.1.toList := by
  rw [shortCandidates, List.length_filterMap_eq_countP]
  congr 1
  funext o
  dsimp only
  by_cases hletters : o.1.toList = s.take 2
  · simp [hletters]
  · simp only [hletters, if_false, decide_false, Bool.false_or]
    cases s.isPrefixOf o.1.toList <;> rfl

theorem classify_cons (h : text ≠ "--") (rest : List String) :
    classify options (text :: rest) = (do
      let token ← classifyWord options text
      return token :: (← classify options rest)) := by
  rw [classify]
  exact h

/-- **Words are classified one by one** up to the first divider, and each keeps its text. -/
theorem exists_classify (hwords : ∀ word ∈ words.takeWhile (· ≠ "--"),
      ∃ token, classifyWord options word = .ok token) :
    ∃ tokens, classify options words = .ok tokens ∧ tokens.map Token.text = words := by
  induction words with
  | nil => exact ⟨[], rfl, rfl⟩
  | cons first rest ih =>
    by_cases hfirst : first = "--"
    · subst hfirst
      refine ⟨.divider :: rest.map .word, rfl, ?_⟩
      rw [List.map_cons, List.map_map]
      exact congrArg _ (List.map_id rest)
    · rw [List.takeWhile_cons_of_pos (by simpa using hfirst)] at hwords
      obtain ⟨token, htoken⟩ := hwords first (by simp)
      obtain ⟨tokens, hrest, htexts⟩ := ih fun word hword =>
        hwords word (List.mem_cons_of_mem _ hword)
      refine ⟨token :: tokens, ?_, ?_⟩
      · rw [classify_cons hfirst, htoken, hrest]
        rfl
      · rw [List.map_cons, htexts, (text_of_classifyWord htoken).1]

/-- A divider is the first token of words that begin with one, and of no others. -/
theorem head?_of_classify {tokens : List (Token α)} (h : classify options words = .ok tokens) :
    tokens.head? = some .divider ↔ words.head? = some "--" := by
  cases words with
  | nil =>
    cases h
    simp
  | cons first rest =>
    by_cases hfirst : first = "--"
    · subst hfirst
      cases h
      simp
    · rw [classify_cons hfirst] at h
      cases htoken : classifyWord options first with
      | error fault =>
        rw [htoken] at h
        cases h
      | ok token =>
        rw [htoken] at h
        cases hrest : classify options rest with
        | error fault =>
          rw [hrest] at h
          cases h
        | ok tokens =>
          rw [hrest] at h
          cases h
          simp [hfirst, (text_of_classifyWord htoken).2]

theorem withoutDivider_of_head? {words : List String} (h : words.head? ≠ some "--") :
    withoutDivider words = words := by
  rw [withoutDivider]
  rintro rest rfl
  exact h rfl

/-- An operand of one word takes a divider right behind the word, too. -/
theorem takeShape_single {tokens : List (Token α)} (text : String)
    (h : classify options words = .ok tokens) (htexts : tokens.map Token.text = words) :
    ∃ rest, Grammar.takeShape .single (.word text :: tokens) = some ([text], rest) ∧
      rest.map Token.text = withoutDivider words := by
  have hhead := head?_of_classify h
  by_cases hdivider : words.head? = some "--"
  · obtain ⟨rest, hrest⟩ := List.head?_eq_some_iff.1 (hhead.2 hdivider)
    subst htexts
    subst hrest
    exact ⟨rest, rfl, rfl⟩
  · refine ⟨tokens, ?_, by rw [htexts, withoutDivider_of_head? hdivider]⟩
    rw [Grammar.takeShape]
    rintro rest rfl
    exact hdivider (hhead.1 rfl)

end CommandLine

open CommandLine Text

/-! ## The words of the helper -/

/-- The words of a command without the dividers before it. The helper takes one for the end of its
options, and drops another one. -/
def Command.executed (command : Command) : List String :=
  withoutDivider (withoutDivider command.words)

/-- Before its first divider a command has no word that is an option of two dashes and nothing else,
with an equals sign. -/
def Command.Unambiguous (command : Command) : Prop :=
  ∀ word ∈ command.words.takeWhile (· ≠ "--"), ¬ "--=".toList <+: word.toList

/-- A command that begins with no divider is executed as it is. -/
theorem Command.executed_eq_words {command : Command} (h : command.words.head? ≠ some "--") :
    command.executed = command.words := by
  rw [executed, withoutDivider_of_head? h, withoutDivider_of_head? h]

namespace AttachRequest

theorem spellings_grammar : spellings grammar.options =
    [("-h", helpOption), ("--help", helpOption), ("--status-fd", statusOption)] := rfl

/-- The options of the helper have no common beginning of more than the two dashes. -/
theorem length_longCandidates_le {c : Char} (hc : c ≠ '=') (rest : List Char) :
    (longCandidates grammar.options ('-' :: '-' :: c :: rest)).length ≤ 1 := by
  have hstart : ∃ more, (splitEquals ('-' :: '-' :: c :: rest)).1 = '-' :: '-' :: c :: more := by
    rw [splitEquals]
    split
    · exact ⟨rest, rfl⟩
    · exact ⟨rest.takeWhile (· ≠ '='), by simp [hc]⟩
  obtain ⟨more, hmore⟩ := hstart
  have hshort : ('-' :: '-' :: c :: more).isPrefixOf "-h".toList = false := rfl
  have hhelp : ('-' :: '-' :: c :: more).isPrefixOf "--help".toList =
      (c == 'h' && more.isPrefixOf "elp".toList) := rfl
  have hstatus : ('-' :: '-' :: c :: more).isPrefixOf "--status-fd".toList =
      (c == 's' && more.isPrefixOf "tatus-fd".toList) := rfl
  rw [length_longCandidates, hmore, spellings_grammar, List.countP_cons, List.countP_cons,
    List.countP_singleton, hshort, hhelp, hstatus]
  by_cases hh : c = 'h'
  · rw [show (c == 's') = false by rw [hh]; rfl, Bool.false_and]
    simp only [Bool.false_eq_true, if_false]
    split <;> omega
  · rw [show (c == 'h') = false by simpa using hh, Bool.false_and]
    simp only [Bool.false_eq_true, if_false]
    split <;> omega

/-- A word of one dash stands for one option at the most. -/
theorem length_shortCandidates_le {c : Char} (hc : c ≠ '-') (rest : List Char) :
    (shortCandidates grammar.options ('-' :: c :: rest)).length ≤ 1 := by
  have hdash : (c == '-') = false := by simpa using hc
  have hhelp : (decide ("--help".toList = ('-' :: c :: rest).take 2) ||
      ('-' :: c :: rest).isPrefixOf "--help".toList) = false := by
    rw [show ('-' :: c :: rest).isPrefixOf "--help".toList =
      (c == '-' && rest.isPrefixOf "help".toList) from rfl, hdash]
    simp
  have hstatus : (decide ("--status-fd".toList = ('-' :: c :: rest).take 2) ||
      ('-' :: c :: rest).isPrefixOf "--status-fd".toList) = false := by
    rw [show ('-' :: c :: rest).isPrefixOf "--status-fd".toList =
      (c == '-' && rest.isPrefixOf "status-fd".toList) from rfl, hdash]
    simp
  rw [length_shortCandidates, spellings_grammar, List.countP_cons, List.countP_cons,
    List.countP_singleton, hhelp, hstatus]
  simp only [Bool.false_eq_true, if_false]
  split <;> omega

/-- The helper finds no word ambiguous but one that is no more than two dashes and a value. -/
theorem exists_classifyWord_grammar {word : String} (hdivider : word ≠ "--")
    (hword : ¬ "--=".toList <+: word.toList) :
    ∃ token, classifyWord grammar.options word = .ok token := by
  apply exists_classifyWord
  intro hdash hlong
  have hne : word.toList ≠ "--".toList := fun h => hdivider (String.toList_injective h)
  obtain ⟨rest, hs⟩ := List.head?_eq_some_iff.1 hdash
  rw [hs] at hlong hne hword ⊢
  cases rest with
  | nil => simp at hlong
  | cons c rest =>
    by_cases hc : c = '-'
    · subst hc
      cases rest with
      | nil => exact absurd rfl hne
      | cons c rest =>
        refine length_longCandidates_le (fun hc => hword ?_) rest
        exact ⟨rest, by rw [hc]; rfl⟩
    · rw [candidates]
      · exact length_shortCandidates_le hc rest
      · rintro rest' ⟨⟩
        exact hc rfl

/-- The first word that is no option is the group, and what follows it is the command. -/
theorem readTokens_grammar {group : String} {tokens rest : List (Token AttachRequest)}
    (htake : Grammar.takeShape .single (.word group :: tokens) = some ([group], rest))
    (request : AttachRequest) (seen : List String) (fuel : ℕ) :
    grammar.readTokens (fuel + 2) (.word group :: tokens) ⟨request, seen, grammar.operands, []⟩ =
      .ok ⟨⟨request.status, group, rest.map Token.text⟩, seen, [], []⟩ := by
  have hoperands : Grammar.readOperands grammar.operands (.word group :: tokens)
      ⟨request, seen, grammar.operands, []⟩ =
      .ok (⟨⟨request.status, group, rest.map Token.text⟩, seen, [], []⟩, []) := by
    simp only [grammar, Grammar.readOperands, htake]
    rfl
  rw [Grammar.readTokens]
  · dsimp only
    split <;>
    · rw [hoperands]
      rfl
  · rintro _ _ _ ⟨⟩

theorem head?_integerText {n : ℤ} (h : 0 ≤ n) : (integerText n).toList.head? ≠ some '-' := by
  rw [toList_integerText, if_neg (not_lt.2 h), List.nil_append]
  intro hdash
  have hdigit := isDigit_of_mem_natDigits (List.mem_of_mem_head? hdash)
  revert hdigit
  decide

/-- The words for a status pipe are the option and a word. -/
theorem classify_statusWords {n : ℤ} (hn : 0 ≤ n) {words : List String}
    {tokens : List (Token AttachRequest)} (h : classify grammar.options words = .ok tokens) :
    classify grammar.options (statusWords (some n) ++ words) =
      .ok (.option "--status-fd" (some ⟨statusOption, "--status-fd", none, false⟩) ::
        .word (integerText n) :: tokens) := by
  have hnumeral := head?_integerText hn
  have hdivider : integerText n ≠ "--" := by
    intro htext
    rw [htext] at hnumeral
    exact hnumeral rfl
  rw [statusWords, List.cons_append, List.singleton_append, classify_cons (by decide),
    classify_cons hdivider, classifyWord_of_head? hnumeral, h]
  rfl

/-- What the status option and the number behind it do. -/
theorem readTokens_status (number : String) (tokens : List (Token AttachRequest))
    (p : Progress AttachRequest) (fuel : ℕ) :
    grammar.readTokens (fuel + 1)
        (.option "--status-fd" (some ⟨statusOption, "--status-fd", none, false⟩) ::
          .word number :: tokens) p =
      match readInteger number with
      | .ok status => grammar.readTokens fuel tokens
          ⟨{ p.value with status := some status }, "--status-fd" :: p.seen, p.operands, p.extras⟩
      | .error _ => grammar.misuse (.argument "--status-fd" (.invalidValue "int" number)) := by
  rw [Grammar.readTokens]
  simp only [List.any_cons, Token.isOption, Bool.true_or, Bool.not_true, Bool.false_eq_true,
    if_false, Grammar.readOption, Grammar.setValue, statusOption, integerValue]
  cases readInteger number <;> rfl

/-- A command line is read as its tokens are. -/
theorem read_of_tokens {words : List String} {tokens : List (Token AttachRequest)}
    {request : AttachRequest} {seen : List String} (h : classify grammar.options words = .ok tokens)
    (hread : grammar.readTokens (tokens.length + 1) tokens ⟨{}, [], grammar.operands, []⟩ =
      .ok ⟨request, seen, [], []⟩)
    (hcommand : withoutDivider request.command ≠ []) :
    read words = .ok { request with command := withoutDivider request.command } := by
  have hgrammar : grammar.read words {} = .ok request := by
    simp only [Grammar.read, Grammar.readKnown, h, hread]
    rfl
  rw [read, hgrammar]
  dsimp only [bind, Except.bind]
  split
  · rename_i hnone
    exact absurd hnone hcommand
  · rfl

/-- **The helper reads what it is given**: the number of its status pipe, the group, and the command
without the dividers before it. -/
theorem read_words {status : Option ℤ} {group : String} {command : Command}
    (hstatus : ∀ n ∈ status, 0 ≤ n ∧ digitCount n.natAbs ≤ maxNumeralDigits)
    (hgroup : group.toList.head? = some '/') (hunambiguous : command.Unambiguous)
    (hexecuted : command.executed ≠ []) :
    read (statusWords status ++ group :: command.words) = .ok ⟨status, group, command.executed⟩ := by
  have hdivider : ∀ {text : String}, text.toList.head? ≠ some '-' → text ≠ "--" := by
    rintro _ htext rfl
    exact htext rfl
  have hpath : group.toList.head? ≠ some '-' := by rw [hgroup]; decide
  have hclassified : ∀ word ∈ command.words.takeWhile (· ≠ "--"),
      ∃ token, classifyWord grammar.options word = .ok token := fun word hword =>
    exists_classifyWord_grammar (by simpa using List.mem_takeWhile_imp hword)
      (hunambiguous word hword)
  obtain ⟨tokens, htokens, htexts⟩ := exists_classify hclassified
  obtain ⟨rest, htake, hrest⟩ := takeShape_single group htokens htexts
  have hwords : classify grammar.options (group :: command.words) = .ok (.word group :: tokens) := by
    rw [classify_cons (hdivider hpath), classifyWord_of_head? hpath, htokens]
    rfl
  cases status with
  | none =>
    rw [statusWords, List.nil_append, Command.executed, ← hrest]
    refine read_of_tokens hwords (readTokens_grammar htake _ _ tokens.length) ?_
    rw [hrest]
    exact hexecuted
  | some n =>
    obtain ⟨hnonneg, hdigits⟩ := hstatus n rfl
    let request : AttachRequest := ⟨some n, group, rest.map Token.text⟩
    have hcommand : withoutDivider request.command ≠ [] := by
      rw [show request.command = withoutDivider command.words from hrest]
      exact hexecuted
    rw [Command.executed, ← hrest]
    apply read_of_tokens (classify_statusWords hnonneg hwords) ?_ hcommand
    · exact ["--status-fd"]
    · rw [List.length_cons, List.length_cons, readTokens_status, readInteger_integerText hdigits]
      exact readTokens_grammar htake _ _ (tokens.length + 1)

/-- A number that is too long to be read is a misuse. -/
theorem read_words_of_long {n : ℤ} (hn : 0 ≤ n) (hlong : maxNumeralDigits < digitCount n.natAbs)
    {words : List String} {tokens : List (Token AttachRequest)}
    (h : classify grammar.options words = .ok tokens) :
    read (statusWords (some n) ++ words) =
      .error (.misuse "cgexec" (.argument "--status-fd" (.invalidValue "int" (integerText n)))) := by
  rw [read, Grammar.read, Grammar.readKnown, classify_statusWords hn h]
  dsimp only
  rw [readTokens_status, readInteger_integerText_eq, if_pos hlong]
  rfl

/-- An absolute group is the one that the helper enters, wherever groups are mounted. -/
theorem groupOn_text {path : Path} (habsolute : path.isAbsolute = true)
    (status : Option ℤ) (command : List String) (h : Host) :
    groupOn ⟨status, path.text, command⟩ h = path := by
  rw [groupOn, Path.child, Path.read_text, Path.join, if_pos habsolute]

end AttachRequest

/-- **What the helper does with the words of a run.** It keeps the status pipe for itself, enters the
leaf, and makes the call that executes the command without the dividers before it. If it cannot keep
the pipe, it fails so, and if it cannot enter the leaf, it executes nothing. The call may fail, by a
fault or because its words cannot be handed over. -/
theorem attachMain_helperCommand (settings : Settings) (interpreter : String) (command : Command)
    (leaf : Leaf) (status : Option ℤ) (words : List String)
    (hwords : helperCommand settings interpreter command leaf status =
      settings.helperWords interpreter ++ words)
    (habsolute : leaf.path.isAbsolute = true)
    (hstatus : ∀ n ∈ status, 0 ≤ n ∧ digitCount n.natAbs ≤ maxNumeralDigits)
    (hunambiguous : command.Unambiguous) (hexecuted : command.executed ≠ []) :
    (command.words.head? ≠ some "--" → command.executed = command.words) ∧
    ∃ request : AttachRequest, AttachRequest.read words = .ok request ∧
      request.status = status ∧ request.command = command.executed ∧
      (∀ h, request.groupOn h = leaf.path) ∧
      ∀ h : Host,
        (∀ failure t, request.keepStatus.runOn h = (.error failure, t) →
          (attachMain words).runOn h = (.error failure, t)) ∧
        ∀ kept, request.keepStatus.runOn h = (.ok (), kept) → ∀ outcome entered,
          (Host.writeText (leaf.path.child ControlFile.processes) "0").runOn kept =
            (outcome, entered) →
          match outcome with
          | .error _ => ((attachMain words).runOn h).1 ≠ .ok .executed ∧
              ((attachMain words).runOn h).2.executions = h.executions
          | .ok () => ((attachMain words).runOn h).1 =
                (match h.executionFault, unpassable? command.executed with
                | some _, _ => .ok (.exited executionFailedCode)
                | none, some cause => .error (.invalid cause)
                | none, none => .ok .executed) ∧
              ((attachMain words).runOn h).2.executions = h.executions ++ [command.executed] ∧
              ((attachMain words).runOn h).2.tree = entered.tree := by
  have hgiven : words = statusWords status ++ leaf.path.text :: command.words := by
    rw [helperCommand, List.append_assoc, List.append_assoc] at hwords
    simpa using (List.append_cancel_left hwords).symm
  have hhead : leaf.path.text.toList.head? = some '/' := by
    rw [← not_ne_iff, ← Path.leadingSlashes_eq_zero_iff, Path.leadingSlashes_text]
    simpa [Path.isAbsolute] using habsolute
  have hread := AttachRequest.read_words hstatus hhead hunambiguous hexecuted
  rw [← hgiven] at hread
  obtain ⟨request, hrequest⟩ :
    ∃ r : AttachRequest, r = ⟨status, leaf.path.text, command.executed⟩ := ⟨_, rfl⟩
  have hgroup : ∀ h, request.groupOn h = leaf.path := by
    rw [hrequest]
    exact AttachRequest.groupOn_text habsolute _ _
  rw [← hrequest] at hread
  have hmain : attachMain words = attach request := by
    rw [attachMain, hread]
  refine ⟨Command.executed_eq_words, request, hread, by rw [hrequest], by rw [hrequest], hgroup,
    fun h => ⟨fun failure t hkeep => ?_, fun kept hkeep outcome entered henter => ?_⟩⟩
  · rw [hmain, attach, Action.runOn_bind_error hkeep]
  · rw [← hgroup kept] at henter
    have henter' : request.enter.runOn kept = (outcome, entered) := by
      rw [AttachRequest.enter, Action.runOn_bind_ok (Action.runOn_get kept), henter]
    rw [hmain]
    cases outcome with
    | error failure => exact not_executed_of_enter hkeep henter'
    | ok _ =>
      obtain ⟨v, hexecutions, htree, hrun⟩ := runOn_attach_entered hkeep henter'
      rw [hrequest] at hexecutions
      have hcommand : request.command = command.executed := by rw [hrequest]
      rw [hcommand] at hrun
      cases hfault : h.executionFault with
      | none =>
        rw [hfault] at hrun
        rw [hrun.1]
        refine ⟨?_, hexecutions, htree⟩
        cases unpassable? command.executed <;> rfl
      | some fault =>
        rw [hfault] at hrun
        rw [hrun.1]
        exact ⟨rfl, hexecutions, htree⟩

/-- A leaf. -/
def Leaf.entered : Leaf :=
  { path := .read "/g", limit := 5 }

/-- A command whose words look like options of the helper. -/
def Command.optionLike : Command :=
  { words := ["--status-fd", "9", "-h", "--", "--=x"] }

/-- A host with a group and a pipe. -/
def Host.withPipe : Host :=
  { tree := ⟨[(["g"], .directory)]⟩
    descriptors := [{ number := 4, writable := true, inherited := true }] }

/-- Words that look like options of the helper reach the command. -/
theorem attachMain_helperCommand_optionLike :
    Command.optionLike.Unambiguous ∧
    ((attachMain ["--status-fd", "4", "/g", "--status-fd", "9", "-h", "--", "--=x"]).runOn
      Host.withPipe).2.executions = [["--status-fd", "9", "-h", "--", "--=x"]] := by
  have hunambiguous : Command.optionLike.Unambiguous := by
    rw [Command.Unambiguous]
    decide
  refine ⟨hunambiguous, ?_⟩
  obtain ⟨-, request, -, hstatus, -, -, hmain⟩ := attachMain_helperCommand {} "python"
    Command.optionLike Leaf.entered (some 4)
    ["--status-fd", "4", "/g", "--status-fd", "9", "-h", "--", "--=x"] (by decide)
    rfl
    (by simp; decide) hunambiguous (by decide)
  have hkeep : request.keepStatus.runOn Host.withPipe =
      (.ok (), ((closeOnExecution 4).runOn Host.withPipe).2) := by
    rw [AttachRequest.keepStatus, hstatus]
    exact Prod.ext (by decide +kernel) rfl
  have hentered := (hmain Host.withPipe).2 _ hkeep (.ok ()) _ (Prod.ext (by decide +kernel) rfl)
  exact hentered.2.1

/-- Where the helper does not execute just what it was given: a divider before a command is dropped, an
equals sign behind two dashes is ambiguous, a pipe that is not open cannot be kept, and a number can
be too long to be read. -/
theorem attachMain_helperCommand_ne_words :
    AttachRequest.read ((helperCommand {} "python" { words := ["--", "true"] } .entered none).drop 3) =
      .ok ⟨none, "/g", ["true"]⟩ ∧
    AttachRequest.read
        ((helperCommand {} "python" { words := ["echo", "--=x"] } .entered none).drop 3) =
      .error (.misuse "cgexec" (.ambiguous "--=x" ["--help", "--status-fd"])) ∧
    ((attachMain ((helperCommand {} "python" { words := ["true"] } .entered (some 5)).drop 3)).runOn
      Host.withPipe).1 = .error (.os (.ofCode OsFault.badDescriptor)) ∧
    AttachRequest.read ((helperCommand {} "python" { words := ["true"] } .entered
        (some (10 ^ maxNumeralDigits))).drop 3) =
      .error (.misuse "cgexec"
        (.argument "--status-fd" (.invalidValue "int" (integerText (10 ^ maxNumeralDigits))))) := by
  refine ⟨by decide +kernel, by decide +kernel, by decide +kernel, ?_⟩
  -- the number is never computed
  obtain ⟨n, hn⟩ : ∃ n : ℤ, n = 10 ^ maxNumeralDigits := ⟨_, rfl⟩
  have hlong : maxNumeralDigits < digitCount n.natAbs := by
    rw [hn, ← not_le, digitCount_le_iff (by decide), Int.natAbs_pow,
      show (10 : ℤ).natAbs = 10 from rfl]
    exact lt_irrefl _
  have hnonneg : 0 ≤ n := by
    rw [hn]
    positivity
  rw [← hn]
  have hwords : CommandLine.classify AttachRequest.grammar.options ["/g", "true"] =
      .ok [.word "/g", .word "true"] := rfl
  exact AttachRequest.read_words_of_long hnonneg hlong hwords

end MemoryLimit
