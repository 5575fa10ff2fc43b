import MemoryLimit.Path

/-!
# Texts of paths

The text of a path is read back name by name, because what stands between its slashes are names. So a
name that is appended to the text is a step below the path.

## Main definitions

* `Path.IsStart` — a path without some of its last names.

## Main statements

* `Path.namesIn_text` — the text of a path has its names.
* `Path.read_text` — a path is read as it is written.
* `Path.read_appendName` — a name appended as text is a step below the path.
-/
namespace MemoryLimit.Path

variable {p : Path} {name : String}

@[simp] theorem names_read (text : String) : (read text).names = namesIn text.toList := rfl

@[simp] theorem names_parent (p : Path) : p.parent.names = p.names.dropLast := rfl

@[simp] theorem isAbsolute_parent (p : Path) : p.parent.isAbsolute = p.isAbsolute := rfl

/-! ## Beginnings of a path -/

/-- The first path is the second one, or what is left of it without some of its last names. -/
structure IsStart (q p : Path) : Prop where
  slashes : q.slashes = p.slashes
  names : q.names <+: p.names

theorem IsStart.refl (p : Path) : p.IsStart p :=
  ⟨rfl, List.prefix_refl _⟩

theorem IsStart.parent {q : Path} (h : q.IsStart p) : q.parent.IsStart p :=
  ⟨h.slashes, (List.dropLast_prefix _).trans h.names⟩

theorem IsStart.isAbsolute_eq {q : Path} (h : q.IsStart p) : q.isAbsolute = p.isAbsolute := by
  rw [isAbsolute, h.slashes, isAbsolute]

/-! ## Splitting at slashes -/

theorem splitFrom_append (mark : Char) (s rest piece : List Char) :
    splitFrom mark (s ++ mark :: rest) piece =
      splitFrom mark s piece ++ splitFrom mark rest [] := by
  induction s generalizing piece with
  | nil => simp [splitFrom]
  | cons c s ih =>
    rw [List.cons_append, splitFrom, splitFrom]
    split
    · rw [ih]
      rfl
    · exact ih _

theorem splitFrom_of_not_mem {mark : Char} {s : List Char} (hs : mark ∉ s) (piece : List Char) :
    splitFrom mark s piece = [piece.reverse ++ s] := by
  induction s generalizing piece with
  | nil => simp [splitFrom]
  | cons c s ih =>
    rw [List.mem_cons, not_or] at hs
    rw [splitFrom, if_neg (Ne.symm hs.1), ih hs.2]
    simp

theorem namesIn_append (s rest : List Char) :
    namesIn (s ++ '/' :: rest) = namesIn s ++ namesIn rest := by
  rw [namesIn, splitFrom_append, List.map_append, List.filter_append]
  rfl

@[simp] theorem namesIn_nil : namesIn [] = [] := by decide

theorem namesIn_cons_slash (s : List Char) : namesIn ('/' :: s) = namesIn s :=
  namesIn_append [] s

theorem namesIn_replicate_append (k : Nat) (s : List Char) :
    namesIn (List.replicate k '/' ++ s) = namesIn s := by
  induction k with
  | zero => simp
  | succ k ih =>
    rw [List.replicate_succ, List.cons_append, namesIn_cons_slash]
    exact ih

theorem namesIn_toList (hname : IsName name) : namesIn name.toList = [name] := by
  rw [namesIn, splitFrom_of_not_mem hname.no_slash]
  simp [hname.ne_empty, hname.ne_dot]

/-- Names with slashes between them are split into the same names. -/
theorem namesIn_intercalate {names : List String} (hnames : ∀ name ∈ names, IsName name) :
    namesIn (String.intercalate "/" names).toList = names := by
  rw [String.toList_intercalate]
  induction names with
  | nil => simp
  | cons first rest ih =>
    have hrest := ih fun name hname => hnames name (List.mem_cons_of_mem _ hname)
    have hfirst := namesIn_toList (hnames first (by simp))
    cases rest with
    | nil => simpa using hfirst
    | cons second rest =>
      rw [List.map_cons, List.map_cons, List.intercalate_cons_cons, List.append_assoc,
        show "/".toList = ['/'] from rfl, List.singleton_append, namesIn_append, hfirst]
      rw [← List.map_cons]
      exact congrArg (first :: ·) hrest

/-! ## Appending a name to a text -/

theorem leadingSlashes_eq_zero_iff {s : List Char} :
    leadingSlashes s = 0 ↔ s.head? ≠ some '/' := by
  unfold leadingSlashes
  split
  · simp
  · simp
  · simp
  · rename_i hnot
    cases s with
    | nil => simp
    | cons c s =>
      have hc : c ≠ '/' := by
        rintro rfl
        exact hnot s rfl
      simp [hc]

/-- A name begins with no slash. -/
theorem leadingSlashes_of_isName (hname : IsName name) : leadingSlashes name.toList = 0 := by
  rw [leadingSlashes_eq_zero_iff]
  exact fun hhead => hname.no_slash (List.mem_of_head? hhead)

/-- Slashes before something else are the leading ones, if they are two at the most. -/
theorem leadingSlashes_replicate_append {k : Nat} {s : List Char} (hk : k ≤ 2)
    (hs : s.head? ≠ some '/') : leadingSlashes (List.replicate k '/' ++ s) = k := by
  have hs' : ∀ rest, s ≠ '/' :: rest := by
    rintro rest rfl
    simp at hs
  match k, hk with
  | 0, _ => simpa [leadingSlashes_eq_zero_iff] using hs
  | 1, _ =>
    cases s with
    | nil => rfl
    | cons c s =>
      have hc : c ≠ '/' := by
        rintro rfl
        exact hs' s rfl
      simp [leadingSlashes, hc]
  | 2, _ =>
    cases s with
    | nil => rfl
    | cons c s =>
      have hc : c ≠ '/' := by
        rintro rfl
        exact hs' s rfl
      simp [List.replicate_succ, leadingSlashes]

/-- The text of a path is its names with slashes between them, after its leading slashes. -/
theorem toList_text (hp : p.slashes ≠ 0 ∨ p.names ≠ []) :
    p.text.toList = List.replicate p.slashes '/' ++ (String.intercalate "/" p.names).toList := by
  have hdot : (decide (p.slashes = 0) && p.names.isEmpty) = false := by
    rcases hp with hslashes | hnames
    · simp [hslashes]
    · simp [hnames]
  simp [text, hdot]

theorem text_of_empty (hslashes : p.slashes = 0) (hnames : p.names = []) : p.text = "." := by
  simp [text, hslashes, hnames]

/-- **The text of a path has its names.** -/
theorem namesIn_text (p : Path) : namesIn p.text.toList = p.names := by
  by_cases hempty : p.slashes = 0 ∧ p.names = []
  · rw [text_of_empty hempty.1 hempty.2, hempty.2]
    decide
  · rw [Decidable.not_and_iff_not_or_not] at hempty
    rw [toList_text hempty, namesIn_replicate_append, namesIn_intercalate p.isName]

/-- Names begin with no slash. -/
theorem head?_intercalate_append {first : String} {rest : List String} (hfirst : IsName first)
    (s : List Char) : ((String.intercalate "/" (first :: rest)).toList ++ s).head? ≠ some '/' := by
  have hhead : ∀ s : List Char, (first.toList ++ s).head? ≠ some '/' := by
    intro s
    cases hlist : first.toList with
    | nil => exact absurd (String.toList_eq_nil_iff.1 hlist) hfirst.ne_empty
    | cons c more =>
      have hslash := hfirst.no_slash
      rw [hlist, List.mem_cons, not_or] at hslash
      simpa using Ne.symm hslash.1
  rw [String.toList_intercalate, List.map_cons]
  cases rest with
  | nil => simpa using hhead s
  | cons second rest =>
    rw [List.map_cons, List.intercalate_cons_cons, List.append_assoc, List.append_assoc]
    exact hhead _

/-- The text of a path begins with as many slashes as the path. -/
theorem leadingSlashes_text (p : Path) : leadingSlashes p.text.toList = p.slashes := by
  by_cases hempty : p.slashes = 0 ∧ p.names = []
  · rw [text_of_empty hempty.1 hempty.2, hempty.1]
    decide
  · rw [Decidable.not_and_iff_not_or_not] at hempty
    rw [toList_text hempty]
    apply leadingSlashes_replicate_append p.slashes_le
    cases hnames : p.names with
    | nil => simp
    | cons first rest =>
      have hfirst := p.isName first (by simp [hnames])
      simpa using head?_intercalate_append hfirst []

/-- **A path is read as it is written.** -/
theorem read_text (p : Path) : read p.text = p :=
  Path.ext (leadingSlashes_text p) (namesIn_text p)

/-- The text of a path with a relative name appended has the names of both. -/
theorem namesIn_appendName (hname : name.toList.head? ≠ some '/') :
    namesIn (p.appendName name).toList = namesIn p.text.toList ++ namesIn name.toList := by
  rw [appendName, if_neg hname]
  dsimp only
  split
  · rename_i hlast
    obtain ⟨s, hs⟩ := List.getLast?_eq_some_iff.1 hlast
    rw [String.toList_append, hs, List.append_assoc, List.singleton_append, namesIn_append,
      namesIn_append, namesIn_nil, List.append_nil]
  · rw [String.toList_append, String.toList_append, List.append_assoc]
    exact namesIn_append _ _

/-- The text of a path with a relative name appended begins with as many slashes as the path. -/
theorem leadingSlashes_appendName (p : Path) (hname : name.toList.head? ≠ some '/') :
    leadingSlashes (p.appendName name).toList = p.slashes := by
  rw [appendName, if_neg hname]
  dsimp only
  cases hnames : p.names with
  | nil =>
    by_cases hslashes : p.slashes = 0
    · rw [text_of_empty hslashes hnames, hslashes, if_neg (by decide), leadingSlashes_eq_zero_iff]
      simp
    · have htext : p.text.toList = List.replicate p.slashes '/' := by
        rw [toList_text (.inl hslashes), hnames]
        simp
      have hlast : p.text.toList.getLast? = some '/' := by
        rw [htext, List.getLast?_replicate, if_neg hslashes]
      rw [if_pos hlast, String.toList_append, htext]
      exact leadingSlashes_replicate_append p.slashes_le hname
  | cons first rest =>
    have hfirst := p.isName first (by simp [hnames])
    have htext := toList_text (p := p) (.inr (by simp [hnames]))
    have hmore : ∀ s : List Char, leadingSlashes (p.text.toList ++ s) = p.slashes := by
      intro s
      rw [htext, hnames, List.append_assoc]
      exact leadingSlashes_replicate_append p.slashes_le (head?_intercalate_append hfirst s)
    split
    · rw [String.toList_append]
      exact hmore _
    · rw [String.toList_append, String.toList_append, List.append_assoc]
      exact hmore _

/-- **A name appended as text** is a step below the path, or a path of its own if it is
absolute. -/
theorem read_appendName (p : Path) (name : String) :
    read (p.appendName name) = p.child name := by
  by_cases habsolute : name.toList.head? = some '/'
  · have hslashes : leadingSlashes name.toList ≠ 0 := by
      rw [ne_eq, leadingSlashes_eq_zero_iff]
      simp [habsolute]
    rw [appendName, if_pos habsolute, child, join, if_pos]
    exact decide_eq_true hslashes
  · have hslashes := leadingSlashes_eq_zero_iff.2 habsolute
    have hrelative : ¬ (read name).isAbsolute = true := by simp [isAbsolute, read, hslashes]
    rw [child, join, if_neg hrelative]
    refine Path.ext (leadingSlashes_appendName p habsolute) ?_
    change namesIn (p.appendName name).toList = p.names ++ namesIn name.toList
    rw [namesIn_appendName habsolute, namesIn_text]

end MemoryLimit.Path
