import MemoryLimit.Proofs.Group.Delegation
import MemoryLimit.Proofs.Path

/-!
# Making a leaf

A leaf is made with its limits written, or not at all. Making one is a row of steps that may all
fail: what the last of them have made is taken away again, so that at most the directory of our
groups stays behind, and where there is nothing to make a leaf in, nothing changes at all.

## Main definitions

* `Leaf.MadeIn` — what a leaf has that was made.

## Main statements

* `Host.MakesFresh.removed` — a directory that was made and removed again leaves no trace.
* `Leaf.create_cases` — the two ways in which making a leaf ends.
* `Leaf.create_all_or_nothing` — a leaf is made as a whole, or nothing stays behind.
-/
namespace MemoryLimit

open MemoryLimit.Action (Keeps)
open MemoryLimit.Host (Unobserving)

variable {h t u : Host} {settings : Settings}

/-! ## Made and removed again -/

/-- No directory lies in a fresh one, unless it was made there. -/
theorem Host.MakesFresh.not_directory {p : Path} {new touched : Place → Prop}
    (hwell : h.tree.WellFormed) (hfresh : h.MakesFresh p t) (hgrows : t.Grows new touched u) {q : Place}
    (hq : Place.IsBelow q (p.placeFrom h.directory)) (hnew : ¬ new q) :
    u.tree.get? q ≠ some .directory := by
  intro hdirectory
  rcases hgrows.tree.new_of_directory q hdirectory with hold | h'
  · rcases hfresh.grows.tree.new_of_directory q hold with hbefore | hat
    · have habove := hwell.get?_of_isBelow hq hbefore
      rw [hfresh.free] at habove
      cases habove
    · exact hq.2 hat
  · exact hnew h'

/-- **A directory that was made and removed again leaves no trace**, if no other was made in it. -/
theorem Host.MakesFresh.removed {p : Path} {new touched : Place → Prop}
    (hwell : h.tree.WellFormed) (hworks : h.RemovalsWork) (hfresh : h.MakesFresh p t)
    (hgrows : t.Grows new touched u)
    (hnew : ∀ q, Place.IsBelow q (p.placeFrom h.directory) → ¬ new q) :
    ∃ v, (Leaf.removeAndReport p).runOn u = (.ok (), v) ∧ h.Evolves (Tree.Adds new) v := by
  have hsame : u.directory = h.directory := hgrows.directory_eq.trans hfresh.grows.directory_eq
  have huwell : u.tree.WellFormed :=
    hgrows.tree.wellFormed (hfresh.grows.tree.wellFormed hwell)
  have hadds : h.tree.Adds (fun q => new q ∨ q = p.placeFrom h.directory) u.tree :=
    (hfresh.grows.tree.toAdds.mono fun _ => .inr).trans (hgrows.tree.toAdds.mono fun _ => .inl)
  obtain ⟨v, hremove, hgone⟩ := runOn_removeAndReport
    ((hworks.of_evolves hfresh.grows).of_evolves hgrows) huwell
    (hfresh.has.directory_of_grows hgrows) hfresh.endsInName
    (by
      rw [hsame]
      exact fun q hq => hfresh.not_directory hwell hgrows hq (hnew q hq))
  have hloses : u.Evolves (Tree.Loses (p.placeFrom u.directory)) v :=
    (keeps_removeAndReport (Host.unobserving_evolves _ u) (Host.allowsRemoval_loses u p)).after hremove
      (.refl (.refl _ _))
  rw [hsame] at hloses hgone
  exact ⟨v, hremove, (hfresh.grows.comp hgrows hadds).comp hloses
    (hadds.of_loses hloses.tree hwell hfresh.free hgone)⟩

/-! ## Writing the limits -/

namespace Leaf

variable {leaf leaf' : Leaf}

/-- A text that was written to a control file is there, also after it was read back. -/
theorem writeText_eq_ok {name value : String} {check : Bool} (hfaults : h.FaultsOnly)
    (hrun : (writeText name value check).runOn (h, leaf) = (.ok (), (t, leaf'))) :
    t.Has (leaf.path.child name) (.file value.toUTF8) := by
  rw [writeText, Action.runOn_bind_ok (runOn_self h leaf)] at hrun
  split at hrun
  · cases hrun
  obtain ⟨hwrite, -⟩ := onHost_eq_iff.1 hrun
  split at hwrite
  · obtain ⟨_, u, hvalue, hcheck⟩ := Action.runOn_bind_eq_ok.1 hwrite
    obtain ⟨text, v, hread, hcompare⟩ := Action.runOn_bind_eq_ok.1 hcheck
    have hsame := Host.sameGround_of_keeps (fun _ hP => Host.keeps_readText hP.unobserving _)
      (Action.onFault_throw_eq_ok hread)
    have hend : t = v := by
      dsimp only at hcompare
      split at hcompare
      · cases hcompare
      · cases hcompare
        rfl
    rw [hend]
    exact (writeValue_eq_ok hfaults hvalue).of_sameGround hsame
  · exact writeValue_eq_ok hfaults hwrite

theorem writeNumber_eq_ok {name : String} {value : Int} {check : Bool} (hfaults : h.FaultsOnly)
    (hrun : (writeNumber name value check).runOn (h, leaf) = (.ok (), (t, leaf'))) :
    t.Has (leaf.path.child name) (.file (integerText value).toUTF8) := by
  rw [writeNumber, Action.runOn_bind_ok (runOn_self h leaf)] at hrun
  split at hrun
  · cases hrun
  split at hrun
  · rename_i text hvalue
    rw [writeInteger] at hvalue
    split at hvalue
    · cases hvalue
    · cases hvalue
      exact writeText_eq_ok hfaults hrun
  · cases hrun

/-- Writing to a control file of a leaf changes nothing else. -/
theorem grows_writeNumber {name : String} {value : Int} {check : Bool}
    {outcome : Except Failure Unit} (hname : IsFileName name)
    (hrun : (writeNumber name value check).runOn (h, leaf) = (outcome, (t, leaf'))) :
    h.Grows (fun _ => False) (fun q => q = (leaf.path.child name).placeFrom h.directory) t := by
  let P := h.Grows (fun _ => False) fun q => q = (leaf.path.child name).placeFrom h.directory
  have hP : Unobserving P := Host.unobserving_evolves _ h
  have hwrite : Keeps (Held P leaf) (writeNumber name value check) :=
    keeps_writeNumber hP (Host.allowsWriting (Path.leads_child_of_isFileName hname) rfl) value check
  exact (hwrite.after hrun ⟨.refl _ _ h, rfl⟩).1

/-- The places of the files that hold the limits of a leaf. -/
def HoldsLimit (leaf : Leaf) (h : Host) (place : Place) : Prop :=
  place = (leaf.path.child ControlFile.memoryMax).placeFrom h.directory ∨
    place = (leaf.path.child ControlFile.swapMax).placeFrom h.directory

/-- Files of different names are at different places. -/
theorem concat_ne_concat {first second : Place} {x y : String} (hne : x ≠ y) :
    first ++ [x] ≠ second ++ [y] := by
  intro heq
  have hlast := congrArg List.getLast? heq
  simp [hne] at hlast

/-- No other file holds a limit. -/
theorem not_holdsLimit {place : Place} {name : String} (hmax : name ≠ ControlFile.memoryMax)
    (hswap : name ≠ ControlFile.swapMax) : ¬ HoldsLimit leaf h (place ++ [name]) := by
  rintro (hat | hat)
  · rw [Path.placeFrom_child ControlFile.isFileName_memoryMax] at hat
    exact concat_ne_concat hmax hat
  · rw [Path.placeFrom_child ControlFile.isFileName_swapMax] at hat
    exact concat_ne_concat hswap hat

/-- **Writing the limits of a leaf** changes nothing but their files; if that fails, the leaf is
removed. -/
theorem setLimits_cases {limit : Nat} {outcome : Except Failure Unit}
    (hleaf : leaf.destroyed = false)
    (hrun : (setLimits limit).runOn (h, leaf) = (outcome, (t, leaf'))) :
    (∃ failure u, outcome = .error failure ∧
      h.Grows (fun _ => False) (HoldsLimit leaf h) u ∧
      ((removeAndReport leaf.path).runOn u).2 = t) ∨
    (outcome = .ok () ∧ leaf' = leaf ∧ h.Grows (fun _ => False) (HoldsLimit leaf h) t ∧
      ∃ u, (writeNumber ControlFile.memoryMax limit).runOn (h, leaf) = (.ok (), (u, leaf)) ∧
        (writeNumber ControlFile.swapMax 0 true).runOn (u, leaf) = (.ok (), (t, leaf))) := by
  let P := h.Grows (fun _ => False) (HoldsLimit leaf h)
  have hP : Unobserving P := Host.unobserving_evolves _ h
  have hmax : Keeps (Held P leaf) (writeNumber ControlFile.memoryMax limit) := by
    apply keeps_writeNumber hP
    apply Host.allowsWriting
    · exact Path.leads_child_of_isFileName ControlFile.isFileName_memoryMax
    · exact .inl rfl
  have hswap : Keeps (Held P leaf) (writeNumber ControlFile.swapMax 0 true) := by
    apply keeps_writeNumber hP
    apply Host.allowsWriting
    · exact Path.leads_child_of_isFileName ControlFile.isFileName_swapMax
    · exact .inr rfl
  have hstart : Held P leaf (h, leaf) := ⟨.refl _ _ h, rfl⟩
  rw [setLimits, Action.runOn_tryCatch] at hrun
  split at hrun
  · rename_i u hwritten
    cases hrun
    obtain ⟨_, ⟨v, leaf''⟩, hfirst, hsecond⟩ := Action.runOn_bind_eq_ok.1 hwritten
    obtain ⟨-, hsame⟩ := hmax.after hfirst hstart
    cases hsame
    obtain ⟨hgrown, hlast⟩ := hswap.after hsecond (hmax.after hfirst hstart)
    cases hlast
    exact .inr ⟨rfl, rfl, hgrown, v, hfirst, hsecond⟩
  · rename_i failure s hwritten
    obtain ⟨u, leaf''⟩ := s
    obtain ⟨hgrown, hsame⟩ := (hmax.bind fun _ => hswap).after hwritten hstart
    cases hsame
    rcases Action.runOn_bind_cases hrun with ⟨other, hdestroy, rfl⟩ | ⟨_, s, hdestroy, hthrow⟩
    · rw [runOn_destroy, hleaf, if_neg (by simp), Prod.mk.injEq, Prod.mk.injEq] at hdestroy
      exact .inl ⟨other, u, rfl, hgrown, hdestroy.2.1⟩
    · rw [runOn_destroy, hleaf, if_neg (by simp)] at hdestroy
      cases hthrow
      rw [Prod.mk.injEq, Prod.mk.injEq] at hdestroy
      exact .inl ⟨failure, u, rfl, hgrown, hdestroy.2.1⟩

/-- Limits that were written are in their files. -/
theorem has_of_setLimits {limit : Nat} (hleaf : leaf.destroyed = false) (hfaults : h.FaultsOnly)
    (hrun : (setLimits limit).runOn (h, leaf) = (.ok (), (t, leaf'))) :
    t.Has (leaf.path.child ControlFile.memoryMax) (.file (integerText limit).toUTF8) ∧
      t.Has (leaf.path.child ControlFile.swapMax) (.file "0".toUTF8) := by
  rcases setLimits_cases hleaf hrun with ⟨_, _, hfail, -⟩ | ⟨-, rfl, -, u, hmax, hswap⟩
  · cases hfail
  constructor
  · -- the limit is still there after the limit of the swap space was written
    apply (writeNumber_eq_ok hfaults hmax).of_grows
      (grows_writeNumber ControlFile.isFileName_swapMax hswap)
    rw [Path.placeFrom_child ControlFile.isFileName_memoryMax,
      Path.placeFrom_child ControlFile.isFileName_swapMax]
    exact concat_ne_concat (by decide)
  · have hgrows := grows_writeNumber ControlFile.isFileName_memoryMax hmax
    exact writeNumber_eq_ok (hfaults.of_evolves hgrows) hswap

/-! ## Making a leaf -/

theorem check_eq_ok {limit : Limit} {n : Nat} (hcheck : limit.check = .ok n) :
    limit = .bytes n := by
  cases limit with
  | other shown => cases hcheck
  | bytes value =>
    rw [Limit.check] at hcheck
    split at hcheck
    · rename_i hvalue
      cases hcheck
      rw [Int.toNat_of_nonneg hvalue]
    · split at hcheck
      · cases hcheck
      · cases hcheck

/-- **What becomes of a fresh directory for a leaf**: it is removed again, and leaves no trace, or the
limits of the leaf are written. -/
theorem limitsWritten_cases (leaf : Leaf) {n : Nat} {outcome : Except Failure Leaf}
    (hleaf : leaf.destroyed = false) (hfresh : h.MakesFresh leaf.path u)
    (hrun : (do
      let ((), leaf') ← Action.withSecond leaf (setLimits n)
      Host.report (.groupCreated leaf.path.text n)
      return leaf').runOn u = (outcome, t)) :
    (∃ failure, outcome = .error failure ∧ (h.tree.WellFormed → h.RemovalsWork →
      h.Evolves (Tree.Adds fun _ => False) t)) ∨
    outcome = .ok leaf ∧ ∃ v, (setLimits n).runOn (u, leaf) = (.ok (), (v, leaf)) ∧
      v.SameGround t := by
  rw [Action.runOn_bind, Action.runOn_withSecond] at hrun
  cases hset : (setLimits n).runOn (u, leaf) with
  | mk ended s =>
    obtain ⟨v, leaf'⟩ := s
    rw [hset] at hrun
    rcases setLimits_cases hleaf hset with
      ⟨failure, w, rfl, hwritten, hremoved⟩ | ⟨rfl, rfl, hwritten, -⟩
    · -- the limits were refused, so the leaf was removed again
      cases hrun
      refine .inl ⟨failure, rfl, fun hwell hworks => ?_⟩
      obtain ⟨x, hremove, hadds⟩ := hfresh.removed hwell hworks hwritten (fun _ _ => id)
      rw [hremove] at hremoved
      cases hremoved
      exact hadds
    · simp only [Except.map, Action.runOn_bind, Host.report, Action.runOn_modify,
        Action.runOn_pure] at hrun
      cases hrun
      exact .inr ⟨rfl, v, rfl, rfl, rfl, rfl, fun d hd => ⟨d, hd, rfl, rfl⟩⟩

/-- **The two ways in which making a leaf ends**: either nothing is left of it but the directory of
our groups, or the directory was ready, a fresh one was made in it, and the limits were written. -/
theorem create_cases {limit : Limit} {outcome : Except Failure Leaf}
    (hrun : (create settings limit).runOn h = (outcome, t)) :
    (∃ failure, outcome = .error failure ∧ (h.tree.WellFormed → h.RemovalsWork →
      h.Evolves (Tree.Adds fun q => q = (settings.parentOn h).placeFrom h.directory) t)) ∨
    ∃ (n : Nat) (parent : Path) (count : Nat) (u v : Host) (leaf : Leaf), outcome = .ok leaf ∧
      limit = .bytes n ∧ (prepareParent settings).runOn h = (.ok parent, u) ∧
      leaf = ⟨Host.freshPath parent settings.groupDirectory count, n, false⟩ ∧
      u.MakesFresh leaf.path v ∧
      ∃ w, (setLimits n).runOn (v, leaf) = (.ok (), (w, leaf)) ∧ w.SameGround t := by
  rw [create] at hrun
  rcases Action.runOn_bind_cases hrun with ⟨failure, hcheck, rfl⟩ | ⟨n, h', hcheck, hprepare⟩
  · rw [Action.runOn_liftM, Prod.mk.injEq] at hcheck
    refine .inl ⟨failure, rfl, fun _ _ => ?_⟩
    rw [← hcheck.2]
    exact .refl (.refl _ _)
  rw [Action.runOn_liftM, Prod.mk.injEq] at hcheck
  obtain ⟨hlimit, rfl⟩ := hcheck
  rcases Action.runOn_bind_cases hprepare with ⟨failure, hparent, rfl⟩ | ⟨parent, u, hparent, hmakes⟩
  · exact .inl ⟨failure, rfl, fun _ _ => (prepareParent_grows hparent).adds⟩
  have hgrown := prepareParent_grows hparent
  rcases Action.runOn_bind_cases hmakes with ⟨failure, hmake, rfl⟩ | ⟨path, v, hmake, hlimits⟩
  · refine .inl ⟨failure, rfl, fun _ _ => ?_⟩
    obtain ⟨cause, hfail⟩ := Action.onFault_throw_eq_error hmake
    rcases Host.makeFreshDirectory_cases hfail with ⟨_, -, hsame⟩ | ⟨count, hok, -⟩
    · exact (hgrown.trans (.of_eq hsame)).adds
    · cases hok
  rcases Host.makeFreshDirectory_cases (Action.onFault_throw_eq_ok hmake) with
    ⟨_, hfail, -⟩ | ⟨count, hpath, hfresh⟩
  · cases hfail
  cases hpath
  let leaf : Leaf := ⟨Host.freshPath parent settings.groupDirectory count, n, false⟩
  rcases limitsWritten_cases leaf rfl hfresh hlimits with
    ⟨failure, rfl, hremoved⟩ | ⟨rfl, hwritten⟩
  · refine .inl ⟨failure, rfl, fun hwell hworks => hgrown.adds.trans (fun _ _ _ => Tree.Adds.trans) ?_⟩
    have hadds := hremoved (hgrown.tree.wellFormed hwell) (hworks.of_evolves hgrown)
    exact hadds.mono fun _ _ hnone => hnone.mono fun _ => False.elim
  · exact .inr ⟨n, parent, count, u, v, leaf, rfl, check_eq_ok hlimit, hparent, rfl, hfresh,
      hwritten⟩

/-- What a leaf has that was made: a new directory with a name of its own in the directory of our
groups, which has been told to let its groups have limits, and the limits in its files. -/
structure MadeIn (settings : Settings) (h : Host) (limit : Nat) (leaf : Leaf) (t : Host) :
    Prop where
  limit_eq : leaf.limit = limit
  alive : leaf.destroyed = false
  named : ∃ count, leaf.path =
    (settings.parentOn h).child (settings.groupDirectory ++ Host.freshSuffix count)
  fresh : ¬ ∃ node, h.Has leaf.path node
  directory : t.Has leaf.path .directory
  memoryMax : t.Has (leaf.path.child ControlFile.memoryMax) (.file (integerText limit).toUTF8)
  swapMax : t.Has (leaf.path.child ControlFile.swapMax) (.file "0".toUTF8)
  control : t.Has ((settings.parentOn h).child ControlFile.subtreeControl)
    (.file "+memory".toUTF8)
  controllers : ∀ bytes, t.Has ((settings.parentOn h).child ControlFile.controllers) (.file bytes) →
    ListsMemory bytes

/-- Nothing was at the path of a leaf before it was made. -/
theorem not_has_of_create {limit : Limit} {leaf : Leaf}
    (hrun : (create settings limit).runOn h = (.ok leaf, t)) : ¬ ∃ node, h.Has leaf.path node := by
  rcases create_cases hrun with ⟨_, hfail, -⟩ |
    ⟨n, parent, count, u, v, made, hok, -, hprepare, -, hfresh, -⟩
  · cases hfail
  cases hok
  have hgrown := prepareParent_grows hprepare
  rintro ⟨node, hhas⟩
  apply hgrown.tree.nodes _ _ (hgrown.directory_eq ▸ hfresh.free)
  simp [hhas.get?]

/-- A leaf that is returned was made as a whole. -/
theorem madeIn_of_create {limit : Limit} {leaf : Leaf} (hfaults : h.FaultsOnly)
    (hrun : (create settings limit).runOn h = (.ok leaf, t)) :
    ∃ n : Nat, limit = .bytes n ∧ MadeIn settings h n leaf t := by
  rcases create_cases hrun with ⟨_, hfail, -⟩ |
    ⟨n, parent, count, u, v, made, hok, hlimit, hprepare, hmade, hfresh, w, hset, hsame⟩
  · cases hfail
  cases hok
  refine ⟨n, hlimit, ?_⟩
  -- the directory of our groups was ready, and the leaf was made in it
  have hgrown := prepareParent_grows hprepare
  obtain ⟨rfl, hparent, hcontrol, hlist⟩ := prepareParent_eq_ok hfaults hprepare
  have hvfaults : v.FaultsOnly := (hfaults.of_evolves hgrown).of_evolves hfresh.grows
  have halive : leaf.destroyed = false := by rw [hmade]
  obtain ⟨hmax, hswap⟩ := has_of_setLimits halive hvfaults hset
  rcases setLimits_cases halive hset with ⟨_, _, hfail, -⟩ | ⟨-, -, hwritten, -⟩
  · cases hfail
  have hlater : u.Grows (fun q => q = leaf.path.placeFrom u.directory)
      (fun q => q = leaf.path.placeFrom u.directory ∨ HoldsLimit leaf v q) t :=
    ((hfresh.grows.mono (fun _ => id) fun _ => .inl).trans
      (hwritten.mono (fun _ => False.elim) fun _ => .inr)).trans (.of_eq hsame)
  have hdirectory : t.Has leaf.path .directory :=
    (hfresh.has.directory_of_grows hwritten).of_sameGround hsame
  constructor
  · rw [hmade]
  · exact halive
  · refine ⟨count, ?_⟩
    rw [hmade]
    exact Path.read_appendName _ _
  · exact not_has_of_create hrun
  · exact hdirectory
  · exact hmax.of_sameGround hsame
  · exact hswap.of_sameGround hsame
  · apply hcontrol.of_grows hlater
    rintro (hat | hat)
    · have hfree := hfresh.free
      rw [← hat, hcontrol.get?] at hfree
      cases hfree
    · rw [Path.placeFrom_child ControlFile.isFileName_subtreeControl] at hat
      exact not_holdsLimit (by decide) (by decide) hat
  · intro bytes hbytes
    apply hlist
    apply hbytes.of_grows_child ControlFile.isFileName_controllers hparent hlater
    rintro (hat | hat)
    · have hfile := hbytes.get?
      rw [hlater.directory_eq, hat, ← hlater.directory_eq, hdirectory.get?] at hfile
      cases hfile
    · rw [Path.placeFrom_child ControlFile.isFileName_controllers] at hat
      exact not_holdsLimit (by decide) (by decide) hat

/-- Where there is nothing to make a leaf in, nothing changes. -/
theorem create_not_ready {limit : Limit}
    (hready : (∀ n : Nat, limit ≠ .bytes n) ∨
      (¬ ∃ node, h.Has (settings.groupMount.child ControlFile.controllers) node) ∨
      ¬ h.Has (settings.rootOn h) .directory) :
    ∃ failure t, (create settings limit).runOn h = (.error failure, t) ∧ t.tree = h.tree := by
  rw [create, Action.runOn_bind, Action.runOn_liftM]
  cases hcheck : limit.check with
  | error failure => exact ⟨failure, h, rfl, rfl⟩
  | ok n =>
    have hparent := hready.resolve_left fun hlimit => hlimit n (check_eq_ok hcheck)
    cases hprepare : (prepareParent settings).runOn h with
    | mk outcome t =>
      obtain ⟨⟨failure, rfl⟩, hsame⟩ := prepareParent_not_ready hparent hprepare
      exact ⟨failure, t, Action.runOn_bind_error hprepare, hsame.tree.symm⟩

/-- **A leaf is made as a whole, or nothing stays behind.** Whatever calls fail, if removals work: a
leaf that is returned has a new directory, its limits, and a parent that lets it have them; after a
failure no directory is new but, at the most, the one of our groups; and without a proper limit, the
unified hierarchy or the subtree, making a leaf fails and the tree stays as it is. -/
theorem create_all_or_nothing (settings : Settings) (limit : Limit) (h : Host)
    (hwell : h.tree.WellFormed) (hworks : h.RemovalsWork) (hfaults : h.FaultsOnly) :
    (∀ leaf t, (create settings limit).runOn h = (.ok leaf, t) →
      ∃ n : Nat, limit = .bytes n ∧ MadeIn settings h n leaf t) ∧
    (∀ failure t, (create settings limit).runOn h = (.error failure, t) →
      h.tree.Adds (fun q => q = (settings.parentOn h).placeFrom h.directory) t.tree) ∧
    ((∀ n : Nat, limit ≠ .bytes n) ∨
        (¬ ∃ node, h.Has (settings.groupMount.child ControlFile.controllers) node) ∨
        ¬ h.Has (settings.rootOn h) .directory →
      ∃ failure t, (create settings limit).runOn h = (.error failure, t) ∧ t.tree = h.tree) := by
  refine ⟨fun leaf t hrun => madeIn_of_create hfaults hrun, fun failure t hrun => ?_,
    create_not_ready⟩
  rcases create_cases hrun with ⟨_, -, hadds⟩ | ⟨_, _, _, _, _, _, hok, -⟩
  · exact (hadds hwell hworks).tree
  · cases hok

end Leaf

/-! ## What making a leaf keeps -/

namespace Host

variable {P : Host → Prop}

/-- The property still holds after the files of a group were written, and after it was removed. -/
structure AllowsGroup (P : Host → Prop) (p : Path) : Prop where
  write : ∀ name, IsFileName name → AllowsWriting P (p.child name)
  remove : AllowsRemoval P p

/-- The property still holds after groups of ours were made and removed. -/
structure AllowsGroups (P : Host → Prop) (settings : Settings) : Prop where
  make : ∀ p, Allows P p Tree.makeDirectory
  control : ∀ h, P h → AllowsWriting P ((settings.parentOn h).child ControlFile.subtreeControl)
  group : ∀ h, P h → ∀ count,
    AllowsGroup P (freshPath (settings.parentOn h) settings.groupDirectory count)

theorem Treeless.allowsGroups (hP : Treeless P) (settings : Settings) : AllowsGroups P settings where
  make _ := hP.allows _ _
  control _ _ := hP.allowsWriting _
  group _ _ _ := ⟨fun _ _ => hP.allowsWriting _, fun _ => hP.allows _ _⟩

end Host

namespace Leaf

variable {P : Host → Prop} {p : Path}

/-- The host has a property, and the leaf is at a path. -/
def At (P : Host → Prop) (p : Path) (s : Host × Leaf) : Prop :=
  P s.1 ∧ s.2.path = p

/-- Removing a leaf keeps what removing its directory keeps. -/
theorem keeps_destroy (hP : Host.Unobserving P) (hremove : Host.AllowsRemoval P p) :
    Keeps (At P p) destroy := by
  rintro ⟨h, leaf⟩ ⟨hh, rfl⟩
  rw [runOn_destroy]
  split
  · exact ⟨hh, rfl⟩
  · exact ⟨keeps_removeAndReport hP hremove h hh, rfl⟩

theorem keeps_setLimits (hP : Host.Unobserving P) (hgroup : Host.AllowsGroup P p) (limit : Nat) :
    Keeps (At P p) (setLimits limit) := by
  have hwritten : ∀ {name : String}, IsFileName name → ∀ (value : Int) (check : Bool),
      Keeps (At P p) (writeNumber name value check) := by
    rintro name hname value check ⟨h, leaf⟩ ⟨hh, rfl⟩
    obtain ⟨hkept, hleaf⟩ :=
      keeps_writeNumber hP (hgroup.write name hname) value check (h, leaf) ⟨hh, rfl⟩
    exact ⟨hkept, congrArg Leaf.path hleaf⟩
  exact ((hwritten ControlFile.isFileName_memoryMax _ _).bind fun _ =>
    hwritten ControlFile.isFileName_swapMax _ _).tryCatch fun _ =>
      (keeps_destroy hP hgroup.remove).bind fun _ => .throw _

/-- The directory of our groups that is made ready is that of the settings. -/
theorem keeps_prepareParent (hP : Host.Unobserving P) (hgroups : Host.AllowsGroups P settings) :
    Keeps P (prepareParent settings) := by
  refine Keeps.bind_of_gives (fun root => ∃ h, P h ∧ root = settings.rootOn h)
    (keeps_delegatedRoot hP _ _) (fun h _ _ hh hroot => ⟨h, hh, (delegatedRoot_eq_ok hroot).1⟩) ?_
  rintro _ ⟨h, hh, rfl⟩
  have hmake : Keeps P (Host.makeDirectory ((settings.rootOn h).child settings.groupDirectory)) :=
    Host.keeps_makeDirectory hP (hgroups.make _)
  exact (hmake.onFault fun _ => .throw _).bind fun _ =>
    (keeps_enableMemory hP (hgroups.control h hh)).bind fun _ => .pure _

/-- A directory that was made ready is the directory of our groups. -/
theorem parentOn_of_prepareParent {parent : Path}
    (hrun : (prepareParent settings).runOn h = (.ok parent, t)) : parent = settings.parentOn h := by
  obtain ⟨root, _, hroot, hrun⟩ := Action.runOn_bind_eq_ok.1 hrun
  obtain ⟨_, _, -, hrun⟩ := Action.runOn_bind_eq_ok.1 hrun
  obtain ⟨_, _, -, hreturn⟩ := Action.runOn_bind_eq_ok.1 hrun
  cases hreturn
  rw [(delegatedRoot_eq_ok hroot).1]
  rfl

/-- **Making a leaf** keeps what making and removing groups keeps. -/
theorem keeps_create (hP : Host.Unobserving P) (hgroups : Host.AllowsGroups P settings)
    (limit : Limit) : Keeps P (create settings limit) := by
  refine (Keeps.liftM _).bind fun bytes => ?_
  refine Keeps.bind_of_gives (fun parent => ∃ h, P h ∧ parent = settings.parentOn h)
    (keeps_prepareParent hP hgroups)
    (fun h _ _ hh hparent => ⟨h, hh, parentOn_of_prepareParent hparent⟩) ?_
  rintro _ ⟨h, hh, rfl⟩
  have hfresh : Keeps P (Host.makeFreshDirectory (settings.parentOn h) settings.groupDirectory) :=
    Host.keeps_makeFreshDirectory hP fun _ => hgroups.make _
  refine Keeps.bind_of_gives
    (fun path => ∃ count, path = Host.freshPath (settings.parentOn h) settings.groupDirectory count)
    (hfresh.onFault fun _ => .throw _) ?_ ?_
  · intro u path v _ hmade
    rcases Host.makeFreshDirectory_cases (Action.onFault_throw_eq_ok hmade) with
      ⟨_, hfail, -⟩ | ⟨count, hpath, -⟩
    · cases hfail
    · exact ⟨count, Except.ok.inj hpath⟩
  · rintro _ ⟨count, rfl⟩
    refine Keeps.bind ?_ fun _ => (Host.keeps_report hP _).bind fun _ => .pure _
    intro u hu
    rw [Action.runOn_withSecond]
    exact (keeps_setLimits hP (hgroups.group h hh count) bytes (u, _) ⟨hu, rfl⟩).1

end Leaf

/-! ## A host with a delegated subtree -/

/-- Settings with a delegated subtree of our own. -/
def Settings.delegated : Settings :=
  { groupMount := .read "/m", delegatedRoot := some (.read "/m/r"), groupDirectory := "g" }

/-- A host with a delegated subtree, where the first name that is drawn for a group is taken. -/
def Host.delegated : Host :=
  { tree := ⟨[(["m"], .directory), (["m", "cgroup.controllers"], .file .empty),
      (["m", "r"], .directory), (["m", "r", "g"], .directory),
      (["m", "r", "g", "cgroup.controllers"], .file "cpu memory".toUTF8),
      (["m", "r", "g", "g00000001"], .directory)]⟩ }

/-- The same host, where the limit of the swap space is refused. -/
def Host.refusing : Host :=
  { Host.delegated with
    disturbances :=
      [{ call := .write, name := some ControlFile.swapMax, effect := .fail (.ofCode 5) }] }

theorem Host.wellFormed_delegated : Host.delegated.tree.WellFormed :=
  ⟨by decide, by decide⟩

theorem Host.removalsWork_delegated : Host.delegated.RemovalsWork :=
  ⟨rfl, by simp [Host.delegated]⟩

theorem Host.removalsWork_refusing : Host.refusing.RemovalsWork :=
  ⟨rfl, by simp [Host.refusing]⟩

/-- The second name that is drawn is free, so a leaf is made there; where the second of its limits
is refused, it is removed again. -/
theorem Leaf.create_all_or_nothing_delegated :
    Host.delegated.tree.WellFormed ∧ Host.delegated.RemovalsWork ∧ Host.delegated.FaultsOnly ∧
    Host.refusing.RemovalsWork ∧ Host.refusing.FaultsOnly ∧
    (∃ leaf t, (create Settings.delegated (.bytes 5)).runOn Host.delegated = (.ok leaf, t) ∧
      leaf.path.text = "/m/r/g/g00000002" ∧ MadeIn Settings.delegated Host.delegated 5 leaf t) ∧
    ∃ failure t, (create Settings.delegated (.bytes 5)).runOn Host.refusing = (.error failure, t) ∧
      Host.refusing.tree.Adds (fun q => q = ["m", "r", "g"]) t.tree := by
  have hfaults : Host.delegated.FaultsOnly := by
    simp [Host.FaultsOnly, Host.delegated]
  have hfaults' : Host.refusing.FaultsOnly := by
    simp [Host.FaultsOnly, Host.refusing]
  refine ⟨Host.wellFormed_delegated, Host.removalsWork_delegated, hfaults,
    Host.removalsWork_refusing, hfaults', ?_, ?_⟩
  · obtain ⟨hmade, -, -⟩ := create_all_or_nothing Settings.delegated (.bytes 5) Host.delegated
      Host.wellFormed_delegated Host.removalsWork_delegated hfaults
    have hname : ((create Settings.delegated (.bytes 5)).runOn Host.delegated).1.toOption.map
        (·.path.text) = some "/m/r/g/g00000002" := by decide +kernel
    cases hrun : (create Settings.delegated (.bytes 5)).runOn Host.delegated with
    | mk outcome t =>
      rw [hrun] at hname
      cases outcome with
      | error failure => cases hname
      | ok leaf =>
        obtain ⟨n, hn, hleaf⟩ := hmade leaf t hrun
        cases hn
        exact ⟨leaf, t, rfl, Option.some.inj hname, hleaf⟩
  · obtain ⟨-, hrefused, -⟩ := create_all_or_nothing Settings.delegated (.bytes 5) Host.refusing
      Host.wellFormed_delegated Host.removalsWork_refusing hfaults'
    have hfail : ((create Settings.delegated (.bytes 5)).runOn Host.refusing).1.isOk = false := by
      decide +kernel
    cases hrun : (create Settings.delegated (.bytes 5)).runOn Host.refusing with
    | mk outcome t =>
      rw [hrun] at hfail
      cases outcome with
      | ok leaf => cases hfail
      | error failure => exact ⟨failure, t, rfl, hrefused failure t hrun⟩

end MemoryLimit
