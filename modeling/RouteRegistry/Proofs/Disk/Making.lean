/-
RouteRegistry/Proofs/Disk/Making.lean

Making directories, in a tree without links.

The change is described by what it keeps (`Disk.Grown`): whatever stood somewhere
stands there still, and what is new is a directory that one of the paths leads
to.

* `makeChain_ends` and `grown_makeDirs`: an attempt ends in one of three ways, and
  also one that is refused halfway has made nothing but directories.
* `isDir_makeChain` and `makeDirs_again`: afterwards the directory is there, and
  where it is there already nothing happens.
-/
import RouteRegistry.Proofs.Disk.Walk
import RouteRegistry.Proofs.Path.Steps

namespace RouteRegistry

open RouteRegistry.Path

/-- The place that the path leads to in a tree without links, if it leads anywhere. -/
def Path.placeFrom (p : Path) (here : Place) : Place := Place.after here p.steps

/-- A slash at the end of a path makes no difference to its place. -/
theorem Path.placeFrom_eq (p : Path) (here : Place) :
    p.placeFrom here = Place.after here p.stem := by
  unfold placeFrom
  rcases p.steps_eq_stem_or with e | e
  · rw [e]
  · rw [e, Place.after_append]; rfl

namespace Disk

variable {d d₁ d' : Disk} {p q : Place} {path : Path} {ps : List Path}

/-! ### Trees stay trees -/

/-- A change at one place where no directory was. -/
theorem IsTree.changeAt (t : d.IsTree) {x : Option Node} (hw : d'.workDir = d.workDir)
    (look : ∀ p, d'.node? p = if p = q then x else d.node? p) (free : d.node? q ≠ some .dir)
    (linkless : ∀ target, x ≠ some (.link target))
    (above : x ≠ none → ∀ p n, q = p ++ [n] → d.node? p = some .dir) : d'.IsTree := by
  -- no directory is lost, since none stood at `q`
  have dirs : d'.HasDirsOf d := by
    intro p hp
    have hne : p ≠ q := by
      rintro rfl
      exact free hp
    rw [look, if_neg hne]
    exact hp
  refine ⟨fun p target => ?_, fun p n h => dirs p ?_, hw ▸ dirs _ t.start⟩
  · rw [look]
    split
    · exact linkless target
    · exact t.linkless p target
  · rw [look] at h
    split at h
    case isTrue e => exact above h p n e.symm
    case isFalse => exact t.above p n h

section

variable {here : Place} {n : String}

theorem concat_ne_nil (here : Place) (n : String) : here ++ [n] ≠ [] :=
  List.append_ne_nil_of_right_ne_nil here (List.cons_ne_nil n [])

/-- A node in a directory, in place of none or of a file, leaves a tree. -/
theorem IsTree.put (t : d.IsTree) (above : d.node? here = some .dir) {x : Node}
    (linkless : ∀ target, x ≠ .link target) (free : d.node? (here ++ [n]) ≠ some .dir) :
    (d.put (here ++ [n]) x).IsTree := by
  refine t.changeAt rfl (d.node?_put (concat_ne_nil here n) x) free
    (fun target e => linkless target (Option.some.inj e)) fun _ p m e => ?_
  rwa [(List.append_inj' e rfl).1] at above

/-- Taking away what is no directory leaves a tree. -/
theorem IsTree.erase (t : d.IsTree) (free : d.node? (here ++ [n]) ≠ some .dir) :
    (d.erase (here ++ [n])).IsTree :=
  t.changeAt rfl (d.node?_erase (concat_ne_nil here n)) free nofun (absurd rfl)

end

/-! ### Entries -/

section

variable {keep : Place × Node → Bool}

theorem filter_erase (h : ∀ e, keep e = true → e.1 ≠ p) :
    (d.erase p).nodes.filter keep = d.nodes.filter keep := by
  unfold erase
  rw [List.filter_filter]
  refine List.filter_congr fun e _ => ?_
  by_cases he : keep e = true
  · rw [he, Bool.true_and, bne_iff_ne]
    exact h e he
  · rw [Bool.eq_false_iff.2 he, Bool.false_and]

theorem filter_put {x : Node} (h : ∀ e, keep e = true → e.1 ≠ p) :
    (d.put p x).nodes.filter keep = d.nodes.filter keep := by
  have kept : (d.put p x).nodes.filter keep = (d.erase p).nodes.filter keep :=
    List.filter_cons_of_neg fun hk => h _ hk rfl
  rw [kept, filter_erase h]

/-- The node that is put a second time is there already. -/
theorem put_put (d : Disk) (p : Place) (x : Node) : (d.put p x).put p x = d.put p x := by
  unfold put
  rw [List.filter_cons_of_neg (by simp), List.filter_filter]
  simp only [Bool.and_self]

end

/-! ### New directories -/

/-- Nothing stands at the place, and one of the paths leads to it. -/
structure IsNew (d : Disk) (ps : List Path) (q : Place) : Prop where
  free : d.node? q = none
  led : ∃ path ∈ ps, q = path.placeFrom d.workDir ∧
    ∃ n, .name n ∈ path.components ∧ q.getLast? = some n

/-- Some directories were made that the paths lead to. -/
structure Grown (ps : List Path) (d d' : Disk) : Prop where
  workDir : d'.workDir = d.workDir
  tree : d'.IsTree
  nodes : ∀ q, d'.node? q = d.node? q ∨ d.IsNew ps q ∧ d'.node? q = some .dir
  entries : ∀ keep : Place × Node → Bool, (∀ e, keep e = true → d.node? e.1 ≠ none) →
    d'.nodes.filter keep = d.nodes.filter keep

/-- Nothing has grown yet. -/
theorem Grown.refl (t : d.IsTree) : Grown ps d d :=
  ⟨rfl, t, fun _ => .inl rfl, fun _ _ => rfl⟩

/-- What was there stays when directories are made. -/
theorem Grown.node?_of_ne_none (h : Grown ps d d') (hq : d.node? q ≠ none) :
    d'.node? q = d.node? q :=
  (h.nodes q).resolve_right fun hn => hq hn.1.free

/-- Directories stay directories. -/
theorem Grown.hasDirsOf (h : Grown ps d d') : d'.HasDirsOf d := fun q hq => by
  rw [h.node?_of_ne_none (by rw [hq]; exact Option.some_ne_none _), hq]

/-- What the second change finds new was new before the first, or was made by it. -/
theorem Grown.trans (h : Grown ps d d₁) (h' : Grown ps d₁ d') : Grown ps d d' where
  workDir := h'.workDir.trans h.workDir
  tree := h'.tree
  nodes q := by
    rcases h.nodes q with same | ⟨new, made⟩
    · rcases h'.nodes q with same' | ⟨⟨free, led⟩, made⟩
      · exact .inl (same'.trans same)
      · exact .inr ⟨⟨same ▸ free, h.workDir ▸ led⟩, made⟩
    · exact .inr ⟨new, h'.hasDirsOf q made⟩
  entries keep hkeep := by
    rw [h'.entries keep fun e he => h.node?_of_ne_none (hkeep e he) ▸ hkeep e he,
      h.entries keep hkeep]

theorem Grown.mono {qs : List Path} (hsub : ps ⊆ qs) (h : Grown ps d d') : Grown qs d d' where
  workDir := h.workDir
  tree := h.tree
  nodes q := (h.nodes q).imp_right fun ⟨⟨free, path, hp, led⟩, made⟩ =>
    ⟨⟨free, path, hsub hp, led⟩, made⟩
  entries := h.entries

/-! ### Making directories -/

/-- A node is found just where the walk ends at it. -/
theorem found_eq_ok_iff {r : Except OsError Spot} {x : Node} :
    found r = .ok (q, x) ↔ r = .ok (.taken q x) := by
  unfold found
  rcases r with e | ⟨p, y⟩ | p
  · exact ⟨nofun, nofun⟩
  · simp
  · exact ⟨nofun, nofun⟩

/-- A path has a target if it ends by a name in a directory. -/
theorem target_eq_some_iff (t : d.IsTree) {steps : List Component} :
    d.target path steps = .ok (some q) ↔
      ∃ here n, d.EndsIn path steps here n ∧ q = here ++ [n] := by
  -- the target is what stands before the last name, so the walk leaves the last step out
  unfold target
  constructor
  · intro h
    split at h
    case h_5 hr hfound =>
      have leads := t.spotBelow_eq_ok_iff.1 (found_eq_ok_iff.1 hfound)
      split at h
      case h_1 n hlast =>
        split at h
        · cases h
        · next size =>
          have whole := List.dropLast_append_getLast? _ hlast
          exact ⟨_, n, ⟨hr, ⟨_, whole.symm, leads⟩, Nat.not_lt.1 size⟩,
            (Option.some.inj (Except.ok.inj h)).symm⟩
      case h_2 => cases h
    all_goals cases h
  · rintro ⟨here, n, ⟨hr, ⟨front, rfl, leads⟩, size⟩, rfl⟩
    rw [List.dropLast_concat, t.spotBelow_eq_ok_iff.2 leads, hr, List.getLast?_concat]
    simp only [found]
    rw [if_neg (Nat.not_lt.2 size)]

/-- A path whose last step is no name gives no place to put anything at. -/
theorem target_eq_none (t : d.IsTree) (hr : path.refusal? = none) {steps : List Component}
    (leads : d.Leads d.workDir steps.dropLast (.taken q .dir))
    (unnamed : ∀ n, steps.getLast? ≠ some (.name n)) : d.target path steps = .ok none := by
  unfold target
  rw [t.spotBelow_eq_ok_iff.2 leads, hr]
  simp only [found]

/-- The directory can be made: its name is free in a directory that is there. -/
structure CanMake (d : Disk) (path : Path) (here : Place) (n : String) : Prop extends
    EndsIn d path path.stem here n where
  free : d.node? (here ++ [n]) = none

/-- A directory that was made is new, in a directory that was there. -/
theorem canMake_of_makeDir (t : d.IsTree) (h : d.makeDir path = .ok d') :
    ∃ here n, d.CanMake path here n ∧ d' = d.put (here ++ [n]) .dir := by
  unfold makeDir at h
  split at h
  case h_3 place htarget =>
    split at h
    case h_1 => cases h
    case h_2 free =>
    obtain ⟨here, n, ends, rfl⟩ := (target_eq_some_iff t).1 htarget
    rcases untrailed_eq path with e | e
    · exact ⟨here, n, ⟨e ▸ ends, free⟩, (Except.ok.inj h).symm⟩
    · -- a path of separators has no last name
      obtain ⟨front, e', -⟩ := ends.front
      rw [e] at e'
      have last := congrArg List.getLast? e'
      rw [List.getLast?_concat] at last
      cases last
  all_goals cases h

section

variable {here : Place} {n : String}

theorem CanMake.grown (h : d.CanMake path here n) (t : d.IsTree) :
    Grown [path] d (d.put (here ++ [n]) .dir) where
  workDir := rfl
  tree := t.put (h.dir t) nofun (by rw [h.free]; nofun)
  nodes q := by
    rw [node?_put d (concat_ne_nil here n)]
    -- the one place that changed is where `path` itself leads
    by_cases hq : q = here ++ [n]
    · subst hq
      obtain ⟨front, stem, -⟩ := h.front
      have named : .name n ∈ path.components :=
        name_mem_stem.1 (stem ▸ List.mem_append_right _ (List.mem_singleton_self _))
      have led : here ++ [n] = path.placeFrom d.workDir := h.place_eq.trans (placeFrom_eq ..).symm
      exact .inr ⟨⟨h.free, path, List.mem_singleton_self _, led, n, named, List.getLast?_concat⟩,
        if_pos rfl⟩
    · exact .inl (if_neg hq)
  entries keep hkeep := filter_put fun e he hp => hkeep e he (hp ▸ h.free)

theorem CanMake.isDir (h : d.CanMake path here n) (t : d.IsTree) :
    (d.put (here ++ [n]) .dir).isDir path = true := by
  have grown := h.grown t
  obtain ⟨front, stem, leads⟩ := h.front
  have made : (d.put (here ++ [n]) .dir).node? (here ++ [n]) = some .dir := by
    rw [node?_put d (concat_ne_nil here n), if_pos rfl]
  have walk : (d.put (here ++ [n]) .dir).Leads d.workDir path.stem (.taken (here ++ [n]) .dir) := by
    rw [stem]
    exact (leads.of_dirs grown.hasDirsOf).append (.down h.size made .stop)
  refine (isDir_iff grown.tree).2 ⟨h.refusal, here ++ [n], ?_⟩
  rcases path.steps_eq_stem_or with e | e
  · rw [e]; exact walk
  · rw [e]; exact walk.append (.here .stop)

end

/-- How the attempt to make the directory ends, with those above it made or not missing. -/
inductive ChainEnds (d : Disk) (path : Path) : Attempt → Prop
  | made {here n} : d.CanMake path here n → ChainEnds d path ⟨d.put (here ++ [n]) .dir, none⟩
  | there : d.isDir path = true → ChainEnds d path ⟨d, none⟩
  | refused {e} : ChainEnds d path ⟨d, some e⟩

theorem chainEnds_of_makeDir (t : d.IsTree) (h : d.makeDir path = .ok d') :
    ChainEnds d path ⟨d', none⟩ := by
  obtain ⟨here, n, can, rfl⟩ := canMake_of_makeDir t h
  exact .made can

theorem chainEnds_of_refusal (d : Disk) (path : Path) (e : OsError) :
    ChainEnds d path ⟨d, if d.isDir path then none else some e⟩ := by
  split
  case isTrue h => exact .there h
  case isFalse => exact .refused

/-- The last directory of a chain is made on the disk as it was, or as the directories above have
left it. -/
theorem makeChain_ends (t : d.IsTree) (path : Path) {above : List Path}
    (t' : (d.makeChain above).disk.IsTree) :
    ∃ d₁, (d₁ = d ∨ d₁ = (d.makeChain above).disk) ∧
      ChainEnds d₁ path (d.makeChain (path :: above)) := by
  rw [makeChain]
  dsimp only
  -- the directory, then those above it, then the directory again
  split
  case h_1 made h => exact ⟨d, .inl rfl, chainEnds_of_makeDir t h⟩
  case h_2 =>
    split
    case h_1 d₁ e h => exact ⟨d₁, .inr (by rw [h]), .refused⟩
    case h_2 d₁ h =>
      rw [h] at t'
      refine ⟨d₁, .inr (by rw [h]), ?_⟩
      split
      case h_1 made h => exact chainEnds_of_makeDir t' h
      case h_2 e h => exact chainEnds_of_refusal d₁ path e
  case h_3 e _ _ => exact ⟨d, .inl rfl, chainEnds_of_refusal d path e⟩

/-- Making a directory with those above it makes directories only, also when it is refused. -/
theorem grown_makeChain (t : d.IsTree) (ps : List Path) : Grown ps d (d.makeChain ps).disk := by
  -- the chain runs from `path` up to its ancestors, which are made first
  induction ps with
  | nil => exact .refl t
  | cons path above ih =>
    obtain ⟨d₁, hd₁, ends⟩ := makeChain_ends t path ih.tree
    have up : Grown (path :: above) d d₁ := by
      rcases hd₁ with rfl | rfl
      · exact .refl t
      · exact ih.mono (List.subset_cons_self path above)
    generalize d.makeChain (path :: above) = attempt at ends ⊢
    cases ends with
    | made can =>
      have one := can.grown up.tree
      exact up.trans (one.mono (List.cons_subset.2 ⟨List.mem_cons_self .., List.nil_subset _⟩))
    | there => exact up
    | refused => exact up

/-- Unless it was refused, the directory is there afterwards. -/
theorem isDir_makeChain (t : d.IsTree) {above : List Path}
    (h : d.makeChain (path :: above) = ⟨d', none⟩) : d'.isDir path = true := by
  have up := (grown_makeChain t above).tree
  obtain ⟨d₁, hd₁, ends⟩ := makeChain_ends t path up
  have t₁ : d₁.IsTree := by
    rcases hd₁ with rfl | rfl
    · exact t
    · exact up
  rw [h] at ends
  cases ends with
  | made can => exact can.isDir t₁
  | there h => exact h

/-- A walk to a directory can leave out the separators at the end. -/
theorem leads_stem (h : d.Leads d.workDir path.steps (.taken q .dir)) :
    ∃ q, d.Leads d.workDir path.stem (.taken q .dir) := by
  rcases path.steps_eq_stem_or with e | e
  · exact ⟨q, e ▸ h⟩
  · rw [e] at h
    obtain ⟨q, h, -⟩ := h.split (List.cons_ne_nil _ _)
    exact ⟨q, h⟩

/-- Without the slash at its end, a path leads to a directory as it did with it. -/
theorem leads_untrailed (h : d.Leads d.workDir path.steps (.taken q .dir)) :
    ∃ q, d.Leads d.workDir (untrailed path) (.taken q .dir) := by
  rcases untrailed_eq path with e | e
  · rw [e]
    exact leads_stem h
  · exact ⟨d.workDir, e ▸ .here .stop⟩

/-- A directory that is there stands in the way of making it. -/
theorem makeDir_of_isDir (t : d.IsTree) (h : d.isDir path = true) :
    d.makeDir path = .error .alreadyExists := by
  obtain ⟨hr, q, leads⟩ := (isDir_iff t).1 h
  obtain ⟨q, leads⟩ := leads_untrailed leads
  unfold makeDir
  rcases (untrailed path).eq_nil_or_concat with e | ⟨front, c, e⟩
  · rw [e, target_eq_none t hr .stop fun _ => by simp]
  rw [List.concat_eq_append] at e
  rw [e] at leads ⊢
  obtain ⟨here, before, last⟩ := leads.split (List.cons_ne_nil _ _)
  -- a last step that is a name finds the directory in its place; `.` and `..` leave no target
  by_cases named : ∃ n, c = .name n
  · obtain ⟨n, rfl⟩ := named
    cases last with
    | last _ free hs => exact absurd (spotAt_eq_taken_iff.1 hs.symm).2 free
    | down size hdir _ =>
      rw [(target_eq_some_iff t).2 ⟨here, n, ⟨hr, ⟨front, rfl, before⟩, size⟩, rfl⟩]
      dsimp only
      rw [hdir]
  · rw [target_eq_none t hr (by rwa [List.dropLast_concat]) fun n e' => ?_]
    rw [List.getLast?_concat] at e'
    exact named ⟨n, Option.some.inj e'⟩

/-- There is nothing to make where the directory exists. -/
theorem makeChain_of_isDir (t : d.IsTree) (h : d.isDir path = true) (above : List Path) :
    d.makeChain (path :: above) = ⟨d, none⟩ := by
  unfold makeChain
  dsimp only
  rw [makeDir_of_isDir t h]
  dsimp only
  rw [if_pos h]

/-- Whether or not it succeeds, making directories does nothing but make directories. -/
theorem grown_makeDirs (t : d.IsTree) (path : Path) :
    Grown (chain path) d (d.makeDirs path).disk := by
  unfold makeDirs
  split
  · exact .refl t
  · exact grown_makeChain t _

theorem grown_of_makeDirs (t : d.IsTree) {refusal : Option OsError}
    (h : d.makeDirs path = ⟨d₁, refusal⟩) : Grown (chain path) d d₁ := by
  have grown := grown_makeDirs t path
  rwa [h] at grown

/-- What was made once is not made again, even if files came and went since. -/
theorem makeDirs_again (t : d.IsTree) (h : d.makeDirs path = ⟨d₁, none⟩) (t' : d'.IsTree)
    (hw : d'.workDir = d₁.workDir) (dirs : d'.HasDirsOf d₁) :
    d'.makeDirs path = ⟨d', none⟩ := by
  have tree := (grown_of_makeDirs t h).tree
  unfold makeDirs at h ⊢
  split at h
  case isTrue e => rw [if_pos e]
  case isFalse e =>
    rw [if_neg e]
    exact makeChain_of_isDir t' (isDir_of_hasDirsOf tree t' hw dirs (isDir_makeChain t h)) _

end Disk

end RouteRegistry
