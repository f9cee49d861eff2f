/-
RouteRegistry/Proofs/Disk/Writing.lean

Writing and removing a file, in a tree without links.

Besides the directories that were made for it, one place is touched
(`Disk.Touched`): that of the last name of the path, in the directory that the
steps before it lead to.

* `Grown.touched_put` and `IsTree.touched_erase`: what that keeps.
* `EndsIn.spot_put` and `EndsIn.spot_erase`: where the path leads afterwards.
* `endsIn_of_write` and `endsIn_of_remove`: nothing else was done if it was not
  refused.
-/
import RouteRegistry.Proofs.Disk.Making

namespace RouteRegistry.Disk

open RouteRegistry.Path

variable {d d₁ d' : Disk} {p q : Place} {path : Path} {ps : List Path}

/-! ### One place touched -/

/-- Some directories were made that the paths lead to, and at one place a file came, went or was
replaced. -/
structure Touched (ps : List Path) (p : Place) (d d' : Disk) : Prop where
  workDir : d'.workDir = d.workDir
  tree : d'.IsTree
  before : d.node? p ≠ some .dir
  after : d'.node? p ≠ some .dir
  nodes : ∀ q, q ≠ p → d'.node? q = d.node? q ∨ d.IsNew ps q ∧ d'.node? q = some .dir
  entries : ∀ keep : Place × Node → Bool,
    (∀ e, keep e = true → e.1 ≠ p ∧ d.node? e.1 ≠ none) →
    d'.nodes.filter keep = d.nodes.filter keep

/-- What stood elsewhere stays. -/
theorem Touched.node?_of_ne_none (h : Touched ps p d d') (hp : q ≠ p) (hq : d.node? q ≠ none) :
    d'.node? q = d.node? q :=
  (h.nodes q hp).resolve_right fun hn => hq hn.1.free

/-- Directories stay directories. -/
theorem Touched.hasDirsOf (h : Touched ps p d d') : d'.HasDirsOf d := fun q hq => by
  have hne : q ≠ p := by
    rintro rfl
    exact h.before hq
  rw [h.node?_of_ne_none hne (by rw [hq]; exact Option.some_ne_none _), hq]

section

variable {here : Place} {n : String} {content : ByteArray}

/-- After directories were made, a file that is put at the end is all that has changed. -/
theorem Grown.touched_put (h : Grown ps d d₁) (ends : d₁.node? here = some .dir)
    (free : d₁.node? (here ++ [n]) ≠ some .dir) :
    Touched ps (here ++ [n]) d (d₁.put (here ++ [n]) (.file content)) where
  workDir := h.workDir
  tree := h.tree.put ends nofun free
  before hp := free (h.hasDirsOf _ hp)
  after := by
    rw [node?_put d₁ (concat_ne_nil here n), if_pos rfl]
    nofun
  nodes q hq := by
    rw [node?_put d₁ (concat_ne_nil here n), if_neg hq]
    exact h.nodes q
  entries keep hkeep := by
    rw [filter_put fun e he => (hkeep e he).1, h.entries keep fun e he => (hkeep e he).2]

/-- Taking a file away changes nothing but its place. -/
theorem IsTree.touched_erase (t : d.IsTree) (free : d.node? (here ++ [n]) ≠ some .dir) :
    Touched ps (here ++ [n]) d (d.erase (here ++ [n])) where
  workDir := rfl
  tree := t.erase free
  before := free
  after := by
    rw [node?_erase d (concat_ne_nil here n), if_pos rfl]
    nofun
  nodes q hq := by
    rw [node?_erase d (concat_ne_nil here n), if_neg hq]
    exact .inl rfl
  entries keep hkeep := filter_erase fun e he => (hkeep e he).1

/-! ### One file written or removed -/

/-- Once written, the file is what the path leads to. -/
theorem EndsIn.spot_put (h : d.EndsIn path path.steps here n) (t : d.IsTree)
    (free : d.node? (here ++ [n]) ≠ some .dir) :
    (d.put (here ++ [n]) (.file content)).spot path =
      .ok (.taken (here ++ [n]) (.file content)) := by
  have touched : Touched [] (here ++ [n]) d (d.put (here ++ [n]) (.file content)) :=
    (Grown.refl t).touched_put (h.dir t) free
  have written : (d.put (here ++ [n]) (.file content)).node? (here ++ [n]) =
      some (.file content) := by
    rw [node?_put d (concat_ne_nil here n), if_pos rfl]
  rw [(h.of_dirs touched.workDir touched.hasDirsOf).spot_eq touched.tree,
    spotAt_eq_taken_iff.2 ⟨rfl, written⟩]

/-- Once removed, it has left its place free. -/
theorem EndsIn.spot_erase (h : d.EndsIn path path.steps here n) (t : d.IsTree)
    (free : d.node? (here ++ [n]) ≠ some .dir) :
    (d.erase (here ++ [n])).spot path = .ok (.free (here ++ [n])) := by
  have touched : Touched [] (here ++ [n]) d (d.erase (here ++ [n])) := t.touched_erase free
  have gone : (d.erase (here ++ [n])).node? (here ++ [n]) = none := by
    rw [node?_erase d (concat_ne_nil here n), if_pos rfl]
  rw [(h.of_dirs touched.workDir touched.hasDirsOf).spot_eq touched.tree,
    spotAt_eq_free_iff.2 ⟨rfl, gone⟩]

end

section

variable {front : List Component} {n : String}

/-- A write that succeeds puts the text at the end of the path, where there was no directory. -/
theorem endsIn_of_write (t : d.IsTree) (named : path.steps = front ++ [.name n]) {text : String}
    (h : d.write path text = .ok d') :
    ∃ here, d.EndsIn path path.steps here n ∧ d.node? (here ++ [n]) ≠ some .dir ∧
      d' = d.put (here ++ [n]) (.file text.toUTF8) := by
  unfold write at h
  split at h
  -- the file is there and is replaced, or its place is free; the remaining spots refuse it
  case h_2 place content hspot =>
    obtain ⟨here, ends, hs⟩ := endsIn_of_spot t named hspot
    obtain ⟨rfl, hfile⟩ := spotAt_eq_taken_iff.1 hs.symm
    exact ⟨here, ends, by rw [hfile]; nofun, (Except.ok.inj h).symm⟩
  case h_3 place hspot =>
    obtain ⟨here, ends, hs⟩ := endsIn_of_spot t named hspot
    obtain ⟨rfl, hfree⟩ := spotAt_eq_free_iff.1 hs.symm
    exact ⟨here, ends, by rw [hfree]; nofun, (Except.ok.inj h).symm⟩
  all_goals cases h

/-- A removal that succeeds takes the node at the end of the path away, which was no directory. -/
theorem endsIn_of_remove (t : d.IsTree) (named : path.steps = front ++ [.name n])
    (h : d.remove path = .ok d') :
    ∃ here, d.EndsIn path path.steps here n ∧ d.node? (here ++ [n]) ≠ some .dir ∧
      d' = d.erase (here ++ [n]) := by
  unfold remove at h
  split at h
  case h_3 place htarget =>
    obtain ⟨here, m, ends, rfl⟩ := (target_eq_some_iff t).1 htarget
    obtain ⟨front', e, -⟩ := ends.front
    obtain rfl : m = n := by
      have := (List.append_inj' (e.symm.trans named) rfl).2
      exact Component.name.inj (List.cons.inj this).1
    split at h
    case h_3 x hdir hx =>
      exact ⟨here, ends, fun e => hdir (Option.some.inj (hx.symm.trans e)), (Except.ok.inj h).symm⟩
    all_goals cases h
  all_goals cases h

end

end RouteRegistry.Disk
