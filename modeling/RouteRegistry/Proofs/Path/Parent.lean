/-
RouteRegistry/Proofs/Path/Parent.lean

The file name of a path and the directory it stands in.

In a tree without links, steps and components lead to the same place
(`placeFrom_eq_components`), a joined path leads on from where the first path
leads (`placeFrom_join`), and a path with a file name leads to that name in the
directory that its parent leads to (`placeFrom_parent`).
-/
import RouteRegistry.Proofs.Disk.Making

namespace RouteRegistry.Path

/-- A step that stays where it is can be left out. -/
theorem after_filterMap_stepOf? (here : Place) (pieces : List (List Char)) :
    Place.after here (pieces.filterMap stepOf?) =
      Place.after here (pieces.filterMap componentOf?) := by
  induction pieces generalizing here with
  | nil => rfl
  | cons piece pieces ih =>
    -- a `.` is a step that stays and no component, so dropping it leads to the same place
    by_cases stay : piece = ['.']
    · have step : stepOf? piece = some .here := if_pos stay
      have none : componentOf? piece = none := by rw [stay]; rfl
      rw [List.filterMap_cons_some step, List.filterMap_cons_none none]
      exact ih here
    · have same : stepOf? piece = componentOf? piece := if_neg stay
      rcases h : componentOf? piece with - | c
      · rw [List.filterMap_cons_none h, List.filterMap_cons_none (same.trans h)]
        exact ih here
      · rw [List.filterMap_cons_some h, List.filterMap_cons_some (same.trans h)]
        cases c <;> exact ih _

/-- A `.` or an empty piece between slashes leads nowhere else. -/
theorem placeFrom_eq_components (p : Path) (here : Place) :
    p.placeFrom here = Place.after here p.components := by
  rw [placeFrom_eq]
  unfold stem components
  dsimp only
  rw [Place.after_append, Place.after_append, after_filterMap_stepOf?]
  split
  · rfl
  · split <;> rfl

/-- A joined path leads where its second part leads from the end of the first. -/
theorem placeFrom_join (p q : Path) (here : Place) :
    (p.join q).placeFrom here = q.placeFrom (p.placeFrom here) := by
  by_cases absolute : q.isAbsolute = true
  · -- an absolute path leads to its place from anywhere
    have anywhere (a b : Place) : q.placeFrom a = q.placeFrom b := by
      rw [placeFrom_eq, placeFrom_eq]
      unfold stem
      rw [if_pos absolute]
      rfl
    have stands : p.join q = q := if_pos absolute
    rw [stands]
    exact anywhere _ _
  · unfold placeFrom
    rw [steps_join p (Bool.eq_false_iff.2 absolute), Place.after_append]
    exact congrArg (Place.after · q.steps) (p.placeFrom_eq here).symm

/-- The path of components that are pieces, possibly behind the root, leads where they lead. -/
theorem placeFrom_ofComponents {rest : List Component} (pieces : ∀ c ∈ rest, IsPiece c)
    (here : Place) :
    (ofComponents rest).placeFrom here = Place.after here rest ∧
    (ofComponents (.root :: rest)).placeFrom here = Place.after here (.root :: rest) := by
  rw [placeFrom_eq, placeFrom_eq, (stem_ofComponents pieces).2]
  refine ⟨?_, rfl⟩
  rcases rest with - | ⟨c, rest⟩
  · rfl
  · rw [(stem_ofComponents pieces).1 (List.cons_ne_nil c rest)]

/-- A path with a file name leads to that name in the directory of its parent. -/
theorem placeFrom_parent {p : Path} {n : String} (h : p.fileName? = some n) (here : Place) :
    p.placeFrom here = p.parent.placeFrom here ++ [n] := by
  obtain ⟨front, split⟩ : ∃ front, p.components = front ++ [.name n] := by
    unfold fileName? at h
    split at h
    case h_1 text last =>
      obtain rfl := Option.some.inj h
      exact List.getLast?_eq_some_iff.1 last
    case h_2 => cases h
  have parent : p.parent.placeFrom here = Place.after here front := by
    have unfolded : p.parent = ofComponents front := by
      unfold Path.parent
      rw [split, List.dropLast_concat]
    rw [unfolded]
    -- a root is no piece, so the absolute and the relative path are read off apart
    obtain ⟨rest, pieces, e | e⟩ := pieces_components p
    · have inFront : ∀ c ∈ front, IsPiece c := by
        intro c hc
        refine pieces c ?_
        rw [← e, split]
        exact List.mem_append_left _ hc
      exact (placeFrom_ofComponents inFront here).1
    · rw [e] at split
      rcases front with - | ⟨c, front⟩
      · cases split
      · obtain ⟨rfl, rfl⟩ := List.cons.inj split
        exact (placeFrom_ofComponents (fun c hc => pieces c (List.mem_append_left _ hc)) here).2
  rw [placeFrom_eq_components, split, Place.after_append, parent]
  rfl

end RouteRegistry.Path
