/-
RouteRegistry/Proofs/Disk/Listing.lean

The order in which the nodes of a tree are listed.

A tree that is listed as file systems list theirs (`Disk.IsListing`) may list its
nodes in any order (`Disk.Relisted`): what stands at a place stays the same, and
so does every walk and whatever is read along one.

Main results: `Relisted.isReached_eq` for the ignore files, and
`Relisted.configOf_eq` for the settings.
-/
import RouteRegistry.Proofs.Path.Order
import RouteRegistry.Project.Pass

namespace RouteRegistry.Disk

variable {d d' : Disk}

/-! ### Listings -/

/-- Every place is listed once, and by names that can stand in a directory. -/
structure IsListing (d : Disk) : Prop where
  distinct : (d.nodes.map Prod.fst).Nodup
  named : ∀ e ∈ d.nodes, ∀ n ∈ e.1, Path.IsName n

/-- The same tree with its nodes in any order. -/
structure Relisted (d d' : Disk) : Prop where
  nodes : d'.nodes.Perm d.nodes
  workDir : d'.workDir = d.workDir

/-- Where keys are distinct, what is listed is what is found. -/
theorem lookup_eq_some_iff {α β : Type} [BEq α] [LawfulBEq α] {l : List (α × β)}
    (distinct : (l.map Prod.fst).Nodup) {a : α} {b : β} : l.lookup a = some b ↔ (a, b) ∈ l := by
  rw [List.lookup_eq_some_iff]
  constructor
  · rintro ⟨front, rest, rfl, -⟩
    exact List.mem_append_right front (List.mem_cons_self ..)
  · intro h
    obtain ⟨front, rest, rfl⟩ := List.append_of_mem h
    refine ⟨front, rest, rfl, fun e he => bne_iff_ne.2 ?_⟩
    rintro rfl
    rw [List.map_append, List.nodup_append] at distinct
    exact distinct.2.2 _ (List.mem_map_of_mem he) _ (List.mem_cons_self ..) rfl

/-- A walk looks at a tree through what stands at its places. -/
theorem follow_eq (same : d'.node? = d.node?) (pass : Place → List Component → Except OsError Spot)
    (here : Place) (steps : List Component) :
    d'.follow pass here steps = d.follow pass here steps := by
  induction steps generalizing here with
  | nil => rfl
  | cons c rest ih =>
    cases c with
    | root => exact ih []
    | here => exact ih here
    | up => exact ih here.dropLast
    | name n => simp only [follow, same, ih]

namespace Relisted

variable (R : Relisted d d') (l : d.IsListing)

include R l

theorem isListing : d'.IsListing where
  distinct := (R.nodes.map Prod.fst).nodup_iff.2 l.distinct
  named e he := l.named e (R.nodes.mem_iff.1 he)

/-! ### Walks -/

/-- What stands at a place does not depend on the order of the nodes. -/
theorem node?_eq : d'.node? = d.node? := by
  funext p
  unfold node?
  refine if_congr Iff.rfl rfl (Option.ext fun x => ?_)
  rw [lookup_eq_some_iff (R.isListing l).distinct, lookup_eq_some_iff l.distinct, R.nodes.mem_iff]

theorem spotBelow_eq : d'.spotBelow = d.spotBelow := by
  have walk (n : Nat) : d'.walk n = d.walk n := by
    induction n with
    | zero =>
      funext here steps
      exact follow_eq (R.node?_eq l) _ here steps
    | succ n ih =>
      funext here steps
      unfold walk
      rw [ih]
      exact follow_eq (R.node?_eq l) _ here steps
  exact walk maxLinks

theorem spot_eq : d'.spot = d.spot := by
  funext p
  unfold spot
  rw [R.spotBelow_eq l, R.workDir]

theorem dirPlace?_eq : d'.dirPlace? = d.dirPlace? := by
  funext p
  unfold dirPlace?
  rw [R.spot_eq l]

/-! ### Ignore files -/

theorem contentBelow_eq : d'.contentBelow = d.contentBelow := by
  funext dir names
  unfold contentBelow
  rw [R.spotBelow_eq l]

theorem rulesBelow_eq : d'.rulesBelow = d.rulesBelow := by
  funext dir names
  unfold rulesBelow
  rw [R.contentBelow_eq l]

theorem repositoryLevels_eq : d'.repositoryLevels = d.repositoryLevels := by
  have same : d'.isRepository = d.isRepository := by
    funext dir
    unfold isRepository existsBelow
    rw [R.spotBelow_eq l]
  funext ls
  unfold repositoryLevels
  rw [same]

theorem firstLine?_eq : d'.firstLine? = d.firstLine? := by
  funext base p
  unfold firstLine?
  rw [R.spotBelow_eq l]

theorem linkedRepository?_eq : d'.linkedRepository? = d.linkedRepository? := by
  funext dir
  unfold linkedRepository? linkedNotes?
  rw [R.firstLine?_eq l, R.workDir]

theorem excludeRules_eq : d'.excludeRules = d.excludeRules := by
  funext dir
  unfold excludeRules
  rw [R.spotBelow_eq l, R.linkedRepository?_eq l, R.spot_eq l, R.rulesBelow_eq l]

/-- The same files are ignored, since the same ignore files are read. -/
theorem isReached_eq : d'.isReached = d.isReached := by
  funext root dir names
  unfold isReached isSkipped ignoreVerdict
  rw [R.repositoryLevels_eq l, R.rulesBelow_eq l, R.excludeRules_eq l, R.node?_eq l]

/-! ### Settings -/

/-- The same configuration is read. -/
theorem configOf_eq : ProjectPass.configOf d' = ProjectPass.configOf d := by
  have load : Config.load d' = Config.load d := by
    funext file
    unfold Config.load readText
    rw [R.spot_eq l]
  funext root file
  unfold ProjectPass.configOf Config.loadFor isFile
  rw [load, R.spot_eq l]

end Relisted

end RouteRegistry.Disk
