/-
RouteRegistry/Proofs/Catalog/Pushing.lean

Catalogs that are filled one declaration after the other.

A push overwrites the identity that a declaration comes with by its position, so
in the catalog that pushes lead to every declaration has its position as
identity (`Numbered`, kept by `Numbered.push`).

As long as positions fit into identities, no two declarations share one, and
then the declaration at a position is the one that a search for the identity
finds (`Numbered.get?_eq`).  When they no longer fit, an identity stands for an
earlier position; there may be a wrong name under it but never none
(`Numbered.resolvable`).  So the fault that ends a walk for want of a name does
not occur on such a catalog, however large it is.

Main result (`push_positions`), for any declarations that are pushed, and for
the catalog of any Java files.
-/
import Mathlib.Data.List.Induction
import RouteRegistry.Proofs.Catalog.Indexed
import RouteRegistry.Proofs.Growth.Step
import RouteRegistry.SourceCatalog

namespace RouteRegistry

namespace IndexedCatalog

/-- Each declaration has its position as identity. -/
def Numbered (c : IndexedCatalog) : Prop :=
  ∀ (i : Nat) (d : Declaration), c.declarations[i]? = some d → d.id = ⟨.ofNat i⟩

/-! ### Pushes -/

theorem numbered_empty : empty.Numbered := by
  intro i d h
  cases h

/-- The declaration that is added gets the position that it is added at. -/
theorem Numbered.push {c : IndexedCatalog} (h : c.Numbered) (d : Declaration) :
    (c.push d).Numbered := by
  intro i x hx
  unfold IndexedCatalog.push at hx
  rw [List.getElem?_append] at hx
  split at hx
  case isTrue => exact h i x hx
  case isFalse behind =>
    -- the only position behind the others is the one that the new identity is made of
    rw [List.getElem?_singleton] at hx
    split at hx
    case isFalse => cases hx
    case isTrue last =>
      have position : i = c.size := by unfold size; omega
      rw [← Option.some.inj hx, position]
      rfl

/-- Adding at the end of the list is adding to the catalog. -/
theorem ofList_concat (ds : List Declaration) (d : Declaration) :
    ofList (ds ++ [d]) = (ofList ds).push d := by
  unfold ofList IndexedCatalog.push nextId size
  rw [List.mapIdx_concat, List.length_mapIdx]

/-- A catalog of a list is what pushing the list one by one leads to. -/
theorem foldl_push (ds : List Declaration) : ds.foldl push empty = ofList ds := by
  induction ds using List.reverseRecOn with
  | nil => rfl
  | append_singleton ds d ih => rw [List.foldl_concat, ih, ofList_concat]

theorem numbered_ofList (ds : List Declaration) : (ofList ds).Numbered := by
  induction ds using List.reverseRecOn with
  | nil => exact numbered_empty
  | append_singleton ds d ih =>
    rw [ofList_concat]
    exact ih.push d

theorem size_ofList (ds : List Declaration) : (ofList ds).size = ds.length := List.length_mapIdx

/-! ### Identities that are positions -/

namespace Numbered

variable {c : IndexedCatalog}

/-- An identity stands for a position of the catalog, its own one or an earlier one. -/
theorem resolvable (h : c.Numbered) : c.toCatalog.Resolvable := by
  intro d hd
  obtain ⟨i, hi⟩ := List.getElem?_of_mem hd
  have bound : i < c.declarations.length := (List.getElem?_eq_some_iff.1 hi).1
  -- numbers of 32 bits run out, and then they start again
  have position : (UInt32.ofNat i).toNat < c.declarations.length :=
    Nat.lt_of_le_of_lt (Nat.mod_le ..) bound
  have known : c.get? d.id = some c.declarations[(UInt32.ofNat i).toNat] := by
    rw [h i d hi]
    exact List.getElem?_eq_getElem position
  refine ⟨c.declarations[(UInt32.ofNat i).toNat].qualifiedName, ?_⟩
  show (Lookup.of (c.get? d.id)).name? = _
  rw [known]
  rfl

/-- As long as positions fit into identities, the identities are 0, 1, 2 and so on. -/
theorem ids_eq (h : c.Numbered) (small : c.size ≤ UInt32.size) :
    c.declarations.map (·.id.index.toNat) = List.range c.size := by
  refine List.ext_getElem (by rw [List.length_map, List.length_range]; rfl) fun i hi _ => ?_
  rw [List.length_map] at hi
  rw [List.getElem_map, List.getElem_range, h i _ (List.getElem?_eq_getElem hi)]
  exact DeclId.index_ofNat (Nat.lt_of_lt_of_le hi small)

/-- As long as positions fit into identities, no identity occurs twice. -/
theorem distinctIds (h : c.Numbered) (small : c.size ≤ UInt32.size) :
    DistinctIds c.declarations := by
  have positions : ((c.declarations.map (·.id)).map (·.index.toNat)).Nodup := by
    rw [List.map_map]
    show (c.declarations.map (·.id.index.toNat)).Nodup
    rw [h.ids_eq small]
    exact List.nodup_range
  exact positions.of_map

/-- The declaration at the position is the one with the identity, and where there is no position
there is no identity. -/
theorem get?_eq (h : c.Numbered) (small : c.size ≤ UInt32.size) (id : DeclId) :
    c.get? id = findById c.declarations id := by
  rcases found : findById c.declarations id with - | d
  -- nothing carries the id: a declaration at its index would carry it, the ids being positions
  · unfold get?
    rw [List.getElem?_eq_none_iff]
    by_contra inside
    have here := List.getElem?_eq_getElem (Nat.lt_of_not_le inside)
    have own : c.declarations[id.index.toNat].id = id := by
      rw [h _ _ here]
      exact congrArg DeclId.mk UInt32.ofNat_toNat
    exact List.find?_eq_none.1 found _ (List.mem_of_getElem? here) (beq_iff_eq.2 own)
  -- the one found stands at the index its id names, which the bound keeps from wrapping around
  · obtain ⟨i, hi⟩ := List.getElem?_of_mem (List.mem_of_find?_eq_some found)
    have bound : i < c.size := (List.getElem?_eq_some_iff.1 hi).1
    have own : d.id = id := by
      unfold findById at found
      simpa using List.find?_some found
    unfold get?
    rw [← own, h i d hi, DeclId.index_ofNat (Nat.lt_of_lt_of_le bound small), hi]

/-- Every declaration of a numbered catalog is known under its own identity. -/
theorem lookup_eq (h : c.Numbered) (small : c.size ≤ UInt32.size) {d : Declaration}
    (hd : d ∈ c.declarations) : c.toCatalog.lookup d.id = .found d.qualifiedName := by
  show Lookup.of (c.get? d.id) = _
  rw [h.get?_eq small, findById_of_mem (h.distinctIds small) hd]
  rfl

end Numbered

/-- A catalog that counts knows all of its declarations. -/
theorem resolvable_ofList (ds : List Declaration) : (ofList ds).toCatalog.Resolvable :=
  (numbered_ofList ds).resolvable

end IndexedCatalog

/-! ### Steps over such catalogs -/

/-- No step in the building of a table ends in a fault when all names are known. -/
theorem BuildStep.exists_answer {s : Survey} (hs : s.catalog.Resolvable) (step : BuildStep)
    (t : RouteTable) : ∃ added, (step.run s t).answer t = .ok added := by
  have finished : (step.run s t).fault = none := by
    cases step with
    | discover suffix => exact Survey.fault_discover hs suffix t
    | merge => exact Survey.fault_merge hs t
  unfold Growth.answer
  rw [finished]
  exact ⟨_, rfl⟩

namespace IndexedCatalog

/-- However declarations are numbered before they are pushed, afterwards their identities count up
from zero, the one at a position is what a search for its identity finds, and under its identity
each has its own name, provided that there are identities enough.  In any case a step of discovery
or of a merge answers with a number of routes, as it does on the catalog of any Java files. -/
theorem push_positions (ds : List Declaration) :
    let c := ds.foldl push empty
    (ds.length ≤ UInt32.size →
      c.declarations.map (·.id.index.toNat) = List.range ds.length ∧
      (∀ id, c.get? id = findById c.declarations id) ∧
      ∀ d ∈ c.declarations, c.toCatalog.lookup d.id = .found d.qualifiedName) ∧
    (∀ (names : MarkerNames) (reserved : List String) (step : BuildStep) (t : RouteTable),
      ∃ added, (step.run ⟨c.toCatalog, names, reserved⟩ t).answer t = .ok added) ∧
    ∀ (models : List Source.FileModel) (names : MarkerNames) (reserved : List String)
      (step : BuildStep) (t : RouteTable), ∃ added,
        (step.run ⟨(SourceCatalog.ofModels models).toCatalog, names, reserved⟩ t).answer t =
          .ok added := by
  intro c
  have pushed : c = ofList ds := foldl_push ds
  have numbered : c.Numbered := pushed ▸ numbered_ofList ds
  have size : c.size = ds.length := pushed ▸ size_ofList ds
  refine ⟨fun small => ?_, fun names reserved step t => ?_, fun models names reserved step t => ?_⟩
  · rw [← size] at small ⊢
    exact ⟨numbered.ids_eq small, numbered.get?_eq small, fun d => numbered.lookup_eq small⟩
  · exact BuildStep.exists_answer numbered.resolvable step t
  · exact BuildStep.exists_answer (resolvable_ofList _) step t

/-- Two pages under one identity, and a class that asks for one of them. -/
def strays : List Declaration :=
  [⟨⟨7⟩, "HomePage", "app", [], .classType, false, [], none⟩,
    ⟨⟨7⟩, "Help", "app.help", [], .classType, false, [], none⟩,
    ⟨⟨0⟩, "Shell", "app", [], .classType, false,
      [⟨"ExtraRoute", [⟨none, .str "Help"⟩], none⟩], none⟩]

/-- Identities that the declarations came with do not matter. -/
theorem push_positions_strays :
    let c := strays.foldl push empty
    strays.length ≤ UInt32.size ∧ c.declarations.map (·.id.index.toNat) = [0, 1, 2] ∧
    findById c.declarations ⟨7⟩ = none ∧
    (∃ d ∈ c.declarations, c.toCatalog.lookup d.id = .found "app.help.Help") ∧
    ∃ added, (BuildStep.merge.run ⟨c.toCatalog, .default, []⟩ .empty).answer .empty =
      .ok added := by
  have small : strays.length ≤ UInt32.size := by decide
  obtain ⟨positions, answers, -⟩ := push_positions strays
  obtain ⟨ids, found, names⟩ := positions small
  refine ⟨small, ids, (found ⟨7⟩).symm.trans rfl, ?_, answers .default [] .merge .empty⟩
  let help : Declaration := ⟨⟨1⟩, "Help", "app.help", [], .classType, false, [], none⟩
  exact ⟨help, by decide, (names help (by decide)).trans (by decide +kernel)⟩

end IndexedCatalog

end RouteRegistry
