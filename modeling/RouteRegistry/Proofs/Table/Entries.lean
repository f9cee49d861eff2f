/-
RouteRegistry/Proofs/Table/Entries.lean

What a table consists of.

No name occurs twice in it.  So a table is, up to order, the set of its entries
(`RouteTable.entries_perm_iff`), and it is its names, each with what the typed
routes say about it (`RouteTable.entries_eq`).
-/
import Mathlib.Data.List.Nodup
import RouteRegistry.Table

namespace RouteRegistry

/-! ### Tables up to order -/

/-- No name occurs twice, so tables with the same names have them up to order. -/
theorem RouteTable.names_perm_iff {t t' : RouteTable} :
    t.names.Perm t'.names ↔ ∀ name, name ∈ t.names ↔ name ∈ t'.names :=
  List.perm_ext_iff_of_nodup t.nodup t'.nodup

/-- No name occurs twice, so tables with the same entries have them up to order. -/
theorem RouteTable.entries_perm_iff {t t' : RouteTable} :
    t.entries.Perm t'.entries ↔ ∀ e, e ∈ t.entries ↔ e ∈ t'.entries :=
  List.perm_ext_iff_of_nodup (List.Nodup.of_map _ t.nodup) (List.Nodup.of_map _ t'.nodup)

/-! ### Names and types make a table -/

/-- Among distinct names, a name is looked up in the typed entries as in all of them. -/
theorem lookup_typed {es : List (String × Option String)} (distinct : (es.map Prod.fst).Nodup)
    {e : String × Option String} (he : e ∈ es) :
    (es.filterMap fun e => e.2.map fun type => (e.1, type)).lookup e.1 = e.2 := by
  induction es with
  | nil => exact absurd he List.not_mem_nil
  | cons first es ih =>
    obtain ⟨fresh, rest⟩ := List.nodup_cons.1 distinct
    have other {x : String × Option String} (hx : x ∈ es) : x.1 ≠ first.1 :=
      fun same => fresh (List.mem_map.2 ⟨x, hx, same⟩)
    -- without a type, the first entry is not among the typed ones
    rcases h : first.2 with - | type
    · rw [List.filterMap_cons_none (by rw [h]; rfl)]
      rcases List.mem_cons.1 he with rfl | he
      · rw [h, List.lookup_eq_none_iff]
        intro p hp
        obtain ⟨x, hx, e⟩ := List.mem_filterMap.1 hp
        obtain ⟨_, -, rfl⟩ := Option.map_eq_some_iff.1 e
        simpa using (other hx).symm
      · exact ih rest he
    · rw [List.filterMap_cons_some (by rw [h]; rfl)]
      rcases List.mem_cons.1 he with rfl | he
      · rw [h]
        exact List.lookup_cons_self
      · rw [List.lookup_cons, beq_eq_false_iff_ne.2 (other he)]
        exact ih rest he

/-- A table is its names, each with what the typed routes say about it. -/
theorem RouteTable.entries_eq (t : RouteTable) :
    t.entries = t.names.map fun name => (name, t.typed.lookup name) := by
  have same : ∀ e ∈ t.entries, (e.1, t.typed.lookup e.1) = e := by
    intro e he
    exact Prod.ext rfl (lookup_typed t.nodup he)
  unfold names
  rw [List.map_map]
  exact ((List.map_congr_left same).trans (List.map_id' _)).symm

/-- The routes that have a type are some of the routes, in their order. -/
theorem RouteTable.typed_sublist (t : RouteTable) : (t.typed.map Prod.fst).Sublist t.names := by
  unfold typed names
  induction t.entries with
  | nil => exact List.Sublist.slnil
  | cons e es ih =>
    rcases h : e.2 with - | type
    · rw [List.filterMap_cons_none (by rw [h]; rfl)]
      exact ih.cons e.1
    · rw [List.filterMap_cons_some (by rw [h]; rfl)]
      exact ih.cons_cons e.1

end RouteRegistry
