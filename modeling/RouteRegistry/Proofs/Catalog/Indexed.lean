/-
RouteRegistry/Proofs/Catalog/Indexed.lean

Identities that are positions, and identities that a host chooses.

The declarations of `IndexedCatalog.ofList` are those of the list but for the
identity (`getElem?_ofList`), so what does not look at the identity does not
see the difference (`map_ofList`, `flatMap_ofList`).  While positions fit into an identity, the
declaration at a position is what is found under it (`get?_ofList`,
`lookup_ofList`).

Identities of a host only have to be distinct, and then a search finds the
declaration that has the identity (`findById_of_mem`).  Distinct identities are
few enough for their positions to be identities too (`length_le_of_distinct`).
-/
import Mathlib.Data.Fintype.Card
import RouteRegistry.Catalog

namespace RouteRegistry

/-- No two declarations have the same identity. -/
def DistinctIds (ds : List Declaration) : Prop := (ds.map (·.id)).Nodup

instance (ds : List Declaration) : Decidable (DistinctIds ds) :=
  inferInstanceAs (Decidable (List.Nodup _))

/-- Positions fit into identities as long as there are no more than 32 bits can tell apart. -/
theorem DeclId.index_ofNat {i : Nat} (h : i < UInt32.size) :
    (⟨.ofNat i⟩ : DeclId).index.toNat = i :=
  UInt32.toNat_ofNat_of_lt h

/-- There are no more distinct identities than numbers of 32 bits. -/
theorem length_le_of_distinct {ds : List Declaration} (h : DistinctIds ds) :
    ds.length ≤ UInt32.size := by
  have injective : Function.Injective fun id : DeclId => id.index.toFin := by
    intro a b e
    exact congrArg DeclId.mk (UInt32.toFin_inj.1 e)
  have bound := (List.Nodup.map injective h).length_le_card
  rwa [List.length_map, List.length_map, Fintype.card_fin] at bound

/-- Where no identity occurs twice, a declaration is found again under its own. -/
theorem findById_of_mem {ds : List Declaration} (h : DistinctIds ds) {d : Declaration}
    (hd : d ∈ ds) : findById ds d.id = some d := by
  induction ds with
  | nil => exact absurd hd List.not_mem_nil
  | cons first ds ih =>
    obtain ⟨fresh, rest⟩ := List.nodup_cons.1 h
    unfold findById
    rcases List.mem_cons.1 hd with rfl | hd
    · exact List.find?_cons_of_pos (beq_self_eq_true d.id)
    · have other : (first.id == d.id) = false :=
        beq_eq_false_iff_ne.2 fun e => fresh (List.mem_map.2 ⟨d, hd, e.symm⟩)
      rw [List.find?_cons, other]
      exact ih rest hd

namespace IndexedCatalog

/-- At a position stands the declaration given there, with the position as its identity. -/
theorem getElem?_ofList (ds : List Declaration) (i : Nat) :
    (ofList ds).declarations[i]? = ds[i]?.map fun d => { d with id := ⟨.ofNat i⟩ } :=
  List.getElem?_mapIdx

/-- A declaration of the catalog is one of the list, under its position. -/
theorem exists_of_mem_ofList {ds : List Declaration} {d : Declaration}
    (h : d ∈ (ofList ds).declarations) :
    ∃ (i : Nat) (x : Declaration), ds[i]? = some x ∧ { x with id := ⟨.ofNat i⟩ } = d := by
  obtain ⟨i, numbered⟩ := List.getElem?_of_mem h
  rw [getElem?_ofList] at numbered
  exact ⟨i, Option.map_eq_some_iff.1 numbered⟩

/-- A search that does not look at the identity finds the declaration that it finds in the list. -/
theorem exists_of_find?_ofList {p : Declaration → Bool}
    (blind : ∀ (d : Declaration) (id : DeclId), p { d with id := id } = p d)
    {ds : List Declaration} {d : Declaration} (h : (ofList ds).declarations.find? p = some d) :
    ∃ (i : Nat) (x : Declaration), ds[i]? = some x ∧ ds.find? p = some x ∧
      { x with id := ⟨.ofNat i⟩ } = d := by
  -- only the id differs between a declaration of the catalog and the one it was built from
  have numbered {i : Nat} {y : Declaration} (hy : (ofList ds).declarations[i]? = some y) :
      ∃ x, ds[i]? = some x ∧ { x with id := ⟨.ofNat i⟩ } = y := by
    rw [getElem?_ofList] at hy
    exact Option.map_eq_some_iff.1 hy
  obtain ⟨picked, i, hi, found, earlier⟩ := List.find?_eq_some_iff_getElem.1 h
  obtain ⟨x, hx, rfl⟩ := numbered (List.getElem?_eq_some_iff.2 ⟨hi, found⟩)
  obtain ⟨bound, rfl⟩ := List.getElem?_eq_some_iff.1 hx
  -- `p` does not read the id, so the first hit in the catalog is the first hit in `ds`
  refine ⟨i, _, hx, List.find?_eq_some_iff_getElem.2 ⟨(blind _ _).symm.trans picked, i, bound, rfl,
    fun j hj => ?_⟩, rfl⟩
  obtain ⟨y, hy, same⟩ := numbered (List.getElem?_eq_getElem (hj.trans hi))
  have skipped := earlier j hj
  rw [← same, blind] at skipped
  rwa [(List.getElem?_eq_some_iff.1 hy).2]

/-- A function that does not look at the identity sees the declarations of the list. -/
theorem map_ofList {β : Type} {f : Declaration → β}
    (blind : ∀ (d : Declaration) (id : DeclId), f { d with id := id } = f d)
    (ds : List Declaration) : (ofList ds).declarations.map f = ds.map f := by
  refine List.ext_getElem? fun i => ?_
  rw [List.getElem?_map, List.getElem?_map, getElem?_ofList, Option.map_map]
  exact congrArg (Option.map · ds[i]?) (funext fun d => blind d _)

/-- What does not look at identities does not see that they have changed. -/
theorem flatMap_ofList {β : Type} {f : Declaration → List β}
    (blind : ∀ (d : Declaration) (id : DeclId), f { d with id := id } = f d)
    (ds : List Declaration) : (ofList ds).declarations.flatMap f = ds.flatMap f := by
  rw [List.flatMap_def, map_ofList blind, ← List.flatMap_def]

/-- Every declaration is found under the identity of its position. -/
theorem get?_ofList {ds : List Declaration} (small : ds.length ≤ UInt32.size) {i : Nat}
    {d : Declaration} (h : ds[i]? = some d) :
    (ofList ds).get? ⟨.ofNat i⟩ = some { d with id := ⟨.ofNat i⟩ } := by
  have bound : i < ds.length := (List.getElem?_eq_some_iff.1 h).1
  unfold get?
  rw [DeclId.index_ofNat (by omega), getElem?_ofList, h]
  rfl

/-- The catalog knows the qualified name of every declaration under its position. -/
theorem lookup_ofList {ds : List Declaration} (small : ds.length ≤ UInt32.size) {i : Nat}
    {d : Declaration} (h : ds[i]? = some d) :
    (ofList ds).toCatalog.lookup ⟨.ofNat i⟩ = .found d.qualifiedName := by
  show Lookup.of ((ofList ds).get? ⟨.ofNat i⟩) = .found d.qualifiedName
  rw [get?_ofList small h]
  rfl

end IndexedCatalog

end RouteRegistry
