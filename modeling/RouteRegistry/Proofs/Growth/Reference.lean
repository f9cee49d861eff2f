/-
RouteRegistry/Proofs/Growth/Reference.lean

The route table of a catalog, said without a loop.

`Survey.reference` lists the names of the eligible declarations and then those
of the requests, each name where it comes first.  A name that some eligible
declaration has takes its type from the first of them; any other name takes it
from the first request for it and from no other.

Main result (`entries_merge_discover`): on a catalog that knows the names of its
declarations, discovery and a merge after it succeed, and the table they build
is the reference.
-/
import RouteRegistry.Proofs.Growth.Step

namespace RouteRegistry

namespace Survey

/-- A declaration that is a route by itself. -/
structure Eligible (s : Survey) (suffix : String) (d : Declaration) : Prop where
  classLike : d.kind = .classType ∨ d.kind = .recordType
  concrete : d.isAbstract = false
  kept : ∀ m ∈ d.markers, m.simpleName ∉ s.names.ignore
  ends : suffix.toList <:+ d.name.toList
  valid : RouteName.Valid s.reserved d.name

/-- Classes and records are class-like, and nothing else is. -/
theorem isClassLike_iff (k : TypeKind) :
    k.isClassLike = true ↔ k = .classType ∨ k = .recordType := by
  cases k <;> simp [TypeKind.isClassLike]

/-- The test that a discovery makes is the condition. -/
theorem eligible_iff {s : Survey} {suffix : String} {d : Declaration} :
    (d.kind.isClassLike && s.isEligible suffix d) = true ↔ s.Eligible suffix d := by
  have kept : s.names.ignores d = false ↔ ∀ m ∈ d.markers, m.simpleName ∉ s.names.ignore := by
    simp [MarkerNames.ignores, Declaration.hasMarker]
  simp only [isEligible, Text.endsWith, Bool.and_eq_true, Bool.not_eq_true', isClassLike_iff,
    RouteName.isValid_iff, List.isSuffixOf_iff_suffix, kept]
  constructor
  · rintro ⟨hc, ⟨⟨he, ha⟩, hk⟩, hv⟩
    exact ⟨hc, ha, hk, he, hv⟩
  · rintro ⟨hc, ha, hk, he, hv⟩
    exact ⟨hc, ⟨⟨he, ha⟩, hk⟩, hv⟩

instance (s : Survey) (suffix : String) (d : Declaration) : Decidable (s.Eligible suffix d) :=
  decidable_of_iff _ eligible_iff

/-! ### The reference -/

/-- The eligible declarations, in catalog order. -/
def candidates (s : Survey) (suffix : String) : List Declaration :=
  s.catalog.declarations.filter (s.Eligible suffix ·)

/-- The valid names that are asked for, in the order of the markers. -/
def requestedNames (s : Survey) : List String :=
  (s.requests.filterMap RouteRequest.name?).filter (RouteName.Valid s.reserved ·)

/-- The type that belongs to a route. -/
def referenceType (s : Survey) (suffix name : String) : Option String :=
  match (s.candidates suffix).find? fun d => d.name == name with
  | some d => s.catalog.qualifiedName? d
  | none => (s.requests.find? fun r => r.name? == some name).bind fun r => s.typeFor r name

/-- Every route once, where its name comes first, with the type that belongs to it. -/
def reference (s : Survey) (suffix : String) : List (String × Option String) :=
  ((s.candidates suffix).map (·.name) ++ s.requestedNames).eraseDups.map fun name =>
    (name, s.referenceType suffix name)

/-! ### The walks against the reference -/

variable (s : Survey) (suffix : String)

/-- What discovery walks over are the candidates. -/
theorem implicitRoutes_classLikes :
    s.implicitRoutes suffix s.catalog.classLikes =
      (s.candidates suffix).map fun d => (d.name, s.catalog.qualifiedName? d) := by
  unfold implicitRoutes candidates Catalog.classLikes
  rw [List.filter_filter]
  refine congrArg (List.map _) (List.filter_congr fun d _ => ?_)
  rw [Bool.eq_iff_iff, Bool.and_comm, eligible_iff, decide_eq_true_iff]

/-- The markers ask for the valid among the names that they show. -/
theorem map_fst_requestRoute? (rs : List RouteRequest) :
    (rs.filterMap s.requestRoute?).map Prod.fst =
      (rs.filterMap RouteRequest.name?).filter (RouteName.Valid s.reserved ·) := by
  have fst : ∀ r, (s.requestRoute? r).map Prod.fst =
      r.name?.filter (RouteName.Valid s.reserved ·) := by
    intro r
    unfold requestRoute?
    rw [Option.map_map]
    exact Option.map_id'
  rw [List.map_filterMap, List.filter_filterMap]
  simp only [fst]

/-- A discovered name has the type of the first declaration of that name. -/
theorem firstType_implicit (ds : List Declaration) (name : String) :
    RouteTable.firstType (ds.map fun d => (d.name, s.catalog.qualifiedName? d)) name =
      (ds.find? fun d => d.name == name).bind s.catalog.qualifiedName? := by
  unfold RouteTable.firstType
  rw [List.find?_map, Option.bind_map]
  rfl

variable {s} in
/-- A requested name has the type that its first request calls for. -/
theorem firstType_requestRoute? {name : String} (valid : RouteName.Valid s.reserved name)
    (rs : List RouteRequest) :
    RouteTable.firstType (rs.filterMap s.requestRoute?) name =
      (rs.find? fun r => r.name? == some name).bind fun r => s.typeFor r name := by
  -- a request offers a route of this name exactly if it names it, the name being valid
  have picked : ∀ r, (s.requestRoute? r).any (fun x => x.1 == name) =
      (r.name? == some name) := by
    intro r
    unfold requestRoute?
    rcases r.name? with - | n
    · rfl
    · by_cases hn : n = name
      · subst hn; simp [Option.filter, valid]
      · by_cases hv : RouteName.Valid s.reserved n <;> simp [Option.filter, hv, hn]
  unfold RouteTable.firstType
  rw [List.find?_filterMap, Option.bind_assoc]
  simp only [picked]
  cases hf : rs.find? fun r => r.name? == some name with
  | none => rfl
  | some r =>
    have hr : r.name? = some name := by simpa using List.find?_some hf
    simp [requestRoute?, hr, Option.filter, valid]

/-- Candidates come before requests, so a request decides the type only where no candidate has
the name. -/
theorem firstType_routes {name : String} (valid : RouteName.Valid s.reserved name) :
    RouteTable.firstType
        ((s.candidates suffix).map (fun d => (d.name, s.catalog.qualifiedName? d)) ++
          s.requests.filterMap s.requestRoute?) name =
      s.referenceType suffix name := by
  unfold referenceType
  -- the candidates come first: a request decides the type of a name no candidate bears
  cases hf : (s.candidates suffix).find? fun d => d.name == name with
  | none =>
    rw [RouteTable.firstType_append_of_not_mem, firstType_requestRoute? valid]
    intro hmem
    rw [List.map_map, List.mem_map] at hmem
    obtain ⟨d, hd, hname⟩ := hmem
    exact List.find?_eq_none.1 hf d hd (beq_iff_eq.2 hname)
  | some d =>
    rw [RouteTable.firstType_append, firstType_implicit, hf]
    · rfl
    · rw [List.map_map, List.mem_map]
      exact ⟨d, List.mem_of_find?_eq_some hf, by simpa using List.find?_some hf⟩

theorem valid_of_mem_names {name : String}
    (h : name ∈ (s.candidates suffix).map (·.name) ++ s.requestedNames) :
    RouteName.Valid s.reserved name := by
  rcases List.mem_append.1 h with h | h
  · obtain ⟨d, hd, rfl⟩ := List.mem_map.1 h
    have eligible : s.Eligible suffix d := by simpa using (List.mem_filter.1 hd).2
    exact eligible.valid
  · simpa using (List.mem_filter.1 h).2

/-! ### The table -/

/-- Where every declaration has a qualified name, discovery and the merge after it succeed, and
the table they build is the reference. -/
theorem entries_merge_discover (hs : s.catalog.Resolvable) :
    (s.discover suffix .empty).fault = none ∧
    (s.merge (s.discover suffix .empty).table).fault = none ∧
    (s.merge (s.discover suffix .empty).table).table.entries = s.reference suffix := by
  have classLikes : ∀ d ∈ s.catalog.classLikes, d ∈ s.catalog.declarations :=
    fun d hd => (List.mem_filter.1 hd).1
  have found : (s.discover suffix .empty).fault = none := fault_discoverFrom hs classLikes .empty
  have merged : (s.merge (s.discover suffix .empty).table).fault = none := by
    rw [merge_eq]
    exact fault_mergeFrom hs _ _
  refine ⟨found, merged, ?_⟩
  -- both walks in one list of routes, added to the empty table
  have table : (s.merge (s.discover suffix .empty).table).table =
      RouteTable.empty.addAll
        (s.implicitRoutes suffix s.catalog.classLikes ++ s.requests.filterMap s.requestRoute?) := by
    rw [merge_eq] at merged ⊢
    rw [table_mergeFrom merged, RouteTable.addAll_append]
    exact congrArg (RouteTable.addAll · _) (table_discoverFrom found)
  have names : (s.implicitRoutes suffix s.catalog.classLikes ++
        s.requests.filterMap s.requestRoute?).map Prod.fst =
      (s.candidates suffix).map (·.name) ++ s.requestedNames := by
    rw [List.map_append, map_fst_requestRoute?, implicitRoutes_classLikes, List.map_map]
    rfl
  have fresh : ∀ names : List String, names.filter (fun n => n ∉ RouteTable.empty.names) = names :=
    fun names => List.filter_eq_self.2 fun n _ => by simp [RouteTable.names]
  rw [table, RouteTable.entries_addAll, names, implicitRoutes_classLikes, fresh,
    RouteTable.entries_empty, List.nil_append]
  refine List.map_congr_left fun name hname => ?_
  rw [firstType_routes s suffix (s.valid_of_mem_names suffix (List.mem_eraseDups.1 hname))]

/-- A page that is found, a name with a declared type, and one without. -/
theorem entries_merge_discover_small :
    small.catalog.Resolvable ∧
    (small.merge (small.discover "Page" .empty).table).table.entries =
      [("HomePage", some "app.home.HomePage"), ("Login", some "app.auth.Login"),
        ("Help", none)] := by
  have hs : small.catalog.Resolvable := Catalog.resolvable_ofList _
  obtain ⟨-, -, entries⟩ := entries_merge_discover small "Page" hs
  exact ⟨hs, entries.trans (by decide +kernel)⟩

end Survey

end RouteRegistry
