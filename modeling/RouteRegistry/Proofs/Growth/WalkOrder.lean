/-
RouteRegistry/Proofs/Growth/WalkOrder.lean

What the order of the walk decides, and what it does not.

The first occurrence of a name wins.  So the order of the declarations decides
the order of the routes, which type a route gets and where a diagnostic points
to.  It does not decide which names are routes: a name is one if some eligible
declaration has it or some request asks for it.

Nor does it decide how often a name is refused.  Each valid request is either a
duplicate or a new route (`count_requests`), and a name is a new route once, if
discovery has not found it, and never otherwise (`count_merged`).  What is left
of the requests for a name are its duplicates.

Main result (`build_perm`): permuting the declarations of a catalog leaves the
names of the routes and the texts of EXR001 and of EXR002 the same, up to order.
-/
import RouteRegistry.Proofs.Catalog.Pushing
import RouteRegistry.Proofs.Growth.Account
import RouteRegistry.Proofs.Growth.Reference
import RouteRegistry.Proofs.Table.Entries

namespace RouteRegistry

/-! ### The names that an account refuses -/

namespace Verdict

/-- The name that is refused because it is no route name. -/
def invalid? : Verdict → Option String
  | .invalid name => some name
  | .skipped | .duplicate _ | .accepted _ _ => none

/-- The name that is refused because it is taken. -/
def duplicate? : Verdict → Option String
  | .duplicate name => some name
  | .skipped | .invalid _ | .accepted _ _ => none

end Verdict

/-- The names that an account refuses as invalid. -/
def invalidFor (account : List (RouteRequest × Verdict)) : List String :=
  account.flatMap fun x => x.2.invalid?.toList

/-- The names that an account refuses as duplicates. -/
def duplicatesFor (account : List (RouteRequest × Verdict)) : List String :=
  account.flatMap fun x => x.2.duplicate?.toList

/-- The texts of the diagnostics against one rule. -/
def messagesOf (code : DiagnosticCode) (ds : List Diagnostic) : List String :=
  (ds.filter (·.code = code)).map (·.message)

/-- If a rule words the names that `pick` takes from the verdicts, its texts are those of the
picked names. -/
theorem messagesOf_diagnosticsFor {code : DiagnosticCode} {pick : Verdict → Option String}
    {text : String → String}
    (one : ∀ v place, messagesOf code (v.diagnostic? place).toList = (pick v).toList.map text)
    (account : List (RouteRequest × Verdict)) :
    messagesOf code (diagnosticsFor account) =
      (account.flatMap fun x => (pick x.2).toList).map text := by
  unfold messagesOf at one ⊢
  simp only [diagnosticsFor, List.filter_flatMap, List.map_flatMap, one]

/-- The messages of EXR001 are those about the invalid names, in order. -/
theorem messagesOf_invalidRouteName (account : List (RouteRequest × Verdict)) :
    messagesOf .invalidRouteName (diagnosticsFor account) =
      (invalidFor account).map fun name => (Diagnostic.invalidRouteName name none).message := by
  apply messagesOf_diagnosticsFor
  intro v place
  rcases v with - | name | name | ⟨name, - | type⟩ <;> rfl

/-- The messages of EXR002 are those about the repeated names, in order. -/
theorem messagesOf_duplicateRoute (account : List (RouteRequest × Verdict)) :
    messagesOf .duplicateRoute (diagnosticsFor account) =
      (duplicatesFor account).map fun name => (Diagnostic.duplicateRoute name none).message := by
  apply messagesOf_diagnosticsFor
  intro v place
  rcases v with - | name | name | ⟨name, - | type⟩ <;> rfl

namespace Survey

variable {s : Survey}

/-- A request with a name is invalid, a duplicate or a new route. -/
theorem names_verdict (s : Survey) (t : RouteTable) (r : RouteRequest) :
    r.name?.toList.filter (¬ RouteName.Valid s.reserved ·) = (s.verdict t r).invalid?.toList ∧
    r.name?.toList.filter (RouteName.Valid s.reserved ·) =
      (s.verdict t r).duplicate?.toList ++ (s.verdict t r).route?.toList.map Prod.fst := by
  obtain ⟨hn, e⟩ | ⟨name, hn, ⟨invalid, e⟩ | ⟨valid, ⟨-, e⟩ | ⟨-, e⟩⟩⟩ := s.verdict_cases t r
  · rw [hn, e]
    exact ⟨rfl, rfl⟩
  · rw [hn, e]
    constructor <;> simp [invalid, Verdict.invalid?, Verdict.duplicate?, Verdict.route?]
  all_goals
    rw [hn, e]
    constructor <;> simp [valid, Verdict.invalid?, Verdict.duplicate?, Verdict.route?]

/-- The names that are asked for, in the order of the markers. -/
def wanted (s : Survey) : List String := s.requests.flatMap fun r => r.name?.toList

theorem requestedNames_eq (s : Survey) :
    s.requestedNames = s.wanted.filter (RouteName.Valid s.reserved ·) := by
  unfold wanted requestedNames
  rw [List.filterMap_eq_flatMap_toList]

/-- What holds of each request whatever the table it meets, holds along the account. -/
theorem flatMap_account {α : Type} {f : RouteRequest × Verdict → List α}
    {f' : RouteRequest → List α} (each : ∀ t r, f (r, s.verdict t r) = f' r) (t : RouteTable) :
    (s.account t).flatMap f = s.requests.flatMap f' := by
  have judged : ∀ x ∈ s.account t, f x = f' x.1 := by
    intro x hx
    obtain ⟨i, hi, rfl⟩ := List.mem_mapIdx.1 hx
    apply each
  have requests : (s.account t).map Prod.fst = s.requests := s.map_fst_accountFrom s.requests t
  rw [List.flatMap_congr judged, ← requests, List.flatMap_map]

/-- Whether a name is invalid does not depend on the table, so all invalid names are refused as
such. -/
theorem invalidFor_account (s : Survey) (t : RouteTable) :
    invalidFor (s.account t) = s.wanted.filter (¬ RouteName.Valid s.reserved ·) := by
  unfold invalidFor wanted
  rw [List.filter_flatMap]
  apply flatMap_account
  intro t r
  exact (s.names_verdict t r).1.symm

/-- Each valid request is a duplicate or a new route. -/
theorem count_requests (s : Survey) (t : RouteTable) (name : String) :
    s.requestedNames.count name =
      (duplicatesFor (s.account t)).count name +
        ((routesFor (s.account t)).map Prod.fst).count name := by
  -- every well named request ends as a duplicate or as an entry, whatever the table held
  have split : (s.account t).flatMap (fun x =>
      x.2.duplicate?.toList ++ x.2.route?.toList.map Prod.fst) = s.requestedNames := by
    rw [requestedNames_eq, wanted, List.filter_flatMap]
    apply flatMap_account
    intro t r
    exact (s.names_verdict t r).2.symm
  rw [← split, ← List.count_append]
  unfold duplicatesFor routesFor
  rw [List.map_flatMap]
  exact ((List.flatMap_append_perm ..).count_eq name).symm

/-! ### The names of the routes -/

/-- A discovery finds the names of its candidates and no others. -/
theorem mem_names_discover (hs : s.catalog.Resolvable) (suffix : String) {name : String} :
    name ∈ (s.discover suffix .empty).table.names ↔
      name ∈ (s.candidates suffix).map (·.name) := by
  have table : (s.discover suffix .empty).table = _ :=
    table_discoverFrom (fault_discover hs suffix .empty)
  rw [table, RouteTable.mem_names_addAll_iff, implicitRoutes_classLikes, List.map_map]
  exact or_iff_right List.not_mem_nil

/-- A merge leaves the names that were there and those asked for. -/
theorem mem_names_merge (hs : s.catalog.Resolvable) (t : RouteTable) {name : String} :
    name ∈ (s.merge t).table.names ↔ name ∈ t.names ∨ name ∈ s.requestedNames := by
  rw [merge_eq, table_mergeFrom (fault_mergeFrom hs ..), RouteTable.mem_names_addAll_iff,
    map_fst_requestRoute?]
  rfl

/-- A merge adds each of its new routes to the names. -/
theorem count_merge (hs : s.catalog.Resolvable) (t : RouteTable) (name : String) :
    (s.merge t).table.names.count name =
      t.names.count name + ((routesFor (s.account t)).map Prod.fst).count name := by
  have entries : (s.merge t).table.entries = t.entries ++ routesFor (s.account t) := by
    rw [merge_eq]
    exact (mergeFrom_account (fault_mergeFrom hs ..)).2
  unfold RouteTable.names
  rw [entries, List.map_append, List.count_append]

/-! ### Surveys that differ in order -/

/-- What a permutation of the declarations leaves of the candidates and the requests, whatever
identities they have. -/
structure AlikeUpToOrder (s s' : Survey) (suffix : String) : Prop where
  reserved : s'.reserved = s.reserved
  candidates : ((s.candidates suffix).map (·.name)).Perm ((s'.candidates suffix).map (·.name))
  wanted : s.wanted.Perm s'.wanted

/-- Discovery and then the merge, from the empty table; a fault ends both. -/
def build (s : Survey) (suffix : String) : Growth :=
  let found := s.discover suffix .empty
  match found.fault with
  | some _ => found
  | none => (s.merge found.table).after found.events

theorem build_eq (hs : s.catalog.Resolvable) (suffix : String) :
    s.build suffix = (s.merge (s.discover suffix .empty).table).after
      (s.discover suffix .empty).events := by
  unfold build
  dsimp only
  rw [fault_discover hs]

theorem fault_build (hs : s.catalog.Resolvable) (suffix : String) :
    (s.build suffix).fault = none := by
  rw [build_eq hs, Growth.fault_after, fault_merge hs]

/-- Only the merge reports. -/
theorem diagnosticsOf_build (hs : s.catalog.Resolvable) (suffix : String) :
    diagnosticsOf (s.build suffix).events =
      diagnosticsFor (s.account (s.discover suffix .empty).table) := by
  have merged := mergeFrom_account (fault_mergeFrom hs s.requests (s.discover suffix .empty).table)
  have silent : diagnosticsOf (s.discover suffix .empty).events = [] :=
    diagnosticsOf_discoverFrom ..
  rw [build_eq hs, Growth.events_after, diagnosticsOf_append, silent, List.nil_append, merge_eq]
  exact merged.1

namespace AlikeUpToOrder

variable {s' : Survey} {suffix : String} (h : s.AlikeUpToOrder s' suffix)

include h

/-- The same valid names are asked for. -/
theorem requestedNames : s.requestedNames.Perm s'.requestedNames := by
  rw [requestedNames_eq, requestedNames_eq, h.reserved]
  exact h.wanted.filter _

/-- The same names are refused as invalid, each as often. -/
theorem invalidFor_account :
    (invalidFor (s.account (s.discover suffix .empty).table)).Perm
      (invalidFor (s'.account (s'.discover suffix .empty).table)) := by
  rw [Survey.invalidFor_account, Survey.invalidFor_account, h.reserved]
  exact h.wanted.filter _

variable (hs : s.catalog.Resolvable) (hs' : s'.catalog.Resolvable)

include hs hs'

/-- The same names are discovered. -/
theorem names_discover :
    (s.discover suffix .empty).table.names.Perm (s'.discover suffix .empty).table.names := by
  apply RouteTable.names_perm_iff.2
  intro name
  rw [mem_names_discover hs, mem_names_discover hs', h.candidates.mem_iff]

/-- The tables have the same names. -/
theorem names_build : (s.build suffix).table.names.Perm (s'.build suffix).table.names := by
  rw [build_eq hs, build_eq hs', Growth.table_after, Growth.table_after]
  apply RouteTable.names_perm_iff.2
  intro name
  rw [mem_names_merge hs, mem_names_merge hs', (h.names_discover hs hs').mem_iff,
    h.requestedNames.mem_iff]

/-- How often a name is a duplicate: as often as it is asked for, but for the one time that it
becomes a route by being asked for. -/
theorem duplicatesFor_account :
    (duplicatesFor (s.account (s.discover suffix .empty).table)).Perm
      (duplicatesFor (s'.account (s'.discover suffix .empty).table)) := by
  apply List.perm_iff_count.2
  intro name
  have names := h.names_build hs hs'
  rw [build_eq hs, build_eq hs', Growth.table_after, Growth.table_after] at names
  -- what is asked for, found and built is the same number of times on both sides
  have asked := h.requestedNames.count_eq name
  have found := (h.names_discover hs hs').count_eq name
  have built := names.count_eq name
  rw [count_merge hs, count_merge hs'] at built
  rw [s.count_requests (s.discover suffix .empty).table,
    s'.count_requests (s'.discover suffix .empty).table] at asked
  omega

end AlikeUpToOrder

/-! ### Catalogs in two orders -/

variable {suffix : String}

/-- The name of a declaration that is eligible. -/
def offeredBy (s : Survey) (suffix : String) (d : Declaration) : List String :=
  if d.kind.isClassLike && s.isEligible suffix d then [d.name] else []

/-- The candidates can be told declaration by declaration. -/
theorem map_name_candidates (s : Survey) (suffix : String) :
    (s.candidates suffix).map (·.name) = s.catalog.declarations.flatMap (s.offeredBy suffix) := by
  have eligible : ∀ d, decide (s.Eligible suffix d) =
      (d.kind.isClassLike && s.isEligible suffix d) := by
    intro d
    rw [Bool.eq_iff_iff, decide_eq_true_iff, eligible_iff]
  unfold candidates
  simp only [eligible]
  induction s.catalog.declarations with
  | nil => rfl
  | cons d ds ih =>
    rw [List.flatMap_cons, List.filter_cons, ← ih, offeredBy]
    split <;> rfl

/-- The names that the markers of one declaration ask for. -/
def wantedBy (s : Survey) (d : Declaration) : List String :=
  (d.markers.filter fun m => s.names.extraRoute.contains m.simpleName).flatMap fun m =>
    (m.shown? 0 MarkerNames.routeNameKeys).toList

/-- The names that are asked for can be told declaration by declaration. -/
theorem wanted_eq (s : Survey) : s.wanted = s.catalog.declarations.flatMap s.wantedBy := by
  unfold wanted requests
  rw [List.flatMap_assoc]
  apply List.flatMap_congr
  intro d _
  rw [List.flatMap_map]
  rfl

/-- Neither the names that declarations offer nor those that their markers ask for depend on
identities. -/
theorem alikeUpToOrder_of_perm (names : MarkerNames) (reserved : List String) (suffix : String)
    {ds ds' : List Declaration} (h : ds.Perm ds') :
    AlikeUpToOrder ⟨(IndexedCatalog.ofList ds).toCatalog, names, reserved⟩
      ⟨(IndexedCatalog.ofList ds').toCatalog, names, reserved⟩ suffix where
  reserved := rfl
  candidates := by
    rw [map_name_candidates, map_name_candidates]
    -- the ids follow the order, but neither list reads them
    show ((IndexedCatalog.ofList ds).declarations.flatMap _).Perm
      ((IndexedCatalog.ofList ds').declarations.flatMap _)
    rw [IndexedCatalog.flatMap_ofList (fun _ _ => rfl),
      IndexedCatalog.flatMap_ofList (fun _ _ => rfl)]
    exact h.flatMap_right _
  wanted := by
    rw [wanted_eq, wanted_eq]
    show ((IndexedCatalog.ofList ds).declarations.flatMap _).Perm
      ((IndexedCatalog.ofList ds').declarations.flatMap _)
    rw [IndexedCatalog.flatMap_ofList (fun _ _ => rfl),
      IndexedCatalog.flatMap_ofList (fun _ _ => rfl)]
    exact h.flatMap_right _

/-- Permuting the declarations of a catalog leaves the names of its routes the same, and how often
each name is refused as no route name or as a duplicate. -/
theorem build_perm (names : MarkerNames) (reserved : List String) (suffix : String)
    {ds ds' : List Declaration} (h : ds.Perm ds') :
    let g := (Survey.mk (IndexedCatalog.ofList ds).toCatalog names reserved).build suffix
    let g' := (Survey.mk (IndexedCatalog.ofList ds').toCatalog names reserved).build suffix
    g.fault = none ∧ g'.fault = none ∧
    g.table.names.Perm g'.table.names ∧
    (messagesOf .invalidRouteName (diagnosticsOf g.events)).Perm
      (messagesOf .invalidRouteName (diagnosticsOf g'.events)) ∧
    (messagesOf .duplicateRoute (diagnosticsOf g.events)).Perm
      (messagesOf .duplicateRoute (diagnosticsOf g'.events)) := by
  intro g g'
  have hs := IndexedCatalog.resolvable_ofList ds
  have hs' := IndexedCatalog.resolvable_ofList ds'
  have alike := alikeUpToOrder_of_perm names reserved suffix h
  -- which of two equal names is the entry depends on the order; how often each is refused does not
  refine ⟨fault_build hs suffix, fault_build hs' suffix, alike.names_build hs hs', ?_, ?_⟩
  · rw [diagnosticsOf_build hs, diagnosticsOf_build hs', messagesOf_invalidRouteName,
      messagesOf_invalidRouteName]
    exact alike.invalidFor_account.map _
  · rw [diagnosticsOf_build hs, diagnosticsOf_build hs', messagesOf_duplicateRoute,
      messagesOf_duplicateRoute]
    exact (alike.duplicatesFor_account hs hs').map _

/-- Two shells that ask for the same route with types of their own, and two pages of one name. -/
def rivals : List Declaration :=
  let type (name space : String) (markers : List Marker) : Declaration :=
    ⟨⟨0⟩, name, space, [], .classType, false, markers, none⟩
  let login (target : String) : Marker :=
    ⟨"ExtraRoute", [⟨none, .str "Login"⟩, ⟨none, .typeRef target⟩], none⟩
  [type "Shell" "app" [login "app.Login", ⟨"ExtraRoute", [⟨none, .str "Bad!"⟩], none⟩],
    type "HomePage" "app" [],
    type "Shell" "lib" [login "lib.Login", ⟨"ExtraRoute", [⟨none, .str "HomePage"⟩], none⟩],
    type "HomePage" "lib" []]

/-- Two declarations of one name, either of which can come first. -/
theorem build_perm_rivals :
    rivals.Perm rivals.reverse ∧
    let g := (Survey.mk (IndexedCatalog.ofList rivals).toCatalog .default []).build "Page"
    let g' := (Survey.mk (IndexedCatalog.ofList rivals.reverse).toCatalog .default []).build "Page"
    g.table.names.Perm g'.table.names ∧
    (messagesOf .duplicateRoute (diagnosticsOf g.events)).Perm
      (messagesOf .duplicateRoute (diagnosticsOf g'.events)) := by
  have h : rivals.Perm rivals.reverse := rivals.reverse_perm.symm
  obtain ⟨-, -, names, -, duplicates⟩ := build_perm .default [] "Page" h
  exact ⟨h, names, duplicates⟩

/-- The types are those of the first occurrences. -/
example :
    ((Survey.mk (IndexedCatalog.ofList rivals).toCatalog .default []).build "Page").table.entries =
      [("HomePage", some "app.HomePage"), ("Login", some "app.Login")] ∧
    ((Survey.mk (IndexedCatalog.ofList rivals.reverse).toCatalog .default []).build
      "Page").table.entries = [("HomePage", some "lib.HomePage"), ("Login", some "lib.Login")] := by
  decide +kernel

end Survey

end RouteRegistry
