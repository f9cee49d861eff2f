/-
RouteRegistry/Proofs/Growth/Completion.lean

Steps that have nothing left to add.

`BuildStep.names` are the names that a step could add.  A step that succeeds
leaves all of them in the table (`mem_names_of_run`), no later step takes one out
(`mem_names_foldl`), and where all of them are in the table the step asks the
catalog nothing and adds nothing (`discover_of_taken`, `merge_of_taken`).

Main result (`BuildStep.run_completed`): after a merge that succeeded, every
later merge succeeds, leaves the table as it is and reports each named request,
at its place, as invalid or as a duplicate.  After a discovery that succeeded, every later
discovery of the same or a longer suffix succeeds and does nothing.
-/
import RouteRegistry.Proofs.Growth.Interruption

namespace RouteRegistry

/-- The diagnostic for a request whose name is taken or not valid; one without a name has none. -/
def RouteRequest.refusal? (reserved : List String) (r : RouteRequest) : Option Diagnostic :=
  r.name?.map fun name =>
    if RouteName.Valid reserved name then .duplicateRoute name r.origin
    else .invalidRouteName name r.origin

/-- A refusal never complains about a missing type. -/
theorem RouteRequest.code_of_refusal? {reserved : List String} {r : RouteRequest} {d : Diagnostic}
    (h : r.refusal? reserved = some d) : d.code ≠ .unresolvedRouteType := by
  obtain ⟨name, -, rfl⟩ := Option.map_eq_some_iff.1 h
  split <;> exact nofun

/-- A refusal says by its code which of the two it is, and quotes the name, at the request's
place. -/
theorem RouteRequest.notice_refusal? (reserved : List String) (r : RouteRequest) :
    (r.refusal? reserved).map Diagnostic.notice = r.name?.map fun name =>
      (if RouteName.Valid reserved name then .duplicateRoute else .invalidRouteName, name,
        r.origin) := by
  unfold refusal?
  rw [Option.map_map]
  refine congrArg (Option.map · r.name?) (funext fun name => ?_)
  show Diagnostic.notice (if _ then _ else _) = _
  split
  · exact congrArg (fun q => (_, q, r.origin)) (Diagnostic.quoted_duplicateRoute ..)
  · exact congrArg (fun q => (_, q, r.origin)) (Diagnostic.quoted_invalidRouteName ..)

/-- The names that the step could add to a table. -/
def BuildStep.names (s : Survey) : BuildStep → List String
  | .discover suffix => (s.candidates suffix).map (·.name)
  | .merge => s.requestedNames

namespace Survey

variable {s : Survey} {suffix : String} {t : RouteTable}

/-! ### Walks over names that are taken -/

/-- A discovery that finds all its names taken asks nothing and adds nothing. -/
theorem discoverFrom_of_taken {ds : List Declaration}
    (taken : ∀ d ∈ ds, s.isEligible suffix d = true → d.name ∈ t.names) :
    s.discoverFrom suffix ds t = .stop t := by
  induction ds with
  | nil => rfl
  | cons d ds ih =>
    -- an eligible name is in the table already, so no declaration passes the test
    have skipped : ¬ (s.isEligible suffix d && !t.contains d.name) = true := by
      intro h
      rw [Bool.and_eq_true, Bool.not_eq_true'] at h
      obtain ⟨eligible, fresh⟩ := h
      have here := taken d (List.mem_cons_self ..) eligible
      simp [RouteTable.contains, here] at fresh
    rw [discoverFrom, if_neg skipped]
    exact ih fun x hx => taken x (List.mem_cons_of_mem d hx)

/-- A request whose name is taken is refused, and the catalog is not asked for a type. -/
theorem mergeFrom_cons_of_taken {r : RouteRequest}
    (taken : ∀ name, r.name? = some name → RouteName.Valid s.reserved name → name ∈ t.names)
    (es : List ExtraRoute) :
    s.mergeFrom (r.read :: es) t =
      (s.mergeFrom es t).after ((r.refusal? s.reserved).toList.map Event.report) := by
  rw [mergeFrom, RouteRequest.usableName_read, RouteRequest.origin_read, RouteRequest.refusal?]
  rcases hn : r.name? with - | name
  · rfl
  -- with every valid name taken a request is blank, badly named or a duplicate: the table stays
  · by_cases valid : RouteName.Valid s.reserved name
    · have contained : t.contains name = true := by
        simp [RouteTable.contains, taken name hn valid]
      simp only [RouteName.isValid_iff.2 valid, contained, Bool.not_true, Bool.false_eq_true,
        if_false, if_true, Option.map_some, if_pos valid]
      rfl
    · have rejected : (!RouteName.isValid s.reserved name) = true := by
        rw [Bool.not_eq_true', ← Bool.not_eq_true]
        exact fun h => valid (RouteName.isValid_iff.1 h)
      simp only [rejected, if_true, Option.map_some, if_neg valid]
      rfl

/-- A merge that finds all its valid names taken refuses one request after the other. -/
theorem mergeFrom_of_taken {rs : List RouteRequest}
    (taken : ∀ r ∈ rs, ∀ name, r.name? = some name → RouteName.Valid s.reserved name →
      name ∈ t.names) :
    s.mergeFrom (rs.map RouteRequest.read) t =
      ⟨t, (rs.filterMap (RouteRequest.refusal? s.reserved)).map .report, none⟩ := by
  induction rs with
  | nil => rfl
  | cons r rs ih =>
    have first := taken r (List.mem_cons_self ..)
    have rest := ih fun x hx => taken x (List.mem_cons_of_mem r hx)
    rw [List.map_cons, mergeFrom_cons_of_taken first, rest, List.filterMap_cons]
    rcases r.refusal? s.reserved with - | d <;> rfl

end Survey

/-! ### What a step could add -/

namespace BuildStep

variable {s : Survey} {suffix : String} {name : String}

/-- A discovery could add the eligible names. -/
theorem mem_discover_names :
    name ∈ (discover suffix).names s ↔
      ∃ d ∈ s.catalog.classLikes, s.isEligible suffix d = true ∧ d.name = name := by
  have routes := congrArg (List.map Prod.fst) (s.implicitRoutes_classLikes suffix)
  unfold Survey.implicitRoutes at routes
  rw [List.map_map, List.map_map] at routes
  show name ∈ (s.candidates suffix).map (·.name) ↔ _
  rw [show (s.candidates suffix).map (·.name) = _ from routes.symm, List.mem_map]
  simp only [List.mem_filter, Function.comp_apply, and_assoc]

/-- A merge could add the valid names that markers ask for. -/
theorem mem_merge_names :
    name ∈ merge.names s ↔
      RouteName.Valid s.reserved name ∧ ∃ r ∈ s.requests, r.name? = some name := by
  show name ∈ s.requestedNames ↔ _
  unfold Survey.requestedNames
  rw [List.mem_filter, List.mem_filterMap, decide_eq_true_iff]
  exact And.comm

/-- A longer suffix asks for no more. -/
theorem names_discover_subset {longer : String} (ends : Text.endsWith longer suffix = true) :
    (discover longer).names s ⊆ (discover suffix).names s := by
  unfold Text.endsWith at ends
  rw [List.isSuffixOf_iff_suffix] at ends
  intro name hname
  obtain ⟨d, hd, rfl⟩ := List.mem_map.1 hname
  obtain ⟨mem, eligible⟩ := List.mem_filter.1 hd
  rw [decide_eq_true_iff] at eligible
  have kept : s.Eligible suffix d := { eligible with ends := ends.trans eligible.ends }
  exact List.mem_map_of_mem (List.mem_filter.2 ⟨mem, decide_eq_true kept⟩)

end BuildStep

namespace Survey

variable {s : Survey} {suffix : String} {t : RouteTable}

theorem discover_of_taken (taken : ∀ name ∈ (BuildStep.discover suffix).names s, name ∈ t.names) :
    s.discover suffix t = .stop t :=
  discoverFrom_of_taken fun d hd eligible =>
    taken d.name (BuildStep.mem_discover_names.2 ⟨d, hd, eligible, rfl⟩)

theorem merge_of_taken (taken : ∀ name ∈ BuildStep.merge.names s, name ∈ t.names) :
    s.merge t =
      ⟨t, (s.requests.filterMap (RouteRequest.refusal? s.reserved)).map .report, none⟩ := by
  rw [merge_eq]
  exact mergeFrom_of_taken fun r hr name hn valid =>
    taken name (BuildStep.mem_merge_names.2 ⟨valid, r, hr, hn⟩)

end Survey

namespace BuildStep

variable {s : Survey} {t : RouteTable}

/-! ### Names that stay -/

/-- A step that succeeds leaves every name in the table that it could add. -/
theorem mem_names_of_run {step : BuildStep} (h : (step.run s t).fault = none) {name : String}
    (hname : name ∈ step.names s) : name ∈ (step.run s t).table.names := by
  -- a walk without a fault has added the routes of all its items
  cases step with
  | discover suffix =>
    have table : (run s t (.discover suffix)).table = _ := Survey.table_discoverFrom h
    rw [table, RouteTable.mem_names_addAll_iff, s.implicitRoutes_classLikes, List.map_map]
    exact .inr hname
  | merge =>
    have merged : run s t .merge = s.mergeFrom (s.requests.map RouteRequest.read) t :=
      s.merge_eq t
    rw [merged] at h ⊢
    rw [Survey.table_mergeFrom h, RouteTable.mem_names_addAll_iff, s.map_fst_requestRoute?]
    exact .inr hname

/-- No step takes a name out of the table. -/
theorem mem_names_foldl {name : String} (steps : List BuildStep) (h : name ∈ t.names) :
    name ∈ (steps.foldl (fun t step => (step.run s t).table) t).names := by
  induction steps generalizing t with
  | nil => exact h
  | cons step steps ih =>
    obtain ⟨routes, table, -⟩ := step.table_run s t
    have kept : name ∈ (step.run s t).table.names := by
      rw [table]
      exact RouteTable.mem_names_addAll_iff.2 (.inl h)
    exact ih kept

/-- What a step that succeeded could add is in the table after any later steps. -/
theorem mem_names_tableAfter (step : BuildStep) {before : List BuildStep}
    (h : (step.run s (s.tableAfter before)).fault = none) (between : List BuildStep)
    {name : String} (hname : name ∈ step.names s) :
    name ∈ (s.tableAfter (before ++ step :: between)).names := by
  rw [Survey.tableAfter_append]
  exact mem_names_foldl between (mem_names_of_run h hname)

/-! ### Steps that are repeated -/

/-- After a merge that succeeded, and any steps behind it, a merge does nothing but refuse each
named request at its place, as a duplicate if the name is valid and as invalid otherwise.  After a
discovery that succeeded, and any steps behind
it, a discovery of a suffix that ends in the same one does nothing at all. -/
theorem run_completed (s : Survey) (before between : List BuildStep) :
    ((s.merge (s.tableAfter before)).fault = none →
      let t := s.tableAfter (before ++ .merge :: between)
      let refusals := s.requests.filterMap (RouteRequest.refusal? s.reserved)
      s.merge t = ⟨t, refusals.map .report, none⟩ ∧ (s.merge t).answer t = .ok 0 ∧
        diagnosticsOf (s.merge t).events = refusals ∧
        ((diagnosticsOf (s.merge t).events).map fun d => (d.code, d.quoted, d.location)) =
          (s.requests.filterMap fun r => r.name?.map fun name =>
            (if RouteName.Valid s.reserved name then .duplicateRoute else .invalidRouteName, name,
              r.origin)) ∧
        ∀ d ∈ refusals, d.code ≠ .unresolvedRouteType) ∧
    ∀ suffix longer, Text.endsWith longer suffix = true →
      (s.discover suffix (s.tableAfter before)).fault = none →
      let t := s.tableAfter (before ++ .discover suffix :: between)
      s.discover longer t = .stop t ∧ (s.discover longer t).answer t = .ok 0 := by
  constructor
  · intro succeeded t refusals
    -- whatever the steps between did, all that the merge could add is in the table
    have again : s.merge t = ⟨t, refusals.map .report, none⟩ :=
      Survey.merge_of_taken fun _ => mem_names_tableAfter .merge succeeded between
    have reported : diagnosticsOf (refusals.map .report) = refusals := by
      unfold diagnosticsOf
      rw [List.filterMap_map]
      exact List.filterMap_some
    have notices : refusals.map Diagnostic.notice = s.requests.filterMap fun r =>
        r.name?.map fun name =>
          (if RouteName.Valid s.reserved name then .duplicateRoute else .invalidRouteName, name,
            r.origin) := by
      rw [List.map_filterMap]
      exact congrArg (List.filterMap · s.requests)
        (funext (RouteRequest.notice_refusal? s.reserved))
    rw [again]
    refine ⟨rfl, congrArg Except.ok (Nat.sub_self t.size), reported,
      (congrArg (List.map _) reported).trans notices, fun d hd => ?_⟩
    obtain ⟨r, -, refused⟩ := List.mem_filterMap.1 hd
    exact RouteRequest.code_of_refusal? refused
  · intro suffix longer ends succeeded t
    have again : s.discover longer t = .stop t :=
      Survey.discover_of_taken fun _ hname =>
        mem_names_tableAfter (.discover suffix) succeeded between
          (names_discover_subset ends hname)
    rw [again]
    exact ⟨rfl, congrArg Except.ok (Nat.sub_self t.size)⟩

/-- A catalog that does not know the name of any of its types. -/
def mute : Survey where
  catalog := {
    declarations := [
      ⟨⟨0⟩, "Shell", "app", [], .classType, false,
        [⟨"ExtraRoute", [⟨none, .str "Login"⟩, ⟨none, .typeRef "app.Login"⟩],
            some ⟨⟨"Shell.java"⟩, 1⟩⟩,
          ⟨"ExtraRoute", [⟨none, .str "Login"⟩], none⟩,
          ⟨"ExtraRoute", [⟨none, .str "Bad!"⟩], some ⟨⟨"Shell.java"⟩, 3⟩⟩],
        some ⟨⟨"Shell.java"⟩, 4⟩⟩,
      ⟨⟨1⟩, "Login", "app", [], .classType, false, [], none⟩,
      ⟨⟨2⟩, "HomePage", "app", [], .classType, false, [], none⟩]
    lookup := fun _ => .missing }
  names := .default
  reserved := []

/-- A merge succeeds there, since its routes have a type or are repeated, and so does a discovery
after it.  Discoveries of the page fail before them and between them.  The second marker has no
place of its own. -/
theorem run_completed_mute :
    (mute.merge (mute.tableAfter [.discover "Page"])).fault = none ∧
    (let steps := [.discover "Page", .merge, .discover "Page"]
     diagnosticsOf (mute.merge (mute.tableAfter steps)).events =
        [.duplicateRoute "Login" (some ⟨⟨"Shell.java"⟩, 1⟩),
          .duplicateRoute "Login" (some ⟨⟨"Shell.java"⟩, 4⟩),
          .invalidRouteName "Bad!" (some ⟨⟨"Shell.java"⟩, 3⟩)] ∧
      ((diagnosticsOf (mute.merge (mute.tableAfter steps)).events).map fun d =>
          (d.code, d.quoted, d.location)) =
        [(.duplicateRoute, "Login", some ⟨⟨"Shell.java"⟩, 1⟩),
          (.duplicateRoute, "Login", some ⟨⟨"Shell.java"⟩, 4⟩),
          (.invalidRouteName, "Bad!", some ⟨⟨"Shell.java"⟩, 3⟩)]) ∧
    Text.endsWith "Login" "in" = true ∧
    (mute.discover "in" (mute.tableAfter [.merge])).fault = none ∧
    (mute.discover "Login" (mute.tableAfter [.merge, .discover "in", .discover "Page"])).fault =
      none := by
  have merged : (mute.merge (mute.tableAfter [.discover "Page"])).fault = none := by decide
  have found : (mute.discover "in" (mute.tableAfter [.merge])).fault = none := by decide
  obtain ⟨-, -, diagnostics, notices, -⟩ :=
    (run_completed mute [.discover "Page"] [.discover "Page"]).1 merged
  have again := (run_completed mute [.merge] [.discover "Page"]).2 "in" "Login" (by decide) found
  exact ⟨merged, ⟨diagnostics.trans (by decide), notices.trans (by decide)⟩, by decide, found,
    congrArg Growth.fault again.1⟩

end BuildStep

end RouteRegistry
