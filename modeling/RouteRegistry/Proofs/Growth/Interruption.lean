/-
RouteRegistry/Proofs/Growth/Interruption.lean

Building a table step by step, over a catalog that may not know its own names.

A walk that a fault ends has done what the same walk does on the items before
the one at which it stopped (`discoverFrom_of_fault`, `mergeFrom_of_fault`).
With or without a fault it has therefore added routes at the end and nothing
else, each of them valid (`BuildStep.table_run`).

Main result (`BuildStep.run_appends`): after any steps, whether they succeeded
or not, one more step only appends to the table; it answers how many routes
these are, or stops at the first declaration whose type it has to ask for in
vain, with the routes and the diagnostics of all that comes before.
-/
import RouteRegistry.Proofs.Growth.Account
import RouteRegistry.Proofs.Growth.Reference

namespace RouteRegistry

namespace Survey

variable {s : Survey} {suffix : String}

/-! ### Walks that a fault ends -/

/-- Discovery stops at a declaration it asks for; up to there it went as if no more had come. -/
theorem discoverFrom_of_fault {ds : List Declaration} {t : RouteTable} {fault : Fault}
    (h : (s.discoverFrom suffix ds t).fault = some fault) :
    ∃ before d after, ds = before ++ d :: after ∧ s.resolve d = .error fault ∧
      (s.discoverFrom suffix before t).fault = none ∧
      (s.discoverFrom suffix ds t).table = (s.discoverFrom suffix before t).table ∧
      s.DiscoveryAsks suffix (s.discoverFrom suffix before t).table d := by
  induction ds generalizing t with
  | nil => cases h
  | cons d ds ih =>
    obtain ⟨found, asks, failed, e⟩ | ⟨events, -, e⟩ := s.discoverFrom_cons suffix d t
    · rw [e] at h
      obtain rfl := Option.some.inj h
      exact ⟨[], d, ds, rfl, failed, rfl, by rw [e]; rfl, asks⟩
    · rw [e, Growth.fault_after] at h
      obtain ⟨before, x, after, rfl, failed, clean, table, asks⟩ := ih h
      -- the walk over `d :: before` takes the same first step
      refine ⟨d :: before, x, after, rfl, failed, ?_, ?_, ?_⟩
      · rw [e, Growth.fault_after, clean]
      · rw [e, e, Growth.table_after, Growth.table_after, table]
      · rw [e, Growth.table_after]
        exact asks

/-- A merge stops at a request whose type it asks for, with the diagnostics of those before. -/
theorem mergeFrom_of_fault {rs : List RouteRequest} {t : RouteTable} {fault : Fault}
    (h : (s.mergeFrom (rs.map RouteRequest.read) t).fault = some fault) :
    ∃ before r after d, rs = before ++ r :: after ∧ s.resolve d = .error fault ∧
      (s.mergeFrom (before.map RouteRequest.read) t).fault = none ∧
      (s.mergeFrom (rs.map RouteRequest.read) t).table =
        (s.mergeFrom (before.map RouteRequest.read) t).table ∧
      diagnosticsOf (s.mergeFrom (rs.map RouteRequest.read) t).events =
        diagnosticsOf (s.mergeFrom (before.map RouteRequest.read) t).events ∧
      s.MergeAsks (s.mergeFrom (before.map RouteRequest.read) t).table r d := by
  -- the merge stops at the first request or behind it; the table it stops on is the one the
  -- requests before it have made
  induction rs generalizing t with
  | nil => cases h
  | cons r rs ih =>
    rw [List.map_cons] at h ⊢
    obtain ⟨d, found, asks, failed, e⟩ | ⟨events, -, e⟩ := s.mergeFrom_cons r t
    · rw [e] at h
      obtain rfl := Option.some.inj h
      exact ⟨[], r, rs, d, rfl, failed, rfl, by rw [e]; rfl, by rw [e]; rfl, asks⟩
    · rw [e, Growth.fault_after] at h
      obtain ⟨before, x, after, d, rfl, failed, clean, table, diagnostics, asks⟩ := ih h
      refine ⟨r :: before, x, after, d, rfl, failed, ?_, ?_, ?_, ?_⟩
      · rw [List.map_cons, e, Growth.fault_after, clean]
      · rw [List.map_cons, e, e, Growth.table_after, Growth.table_after, table]
      · rw [List.map_cons, e, e, Growth.events_after, Growth.events_after, diagnosticsOf_append,
          diagnosticsOf_append, diagnostics]
      · rw [List.map_cons, e, Growth.table_after]
        exact asks

/-! ### What walks add -/

/-- What is discovered has a valid name. -/
theorem valid_of_mem_implicitRoutes {ds : List Declaration} {name : String}
    (h : name ∈ (s.implicitRoutes suffix ds).map Prod.fst) : RouteName.Valid s.reserved name := by
  unfold implicitRoutes at h
  rw [List.map_map, List.mem_map] at h
  obtain ⟨d, hd, rfl⟩ := h
  have eligible : s.isEligible suffix d = true := (List.mem_filter.1 hd).2
  unfold isEligible at eligible
  rw [Bool.and_eq_true] at eligible
  exact RouteName.isValid_iff.1 eligible.2

/-- What a marker brings in has a valid name. -/
theorem valid_of_mem_requestRoute? {rs : List RouteRequest} {name : String}
    (h : name ∈ (rs.filterMap s.requestRoute?).map Prod.fst) : RouteName.Valid s.reserved name := by
  rw [map_fst_requestRoute?] at h
  simpa using (List.mem_filter.1 h).2

end Survey

/-! ### Steps -/

namespace BuildStep

/-- How a step at the table `t` stops with the fault, leaving `g`: at the first item whose type it
has to ask for and is not told, when all that comes before is done. -/
def Stops (s : Survey) (t : RouteTable) (g : Growth) (fault : Fault) : BuildStep → Prop
  | .discover suffix =>
    ∃ before d after, s.catalog.classLikes = before ++ d :: after ∧ s.resolve d = .error fault ∧
      s.Eligible suffix d ∧ d.name ∉ g.table.names ∧
      (s.discoverFrom suffix before t).fault = none ∧
      g.table = (s.discoverFrom suffix before t).table ∧
      g.table = t.addAll (s.implicitRoutes suffix before)
  | .merge =>
    ∃ before r after d, s.requests = before ++ r :: after ∧ s.resolve d = .error fault ∧
      s.MergeAsks g.table r d ∧
      (s.mergeFrom (before.map RouteRequest.read) t).fault = none ∧
      g.table = (s.mergeFrom (before.map RouteRequest.read) t).table ∧
      g.table.entries = t.entries ++ routesFor (s.accountFrom before t) ∧
      diagnosticsOf g.events = diagnosticsFor (s.accountFrom before t)

variable {s : Survey} {t : RouteTable}

/-- A step that fails has walked up to an item that it could not resolve. -/
theorem stops_of_fault {step : BuildStep} {fault : Fault}
    (h : (step.run s t).fault = some fault) : step.Stops s t (step.run s t) fault := by
  cases step with
  | discover suffix =>
    have found : (s.discoverFrom suffix s.catalog.classLikes t).fault = some fault := h
    obtain ⟨before, d, after, split, failed, clean, table, asks⟩ :=
      Survey.discoverFrom_of_fault found
    have classLike : d.kind.isClassLike = true := by
      have mem : d ∈ s.catalog.classLikes := by
        rw [split]
        exact List.mem_append_right _ (List.mem_cons_self ..)
      exact (List.mem_filter.1 mem).2
    have eligible : s.Eligible suffix d :=
      Survey.eligible_iff.1 (by rw [classLike, asks.eligible]; rfl)
    exact ⟨before, d, after, split, failed, eligible, table ▸ asks.free, clean, table,
      table.trans (Survey.table_discoverFrom clean)⟩
  | merge =>
    have merged : run s t .merge = s.mergeFrom (s.requests.map RouteRequest.read) t :=
      s.merge_eq t
    rw [merged] at h ⊢
    obtain ⟨before, r, after, d, split, failed, clean, table, diagnostics, asks⟩ :=
      Survey.mergeFrom_of_fault h
    obtain ⟨events, entries⟩ := Survey.mergeFrom_account clean
    exact ⟨before, r, after, d, split, failed, table ▸ asks, clean, table,
      (congrArg RouteTable.entries table).trans entries, diagnostics.trans events⟩

/-- Whatever a step answers, it has added routes with valid names and done nothing else to the
table. -/
theorem table_run (s : Survey) (t : RouteTable) (step : BuildStep) :
    ∃ routes, (step.run s t).table = t.addAll routes ∧
      ∀ name ∈ routes.map Prod.fst, RouteName.Valid s.reserved name := by
  cases step with
  | discover suffix =>
    rcases h : (run s t (.discover suffix)).fault with - | fault
    · exact ⟨_, Survey.table_discoverFrom h, fun _ => Survey.valid_of_mem_implicitRoutes⟩
    · obtain ⟨before, -, -, -, -, -, -, -, -, table⟩ := stops_of_fault h
      exact ⟨_, table, fun _ => Survey.valid_of_mem_implicitRoutes⟩
  | merge =>
    have merged : run s t .merge = s.mergeFrom (s.requests.map RouteRequest.read) t :=
      s.merge_eq t
    rcases h : (run s t .merge).fault with - | fault
    · rw [merged] at h ⊢
      exact ⟨_, Survey.table_mergeFrom h, fun _ => Survey.valid_of_mem_requestRoute?⟩
    · obtain ⟨before, -, -, -, -, -, -, clean, table, -, -⟩ := stops_of_fault h
      exact ⟨_, table.trans (Survey.table_mergeFrom clean),
        fun _ => Survey.valid_of_mem_requestRoute?⟩

end BuildStep

/-! ### Any number of steps -/

namespace Survey

/-- Later steps go on from the table that the earlier ones leave. -/
theorem tableAfter_append (s : Survey) (steps more : List BuildStep) :
    s.tableAfter (steps ++ more) =
      more.foldl (fun t step => (step.run s t).table) (s.tableAfter steps) :=
  List.foldl_append

/-- No step lets in a name that is no route name. -/
theorem valid_of_mem_tableAfter (s : Survey) (steps : List BuildStep) :
    ∀ name ∈ (s.tableAfter steps).names, RouteName.Valid s.reserved name := by
  unfold tableAfter
  refine List.foldlRecOn
    (motive := fun t : RouteTable => ∀ name ∈ t.names, RouteName.Valid s.reserved name)
    steps _ (fun name hname => absurd hname List.not_mem_nil) ?_
  intro t valid step _ name hname
  obtain ⟨routes, table, new⟩ := step.table_run s t
  rw [table] at hname
  exact (RouteTable.mem_names_addAll_iff.1 hname).elim (valid name) (new name)

end Survey

/-- One more step leaves the entries as they are and adds routes behind them, so that all names
stay distinct and valid.  It answers how many it has added, or says why it stopped. -/
theorem BuildStep.run_appends (s : Survey) (steps : List BuildStep) (step : BuildStep) :
    let t := s.tableAfter steps
    let g := step.run s t
    s.tableAfter (steps ++ [step]) = g.table ∧
    t.entries <+: g.table.entries ∧
    g.table.names.Nodup ∧
    (∀ name ∈ g.table.names, RouteName.Valid s.reserved name) ∧
    match g.answer t with
    | .ok added => g.table.entries.length = t.entries.length + added
    | .error fault => step.Stops s t g fault := by
  intro t g
  have next : s.tableAfter (steps ++ [step]) = g.table := s.tableAfter_append steps [step]
  -- complete or stopped, a step adds routes to the table it starts from and removes none
  obtain ⟨routes, table, -⟩ := step.table_run s t
  have grown : t.entries <+: g.table.entries := by
    rw [show g.table = t.addAll routes from table]
    exact t.prefix_addAll routes
  refine ⟨next, grown, g.table.nodup, ?_, ?_⟩
  · intro name hname
    exact s.valid_of_mem_tableAfter (steps ++ [step]) name (next ▸ hname)
  · unfold Growth.answer
    rcases h : g.fault with - | fault
    · exact (Nat.add_sub_of_le grown.length_le).symm
    · exact stops_of_fault h

end RouteRegistry
