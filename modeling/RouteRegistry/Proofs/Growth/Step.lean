/-
RouteRegistry/Proofs/Growth/Step.lean

What one step of discovery or of a merge can do, and what whole walks come to.

A step either ends the walk with a fault, leaving the table as it was, or adds
at most one route and goes on (`discoverFrom_cons`, `mergeFrom_cons`).  What a
merge makes of a marker is its `Verdict`, from which both the diagnostic and the
new route can be read off.

A walk without a fault therefore adds the routes of its items one after the
other (`table_discoverFrom`, `table_mergeFrom`), and there is no fault when the
catalog knows the names of all its declarations (`Catalog.Resolvable`).
-/
import RouteRegistry.Proofs.Request
import RouteRegistry.Proofs.Table.Insertion

namespace RouteRegistry

/-! ### Qualified names -/

/-- The qualified name, if that is the answer. -/
def Lookup.name? : Lookup → Option String
  | .found name => some name
  | .missing | .crash _ => none

namespace Catalog

/-- What the catalog answers when asked for the declaration's identity. -/
def qualifiedName? (c : Catalog) (d : Declaration) : Option String := (c.lookup d.id).name?

/-- The catalog has a qualified name for each of its declarations. -/
def Resolvable (c : Catalog) : Prop :=
  ∀ d ∈ c.declarations, ∃ name, c.qualifiedName? d = some name

/-- A catalog that keeps its declarations knows all their names. -/
theorem resolvable_ofList (ds : List Declaration) : (ofList ds).Resolvable := by
  intro d hd
  rcases h : findById ds d.id with - | found
  · exact absurd (beq_self_eq_true d.id) (List.find?_eq_none.1 h d hd)
  · refine ⟨found.qualifiedName, ?_⟩
    show (Lookup.of (findById ds d.id)).name? = some found.qualifiedName
    rw [h]; rfl

theorem findByName_eq (c : Catalog) (name : String) :
    c.findByName name = c.declarations.find? fun d => d.kind.isClassLike && d.name == name := by
  unfold findByName classLikes
  rw [List.find?_filter]
  simp only [Bool.decide_and, Bool.decide_eq_true]

end Catalog

namespace Survey

variable {s : Survey} {suffix : String}

/-- A declaration is resolved to the name that the catalog knows for it. -/
theorem resolve_eq_ok_iff {d : Declaration} {name : String} :
    s.resolve d = .ok name ↔ s.catalog.qualifiedName? d = some name := by
  unfold resolve Catalog.qualifiedName?
  rcases s.catalog.lookup d.id with found | - | message
  · show Except.ok found = .ok name ↔ some found = some name
    rw [Except.ok.injEq, Option.some.injEq]
  all_goals exact ⟨nofun, nofun⟩

/-- Asking for a declaration of a resolvable catalog is no fault. -/
theorem resolve_ne_error (hs : s.catalog.Resolvable) {d : Declaration}
    (hd : d ∈ s.catalog.declarations) {fault : Fault} : s.resolve d ≠ .error fault := by
  obtain ⟨name, h⟩ := hs d hd
  rw [resolve_eq_ok_iff.2 h]
  exact nofun

/-! ### Discovery -/

/-- The routes that discovery makes of the declarations, were no name taken. -/
def implicitRoutes (s : Survey) (suffix : String) (ds : List Declaration) :
    List (String × Option String) :=
  (ds.filter (s.isEligible suffix)).map fun d => (d.name, s.catalog.qualifiedName? d)

theorem implicitRoutes_cons (s : Survey) (suffix : String) (d : Declaration)
    (ds : List Declaration) :
    s.implicitRoutes suffix (d :: ds) =
      s.implicitRoutes suffix [d] ++ s.implicitRoutes suffix ds := by
  unfold implicitRoutes
  rw [← List.map_append, ← List.filter_append]; rfl

/-- Discovery asks for the type of the declaration when it meets the table `t`. -/
structure DiscoveryAsks (s : Survey) (suffix : String) (t : RouteTable) (d : Declaration) :
    Prop where
  eligible : s.isEligible suffix d = true
  free : d.name ∉ t.names

/-- A step of discovery reports nothing, whether it ends in a fault or goes on. -/
theorem discoverFrom_cons (s : Survey) (suffix : String) (d : Declaration) (t : RouteTable) :
    (∃ fault, s.DiscoveryAsks suffix t d ∧ s.resolve d = .error fault ∧
      ∀ ds, s.discoverFrom suffix (d :: ds) t = ⟨t, [.lookup d.id], some fault⟩) ∨
    ∃ before, diagnosticsOf before = [] ∧
      ∀ ds, s.discoverFrom suffix (d :: ds) t =
        (s.discoverFrom suffix ds (t.addAll (s.implicitRoutes suffix [d]))).after before := by
  -- a declaration is looked up if it is eligible and its name is fresh; else nothing happens
  by_cases he : s.isEligible suffix d = true
  · have routes : s.implicitRoutes suffix [d] = [(d.name, s.catalog.qualifiedName? d)] := by
      simp [implicitRoutes, he]
    rw [routes]
    by_cases taken : d.name ∈ t.names
    · refine .inr ⟨[], rfl, fun ds => ?_⟩
      rw [discoverFrom, if_neg (by simp [RouteTable.contains, taken])]
      simp [RouteTable.add_of_mem taken]
    · have fresh : (s.isEligible suffix d && !t.contains d.name) = true := by
        simp [RouteTable.contains, he, taken]
      rcases hr : s.resolve d with fault | type
      · refine .inl ⟨fault, ⟨he, taken⟩, rfl, fun ds => ?_⟩
        rw [discoverFrom, if_pos fresh, hr]
      · refine .inr ⟨[.lookup d.id], rfl, fun ds => ?_⟩
        rw [discoverFrom, if_pos fresh, hr, resolve_eq_ok_iff.1 hr]; rfl
  · have routes : s.implicitRoutes suffix [d] = [] := by simp [implicitRoutes, he]
    refine .inr ⟨[], rfl, fun ds => ?_⟩
    rw [discoverFrom, if_neg (by simp [he]), routes]; rfl

/-- A discovery reports nothing. -/
theorem diagnosticsOf_discoverFrom (s : Survey) (suffix : String) (ds : List Declaration)
    (t : RouteTable) : diagnosticsOf (s.discoverFrom suffix ds t).events = [] := by
  induction ds generalizing t with
  | nil => rfl
  | cons d ds ih =>
    obtain ⟨fault, -, -, h⟩ | ⟨before, hb, h⟩ := s.discoverFrom_cons suffix d t
    · rw [h]; rfl
    · rw [h, Growth.events_after, diagnosticsOf_append, hb, ih, List.append_nil]

/-- Discovery without a fault adds the routes of all eligible declarations. -/
theorem table_discoverFrom {ds : List Declaration} {t : RouteTable}
    (h : (s.discoverFrom suffix ds t).fault = none) :
    (s.discoverFrom suffix ds t).table = t.addAll (s.implicitRoutes suffix ds) := by
  induction ds generalizing t with
  | nil => rfl
  | cons d ds ih =>
    obtain ⟨fault, -, -, e⟩ | ⟨before, -, e⟩ := s.discoverFrom_cons suffix d t
    · rw [e] at h; cases h
    · rw [e] at h
      rw [e, Growth.table_after, ih h, implicitRoutes_cons s suffix d ds,
        RouteTable.addAll_append]

/-- In a resolvable catalog no declaration can stop a discovery. -/
theorem fault_discoverFrom (hs : s.catalog.Resolvable) {ds : List Declaration}
    (hds : ∀ d ∈ ds, d ∈ s.catalog.declarations) (t : RouteTable) :
    (s.discoverFrom suffix ds t).fault = none := by
  induction ds generalizing t with
  | nil => rfl
  | cons d ds ih =>
    obtain ⟨fault, -, hf, -⟩ | ⟨before, -, e⟩ := s.discoverFrom_cons suffix d t
    · exact absurd hf (resolve_ne_error hs (hds d (List.mem_cons_self ..)))
    · rw [e, Growth.fault_after]
      exact ih (fun x hx => hds x (List.mem_cons_of_mem d hx)) _

theorem fault_discover (hs : s.catalog.Resolvable) (suffix : String) (t : RouteTable) :
    (s.discover suffix t).fault = none :=
  fault_discoverFrom hs (fun _ hd => (List.mem_filter.1 hd).1) t

end Survey

/-! ### What becomes of an extra-route marker -/

/-- What a merge makes of an extra-route marker. -/
inductive Verdict where
  /-- Passed over in silence, for want of a name. -/
  | skipped
  | invalid (name : String)
  | duplicate (name : String)
  | accepted (name : String) (type : Option String)
  deriving DecidableEq

namespace Verdict

/-- The diagnostic that the verdict calls for; an accepted route needs one if it has no type. -/
def diagnostic? : Verdict → Option Location → Option Diagnostic
  | .invalid name, place => some (.invalidRouteName name place)
  | .duplicate name, place => some (.duplicateRoute name place)
  | .accepted name none, place => some (.unresolvedRouteType name place)
  | .skipped, _ | .accepted _ (some _), _ => none

/-- There are three things to say about an extra route. -/
theorem code_of_diagnostic? {v : Verdict} {place : Option Location} {d : Diagnostic}
    (h : v.diagnostic? place = some d) :
    d.code = .invalidRouteName ∨ d.code = .duplicateRoute ∨ d.code = .unresolvedRouteType := by
  rcases v with - | name | name | ⟨name, - | type⟩ <;> cases h
  · exact .inl rfl
  · exact .inr (.inl rfl)
  · exact .inr (.inr rfl)

/-- The route that the verdict lets in. -/
def route? : Verdict → Option (String × Option String)
  | .accepted name type => some (name, type)
  | .skipped | .invalid _ | .duplicate _ => none

end Verdict

namespace Survey

variable {s : Survey}

/-- The type of a request's route: the one asked for, or else that of the first class-like
declaration with the route's name. -/
def typeFor (s : Survey) (r : RouteRequest) (name : String) : Option String :=
  match r.target? with
  | some type => some type
  | none =>
    (s.catalog.declarations.find? fun d => d.kind.isClassLike && d.name == name).bind
      s.catalog.qualifiedName?

/-- The verdict on a request that meets the table `t`. -/
def verdict (s : Survey) (t : RouteTable) (r : RouteRequest) : Verdict :=
  match r.name? with
  | none => .skipped
  | some name =>
    if ¬ RouteName.Valid s.reserved name then .invalid name
    else if name ∈ t.names then .duplicate name
    else .accepted name (s.typeFor r name)

/-- The four verdicts, each with what it takes. -/
theorem verdict_cases (s : Survey) (t : RouteTable) (r : RouteRequest) :
    (r.name? = none ∧ s.verdict t r = .skipped) ∨
    ∃ name, r.name? = some name ∧
      ((¬ RouteName.Valid s.reserved name ∧ s.verdict t r = .invalid name) ∨
        RouteName.Valid s.reserved name ∧
          ((name ∈ t.names ∧ s.verdict t r = .duplicate name) ∨
            (name ∉ t.names ∧ s.verdict t r = .accepted name (s.typeFor r name)))) := by
  unfold verdict
  rcases r.name? with - | name
  · exact .inl ⟨rfl, rfl⟩
  · refine .inr ⟨name, rfl, ?_⟩
    by_cases valid : RouteName.Valid s.reserved name
    · by_cases taken : name ∈ t.names
      · exact .inr ⟨valid, .inl ⟨taken, by simp only [valid, taken, not_true, if_true, if_false]⟩⟩
      · exact .inr ⟨valid, .inr ⟨taken, by simp only [valid, taken, not_true, if_false]⟩⟩
    · exact .inl ⟨valid, if_pos valid⟩

/-- Only a request without a name is passed over in silence. -/
theorem verdict_eq_skipped_iff {t : RouteTable} {r : RouteRequest} :
    s.verdict t r = .skipped ↔ r.name? = none := by
  obtain ⟨hn, e⟩ | ⟨name, hn, ⟨-, e⟩ | ⟨-, ⟨-, e⟩ | ⟨-, e⟩⟩⟩ := s.verdict_cases t r
  · exact ⟨fun _ => hn, fun _ => e⟩
  all_goals
    rw [e, hn]
    exact ⟨nofun, nofun⟩

/-- An accepted route is new. -/
theorem entries_addAll_verdict (s : Survey) (t : RouteTable) (r : RouteRequest) :
    (t.addAll (s.verdict t r).route?.toList).entries =
      t.entries ++ (s.verdict t r).route?.toList := by
  obtain ⟨-, e⟩ | ⟨name, -, ⟨-, e⟩ | ⟨-, ⟨-, e⟩ | ⟨fresh, e⟩⟩⟩ := s.verdict_cases t r
  case inr.inr.inr =>
    rw [e]
    exact RouteTable.entries_add_of_not_mem fresh _
  all_goals rw [e]; exact (List.append_nil _).symm

/-- A merge asks for the type of `d` when the request meets the table `t`: the request names a new
route but no type, and `d` is the first class-like declaration of that name. -/
structure MergeAsks (s : Survey) (t : RouteTable) (r : RouteRequest) (d : Declaration) : Prop where
  untyped : r.target? = none
  named : ∃ name, r.name? = some name ∧ RouteName.Valid s.reserved name ∧ name ∉ t.names ∧
    s.catalog.declarations.find? (fun d => d.kind.isClassLike && d.name == name) = some d

/-- What a merge asks for is declared. -/
theorem MergeAsks.mem {t : RouteTable} {r : RouteRequest} {d : Declaration}
    (h : s.MergeAsks t r d) : d ∈ s.catalog.declarations := by
  obtain ⟨name, -, -, -, found⟩ := h.named
  exact List.mem_of_find?_eq_some found

/-- A new route is reported if it has no type.  Asking for the type can fail. -/
theorem mergeFrom_cons_fresh {r : RouteRequest} {t : RouteTable} {name : String}
    (hn : r.name? = some name) (valid : RouteName.Valid s.reserved name) (fresh : name ∉ t.names) :
    (∃ d fault, s.MergeAsks t r d ∧ s.resolve d = .error fault ∧
      ∀ es, s.mergeFrom (r.read :: es) t = ⟨t, [.lookup d.id], some fault⟩) ∨
    ∃ before, diagnosticsOf before =
        ((Verdict.accepted name (s.typeFor r name)).diagnostic? r.origin).toList ∧
      ∀ es, s.mergeFrom (r.read :: es) t =
        (s.mergeFrom es (t.add name (s.typeFor r name))).after before := by
  have notContained : t.contains name = false := by simp [RouteTable.contains, fresh]
  simp only [mergeFrom, RouteRequest.usableName_read, RouteRequest.explicitType_read,
    RouteRequest.origin_read, hn, RouteName.isValid_iff.2 valid, notContained, Bool.not_true,
    Bool.false_eq_true, if_false]
  unfold typeFor
  rw [← Catalog.findByName_eq]
  -- a written type is taken as it stands; only without one is the catalog asked, by name
  rcases ht : r.target? with - | type
  · rcases hf : s.catalog.findByName name with - | d
    · exact .inr ⟨[.report (.unresolvedRouteType name r.origin)], rfl, fun es => rfl⟩
    · dsimp only
      rcases hr : s.resolve d with fault | type
      · have asks : s.MergeAsks t r d :=
          ⟨ht, name, hn, valid, fresh, Catalog.findByName_eq _ _ ▸ hf⟩
        exact .inl ⟨d, fault, asks, hr, fun es => rfl⟩
      · rw [Option.bind_some, resolve_eq_ok_iff.1 hr]
        exact .inr ⟨[.lookup d.id], rfl, fun es => rfl⟩
  · exact .inr ⟨[], rfl, fun es => rfl⟩

/-- A step of a merge: a fault of the catalog ends the merge where it stands, and otherwise it
goes on from the table and with the diagnostic that the verdict says. -/
theorem mergeFrom_cons (s : Survey) (r : RouteRequest) (t : RouteTable) :
    (∃ d fault, s.MergeAsks t r d ∧ s.resolve d = .error fault ∧
      ∀ es, s.mergeFrom (r.read :: es) t = ⟨t, [.lookup d.id], some fault⟩) ∨
    ∃ before,
      diagnosticsOf before = ((s.verdict t r).diagnostic? r.origin).toList ∧
      ∀ es, s.mergeFrom (r.read :: es) t =
        (s.mergeFrom es (t.addAll (s.verdict t r).route?.toList)).after before := by
  obtain ⟨hn, e⟩ | ⟨name, hn, ⟨invalid, e⟩ | ⟨valid, ⟨taken, e⟩ | ⟨fresh, e⟩⟩⟩ :=
    s.verdict_cases t r
  -- one case for each verdict, that is for each branch of `mergeFrom`
  · refine .inr ⟨[], by rw [e]; rfl, fun es => ?_⟩
    rw [mergeFrom, RouteRequest.usableName_read, hn, e]; rfl
  · have rejected : (!RouteName.isValid s.reserved name) = true := by
      rw [Bool.not_eq_true', ← Bool.not_eq_true]
      exact fun h => invalid (RouteName.isValid_iff.1 h)
    refine .inr ⟨[.report (.invalidRouteName name r.origin)], by rw [e]; rfl, fun es => ?_⟩
    rw [mergeFrom, RouteRequest.usableName_read, hn, RouteRequest.origin_read, e]
    exact if_pos rejected
  · have contained : t.contains name = true := by simp [RouteTable.contains, taken]
    refine .inr ⟨[.report (.duplicateRoute name r.origin)], by rw [e]; rfl, fun es => ?_⟩
    simp only [mergeFrom, RouteRequest.usableName_read, hn, RouteRequest.origin_read, e,
      RouteName.isValid_iff.2 valid, contained, Bool.not_true, Bool.false_eq_true, if_false,
      if_true]
    rfl
  · rw [e]
    exact mergeFrom_cons_fresh hn valid fresh

/-- The route that a request asks for, were its name not taken. -/
def requestRoute? (s : Survey) (r : RouteRequest) : Option (String × Option String) :=
  (r.name?.filter (RouteName.Valid s.reserved ·)).map fun name => (name, s.typeFor r name)

/-- The table already refuses what the verdict refuses as a duplicate. -/
theorem addAll_verdict (s : Survey) (t : RouteTable) (r : RouteRequest) :
    t.addAll (s.verdict t r).route?.toList = t.addAll (s.requestRoute? r).toList := by
  unfold requestRoute?
  obtain ⟨hn, e⟩ | ⟨name, hn, ⟨invalid, e⟩ | ⟨valid, ⟨taken, e⟩ | ⟨fresh, e⟩⟩⟩ :=
    s.verdict_cases t r
  · rw [e, hn]; rfl
  · rw [e, hn, Option.filter_some_neg (by simpa using invalid)]; rfl
  · rw [e, hn, Option.filter_some_pos (by simpa using valid)]
    exact (RouteTable.add_of_mem taken _).symm
  · rw [e, hn, Option.filter_some_pos (by simpa using valid)]; rfl

/-- A merge without a fault adds the routes of all its requests. -/
theorem table_mergeFrom {rs : List RouteRequest} {t : RouteTable}
    (h : (s.mergeFrom (rs.map RouteRequest.read) t).fault = none) :
    (s.mergeFrom (rs.map RouteRequest.read) t).table = t.addAll (rs.filterMap s.requestRoute?) := by
  induction rs generalizing t with
  | nil => rfl
  | cons r rs ih =>
    rw [List.map_cons] at h ⊢
    obtain ⟨d, fault, -, -, e⟩ | ⟨before, -, e⟩ := s.mergeFrom_cons r t
    · rw [e] at h; cases h
    · rw [e] at h
      rw [e, Growth.table_after, ih h, addAll_verdict, ← RouteTable.addAll_append]
      rcases hr : s.requestRoute? r with - | route <;> simp [hr]

/-- In a resolvable catalog no request can stop a merge. -/
theorem fault_mergeFrom (hs : s.catalog.Resolvable) (rs : List RouteRequest) (t : RouteTable) :
    (s.mergeFrom (rs.map RouteRequest.read) t).fault = none := by
  induction rs generalizing t with
  | nil => rfl
  | cons r rs ih =>
    obtain ⟨d, fault, asks, hf, -⟩ | ⟨before, -, e⟩ :=
      s.mergeFrom_cons r t
    · exact absurd hf (resolve_ne_error hs asks.mem)
    · rw [List.map_cons, e, Growth.fault_after]
      exact ih _

theorem fault_merge (hs : s.catalog.Resolvable) (t : RouteTable) : (s.merge t).fault = none := by
  rw [merge_eq]
  exact fault_mergeFrom hs s.requests t

/-- Each diagnostic of a merge is called for by a verdict, also when a fault ends the merge. -/
theorem exists_verdict_of_mem_mergeFrom {rs : List RouteRequest} {t : RouteTable} {d : Diagnostic}
    (hd : d ∈ diagnosticsOf (s.mergeFrom (rs.map RouteRequest.read) t).events) :
    ∃ (v : Verdict) (place : Option Location), v.diagnostic? place = some d := by
  induction rs generalizing t with
  | nil => exact absurd hd List.not_mem_nil
  | cons r rs ih =>
    rw [List.map_cons] at hd
    obtain ⟨found, fault, -, -, e⟩ | ⟨before, hb, e⟩ := s.mergeFrom_cons r t
    · rw [e] at hd
      exact absurd hd List.not_mem_nil
    · rw [e, Growth.events_after, diagnosticsOf_append, hb, List.mem_append] at hd
      rcases hd with hd | hd
      · exact ⟨_, _, Option.mem_toList.1 hd⟩
      · exact ih hd

end Survey

end RouteRegistry
