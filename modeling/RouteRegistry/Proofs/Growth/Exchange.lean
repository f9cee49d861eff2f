/-
RouteRegistry/Proofs/Growth/Exchange.lean

Two discoveries, in either order.

A discovery asks for the type of one declaration of each name that is new to it:
the first one that is eligible.  Whether a declaration is eligible depends on the
suffix only through the name, so all suffixes that a name ends with agree on its
`owner?`.  The walk succeeds exactly if the owners of the new names have types
(`fault_discover_eq_none_iff`), and gives the names these types
(`mem_entries_discover`).

Main result (`discover_exchange`): two discoveries from the empty table succeed
in one order exactly if they succeed in the other, and then the two tables have
the same routes with the same types.
-/
import RouteRegistry.Proofs.Growth.Completion
import RouteRegistry.Proofs.Table.Entries

namespace RouteRegistry

/-- Each name that the routes bring to the table comes first with a type. -/
def RouteTable.TakesTyped (t : RouteTable) (rs : List (String × Option String)) : Prop :=
  ∀ name ∈ rs.map Prod.fst, name ∉ t.names → firstType rs name ≠ none

/-- The first route has a type, if its name is new, and the others come to the table behind it. -/
theorem RouteTable.takesTyped_cons {t : RouteTable} {name : String} {type : Option String}
    {rs : List (String × Option String)} :
    t.TakesTyped ((name, type) :: rs) ↔
      (name ∉ t.names → type ≠ none) ∧ (t.add name type).TakesTyped rs := by
  -- behind the first route the fresh names are those other than its own
  have names (n : String) : n ∈ (t.add name type).names ↔ n ∈ t.names ∨ n = name := by
    have added : n ∈ (t.addAll [(name, type)]).names ↔
        n ∈ t.names ∨ n ∈ [(name, type)].map Prod.fst := mem_names_addAll_iff
    rwa [addAll_cons, addAll_nil, List.map_singleton, List.mem_singleton] at added
  unfold TakesTyped
  constructor
  · intro h
    refine ⟨fun fresh => ?_, fun n hn fresh => ?_⟩
    · have typed := h name (List.mem_cons_self ..) fresh
      rwa [firstType_cons_self] at typed
    · obtain ⟨old, other⟩ := not_or.1 ((names n).not.1 fresh)
      have typed := h n (List.mem_cons_of_mem _ hn) old
      rwa [firstType_cons_of_ne other] at typed
  · rintro ⟨here, rest⟩ n hn fresh
    by_cases same : n = name
    · subst same
      rw [firstType_cons_self]
      exact here fresh
    · rw [firstType_cons_of_ne same]
      exact rest n ((List.mem_cons.1 hn).resolve_left same)
        ((names n).not.2 (not_or.2 ⟨fresh, same⟩))

namespace Survey

variable {s : Survey} {suffix : String} {t : RouteTable}

/-! ### Walks that succeed -/

/-- A walk succeeds exactly if each name that is new to the table comes first with a type. -/
theorem fault_discoverFrom_eq_none_iff {ds : List Declaration} :
    (s.discoverFrom suffix ds t).fault = none ↔ t.TakesTyped (s.implicitRoutes suffix ds) := by
  induction ds generalizing t with
  | nil => exact ⟨fun _ _ h => absurd h List.not_mem_nil, fun _ => rfl⟩
  | cons d ds ih =>
    by_cases eligible : s.isEligible suffix d = true
    case neg =>
      -- a declaration that is not eligible is no route, and the walk passes over it
      have routes : s.implicitRoutes suffix (d :: ds) = s.implicitRoutes suffix ds := by
        unfold implicitRoutes
        rw [List.filter_cons_of_neg eligible]
      rw [discoverFrom, if_neg (by simp [eligible]), routes]
      exact ih
    have routes : s.implicitRoutes suffix (d :: ds) =
        (d.name, s.catalog.qualifiedName? d) :: s.implicitRoutes suffix ds := by
      unfold implicitRoutes
      rw [List.filter_cons_of_pos eligible, List.map_cons]
    rw [routes, RouteTable.takesTyped_cons]
    by_cases taken : d.name ∈ t.names
    · -- a taken name is not asked for
      rw [discoverFrom, if_neg (by simp [RouteTable.contains, taken]), ih,
        RouteTable.add_of_mem taken]
      exact (and_iff_right fun fresh => absurd taken fresh).symm
    have asks : (s.isEligible suffix d && !t.contains d.name) = true := by
      simp [RouteTable.contains, eligible, taken]
    rw [discoverFrom, if_pos asks]
    rcases answer : s.resolve d with fault | found
    · have unknown : s.catalog.qualifiedName? d = none := by
        apply Option.eq_none_iff_forall_ne_some.2
        intro name known
        rw [resolve_eq_ok_iff.2 known] at answer
        cases answer
      refine ⟨fun succeeds => ?_, fun typed => absurd unknown (typed.1 taken)⟩
      exact absurd succeeds (Option.some_ne_none fault)
    · rw [Growth.fault_after, ih, resolve_eq_ok_iff.1 answer]
      exact (and_iff_right fun _ => Option.some_ne_none found).symm

/-! ### Owners of names -/

/-- The first declaration with the name that is eligible for any suffix of the name. -/
def owner? (s : Survey) (name : String) : Option Declaration :=
  (s.candidates "").find? fun d => d.name == name

/-- The type that discovery gives to the name. -/
def ownType? (s : Survey) (name : String) : Option String :=
  (s.owner? name).bind s.catalog.qualifiedName?

/-- Apart from the ending, no suffix asks for more than another. -/
theorem eligible_iff_of_ends {d : Declaration} (h : suffix.toList <:+ d.name.toList) :
    s.Eligible suffix d ↔ s.Eligible "" d :=
  ⟨fun e => { e with ends := List.nil_suffix }, fun e => { e with ends := h }⟩

/-- All suffixes of a name agree on the first declaration that has it. -/
theorem find?_candidates {name : String} (h : suffix.toList <:+ name.toList) :
    ((s.candidates suffix).find? fun d => d.name == name) = s.owner? name := by
  unfold owner? candidates
  rw [List.find?_filter, List.find?_filter]
  refine congrArg (List.find? · _) (funext fun d => ?_)
  by_cases same : d.name = name
  · subst same
    simp only [eligible_iff_of_ends h]
  · simp [same]

/-- A name that is discovered gets the type it would get under any suffix. -/
theorem firstType_discover {name : String} (h : name ∈ (BuildStep.discover suffix).names s) :
    RouteTable.firstType (s.implicitRoutes suffix s.catalog.classLikes) name =
      s.ownType? name := by
  have ends : suffix.toList <:+ name.toList := by
    obtain ⟨d, hd, rfl⟩ := List.mem_map.1 h
    have eligible : s.Eligible suffix d := of_decide_eq_true (List.mem_filter.1 hd).2
    exact eligible.ends
  rw [implicitRoutes_classLikes, firstType_implicit, find?_candidates ends]
  rfl

theorem names_implicitRoutes (s : Survey) (suffix : String) :
    (s.implicitRoutes suffix s.catalog.classLikes).map Prod.fst =
      (BuildStep.discover suffix).names s := by
  rw [implicitRoutes_classLikes, List.map_map]
  rfl

/-- A discovery succeeds exactly if the owners of the names that are new to it have types. -/
theorem fault_discover_eq_none_iff :
    (s.discover suffix t).fault = none ↔
      ∀ name ∈ (BuildStep.discover suffix).names s, name ∉ t.names → s.ownType? name ≠ none := by
  unfold discover
  rw [fault_discoverFrom_eq_none_iff, RouteTable.TakesTyped, names_implicitRoutes]
  exact forall₂_congr fun name h => by rw [firstType_discover h]

/-- A discovery that succeeds adds the names that are new to it, with the types of their owners. -/
theorem mem_entries_discover (h : (s.discover suffix t).fault = none)
    {e : String × Option String} :
    e ∈ (s.discover suffix t).table.entries ↔
      e ∈ t.entries ∨ (e.1 ∉ t.names ∧ e.1 ∈ (BuildStep.discover suffix).names s ∧
        e.2 = s.ownType? e.1) := by
  have table : (s.discover suffix t).table = _ := table_discoverFrom h
  rw [table, RouteTable.mem_entries_addAll_iff, names_implicitRoutes]
  refine or_congr Iff.rfl (and_congr Iff.rfl (and_congr_right fun mem => ?_))
  rw [firstType_discover mem]

/-! ### Two discoveries -/

section

variable {a b : String}

theorem mem_names_discover_empty (h : (s.discover a .empty).fault = none) {name : String} :
    name ∈ (s.discover a .empty).table.names ↔ name ∈ (BuildStep.discover a).names s := by
  have table : (s.discover a .empty).table = _ := table_discoverFrom h
  rw [table, RouteTable.mem_names_addAll_iff, names_implicitRoutes]
  exact or_iff_right List.not_mem_nil

/-- Both discoveries succeed exactly if the owners of all their names have types. -/
theorem discover_both_iff :
    ((s.discover a .empty).fault = none ∧
        (s.discover b (s.discover a .empty).table).fault = none) ↔
      ∀ name, name ∈ (BuildStep.discover a).names s ∨ name ∈ (BuildStep.discover b).names s →
        s.ownType? name ≠ none := by
  -- on the empty table every name is fresh, so the first discovery meets all of its names
  have alone : (s.discover a .empty).fault = none ↔
      ∀ name ∈ (BuildStep.discover a).names s, s.ownType? name ≠ none := by
    rw [fault_discover_eq_none_iff]
    exact forall₂_congr fun _ _ => ⟨fun h => h List.not_mem_nil, fun h _ => h⟩
  constructor
  · rintro ⟨first, second⟩ name mem
    by_cases found : name ∈ (BuildStep.discover a).names s
    · exact alone.1 first name found
    · refine fault_discover_eq_none_iff.1 second name (mem.resolve_left found) fun taken => ?_
      exact found ((mem_names_discover_empty first).1 taken)
  · intro typed
    exact ⟨alone.2 fun name mem => typed name (.inl mem),
      fault_discover_eq_none_iff.2 fun name mem _ => typed name (.inr mem)⟩

/-- Both discoveries leave every name that one of them finds, with the type of its owner. -/
theorem mem_entries_discover_both (first : (s.discover a .empty).fault = none)
    (second : (s.discover b (s.discover a .empty).table).fault = none)
    {e : String × Option String} :
    e ∈ (s.discover b (s.discover a .empty).table).table.entries ↔
      (e.1 ∈ (BuildStep.discover a).names s ∨ e.1 ∈ (BuildStep.discover b).names s) ∧
        e.2 = s.ownType? e.1 := by
  have before : e ∈ (s.discover a .empty).table.entries ↔
      e.1 ∈ (BuildStep.discover a).names s ∧ e.2 = s.ownType? e.1 := by
    rw [mem_entries_discover first]
    exact (or_iff_right List.not_mem_nil).trans (and_iff_right List.not_mem_nil)
  rw [mem_entries_discover second, before, mem_names_discover_empty first]
  by_cases found : e.1 ∈ (BuildStep.discover a).names s <;> simp [found]

end

/-- Two discoveries from the empty table succeed in one order exactly if they succeed in the other.
Then they leave the same routes with the same types, in whatever order: the names that either of
them finds, each with the type of the first declaration that makes it a route. -/
theorem discover_exchange (s : Survey) (a b : String) :
    let ab := s.discover b (s.discover a .empty).table
    let ba := s.discover a (s.discover b .empty).table
    ((s.discover a .empty).fault = none ∧ ab.fault = none ↔
      (s.discover b .empty).fault = none ∧ ba.fault = none) ∧
    ((s.discover a .empty).fault = none ∧ ab.fault = none →
      ab.table.entries.Perm ba.table.entries ∧
      ∀ e, e ∈ ab.table.entries ↔
        (e.1 ∈ (BuildStep.discover a).names s ∨ e.1 ∈ (BuildStep.discover b).names s) ∧
          e.2 = s.ownType? e.1) := by
  intro ab ba
  -- both sides ask for a type of every name of either suffix, which does not depend on the order
  have same : (s.discover a .empty).fault = none ∧ ab.fault = none ↔
      (s.discover b .empty).fault = none ∧ ba.fault = none := by
    rw [discover_both_iff, discover_both_iff]
    exact forall_congr' fun name => by rw [or_comm]
  refine ⟨same, fun succeeded => ⟨RouteTable.entries_perm_iff.2 fun e => ?_, fun e => ?_⟩⟩
  · obtain ⟨second, first⟩ := same.1 succeeded
    rw [mem_entries_discover_both succeeded.1 succeeded.2, mem_entries_discover_both second first,
      or_comm]
  · exact mem_entries_discover_both succeeded.1 succeeded.2

/-- A catalog that knows the first of two pages with one name, and nothing of the second. -/
def halfKnown : Survey where
  catalog := {
    declarations := [
      ⟨⟨0⟩, "HomePage", "app", [], .classType, false, [], none⟩,
      ⟨⟨1⟩, "AudiPage", "app", [], .recordType, false, [], none⟩,
      ⟨⟨2⟩, "AudiPage", "lib", [], .classType, false, [], none⟩]
    lookup := fun id =>
      if id = ⟨0⟩ then .found "app.HomePage" else if id = ⟨1⟩ then .found "app.AudiPage"
      else .missing }
  names := .default
  reserved := []

/-- Where one order succeeds, so does the other, although the catalog does not know all of its
names. -/
theorem discover_exchange_halfKnown :
    ((halfKnown.discover "Page" .empty).fault = none ∧
      (halfKnown.discover "iPage" (halfKnown.discover "Page" .empty).table).fault = none) ∧
    (halfKnown.discover "Page" (halfKnown.discover "iPage" .empty).table).fault = none ∧
    [("HomePage", some "app.HomePage"), ("AudiPage", some "app.AudiPage")].Perm
      (halfKnown.discover "Page" (halfKnown.discover "iPage" .empty).table).table.entries := by
  have succeeded : (halfKnown.discover "Page" .empty).fault = none ∧
      (halfKnown.discover "iPage" (halfKnown.discover "Page" .empty).table).fault = none := by
    decide
  obtain ⟨same, routes⟩ := discover_exchange halfKnown "Page" "iPage"
  exact ⟨succeeded, (same.1 succeeded).2, (routes succeeded).1⟩

/-- The other order finds the narrower suffix first. -/
example : (halfKnown.discover "Page" (halfKnown.discover "iPage" .empty).table).table.entries =
    [("AudiPage", some "app.AudiPage"), ("HomePage", some "app.HomePage")] := by decide

end Survey

end RouteRegistry
