/-
RouteRegistry/Proofs/Growth/Sight.lean

What a growing table sees of a catalog.

Discovery looks at the eligible class-like declarations, and the merge at the
extra routes and at the first class-like declaration of a route's name.  Of a
declaration either of them learns its name and what the catalog answers for its
identity, which is a `Sight`.  Identities are handed on to the catalog, and
nothing looks into them.

Neither does the place of an extra route matter to the table: when the same
extra routes are asked for from other places and other types, the merge is the
same, and the host is told of it in other words (`mergeFrom_retell`).

Main results (`SeenAlike.discover`, `SeenAlike.merge`): two surveys that see the
same, but for a renaming of identities, grow a table alike.  So a statement
about a change to a catalog only has to say what becomes of the lists in sight.
-/
import RouteRegistry.Table.Growth

namespace RouteRegistry

/-! ### Renaming -/

section

variable (f : DeclId → DeclId)

/-- The extra route with its carrier under another identity. -/
def ExtraRoute.rename (e : ExtraRoute) : ExtraRoute := { e with carrier := f e.carrier }

/-- The event with the identity that it asks about renamed. -/
def Event.rename : Event → Event
  | .lookup id => .lookup (f id)
  | .report d => .report d

/-- The growth with the identities in its events renamed. -/
def Growth.rename (g : Growth) : Growth := { g with events := g.events.map (Event.rename f) }

@[simp] theorem Event.rename_id : Event.rename id = id := by
  funext e
  cases e <;> rfl

/-- Diagnostics have no identities. -/
@[simp] theorem diagnosticsOf_rename (events : List Event) :
    diagnosticsOf (events.map (Event.rename f)) = diagnosticsOf events := by
  have same : Event.report? ∘ Event.rename f = Event.report? := by
    funext e
    cases e <;> rfl
  unfold diagnosticsOf
  rw [List.filterMap_map, same]

end

/-- The same growth, of which the host is told each event by `tell`. -/
def Growth.retell (tell : Event → Event) (g : Growth) : Growth :=
  { g with events := g.events.map tell }

@[simp] theorem Growth.table_retell (tell : Event → Event) (g : Growth) :
    (g.retell tell).table = g.table := rfl

@[simp] theorem Growth.events_retell (tell : Event → Event) (g : Growth) :
    (g.retell tell).events = g.events.map tell := rfl

@[simp] theorem Growth.fault_retell (tell : Event → Event) (g : Growth) :
    (g.retell tell).fault = g.fault := rfl

theorem Growth.retell_after (tell : Event → Event) (before : List Event) (g : Growth) :
    (g.after before).retell tell = (g.retell tell).after (before.map tell) := by
  unfold Growth.retell Growth.after
  rw [List.map_append]

theorem Growth.rename_after (f : DeclId → DeclId) (before : List Event) (g : Growth) :
    (g.after before).rename f = (g.rename f).after (before.map (Event.rename f)) :=
  retell_after (Event.rename f) before g

/-! ### Sights -/

/-- What can be learned of a declaration: its name, and the answer to a question under its
identity. -/
structure Sight where
  id : DeclId
  name : String
  answer : Except Fault String

/-- The sight under another identity. -/
def Sight.rename (f : DeclId → DeclId) (x : Sight) : Sight := { x with id := f x.id }

@[simp] theorem sight_rename_id : Sight.rename id = id := rfl

@[simp] theorem ExtraRoute.rename_id : ExtraRoute.rename id = id := rfl

namespace Survey

/-- What a discovery sees of a declaration that it takes up. -/
def sight (s : Survey) (d : Declaration) : Sight := ⟨d.id, d.name, s.resolve d⟩

/-- What discovery sees. -/
def offers (s : Survey) (suffix : String) : List Sight :=
  (s.catalog.classLikes.filter (s.isEligible suffix)).map s.sight

/-- What the merge sees when it looks for the type of a route. -/
def target? (s : Survey) (name : String) : Option Sight :=
  (s.catalog.findByName name).map s.sight

/-- `s'` sees what `s` sees, with the identities that `f` gives. -/
structure SeenAlike (f : DeclId → DeclId) (s s' : Survey) (suffix : String) : Prop where
  reserved : s'.reserved = s.reserved
  offers : s'.offers suffix = (s.offers suffix).map (Sight.rename f)
  extraRoutes : s'.extraRoutes = s.extraRoutes.map (ExtraRoute.rename f)
  target : ∀ e ∈ s.extraRoutes, ∀ name, e.usableName = some name →
    s'.target? name = (s.target? name).map (Sight.rename f)

end Survey

/-! ### Discovery -/

/-- Discovery on what is in sight. -/
def Growth.ofOffers : List Sight → RouteTable → Growth
  | [], t => .stop t
  | x :: xs, t =>
    if t.contains x.name then ofOffers xs t
    else
      match x.answer with
      | .error fault => ⟨t, [.lookup x.id], some fault⟩
      | .ok type => (ofOffers xs (t.add x.name (some type))).after [.lookup x.id]

/-- A walk over renamed sights goes the same way and asks about the renamed identities. -/
theorem Growth.ofOffers_rename (f : DeclId → DeclId) (xs : List Sight) (t : RouteTable) :
    ofOffers (xs.map (Sight.rename f)) t = (ofOffers xs t).rename f := by
  induction xs generalizing t with
  | nil => rfl
  | cons x xs ih =>
    rw [List.map_cons, ofOffers, ofOffers]
    show (if t.contains x.name then _ else _) = _
    -- the table holds names only, so it takes the same branch under either ids
    by_cases taken : t.contains x.name = true
    · rw [if_pos taken, if_pos taken]
      apply ih
    · rw [if_neg taken, if_neg taken]
      show (match x.answer with | .error _ => _ | .ok _ => _) = _
      rcases x.answer with fault | type
      · rfl
      · dsimp only
        rw [ih, rename_after]
        rfl

namespace Survey

/-- Discovery sees no more of the declarations than the sights of the eligible ones. -/
theorem discoverFrom_eq_ofOffers (s : Survey) (suffix : String) (ds : List Declaration)
    (t : RouteTable) :
    s.discoverFrom suffix ds t = .ofOffers ((ds.filter (s.isEligible suffix)).map s.sight) t := by
  induction ds generalizing t with
  | nil => rfl
  | cons d ds ih =>
    rw [discoverFrom]
    -- the code tests both at once; an ineligible declaration is no offer, a taken name is a skipped
    -- one
    by_cases eligible : s.isEligible suffix d = true
    · rw [List.filter_cons_of_pos eligible, List.map_cons, Growth.ofOffers]
      show _ = if t.contains d.name then _ else match s.resolve d with | .error _ => _ | .ok _ => _
      by_cases taken : t.contains d.name = true
      · rw [if_pos taken, if_neg (by simp [taken])]
        apply ih
      · rw [if_neg taken, if_pos (by simp [eligible, taken])]
        rcases s.resolve d with fault | type
        · rfl
        · dsimp only
          rw [ih]
          rfl
    · rw [List.filter_cons_of_neg eligible, if_neg (by simp [eligible])]
      apply ih

variable {f : DeclId → DeclId} {s s' : Survey} {suffix : String}

/-- Discoveries that see the same do the same. -/
theorem SeenAlike.discover (h : SeenAlike f s s' suffix) (t : RouteTable) :
    s'.discover suffix t = (s.discover suffix t).rename f := by
  unfold Survey.discover
  rw [discoverFrom_eq_ofOffers, discoverFrom_eq_ofOffers, ← Growth.ofOffers_rename]
  exact congrArg (Growth.ofOffers · t) h.offers

/-! ### The merge -/

/-- Under the name, both surveys find nothing, or declarations with the same answer, and `tell`
tells the one look-up as the other. -/
def FoundAlike (tell : Event → Event) (s s' : Survey) (name : String) : Prop :=
  (s.catalog.findByName name = none ∧ s'.catalog.findByName name = none) ∨
  ∃ d d', s.catalog.findByName name = some d ∧ s'.catalog.findByName name = some d' ∧
    tell (.lookup d.id) = .lookup d'.id ∧ s'.resolve d' = s.resolve d

theorem foundAlike_of_target {name : String}
    (h : s'.target? name = (s.target? name).map (Sight.rename f)) :
    FoundAlike (Event.rename f) s s' name := by
  unfold target? at h
  rcases hd : s.catalog.findByName name with - | d
  · rw [hd] at h
    exact .inl ⟨hd, Option.map_eq_none_iff.1 h⟩
  · rw [hd] at h
    obtain ⟨d', hd', same⟩ := Option.map_eq_some_iff.1 h
    refine .inr ⟨d, d', hd, hd', ?_, congrArg Sight.answer same⟩
    exact congrArg Event.lookup (congrArg Sight.id same).symm

/-- Extra routes that ask for the same, from other types or other places, make a table grow alike if
what they ask for is found alike. -/
theorem mergeFrom_retell {tell : Event → Event} {move : ExtraRoute → ExtraRoute}
    (reserved : s'.reserved = s.reserved)
    (names : ∀ e, (move e).usableName = e.usableName)
    (types : ∀ e, (move e).explicitType = e.explicitType)
    (reports : ∀ code text e,
      tell (.report (.of code text e.origin)) = .report (.of code text (move e).origin))
    {es : List ExtraRoute}
    (found : ∀ e ∈ es, ∀ name, e.usableName = some name → FoundAlike tell s s' name)
    (t : RouteTable) : s'.mergeFrom (es.map move) t = (s.mergeFrom es t).retell tell := by
  induction es generalizing t with
  | nil => rfl
  | cons e es ih =>
    obtain ⟨here, rest⟩ := List.forall_mem_cons.1 found
    have next (t : RouteTable) := ih rest t
    have told {code : DiagnosticCode} {text : String} (t : RouteTable) :
        (s'.mergeFrom (es.map move) t).after [.report (.of code text (move e).origin)] =
          ((s.mergeFrom es t).after [.report (.of code text e.origin)]).retell tell := by
      rw [next, Growth.retell_after, List.map_singleton, reports]
    rw [List.map_cons, mergeFrom, mergeFrom, names, types, reserved]
    -- a marker is skipped, reported, given its own type or that of a declaration
    rcases hn : e.usableName with - | name
    · apply next
    dsimp only
    split
    · apply told
    split
    · apply told
    rcases e.explicitType with - | type
    · obtain ⟨none, none'⟩ | ⟨d, d', found, found', asked, answer⟩ := here name hn
      · rw [none, none']
        apply told
      · rw [found, found']
        dsimp only
        rw [answer, ← asked]
        rcases s.resolve d with fault | type
        · rfl
        · dsimp only
          rw [next, Growth.retell_after]
          rfl
    · apply next

/-- A merge depends on the catalog only through the declarations that its names lead to. -/
theorem mergeFrom_of_target (reserved : s'.reserved = s.reserved) {es : List ExtraRoute}
    (target : ∀ e ∈ es, ∀ name, e.usableName = some name →
      s'.target? name = (s.target? name).map (Sight.rename f)) (t : RouteTable) :
    s'.mergeFrom (es.map (ExtraRoute.rename f)) t = (s.mergeFrom es t).rename f := by
  have names (e : ExtraRoute) : (e.rename f).usableName = e.usableName := rfl
  have found : ∀ e ∈ es, ∀ name, e.usableName = some name →
      FoundAlike (Event.rename f) s s' name :=
    fun e he name hn => foundAlike_of_target (target e he name hn)
  exact mergeFrom_retell reserved names (fun _ => rfl) (fun _ _ _ => rfl) found t

/-- Merges that see the same do the same. -/
theorem SeenAlike.merge (h : SeenAlike f s s' suffix) (t : RouteTable) :
    s'.merge t = (s.merge t).rename f := by
  unfold Survey.merge
  rw [h.extraRoutes]
  exact mergeFrom_of_target h.reserved h.target t

end Survey

end RouteRegistry
