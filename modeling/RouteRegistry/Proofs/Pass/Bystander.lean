/-
RouteRegistry/Proofs/Pass/Bystander.lean

Declarations that take no part in a pass.

A `Bystander` carries no marker that a pass reads, is no route by itself, and is
not what any request finds under its name.  Every list in sight of a pass is
filtered out of the declarations, and a bystander passes none of the filters:
catalogs with it and without it are seen alike (`SeenAlike.insert`).

Where positions are identities, an insertion moves the identities behind it by
one (`movedId`).  That is a renaming (`renames_insert`) as long as there are
identities for all positions.  There are 2 ^ 32 of them, and a catalog that has
used them all has no room for a bystander (`output_crowd_full`).

Main result (`run_insert`): a bystander can be inserted anywhere into a catalog,
and all that changes in the pass is the identity of the carrier.
-/
import RouteRegistry.Proofs.Pass.Renaming
import RouteRegistry.Proofs.Growth.Step

namespace RouteRegistry

/-! ### Lists with one element more -/

section

variable {α : Type} (before after : List α) {x : α} {p : α → Bool}

theorem filter_insert (h : p x = false) :
    (before ++ x :: after).filter p = (before ++ after).filter p := by
  rw [List.filter_append, List.filter_cons_of_neg (by simp [h]), List.filter_append]

theorem find?_insert (h : p x = false) :
    (before ++ x :: after).find? p = (before ++ after).find? p := by
  rw [List.find?_append, List.find?_cons_of_neg (by simp [h]), List.find?_append]

/-- Where an element is after an insertion at the position. -/
def movedIndex (position i : Nat) : Nat := if i < position then i else i + 1

/-- What stands behind the place of insertion moves up by one. -/
theorem getElem?_insert (x : α) (i : Nat) :
    (before ++ x :: after)[movedIndex before.length i]? = (before ++ after)[i]? := by
  unfold movedIndex
  split
  case isTrue h => rw [List.getElem?_append_left h, List.getElem?_append_left h]
  case isFalse h =>
    have behind : i + 1 - before.length = i - before.length + 1 := by omega
    rw [List.getElem?_append_right (by omega), List.getElem?_append_right (by omega), behind,
      List.getElem?_cons_succ]

end

/-! ### Passing over one declaration -/

/-- What the declaration is to a pass over the catalog of the survey: no carrier of a marker, no
route by itself, and not the type of any route that is asked for. -/
structure Survey.Bystander (s : Survey) (suffix : String) (d : Declaration) : Prop where
  unmarked : ∀ m ∈ d.markers,
    m.simpleName ∉ s.names.configuration ∧ m.simpleName ∉ s.names.extraRoute
  apart : d.kind.isClassLike = false ∨
    (∀ r ∈ s.requests, r.name? ≠ some d.name) ∧
      (d.isAbstract = true ∨ ¬ suffix.toList <:+ d.name.toList)

section

variable {s : Survey} {suffix : String} {d : Declaration}

/-- No discovery takes a bystander. -/
theorem Survey.Bystander.not_eligible (h : s.Bystander suffix d) :
    (d.kind.isClassLike && s.isEligible suffix d) = false := by
  rcases h.apart with kind | ⟨-, isAbstract | ends⟩
  · rw [kind, Bool.false_and]
  · simp [Survey.isEligible, isAbstract]
  · have ends : Text.endsWith d.name suffix = false := by
      simpa [Text.endsWith, List.isSuffixOf_iff_suffix, ← Bool.not_eq_true] using ends
    simp [Survey.isEligible, ends]

/-- No merge finds a bystander when it looks for a type. -/
theorem Survey.Bystander.not_found (h : s.Bystander suffix d) {e : ExtraRoute}
    (he : e ∈ s.extraRoutes) {name : String} (hn : e.usableName = some name) :
    (d.kind.isClassLike && d.name == name) = false := by
  rcases h.apart with kind | ⟨other, -⟩
  · rw [kind, Bool.false_and]
  · rw [Survey.extraRoutes_eq] at he
    obtain ⟨r, hr, rfl⟩ := List.mem_map.1 he
    rw [RouteRequest.usableName_read] at hn
    have different : d.name ≠ name := by
      intro e
      exact other r hr (e ▸ hn)
    simp [different]

/-- A bystander asks for nothing. -/
theorem Survey.Bystander.extraRoutes_eq_nil (h : s.Bystander suffix d) :
    s.names.extraRoutes d = [] := by
  unfold MarkerNames.extraRoutes
  rw [Declaration.markersNamed_eq_nil fun m hm => (h.unmarked m hm).2]
  rfl

/-- A bystander configures nothing. -/
theorem Survey.Bystander.configuration?_eq_none (h : s.Bystander suffix d) :
    s.names.configuration? d = none :=
  MarkerNames.configuration?_eq_none fun m hm => (h.unmarked m hm).1

variable {f : DeclId → DeclId} {before after : List Declaration} {lookup : DeclId → Lookup}

/-- Nothing that is in sight comes from a bystander. -/
theorem Survey.SeenAlike.insert (b : s.Bystander suffix d)
    (h : s.SeenAlike f (s.withCatalog ⟨before ++ after, lookup⟩) suffix) :
    s.SeenAlike f (s.withCatalog ⟨before ++ d :: after, lookup⟩) suffix where
  reserved := rfl
  offers := by
    rw [← h.offers]
    unfold Survey.offers Catalog.classLikes
    rw [List.filter_filter, List.filter_filter]
    have passed : (s.isEligible suffix d && d.kind.isClassLike) = false := by
      rw [Bool.and_comm]
      exact b.not_eligible
    exact congrArg (List.map _) (filter_insert before after passed)
  extraRoutes := by
    rw [← h.extraRoutes]
    show (before ++ d :: after).flatMap s.names.extraRoutes =
      (before ++ after).flatMap s.names.extraRoutes
    rw [List.flatMap_append, List.flatMap_cons, b.extraRoutes_eq_nil, List.nil_append,
      List.flatMap_append]
  -- the request's name leads past `d`: a bystander is no class, or no request bears its name
  target := by
    intro e he name hn
    rw [← h.target e he name hn]
    unfold Survey.target?
    rw [Catalog.findByName_eq, Catalog.findByName_eq]
    exact congrArg (Option.map _) (find?_insert before after (b.not_found he hn))

end

/-! ### Positions that move -/

/-- The identity that a declaration has after an insertion at the position. -/
def movedId (position : Nat) (id : DeclId) : DeclId :=
  ⟨.ofNat (movedIndex position id.index.toNat)⟩

theorem movedId_ofNat {i : Nat} (h : i < UInt32.size) (position : Nat) :
    movedId position ⟨.ofNat i⟩ = ⟨.ofNat (movedIndex position i)⟩ := by
  unfold movedId
  rw [DeclId.index_ofNat h]

namespace IndexedCatalog

variable (before after : List Declaration) (d : Declaration)

/-- The declarations behind an insertion, each with the position it has there. -/
def behind : List Declaration :=
  after.mapIdx fun i x => { x with id := ⟨.ofNat (i + 1 + before.length)⟩ }

/-- The catalog with a declaration inserted, part by part. -/
theorem declarations_insert :
    (ofList (before ++ d :: after)).declarations =
      (ofList before).declarations ++
        { d with id := ⟨.ofNat before.length⟩ } :: behind before after := by
  show (before ++ d :: after).mapIdx _ = _
  rw [List.mapIdx_append, List.mapIdx_cons, Nat.zero_add]
  rfl

variable {before after}

/-- Without it, the declarations are the same under moved identities. -/
theorem declarations_moved (room : (before ++ after).length < UInt32.size) :
    (ofList before).declarations ++ behind before after =
      (ofList (before ++ after)).declarations.map (Declaration.rename (movedId before.length)) := by
  apply List.ext_getElem?
  intro i
  have length : (ofList before).declarations.length = before.length := List.length_mapIdx
  -- an inserted declaration, any, makes the positions on the left those after an insertion
  have inserted := getElem?_insert (ofList before).declarations (behind before after)
    { (default : Declaration) with id := ⟨.ofNat before.length⟩ } i
  rw [← declarations_insert, length, getElem?_ofList, getElem?_insert] at inserted
  rw [← inserted, List.getElem?_map, getElem?_ofList, Option.map_map]
  apply Option.map_congr
  intro x hx
  have bound : i < (before ++ after).length := (List.getElem?_eq_some_iff.1 hx).1
  show Declaration.mk .. = Declaration.mk (movedId before.length ⟨.ofNat i⟩) ..
  rw [movedId_ofNat (by omega)]

/-- All declarations are where they were, or one further, and known by the same names. -/
theorem renames_insert (room : (before ++ after).length < UInt32.size) :
    (ofList (before ++ after)).toCatalog.Renames (movedId before.length)
      ⟨(ofList before).declarations ++ behind before after,
        (ofList (before ++ d :: after)).toCatalog.lookup⟩ where
  declarations := declarations_moved room
  lookup := by
    intro numbered hmem
    obtain ⟨i, x, hx, rfl⟩ := exists_of_mem_ofList hmem
    have bound : i < (before ++ after).length := (List.getElem?_eq_some_iff.1 hx).1
    have hx' : (before ++ d :: after)[movedIndex before.length i]? = some x := by
      rw [getElem?_insert, hx]
    refine ⟨x.qualifiedName, ?_, ?_⟩
    · exact lookup_ofList (by omega) hx
    · rw [movedId_ofNat (by omega)]
      refine lookup_ofList ?_ hx'
      simp only [List.length_append, List.length_cons] at room ⊢
      omega

end IndexedCatalog

/-! ### The pass -/

namespace Generator

/-- The configuration is found where it was. -/
theorem configuration?_insert {g : Generator} {before after : List Declaration} {d : Declaration}
    (h : g.names.configuration? d = none) (lookup : DeclId → Lookup) :
    g.configuration? ⟨before ++ d :: after, lookup⟩ = g.configuration? ⟨before ++ after, lookup⟩ := by
  unfold configuration?
  rw [List.findSome?_append, List.findSome?_cons, h, List.findSome?_append]

/-- A declaration that takes no part can be inserted anywhere, as long as there is an identity left
for it.  The pass has the same outcome, up to the identity of the carrier, the same diagnostics and
the same output. -/
theorem run_insert (g : Generator) {before after : List Declaration} {d carrier : Declaration}
    {m : Marker} {suffix : String} (room : (before ++ after).length < UInt32.size)
    (configures : Configures g.names (IndexedCatalog.ofList (before ++ after)).toCatalog carrier m)
    (usable : m.shown? 0 MarkerNames.suffixKeys = some suffix)
    (bystander :
      (g.survey (IndexedCatalog.ofList (before ++ after)).toCatalog).Bystander suffix d)
    (cancel : Cancellation) (sink : Sink) (output : Output) :
    let r := g.run (IndexedCatalog.ofList (before ++ after)).toCatalog
      (cancel.through (movedId before.length)) sink output
    let r' := g.run (IndexedCatalog.ofList (before ++ d :: after)).toCatalog cancel sink output
    r'.outcome = r.outcome.rename (movedId before.length) ∧
    r'.diagnostics = r.diagnostics ∧ r'.output = r.output := by
  intro r r'
  have renames := IndexedCatalog.renames_insert d room
  have numbered : (g.survey (IndexedCatalog.ofList (before ++ after)).toCatalog).Bystander suffix
      { d with id := ⟨.ofNat before.length⟩ } := ⟨bystander.unmarked, bystander.apart⟩
  have inserted : (IndexedCatalog.ofList (before ++ d :: after)).toCatalog =
      ⟨(IndexedCatalog.ofList before).declarations ++
        { d with id := ⟨.ofNat before.length⟩ } :: IndexedCatalog.behind before after,
        (IndexedCatalog.ofList (before ++ d :: after)).toCatalog.lookup⟩ :=
    congrArg (Catalog.mk · _) (IndexedCatalog.declarations_insert before after d)
  have same : r' = r.rename (movedId before.length) := by
    show g.run _ cancel sink output = _
    rw [inserted]
    apply run_of_seenAlike
    · rw [configuration?_insert numbered.configuration?_eq_none]
      exact configuration?_renames renames g
    · intro config suffix' hc hs
      -- the suffix of the pass is that of the marker
      have suffix_eq : suffix' = suffix := by
        rw [configuration?_eq_some_iff.2 ⟨carrier, m, configures, rfl⟩] at hc
        rw [← Option.some.inj hc, MarkerNames.usableSuffix_configurationOf, usable] at hs
        exact (Option.some.inj hs).symm
      rw [suffix_eq]
      apply Survey.SeenAlike.insert (s := g.survey _) numbered
      exact Catalog.Renames.seenAlike (s := g.survey _) renames suffix
  rw [same, Run.diagnostics_rename]
  exact ⟨rfl, rfl, rfl⟩

/-- A class that asks for the pages and for a route without a type. -/
def asking : Declaration :=
  ⟨⟨0⟩, "Program", "app", [], .classType, false,
    [⟨"AutoRoutes", [⟨none, .str "Page"⟩], none⟩, ⟨"ExtraRoute", [⟨none, .str "Login"⟩], none⟩],
    none⟩

/-- An abstract class. -/
def base (name : String) : Declaration := ⟨⟨0⟩, name, "lib", [], .classType, true, [], none⟩

/-- The pages have an abstract base before them, and the carrier moves. -/
theorem run_insert_base :
    (([] : List Declaration) ++ [asking]).length < UInt32.size ∧
    Configures lister.names (IndexedCatalog.ofList ([] ++ [asking])).toCatalog asking
      ⟨"AutoRoutes", [⟨none, .str "Page"⟩], none⟩ ∧
    (⟨"AutoRoutes", [⟨none, .str "Page"⟩], none⟩ : Marker).shown? 0 MarkerNames.suffixKeys =
      some "Page" ∧
    (lister.survey (IndexedCatalog.ofList ([] ++ [asking])).toCatalog).Bystander "Page"
      (base "BasePage") ∧
    (lister.run (IndexedCatalog.ofList ([] ++ base "BasePage" :: [asking])).toCatalog .never .memory
      []).outcome =
      (lister.run (IndexedCatalog.ofList ([] ++ [asking])).toCatalog
        (Cancellation.never.through (movedId 0)) .memory []).outcome.rename (movedId 0) := by
  have room : (([] : List Declaration) ++ [asking]).length < UInt32.size := by decide
  have configures : Configures lister.names (IndexedCatalog.ofList ([] ++ [asking])).toCatalog
      asking ⟨"AutoRoutes", [⟨none, .str "Page"⟩], none⟩ := by
    constructor <;> decide +kernel
  have usable : (⟨"AutoRoutes", [⟨none, .str "Page"⟩], none⟩ : Marker).shown? 0
      MarkerNames.suffixKeys = some "Page" := by decide +kernel
  have bystander : (lister.survey (IndexedCatalog.ofList ([] ++ [asking])).toCatalog).Bystander
      "Page" (base "BasePage") := by
    constructor
    · intro m hm
      exact absurd hm List.not_mem_nil
    · right
      exact ⟨by decide +kernel, .inl rfl⟩
  refine ⟨room, configures, usable, bystander, ?_⟩
  exact (run_insert lister room configures usable bystander .never .memory []).1

/-- An abstract class is no route, but it has a type for the route of its name. -/
example : (lister.run (IndexedCatalog.ofList [asking]).toCatalog .never .memory []).output ≠
    (lister.run (IndexedCatalog.ofList [asking, base "Login"]).toCatalog .never .memory []).output := by
  decide +kernel

/-! ### Without room

The bound on the number of declarations cannot be relaxed.  A page behind a crowd of bystanders gets
its type by its identity, and behind enough of them it has the identity of the first declaration. -/

/-- A class that asks for the pages. -/
def program : Declaration :=
  ⟨⟨0⟩, "Program", "app", [], .classType, false, [⟨"AutoRoutes", [⟨none, .str "Page"⟩], none⟩],
    none⟩

/-- A page with the identity. -/
def page (id : DeclId) : Declaration := ⟨id, "HomePage", "app", [], .classType, false, [], none⟩

/-- The program and a page, with one answer to all questions. -/
def pair (type : String) : Catalog := ⟨[program, page ⟨1⟩], fun _ => .found type⟩

/-- The page has another identity, and the program keeps its own. -/
def pageId (id : DeclId) : DeclId → DeclId := fun i => if i = ⟨0⟩ then i else id

section

variable {id : DeclId} {type : String}

/-- The page is offered under its identity. -/
theorem offers_pair {c : Catalog} (h : c.declarations = [program, page id])
    (answer : c.lookup id = .found type) :
    (lister.survey c).offers "Page" = [⟨id, "HomePage", .ok type⟩] := by
  -- eligibility reads neither the id nor the type, so it can be evaluated on a closed catalog
  have eligible : (lister.survey c).isEligible "Page" (page id) = true := by
    show (lister.survey (pair "")).isEligible "Page" (page ⟨1⟩) = true
    decide +kernel
  have other : ¬ (lister.survey c).isEligible "Page" program = true := by
    show ¬ (lister.survey (pair "")).isEligible "Page" program = true
    decide +kernel
  have resolved : (lister.survey c).resolve (page id) = .ok type := by
    have asked : (lister.survey c).catalog.lookup (page id).id = .found type := answer
    unfold Survey.resolve
    rw [asked]
  show ((c.declarations.filter _).filter _).map _ = _
  rw [h]
  show ([program, page id].filter _).map _ = _
  rw [List.filter_cons_of_neg other, List.filter_cons_of_pos eligible]
  show [Sight.mk id "HomePage" _] = _
  rw [resolved]

variable {lookup : DeclId → Lookup} (answer : lookup id = .found type)

include answer

theorem seenAlike_pair :
    (lister.survey (pair type)).SeenAlike (pageId id)
      (lister.survey ⟨[program, page id], lookup⟩) "Page" where
  reserved := rfl
  offers := by
    rw [offers_pair rfl answer, offers_pair (c := pair type) rfl rfl]
    rfl
  extraRoutes := rfl
  target := by
    intro e he
    cases he

/-- Bystanders between the program and the page do not matter. -/
theorem output_between {between : List Declaration}
    (bystanders : ∀ d ∈ between, (lister.survey (pair type)).Bystander "Page" d) :
    (lister.run ⟨[program] ++ (between ++ [page id]), lookup⟩ .never .memory []).output =
      (lister.run (pair type) .never .memory []).output := by
  -- the bystanders are put in one by one, each of which leaves the two alike
  have alike : (lister.survey (pair type)).SeenAlike (pageId id)
      (lister.survey ⟨[program] ++ (between ++ [page id]), lookup⟩) "Page" := by
    induction between with
    | nil => exact seenAlike_pair answer
    | cons d ds ih =>
      obtain ⟨b, bs⟩ := List.forall_mem_cons.1 bystanders
      exact (ih bs).insert b
  have usable : (lister.configuration? (pair type)).bind (·.usableSuffix) = some "Page" := by
    show (lister.configuration? (pair "")).bind (·.usableSuffix) = some "Page"
    decide +kernel
  have same : lister.run ⟨[program] ++ (between ++ [page id]), lookup⟩ .never .memory [] =
      (lister.run (pair type) (Cancellation.never.through (pageId id)) .memory []).rename
        (pageId id) := by
    apply run_of_seenAlike
    · rfl
    · intro config suffix hc hs
      rw [hc] at usable
      rw [Option.some.inj (hs.symm.trans usable)]
      exact alike
  rw [same]
  rfl

end

/-- The program, a number of bystanders, and a page. -/
def crowd (n : Nat) : List Declaration :=
  [program] ++ (List.replicate n (base "BasePage") ++ [page ⟨0⟩])

/-- The type of the page is what the catalog answers for its identity. -/
theorem output_crowd {n : Nat} {type : String}
    (answer : (IndexedCatalog.ofList (crowd n)).toCatalog.lookup ⟨.ofNat (n + 1)⟩ = .found type) :
    (lister.run (IndexedCatalog.ofList (crowd n)).toCatalog .never .memory []).output =
      (lister.run (pair type) .never .memory []).output := by
  have numbered : (IndexedCatalog.ofList (crowd n)).declarations =
      [program] ++ ((List.replicate n (base "BasePage")).mapIdx
        (fun i d => { d with id := ⟨.ofNat (i + 1)⟩ }) ++ [page ⟨.ofNat (n + 1)⟩]) := by
    show List.mapIdx _ (program :: (List.replicate n (base "BasePage") ++ [page ⟨0⟩])) = _
    rw [List.mapIdx_cons, List.mapIdx_append, List.length_replicate]
    show _ :: (_ ++ [page ⟨.ofNat (0 + n + 1)⟩]) = _
    rw [Nat.zero_add]
    rfl
  have catalog : (IndexedCatalog.ofList (crowd n)).toCatalog = ⟨_, _⟩ :=
    congrArg (Catalog.mk · _) numbered
  rw [catalog]
  apply output_between answer
  intro d hd
  obtain ⟨i, hi, rfl⟩ := List.mem_mapIdx.1 hd
  -- a base class is abstract and asked for by no request
  rw [List.getElem_replicate]
  constructor
  · intro m hm
    exact absurd hm List.not_mem_nil
  · right
    refine ⟨?_, .inl rfl⟩
    intro r hr
    cases hr

/-- Where all identities are in use, one more bystander gives the page the identity of the program,
and so its type. -/
theorem output_crowd_full {n : Nat} (full : (crowd n).length = UInt32.size) :
    (lister.run (IndexedCatalog.ofList (crowd n)).toCatalog .never .memory []).output =
      [⟨"Routes.g.txt", "app.HomePage"⟩] ∧
    (lister.run (IndexedCatalog.ofList (crowd (n + 1))).toCatalog .never .memory []).output =
      [⟨"Routes.g.txt", "app.Program"⟩] := by
  have length : (crowd n).length = n + 2 := by simp [crowd]
  constructor
  · have last : (crowd n)[n + 1]? = some (page ⟨0⟩) := by simp [crowd]
    have name : (page ⟨0⟩).qualifiedName = "app.HomePage" := by decide +kernel
    have answer : (IndexedCatalog.ofList (crowd n)).toCatalog.lookup ⟨.ofNat (n + 1)⟩ =
        .found "app.HomePage" := by
      rw [IndexedCatalog.lookup_ofList (by omega) last, name]
    rw [output_crowd answer]
    decide +kernel
  · have first : (IndexedCatalog.ofList (crowd (n + 1))).get? ⟨0⟩ = some program :=
      IndexedCatalog.getElem?_ofList (crowd (n + 1)) 0
    -- one declaration too many: the page's id wraps around to that of the first declaration
    have wrapped : UInt32.ofNat (n + 2) = 0 := by
      rw [← length, full]
      rfl
    have name : program.qualifiedName = "app.Program" := by decide +kernel
    have answer : (IndexedCatalog.ofList (crowd (n + 1))).toCatalog.lookup ⟨.ofNat (n + 2)⟩ =
        .found "app.Program" := by
      show Lookup.of ((IndexedCatalog.ofList (crowd (n + 1))).get? _) = _
      rw [wrapped, first]
      exact congrArg Lookup.found name
    rw [output_crowd answer]
    decide +kernel

end Generator

end RouteRegistry
