/-
RouteRegistry/Proofs/Request.lean

What a catalog asks for, said of its declarations and markers directly.

* `RouteName.Valid` is the grammar of route names together with the reserved words;
  all characters of a name lie between the digit 0 and the letter z.
* `Marker.shown?` is the text of an argument, if it is a string that shows something.
* `RouteRequest` is an extra-route marker with the type that carries it, and
  `Survey.requests` lists all of them in walk order.
* `Configures` says which marker configures a pass.

Each is tied to the function of the library that computes it: `isValid_iff`,
`usableName_read`, `extraRoutes_eq`, `configuration?_eq_some_iff`.
-/
import RouteRegistry.Pass

namespace RouteRegistry

/-! ### Route names -/

/-- An ASCII letter or underscore, then ASCII letters, digits and underscores; no reserved word. -/
structure RouteName.Valid (reserved : List String) (name : String) : Prop where
  grammar : ∃ c cs, name.toList = c :: cs ∧ (c.isAlpha ∨ c = '_') ∧
    ∀ x ∈ cs, x.isAlphanum ∨ x = '_'
  free : name ∉ reserved

/-- The check of a route name is the grammar and the reserved words. -/
theorem RouteName.isValid_iff {reserved : List String} {name : String} :
    isValid reserved name = true ↔ Valid reserved name := by
  unfold isValid matchesGrammar
  constructor
  · intro h
    obtain ⟨hg, hr⟩ := Bool.and_eq_true_iff.1 h
    refine ⟨?_, by simpa using hr⟩
    rcases e : name.toList with - | ⟨c, cs⟩
    · simp [e] at hg
    · exact ⟨c, cs, rfl, by simpa [e, isStart, isPart] using hg⟩
  · rintro ⟨⟨c, cs, e, hc, hcs⟩, hr⟩
    simp only [e, isStart]
    simpa [hr, hc, isPart] using hcs

instance (reserved : List String) (name : String) : Decidable (RouteName.Valid reserved name) :=
  decidable_of_iff _ RouteName.isValid_iff

namespace RouteName

/-- A character that cannot go on with a name is in no name. -/
theorem Valid.not_mem {reserved : List String} {name : String} (h : Valid reserved name) {c : Char}
    (hc : isPart c = false) : c ∉ name.toList := by
  obtain ⟨first, rest, e, hfirst, hrest⟩ := h.grammar
  intro mem
  have part : isPart c = true := by
    unfold isPart
    rw [e] at mem
    rcases List.mem_cons.1 mem with rfl | mem
    · rcases hfirst with alpha | rfl
      · simp [Char.isAlphanum, alpha]
      · rfl
    · simpa using hrest c mem
  rw [hc] at part
  exact absurd part Bool.false_ne_true

theorem Valid.isPart {reserved : List String} {name : String} (h : Valid reserved name) {c : Char}
    (hc : c ∈ name.toList) : isPart c = true :=
  Bool.not_eq_false _ ▸ fun other => h.not_mem other hc

/-- A part of a name lies between the digit 0 and the letter z. -/
theorem toNat_of_isPart {c : Char} (h : isPart c = true) : 48 ≤ c.toNat ∧ c.toNat ≤ 122 := by
  have classes : (((c.isUpper || c.isLower) || c.isDigit) || c == '_') = true := h
  have upper : c.isUpper = decide (65 ≤ c.val ∧ c.val ≤ 90) := rfl
  have lower : c.isLower = (decide (97 ≤ c.val) && decide (c.val ≤ 122)) := rfl
  have digit : c.isDigit = (decide (48 ≤ c.val) && decide (c.val ≤ 57)) := rfl
  simp only [upper, lower, digit, Bool.or_eq_true, Bool.and_eq_true, decide_eq_true_eq,
    beq_iff_eq, UInt32.le_iff_toNat_le] at classes
  rcases classes with ((h | h) | h) | rfl
  · exact ⟨Nat.le_trans (by decide) h.1, Nat.le_trans h.2 (by decide)⟩
  · exact ⟨Nat.le_trans (by decide) h.1, Nat.le_trans h.2 (by decide)⟩
  · exact ⟨Nat.le_trans (by decide) h.1, Nat.le_trans h.2 (by decide)⟩
  · decide

theorem isBlank_of_isPart {c : Char} (h : isPart c = true) : isBlank c = false := by
  have range := toNat_of_isPart h
  rw [← Bool.not_eq_true]
  simp only [isBlank, Bool.or_eq_true, Bool.and_eq_true, decide_eq_true_eq, beq_iff_eq]
  omega

end RouteName

/-! ### Arguments of markers -/

/-- The text of an argument, if it is a string that shows something. -/
def Marker.shown? (m : Marker) (position : Nat) (keys : List String) : Option String :=
  match m.argument position keys with
  | some (.str text) => if Text.isBlank text then none else some text
  | _ => none

/-- The type that an argument refers to. -/
def Marker.referred? (m : Marker) (position : Nat) (keys : List String) : Option String :=
  match m.argument position keys with
  | some (.typeRef name) => some name
  | _ => none

theorem Marker.shown?_eq (m : Marker) (position : Nat) (keys : List String) :
    ((m.argument position keys).bind MarkerValue.str?).filter (fun s => !Text.isBlank s) =
      m.shown? position keys := by
  unfold shown?
  rcases m.argument position keys with - | (text | - | - | -)
  · rfl
  · by_cases h : Text.isBlank text = true <;> simp [MarkerValue.str?, Option.filter, h]
  all_goals rfl

theorem Marker.referred?_eq (m : Marker) (position : Nat) (keys : List String) :
    (m.argument position keys).bind MarkerValue.typeRef? = m.referred? position keys := by
  unfold referred?
  rcases m.argument position keys with - | (- | - | - | -) <;> rfl

/-! ### Extra routes -/

/-- An extra-route marker and the type that carries it. -/
structure RouteRequest where
  carrier : Declaration
  marker : Marker
  deriving DecidableEq

namespace RouteRequest

/-- The name asked for; absent when it is missing, no string or blank. -/
def name? (r : RouteRequest) : Option String := r.marker.shown? 0 MarkerNames.routeNameKeys

/-- The type asked for. -/
def target? (r : RouteRequest) : Option String := r.marker.referred? 1 MarkerNames.targetTypeKeys

/-- The marker's own place, or else the carrier's. -/
def origin (r : RouteRequest) : Option Location :=
  match r.marker.origin with
  | some place => some place
  | none => r.carrier.origin

/-- What the library reads off the marker. -/
def read (r : RouteRequest) : ExtraRoute := MarkerNames.extraRouteOf r.carrier r.marker

@[simp] theorem usableName_read (r : RouteRequest) : r.read.usableName = r.name? :=
  r.marker.shown?_eq 0 MarkerNames.routeNameKeys

@[simp] theorem explicitType_read (r : RouteRequest) : r.read.explicitType = r.target? :=
  r.marker.referred?_eq 1 MarkerNames.targetTypeKeys

@[simp] theorem origin_read (r : RouteRequest) : r.read.origin = r.origin := by
  show r.marker.origin.or r.carrier.origin = r.origin
  unfold origin
  cases r.marker.origin <;> rfl

end RouteRequest

/-- The extra-route markers: by carrier in catalog order, then by marker order. -/
def Survey.requests (s : Survey) : List RouteRequest :=
  s.catalog.declarations.flatMap fun d =>
    (d.markers.filter fun m => s.names.extraRoute.contains m.simpleName).map (RouteRequest.mk d)

/-- The extra routes of a merge are what it reads off the requests. -/
theorem Survey.extraRoutes_eq (s : Survey) : s.extraRoutes = s.requests.map RouteRequest.read := by
  unfold Survey.extraRoutes Survey.requests MarkerNames.extraRoutes
  rw [List.map_flatMap]
  simp only [List.map_map]
  rfl

/-- A merge is a walk over the requests. -/
theorem Survey.merge_eq (s : Survey) (t : RouteTable) :
    s.merge t = s.mergeFrom (s.requests.map RouteRequest.read) t := by
  rw [← extraRoutes_eq]; rfl

/-! ### The configuration -/

/-- `d` is the first type with a configuration marker, and `m` its first such marker. -/
structure Configures (names : MarkerNames) (c : Catalog) (d : Declaration) (m : Marker) :
    Prop where
  carrier : c.declarations.find? (·.hasMarker names.configuration) = some d
  marker : d.markers.find? (fun m => names.configuration.contains m.simpleName) = some m

theorem Declaration.hasMarker_eq (d : Declaration) (names : List String) :
    d.hasMarker names = (d.markers.find? fun m => names.contains m.simpleName).isSome := by
  rw [Bool.eq_iff_iff, List.find?_isSome]
  simp [hasMarker]

/-- The first marker with a configuring name configures. -/
theorem MarkerNames.configuration?_eq (names : MarkerNames) (d : Declaration) :
    names.configuration? d =
      (d.markers.find? fun m => names.configuration.contains m.simpleName).map
        (configurationOf d) := by
  unfold configuration? Declaration.markersNamed
  rw [List.head?_filter]

/-- No marker of the declaration goes by one of the names. -/
theorem Declaration.markersNamed_eq_nil {d : Declaration} {names : List String}
    (h : ∀ m ∈ d.markers, m.simpleName ∉ names) : d.markersNamed names = [] := by
  apply List.filter_eq_nil_iff.2
  intro m hm
  simpa using h m hm

theorem MarkerNames.configuration?_eq_none {names : MarkerNames} {d : Declaration}
    (h : ∀ m ∈ d.markers, m.simpleName ∉ names.configuration) : names.configuration? d = none := by
  unfold configuration?
  rw [Declaration.markersNamed_eq_nil h]
  rfl

/-- A pass is not configured if no declaration has a marker with a configuring name. -/
theorem Generator.configuration?_eq_none_iff {g : Generator} {c : Catalog} :
    g.configuration? c = none ↔
      ∀ d ∈ c.declarations, ∀ m ∈ d.markers, m.simpleName ∉ g.names.configuration := by
  unfold configuration?
  rw [List.findSome?_eq_none_iff]
  simp only [MarkerNames.configuration?_eq, Option.map_eq_none_iff, List.find?_eq_none,
    List.contains_iff_mem]

/-- A pass is configured by the first such marker of the first declaration that has one. -/
theorem Generator.configuration?_eq_some_iff {g : Generator} {c : Catalog}
    {config : Configuration} :
    g.configuration? c = some config ↔
      ∃ d m, Configures g.names c d m ∧ config = MarkerNames.configurationOf d m := by
  unfold configuration?
  rw [List.findSome?_eq_some_iff]
  constructor
  · rintro ⟨before, d, rest, split, hd, hbefore⟩
    rw [MarkerNames.configuration?_eq, Option.map_eq_some_iff] at hd
    obtain ⟨m, hm, rfl⟩ := hd
    refine ⟨d, m, ⟨?_, hm⟩, rfl⟩
    rw [List.find?_eq_some_iff_append]
    refine ⟨by rw [Declaration.hasMarker_eq, hm]; rfl, before, rest, split, fun x hx => ?_⟩
    have hnone := hbefore x hx
    rw [MarkerNames.configuration?_eq, Option.map_eq_none_iff] at hnone
    rw [Declaration.hasMarker_eq, hnone]; rfl
  · rintro ⟨d, m, ⟨hd, hm⟩, rfl⟩
    obtain ⟨-, before, rest, split, hbefore⟩ := List.find?_eq_some_iff_append.1 hd
    refine ⟨before, d, rest, split, ?_, fun x hx => ?_⟩
    · rw [MarkerNames.configuration?_eq, hm]; rfl
    · have hnot := hbefore x hx
      rw [Declaration.hasMarker_eq, Bool.not_eq_true', Option.isSome_eq_false_iff,
        Option.isNone_iff_eq_none] at hnot
      rw [MarkerNames.configuration?_eq, hnot]; rfl

/-- The suffix is usable if its argument is a string that shows something. -/
theorem MarkerNames.usableSuffix_configurationOf (d : Declaration) (m : Marker) :
    (configurationOf d m).usableSuffix = m.shown? 0 suffixKeys :=
  m.shown?_eq 0 suffixKeys

/-! ### A small catalog -/

/-- A class `Shell` that configures the suffix `View` and asks for five routes, a page, and an
abstract class. -/
def Catalog.small : Catalog := .ofList [
  ⟨⟨0⟩, "Shell", "app", [], .classType, false,
    [⟨"AutoRoutes", [⟨none, .str "View"⟩], none⟩,
      ⟨"ExtraRoute", [⟨none, .str "Bad!"⟩], none⟩,
      ⟨"ExtraRoute", [⟨none, .str "HomePage"⟩], some ⟨⟨"Shell.java"⟩, 3⟩⟩,
      ⟨"ExtraRoute", [⟨none, .str "Login"⟩], none⟩,
      ⟨"ExtraRoute", [⟨some "value", .str "Help"⟩], none⟩,
      ⟨"ExtraRoute", [⟨none, .str " "⟩], none⟩],
    some ⟨⟨"Shell.java"⟩, 1⟩⟩,
  ⟨⟨1⟩, "HomePage", "app.home", [], .classType, false, [], none⟩,
  ⟨⟨2⟩, "Login", "app.auth", [], .classType, true, [], none⟩]

/-- The small catalog under the names that hold by default. -/
def Survey.small : Survey := ⟨.small, .default, ["AllRoutes"]⟩

end RouteRegistry
