/-
RouteRegistry/Proofs/Marker/Arguments.lean

The order in which the arguments of a marker are written.

A look-up sees two parts of the argument list, the arguments with a key of its
group (`Marker.keyed`) and those without any key (`Marker.unkeyed`), and of
these only the first part if there is anything in it (`argument_eq`).

`Marker.Reordered` keeps the second part as it is.  It may move the arguments
of the first part, but a single argument has no order to lose
(`Reordered.keyed_eq`).  A key may belong to two groups; each group is then
looked at on its own.

Main result (`MarkerNames.read_reordered`): a marker with at most one argument
for each group that is looked for on it reads the same in whatever order its
arguments are written, and an argument with a key of a group is the answer for
that group even when it is of the wrong kind.
-/
import Mathlib.Data.List.Perm.Basic
import RouteRegistry.MarkerNames

namespace RouteRegistry

/-! ### What a look-up sees -/

namespace Marker

/-- The arguments with one of the keys, in the order written. -/
def keyed (m : Marker) (keys : List String) : List MarkerArg :=
  m.args.filter fun a => a.key.any (keys.contains ·)

/-- The arguments without a key, in the order written. -/
def unkeyed (m : Marker) : List MarkerArg := m.args.filter (·.key.isNone)

variable {m m' : Marker} {keys : List String}

/-- An argument is looked up among the keyed ones first, then by position among the others. -/
theorem argument_eq (m : Marker) (position : Nat) (keys : List String) :
    m.argument position keys = ((m.keyed keys).head?.or m.unkeyed[position]?).map (·.value) := by
  unfold argument named positional keyed unkeyed
  rw [List.head?_filter, Option.map_or]

/-- An argument with a key of the group leaves nothing to the positions. -/
theorem argument_of_keyed {a : MarkerArg} (h : (m.keyed keys).head? = some a) (position : Nat) :
    m.argument position keys = some a.value := by
  rw [argument_eq, h, Option.some_or]
  rfl

/-! ### Arguments in another order -/

/-- The same marker with its arguments in another order, but for those without a key, which keep
theirs. -/
structure Reordered (m m' : Marker) : Prop where
  name : m'.name = m.name
  origin : m'.origin = m.origin
  args : m'.args.Perm m.args
  unkeyed : m'.unkeyed = m.unkeyed

namespace Reordered

theorem simpleName (h : m.Reordered m') : m'.simpleName = m.simpleName :=
  congrArg lastSegment h.name

/-- Where no two arguments share a key of the group, their order cannot matter. -/
theorem keyed_eq (h : m.Reordered m') (one : (m.keyed keys).length ≤ 1) :
    m'.keyed keys = m.keyed keys := by
  have moved : (m'.keyed keys).Perm (m.keyed keys) := h.args.filter _
  rcases e : m.keyed keys with - | ⟨a, others⟩
  · rw [e] at moved
    exact moved.eq_nil
  · rw [e, List.length_cons] at one
    obtain rfl : others = [] := List.eq_nil_of_length_eq_zero (by omega)
    rw [e] at moved
    exact List.perm_singleton.1 moved

/-- The argument that is found does not depend on the order. -/
theorem argument (h : m.Reordered m') (one : (m.keyed keys).length ≤ 1) (position : Nat) :
    m'.argument position keys = m.argument position keys := by
  rw [argument_eq, argument_eq, h.keyed_eq one, h.unkeyed]

end Reordered

end Marker

/-! ### Readings -/

namespace MarkerNames

/-- The groups of keys that are looked for on the marker. -/
def groups (names : MarkerNames) (m : Marker) : List (List String) :=
  (if m.simpleName ∈ names.configuration then [suffixKeys] else []) ++
    if m.simpleName ∈ names.extraRoute then [routeNameKeys, targetTypeKeys] else []

/-- Each group that is looked for on the marker has at most one argument there. -/
def Unambiguous (names : MarkerNames) (m : Marker) : Prop :=
  ∀ keys ∈ names.groups m, (m.keyed keys).length ≤ 1

instance (names : MarkerNames) (m : Marker) : Decidable (names.Unambiguous m) :=
  inferInstanceAs (Decidable (∀ keys ∈ names.groups m, (m.keyed keys).length ≤ 1))

variable {names : MarkerNames} {m m' : Marker}

theorem Unambiguous.suffix (h : names.Unambiguous m) (read : m.simpleName ∈ names.configuration) :
    (m.keyed suffixKeys).length ≤ 1 := by
  refine h suffixKeys (List.mem_append_left _ ?_)
  rw [if_pos read]
  exact List.mem_singleton_self suffixKeys

theorem Unambiguous.extraRoute (h : names.Unambiguous m) (read : m.simpleName ∈ names.extraRoute) :
    (m.keyed routeNameKeys).length ≤ 1 ∧ (m.keyed targetTypeKeys).length ≤ 1 := by
  have looked : ∀ keys ∈ [routeNameKeys, targetTypeKeys], (m.keyed keys).length ≤ 1 := by
    intro keys hkeys
    refine h keys (List.mem_append_right _ ?_)
    rwa [if_pos read]
  exact ⟨looked _ (by simp), looked _ (by simp)⟩

/-- The marker configures the same. -/
theorem configurationOf_reordered (h : m.Reordered m') (one : (m.keyed suffixKeys).length ≤ 1)
    (carrier : Declaration) : configurationOf carrier m' = configurationOf carrier m := by
  unfold configurationOf
  rw [h.argument one, h.simpleName, h.origin]

/-- The marker asks for the same route. -/
theorem extraRouteOf_reordered (h : m.Reordered m') (oneName : (m.keyed routeNameKeys).length ≤ 1)
    (oneType : (m.keyed targetTypeKeys).length ≤ 1) (carrier : Declaration) :
    extraRouteOf carrier m' = extraRouteOf carrier m := by
  unfold extraRouteOf
  rw [h.argument oneName, h.argument oneType, h.origin]

/-- Among the markers of a type, one can be exchanged for another that reads the same wherever it is
read at all. -/
theorem map_markersNamed_exchange {β : Type} {read : Marker → β} {wanted : List String}
    (name : m'.simpleName = m.simpleName) (same : m.simpleName ∈ wanted → read m' = read m)
    (d : Declaration) (before after : List Marker) :
    ({ d with markers := before ++ m' :: after }.markersNamed wanted).map read =
      ({ d with markers := before ++ m :: after }.markersNamed wanted).map read := by
  unfold Declaration.markersNamed
  rw [List.filter_append, List.filter_append, List.filter_cons, List.filter_cons, name]
  split
  case isTrue h => simp only [List.map_append, List.map_cons, same (List.contains_iff_mem.1 h)]
  case isFalse => rfl

/-- The order of a marker's arguments is immaterial as long as no group of keys that is looked for
on it has two arguments there, and those without a key stay in order: the type that carries it has
the same configuration and the same extra routes.  On any marker, the first argument with a key of a
group decides for that group, with nothing if it is not of the kind that is asked for. -/
theorem read_reordered (unambiguous : names.Unambiguous m) (reordered : m.Reordered m')
    (d : Declaration) (before after : List Marker) :
    let written : Declaration := { d with markers := before ++ m :: after }
    let rewritten : Declaration := { d with markers := before ++ m' :: after }
    names.configuration? rewritten = names.configuration? written ∧
    names.extraRoutes rewritten = names.extraRoutes written ∧
    ∀ (x : Marker) (a : MarkerArg),
      ((x.keyed suffixKeys).head? = some a → (configurationOf d x).suffix = a.value.str?) ∧
      ((x.keyed routeNameKeys).head? = some a → (extraRouteOf d x).name = a.value.str?) ∧
      ((x.keyed targetTypeKeys).head? = some a →
        (extraRouteOf d x).explicitType = a.value.typeRef?) := by
  intro written rewritten
  refine ⟨?_, ?_, fun x a => ⟨fun first => ?_, fun first => ?_, fun first => ?_⟩⟩
  -- a marker is read as a configuration under these names only, where its argument is unambiguous
  · have same (read : m.simpleName ∈ names.configuration) :
        configurationOf d m' = configurationOf d m :=
      configurationOf_reordered reordered (unambiguous.suffix read) d
    have readings := map_markersNamed_exchange reordered.simpleName same d before after
    unfold configuration?
    rw [← List.head?_map, ← List.head?_map]
    exact congrArg List.head? readings
  · have same (read : m.simpleName ∈ names.extraRoute) : extraRouteOf d m' = extraRouteOf d m :=
      have one := unambiguous.extraRoute read
      extraRouteOf_reordered reordered one.1 one.2 d
    exact map_markersNamed_exchange reordered.simpleName same d before after
  · unfold configurationOf
    rw [Marker.argument_of_keyed first, Option.bind_some]
  · unfold extraRouteOf
    rw [Marker.argument_of_keyed first, Option.bind_some]
  · unfold extraRouteOf
    rw [Marker.argument_of_keyed first, Option.bind_some]

/-- A class with the marker. -/
def shell (m : Marker) : Declaration :=
  ⟨⟨0⟩, "Shell", "app", [], .classType, false, [m], none⟩

/-- Names under which one marker is read in both ways. -/
def joint : MarkerNames := ⟨["Routed"], ["Routed"], []⟩

/-- By position, suffix and route name would be `Home`, but both readings look for `value` too. -/
def jointMarker : Marker where
  name := "Routed"
  args := [⟨none, .str "Home"⟩, ⟨some "value", .null⟩, ⟨some "path", .str "home"⟩,
    ⟨none, .typeRef "app.Home"⟩]
  origin := none

/-- The same arguments in another order, in which a keyed one stands first and the other last. -/
def jointReordered : Marker :=
  { jointMarker with
    args := [⟨some "path", .str "home"⟩, ⟨none, .str "Home"⟩, ⟨none, .typeRef "app.Home"⟩,
      ⟨some "value", .null⟩] }

/-- One marker that configures and asks for a route at once, with a key that decides both. -/
theorem read_reordered_joint :
    joint.Unambiguous jointMarker ∧ jointMarker.Reordered jointReordered ∧
    joint.configuration? (shell jointReordered) = some ⟨⟨0⟩, "Routed", "app", none, none⟩ ∧
    joint.extraRoutes (shell jointReordered) = [⟨⟨0⟩, none, some "app.Home", none⟩] ∧
    (configurationOf (shell jointMarker) jointMarker).suffix = none ∧
    (extraRouteOf (shell jointMarker) jointMarker).name = none := by
  have unambiguous : joint.Unambiguous jointMarker := by decide +kernel
  have reordered : jointMarker.Reordered jointReordered := ⟨rfl, rfl, by decide, by decide⟩
  obtain ⟨configuration, extraRoutes, decided⟩ :=
    read_reordered unambiguous reordered (shell jointMarker) [] []
  obtain ⟨suffix, name, -⟩ := decided jointMarker ⟨some "value", .null⟩
  exact ⟨unambiguous, reordered, configuration.trans (by decide +kernel),
    extraRoutes.trans (by decide +kernel), suffix (by decide), name (by decide)⟩

/-- Of two arguments for one group the first one decides. -/
example :
    let suffix : MarkerArg := ⟨some "suffix", .str "Page"⟩
    let value : MarkerArg := ⟨some "value", .str "View"⟩
    MarkerNames.default.configuration? (shell ⟨"AutoRoutes", [suffix, value], none⟩) ≠
      MarkerNames.default.configuration? (shell ⟨"AutoRoutes", [value, suffix], none⟩) := by
  decide +kernel

end MarkerNames

end RouteRegistry
