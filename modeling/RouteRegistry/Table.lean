/-
RouteRegistry/Table.lean

The route table: route names in order, each with a type or without one.

No name occurs twice, which the type itself guarantees (`nodup`).  `add` keeps
what is there and appends a new name; `set` overwrites in place.  The view of a
table is its list of entries; `add` is described on it by `entries_add`.
-/

namespace RouteRegistry

/-- The routes of a pass in the order in which they were found.  No name occurs twice, so a table
with a repeated name cannot be built. -/
structure RouteTable where
  entries : List (String × Option String)
  nodup : (entries.map Prod.fst).Nodup

namespace RouteTable

/-- A table is its entries. -/
theorem ext {s t : RouteTable} (h : s.entries = t.entries) : s = t := by
  cases s; cases t; cases h; rfl

instance : DecidableEq RouteTable := fun s t =>
  if h : s.entries = t.entries then isTrue (ext h) else isFalse fun e => h (e ▸ rfl)

/-! ### Looking up -/

/-- The table without routes. -/
def empty : RouteTable := ⟨[], by simp⟩

instance : Inhabited RouteTable := ⟨empty⟩

/-- The number of routes. -/
def size (t : RouteTable) : Nat := t.entries.length

/-- There are no routes. -/
def isEmpty (t : RouteTable) : Bool := t.entries.isEmpty

/-- The route names, in order. -/
def names (t : RouteTable) : List String := t.entries.map Prod.fst

/-- The routes that have a type, with it, in order. -/
def typed (t : RouteTable) : List (String × String) :=
  t.entries.filterMap fun e => e.2.map fun type => (e.1, type)

/-- The name is that of a route. -/
def contains (t : RouteTable) (name : String) : Bool := t.names.contains name

/-- The type of the route, if there is the route and it has a type. -/
def typeOf (t : RouteTable) (name : String) : Option String :=
  (t.entries.lookup name).bind id

/-! ### Growing -/

/-- Appends the route, unless its name is taken. -/
def add (t : RouteTable) (name : String) (type : Option String) : RouteTable :=
  if h : name ∈ t.names then t
  else ⟨t.entries ++ [(name, type)], by
    rw [List.map_append]
    exact List.nodup_append.2 ⟨t.nodup, by simp, by
      intro a ha b hb e
      simp only [List.map_cons, List.map_nil, List.mem_singleton] at hb
      exact h (hb ▸ e ▸ ha)⟩⟩

/-- The first route of a name stays; a later one with the same name changes nothing. -/
theorem entries_add (t : RouteTable) (name : String) (type : Option String) :
    (t.add name type).entries =
      if name ∈ t.names then t.entries else t.entries ++ [(name, type)] := by
  unfold add; split <;> rfl

@[simp] theorem entries_empty : empty.entries = [] := rfl

theorem add_of_mem {t : RouteTable} {name : String} (h : name ∈ t.names) (type : Option String) :
    t.add name type = t := by
  apply ext; rw [entries_add, if_pos h]

theorem entries_add_of_not_mem {t : RouteTable} {name : String} (h : name ∉ t.names)
    (type : Option String) : (t.add name type).entries = t.entries ++ [(name, type)] := by
  rw [entries_add, if_neg h]

/-- Gives the route the type, where the name is or else at the end. -/
def set (t : RouteTable) (name : String) (type : Option String) : RouteTable :=
  if name ∈ t.names then
    ⟨t.entries.map fun e => if e.1 = name then (name, type) else e, by
      have : ((t.entries.map fun e => if e.1 = name then (name, type) else e).map Prod.fst) =
          t.entries.map Prod.fst := by
        rw [List.map_map]
        refine List.map_congr_left fun e _ => ?_
        simp only [Function.comp]
        split <;> simp_all
      rw [this]; exact t.nodup⟩
  else t.add name type

/-- The table of the pairs; a later type for a name replaces an earlier one. -/
def ofPairs (pairs : List (String × Option String)) : RouteTable :=
  pairs.foldl (fun t p => t.set p.1 p.2) empty

end RouteTable

end RouteRegistry
