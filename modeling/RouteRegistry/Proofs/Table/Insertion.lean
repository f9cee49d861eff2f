/-
RouteRegistry/Proofs/Table/Insertion.lean

Adding many routes to a table one after the other.

`RouteTable.addAll` is the fold of `add`.  What it leaves behind is said without
a loop (`entries_addAll`): the old entries, then the new names in the order of
their first occurrence, each with the type that came with that occurrence.
-/
import RouteRegistry.Table

namespace RouteRegistry

/-- Taking out repetitions commutes with a filter. -/
theorem eraseDups_filter {α : Type} [BEq α] [LawfulBEq α] (p : α → Bool) (l : List α) :
    (l.filter p).eraseDups = l.eraseDups.filter p := by
  match l with
  | [] => rfl
  | a :: l =>
    have ih := eraseDups_filter p (l.filter fun b => !b == a)
    rw [List.eraseDups_cons]
    by_cases h : p a = true
    · rw [List.filter_cons_of_pos h, List.filter_cons_of_pos h, List.eraseDups_cons, ← ih]
      simp only [List.filter_filter, Bool.and_comm]
    · rw [List.filter_cons_of_neg h, List.filter_cons_of_neg h, ← ih, List.filter_filter]
      -- `p` already rejects every further `a`
      refine congrArg List.eraseDups (List.filter_congr fun b _ => ?_)
      by_cases hb : b = a
      · subst hb; simp [h]
      · simp [hb]
termination_by l.length
decreasing_by exact Nat.lt_succ_of_le (List.length_filter_le _ _)

namespace RouteTable

/-- Adds the routes in order; of several with one name the first stays. -/
def addAll (t : RouteTable) (routes : List (String × Option String)) : RouteTable :=
  routes.foldl (fun t r => t.add r.1 r.2) t

@[simp] theorem addAll_nil (t : RouteTable) : t.addAll [] = t := rfl

@[simp] theorem addAll_cons (t : RouteTable) (r : String × Option String)
    (rs : List (String × Option String)) : t.addAll (r :: rs) = (t.add r.1 r.2).addAll rs := rfl

theorem addAll_append (t : RouteTable) (rs rs' : List (String × Option String)) :
    t.addAll (rs ++ rs') = (t.addAll rs).addAll rs' := List.foldl_append

/-- The type that came first under the name. -/
def firstType (rs : List (String × Option String)) (name : String) : Option String :=
  (rs.find? fun r => r.1 == name).bind Prod.snd

/-- A route of another name makes no difference to the type of a name. -/
theorem firstType_cons_of_ne {name n : String} (h : n ≠ name) (type : Option String)
    (rs : List (String × Option String)) : firstType ((name, type) :: rs) n = firstType rs n := by
  unfold firstType
  rw [List.find?_cons_of_neg (by simpa using h.symm)]

/-- The first route of a name gives its type. -/
theorem firstType_cons_self (name : String) (type : Option String)
    (rs : List (String × Option String)) : firstType ((name, type) :: rs) name = type := by
  simp [firstType]

/-- Where a name occurs, later routes make no difference to its type. -/
theorem firstType_append (rs rs' : List (String × Option String)) (name : String)
    (h : name ∈ rs.map Prod.fst) : firstType (rs ++ rs') name = firstType rs name := by
  obtain ⟨r, hr, rfl⟩ := List.mem_map.1 h
  have hf : (rs.find? fun x => x.1 == r.1).isSome := List.find?_isSome.2 ⟨r, hr, by simp⟩
  unfold firstType
  rw [List.find?_append, Option.or_of_isSome hf]

/-- Where a name does not occur, its type comes from later routes. -/
theorem firstType_append_of_not_mem (rs rs' : List (String × Option String)) (name : String)
    (h : name ∉ rs.map Prod.fst) : firstType (rs ++ rs') name = firstType rs' name := by
  have hf : (rs.find? fun x => x.1 == name) = none := by
    rw [List.find?_eq_none]
    intro x hx hxn
    exact h (List.mem_map.2 ⟨x, hx, by simpa using hxn⟩)
  unfold firstType
  rw [List.find?_append, hf, Option.none_or]

/-- The old entries stay as they are, and each new name comes once, where it came first, with
the type it came with. -/
theorem entries_addAll (t : RouteTable) (rs : List (String × Option String)) :
    (t.addAll rs).entries =
      t.entries ++ ((rs.map Prod.fst).eraseDups.filter fun n => n ∉ t.names).map fun n =>
        (n, firstType rs n) := by
  induction rs generalizing t with
  | nil => simp
  | cons r rs ih =>
    obtain ⟨name, type⟩ := r
    -- among names other than `name`, the first route counts for nothing
    have other : ∀ ns : List String, name ∉ ns →
        ns.map (fun n => (n, firstType ((name, type) :: rs) n)) =
          ns.map fun n => (n, firstType rs n) := by
      intro ns hns
      refine List.map_congr_left fun n hn => ?_
      have hne : n ≠ name := fun e => hns (e ▸ hn)
      rw [firstType_cons_of_ne hne]
    rw [addAll_cons, ih, List.map_cons, List.eraseDups_cons, eraseDups_filter]
    by_cases h : name ∈ t.names
    · have fresh : ∀ n, (decide (n ∉ t.names) && !n == name) = decide (n ∉ t.names) := by
        intro n
        by_cases hn : n = name <;> simp [hn, h]
      rw [add_of_mem h, List.filter_cons_of_neg (by simpa using h), List.filter_filter,
        other _ (by simp)]
      simp only [fresh]
    · have names : (t.add name type).names = t.names ++ [name] := by
        unfold RouteTable.names
        rw [entries_add_of_not_mem h, List.map_append]; rfl
      have fresh : ∀ n, (decide (n ∉ t.names) && !n == name) =
          decide (n ∉ t.names ++ [name]) := by
        intro n
        by_cases hn : n = name <;> simp [hn]
      rw [entries_add_of_not_mem h, names, List.filter_cons_of_pos (by simpa using h),
        List.filter_filter, List.map_cons, firstType_cons_self, other _ (by simp),
        List.append_assoc]
      simp only [fresh, List.singleton_append]

/-- Routes are added at the end. -/
theorem prefix_addAll (t : RouteTable) (rs : List (String × Option String)) :
    t.entries <+: (t.addAll rs).entries := by
  rw [entries_addAll]
  exact List.prefix_append ..

/-- An entry is an old one, or that of a new name with the type that came first. -/
theorem mem_entries_addAll_iff {t : RouteTable} {rs : List (String × Option String)}
    {e : String × Option String} :
    e ∈ (t.addAll rs).entries ↔
      e ∈ t.entries ∨ (e.1 ∉ t.names ∧ e.1 ∈ rs.map Prod.fst ∧ e.2 = firstType rs e.1) := by
  rw [entries_addAll, List.mem_append, List.mem_map]
  refine or_congr Iff.rfl ⟨?_, ?_⟩
  · rintro ⟨name, hname, rfl⟩
    obtain ⟨mem, fresh⟩ := List.mem_filter.1 hname
    exact ⟨of_decide_eq_true fresh, List.mem_eraseDups.1 mem, rfl⟩
  · rintro ⟨fresh, mem, type⟩
    exact ⟨e.1, List.mem_filter.2 ⟨List.mem_eraseDups.2 mem, decide_eq_true fresh⟩,
      Prod.ext rfl type.symm⟩

/-- The names are the old ones and those of the routes. -/
theorem mem_names_addAll_iff {t : RouteTable} {rs : List (String × Option String)}
    {name : String} : name ∈ (t.addAll rs).names ↔ name ∈ t.names ∨ name ∈ rs.map Prod.fst := by
  have new : ((rs.map Prod.fst).eraseDups.filter fun n => n ∉ t.names).map
      (Prod.fst ∘ fun n => (n, firstType rs n)) =
        (rs.map Prod.fst).eraseDups.filter fun n => n ∉ t.names := List.map_id' _
  show name ∈ (t.addAll rs).entries.map Prod.fst ↔ _
  rw [entries_addAll, List.map_append, List.mem_append, List.map_map, new, List.mem_filter,
    List.mem_eraseDups, decide_eq_true_iff]
  show name ∈ t.names ∨ _ ↔ _
  by_cases h : name ∈ t.names <;> simp [h]

end RouteTable

end RouteRegistry
