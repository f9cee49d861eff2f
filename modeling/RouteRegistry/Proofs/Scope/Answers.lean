/-
RouteRegistry/Proofs/Scope/Answers.lean

Where the answers of resolution come from.

Four of the six scopes answer with known types only.  The other two vouch for
their answers themselves: a single-type import says where its type is, and the
predefined types need no declaration (`Scope.vouched_of_resolve`).

Neither helps a dotted name.  Whatever a scope says of its first segment, the
whole has to be known (`Context.tryResolve_dotted_iff`), so a file that imports
`lib.Shell` does not make `Shell.Detail` a type.

Main result (`Context.tryResolve_sound`): every answer is a known type, or the
path of an import of that name, or predefined; for a dotted name it is known, and
is the name as written or continues the first answer for its first segment.
-/
import RouteRegistry.Proofs.Scope.Known
import RouteRegistry.Proofs.Scope.Shadowing

namespace RouteRegistry

open Source

/-! ### Dotted names -/

theorem toList_dot (head rest : String) :
    (head ++ "." ++ rest).toList = head.toList ++ '.' :: rest.toList := by
  rw [String.toList_append, String.toList_append, List.append_assoc]
  rfl

/-- A dotted name is split at its first dot. -/
theorem splitAtDot?_dot {head : String} (h : '.' ∉ head.toList) (rest : String) :
    splitAtDot? (head ++ "." ++ rest) = some (head, rest) := by
  have plain : ∀ c ∈ head.toList, decide (c ≠ '.') = true := by
    intro c hc
    have hne : c ≠ '.' := fun e => h (e ▸ hc)
    exact decide_eq_true hne
  unfold splitAtDot?
  rw [toList_dot, List.dropWhile_append_of_pos plain, List.takeWhile_append_of_pos plain,
    List.dropWhile_cons_of_neg (by simp), List.takeWhile_cons_of_neg (by simp), List.append_nil]
  simp only [String.ofList_toList]

/-- A dotted name has a first dot. -/
theorem exists_dot_of_mem {name : String} (h : '.' ∈ name.toList) :
    ∃ head rest, name = head ++ "." ++ rest ∧ '.' ∉ head.toList := by
  obtain ⟨before, after, split, first⟩ := List.eq_append_cons_of_mem h
  refine ⟨String.ofList before, String.ofList after, ?_, by simpa using first⟩
  apply String.toList_inj.1
  rw [toList_dot, String.toList_ofList, String.toList_ofList, split]

/-! ### One scope -/

/-- The types that need no declaration: the primitives, and the classes of `java.lang`. -/
inductive Scope.Predefined : String → String → Prop
  | primitive {name : String} : name ∈ Scope.primitives → Predefined name name
  | langClass {name : String} : name ∈ Scope.langClasses → Predefined name ("java.lang." ++ name)

/-- What makes `q` an answer for the simple name. -/
inductive Context.Vouched (c : Context) (name : String) : String → Prop
  | known {q : String} : c.known.contains q = true → Vouched c name q
  | imported {i : Import} : i ∈ c.imports → i.BringsIn name → Vouched c name i.path
  | predefined {q : String} : Scope.Predefined name q → Vouched c name q

/-- Every answer of a scope has a reason. -/
theorem Scope.vouched_of_resolve {c : Context} {name q : String} {scope : Scope}
    (h : scope.resolve c name = some q) : c.Vouched name q := by
  -- every scope but the single-type imports and the predefined names answers with a known type
  cases scope with
  | enclosing => exact .known (List.find?_some h)
  | singleImport =>
    obtain ⟨i, found, rfl⟩ := Option.map_eq_some_iff.1 h
    have brings := List.find?_some found
    exact .imported (List.mem_of_find?_eq_some found) (Import.bringsIn_iff.1 brings)
  | package =>
    simp only [resolve] at h
    split at h
    case isTrue known =>
      obtain rfl := Option.some.inj h
      exact .known known
    case isFalse => cases h
  | wildcardImport => exact .known (List.find?_some h)
  | builtin =>
    simp only [resolve] at h
    split at h
    case isTrue primitive =>
      obtain rfl := Option.some.inj h
      exact .predefined (.primitive (by simpa using primitive))
    case isFalse =>
      split at h
      case isTrue langClass =>
        obtain rfl := Option.some.inj h
        exact .predefined (.langClass (by simpa using langClass))
      case isFalse => cases h
  | catalog => exact .known (KnownTypes.contains_of_unique h)

/-! ### All scopes -/

namespace Context

variable {c : Context} {name head rest written q : String}

/-- The scope is the first one that has an answer for the name, and the answer is `q`. -/
def FirstAnswer (c : Context) (name : String) (scope : Scope) (q : String) : Prop :=
  ∃ before after, Scope.all = before ++ scope :: after ∧
    (∀ s ∈ before, s.resolve c name = none) ∧ scope.resolve c name = some q

/-- A simple name stands for what the first scope answers that answers at all. -/
theorem resolveSimple_eq_some_iff :
    c.resolveSimple name = some q ↔ ∃ scope, c.FirstAnswer name scope q := by
  unfold resolveSimple FirstAnswer
  rw [List.findSome?_eq_some_iff]
  constructor
  · rintro ⟨before, scope, after, split, answer, silent⟩
    exact ⟨scope, before, after, split, silent, answer⟩
  · rintro ⟨scope, before, after, split, silent, answer⟩
    exact ⟨before, scope, after, split, answer, silent⟩

theorem FirstAnswer.vouched {scope : Scope} (h : c.FirstAnswer name scope q) :
    c.Vouched name q := by
  obtain ⟨-, -, -, -, answer⟩ := h
  exact Scope.vouched_of_resolve answer

/-- What is known as written stands for itself; otherwise the first answer for the text before the
first dot, with the rest behind it, has to be known. -/
theorem tryResolve_dotted_iff (undotted : '.' ∉ head.toList) :
    c.tryResolve (head ++ "." ++ rest) = some q ↔
      c.known.contains q = true ∧
        (q = head ++ "." ++ rest ∨
          c.known.contains (head ++ "." ++ rest) = false ∧
            ∃ scope outer, c.FirstAnswer head scope outer ∧ q = outer ++ "." ++ rest) := by
  have nonempty : head ++ "." ++ rest ≠ "" := by
    intro e
    have text := toList_dot head rest
    rw [e] at text
    exact List.append_ne_nil_of_right_ne_nil _ (List.cons_ne_nil _ _) text.symm
  unfold tryResolve
  rw [if_neg nonempty]
  by_cases known : c.known.contains (head ++ "." ++ rest) = true
  · rw [if_pos known]
    constructor
    · rintro ⟨⟩
      exact ⟨known, .inl rfl⟩
    · rintro ⟨-, rfl | ⟨unknown, -⟩⟩
      · rfl
      · rw [known] at unknown
        cases unknown
  · rw [if_neg known, splitAtDot?_dot undotted]
    simp only [Option.filter_eq_some_iff, Option.map_eq_some_iff, resolveSimple_eq_some_iff]
    constructor
    · rintro ⟨⟨outer, ⟨scope, first⟩, rfl⟩, hq⟩
      exact ⟨hq, .inr ⟨Bool.eq_false_iff.2 known, scope, outer, first, rfl⟩⟩
    · rintro ⟨hq, rfl | ⟨-, scope, outer, first, rfl⟩⟩
      · exact absurd hq known
      · exact ⟨⟨outer, ⟨scope, first⟩, rfl⟩, hq⟩

/-- Every answer for a name without a dot has a reason. -/
theorem tryResolve_undotted (undotted : '.' ∉ written.toList) (h : c.tryResolve written = some q) :
    c.Vouched written q := by
  unfold tryResolve at h
  split at h
  case isTrue => cases h
  case isFalse =>
    split at h
    case isTrue known =>
      obtain rfl := Option.some.inj h
      exact .known known
    case isFalse =>
      rw [splitAtDot?_eq_none undotted] at h
      obtain ⟨scope, first⟩ := resolveSimple_eq_some_iff.1 h
      exact first.vouched

/-- An answer is a known type, unless the name has no dot and is the name of an imported or a
predefined type.  The answer for a dotted name is known, and it is the name as written, or the
first answer that a scope has for the text before the first dot, with the rest behind it. -/
theorem tryResolve_sound (h : c.tryResolve written = some q) :
    (c.known.contains q = true ∨
      '.' ∉ written.toList ∧
        ((∃ i ∈ c.imports, i.isStatic = false ∧ i.isWildcard = false ∧
            lastSegment i.path = written ∧ q = i.path) ∨
          (written ∈ Scope.primitives ∧ q = written) ∨
          (written ∈ Scope.langClasses ∧ q = "java.lang." ++ written))) ∧
    ('.' ∈ written.toList →
      c.known.contains q = true ∧
        (q = written ∨
          ∃ head rest scope outer, written = head ++ "." ++ rest ∧ '.' ∉ head.toList ∧
            c.FirstAnswer head scope outer ∧ q = outer ++ "." ++ rest)) := by
  -- with a dot the answer is always known; only a simple name can be imported or predefined
  by_cases dotted : '.' ∈ written.toList
  · obtain ⟨head, rest, rfl, undotted⟩ := exists_dot_of_mem dotted
    obtain ⟨known, origin⟩ := (tryResolve_dotted_iff undotted).1 h
    refine ⟨.inl known, fun _ => ⟨known, origin.imp_right ?_⟩⟩
    rintro ⟨-, scope, outer, first, rfl⟩
    exact ⟨head, rest, scope, outer, rfl, undotted, first, rfl⟩
  · refine ⟨?_, fun mem => absurd mem dotted⟩
    cases tryResolve_undotted dotted h with
    | known hq => exact .inl hq
    | imported mem brings =>
      exact .inr ⟨dotted, .inl ⟨_, mem, brings.plain, brings.single, brings.named, rfl⟩⟩
    | predefined builtin =>
      cases builtin with
      | primitive mem => exact .inr ⟨dotted, .inr (.inl ⟨mem, rfl⟩)⟩
      | langClass mem => exact .inr ⟨dotted, .inr (.inr ⟨mem, rfl⟩)⟩

/-- In a file that imports `lib.Shell` and whose package has a `Shell` with a type `Detail`. -/
def smallMembers : Context :=
  ⟨some "app", [⟨"lib.Shell", false, false⟩], ["app.Main"],
    .ofList [("Main", "app.Main"), ("Shell", "app.Shell"), ("Detail", "app.Shell.Detail"),
      ("Menu", "app.Main.Menu"), ("Item", "app.Main.Menu.Item")]⟩

/-- A member of a type that is a member of the type around the reference. -/
theorem tryResolve_smallMembers :
    smallMembers.tryResolve "Menu.Item" = some "app.Main.Menu.Item" ∧
    smallMembers.known.contains "app.Main.Menu.Item" = true ∧
    ∃ head rest scope outer, "Menu.Item" = head ++ "." ++ rest ∧ '.' ∉ head.toList ∧
      smallMembers.FirstAnswer head scope outer ∧ "app.Main.Menu.Item" = outer ++ "." ++ rest := by
  have answer : smallMembers.tryResolve "Menu.Item" = some "app.Main.Menu.Item" := by
    decide +kernel
  obtain ⟨known, origin⟩ := (tryResolve_sound answer).2 (by decide)
  exact ⟨answer, known, origin.resolve_left (by decide)⟩

/-- The import hides the package's `Shell`, and what it names has no known member. -/
example :
    smallMembers.tryResolve "Shell" = some "lib.Shell" ∧
    smallMembers.tryResolve "Shell.Detail" = none := by decide +kernel

end Context

end RouteRegistry
