/-
RouteRegistry/Proofs/Text/Trimming.lean

White space taken off the ends of a text, and out of it.

What is blank at either end does not matter to `trim`, and a text that is not
blank at its ends (`Tight`) is what is left (`trim_between`).  `squeeze` goes
through a text piece by piece (`squeeze_append`).
-/
import Mathlib.Data.List.DropRight
import RouteRegistry.Text.Blank

namespace RouteRegistry.Text

/-! ### The end of a text -/

/-- White space at the end does not matter. -/
theorem trimEnd_append {tail : List Char} (blank : tail.all RouteRegistry.isBlank = true)
    (s : List Char) : trimEnd (s ++ tail) = trimEnd s := by
  have turned : ∀ c ∈ tail.reverse, RouteRegistry.isBlank c = true := by
    intro c hc
    exact List.all_eq_true.1 blank c (List.mem_reverse.1 hc)
  unfold trimEnd
  rw [List.reverse_append, List.dropWhile_append_of_pos turned]

theorem trimEnd_concat {c : Char} (blank : RouteRegistry.isBlank c = true) (s : List Char) :
    trimEnd (s ++ [c]) = trimEnd s := by
  apply trimEnd_append
  rw [List.all_cons, blank]
  rfl

theorem trimEnd_eq_nil {s : List Char} (blank : s.all RouteRegistry.isBlank = true) :
    trimEnd s = [] :=
  trimEnd_append blank []

/-- What is cut off at the end is blank. -/
theorem exists_trimEnd_append (s : List Char) :
    ∃ tail, tail.all RouteRegistry.isBlank = true ∧ s = trimEnd s ++ tail := by
  refine ⟨s.rtakeWhile RouteRegistry.isBlank, ?_, List.rdropWhile_append_rtakeWhile.symm⟩
  exact List.all_eq_true.2 fun _ => List.mem_rtakeWhile_imp

/-! ### Both ends -/

/-- Neither the first character of the text nor the last is blank. -/
structure Tight (s : List Char) : Prop where
  head : ∀ c ∈ s.head?, RouteRegistry.isBlank c = false
  last : ∀ c ∈ s.getLast?, RouteRegistry.isBlank c = false

variable {s lead tail : List Char}

theorem trimStart_append (blank : lead.all RouteRegistry.isBlank = true) (s : List Char) :
    trimStart (lead ++ s) = trimStart s :=
  List.dropWhile_append_of_pos (List.all_eq_true.1 blank)

theorem trimStart_eq_self (h : ∀ c ∈ s.head?, RouteRegistry.isBlank c = false) :
    trimStart s = s := by
  cases s with
  | nil => rfl
  | cons c s =>
    unfold trimStart
    rw [List.dropWhile_cons_of_neg (Bool.eq_false_iff.1 (h c rfl))]

theorem trimEnd_eq_self (h : ∀ c ∈ s.getLast?, RouteRegistry.isBlank c = false) :
    trimEnd s = s := by
  have turned : trimStart s.reverse = s.reverse := trimStart_eq_self (by rwa [List.head?_reverse])
  calc
    trimEnd s = (trimStart s.reverse).reverse := rfl
    _ = s := by rw [turned, List.reverse_reverse]

/-- White space around a tight text is all that trimming takes away. -/
theorem Tight.trim_between (tight : Tight s) (before : lead.all RouteRegistry.isBlank = true)
    (behind : tail.all RouteRegistry.isBlank = true) : trim (lead ++ s ++ tail) = s := by
  unfold trim
  rw [List.append_assoc, trimStart_append before]
  cases s with
  | nil =>
    -- nothing but white space, which goes at the first cut
    have gone : trimStart tail = [] := by
      have cut := trimStart_append behind []
      rwa [List.append_nil] at cut
    rw [List.nil_append, gone]
    rfl
  | cons c s =>
    rw [trimStart_eq_self (s := c :: s ++ tail) tight.head, trimEnd_append behind,
      trimEnd_eq_self tight.last]

theorem Tight.trim (tight : Tight s) : trim s = s := by
  have none : ([] : List Char).all RouteRegistry.isBlank = true := rfl
  have between := tight.trim_between none none
  rwa [List.nil_append, List.append_nil] at between

/-! ### Inside a text -/

theorem squeeze_append (a b : List Char) : squeeze (a ++ b) = squeeze a ++ squeeze b :=
  List.filter_append ..

theorem squeeze_eq_nil (blank : s.all RouteRegistry.isBlank = true) : squeeze s = [] := by
  unfold squeeze
  rw [List.filter_eq_nil_iff]
  intro c hc
  rw [List.all_eq_true.1 blank c hc]
  exact Bool.false_ne_true

theorem isBlank_of_mem (solid : s.any RouteRegistry.isBlank = false) {c : Char} (h : c ∈ s) :
    RouteRegistry.isBlank c = false :=
  Bool.eq_false_iff.2 (List.any_eq_false.1 solid c h)

theorem squeeze_eq_self (solid : s.any RouteRegistry.isBlank = false) : squeeze s = s := by
  unfold squeeze
  rw [List.filter_eq_self]
  intro c hc
  rw [isBlank_of_mem solid hc]
  rfl

end RouteRegistry.Text
