/-
RouteRegistry/Proofs/Path/Order.lean

The order of paths.

Paths are compared component for component and names byte for byte, which is the
lexicographic order of `Path.bytes` (`precedes_iff`).  So `precedes` is a strict
linear order up to the bytes, and paths that are made of names have equal bytes
only if the names are equal (`bytes_ofNames_inj`).
-/
import RouteRegistry.Proofs.Path.Steps

namespace RouteRegistry

/-! ### Bytes of a text -/

theorem toList_loop_eq (b : ByteArray) (i : Nat) (r : List UInt8) :
    ByteArray.toList.loop b i r = r.reverse ++ b.data.toList.drop i := by
  fun_induction ByteArray.toList.loop b i r with
  | case1 i r h ih =>
    have more : b.data.toList.drop i = b.get! i :: b.data.toList.drop (i + 1) := by
      simpa [ByteArray.get!, h] using List.drop_eq_getElem_cons (l := b.data.toList) (i := i) h
    rw [ih, more, List.reverse_cons, List.append_assoc]
    rfl
  | case2 i r h =>
    have none_left : b.data.toList.drop i = [] :=
      List.drop_eq_nil_iff.2 (Nat.le_of_not_gt h)
    rw [none_left, List.append_nil]

/-- Texts are told apart by their bytes. -/
theorem toList_toUTF8_inj {s t : String} (h : s.toUTF8.toList = t.toUTF8.toList) : s = t := by
  have bytes (b : ByteArray) : b.toList = b.data.toList := toList_loop_eq b 0 []
  rw [bytes, bytes, Array.toList_inj] at h
  exact String.toByteArray_inj.1 (ByteArray.ext h)

namespace Path

/-! ### Lexicographic order -/

/-- The lexicographic order under an order that is read off a value is that of the values. -/
theorem listPrecedes_iff {α β : Type} [LT β] [Std.Asymm fun x y : β => x < y]
    [Std.Trichotomous fun x y : β => x < y] {lt : α → α → Bool} {f : α → β}
    (h : ∀ a b, lt a b = true ↔ f a < f b) (as bs : List α) :
    listPrecedes lt as bs = true ↔ as.map f < bs.map f := by
  induction as generalizing bs with
  | nil => cases bs <;> simp [listPrecedes]
  | cons a as ih =>
    cases bs with
    | nil => simp [listPrecedes]
    | cons b bs =>
      -- heads of which neither is below the other have one image, the order being trichotomous
      have first : f a = f b ↔ ¬ f a < f b ∧ ¬ f b < f a := by
        constructor
        · intro e
          rw [e]
          exact ⟨fun l => Std.Asymm.asymm _ _ l l, fun l => Std.Asymm.asymm _ _ l l⟩
        · exact fun n => Std.Trichotomous.trichotomous _ _ n.1 n.2
      simp only [listPrecedes, Bool.or_eq_true, Bool.and_eq_true, Bool.not_eq_true',
        ← Bool.not_eq_true, h, ih, List.map_cons, List.cons_lt_cons_iff, first]
      tauto

/-- The names in the path, each as its bytes. -/
def bytes (p : Path) : List (List UInt8) := p.components.map nameBytes

/-- Paths are compared by their bytes. -/
theorem precedes_iff {p q : Path} : p.precedes q = true ↔ p.bytes < q.bytes := by
  refine listPrecedes_iff (fun a b => ?_) p.components q.components
  have byte : ∀ x y : UInt8, decide (x < y) = true ↔ id x < id y := fun _ _ => decide_eq_true_iff
  rw [listPrecedes_iff byte, List.map_id, List.map_id]

example : (⟨"a/z"⟩ : Path).precedes ⟨"a-b/x"⟩ = true ∧
    (⟨"a-b/x"⟩ : Path).precedes ⟨"a.java"⟩ = true := by decide +kernel

/-! ### Paths of names -/

/-- A name as it can stand in a directory. -/
structure IsName (n : String) : Prop where
  nonempty : n ≠ ""
  notHere : n ≠ "."
  notUp : n ≠ ".."
  plain : '/' ∉ n.toList

instance (n : String) : Decidable (IsName n) :=
  decidable_of_iff (n ≠ "" ∧ n ≠ "." ∧ n ≠ ".." ∧ '/' ∉ n.toList)
    ⟨fun h => ⟨h.1, h.2.1, h.2.2.1, h.2.2.2⟩, fun h => ⟨h.1, h.2, h.3, h.4⟩⟩

theorem IsName.toList_ne {n : String} (h : IsName n) :
    n.toList ≠ [] ∧ n.toList ≠ ['.'] ∧ n.toList ≠ ['.', '.'] := by
  have ne {s : String} (hs : n ≠ s) : n.toList ≠ s.toList := fun e => hs (String.toList_inj.1 e)
  exact ⟨ne h.nonempty, ne h.notHere, ne h.notUp⟩

theorem IsName.component {n : String} (h : IsName n) : componentOf? n.toList = some (.name n) := by
  obtain ⟨nonempty, notHere, notUp⟩ := h.toList_ne
  rw [componentOf?, if_neg nonempty, if_neg notHere, if_neg notUp, String.ofList_toList]

/-- A path that is made of names has these as its components. -/
theorem components_ofNames {names : List String} (hne : names ≠ [])
    (h : ∀ n ∈ names, IsName n) : (ofNames names).components = names.map .name := by
  have pieces : Text.splitOn '/' (ofNames names).text.toList = names.map String.toList := by
    rw [toList_ofNames, Text.splitOn_intercalate (by simpa using hne)]
    intro part hpart
    obtain ⟨n, hn, rfl⟩ := List.mem_map.1 hpart
    exact (h n hn).plain
  have read : (names.map String.toList).filterMap componentOf? = names.map .name := by
    rw [List.filterMap_map, ← List.filterMap_eq_map]
    exact List.filterMap_congr fun n hn => (h n hn).component
  obtain ⟨n, rest, rfl⟩ := List.exists_cons_of_ne_nil hne
  obtain ⟨nonempty, notHere, -⟩ := (h n (List.mem_cons_self ..)).toList_ne
  have relative : (ofNames (n :: rest)).isAbsolute = false := by
    -- a separator in front would make the first piece empty
    refine decide_eq_false fun e => ?_
    obtain ⟨text, ht⟩ := List.head?_eq_some_iff.1 e
    rw [ht, Text.splitOn_cons_self] at pieces
    exact nonempty (List.cons.inj pieces).1.symm
  unfold components
  rw [relative, pieces]
  simpa [notHere] using read

/-- The paths of two lists of names are made of the same bytes only if the names are the same. -/
theorem bytes_ofNames_inj {names names' : List String} (hne : names ≠ []) (hne' : names' ≠ [])
    (h : ∀ n ∈ names, IsName n) (h' : ∀ n ∈ names', IsName n)
    (e : (ofNames names).bytes = (ofNames names').bytes) : names = names' := by
  unfold bytes at e
  rw [components_ofNames hne h, components_ofNames hne' h', List.map_map, List.map_map] at e
  exact List.map_injective_iff.2 (fun _ _ => toList_toUTF8_inj) e

end Path

end RouteRegistry
