/-
RouteRegistry/Proofs/Source/Imports.lean

Import declarations as they are written, read back.

An import is written as the tokens `Import.words`, with white space of any kind
between them (`Import.Written`).  The reader works on the characters.  Once the
keyword and the semicolon are cut off, what is left begins and ends with a token
(`tight_sourceText`), so it is again the text of a run of tokens
(`body?_sourceText`).  Whether this run begins with the keyword `static` is a
matter of its first token alone, for behind that there is white space or a dot
(`splitStatic_eq_false`).  Without its white space the rest is the dotted path
(`squeeze_sourceText`), whose only star is the one at the end of an on-demand
path (`splitWildcard_dotted`).

Main result (`Import.read_written`): whatever white space it is written with,
what is read back is the path of the import and its two flags.
-/
import RouteRegistry.Proofs.Source.Quoting
import RouteRegistry.Proofs.Source.WrittenTypes
import RouteRegistry.Proofs.Text.Splitting
import RouteRegistry.Proofs.Text.Trimming
import RouteRegistry.Source.Import

namespace RouteRegistry

namespace Source

/-! ### Tokens with white space in front of them -/

/-- A token without white space of its own, and with nothing but white space in front of it. -/
structure Token.Spaced (t : Token) : Prop where
  text_ne : t.text ≠ ""
  solid : t.text.toList.any isBlank = false
  gap : t.gapText.all isBlank = true

theorem Token.full_eq (t : Token) : t.full = t.gapText ++ t.text.toList := rfl

theorem Token.Spaced.toList_ne_nil {t : Token} (h : t.Spaced) : t.text.toList ≠ [] :=
  fun none => h.text_ne (String.toList_eq_nil_iff.1 none)

theorem toList_sourceText_cons (t : Token) (ts : List Token) :
    (sourceText (t :: ts)).toList = t.text.toList ++ ts.flatMap Token.full := by
  rw [sourceText, String.toList_ofList]

theorem full_eq_gapText_append (t : Token) (ts : List Token) :
    (t :: ts).flatMap Token.full = t.gapText ++ (sourceText (t :: ts)).toList := by
  rw [List.flatMap_cons, toList_sourceText_cons, Token.full_eq, List.append_assoc]

/-- The text of a run of tokens ends with the last of them. -/
theorem suffix_sourceText (ts : List Token) (t : Token) :
    t.text.toList <:+ (sourceText (ts ++ [t])).toList := by
  cases ts with
  | nil =>
    rw [List.nil_append, toList_sourceText_cons]
    exact ⟨[], (List.append_nil _).symm⟩
  | cons first rest =>
    rw [List.cons_append, toList_sourceText_cons, List.flatMap_append, List.flatMap_singleton,
      Token.full_eq, ← List.append_assoc, ← List.append_assoc]
    exact List.suffix_append _ _

/-- What is made of spaced tokens has no white space at either end. -/
theorem tight_sourceText {ts : List Token} (h : ∀ t ∈ ts, t.Spaced) :
    Text.Tight (sourceText ts).toList where
  -- the gap in front of the first token is not part of the text, and tokens are solid
  head := by
    intro c hc
    cases ts with
    | nil => cases hc
    | cons t ts =>
      have first := h t (List.mem_cons_self ..)
      rw [toList_sourceText_cons, List.head?_append_of_ne_nil _ first.toList_ne_nil] at hc
      exact Text.isBlank_of_mem first.solid (List.mem_of_mem_head? hc)
  last := by
    intro c hc
    rcases List.eq_nil_or_concat ts with rfl | ⟨before, t, rfl⟩
    · cases hc
    · rw [List.concat_eq_append] at h hc
      have last := h t (List.mem_append_right _ (List.mem_singleton_self t))
      obtain ⟨s, text⟩ := suffix_sourceText before t
      rw [← text, List.getLast?_append_of_ne_nil _ last.toList_ne_nil] at hc
      exact Text.isBlank_of_mem last.solid (List.mem_of_getLast? hc)

/-- Without its white space, a run of tokens is their texts. -/
theorem squeeze_sourceText {ts : List Token} (h : ∀ t ∈ ts, t.Spaced) :
    Text.squeeze (sourceText ts).toList = (bareText ts).toList := by
  -- all tokens, also the first, with what stands in front of them
  have all : ∀ ts : List Token, (∀ t ∈ ts, t.Spaced) →
      Text.squeeze (ts.flatMap Token.full) = ts.flatMap fun t => t.text.toList := by
    intro ts h
    induction ts with
    | nil => rfl
    | cons t ts ih =>
      obtain ⟨first, rest⟩ := List.forall_mem_cons.1 h
      rw [List.flatMap_cons, List.flatMap_cons, Text.squeeze_append, ih rest, Token.full_eq,
        Text.squeeze_append, Text.squeeze_eq_nil first.gap, Text.squeeze_eq_self first.solid,
        List.nil_append]
  rw [bareText, String.toList_ofList]
  cases ts with
  | nil => rfl
  | cons t ts =>
    obtain ⟨first, rest⟩ := List.forall_mem_cons.1 h
    rw [toList_sourceText_cons, Text.squeeze_append, Text.squeeze_eq_self first.solid, all ts rest,
      List.flatMap_cons]

namespace Import

/-! ### Written imports -/

/-- The segments of the path, with a star at the end for an import on demand. -/
def parts (path : List String) (isWildcard : Bool) : List String :=
  path ++ if isWildcard then ["*"] else []

/-- The tokens of the path. -/
def pathWords (path : List String) (isWildcard : Bool) : List String :=
  List.intersperse "." (parts path isWildcard)

/-- The keywords an import begins with. -/
def keywords (isStatic : Bool) : List String :=
  if isStatic then ["import", "static"] else ["import"]

/-- The tokens of an import. -/
def words (path : List String) (isStatic isWildcard : Bool) : List String :=
  keywords isStatic ++ pathWords path isWildcard ++ [";"]

/-- A segment of a path: not empty, and without white space or a star.  A dot or a semicolon in it
would do no harm. -/
structure IsSegment (name : String) : Prop where
  ne : name ≠ ""
  solid : name.toList.any isBlank = false
  star : '*' ∉ name.toList

instance (name : String) : Decidable (IsSegment name) :=
  decidable_of_iff (name ≠ "" ∧ name.toList.any isBlank = false ∧ '*' ∉ name.toList)
    ⟨fun h => ⟨h.1, h.2.1, h.2.2⟩, fun h => ⟨h.ne, h.solid, h.star⟩⟩

/-- The tokens write the import, with white space between them as one likes, but some of it behind
each keyword. -/
structure Written (path : List String) (isStatic isWildcard : Bool) (ts : List Token) : Prop where
  texts : ts.map Token.text = words path isStatic isWildcard
  blank : ∀ t ∈ ts, t.gapText.all isBlank = true
  apart : ∀ t ∈ (ts.drop 1).take (keywords isStatic).length, t.gapText ≠ []

/-! ### The outer shape -/

/-- Between the keyword and the semicolon there is a run of tokens. -/
theorem body?_sourceText {key semi : Token} {ts : List Token} (keyword : key.text = "import")
    (semicolon : semi.text = ";") (h : ∀ t ∈ ts, t.Spaced)
    (behind : semi.gapText.all isBlank = true) :
    body? (sourceText (key :: (ts ++ [semi]))).toList = some (sourceText ts).toList := by
  -- the first of the tokens has white space in front, unless there are none
  obtain ⟨lead, before, run⟩ : ∃ lead, lead.all isBlank = true ∧
      ts.flatMap Token.full = lead ++ (sourceText ts).toList := by
    cases ts with
    | nil => exact ⟨[], rfl, rfl⟩
    | cons t ts =>
      exact ⟨t.gapText, (h t (List.mem_cons_self ..)).gap, full_eq_gapText_append t ts⟩
  have text : (sourceText (key :: (ts ++ [semi]))).toList =
      "import".toList ++ (lead ++ (sourceText ts).toList ++ semi.gapText ++ [';']) := by
    have mark : semi.text.toList = [';'] := by rw [semicolon]; rfl
    rw [toList_sourceText_cons, keyword, List.flatMap_append, List.flatMap_singleton, run,
      Token.full_eq, mark]
    simp only [List.append_assoc]
  -- the semicolon keeps the end of the text from being cut
  have closed (s : List Char) : ∀ c ∈ (s ++ [';']).getLast?, isBlank c = false := by
    intro c hc
    rw [List.getLast?_concat] at hc
    obtain rfl := Option.some.inj hc
    rfl
  have whole : Text.Tight (sourceText (key :: (ts ++ [semi]))).toList := by
    refine ⟨?_, ?_⟩
    · have first : ("import".toList ++ (lead ++ (sourceText ts).toList ++ semi.gapText ++
          [';'])).head? = some 'i' := rfl
      rw [text, first]
      intro c hc
      obtain rfl := Option.some.inj hc
      rfl
    · rw [text, ← List.append_assoc]
      exact closed _
  unfold body?
  rw [whole.trim, text, Text.stripStart?_append, Option.bind_some, Text.trimEnd_eq_self (closed _),
    Text.stripEnd?_append, Option.map_some, (tight_sourceText h).trim_between before behind]

/-! ### The keyword `static` -/

/-- Of two different words that the same text begins with, one goes on inside the other. -/
theorem goes_on_inside {α : Type} {a b s t : List α} (e : a ++ s = b ++ t) (ne : a ≠ b) :
    (∃ c ∈ b, s.head? = some c) ∨ ∃ c ∈ a, t.head? = some c := by
  rcases List.append_eq_append_iff.1 e with ⟨more, rfl, rfl⟩ | ⟨more, rfl, rfl⟩
  · have longer : more ≠ [] := by
      rintro rfl
      exact ne (List.append_nil a).symm
    obtain ⟨c, more, rfl⟩ := List.exists_cons_of_ne_nil longer
    exact .inl ⟨c, List.mem_append_right a (List.mem_cons_self ..), rfl⟩
  · have longer : more ≠ [] := by
      rintro rfl
      exact ne (List.append_nil b)
    obtain ⟨c, more, rfl⟩ := List.exists_cons_of_ne_nil longer
    exact .inr ⟨c, List.mem_append_right b (List.mem_cons_self ..), rfl⟩

/-- A first token that is not the keyword is no keyword with white space behind it either. -/
theorem splitStatic_eq_false {t : Token} {ts : List Token} (spaced : t.Spaced)
    (other : t.text ≠ "static")
    (behind : ∀ c ∈ (ts.flatMap Token.full).head?, isBlank c = true ∨ c = '.') :
    splitStatic (sourceText (t :: ts)).toList = (false, (sourceText (t :: ts)).toList) := by
  have solid : "static".toList.any isBlank = false := rfl
  have no_dot : '.' ∉ "static".toList := by decide
  unfold splitStatic
  split
  case h_2 => rfl
  case h_1 rest strip =>
    have text : "static".toList ++ rest = t.text.toList ++ ts.flatMap Token.full := by
      rw [← toList_sourceText_cons]
      exact (Text.eq_append_of_stripStart? strip).symm
    have words : "static".toList ≠ t.text.toList := fun e => other (String.toList_inj.1 e).symm
    have goes_on : rest.head?.any isBlank = false := by
      rcases goes_on_inside text words with ⟨c, inside, e⟩ | ⟨c, inside, e⟩
      · rw [e]
        exact Text.isBlank_of_mem spaced.solid inside
      · -- a token does not end where the keyword goes on
        rcases behind c e with blank | rfl
        · rw [Text.isBlank_of_mem solid inside] at blank
          exact absurd blank Bool.false_ne_true
        · exact absurd inside no_dot
    rw [goes_on]
    rfl

/-- The keyword is cut off together with the white space behind it. -/
theorem splitStatic_eq_true {key t : Token} {ts : List Token} (keyword : key.text = "static")
    (h : ∀ t' ∈ t :: ts, t'.Spaced) (apart : t.gapText ≠ []) :
    splitStatic (sourceText (key :: t :: ts)).toList = (true, (sourceText (t :: ts)).toList) := by
  have text : (sourceText (key :: t :: ts)).toList =
      "static".toList ++ (t.gapText ++ (sourceText (t :: ts)).toList) := by
    rw [toList_sourceText_cons, keyword, full_eq_gapText_append]
  have gap := (h t (List.mem_cons_self ..)).gap
  -- the keyword counts only if white space follows it: `staticly.Home` has none
  have some_blank : (t.gapText ++ (sourceText (t :: ts)).toList).head?.any isBlank = true := by
    obtain ⟨c, rest, e⟩ := List.exists_cons_of_ne_nil apart
    rw [e] at gap ⊢
    exact List.all_eq_true.1 gap c (List.mem_cons_self ..)
  have nothing : ([] : List Char).all isBlank = true := rfl
  have rest := (tight_sourceText h).trim_between gap nothing
  rw [List.append_nil] at rest
  unfold splitStatic
  rw [text, Text.stripStart?_append]
  dsimp only
  rw [if_pos some_blank, rest]

/-! ### The path -/

section

variable {path : List String} {isWildcard : Bool}

/-- The tokens of a path, one after the other, are the dotted path. -/
theorem bareText_path {ts : List Token} (texts : ts.map Token.text = pathWords path isWildcard) :
    bareText ts = dotted (parts path isWildcard) := by
  have words : (pathWords path isWildcard).flatMap String.toList =
      (dotted (parts path isWildcard)).toList := by
    unfold pathWords dotted
    cases parts path isWildcard with
    | nil => rfl
    | cons part rest =>
      rw [Text.intersperse_cons, Text.toList_joinWith_cons, List.flatMap_cons, List.flatMap_assoc]
      simp only [List.flatMap_cons, List.flatMap_nil, List.append_nil]
  apply String.toList_inj.1
  rw [bareText, String.toList_ofList, ← words, ← texts, List.flatMap_map]

/-- The first segment begins the path, and each of the others has a dot in front of it. -/
theorem pathWords_cons (first : String) (rest : List String) (isWildcard : Bool) :
    pathWords (first :: rest) isWildcard =
      first :: (parts rest isWildcard).flatMap fun next => [".", next] :=
  Text.intersperse_cons "." first (parts rest isWildcard)

/-- The star is found where it was written, and only there. -/
theorem splitWildcard_dotted (some_segment : path ≠ []) (segments : ∀ name ∈ path, IsSegment name) :
    splitWildcard (dotted (parts path isWildcard)).toList =
      ((dotted path).toList, isWildcard) := by
  unfold splitWildcard parts
  cases isWildcard with
  | true =>
    have text : (dotted (path ++ ["*"])).toList = (dotted path).toList ++ ['.', '*'] :=
      Text.toList_joinWith_concat "." some_segment "*"
    rw [if_pos rfl, text, Text.stripEnd?_append]
  | false =>
    -- no segment has a star, so the text ends in `.*` only if that was written
    have star : '*' ∉ (dotted path).toList :=
      Text.not_mem_joinWith (by decide) fun name mem => (segments name mem).star
    have other : Text.stripEnd? ['.', '*'] (dotted path).toList = none := by
      unfold Text.stripEnd?
      rw [if_neg]
      intro ends
      obtain ⟨lead, e⟩ := List.isSuffixOf_iff_suffix.1 ends
      apply star
      rw [← e]
      exact List.mem_append_right _ (by decide)
    rw [if_neg Bool.false_ne_true, List.append_nil, other]

theorem dotted_ne_nil (some_segment : path ≠ []) (segments : ∀ name ∈ path, IsSegment name) :
    (dotted path).toList ≠ [] := by
  obtain ⟨first, rest, rfl⟩ := List.exists_cons_of_ne_nil some_segment
  unfold dotted
  rw [Text.toList_joinWith_cons]
  intro none
  have nil := (List.append_eq_nil_iff.1 none).1
  exact (segments first (List.mem_cons_self ..)).ne (String.toList_eq_nil_iff.1 nil)

/-- The tokens of the path have no white space of their own. -/
theorem solid_of_mem_pathWords (segments : ∀ name ∈ path, IsSegment name) {word : String}
    (h : word ∈ pathWords path isWildcard) :
    word ≠ "" ∧ word.toList.any isBlank = false := by
  have part : ∀ name ∈ parts path isWildcard,
      name ≠ "" ∧ name.toList.any isBlank = false := by
    intro name mem
    rcases List.mem_append.1 mem with mem | mem
    · exact ⟨(segments name mem).ne, (segments name mem).solid⟩
    · cases isWildcard with
      | true =>
        obtain rfl := List.mem_singleton.1 mem
        exact ⟨by decide, rfl⟩
      | false => exact absurd mem List.not_mem_nil
  unfold pathWords at h
  cases e : parts path isWildcard with
  | nil =>
    rw [e] at h
    exact absurd h List.not_mem_nil
  | cons first rest =>
    rw [e] at h part
    rw [Text.intersperse_cons] at h
    rcases List.mem_cons.1 h with rfl | h
    · exact part word (List.mem_cons_self ..)
    · obtain ⟨next, hnext, h⟩ := List.mem_flatMap.1 h
      rcases List.mem_cons.1 h with rfl | h
      · exact ⟨by decide, rfl⟩
      · obtain rfl := List.mem_singleton.1 h
        exact part word (List.mem_cons_of_mem first hnext)

theorem spaced_of_pathWords (segments : ∀ name ∈ path, IsSegment name) {ts : List Token}
    (texts : ts.map Token.text = pathWords path isWildcard)
    (blank : ∀ t ∈ ts, t.gapText.all isBlank = true) : ∀ t ∈ ts, t.Spaced := by
  intro t ht
  have word : t.text ∈ pathWords path isWildcard := by
    rw [← texts]
    exact List.mem_map_of_mem ht
  obtain ⟨text_ne, solid⟩ := solid_of_mem_pathWords segments word
  exact ⟨text_ne, solid, blank t ht⟩

/-- Behind a segment there is white space, or a dot at once. -/
theorem head?_behind_segment {ts : List Token} {rest : List String}
    (texts : ts.map Token.text = rest.flatMap fun next => [".", next])
    (blank : ∀ t ∈ ts, t.gapText.all isBlank = true) :
    ∀ c ∈ (ts.flatMap Token.full).head?, isBlank c = true ∨ c = '.' := by
  intro c hc
  cases rest with
  | nil =>
    obtain rfl := List.map_eq_nil_iff.1 texts
    cases hc
  | cons next rest =>
    obtain ⟨dot, ts, rfl, text, -⟩ := List.map_eq_cons_iff.1 texts
    have mark : dot.text.toList = ['.'] := by rw [text]; rfl
    rw [List.flatMap_cons, Token.full_eq, mark] at hc
    have gap := blank dot (List.mem_cons_self ..)
    -- behind a segment stands the gap in front of the dot, or the dot itself
    cases e : dot.gapText with
    | nil =>
      rw [e] at hc
      exact .inr (Option.some.inj hc).symm
    | cons d gapText =>
      rw [e] at hc gap
      obtain rfl := Option.some.inj hc
      exact .inl (List.all_eq_true.1 gap d (List.mem_cons_self ..))

/-- A path does not begin with the keyword unless it is its first segment. -/
theorem splitStatic_path (some_segment : path ≠ []) (segments : ∀ name ∈ path, IsSegment name)
    (no_keyword : path.head? ≠ some "static") {ts : List Token}
    (texts : ts.map Token.text = pathWords path isWildcard)
    (blank : ∀ t ∈ ts, t.gapText.all isBlank = true) :
    splitStatic (sourceText ts).toList = (false, (sourceText ts).toList) := by
  have spaced := spaced_of_pathWords segments texts blank
  obtain ⟨first, rest, rfl⟩ := List.exists_cons_of_ne_nil some_segment
  rw [pathWords_cons] at texts
  obtain ⟨t, others, rfl, first_text, others_texts⟩ := List.map_eq_cons_iff.1 texts
  -- a first segment that begins like the keyword goes on where a blank would have to follow
  apply splitStatic_eq_false (spaced t (List.mem_cons_self ..))
  · rw [first_text]
    exact fun e => no_keyword (congrArg some e)
  · apply head?_behind_segment others_texts
    exact fun t' ht' => blank t' (List.mem_cons_of_mem t ht')

/-- Without its white space, the run of the path's tokens is the dotted path. -/
theorem squeeze_path (segments : ∀ name ∈ path, IsSegment name) {ts : List Token}
    (texts : ts.map Token.text = pathWords path isWildcard)
    (blank : ∀ t ∈ ts, t.gapText.all isBlank = true) :
    Text.squeeze (sourceText ts).toList = (dotted (parts path isWildcard)).toList := by
  rw [squeeze_sourceText (spaced_of_pathWords segments texts blank), bareText_path texts]

end

/-! ### Imports read back -/

section

variable {path : List String} {isStatic isWildcard : Bool} {ts : List Token}

/-- A written import is cut into its keywords, its path and the semicolon. -/
theorem Written.exists_tokens (h : Written path isStatic isWildcard ts) :
    ∃ keys names semi, ts = keys ++ (names ++ [semi]) ∧ keys.map Token.text = keywords isStatic ∧
      names.map Token.text = pathWords path isWildcard ∧ semi.text = ";" := by
  have texts := h.texts
  unfold words at texts
  rw [List.append_assoc] at texts
  obtain ⟨keys, behind, rfl, keys_texts, texts⟩ := List.map_eq_append_iff.1 texts
  obtain ⟨names, last, rfl, names_texts, texts⟩ := List.map_eq_append_iff.1 texts
  obtain ⟨semi, none, rfl, semicolon, texts⟩ := List.map_eq_cons_iff.1 texts
  obtain rfl := List.map_eq_nil_iff.1 texts
  exact ⟨keys, names, semi, rfl, keys_texts, names_texts, semicolon⟩

/-- What is read from the text between the keyword and the semicolon. -/
theorem read?_eq {text body path' : List Char} (between : body? text = some body)
    (split : splitStatic body = (isStatic, path'))
    (squeezed : Text.squeeze path' = (dotted (parts path isWildcard)).toList)
    (some_segment : path ≠ []) (segments : ∀ name ∈ path, IsSegment name) :
    read? text = some ⟨dotted path, isStatic, isWildcard⟩ := by
  unfold read?
  rw [between, Option.bind_some]
  dsimp only
  rw [split, squeezed, splitWildcard_dotted some_segment segments,
    if_neg (dotted_ne_nil some_segment segments), String.ofList_toList]

/-- An import is read back as its path and its flags, whatever white space it is written with.  The
first segment of the path may begin with `static`, but it is not that keyword. -/
theorem read_written (some_segment : path ≠ []) (segments : ∀ name ∈ path, IsSegment name)
    (no_keyword : path.head? ≠ some "static") (h : Written path isStatic isWildcard ts) :
    read? (sourceText ts).toList = some ⟨dotted path, isStatic, isWildcard⟩ := by
  obtain ⟨keys, names, semi, rfl, keys_texts, texts, semicolon⟩ := h.exists_tokens
  have blank : ∀ t ∈ names, t.gapText.all isBlank = true := by
    intro t ht
    exact h.blank t (List.mem_append_right _ (List.mem_append_left _ ht))
  have behind : semi.gapText.all isBlank = true :=
    h.blank semi (List.mem_append_right _ (List.mem_append_right _ (List.mem_singleton_self _)))
  have spaced := spaced_of_pathWords segments texts blank
  have squeezed := squeeze_path segments texts blank
  cases isStatic with
  | false =>
    obtain ⟨key, none, rfl, keyword, none_text⟩ := List.map_eq_cons_iff.1 keys_texts
    obtain rfl := List.map_eq_nil_iff.1 none_text
    have between := body?_sourceText keyword semicolon spaced behind
    have no_static := splitStatic_path some_segment segments no_keyword texts blank
    exact read?_eq between no_static squeezed some_segment segments
  | true =>
    obtain ⟨key, keys, rfl, keyword, keys_texts⟩ := List.map_eq_cons_iff.1 keys_texts
    obtain ⟨static, none, rfl, static_text, none_text⟩ := List.map_eq_cons_iff.1 keys_texts
    obtain rfl := List.map_eq_nil_iff.1 none_text
    have static_spaced : static.Spaced := by
      refine ⟨?_, ?_, h.blank static (.tail _ (.head _))⟩
      · rw [static_text]
        decide
      · rw [static_text]
        rfl
    have run : ∀ t ∈ static :: names, t.Spaced := List.forall_mem_cons.2 ⟨static_spaced, spaced⟩
    have between := body?_sourceText keyword semicolon run behind
    -- the second token that `apart` speaks of is the first of the path
    obtain ⟨t, others, rfl⟩ : ∃ t others, names = t :: others := by
      obtain ⟨first, rest, rfl⟩ := List.exists_cons_of_ne_nil some_segment
      rw [pathWords_cons] at texts
      obtain ⟨t, others, e, -⟩ := List.map_eq_cons_iff.1 texts
      exact ⟨t, others, e⟩
    have cut := splitStatic_eq_true static_text spaced (h.apart t (.tail _ (.head _)))
    exact read?_eq between cut squeezed some_segment segments

end

/-- The tokens of `import static\n staticpkg . Page.*  ;`. -/
def smallTokens : List Token := [
  ⟨[], "import", 1⟩, ⟨[.blank " "], "static", 1⟩, ⟨[.blank "\n "], "staticpkg", 2⟩,
  ⟨[.blank " "], ".", 2⟩, ⟨[.blank " "], "Page", 2⟩, ⟨[], ".", 2⟩, ⟨[], "*", 2⟩,
  ⟨[.blank "  "], ";", 2⟩]

/-- A package whose name begins with the keyword that stands in front of it. -/
theorem read_written_smallTokens :
    Written ["staticpkg", "Page"] true true smallTokens ∧
      read? (sourceText smallTokens).toList = some ⟨"staticpkg.Page", true, true⟩ := by
  have written : Written ["staticpkg", "Page"] true true smallTokens := by
    refine ⟨?_, ?_, ?_⟩ <;> decide +kernel
  have segments : ∀ name ∈ ["staticpkg", "Page"], IsSegment name := by decide +kernel
  exact ⟨written, read_written (by decide) segments (by decide) written⟩

end Import

end Source

end RouteRegistry
