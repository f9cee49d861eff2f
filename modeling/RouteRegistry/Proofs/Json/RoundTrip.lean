/-
RouteRegistry/Proofs/Json/RoundTrip.lean

The JSON form of the domain's values, read back.

An encoding inverts where the tree it gives is plain and decodes to the value
(`Inverts`); a plain tree then survives being written (`Inverts.parse?`).  For a
structure both come from its fields by the same two lemmas, whatever the fields
are (`plain_record`, `fields?_record`), and for the settings they also hold when
fields are missing (`namedFields?_record`).

Main result (`values_read_back`): every value is read back from its compact text,
as long as its line numbers fit into 64 bits, and settings without some of their
fields are the same settings with just these fields at their defaults.
-/
import Mathlib.Data.List.Nodup
import RouteRegistry.Config.Load
import RouteRegistry.Proofs.Json.Reading

namespace RouteRegistry

open Json

/-! ### Inverting -/

namespace Json

variable {α β : Type}

/-- The value that a text holds, if it is JSON of that form. -/
def parse? (decode? : Json → Option α) (text : String) : Option α := (read? text).bind decode?

/-- The value is encoded as a plain tree, which decodes to it. -/
structure Inverts (encode : α → Json) (decode? : Json → Option α) (v : α) : Prop where
  plain : (encode v).Plain
  decoded : decode? (encode v) = some v

/-- What a codec inverts survives the way through the compact text. -/
theorem Inverts.parse? {encode : α → Json} {decode? : Json → Option α} {v : α}
    (h : Inverts encode decode? v) : Json.parse? decode? (encode v).toCompact = some v := by
  unfold Json.parse?
  rw [read?_toCompact h.plain, Option.bind_some, h.decoded]

theorem inverts_str (s : String) : Inverts str string? s := ⟨.str s, rfl⟩

theorem inverts_bool (b : Bool) : Inverts .bool bool? b := ⟨.bool b, rfl⟩

/-- A number is read back if it is below the bound of its type. -/
theorem inverts_nat {bound n : Nat} (h : n < bound) : Inverts nat (natBelow? bound) n := by
  refine ⟨.nat n, ?_⟩
  have all : (Nat.toDigits 10 n).all Char.isDigit = true :=
    List.all_eq_true.2 fun _ => isDigit_of_mem_toDigits
  have value : (Nat.toDigits 10 n).foldl (fun n c => 10 * n + (c.toNat - 0x30)) 0 = n :=
    Nat.ofDigitChars_toDigits (by decide) (by decide)
  show (if (Nat.repr n).toList.all Char.isDigit then _ else none) = some n
  rw [Nat.toList_repr, if_pos all, value, if_pos h]

theorem mapM_eq_some_of_inverts {encode : α → Json} {decode? : Json → Option α} {vs : List α}
    (h : ∀ v ∈ vs, Inverts encode decode? v) : (vs.map encode).mapM decode? = some vs := by
  induction vs with
  | nil => rfl
  | cons v vs ih =>
    obtain ⟨first, others⟩ := List.forall_mem_cons.1 h
    simp [first.decoded, ih others]

/-- A list is read back if its items are. -/
theorem inverts_list {encode : α → Json} {decode? : Json → Option α} {vs : List α}
    (h : ∀ v ∈ vs, Inverts encode decode? v) :
    Inverts (fun vs => .array (vs.map encode)) (list? decode?) vs := by
  refine ⟨.array fun j hj => ?_, mapM_eq_some_of_inverts h⟩
  obtain ⟨v, hv, rfl⟩ := List.mem_map.1 hj
  exact (h v hv).plain

/-- A value that may be missing is encoded as null if it is, and as itself if not. -/
theorem inverts_optional {encode : α → Json} {decode? : Json → Option α}
    {encodeOption : Option α → Json} (absent : encodeOption none = .null)
    (present : ∀ w, encodeOption (some w) = encode w) (something : ∀ w, encode w ≠ .null)
    {v : Option α} (h : ∀ w ∈ v, Inverts encode decode? w) :
    Inverts encodeOption (optional? decode?) v := by
  rcases v with - | w
  · constructor
    · rw [absent]
      exact .null
    · rw [absent]
      rfl
  -- a value that is there is not written as null, so the two cannot be confused
  · obtain ⟨plain, decoded⟩ := h w rfl
    rw [← present w] at plain decoded
    refine ⟨plain, ?_⟩
    unfold optional?
    split
    case h_1 e => exact absurd ((present w).symm.trans e) (something w)
    case h_2 => rw [decoded, Option.map_some]

/-! ### Structures -/

theorem plain_record {fields : List (String × Json)} (h : ∀ f ∈ fields, f.2.Plain) :
    (record fields).Plain := by
  apply Plain.object
  · intro m hm
    obtain ⟨f, -, rfl⟩ := List.mem_map.1 hm
    rfl
  · intro m hm
    obtain ⟨f, hf, rfl⟩ := List.mem_map.1 hm
    exact h f hf

theorem keys?_record (fields : List (String × Json)) :
    keys? (fields.map fun f => (some f.1, f.2)) = some (fields.map Prod.fst) := by
  unfold keys?
  induction fields with
  | nil => rfl
  | cons f fields ih => simp [ih]

/-- The value under the name of a field is that of the field, if it was kept. -/
theorem find?_record {fields : List (String × Json)} (distinct : (fields.map Prod.fst).Nodup)
    (kept : String → Bool) {f : String × Json} (hf : f ∈ fields) :
    (((fields.filter fun f => kept f.1).map fun f => (some f.1, f.2)).find?
        fun m => m.1 == some f.1).map Prod.snd = if kept f.1 then some f.2 else none := by
  -- the names are distinct, so the first field of this name is the field itself
  rcases found : ((fields.filter fun f => kept f.1).map fun f => (some f.1, f.2)).find?
      (fun m => m.1 == some f.1) with - | m
  · rw [List.find?_eq_none] at found
    by_cases h : kept f.1 = true
    · have other := found _ (List.mem_map_of_mem (List.mem_filter.2 ⟨hf, h⟩))
      simp at other
    · rw [if_neg h, List.find?_eq_none.2 found]
      rfl
  · obtain ⟨g, hg, rfl⟩ := List.mem_map.1 (List.mem_of_find?_eq_some found)
    obtain ⟨mem, h⟩ := List.mem_filter.1 hg
    have name : g.1 = f.1 := by
      simpa using List.find?_some found
    obtain rfl := List.inj_on_of_nodup_map distinct mem hf name
    rw [if_pos h, found]
    rfl

/-- Of a structure whose fields have different names, those that were kept are found. -/
theorem namedFields?_record {fields : List (String × Json)}
    (distinct : (fields.map Prod.fst).Nodup) (kept : String → Bool) :
    namedFields? (fields.map Prod.fst)
        ((fields.filter fun f => kept f.1).map fun f => (some f.1, f.2)) =
      some (fields.map fun f => if kept f.1 then some f.2 else none) := by
  -- a repeated key would be an error; taking fields away repeats none
  have once : ((fields.map Prod.fst).all fun n =>
      ((fields.filter fun f => kept f.1).map Prod.fst).count n ≤ 1) = true := by
    have part : ((fields.filter fun f => kept f.1).map Prod.fst).Nodup :=
      distinct.sublist (List.filter_sublist.map Prod.fst)
    rw [List.all_eq_true]
    intro n _
    exact decide_eq_true (List.nodup_iff_count_le_one.1 part n)
  unfold namedFields?
  rw [keys?_record]
  dsimp only
  rw [if_pos once, List.map_map]
  exact congrArg some (List.map_congr_left fun f hf => find?_record distinct kept hf)

/-- The fields of a record are found under their names. -/
theorem fields?_record (fields : List (String × Json)) {names : List String}
    (named : fields.map Prod.fst = names) (distinct : names.Nodup) :
    fields? names (record fields) = some (fields.map fun f => some f.2) := by
  subst named
  have all := namedFields?_record distinct fun _ => true
  simp only [List.filter_true, if_true] at all
  exact all

end Json

/-! ### Places and markers -/

theorem Path.inverts (p : Path) : Inverts Path.encode Path.decode? p := ⟨.str p.text, rfl⟩

/-- The line number fits into 64 bits. -/
def Location.Fits (l : Location) : Prop := l.line < UInt64.size

theorem Location.inverts {l : Location} (h : l.Fits) :
    Inverts Location.encode Location.decode? l := by
  have line := inverts_nat h
  have fields : fields? ["path", "line"] l.encode = _ :=
    fields?_record [("path", _), ("line", _)] rfl (by decide)
  constructor
  · apply plain_record
    simp [l.path.inverts.plain, line.plain]
  · unfold Location.decode?
    rw [fields]
    simp [required?, l.path.inverts.decoded, line.decoded]

theorem inverts_encodeOrigin {o : Option Location} (h : ∀ l ∈ o, l.Fits) :
    Inverts encodeOrigin (optional? Location.decode?) o :=
  inverts_optional rfl (fun _ => rfl) (by nofun) fun l hl => Location.inverts (h l hl)

theorem MarkerValue.inverts (v : MarkerValue) :
    Inverts MarkerValue.encode MarkerValue.decode? v := by
  constructor
  · cases v
    all_goals
      apply plain_record
      simp [Plain.str]
  · cases v <;> rfl

theorem inverts_strOrNull (s : Option String) : Inverts strOrNull (optional? string?) s :=
  inverts_optional rfl (fun _ => rfl) (by nofun) fun t _ => inverts_str t

theorem MarkerArg.inverts (a : MarkerArg) : Inverts MarkerArg.encode MarkerArg.decode? a := by
  have key := inverts_strOrNull a.key
  have fields : fields? ["key", "value"] a.encode = _ :=
    fields?_record [("key", _), ("value", _)] rfl (by decide)
  constructor
  · apply plain_record
    simp [key.plain, a.value.inverts.plain]
  · unfold MarkerArg.decode?
    rw [fields]
    simp [required?, absentOr?, key.decoded, a.value.inverts.decoded]

/-- The lines that the marker names fit into 64 bits. -/
def Marker.Fits (m : Marker) : Prop := ∀ l ∈ m.origin, l.Fits

theorem Marker.inverts {m : Marker} (h : m.Fits) : Inverts Marker.encode Marker.decode? m := by
  have name := inverts_str m.name
  have args := inverts_list fun a (_ : a ∈ m.args) => a.inverts
  have origin := inverts_encodeOrigin h
  have fields : fields? ["name", "args", "origin"] m.encode = _ :=
    fields?_record [("name", _), ("args", _), ("origin", _)] rfl (by decide)
  constructor
  · apply plain_record
    simp [name.plain, args.plain, origin.plain]
  · unfold Marker.decode?
    rw [fields]
    simp [required?, absentOr?, name.decoded, args.decoded, origin.decoded]

/-! ### Declarations and diagnostics -/

theorem inverts_strings (ss : List String) : Inverts strings (list? string?) ss :=
  inverts_list fun s _ => inverts_str s

theorem DeclId.inverts (id : DeclId) : Inverts DeclId.encode DeclId.decode? id := by
  obtain ⟨plain, decoded⟩ := inverts_nat id.index.toNat_lt
  refine ⟨plain, ?_⟩
  show (natBelow? UInt32.size (nat id.index.toNat)).map _ = some id
  rw [decoded, Option.map_some, UInt32.ofNat_toNat]

theorem TypeKind.inverts (k : TypeKind) : Inverts TypeKind.encode TypeKind.decode? k :=
  ⟨.str _, by cases k <;> decide⟩

/-- The lines that the declaration names fit into 64 bits. -/
structure Declaration.Fits (d : Declaration) : Prop where
  markers : ∀ m ∈ d.markers, m.Fits
  origin : ∀ l ∈ d.origin, l.Fits

theorem Declaration.inverts {d : Declaration} (h : d.Fits) :
    Inverts Declaration.encode Declaration.decode? d := by
  have name := inverts_str d.name
  have space := inverts_str d.space
  have enclosing := inverts_strings d.enclosing
  have isAbstract := inverts_bool d.isAbstract
  have markers := inverts_list fun m hm => Marker.inverts (h.markers m hm)
  have origin := inverts_encodeOrigin h.origin
  have fields : fields? Declaration.fieldNames d.encode = _ :=
    fields?_record [("id", _), ("name", _), ("namespace", _), ("enclosing", _), ("kind", _),
      ("is_abstract", _), ("markers", _), ("origin", _)] rfl (by decide)
  constructor
  · apply plain_record
    simp [d.id.inverts.plain, name.plain, space.plain, enclosing.plain, d.kind.inverts.plain,
      isAbstract.plain, markers.plain, origin.plain]
  · unfold Declaration.decode?
    rw [fields]
    simp [required?, absentOr?, d.id.inverts.decoded, name.decoded, space.decoded,
      enclosing.decoded, d.kind.inverts.decoded, isAbstract.decoded, markers.decoded,
      origin.decoded]

theorem Severity.inverts (s : Severity) : Inverts Severity.encode Severity.decode? s :=
  ⟨.str _, by cases s <;> decide⟩

theorem DiagnosticCode.inverts (c : DiagnosticCode) :
    Inverts DiagnosticCode.encode DiagnosticCode.decode? c :=
  ⟨.str _, by cases c <;> decide⟩

/-- The line that the diagnostic names fits into 64 bits. -/
def Diagnostic.Fits (d : Diagnostic) : Prop := ∀ l ∈ d.location, l.Fits

theorem Diagnostic.inverts {d : Diagnostic} (h : d.Fits) :
    Inverts Diagnostic.encode Diagnostic.decode? d := by
  have message := inverts_str d.message
  have location := inverts_encodeOrigin h
  have fields : fields? ["code", "severity", "message", "location"] d.encode = _ :=
    fields?_record [("code", _), ("severity", _), ("message", _), ("location", _)] rfl (by decide)
  constructor
  · apply plain_record
    simp [d.code.inverts.plain, d.severity.inverts.plain, message.plain, location.plain]
  · unfold Diagnostic.decode?
    rw [fields]
    simp [required?, absentOr?, d.code.inverts.decoded, d.severity.inverts.decoded,
      message.decoded, location.decoded]

/-! ### Settings with missing fields -/

namespace Json

/-- The object without the fields of these names. -/
def without (gone : List String) : Json → Json
  | .object members => .object (members.filter fun m => m.1.all fun name => !gone.contains name)
  | j => j

/-- The object with a change made to the value of one field. -/
def atField (name : String) (change : Json → Json) : Json → Json
  | .object members =>
    .object (members.map fun m => if m.1 = some name then (m.1, change m.2) else m)
  | j => j

/-- To take fields away from a record is to write it without them. -/
theorem without_record (gone : List String) (fields : List (String × Json)) :
    (record fields).without gone = record (fields.filter fun f => !gone.contains f.1) := by
  show Json.object (List.filter _ (List.map _ fields)) = _
  rw [List.filter_map]
  rfl

/-- Of a structure whose fields have different names, those that are not gone are found. -/
theorem leadingFields?_without (fields : List (String × Json)) {names : List String}
    (named : fields.map Prod.fst = names) (distinct : names.Nodup) (gone : List String) :
    leadingFields? names ((record fields).without gone) =
      some (fields.map fun f => if !gone.contains f.1 then some f.2 else none) := by
  subst named
  rw [without_record]
  exact namedFields?_record distinct fun name => !gone.contains name

theorem plain_without {fields : List (String × Json)} (h : ∀ f ∈ fields, f.2.Plain)
    (gone : List String) : ((record fields).without gone).Plain := by
  rw [without_record]
  exact plain_record fun f hf => h f (List.mem_of_mem_filter hf)

/-- A field that is gone has its default. -/
theorem withDefault?_without {α : Type} {decode? : Json → Option α} {j : Json} {v : α}
    (decoded : decode? j = some v) (default : α) (gone : List String) (name : String) :
    withDefault? default decode? (if !gone.contains name then some j else none) =
      some (if name ∈ gone then default else v) := by
  by_cases h : name ∈ gone
  · simp [h, withDefault?]
  · simp [h, withDefault?, decoded]

end Json

/-- The marker names with the fields of these names at their defaults. -/
def MarkerNames.reset (gone : List String) (n : MarkerNames) : MarkerNames where
  configuration :=
    if "configuration" ∈ gone then MarkerNames.default.configuration else n.configuration
  extraRoute := if "extra_route" ∈ gone then MarkerNames.default.extraRoute else n.extraRoute
  ignore := if "ignore" ∈ gone then MarkerNames.default.ignore else n.ignore

/-- Groups of names that are taken away come back with their default names. -/
theorem MarkerNames.inverts_without (gone : List String) (n : MarkerNames) :
    (n.encode.without gone).Plain ∧
      MarkerNames.decode? (n.encode.without gone) = some (n.reset gone) := by
  have names : ["configuration", "extra_route", "ignore"].Nodup := by decide
  have fields : leadingFields? ["configuration", "extra_route", "ignore"]
      (n.encode.without gone) = _ :=
    leadingFields?_without [("configuration", _), ("extra_route", _), ("ignore", _)] rfl names gone
  constructor
  · apply plain_without
    simp [(inverts_strings _).plain]
  · unfold MarkerNames.decode?
    rw [fields]
    simp only [List.map_cons, List.map_nil, Option.bind_eq_bind, Option.bind_some,
      withDefault?_without (inverts_strings _).decoded]
    rfl

namespace Config

/-- The JSON form of the settings without some of its fields, and without some of the fields of its
marker names. -/
def pruned (gone goneMarkers : List String) (c : Config) : Json :=
  (c.encode.atField "markers" (without goneMarkers)).without gone

/-- The settings with the fields of these names at their defaults. -/
def reset (gone goneMarkers : List String) (c : Config) : Config where
  markers := if "markers" ∈ gone then Config.default.markers else c.markers.reset goneMarkers
  outputDir := if "output_dir" ∈ gone then Config.default.outputDir else c.outputDir
  exclude := if "exclude" ∈ gone then Config.default.exclude else c.exclude

theorem pruned_eq (gone goneMarkers : List String) (c : Config) :
    c.pruned gone goneMarkers =
      (record [("markers", c.markers.encode.without goneMarkers),
        ("output_dir", strOrNull (c.outputDir.map Path.text)),
        ("exclude", .array (c.exclude.map Path.encode))]).without gone :=
  rfl

theorem inverts_outputDir (o : Option Path) :
    Inverts (fun o => strOrNull (o.map Path.text)) (optional? Path.decode?) o :=
  inverts_optional rfl (fun _ => rfl) (by nofun) fun p _ => p.inverts

/-- Fields that are taken away come back with their defaults, and the others as they were. -/
theorem inverts_pruned (gone goneMarkers : List String) (c : Config) :
    (c.pruned gone goneMarkers).Plain ∧
      Config.decode? (c.pruned gone goneMarkers) = some (c.reset gone goneMarkers) := by
  have names : ["markers", "output_dir", "exclude"].Nodup := by decide
  -- the markers' own fields are removed inside the record, before the config's
  rw [pruned_eq]
  have fields : leadingFields? ["markers", "output_dir", "exclude"] _ = _ :=
    leadingFields?_without [("markers", c.markers.encode.without goneMarkers),
      ("output_dir", strOrNull (c.outputDir.map Path.text)),
      ("exclude", .array (c.exclude.map Path.encode))] rfl names gone
  have markers := c.markers.inverts_without goneMarkers
  have outputDir := inverts_outputDir c.outputDir
  have exclude := inverts_list fun p (_ : p ∈ c.exclude) => p.inverts
  constructor
  · apply plain_without
    simp [markers.1, outputDir.plain, exclude.plain]
  · unfold Config.decode?
    rw [fields]
    simp only [List.map_cons, List.map_nil, Option.bind_eq_bind, Option.bind_some,
      withDefault?_without markers.2, withDefault?_without outputDir.decoded,
      withDefault?_without exclude.decoded]
    rfl

/-- The same through the compact text. -/
theorem ofText?_pruned (gone goneMarkers : List String) (c : Config) :
    ofText? (c.pruned gone goneMarkers).toCompact = some (c.reset gone goneMarkers) := by
  obtain ⟨plain, decoded⟩ := c.inverts_pruned gone goneMarkers
  unfold ofText?
  rw [read?_toCompact plain, Option.bind_some, decoded]

theorem pruned_nothing (c : Config) : c.pruned [] [] = c.encode := by
  rw [pruned_eq, MarkerNames.encode, without_record, without_record]
  simp [encode, MarkerNames.encode]

theorem reset_nothing (c : Config) : c.reset [] [] = c := rfl

/-- A whole configuration is read back. -/
theorem ofText?_encode (c : Config) : ofText? c.encode.toCompact = some c := by
  have all := c.ofText?_pruned [] []
  rwa [pruned_nothing, reset_nothing] at all

end Config

/-! ### Reading back -/

/-- Every value is read back from its compact text, provided that the line numbers in it fit into
64 bits.  Settings without some of their fields, and without some of the fields of their marker
names, are read as the same settings with just these fields at their defaults. -/
theorem values_read_back :
    (∀ v : MarkerValue, parse? MarkerValue.decode? v.encode.toCompact = some v) ∧
    (∀ a : MarkerArg, parse? MarkerArg.decode? a.encode.toCompact = some a) ∧
    (∀ m : Marker, m.Fits → parse? Marker.decode? m.encode.toCompact = some m) ∧
    (∀ l : Location, l.Fits → parse? Location.decode? l.encode.toCompact = some l) ∧
    (∀ d : Declaration, d.Fits → parse? Declaration.decode? d.encode.toCompact = some d) ∧
    (∀ d : Diagnostic, d.Fits → parse? Diagnostic.decode? d.encode.toCompact = some d) ∧
    (∀ c : Config, Config.ofText? c.encode.toCompact = some c) ∧
    (∀ (c : Config) (gone goneMarkers : List String),
      Config.ofText? (c.pruned gone goneMarkers).toCompact = some (c.reset gone goneMarkers)) :=
  ⟨fun v => v.inverts.parse?, fun a => a.inverts.parse?, fun _ h => (Marker.inverts h).parse?,
    fun _ h => (Location.inverts h).parse?, fun _ h => (Declaration.inverts h).parse?,
    fun _ h => (Diagnostic.inverts h).parse?, Config.ofText?_encode,
    fun c gone goneMarkers => c.ofText?_pruned gone goneMarkers⟩

/-! A type in a file, with markers of each kind of argument. -/

/-- A place with the last line there can be. -/
def smallOrigin : Location := ⟨⟨"src/Ünit.java"⟩, 18446744073709551615⟩

/-- A marker with an argument of every kind. -/
def smallMarker : Marker where
  name := "ExtraRoute"
  args := [⟨none, .str "a \"quoted\"\n\u0001"⟩, ⟨some "target", .typeRef "OrderView"⟩,
    ⟨some "none", .null⟩, ⟨some "n", .other "1 + 2"⟩]
  origin := some smallOrigin

/-- A declaration with the last identity there is. -/
def smallDeclaration : Declaration where
  id := ⟨4294967295⟩
  name := "MainView"
  space := "demo"
  enclosing := ["Outer"]
  kind := .recordType
  isAbstract := false
  markers := [smallMarker]
  origin := none

/-- A diagnostic that quotes a name that is none. -/
def smallDiagnostic : Diagnostic where
  code := .invalidRouteName
  severity := .warning
  message := "no route name: \"A\tB\""
  location := some smallOrigin

theorem smallOrigin_fits : smallOrigin.Fits := by
  show 18446744073709551615 < UInt64.size
  decide

theorem smallMarker_fits : smallMarker.Fits := by
  rintro l ⟨rfl⟩
  exact smallOrigin_fits

theorem smallDeclaration_fits : smallDeclaration.Fits := by
  refine ⟨?_, nofun⟩
  intro m hm
  rw [List.mem_singleton.1 hm]
  exact smallMarker_fits

theorem smallDiagnostic_fits : smallDiagnostic.Fits := by
  rintro l ⟨rfl⟩
  exact smallOrigin_fits

/-- Values at the bounds of their types and texts with all sorts of characters are read back. -/
theorem values_read_back_small :
    parse? Marker.decode? smallMarker.encode.toCompact = some smallMarker ∧
      parse? Location.decode? smallOrigin.encode.toCompact = some smallOrigin ∧
      parse? Declaration.decode? smallDeclaration.encode.toCompact = some smallDeclaration ∧
      parse? Diagnostic.decode? smallDiagnostic.encode.toCompact = some smallDiagnostic := by
  obtain ⟨-, -, marker, location, declaration, diagnostic, -⟩ := values_read_back
  exact ⟨marker _ smallMarker_fits, location _ smallOrigin_fits,
    declaration _ smallDeclaration_fits, diagnostic _ smallDiagnostic_fits⟩

end RouteRegistry
