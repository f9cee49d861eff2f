/-
RouteRegistry/Proofs/Growth/Account.lean

The diagnostics of a merge against the table it builds.

`Survey.account` goes through the requests in walk order and gives each the
verdict of the table that the merge has reached by then.  In a merge without a
fault both the diagnostics and the new entries can be read off this list
(`mergeFrom_account`), and so they account for each other.

A diagnostic about a route is compared by what it says (`Diagnostic.notice`): its
code, the name that it quotes and its place.

Main result (`merge_account`): each request gets the one diagnostic its verdict
calls for, or none, and it says the verdict's code and name at the request's
place; the names that EXR003 quotes are the untyped among the new routes; and
every request is blank, refused by EXR001 or EXR002, or a new route.
-/
import Mathlib.Data.List.Basic
import RouteRegistry.Proofs.Growth.Step

namespace RouteRegistry

/-! ### The name that a diagnostic quotes -/

/-- What stands between the first and the last `q`. -/
def Text.between (q : Char) (s : List Char) : List Char :=
  ((s.dropWhile (· != q)).tail.reverse.dropWhile (· != q)).tail.reverse

/-- The search for a character stops at its first occurrence. -/
theorem Text.dropWhile_ne {q : Char} {lead : List Char} (h : q ∉ lead) (rest : List Char) :
    (lead ++ q :: rest).dropWhile (· != q) = q :: rest := by
  have before : ∀ c ∈ lead, (c != q) = true := by
    intro c hc
    have hne : c ≠ q := fun e => h (e ▸ hc)
    simpa using hne
  rw [List.dropWhile_append_of_pos before, List.dropWhile_cons_of_neg (by simp)]

/-- What stands between two quotes is found, even if it has quotes of its own. -/
theorem Text.between_quotes {q : Char} {lead tail : List Char} (hl : q ∉ lead) (ht : q ∉ tail)
    (inner : List Char) : between q (lead ++ q :: (inner ++ q :: tail)) = inner := by
  have reversed : (inner ++ q :: tail).reverse = tail.reverse ++ q :: inner.reverse := by simp
  have ht' : q ∉ tail.reverse := fun h => ht (List.mem_reverse.1 h)
  unfold between
  rw [dropWhile_ne hl, List.tail_cons, reversed, dropWhile_ne ht', List.tail_cons,
    List.reverse_reverse]

/-- The route name in a diagnostic about a route. -/
def Diagnostic.quoted (d : Diagnostic) : String :=
  String.ofList (Text.between '\x27' d.message.toList)

/-- A name with a quote on either side is quoted, if the words around it have none. -/
theorem Diagnostic.quoted_of_message {d : Diagnostic} {name : String} (lead tail : String)
    (text : d.message.toList = lead.toList ++ '\x27' :: (name.toList ++ '\x27' :: tail.toList))
    (plain : '\x27' ∉ lead.toList ∧ '\x27' ∉ tail.toList) : d.quoted = name := by
  unfold quoted
  rw [text, Text.between_quotes plain.1 plain.2, String.ofList_toList]

theorem Diagnostic.quoted_invalidRouteName (name : String) (place : Option Location) :
    (invalidRouteName name place).quoted = name :=
  quoted_of_message
    "The ExtraRoute route parameter must be a valid route name, ignoring invalid route " ""
    (by simp [invalidRouteName, of, String.toList_append]) (by simp)

theorem Diagnostic.quoted_duplicateRoute (name : String) (place : Option Location) :
    (duplicateRoute name place).quoted = name :=
  quoted_of_message "The ExtraRoute route parameter must be unique, ignoring duplicate " ""
    (by simp [duplicateRoute, of, String.toList_append]) (by simp)

theorem Diagnostic.quoted_unresolvedRouteType (name : String) (place : Option Location) :
    (unresolvedRouteType name place).quoted = name :=
  quoted_of_message "No type found for extra route "
    ", it is added to AllRoutes but not to RouteTypeMap"
    (by simp [unresolvedRouteType, of, String.toList_append]) (by simp)

/-- What a diagnostic about a route says: its code, the name that it quotes and its place. -/
def Diagnostic.notice (d : Diagnostic) : DiagnosticCode × String × Option Location :=
  (d.code, d.quoted, d.location)

/-- The code and the name of the diagnostic that the verdict calls for. -/
def Verdict.charge? : Verdict → Option (DiagnosticCode × String)
  | .invalid name => some (.invalidRouteName, name)
  | .duplicate name => some (.duplicateRoute, name)
  | .accepted name none => some (.unresolvedRouteType, name)
  | .skipped | .accepted _ (some _) => none

/-- A diagnostic says the code and the name of its verdict, at the place it is given. -/
theorem Verdict.notice_diagnostic? (v : Verdict) (place : Option Location) :
    (v.diagnostic? place).map Diagnostic.notice = v.charge?.map fun c => (c.1, c.2, place) := by
  rcases v with - | name | name | ⟨name, - | type⟩
  · rfl
  · exact congrArg (fun q => some (_, q, place)) (Diagnostic.quoted_invalidRouteName ..)
  · exact congrArg (fun q => some (_, q, place)) (Diagnostic.quoted_duplicateRoute ..)
  · exact congrArg (fun q => some (_, q, place)) (Diagnostic.quoted_unresolvedRouteType ..)
  · rfl

/-! ### Accounts -/

/-- The diagnostics that an account calls for. -/
def diagnosticsFor (account : List (RouteRequest × Verdict)) : List Diagnostic :=
  account.flatMap fun x => (x.2.diagnostic? x.1.origin).toList

/-- The routes that an account lets in. -/
def routesFor (account : List (RouteRequest × Verdict)) : List (String × Option String) :=
  account.flatMap fun x => x.2.route?.toList

/-- Each diagnostic says the code and the name of its verdict, at the place of the request. -/
theorem map_notice_diagnosticsFor (account : List (RouteRequest × Verdict)) :
    (diagnosticsFor account).map Diagnostic.notice =
      account.filterMap fun x => x.2.charge?.map fun c => (c.1, c.2, x.1.origin) := by
  unfold diagnosticsFor
  rw [List.map_flatMap, List.filterMap_eq_flatMap_toList]
  refine List.flatMap_congr fun x _ => ?_
  rw [← x.2.notice_diagnostic?, Option.toList_map]

/-- EXR003 quotes the untyped routes, in order. -/
theorem quoted_diagnosticsFor (account : List (RouteRequest × Verdict)) :
    ((diagnosticsFor account).filter (·.code = .unresolvedRouteType)).map Diagnostic.quoted =
      ((routesFor account).filter (·.2.isNone)).map Prod.fst := by
  have one : ∀ x : RouteRequest × Verdict,
      ((x.2.diagnostic? x.1.origin).toList.filter (·.code = .unresolvedRouteType)).map
        Diagnostic.quoted = (x.2.route?.toList.filter (·.2.isNone)).map Prod.fst := by
    rintro ⟨r, - | name | name | ⟨name, - | type⟩⟩
    case accepted.none => exact congrArg (· :: []) (Diagnostic.quoted_unresolvedRouteType ..)
    all_goals rfl
  unfold diagnosticsFor routesFor
  simp only [List.filter_flatMap, List.map_flatMap, one]

/-- Every request is blank, refused with a diagnostic, or a new route. -/
theorem length_account {account : List (RouteRequest × Verdict)}
    (h : ∀ x ∈ account, x.2 = .skipped ↔ x.1.name? = none) :
    account.length = account.countP (·.1.name?.isNone) +
      (diagnosticsFor account).countP (·.code = .invalidRouteName) +
      (diagnosticsFor account).countP (·.code = .duplicateRoute) + (routesFor account).length := by
  induction account with
  | nil => rfl
  | cons x xs ih =>
    have rest := ih fun y hy => h y (List.mem_cons_of_mem x hy)
    have blank := h x (List.mem_cons_self ..)
    -- one request is counted once: blank, refused for its name, a duplicate, or a new entry
    have one : 1 = (if x.1.name?.isNone then 1 else 0) +
        (x.2.diagnostic? x.1.origin).toList.countP (·.code = .invalidRouteName) +
        (x.2.diagnostic? x.1.origin).toList.countP (·.code = .duplicateRoute) +
        x.2.route?.toList.length := by
      obtain ⟨r, v⟩ := x
      rcases hn : r.name? with - | n
      · obtain rfl : v = .skipped := blank.2 hn
        rfl
      · have hv : v ≠ .skipped := fun e => by rw [blank.1 e] at hn; cases hn
        rcases v with - | name | name | ⟨name, - | type⟩
        · exact absurd rfl hv
        all_goals rfl
    unfold diagnosticsFor routesFor at rest ⊢
    rw [List.length_cons, List.flatMap_cons, List.flatMap_cons, List.countP_cons,
      List.countP_append, List.countP_append, List.length_append]
    omega

namespace Survey

/-- Each request with the verdict it gets from the table that the requests before it lead to. -/
def accountFrom (s : Survey) (rs : List RouteRequest) (t : RouteTable) :
    List (RouteRequest × Verdict) :=
  rs.mapIdx fun i r => (r, s.verdict (s.mergeFrom ((rs.take i).map RouteRequest.read) t).table r)

/-- The account of the whole merge. -/
def account (s : Survey) (t : RouteTable) : List (RouteRequest × Verdict) :=
  s.accountFrom s.requests t

variable {s : Survey}

/-- In a merge without a fault, the later requests meet the table that the first one leads to. -/
theorem accountFrom_cons {r : RouteRequest} {rs : List RouteRequest} {t : RouteTable}
    (h : (s.mergeFrom ((r :: rs).map RouteRequest.read) t).fault = none) :
    s.accountFrom (r :: rs) t =
      (r, s.verdict t r) :: s.accountFrom rs (t.addAll (s.verdict t r).route?.toList) := by
  obtain ⟨d, fault, -, -, e⟩ | ⟨before, -, e⟩ := s.mergeFrom_cons r t
  · rw [List.map_cons, e] at h; cases h
  · unfold accountFrom
    rw [List.mapIdx_cons]
    -- the table that a later request meets is the one a merge from here would have led to
    simp only [List.take_succ_cons, List.map_cons, e, Growth.table_after]
    rfl

/-- A merge without a fault reports what the verdicts call for and appends the routes that they
let in. -/
theorem mergeFrom_account {rs : List RouteRequest} {t : RouteTable}
    (h : (s.mergeFrom (rs.map RouteRequest.read) t).fault = none) :
    diagnosticsOf (s.mergeFrom (rs.map RouteRequest.read) t).events =
      diagnosticsFor (s.accountFrom rs t) ∧
    (s.mergeFrom (rs.map RouteRequest.read) t).table.entries =
      t.entries ++ routesFor (s.accountFrom rs t) := by
  induction rs generalizing t with
  | nil => exact ⟨rfl, (List.append_nil _).symm⟩
  | cons r rs ih =>
    rw [accountFrom_cons h]
    rw [List.map_cons] at h ⊢
    -- a request the merge stops at is excluded by `h`; any other one is a step on the grown table
    obtain ⟨d, fault, -, -, e⟩ | ⟨before, hb, e⟩ := s.mergeFrom_cons r t
    · rw [e] at h; cases h
    · rw [e] at h ⊢
      obtain ⟨events, entries⟩ := ih h
      constructor
      · rw [Growth.events_after, diagnosticsOf_append, hb, events]; rfl
      · rw [Growth.table_after, entries, entries_addAll_verdict, List.append_assoc]; rfl

/-- The account has every request once, in walk order. -/
theorem map_fst_accountFrom (s : Survey) (rs : List RouteRequest) (t : RouteTable) :
    (s.accountFrom rs t).map Prod.fst = rs := by
  refine List.ext_getElem? fun i => ?_
  unfold accountFrom
  rw [List.getElem?_map, List.getElem?_mapIdx, Option.map_map]
  exact Option.map_id'

/-- Only requests without a name are passed over in silence. -/
theorem skipped_iff_of_mem_account {t : RouteTable} {x : RouteRequest × Verdict}
    (h : x ∈ s.account t) : x.2 = .skipped ↔ x.1.name? = none := by
  obtain ⟨i, hi, rfl⟩ := List.mem_mapIdx.1 h
  exact verdict_eq_skipped_iff

/-- The diagnostics of a merge that succeeds account for the table it leaves.  Each request has the
diagnostic of its verdict, with that code and name and at the request's place. -/
theorem merge_account (t : RouteTable) (h : (s.merge t).fault = none) :
    diagnosticsOf (s.merge t).events = diagnosticsFor (s.account t) ∧
    ((diagnosticsOf (s.merge t).events).map fun d => (d.code, d.quoted, d.location)) =
      ((s.account t).filterMap fun x => x.2.charge?.map fun c => (c.1, c.2, x.1.origin)) ∧
    (s.merge t).table.entries = t.entries ++ routesFor (s.account t) ∧
    ((diagnosticsOf (s.merge t).events).filter (·.code = .unresolvedRouteType)).map
        Diagnostic.quoted =
      (((s.merge t).table.entries.drop t.size).filter (·.2.isNone)).map Prod.fst ∧
    s.requests.length = s.requests.countP (·.name?.isNone) +
      (diagnosticsOf (s.merge t).events).countP (·.code = .invalidRouteName) +
      (diagnosticsOf (s.merge t).events).countP (·.code = .duplicateRoute) +
      ((s.merge t).table.entries.drop t.size).length := by
  rw [merge_eq] at h ⊢
  obtain ⟨events, entries⟩ := mergeFrom_account h
  rw [show s.accountFrom s.requests t = s.account t from rfl] at events entries
  -- what the merge added is what stands behind the entries it started from
  have added : routesFor (s.account t) =
      (t.entries ++ routesFor (s.account t)).drop t.size := List.drop_left.symm
  have requests : (s.account t).map Prod.fst = s.requests := s.map_fst_accountFrom s.requests t
  have blanks : s.requests.countP (·.name?.isNone) =
      (s.account t).countP fun x => x.1.name?.isNone := by
    rw [← requests, List.countP_map]; rfl
  have length : s.requests.length = (s.account t).length := by rw [← requests, List.length_map]
  rw [events, entries, ← added]
  refine ⟨rfl, map_notice_diagnosticsFor _, rfl, quoted_diagnosticsFor _, ?_⟩
  rw [blanks, length]
  exact length_account fun x hx => skipped_iff_of_mem_account hx

/-- A name that is no route name, and a name without a type, both asked for by markers without a
place of their own. -/
theorem merge_account_small :
    (small.merge .empty).fault = none ∧
    diagnosticsOf (small.merge .empty).events =
      [.invalidRouteName "Bad!" (some ⟨⟨"Shell.java"⟩, 1⟩),
        .unresolvedRouteType "Help" (some ⟨⟨"Shell.java"⟩, 1⟩)] ∧
    ((diagnosticsOf (small.merge .empty).events).map fun d => (d.code, d.quoted, d.location)) =
      [(.invalidRouteName, "Bad!", some ⟨⟨"Shell.java"⟩, 1⟩),
        (.unresolvedRouteType, "Help", some ⟨⟨"Shell.java"⟩, 1⟩)] := by
  have h : (small.merge .empty).fault = none := rfl
  obtain ⟨events, notices, -, -, -⟩ := merge_account .empty h
  exact ⟨h, events.trans (by decide +kernel), notices.trans (by decide +kernel)⟩

end Survey

end RouteRegistry
