import IndexerProcessors.Reputation.Enrichment

/-!
# Screening a batch of addresses

`hypernative.rs`: one call of `screen_evms`, cut where it waits. It filters out
the sentinel, asks the client's cache about each address, sends the uncached
ones in one request, puts them into the cache when the response parses, and then
saves a score for each address that is not a cache hit. A failed request makes
the whole batch a retry.

The cache is keyed by lowercased addresses, results are matched to addresses
ignoring ASCII case, and the database is keyed by the address as it came.
`to_lowercase` is a parameter: Lean's own covers ASCII only.
-/

namespace IndexerProcessors.Screening

open IndexerProcessors.Reputation

/-- `str::eq_ignore_ascii_case`. -/
def eqIgnoreAsciiCase (a b : String) : Bool := a.toLower = b.toLower

/-- A row of `evm_address_risk_scores`. -/
structure EvmRiskScore where
  evmAddress : String
  riskScore : ℚ
  riskLabel : String
  source : String
  recommendation : String
  severity : String
  fetchedAt : NaiveDateTime
  toBeUpdated : Bool
  deriving DecidableEq, Repr

/-- `error_score`. -/
def errorScore (now : NaiveDateTime) (evm : String) : EvmRiskScore where
  evmAddress := evm
  riskScore := 0
  riskLabel := "hypernative"
  source := "not available"
  recommendation := "not available"
  severity := "not available"
  fetchedAt := now
  toBeUpdated := true

/-- What the scores read of a `HypernativeResult`. -/
structure HypernativeResult where
  address : String
  recommendation : String
  severity : String
  duplicate : Bool
  deriving DecidableEq, Repr

/-- `compute_risk_score`. -/
def computeRiskScore (toLowercase : String → String) (now : NaiveDateTime) (evm : String)
    (result : HypernativeResult) (source : String) : EvmRiskScore where
  evmAddress := evm
  riskScore :=
    let rec' : ℚ :=
      if eqIgnoreAsciiCase result.recommendation "deny" then 1
      else if eqIgnoreAsciiCase result.recommendation "not available" then 0
      else 1 / 10
    let sev : ℚ :=
      match toLowercase result.severity with
      | "high" => 9 / 10
      | "medium" => 6 / 10
      | "low" => 4 / 10
      | _ => 1 / 10
    rec' + sev
  riskLabel := "hypernative"
  source := source
  recommendation := result.recommendation
  severity := result.severity
  fetchedAt := now
  toBeUpdated := false

/-! ## `fetch_batch` -/

/-- The placeholder for a cache hit. -/
def cacheHit (addr : String) : HypernativeResult := ⟨addr, "", "", true⟩

/-- What comes back for a request: nothing usable (no connection, a status that
is not a success, `429` among them, or a body that is not JSON), or a body. -/
inductive Response where
  | failed
  | body (json : Json)

/-- One entry of the response's `data`. -/
def parseEntry (entry : Json) : Except String HypernativeResult := do
  let getStr := fun key => (entry.get key).bind Json.asStr
  let address := (getStr "address").getD ""
  let recommendation ← match getStr "recommendation" with
    | some r => .ok r
    | none => .error ("malformed Hypernative response: 'recommendation' missing for " ++ address)
  let severity ← match getStr "severity" with
    | some s => .ok s
    | none => .error ("malformed Hypernative response: 'severity' missing for " ++ address)
  return { address, recommendation, severity, duplicate := false }

/-- The end of `fetch_batch`: the results and the keys to put into the cache, or
`none` for an error. A body without `data` yields the cache hits only and caches
nothing. -/
def handleResponse (toLowercase : String → String) (results : List HypernativeResult)
    (toProcess : List String) : Response → Option (List HypernativeResult × List String)
  | .failed => none
  | .body json =>
    match (json.get "data").bind Json.asArray with
    | none => some (results, [])
    | some data =>
      match data.mapM parseEntry with
      | .error _ => none
      | .ok newResults => some (results ++ newResults, toProcess.map toLowercase)

/-! ## `screen_evms` -/

/-- The addresses that are screened at all. -/
def screenAddrs (evms : List String) : List String := evms.filter (· ≠ evmNullSentinel)

/-- The result of an address the response leaves out. -/
def notAvailable (evm : String) : HypernativeResult :=
  ⟨evm, "not available", "not available", false⟩

/-- What the loop of `screen_evms` goes on to save: an address with its result,
unless that is a cache hit. -/
def scoresToSave (results : List HypernativeResult) (addrs : List String) :
    List (String × HypernativeResult) :=
  addrs.filterMap fun evm =>
    match results.find? fun r => eqIgnoreAsciiCase r.address evm with
    | none => some (evm, notAvailable evm)
    | some r => if r.duplicate then none else some (evm, r)

theorem mem_screenAddrs {evms : List String} {a : String} :
    a ∈ screenAddrs evms ↔ a ∈ evms ∧ a ≠ evmNullSentinel := by
  simp [screenAddrs]

/-- A screened address is saved, or skipped for a cache hit. -/
theorem mem_scoresToSave (results : List HypernativeResult) {addrs : List String} {a : String}
    (h : a ∈ addrs) :
    (∃ r, (a, r) ∈ scoresToSave results addrs) ∨
      ∃ r ∈ results, r.duplicate = true ∧ eqIgnoreAsciiCase r.address a = true := by
  cases hf : results.find? fun r => eqIgnoreAsciiCase r.address a with
  | none => exact Or.inl ⟨notAvailable a, List.mem_filterMap.mpr ⟨a, h, by rw [hf]⟩⟩
  | some r =>
    by_cases hd : r.duplicate = true
    · exact Or.inr ⟨r, List.mem_of_find?_eq_some hf, hd, by simpa using List.find?_some hf⟩
    · exact Or.inl ⟨r, List.mem_filterMap.mpr ⟨a, h, by rw [hf]; simp [hd]⟩⟩

/-- Only addresses of the batch are saved. -/
theorem mem_addrs_of_mem_scoresToSave {results : List HypernativeResult} {addrs : List String}
    {p : String × HypernativeResult} (h : p ∈ scoresToSave results addrs) : p.1 ∈ addrs := by
  obtain ⟨evm, hmem, hp⟩ := List.mem_filterMap.mp h
  split at hp
  next =>
    obtain rfl := Option.some.inj hp
    exact hmem
  next =>
    split at hp
    next => cases hp
    next =>
      obtain rfl := Option.some.inj hp
      exact hmem

/-- A parsed entry is not a cache hit. -/
theorem duplicate_parseEntry {entry : Json} {r : HypernativeResult} (h : parseEntry entry = .ok r) :
    r.duplicate = false := by
  simp only [parseEntry, bind, Except.bind, pure, Except.pure] at h
  split at h
  next =>
    split at h
    next =>
      obtain rfl := Except.ok.inj h
      rfl
    next => cases h
  next => cases h

/-- A list that parses does so entry by entry. -/
theorem exists_of_mem_parseData :
    ∀ {data : List Json} {results : List HypernativeResult}, data.mapM parseEntry = .ok results →
      ∀ r ∈ results, ∃ entry ∈ data, parseEntry entry = .ok r := by
  intro data
  induction data with
  | nil =>
    intro results h r hr
    obtain rfl := Except.ok.inj h
    cases hr
  | cons entry data ih =>
    intro results h r hr
    rw [List.mapM_cons] at h
    cases hfirst : parseEntry entry with
    | error e =>
      rw [hfirst] at h
      cases h
    | ok first =>
      cases hrest : data.mapM parseEntry with
      | error e =>
        rw [hfirst, hrest] at h
        cases h
      | ok rest =>
        rw [hfirst, hrest] at h
        obtain rfl := Except.ok.inj h
        rcases List.mem_cons.mp hr with rfl | hr
        · exact ⟨entry, List.mem_cons_self .., hfirst⟩
        · obtain ⟨e, he, hp⟩ := ih hrest r hr
          exact ⟨e, List.mem_cons_of_mem _ he, hp⟩

/-- The cache hits among the results of a request were there before it. -/
theorem duplicate_of_handleResponse {toLowercase : String → String}
    {results results' : List HypernativeResult} {toProcess toCache : List String}
    {response : Response}
    (h : handleResponse toLowercase results toProcess response = some (results', toCache)) :
    (∀ r ∈ results', r.duplicate = true → r ∈ results) ∧
      ∀ k ∈ toCache, ∃ a ∈ toProcess, k = toLowercase a := by
  cases response with
  | failed => cases h
  | body json =>
    simp only [handleResponse] at h
    split at h
    next =>
      obtain ⟨rfl, rfl⟩ := Prod.mk.inj (Option.some.inj h)
      exact ⟨fun r hr _ => hr, (fun _ hk => nomatch hk)⟩
    next data _ =>
      split at h
      next => cases h
      next newResults hparse =>
        obtain ⟨rfl, rfl⟩ := Prod.mk.inj (Option.some.inj h)
        refine ⟨fun r hr hd => ?_, fun k hk => ?_⟩
        · rcases List.mem_append.mp hr with hr | hr
          · exact hr
          · obtain ⟨entry, _, he⟩ := exists_of_mem_parseData hparse r hr
            rw [duplicate_parseEntry he] at hd
            cases hd
        · obtain ⟨a, ha, rfl⟩ := List.mem_map.mp hk
          exact ⟨a, ha, rfl⟩

end IndexerProcessors.Screening
