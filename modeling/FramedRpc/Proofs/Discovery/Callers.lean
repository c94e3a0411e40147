import FramedRpc.Proofs.Discovery.Selections

/-!
# Callers that share a directory

Any number of lookups may be under way in one directory. Each of them first asks the registry, which
may change in the meantime, and then chooses under the lock of the balancer, so choices come one
after the other. A balancer that takes turns therefore serves its callers fairly from wherever its
cursor was left: while one list is chosen from, its positions are visited in a circle. Who chooses
when, and how soon, is left open.
-/

namespace FramedRpc

/-- A choice that was made, and from which endpoints. -/
structure Choice where
  endpoints : List Endpoint
  answer : Option Endpoint

/-- A directory that callers share. -/
structure Callers (σ : Type) where
  directory : Directory σ
  /-- The endpoints that were found in lookups under way, from which nothing was chosen yet. -/
  found : List (List Endpoint)
  /-- The choices that were made, in order. -/
  choices : List Choice

namespace Callers

variable {σ : Type} {s s' : Callers σ}

/-- What callers do, and others do to the registry. -/
inductive Event (σ : Type) where
  /-- The registry is asked; a lookup that finds no endpoint is over. -/
  | ask (service : String)
  /-- One of the lookups under way gets the lock. -/
  | choose (i : Nat)
  /-- The contents of the registry change. -/
  | change (contents : σ)

variable {event : Event σ} {events : List (Event σ)}

def step (s : Callers σ) : Event σ → Option (Callers σ)
  | .ask service =>
    match s.directory.query service with
    | (.ok (e :: others), directory) =>
      some { s with directory, found := s.found ++ [e :: others] }
    | (_, directory) => some { s with directory }
  | .choose i => do
    let endpoints ← s.found[i]?
    let (answer, balancer) := s.directory.balancer.select endpoints
    return ⟨{ s.directory with balancer }, s.found.eraseIdx i, s.choices ++ [⟨endpoints, answer⟩]⟩
  | .change contents => some { s with directory := { s.directory with contents } }

def steps (s : Callers σ) (events : List (Event σ)) : Option (Callers σ) := events.foldlM step s

/-- A lookup that nobody comes in between asks the registry and chooses at once. -/
theorem steps_lookup {service : String} {e : Endpoint} {after : Directory σ}
    (h : s.directory.lookup service = (.ok e, after)) :
    ∃ endpoints, (s.directory.query service).1 = .ok endpoints ∧
      s.steps [.ask service, .choose s.found.length] =
        some ⟨after, s.found, s.choices ++ [⟨endpoints, some e⟩]⟩ := by
  unfold Directory.lookup at h
  split at h
  case h_1 => cases (Prod.mk.inj h).1
  case h_2 endpoints asked hquery =>
    split at h
    case h_1 chosen balancer hselect =>
      obtain ⟨hchosen, rfl⟩ := Prod.mk.inj h
      obtain rfl := Except.ok.inj hchosen
      refine ⟨endpoints, congrArg Prod.fst hquery, ?_⟩
      cases endpoints with
      | nil => cases hselect
      | cons first others =>
        have hrest : (s.found ++ [first :: others]).eraseIdx s.found.length = s.found := by
          rw [List.eraseIdx_append_of_length_le (Nat.le_refl _), Nat.sub_self,
            List.eraseIdx_cons_zero, List.append_nil]
        simp [steps, step, hquery, hselect, hrest]
    case h_2 => cases (Prod.mk.inj h).1

/-! ## Choices one after the other -/

/-- Some choices were made on from those before, as one caller would have made them all. -/
structure GoesOn (s : Callers σ) (made : List Choice) (s' : Callers σ) : Prop where
  choices : s'.choices = s.choices ++ made
  answers : made.map Choice.answer = s.directory.balancer.selectAll (made.map Choice.endpoints)
  balancer : s'.directory.balancer = s.directory.balancer.afterAll (made.map Choice.endpoints)

theorem goesOn_nil (hchoices : s'.choices = s.choices)
    (hbalancer : s'.directory.balancer = s.directory.balancer) : s.GoesOn [] s' :=
  ⟨hchoices.trans (List.append_nil _).symm, rfl, hbalancer⟩

theorem GoesOn.trans {made more : List Choice} {last : Callers σ} (h : s.GoesOn made s')
    (hnext : s'.GoesOn more last) : s.GoesOn (made ++ more) last where
  choices := by rw [hnext.choices, h.choices, List.append_assoc]
  answers := by simp [h.answers, hnext.answers, h.balancer]
  balancer := by simp [hnext.balancer, h.balancer]

theorem exists_goesOn_of_step (h : s.step event = some s') : ∃ made, s.GoesOn made s' := by
  cases event with
  | ask service =>
    -- a query may change the registry, but not the balancer
    have hbalancer : (s.directory.query service).2.balancer = s.directory.balancer := rfl
    simp only [step] at h
    split at h
    all_goals
      rename_i hquery
      rw [hquery] at hbalancer
      obtain rfl := Option.some.inj h
      exact ⟨[], goesOn_nil rfl hbalancer⟩
  | choose i =>
    obtain ⟨endpoints, -, h⟩ := Option.bind_eq_some_iff.mp h
    obtain rfl := Option.some.inj h
    exact ⟨[⟨endpoints, (s.directory.balancer.select endpoints).1⟩], rfl, rfl, rfl⟩
  | change contents =>
    obtain rfl := Option.some.inj h
    exact ⟨[], goesOn_nil rfl rfl⟩

/-- However lookups are interleaved, the choices are those of one caller who makes them all. -/
theorem exists_goesOn_of_steps (h : s.steps events = some s') : ∃ made, s.GoesOn made s' := by
  induction events generalizing s with
  | nil =>
    obtain rfl := Option.some.inj h
    exact ⟨[], goesOn_nil rfl rfl⟩
  | cons event events ih =>
    obtain ⟨b, hstep, hsteps⟩ := Option.bind_eq_some_iff.mp h
    obtain ⟨first, hfirst⟩ := exists_goesOn_of_step hstep
    obtain ⟨others, hothers⟩ := ih hsteps
    exact ⟨first ++ others, hfirst.trans hothers⟩

end Callers

namespace Balancer

/-- What is true of turns from a cursor on. -/
structure Fair (cursor : Nat) : Prop where
  /-- From an empty list nothing is chosen, and the cursor stays. -/
  nothing : (roundRobin cursor).select [] = (none, .roundRobin cursor)
  /-- From any other list the endpoint is chosen at a position inside it, and the cursor moves
  behind that. -/
  inside : ∀ endpoints : List Endpoint, endpoints ≠ [] →
    ∃ h : reduced cursor endpoints.length < endpoints.length, (roundRobin cursor).select endpoints =
      (some endpoints[reduced cursor endpoints.length],
        .roundRobin (reduced cursor endpoints.length + 1))
  /-- Choices from one list visit its positions in a circle. -/
  round : ∀ endpoints : List Endpoint, endpoints ≠ [] → ∀ m,
    (roundRobin cursor).selectAll (List.replicate m endpoints) =
      (positions cursor endpoints.length m).map (endpoints[·]?)
  visited : ∀ n m, 0 < n → ∀ p ∈ positions cursor n m, p < n
  even : ∀ n m, ∀ i < n, (positions cursor n m).count i = m / n ∨
    (positions cursor n m).count i = (m + n - 1) / n
  /-- Callers that share a directory make such choices together. -/
  shared : ∀ {σ : Type} {s s' : Callers σ} {events : List (Callers.Event σ)},
    s.directory.balancer = .roundRobin cursor → s.steps events = some s' →
      ∃ made, s'.choices = s.choices ++ made ∧ ∀ endpoints : List Endpoint, endpoints ≠ [] →
        (∀ choice ∈ made, choice.endpoints = endpoints) →
          made.map Choice.answer =
            (positions cursor endpoints.length made.length).map (endpoints[·]?)

theorem fair (cursor : Nat) : Fair cursor where
  nothing := rfl
  inside endpoints hsome := by
    have hlt : reduced cursor endpoints.length < endpoints.length := by
      rw [reduced_eq_mod]
      exact Nat.mod_lt cursor (List.length_pos_iff.mpr hsome)
    refine ⟨hlt, ?_⟩
    rw [select_roundRobin cursor hsome, ← reduced_eq_mod, List.getElem?_eq_getElem hlt]
  round endpoints hsome m := selectAll_replicate cursor m hsome
  visited n m hn p := lt_of_mem_positions hn
  even n m i hi := count_positions_eq_or hi m
  shared := by
    intro σ s s' events hcursor h
    obtain ⟨made, hmade⟩ := Callers.exists_goesOn_of_steps h
    refine ⟨made, hmade.choices, fun endpoints hsome hsame ↦ ?_⟩
    have hlists : made.map Choice.endpoints = List.replicate made.length endpoints :=
      List.map_eq_replicate_iff.mpr hsame
    rw [hmade.answers, hcursor, hlists, selectAll_replicate cursor made.length hsome]

/-- Whatever a balancer has chosen from before, its cursor fits into the lists, and the turns from
there on are fair. -/
theorem fair_afterAll (lists : List (List Endpoint)) : ∃ cursor,
    (roundRobin 0).afterAll lists = .roundRobin cursor ∧
      (cursor = 0 ∨ ∃ endpoints ∈ lists, cursor ≤ endpoints.length) ∧ Fair cursor := by
  obtain ⟨cursor, hcursor, hbound⟩ := exists_afterAll_roundRobin lists 0
  exact ⟨cursor, hcursor, hbound, fair cursor⟩

end Balancer

end FramedRpc
