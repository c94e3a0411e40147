import FramedRpc.Discovery.Registry
import FramedRpc.Proofs.Lists

/-!
# What registries answer

The registry in memory keeps the endpoints of each service apart from those of all others. Of a
registry in general no more is asked than that a registration which is refused changes no answer,
and that one which is accepted changes only what is answered for its service.
-/

namespace FramedRpc

/-! ## The registry in memory -/

namespace Registry

/-- The endpoints of one service are set, and those of all others stay. -/
@[simp]
theorem query_put (r : Registry) (service : String) (endpoints : List Endpoint) (name : String) :
    (r.put service endpoints).query name = if name = service then endpoints else r.query name := by
  unfold put query
  split
  case isTrue hempty =>
    rw [lookup_filter_ne]
    split
    case isTrue => exact (List.isEmpty_iff.mp hempty).symm
    case isFalse => rfl
  case isFalse =>
    rw [List.lookup_append, lookup_filter_ne]
    split
    case isTrue hname => simp [hname]
    case isFalse hname => simp [List.lookup_cons, beq_false_of_ne hname]

/-- An endpoint that a service does not have is added behind those that it has. -/
theorem query_register (r : Registry) (service : String) (e : Endpoint) (name : String) :
    (r.register service e).query name =
      if name = service ∧ e ∉ r.query name then r.query name ++ [e] else r.query name := by
  unfold register
  split
  case isTrue hknown =>
    have hmem : e ∈ r.query service := List.contains_iff_mem.mp hknown
    rw [if_neg]
    rintro ⟨rfl, hnew⟩
    exact hnew hmem
  case isFalse hnew =>
    have hmem : e ∉ r.query service := fun hmem ↦ hnew (List.contains_iff_mem.mpr hmem)
    by_cases hname : name = service
    case pos =>
      subst hname
      simp [hmem]
    case neg => simp [hname]

/-- An endpoint is taken from one service, whether or not it has it. -/
@[simp]
theorem query_deregister (r : Registry) (service : String) (e : Endpoint) (name : String) :
    (r.deregister service e).query name =
      if name = service then (r.query name).filter fun other ↦ other ≠ e else r.query name := by
  by_cases hname : name = service <;> simp [deregister, hname]

/-! ### The names of the services -/

/-- Each service stands once in the registry, and none without an endpoint. -/
structure Tidy (r : Registry) : Prop where
  nodup : (r.services.map Prod.fst).Nodup
  ne_nil : ∀ entry ∈ r.services, entry.2 ≠ []

theorem tidy_empty : empty.Tidy := ⟨List.nodup_nil, nofun⟩

theorem Tidy.put {r : Registry} (h : r.Tidy) (service : String) (endpoints : List Endpoint) :
    (r.put service endpoints).Tidy := by
  have hothers : Tidy ⟨r.services.filter fun entry ↦ entry.1 ≠ service⟩ :=
    ⟨h.nodup.sublist (List.filter_sublist.map _),
      fun entry hentry ↦ h.ne_nil entry (List.mem_filter.mp hentry).1⟩
  unfold Registry.put
  split
  case isTrue => exact hothers
  case isFalse hsome =>
    refine ⟨?_, fun entry hentry ↦ ?_⟩
    · rw [List.map_append, List.nodup_append]
      refine ⟨hothers.nodup, List.pairwise_singleton _ service, fun name hname other hother ↦ ?_⟩
      obtain ⟨entry, hentry, rfl⟩ := List.mem_map.mp hname
      obtain rfl : other = service := List.mem_singleton.mp hother
      simpa using (List.mem_filter.mp hentry).2
    · rcases List.mem_append.mp hentry with hbefore | hnew
      · exact hothers.ne_nil entry hbefore
      · obtain rfl := List.mem_singleton.mp hnew
        exact fun hempty ↦ hsome (List.isEmpty_iff.mpr hempty)

theorem Tidy.register {r : Registry} (h : r.Tidy) (service : String) (e : Endpoint) :
    (r.register service e).Tidy := by
  unfold Registry.register
  split
  case isTrue => exact h
  case isFalse => exact h.put service _

theorem Tidy.deregister {r : Registry} (h : r.Tidy) (service : String) (e : Endpoint) :
    (r.deregister service e).Tidy := h.put service _

/-- The names are those of the services that have endpoints. -/
theorem Tidy.mem_names_iff {r : Registry} (h : r.Tidy) (name : String) :
    name ∈ r.names ↔ r.query name ≠ [] := by
  unfold names query
  rw [List.mem_mergeSort, List.mem_map]
  constructor
  · rintro ⟨⟨service, endpoints⟩, hentry, rfl⟩
    rw [lookup_eq_some_of_mem h.nodup hentry]
    exact h.ne_nil _ hentry
  · intro hsome
    cases hlookup : r.services.lookup name with
    | none =>
      rw [hlookup] at hsome
      exact absurd rfl hsome
    | some endpoints => exact ⟨_, mem_of_lookup_eq_some hlookup, rfl⟩

/-- The names ascend, so that none of them stands twice. -/
theorem Tidy.pairwise_names {r : Registry} (h : r.Tidy) : r.names.Pairwise (· < ·) :=
  pairwise_lt_sorted h.nodup

end Registry

/-! ## Registries in general -/

namespace Backend

variable {σ : Type} {b : Backend σ}

/-- What a registry answers to a query. -/
def answer (b : Backend σ) (service : String) (s : σ) : Except Fault (List Endpoint) :=
  (b.query service s).1

/-- A query leaves a registry as it was. -/
def Reads (b : Backend σ) : Prop := ∀ service s, (b.query service s).2 = s

/-- A registry does not answer that a response is mistaken for another one. -/
def Honest (b : Backend σ) : Prop :=
  ∀ service s fault, b.answer service s = .error fault → fault.kind ≠ .responseMismatch

/-- A registration changes no answer if it is refused, and else none for another service. -/
structure Lawful (b : Backend σ) : Prop where
  refused : ∀ {service : String} {e : Endpoint} {s s' : σ} {fault : Fault},
    b.register service e s = (.error fault, s') → ∀ name, b.answer name s' = b.answer name s
  others : ∀ {service : String} {e : Endpoint} {s s' : σ},
    b.register service e s = (.ok (), s') →
      ∀ name, name ≠ service → b.answer name s' = b.answer name s

/-- An endpoint that was registered for a service is among those that are answered for it. -/
def Keeps (b : Backend σ) : Prop :=
  ∀ {service : String} {e : Endpoint} {s s' : σ}, b.register service e s = (.ok (), s') →
    ∀ endpoints, b.answer service s' = .ok endpoints → e ∈ endpoints

theorem lawful_memory : memory.Lawful where
  refused h := by cases h
  others h name hname := by
    obtain ⟨-, rfl⟩ := Prod.mk.inj h
    refine congrArg Except.ok ?_
    rw [Registry.query_register, if_neg fun hnew ↦ hname hnew.1]

theorem keeps_memory : memory.Keeps := by
  intro service e r r' h endpoints hendpoints
  obtain ⟨-, rfl⟩ := Prod.mk.inj h
  obtain rfl := Except.ok.inj hendpoints
  rw [Registry.query_register]
  split
  case isTrue => exact List.mem_append_right _ List.mem_cons_self
  case isFalse hknown => exact not_not.mp fun hnew ↦ hknown ⟨rfl, hnew⟩

/-! ## Registries that refuse -/

variable {refuses : Operation → String → Bool} {service name : String} {e : Endpoint} {s s' : σ}

/-- What is not refused is left to the other registry. -/
theorem register_of_refusing {result : Except Fault Unit}
    (h : (b.refusing refuses).register service e s = (result, s')) :
    b.register service e s = (result, s') ∨ result ≠ .ok () ∧ s' = s := by
  replace h : (if refuses .register service then _ else _) = _ := h
  split at h
  case isTrue =>
    obtain ⟨rfl, rfl⟩ := Prod.mk.inj h
    exact .inr ⟨nofun, rfl⟩
  case isFalse => exact .inl h

theorem register_of_refusing_ok (h : (b.refusing refuses).register service e s = (.ok (), s')) :
    b.register service e s = (.ok (), s') :=
  (register_of_refusing h).resolve_right fun hrefused ↦ hrefused.1 rfl

@[simp]
theorem answer_refusing (b : Backend σ) (refuses : Operation → String → Bool) (name : String)
    (s : σ) : (b.refusing refuses).answer name s =
      if refuses .query name then .error (.registry ("query " ++ name)) else b.answer name s :=
  apply_ite Prod.fst _ _ _

theorem answer_refusing_congr (h : b.answer name s' = b.answer name s) :
    (b.refusing refuses).answer name s' = (b.refusing refuses).answer name s := by
  simp [h]

theorem Lawful.refusing (h : b.Lawful) (refuses : Operation → String → Bool) :
    (b.refusing refuses).Lawful where
  refused hregister name := by
    rcases register_of_refusing hregister with hleft | ⟨-, rfl⟩
    · exact answer_refusing_congr (h.refused hleft name)
    · rfl
  others hregister name hname :=
    answer_refusing_congr (h.others (register_of_refusing_ok hregister) name hname)

theorem Keeps.refusing (h : b.Keeps) (refuses : Operation → String → Bool) :
    (b.refusing refuses).Keeps := by
  intro service e s s' hregister endpoints hendpoints
  rw [answer_refusing] at hendpoints
  split at hendpoints
  case isTrue => cases hendpoints
  case isFalse => exact h (register_of_refusing_ok hregister) endpoints hendpoints

/-- The registries that there are. -/
inductive Provided : {σ : Type} → Backend σ → Prop
  | memory : Provided memory
  | fixed (endpoints : List Endpoint) : Provided (fixed endpoints)
  | refusing {σ : Type} {b : Backend σ} (h : Provided b) (refuses : Operation → String → Bool) :
    Provided (b.refusing refuses)

theorem Provided.reads (h : b.Provided) : b.Reads := by
  induction h with
  | memory => exact fun _ _ ↦ rfl
  | fixed => exact fun _ _ ↦ rfl
  | refusing _ refuses ih =>
    intro service s
    show (ite _ _ _ : _ × _).2 = s
    split
    case isTrue => rfl
    case isFalse => exact ih service s

theorem Provided.honest (h : b.Provided) : b.Honest := by
  induction h with
  | memory => exact fun _ _ _ hfault ↦ by cases hfault
  | fixed => exact fun _ _ _ hfault ↦ by cases hfault
  | refusing _ refuses ih =>
    intro service s fault hfault
    rw [answer_refusing] at hfault
    split at hfault
    case isTrue =>
      obtain rfl := Except.error.inj hfault
      nofun
    case isFalse => exact ih service s fault hfault

end Backend

end FramedRpc
