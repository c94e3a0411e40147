import FramedRpc.Proofs.Discovery.Selections

/-!
# Lookups that fail

A lookup chooses among the endpoints that the registry knows at the time. It fails where the
registry does, or where there is no endpoint, and then it leaves the directory as it was, if queries
do so with the registry. As the balancer is shared by all services, a choice made for a lookup that
fails would move the answers of the lookups behind it; there is none, so without the lookups that
failed everything would have gone the same way.
-/

namespace FramedRpc.Directory

variable {σ : Type}

/-! ## One lookup -/

/-- What a lookup does to a directory. -/
inductive Outcome (d : Directory σ) (service : String) :
    Except Fault Endpoint × Directory σ → Prop where
  | refused {fault : Fault} {asked : Directory σ}
    (hquery : d.query service = (.error fault, asked)) :
      Outcome d service (.error fault, asked)
  | nothing {asked : Directory σ} (hquery : d.query service = (.ok [], asked)) :
      Outcome d service (.error (.serviceNotFound service), asked)
  | chosen {endpoints : List Endpoint} {e : Endpoint} {asked : Directory σ}
      (hquery : d.query service = (.ok endpoints, asked)) (hmem : e ∈ endpoints)
      (balancer : Balancer) : Outcome d service (.ok e, { asked with balancer })

theorem outcome_lookup (d : Directory σ) (service : String) :
    d.Outcome service (d.lookup service) := by
  unfold lookup
  split
  case h_1 fault asked hquery => exact .refused hquery
  case h_2 endpoints asked hquery =>
    by_cases hsome : endpoints = []
    case pos =>
      subst hsome
      rw [Balancer.select_nil]
      exact .nothing hquery
    case neg =>
      obtain ⟨e, hmem, after, hselect⟩ := asked.balancer.exists_mem_select hsome
      rw [hselect]
      exact .chosen hquery hmem after

/-- What a lookup answers where the registry answers its query in some way. -/
structure Resolves (service : String) (queried : Except Fault (List Endpoint))
    (answer : Except Fault Endpoint) : Prop where
  succeeds : (∃ e, answer = .ok e) ↔ ∃ endpoints, queried = .ok endpoints ∧ endpoints ≠ []
  /-- The endpoint is one of those that the registry knows. -/
  member : ∀ e, answer = .ok e → ∃ endpoints, queried = .ok endpoints ∧ e ∈ endpoints
  nothing : queried = .ok [] → answer = .error (.serviceNotFound service)
  /-- The registry's own fault is passed on. -/
  refused : ∀ fault, queried = .error fault → answer = .error fault

variable {d : Directory σ} {service : String} {result : Except Fault Endpoint × Directory σ}

theorem Outcome.resolves (h : d.Outcome service result) :
    Resolves service (d.query service).1 result.1 := by
  cases h with
  | refused hquery =>
    rw [hquery]
    exact ⟨⟨nofun, nofun⟩, nofun, nofun, fun _ heq ↦ Except.error.inj heq ▸ rfl⟩
  | nothing hquery =>
    rw [hquery]
    exact ⟨⟨nofun, fun ⟨_, heq, hsome⟩ ↦ absurd (Except.ok.inj heq).symm hsome⟩, nofun,
      fun _ ↦ rfl, nofun⟩
  | @chosen endpoints e asked hquery hmem balancer =>
    rw [hquery]
    have hsome : endpoints ≠ [] := List.ne_nil_of_mem hmem
    exact ⟨⟨fun _ ↦ ⟨endpoints, rfl, hsome⟩, fun _ ↦ ⟨e, rfl⟩⟩,
      fun _ heq ↦ ⟨endpoints, rfl, Except.ok.inj heq ▸ hmem⟩,
      fun heq ↦ absurd (Except.ok.inj heq) hsome, nofun⟩

/-- Where queries only read, a lookup that fails leaves the directory as it was. -/
theorem Outcome.unmoved {fault : Fault} (h : d.Outcome service result) (hreads : d.backend.Reads)
    (hfailed : result.1 = .error fault) : result.2 = d := by
  have hasked : (d.query service).2 = d := congrArg Prod.snd (query_of_reads hreads service)
  cases h with
  | refused hquery =>
    rw [hquery] at hasked
    exact hasked
  | nothing hquery =>
    rw [hquery] at hasked
    exact hasked
  | chosen => cases hfailed

/-- A lookup reports a mismatch only where its registry does. -/
theorem lookup_ne_mismatch (hhonest : d.backend.Honest) {fault : Fault}
    (h : (d.lookup service).1 = .error fault) : fault.kind ≠ .responseMismatch := by
  have houtcome := d.outcome_lookup service
  cases hresult : d.lookup service with
  | mk answer after =>
    rw [hresult] at h houtcome
    cases houtcome with
    | refused hquery =>
      obtain rfl := Except.error.inj h
      exact hhonest service d.contents _ (congrArg Prod.fst hquery)
    | nothing =>
      obtain rfl := Except.error.inj h
      nofun
    | chosen => cases h

/-! ## Operations one after the other -/

inductive Operation where
  | register (service : String) (e : Endpoint)
  | deregister (service : String) (e : Endpoint)
  | lookup (service : String)

inductive Answer where
  | changed (result : Except Fault Unit)
  | found (result : Except Fault Endpoint)

def Answer.missed : Answer → Bool
  | .found (.error _) => true
  | _ => false

def perform (d : Directory σ) : Operation → Answer × Directory σ
  | .register service e => (d.register service e).map .changed id
  | .deregister service e => (d.deregister service e).map .changed id
  | .lookup service => (d.lookup service).map .found id

/-- An operation with its answer, and the directory before and after it. -/
structure Performed (σ : Type) where
  before : Directory σ
  operation : Operation
  answer : Answer
  after : Directory σ

def history (d : Directory σ) : List Operation → List (Performed σ)
  | [] => []
  | operation :: operations =>
    let (answer, after) := d.perform operation
    ⟨d, operation, answer, after⟩ :: after.history operations

def afterAll (d : Directory σ) (operations : List Operation) : Directory σ :=
  operations.foldl (fun d operation ↦ (d.perform operation).2) d

def withoutMisses (d : Directory σ) (operations : List Operation) : List Operation :=
  ((d.history operations).filter (!·.answer.missed)).map Performed.operation

/-- What is true of operations in a directory whose registry is only read by queries. -/
structure MissesUnseen (d : Directory σ) (operations : List Operation) : Prop where
  asked : (d.history operations).map Performed.operation = operations
  resolved : ∀ p ∈ d.history operations, ∀ service, p.operation = .lookup service →
    ∃ answer, p.answer = .found answer ∧ Resolves service (p.before.query service).1 answer
  unmoved : ∀ p ∈ d.history operations, p.answer.missed → p.after = p.before
  /-- Without the lookups that fail, the others find the same directory and get the same answers. -/
  removed : d.history (d.withoutMisses operations) =
    (d.history operations).filter (!·.answer.missed)
  left : d.afterAll (d.withoutMisses operations) = d.afterAll operations

variable {p : Performed σ} {operation : Operation} {operations : List Operation}

theorem perform_of_mem_history (h : p ∈ d.history operations) :
    p.before.perform p.operation = (p.answer, p.after) := by
  induction operations generalizing d with
  | nil => cases h
  | cons operation operations ih =>
    cases h with
    | head => rfl
    | tail _ hmem => exact ih hmem

@[simp]
theorem backend_lookup (d : Directory σ) (service : String) :
    (d.lookup service).2.backend = d.backend := by
  unfold lookup
  have hasked : (d.query service).2.backend = d.backend := rfl
  split
  case h_1 hquery =>
    rw [hquery] at hasked
    exact hasked
  case h_2 hquery =>
    rw [hquery] at hasked
    split <;> exact hasked

@[simp]
theorem backend_perform (d : Directory σ) (operation : Operation) :
    (d.perform operation).2.backend = d.backend := by
  cases operation with
  | register | deregister => rfl
  | lookup service => simp [perform]

theorem backend_of_mem_history (h : p ∈ d.history operations) :
    p.before.backend = d.backend := by
  induction operations generalizing d with
  | nil => cases h
  | cons operation operations ih =>
    cases h with
    | head => rfl
    | tail _ hmem => exact (ih hmem).trans (d.backend_perform operation)

theorem unmoved_of_missed (hreads : d.backend.Reads) (hmissed : (d.perform operation).1.missed) :
    (d.perform operation).2 = d := by
  cases operation with
  | register | deregister => cases hmissed
  | lookup service =>
    cases hanswer : (d.lookup service).1 with
    | error fault => exact (d.outcome_lookup service).unmoved hreads hanswer
    | ok e =>
      have hfound : (d.perform (.lookup service)).1 = .found (.ok e) := congrArg _ hanswer
      rw [hfound] at hmissed
      cases hmissed

@[simp]
theorem map_operation_history (d : Directory σ) (operations : List Operation) :
    (d.history operations).map Performed.operation = operations := by
  induction operations generalizing d with
  | nil => rfl
  | cons operation operations ih => exact congrArg _ (ih _)

/-- The history and what is left of it are compared operation by operation: a lookup that fails is
left out, and what follows it begins with the directory it found. -/
theorem history_and_afterAll_withoutMisses (hreads : d.backend.Reads)
    (operations : List Operation) :
    d.history (d.withoutMisses operations) = (d.history operations).filter (!·.answer.missed) ∧
      d.afterAll (d.withoutMisses operations) = d.afterAll operations := by
  induction operations generalizing d with
  | nil => exact ⟨rfl, rfl⟩
  | cons operation operations ih =>
    let first : Performed σ := ⟨d, operation, (d.perform operation).1, (d.perform operation).2⟩
    have hbackend : first.after.backend = d.backend := d.backend_perform operation
    obtain ⟨hhistory, hleft⟩ := ih (hbackend ▸ hreads)
    have hcons : d.history (operation :: operations) = first :: first.after.history operations :=
      rfl
    have hall : d.afterAll (operation :: operations) = first.after.afterAll operations := rfl
    rw [withoutMisses, hcons, hall, List.filter_cons]
    split
    case isTrue => exact ⟨congrArg (first :: ·) hhistory, hleft⟩
    case isFalse hmissed =>
      have hsame : first.after = d := unmoved_of_missed hreads (by simpa using hmissed)
      rw [hsame] at hhistory hleft ⊢
      exact ⟨hhistory, hleft⟩

/-- Where queries leave the registry as it was, lookups that fail are not noticed by anything that
comes later. -/
theorem missesUnseen (hreads : d.backend.Reads) (operations : List Operation) :
    d.MissesUnseen operations where
  asked := by simp
  resolved p hp service hlookup := by
    have hperform := perform_of_mem_history hp
    rw [hlookup] at hperform
    exact ⟨(p.before.lookup service).1, (Prod.mk.inj hperform).1.symm,
      (p.before.outcome_lookup service).resolves⟩
  unmoved p hp hmissed := by
    obtain ⟨hanswer, hafter⟩ := Prod.mk.inj (perform_of_mem_history hp)
    have hreads : p.before.backend.Reads := backend_of_mem_history hp ▸ hreads
    rw [← hafter]
    exact unmoved_of_missed hreads (hanswer ▸ hmissed)
  removed := (history_and_afterAll_withoutMisses hreads operations).1
  left := (history_and_afterAll_withoutMisses hreads operations).2

/-- A registration, and four lookups, one of which is refused and one of which finds nothing. -/
def missingOperations : List Operation :=
  .register "a" ⟨"h", 1⟩ :: ["a", "bad", "b", "a"].map .lookup

theorem missesUnseen_missing :
    let d : Directory Registry := ⟨.refusing Backend.refusesByName .memory, .empty, .roundRobin 0⟩
    (d.history missingOperations).map (Answer.missed ∘ Performed.answer) =
        [false, false, true, true, false] ∧ d.MissesUnseen missingOperations :=
  ⟨rfl, missesUnseen (Backend.Provided.memory.refusing _).reads missingOperations⟩

end FramedRpc.Directory
