import FramedRpc.Proofs.Client.PendingCalls

/-!
# Sequences of operations on the table

Callers register, answer, fail and forget calls in any order, each operation in one step. Whoever
registers a call holds a ticket on which at most one outcome comes. The first later operation that
names the identifier of the call or fails its connection decides which one, and until then the call
waits in the table. An operation that finds no call of its identifier says so and changes nothing.
-/

namespace FramedRpc.PendingCalls

variable {p q : PendingCalls}

def Holds (p : PendingCalls) (id : String) : Prop := ∃ call ∈ p.waiting, call.id = id

@[simp]
theorem find?_eq_none_iff (p : PendingCalls) (id : String) : p.find? id = none ↔ ¬ p.Holds id := by
  simp [find?, Holds]

theorem holds_of_find?_eq_some {id : String} {call : PendingCall} (h : p.find? id = some call) :
    p.Holds id :=
  ⟨call, List.mem_of_find?_eq_some h, by simpa using List.find?_some h⟩

/-- What a caller does to the table. -/
inductive Operation where
  | register (id : String) (connection : ConnectionId)
  | complete (id : String) (r : Response)
  | fail (id : String) (fault : Fault)
  | remove (id : String)
  | failConnection (connection : ConnectionId) (fault : Fault)
  | dropGuard (id : String)

def after (p : PendingCalls) : Operation → PendingCalls
  | .register id connection => (p.register id connection).2
  | .complete id r => (p.complete id r).2
  | .fail id fault => (p.fail id fault).2
  | .remove id => (p.remove id).2
  | .failConnection connection fault => (p.failConnection connection fault).2
  | .dropGuard id => p.dropGuard id

def afterAll (p : PendingCalls) (operations : List Operation) : PendingCalls :=
  operations.foldl after p

/-- How an operation ends a call that waits: it names the identifier of the call, or it fails the
connection of the call. A registration ends no call. -/
def Operation.settlement? (call : PendingCall) : Operation → Option Settlement
  | .register _ _ => none
  | .complete id r => if call.id = id then some (.delivered (.ok r)) else none
  | .fail id fault => if call.id = id then some (.delivered (.error fault)) else none
  | .remove id | .dropGuard id => if call.id = id then some .closed else none
  | .failConnection connection fault =>
    if call.connection = connection then some (.delivered (.error fault)) else none

/-! ## One operation -/

/-- The table behind an operation: a registration is refused or enters the call, and every other
operation ends the calls that it is about. -/
inductive Turn (p : PendingCalls) : Operation → PendingCalls → Prop
  | refused {id : String} {connection : ConnectionId} (h : p.Holds id) :
    Turn p (.register id connection) p
  | entered {id : String} {connection : ConnectionId} (h : p.find? id = none) :
    Turn p (.register id connection) (p.enter id connection)
  | ended {operation : Operation} {q : PendingCalls} {selected : PendingCall → Bool}
    {s : Settlement} (h : p.Settles q selected s)
    (hends : ∀ call, operation.settlement? call = if selected call = true then some s else none) :
    Turn p operation q

theorem turn_after (hp : p.Sound) (operation : Operation) :
    Turn p operation (p.after operation) := by
  cases operation with
  | register id connection =>
    show Turn p _ (p.register id connection).2
    cases hfind : p.find? id with
    | none =>
      rw [register_of_none hfind]
      exact .entered hfind
    | some call =>
      rw [register_of_some hfind]
      exact .refused (holds_of_find?_eq_some hfind)
  | complete id r =>
    exact .ended (settles_complete hp id r) fun call ↦ by simp [Operation.settlement?]
  | fail id fault =>
    exact .ended (settles_settle hp id _) fun call ↦ by simp [Operation.settlement?]
  | remove id =>
    exact .ended (settles_settle hp id _) fun call ↦ by simp [Operation.settlement?]
  | failConnection connection fault =>
    exact .ended (settles_failConnection p connection fault) fun call ↦ by
      simp [Operation.settlement?]
  | dropGuard id =>
    exact .ended (settles_dropGuard hp id) fun call ↦ by simp [Operation.settlement?]

namespace Turn

variable {operation : Operation} {call : PendingCall}

theorem sound (h : Turn p operation q) (hp : p.Sound) : q.Sound := by
  cases h with
  | refused => exact hp
  | entered hid => exact hp.enter hid _
  | ended hsettles => exact hsettles.sound hp

theorem outcome?_of_some (h : Turn p operation q) {ticket : Ticket} {s : Settlement}
    (hs : p.outcome? ticket = some s) : q.outcome? ticket = some s := by
  cases h with
  | refused => exact hs
  | entered => exact hs
  | ended hsettles => exact hsettles.outcome?_of_some hs

theorem mem_waiting (h : Turn p operation q) (hcall : call ∈ p.waiting)
    (hnone : operation.settlement? call = none) : call ∈ q.waiting := by
  cases h with
  | refused => exact hcall
  | entered => exact List.mem_append_left _ hcall
  | @ended _ _ selected s hsettles hends =>
    rw [hends] at hnone
    have hkept : ¬ selected call = true := fun hselected ↦ by simp [hselected] at hnone
    exact hsettles.mem_waiting.mpr ⟨hcall, Bool.eq_false_iff.mpr hkept⟩

theorem outcome?_of_settlement? (h : Turn p operation q) (hp : p.Sound) (hcall : call ∈ p.waiting)
    {s : Settlement} (hs : operation.settlement? call = some s) :
    q.outcome? call.ticket = some s := by
  cases h with
  | refused => cases hs
  | entered => cases hs
  | @ended _ _ selected t hsettles hends =>
    rw [hends] at hs
    split at hs
    case isTrue hselected =>
      rw [← Option.some.inj hs]
      exact hsettles.outcome?_of_selected hp hcall hselected
    case isFalse => cases hs

end Turn

/-! ## Any number of operations -/

theorem Sound.afterAll (hp : p.Sound) (operations : List Operation) :
    (p.afterAll operations).Sound := by
  induction operations generalizing p with
  | nil => exact hp
  | cons operation operations ih => exact ih ((turn_after hp operation).sound hp)

theorem outcome?_afterAll_of_some (hp : p.Sound) {ticket : Ticket} {s : Settlement}
    (hs : p.outcome? ticket = some s) (operations : List Operation) :
    (p.afterAll operations).outcome? ticket = some s := by
  induction operations generalizing p with
  | nil => exact hs
  | cons operation operations ih =>
    have hturn := turn_after hp operation
    exact ih (hturn.sound hp) (hturn.outcome?_of_some hs)

/-- The first operation that ends a call decides its outcome. -/
theorem outcome?_afterAll (hp : p.Sound) {call : PendingCall} (hcall : call ∈ p.waiting)
    (operations : List Operation) :
    (p.afterAll operations).outcome? call.ticket =
      operations.findSome? (Operation.settlement? call) := by
  induction operations generalizing p with
  | nil => exact hp.unsettled call hcall
  | cons operation operations ih =>
    have hturn := turn_after hp operation
    show ((p.after operation).afterAll operations).outcome? call.ticket = _
    rw [List.findSome?_cons]
    cases hs : operation.settlement? call with
    | none => exact ih (hturn.sound hp) (hturn.mem_waiting hcall hs)
    | some s =>
      have hsettled := hturn.outcome?_of_settlement? hp hcall hs
      exact outcome?_afterAll_of_some (hturn.sound hp) hsettled operations

theorem mem_waiting_afterAll (hp : p.Sound) {call : PendingCall} (hcall : call ∈ p.waiting)
    {operations : List Operation} (hnone : (p.afterAll operations).outcome? call.ticket = none) :
    call ∈ (p.afterAll operations).waiting := by
  induction operations generalizing p with
  | nil => exact hcall
  | cons operation operations ih =>
    have hturn := turn_after hp operation
    cases hs : operation.settlement? call with
    | none => exact ih (hturn.sound hp) (hturn.mem_waiting hcall hs) hnone
    | some s =>
      have hsettled := hturn.outcome?_of_settlement? hp hcall hs
      have hlater := outcome?_afterAll_of_some (hturn.sound hp) hsettled operations
      cases hlater.symm.trans hnone

/-! ## Tickets are settled once -/

@[simp]
theorem outcome?_eq_none_iff (p : PendingCalls) (ticket : Ticket) :
    p.outcome? ticket = none ↔ ticket ∉ p.settled.map Prod.fst := by
  unfold outcome?
  rw [List.lookup_eq_none_iff, List.mem_map]
  constructor
  · rintro hne ⟨settled, hsettled, rfl⟩
    simpa using hne settled hsettled
  · intro hmem settled hsettled
    simpa using fun heq : ticket = settled.1 ↦ hmem ⟨settled, hsettled, heq.symm⟩

theorem Settles.nodup_settled {selected : PendingCall → Bool} {s : Settlement}
    (h : Settles p q selected s) (hp : p.Sound) (honce : (p.settled.map Prod.fst).Nodup) :
    (q.settled.map Prod.fst).Nodup := by
  have hnew : ((p.waiting.filter selected).map fun call ↦ (call.ticket, s)).map Prod.fst =
      (p.waiting.filter selected).map PendingCall.ticket := by
    rw [List.map_map]
    rfl
  rw [h.settled, List.map_append, hnew, List.nodup_append]
  refine ⟨honce, hp.tickets.sublist (List.filter_sublist.map _), ?_⟩
  rintro ticket hold _ hmem rfl
  obtain ⟨call, hcall, rfl⟩ := List.mem_map.mp hmem
  have hunsettled := hp.unsettled call (List.mem_filter.mp hcall).1
  simp only [outcome?_eq_none_iff] at hunsettled
  exact hunsettled hold

theorem nodup_settled_afterAll (hp : p.Sound) (honce : (p.settled.map Prod.fst).Nodup)
    (operations : List Operation) : ((p.afterAll operations).settled.map Prod.fst).Nodup := by
  induction operations generalizing p with
  | nil => exact honce
  | cons operation operations ih =>
    have hturn := turn_after hp operation
    refine ih (hturn.sound hp) ?_
    generalize p.after operation = q at hturn
    cases hturn with
    | refused => exact honce
    | entered => exact honce
    | ended hsettles => exact hsettles.nodup_settled hp honce

/-! ## Answers -/

@[simp]
theorem settle_fst_iff (p : PendingCalls) (id : String) (s : Settlement) :
    (p.settle id s).1 = true ↔ p.Holds id := by
  unfold settle
  cases hfind : p.find? id with
  | none =>
    have hholds : ¬ p.Holds id := by simpa using hfind
    simp [hholds]
  | some call =>
    have hholds := holds_of_find?_eq_some hfind
    simp [hholds]

theorem register_error_iff (p : PendingCalls) (id : String) (connection : ConnectionId) :
    (∃ fault, (p.register id connection).1 = .error fault) ↔ p.Holds id := by
  cases hfind : p.find? id with
  | none =>
    have hholds := (find?_eq_none_iff p id).mp hfind
    simp [hfind, hholds]
  | some call =>
    have hholds := holds_of_find?_eq_some hfind
    simp [hfind, hholds]

theorem register_snd_of_holds {id : String} (h : p.Holds id) (connection : ConnectionId) :
    (p.register id connection).2 = p := by
  cases hfind : p.find? id with
  | none => exact absurd h ((find?_eq_none_iff p id).mp hfind)
  | some call => simp [hfind]

@[simp]
theorem failConnection_fst (p : PendingCalls) (connection : ConnectionId) (fault : Fault) :
    (p.failConnection connection fault).1 =
      p.waiting.countP fun call ↦ call.connection = connection := by
  unfold failConnection
  rw [List.partition_eq_filter_filter, List.countP_eq_length_filter]

/-- Tickets of other connections keep the outcomes that they have, or have none as before. -/
theorem outcome?_failConnection_of_ne (p : PendingCalls) (connection : ConnectionId)
    (fault : Fault) {ticket : Ticket}
    (h : ∀ call ∈ p.waiting, call.connection = connection → call.ticket ≠ ticket) :
    (p.failConnection connection fault).2.outcome? ticket = p.outcome? ticket := by
  rw [(settles_failConnection p connection fault).outcome?_eq, Settles.lookup_map, if_neg,
    Option.or_none]
  intro hmem
  obtain ⟨call, hcall, hticket⟩ := List.mem_map.mp hmem
  obtain ⟨hwaiting, hselected⟩ := List.mem_filter.mp hcall
  exact h call hwaiting (of_decide_eq_true hselected) hticket

/-! ## The rules of the table -/

/-- A successful registration gives the ticket of a new call. -/
theorem register_ok {id : String} {connection : ConnectionId} {ticket : Ticket}
    (h : (p.register id connection).1 = .ok ticket) :
    p.find? id = none ∧ ticket = p.nextTicket ∧
      (p.register id connection).2 = p.enter id connection := by
  cases hfind : p.find? id with
  | none =>
    simpa [hfind, eq_comm] using h
  | some call =>
    simp [hfind] at h

/-- What holds of a table whatever was done to it. -/
structure Lawful (p : PendingCalls) : Prop where
  /-- No ticket is settled twice. -/
  once : (p.settled.map Prod.fst).Nodup
  /-- A registration is refused exactly if its identifier is in the table. -/
  refused_iff : ∀ id connection,
    (∃ fault, (p.register id connection).1 = .error fault) ↔ p.Holds id
  /-- A refused registration changes nothing. -/
  refused : ∀ id connection, p.Holds id → (p.register id connection).2 = p
  /-- The ticket of a registered call was not in use. -/
  fresh : ∀ id connection ticket, (p.register id connection).1 = .ok ticket →
    p.outcome? ticket = none ∧ ∀ call ∈ p.waiting, call.ticket ≠ ticket
  /-- The first later operation that ends a registered call decides its outcome. -/
  decided : ∀ id connection ticket, (p.register id connection).1 = .ok ticket → ∀ later,
    ((p.register id connection).2.afterAll later).outcome? ticket =
      later.findSome? (Operation.settlement? ⟨id, ticket, connection⟩)
  /-- A registered call has no outcome exactly as long as it waits in the table. -/
  unresolved_iff : ∀ id connection ticket, (p.register id connection).1 = .ok ticket → ∀ later,
    ((p.register id connection).2.afterAll later).outcome? ticket = none ↔
      ⟨id, ticket, connection⟩ ∈ ((p.register id connection).2.afterAll later).waiting
  /-- An answer, a fault and a removal tell whether there was a call. -/
  complete_iff : ∀ id r, (p.complete id r).1 = true ↔ p.Holds id
  fail_iff : ∀ id fault, (p.fail id fault).1 = true ↔ p.Holds id
  remove_iff : ∀ id, (p.remove id).1 = true ↔ p.Holds id
  /-- To fail a connection is to take out its calls, all of which get the fault. -/
  count : ∀ connection fault, (p.failConnection connection fault).1 =
    p.waiting.countP fun call ↦ call.connection = connection
  kept_iff : ∀ connection fault call, call ∈ (p.failConnection connection fault).2.waiting ↔
    call ∈ p.waiting ∧ call.connection ≠ connection
  failed : ∀ connection fault, ∀ call ∈ p.waiting, call.connection = connection →
    (p.failConnection connection fault).2.outcome? call.ticket = some (.delivered (.error fault))
  /-- The tickets of other connections keep what they have. -/
  untouched : ∀ connection fault ticket,
    (∀ call ∈ p.waiting, call.connection = connection → call.ticket ≠ ticket) →
    (p.failConnection connection fault).2.outcome? ticket = p.outcome? ticket

/-- Whatever callers did to an empty table, its rules hold: the outcome of each registered call is
decided by the first later operation that ends it. -/
theorem lawful_afterAll (before : List Operation) : (empty.afterAll before).Lawful := by
  have hsound := sound_empty.afterAll before
  generalize hp : empty.afterAll before = p at hsound ⊢
  have hregistered {id : String} {connection : ConnectionId} {ticket : Ticket}
      (h : (p.register id connection).1 = .ok ticket) :
      (p.register id connection).2.Sound ∧
        ⟨id, ticket, connection⟩ ∈ (p.register id connection).2.waiting := by
    obtain ⟨hfree, rfl, htable⟩ := register_ok h
    rw [htable]
    exact ⟨hsound.enter hfree connection, List.mem_append_right _ (List.mem_singleton.mpr rfl)⟩
  refine
    { once := ?once
      refused_iff := register_error_iff p
      refused := fun id connection h ↦ register_snd_of_holds h connection
      fresh := ?fresh
      decided := ?decided
      unresolved_iff := ?unresolved_iff
      complete_iff := fun id r ↦ settle_fst_iff p id _
      fail_iff := fun id fault ↦ settle_fst_iff p id _
      remove_iff := fun id ↦ settle_fst_iff p id _
      count := by simp
      kept_iff := ?kept_iff
      failed := ?failed
      untouched := fun connection fault ticket ↦ outcome?_failConnection_of_ne p connection fault }
  case once =>
    rw [← hp]
    exact nodup_settled_afterAll sound_empty List.nodup_nil before
  case fresh =>
    intro id connection ticket h
    obtain ⟨-, rfl, -⟩ := register_ok h
    refine ⟨hsound.unissued _ (Nat.le_refl _), fun call hcall ↦ ?_⟩
    exact Nat.ne_of_lt (hsound.issued call hcall)
  case decided =>
    intro id connection ticket h later
    obtain ⟨hentered, hcall⟩ := hregistered h
    exact outcome?_afterAll hentered hcall later
  case unresolved_iff =>
    intro id connection ticket h later
    obtain ⟨hentered, hcall⟩ := hregistered h
    exact ⟨mem_waiting_afterAll hentered hcall, (hentered.afterAll later).unsettled _⟩
  case kept_iff =>
    intro connection fault call
    rw [(settles_failConnection p connection fault).mem_waiting, decide_eq_false_iff_not]
  case failed =>
    intro connection fault call hcall hconnection
    have hsettles := settles_failConnection p connection fault
    exact hsettles.outcome?_of_selected hsound hcall (decide_eq_true hconnection)

/-- An identifier that is registered again after its call was answered: the second call is not
touched by a refused registration and by the end of another connection, and gets the fault of its
own one before the response that comes too late. -/
theorem decided_registeredAgain :
    ((empty.afterAll [.register "a" 1, .complete "a" (.success "a" [1])]).register "a" 2).1 =
        .ok 1 ∧
      (((empty.afterAll [.register "a" 1, .complete "a" (.success "a" [1])]).register "a" 2).2.afterAll
        [.register "a" 3, .failConnection 1 (.timeout 1), .failConnection 2 (.timeout 2),
          .complete "a" (.success "a" [2])]).outcome? 1 =
        some (.delivered (.error (.timeout 2))) := by
  have hticket : ((empty.afterAll [.register "a" 1,
      .complete "a" (.success "a" [1])]).register "a" 2).1 = .ok 1 := by
    rfl
  exact ⟨hticket, (lawful_afterAll _).decided "a" 2 1 hticket _⟩

end FramedRpc.PendingCalls
