import FramedRpc.Proofs.Lists
import FramedRpc.Proofs.Liveness
import FramedRpc.Proofs.Server.Steps

/-!
# The account of a session

A session takes a task on for each request that it has read, in order, and gets one reply from each
task that is over. While its loop goes on, the replies that it wrote and that it has yet to write
are those of the tasks that are over. Once the loop was left, replies are lost, but none comes
twice.
-/

namespace FramedRpc

def Session.Inbound.order? : Session.Inbound → Option Session.Order
  | .frame ⟨serializer, .request r⟩ => if r.heartbeat then none else some ⟨serializer, r⟩
  | _ => none

/-- What is asked for by what arrives in a step of a session. -/
def Serving.SessionEvent.order? : Serving.SessionEvent → Option Session.Order
  | .arrive inbound => inbound.order?
  | _ => none

namespace Session

/-- By what the reply to a request is known. -/
def Order.key (o : Order) : Serializer × String := (o.serializer, o.request.id)

def Reply.key (r : Reply) : Serializer × String := (r.serializer, r.response.id)

/-- A reply answers a request: it has its identifier, and the serializer of its frame. -/
def Reply.Answers (r : Reply) (order : Order) : Prop :=
  r.serializer = order.serializer ∧ r.response.id = order.request.id

theorem Reply.answers_iff (r : Reply) (order : Order) : r.Answers order ↔ r.key = order.key :=
  ⟨fun h ↦ Prod.ext h.1 h.2, fun h ↦ Prod.mk.inj h⟩

def waiting (S : Session) : List Order :=
  match S.stage with
  | .reserving order => [order]
  | _ => []

/-- The requests that were read and that are to be read, in order. -/
def requests (S : Session) : List Order :=
  S.orders ++ S.inbox.filterMap fun arrival ↦ arrival.inbound.order?

variable {S T : Session} {now : Nat} {taken : List Order}
  {answered : List (Serializer × String)} {order : Order}

theorem heartbeat_of_order? {inbound : Inbound} (h : inbound.order? = some order) :
    order.request.heartbeat = false := by
  unfold Inbound.order? at h
  split at h
  case h_1 r =>
    obtain ⟨hsign, h⟩ := Option.ite_none_left_eq_some.mp h
    obtain rfl := Option.some.inj h
    exact Bool.eq_false_iff.mpr hsign
  case h_2 => cases h

/-- Heartbeats and responses ask for nothing, whatever else they hold. -/
theorem order?_of_heartbeat {f : Frame} (h : ∀ r, f.message = .request r → r.heartbeat = true) :
    (Inbound.frame f).order? = none := by
  obtain ⟨serializer, message⟩ := f
  cases message with
  | request r => exact if_pos (h r rfl)
  | response => rfl

/-! ## Steps of the loop -/

theorem turn_cases (S : Session) : S.turn = S ∨
    S.liveness.onClock = false ∧ S.turn = { S with stage := .brokenOff } := by
  unfold turn
  split
  case isTrue => exact .inl rfl
  case isFalse hclock => exact .inr ⟨Bool.eq_false_iff.mpr hclock, rfl⟩

/-- Why the loop is left when something is read, if it is left. -/
def Inbound.reason? : Inbound → Option Reason
  | .frame _ => none
  | .unreadable fault => some (.unreadable fault)
  | .ending => some .closedByPeer

/-- A frame that asks for something makes the loop wait for a worker. -/
theorem takeFrame_of_order {f : Frame} (h : (Inbound.frame f).order? = some order) :
    S.takeFrame now f = { S with
      liveness := S.liveness.recordRead now
      orders := S.orders ++ [order]
      stage := .reserving order } := by
  obtain ⟨serializer, message⟩ := f
  cases message with
  | request r =>
    obtain ⟨hsign, h⟩ := Option.ite_none_left_eq_some.mp h
    obtain rfl := Option.some.inj h
    simp [takeFrame, hsign]
  | response => cases h

/-- A frame that asks for nothing only shows that the peer is alive. -/
theorem takeFrame_of_none {f : Frame} (h : (Inbound.frame f).order? = none) :
    S.takeFrame now f = { S with liveness := S.liveness.recordRead now }.turn := by
  obtain ⟨serializer, message⟩ := f
  cases message with
  | request r =>
    have hsign : r.heartbeat = true := by simpa [Inbound.order?] using h
    simp [takeFrame, hsign]
  | response => rfl

/-- The session behind the reading of what comes next. -/
inductive Reads (S : Session) (now : Nat) : Session → Prop
  | order {f : Frame} {order : Order} {time : Nat} {rest : List Arrival}
    (hinbox : S.inbox = ⟨time, .frame f⟩ :: rest) (h : (Inbound.frame f).order? = some order) :
    Reads S now { S with
      inbox := rest
      liveness := S.liveness.recordRead now
      orders := S.orders ++ [order]
      stage := .reserving order }
  | sign {f : Frame} {time : Nat} {rest : List Arrival}
    (hinbox : S.inbox = ⟨time, .frame f⟩ :: rest) (h : (Inbound.frame f).order? = none) :
    Reads S now { S with inbox := rest, liveness := S.liveness.recordRead now }.turn
  | ended {inbound : Inbound} {time : Nat} {rest : List Arrival} {reason : Reason}
    (hinbox : S.inbox = ⟨time, inbound⟩ :: rest) (h : inbound.order? = none)
    (hreason : inbound.reason? = some reason) :
    Reads S now ({ S with inbox := rest }.close reason now)

theorem reads_of_read? (h : S.read? now = some T) : S.isServing = true ∧ S.Reads now T := by
  unfold read? at h
  split at h
  case h_1 time inbound rest hserving hinbox =>
    refine ⟨hserving, ?_⟩
    obtain rfl := Option.some.inj h
    cases inbound with
    | frame f =>
      cases horder : (Inbound.frame f).order? with
      | some order =>
        show S.Reads now (takeFrame { S with inbox := rest } now f)
        rw [takeFrame_of_order horder]
        exact .order hinbox horder
      | none =>
        show S.Reads now (takeFrame { S with inbox := rest } now f)
        rw [takeFrame_of_none horder]
        exact .sign hinbox horder
    | unreadable fault => exact .ended hinbox rfl rfl
    | ending => exact .ended hinbox rfl rfl
  case h_2 => cases h

theorem read?_of_none {f : Frame} {time : Nat} {rest : List Arrival} (hserving : S.isServing = true)
    (hinbox : S.inbox = ⟨time, .frame f⟩ :: rest) (h : (Inbound.frame f).order? = none) :
    S.read? now =
      some { S with inbox := rest, liveness := S.liveness.recordRead now }.turn := by
  unfold read?
  rw [hserving, hinbox]
  show some (takeFrame { S with inbox := rest } now f) = _
  rw [takeFrame_of_none h]

@[simp]
theorem requests_turn (S : Session) : S.turn.requests = S.requests := by
  rcases turn_cases S with hturn | hturn
  · rw [hturn]
  · rw [hturn.2]
    rfl

@[simp]
theorem requests_accept (limits : IdleLimits) (now : Nat) : (accept limits now).requests = [] :=
  requests_turn _

@[simp]
theorem requests_queue (S : Session) (r : Reply) : (S.queue r).requests = S.requests := by
  unfold Session.queue
  split <;> rfl

theorem requests_of_cons {inbound : Inbound} {time : Nat} {rest : List Arrival}
    (hinbox : S.inbox = ⟨time, inbound⟩ :: rest) :
    S.requests = S.orders ++ inbound.order?.toList ++
      rest.filterMap fun arrival ↦ arrival.inbound.order? := by
  rw [requests, hinbox, List.filterMap_cons]
  cases inbound.order? <;> simp

theorem Reads.requests (h : S.Reads now T) : T.requests = S.requests := by
  cases h with
  | order hinbox h =>
    rw [requests_of_cons hinbox, h]
    rfl
  | sign hinbox h =>
    rw [requests_turn, requests_of_cons hinbox, h]
    simp [Session.requests]
  | ended hinbox h =>
    rw [requests_of_cons hinbox, h]
    simp [Session.requests, close]

/-- The session behind the writing of the next reply, which may fail. -/
inductive Writes (S : Session) (now : Nat) (Fails : Reply → Fault → Prop) : Session → Prop
  | sent {r : Reply} {rest : List Reply} (houtbox : S.outbox = r :: rest) :
    Writes S now Fails { S with outbox := rest, written := S.written ++ [r] }.turn
  | failed {r : Reply} {rest : List Reply} {fault : Fault} (houtbox : S.outbox = r :: rest)
    (hfails : Fails r fault) :
    Writes S now Fails ({ S with outbox := rest }.close (.writeFailed fault) now)

theorem Writes.requests {Fails : Reply → Fault → Prop} (h : S.Writes now Fails T) :
    T.requests = S.requests := by
  cases h with
  | sent => exact requests_turn _
  | failed => rfl

theorem writes_of_write? {codec : Codec} (h : S.write? codec now = some T) :
    S.isServing = true ∧ S.Writes now (fun r fault ↦ codec.encode r.frame = .error fault) T := by
  unfold write? at h
  split at h
  case h_1 r rest hserving houtbox =>
    refine ⟨hserving, ?_⟩
    obtain rfl := Option.some.inj h
    split
    case h_1 => exact .sent houtbox
    case h_2 fault hfault => exact .failed houtbox hfault
  case h_2 => cases h

theorem writes_of_lose? {fault : Fault} (h : S.lose? fault now = some T) :
    S.isServing = true ∧ S.Writes now (fun _ lost ↦ lost = fault) T := by
  unfold lose? at h
  split at h
  case h_1 r rest hserving houtbox =>
    obtain rfl := Option.some.inj h
    exact ⟨hserving, .failed houtbox rfl⟩
  case h_2 => cases h

theorem wake?_cases (h : S.wake? now = some T) :
    (∃ limit, S.liveness.limits.readIdle = some limit ∧ S.liveness.lastRead + limit ≤ now) ∧
      T = S.close .readIdle now ∨ T = S.turn := by
  obtain ⟨-, h⟩ := Option.ite_none_right_eq_some.mp h
  split at h
  case h_1 hidle =>
    obtain ⟨limit, hlimit, -, hpassed⟩ := Liveness.poll_eq_readerIdle_iff.mp hidle
    exact .inl ⟨⟨limit, hlimit, hpassed⟩, (Option.some.inj h).symm⟩
  case h_2 => exact .inr (Option.some.inj h).symm

theorem isOpen_of_isServing (h : S.isServing = true) : S.isOpen = true := by
  unfold isServing at h
  split at h
  case h_1 hstage => rw [isOpen, hstage]
  case h_2 => cases h

theorem isOpen_of_reserving (h : S.stage = .reserving order) : S.isOpen = true := by
  rw [isOpen, h]

@[simp]
theorem waiting_of_reserving (h : S.stage = .reserving order) : S.waiting = [order] := by
  rw [waiting, h]

@[simp]
theorem waiting_of_isServing (h : S.isServing = true) : S.waiting = [] := by
  unfold isServing at h
  split at h
  case h_1 hstage => rw [waiting, hstage]
  case h_2 => cases h

theorem waiting_of_not_isOpen (h : ¬ S.isOpen = true) : S.waiting = [] := by
  unfold waiting
  split
  case h_1 order hstage => exact absurd (isOpen_of_reserving hstage) h
  case h_2 => rfl

/-- The steps that a session makes by itself neither lose nor make up a request. -/
theorem Moves.requests {s : Serving} {event : Serving.SessionEvent} (h : S.Moves s event T) :
    T.requests = S.requests ++ event.order?.toList := by
  cases h with
  | arrived inbound =>
    show S.orders ++ (S.inbox ++ [Arrival.mk s.now inbound]).filterMap _ =
      S.orders ++ S.inbox.filterMap _ ++ inbound.order?.toList
    rw [filterMap_concat, List.append_assoc]
  | read hread =>
    rw [(reads_of_read? hread).2.requests]
    exact (List.append_nil _).symm
  | refused => exact (List.append_nil _).symm
  | wrote hwrite =>
    rw [(writes_of_write? hwrite).2.requests]
    exact (List.append_nil _).symm
  | lost hlose =>
    rw [(writes_of_lose? hlose).2.requests]
    exact (List.append_nil _).symm
  | woke hwake =>
    rcases wake?_cases hwake with ⟨-, rfl⟩ | rfl
    · exact (List.append_nil _).symm
    · rw [requests_turn]
      exact (List.append_nil _).symm
  | quit => exact (List.append_nil _).symm
  | aborted => exact (List.append_nil _).symm

/-! ## Balanced accounts -/

/-- A session and what became of its requests: the orders for which tasks were started, and the keys
of those whose tasks are over. -/
structure Balanced (S : Session) (taken : List Order)
    (answered : List (Serializer × String)) : Prop where
  started : taken <+: S.orders
  waiting : S.isOpen = true → taken ++ S.waiting = S.orders
  replies : ((S.written ++ S.outbox).map Reply.key).Subperm answered
  drained : S.isOpen = true → ((S.written ++ S.outbox).map Reply.key).Perm answered

namespace Balanced

/-- Workers are waited for only for requests that were read. -/
theorem taken_waiting (h : S.Balanced taken answered) : taken ++ S.waiting <+: S.orders := by
  by_cases hopen : S.isOpen = true
  case pos => exact h.waiting hopen ▸ List.prefix_rfl
  case neg =>
    have hnone : S.waiting = [] := waiting_of_not_isOpen hopen
    rw [hnone, List.append_nil]
    exact h.started

theorem of_closed (h : S.Balanced taken answered) (horders : T.orders = S.orders)
    (hreplies : (T.written ++ T.outbox).Sublist (S.written ++ S.outbox))
    (hclosed : T.isOpen = false) : T.Balanced taken answered where
  started := by
    rw [horders]
    exact h.started
  waiting hopen := by
    rw [hclosed] at hopen
    cases hopen
  replies := (hreplies.map Reply.key).subperm.trans h.replies
  drained hopen := by
    rw [hclosed] at hopen
    cases hopen

theorem turn (h : S.Balanced taken answered) : S.turn.Balanced taken answered := by
  rcases turn_cases S with hturn | hturn
  · rw [hturn]
    exact h
  · rw [hturn.2]
    exact h.of_closed rfl (List.Sublist.refl _) rfl

theorem reads (h : S.Balanced taken answered) (hserving : S.isServing = true)
    (hreads : S.Reads now T) : T.Balanced taken answered := by
  have hopen : S.isOpen = true := isOpen_of_isServing hserving
  have hwaiting : taken = S.orders := by simpa [hserving] using h.waiting hopen
  cases hreads with
  | @order f order time rest hinbox horder =>
    exact
      { started := h.started.trans (List.prefix_append _ _)
        waiting := fun _ ↦ congrArg (· ++ [order]) hwaiting
        replies := h.replies
        drained := fun _ ↦ h.drained hopen }
  | sign hinbox horder =>
    apply turn
    exact ⟨h.started, h.waiting, h.replies, h.drained⟩
  | ended hinbox horder => exact h.of_closed rfl (List.Sublist.refl _) rfl

theorem writes {Fails : Reply → Fault → Prop} (h : S.Balanced taken answered)
    (hwrites : S.Writes now Fails T) : T.Balanced taken answered := by
  cases hwrites with
  | @sent r rest houtbox =>
    apply turn
    have hreplies : S.written ++ [r] ++ rest = S.written ++ S.outbox := by
      rw [houtbox, List.append_assoc]
      rfl
    refine ⟨h.started, h.waiting, ?_, fun hopen ↦ ?_⟩
    · show ((S.written ++ [r] ++ rest).map Reply.key).Subperm answered
      rw [hreplies]
      exact h.replies
    · show ((S.written ++ [r] ++ rest).map Reply.key).Perm answered
      rw [hreplies]
      exact h.drained hopen
  | @failed r rest fault houtbox hfails =>
    refine h.of_closed rfl ?_ rfl
    rw [houtbox]
    exact (List.sublist_cons_self r rest).append_left S.written

/-- The steps that a session makes by itself leave its account balanced. -/
theorem moves {s : Serving} {event : Serving.SessionEvent} (h : S.Balanced taken answered)
    (hmoves : S.Moves s event T) : T.Balanced taken answered := by
  cases hmoves with
  | arrived => exact ⟨h.started, h.waiting, h.replies, h.drained⟩
  | read hread =>
    obtain ⟨hserving, hreads⟩ := reads_of_read? hread
    exact h.reads hserving hreads
  | refused => exact h.of_closed rfl (List.Sublist.refl _) rfl
  | wrote hwrite => exact h.writes (writes_of_write? hwrite).2
  | lost hlose => exact h.writes (writes_of_lose? hlose).2
  | woke hwake =>
    rcases wake?_cases hwake with ⟨-, rfl⟩ | rfl
    · exact h.of_closed rfl (List.Sublist.refl _) rfl
    · exact h.turn
  | quit => exact h.of_closed rfl (List.Sublist.refl _) rfl
  | aborted => exact h.of_closed rfl (List.Sublist.refl _) rfl

/-- The request that waits is the last one that was read. -/
theorem orders_of_reserving (h : S.Balanced taken answered) (hstage : S.stage = .reserving order) :
    taken ++ [order] = S.orders := by
  simpa [hstage] using h.waiting (isOpen_of_reserving hstage)

/-- A task is started for the request that waits. -/
theorem reserved (h : S.Balanced taken answered) (hstage : S.stage = .reserving order) :
    ({ S with stage := .serving }.turn).Balanced (taken ++ [order]) answered := by
  have horders := h.orders_of_reserving hstage
  apply turn
  refine ⟨?_, fun _ ↦ ?_, h.replies, fun _ ↦ h.drained (isOpen_of_reserving hstage)⟩
  · show taken ++ [order] <+: S.orders
    exact horders ▸ List.prefix_rfl
  · show taken ++ [order] ++ [] = S.orders
    rw [List.append_nil, horders]

theorem congr {behind : List (Serializer × String)} (h : S.Balanced taken answered)
    (hperm : answered.Perm behind) : S.Balanced taken behind where
  started := h.started
  waiting := h.waiting
  replies := h.replies.trans hperm.subperm
  drained hopen := (h.drained hopen).trans hperm

/-- A task is over, and its reply is queued where the loop goes on. -/
theorem queue (h : S.Balanced taken answered) (r : Reply) :
    (S.queue r).Balanced taken (r.key :: answered) := by
  unfold Session.queue
  split
  case isTrue hopen =>
    have hkeys : (S.written ++ (S.outbox ++ [r])).map Reply.key =
        (S.written ++ S.outbox).map Reply.key ++ [r.key] := by
      rw [← List.append_assoc, List.map_append]
      rfl
    have hperm : ((S.written ++ (S.outbox ++ [r])).map Reply.key).Perm (r.key :: answered) := by
      rw [hkeys]
      exact (List.perm_append_singleton _ _).trans ((h.drained hopen).cons _)
    exact ⟨h.started, h.waiting, hperm.subperm, fun _ ↦ hperm⟩
  case isFalse hclosed =>
    refine ⟨h.started, h.waiting, ?_, fun hopen ↦ absurd hopen hclosed⟩
    exact h.replies.trans (List.sublist_cons_self _ _).subperm

end Balanced

theorem balanced_accept (limits : IdleLimits) (now : Nat) :
    (accept limits now).Balanced [] [] :=
  Balanced.turn ⟨List.prefix_rfl, fun _ ↦ rfl, List.Subperm.refl _, fun _ ↦ List.Perm.refl _⟩

end Session

end FramedRpc
