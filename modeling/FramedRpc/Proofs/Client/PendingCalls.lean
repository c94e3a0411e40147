import FramedRpc.Client.PendingCalls
import Mathlib.Data.List.Nodup

/-!
# The table of pending calls

The operations on the table, told by the calls that wait and by the outcomes of tickets. A call ends
for a response, for a fault of its connection or because it is forgotten; each of these takes some
calls out of the table and settles their tickets in one way. In a sound table the identifiers and
the tickets of the waiting calls are distinct, and no waiting call has an outcome.
-/

namespace FramedRpc.PendingCalls

variable {p q : PendingCalls}

/-- A table in which every waiting call is told from the others by its identifier and by its ticket,
and has no outcome yet. -/
structure Sound (p : PendingCalls) : Prop where
  ids : (p.waiting.map PendingCall.id).Nodup
  tickets : (p.waiting.map PendingCall.ticket).Nodup
  issued : ∀ call ∈ p.waiting, call.ticket < p.nextTicket
  unsettled : ∀ call ∈ p.waiting, p.outcome? call.ticket = none
  unissued : ∀ ticket, p.nextTicket ≤ ticket → p.outcome? ticket = none

theorem sound_empty : Sound empty where
  ids := List.nodup_nil
  tickets := List.nodup_nil
  issued := nofun
  unsettled := nofun
  unissued _ _ := rfl

theorem Sound.eq_of_ticket_eq (hp : p.Sound) {a b : PendingCall} (ha : a ∈ p.waiting)
    (hb : b ∈ p.waiting) (h : a.ticket = b.ticket) : a = b :=
  List.inj_on_of_nodup_map hp.tickets ha hb h

theorem Sound.eq_of_id_eq (hp : p.Sound) {a b : PendingCall} (ha : a ∈ p.waiting)
    (hb : b ∈ p.waiting) (h : a.id = b.id) : a = b :=
  List.inj_on_of_nodup_map hp.ids ha hb h

/-! ## Ending calls -/

/-- From `p` to `q` the calls that are selected end with a settlement, and nothing else changes. -/
structure Settles (p q : PendingCalls) (selected : PendingCall → Bool) (s : Settlement) :
    Prop where
  waiting : q.waiting = p.waiting.filter fun call ↦ !selected call
  settled : q.settled = p.settled ++ (p.waiting.filter selected).map fun call ↦ (call.ticket, s)
  nextTicket : q.nextTicket = p.nextTicket

namespace Settles

variable {selected : PendingCall → Bool} {s : Settlement}

theorem mem_waiting (h : Settles p q selected s) {call : PendingCall} :
    call ∈ q.waiting ↔ call ∈ p.waiting ∧ selected call = false := by
  rw [h.waiting, List.mem_filter, Bool.not_eq_true']

theorem outcome?_eq (h : Settles p q selected s) (ticket : Ticket) :
    q.outcome? ticket = (p.outcome? ticket).or
      (((p.waiting.filter selected).map fun call ↦ (call.ticket, s)).lookup ticket) := by
  unfold outcome?
  rw [h.settled, List.lookup_append]

theorem lookup_map (calls : List PendingCall) (s : Settlement) (ticket : Ticket) :
    (calls.map fun call ↦ (call.ticket, s)).lookup ticket =
      if ticket ∈ calls.map PendingCall.ticket then some s else none := by
  induction calls with
  | nil => rfl
  | cons call calls ih =>
    rw [List.map_cons, List.lookup_cons, ih, List.map_cons]
    by_cases hticket : ticket = call.ticket
    · simp [hticket]
    · have hne : (ticket == call.ticket) = false := beq_false_of_ne hticket
      simp [hne, hticket]

theorem outcome?_of_some (h : Settles p q selected s) {ticket : Ticket} {t : Settlement}
    (hticket : p.outcome? ticket = some t) : q.outcome? ticket = some t := by
  rw [h.outcome?_eq, hticket]
  rfl

/-- A ticket has the outcome that it had, or it is the ticket of a call that ended. -/
theorem outcome?_cases (h : Settles p q selected s) {ticket : Ticket} {t : Settlement}
    (hticket : q.outcome? ticket = some t) :
    p.outcome? ticket = some t ∨
      t = s ∧ ∃ call ∈ p.waiting, selected call = true ∧ call.ticket = ticket := by
  rw [h.outcome?_eq, lookup_map] at hticket
  cases hold : p.outcome? ticket with
  | some old =>
    rw [hold] at hticket
    exact .inl hticket
  | none =>
    rw [hold, Option.none_or] at hticket
    split at hticket
    case isTrue hmem =>
      obtain ⟨call, hcall, heq⟩ := List.mem_map.mp hmem
      obtain ⟨hwaiting, hselected⟩ := List.mem_filter.mp hcall
      exact .inr ⟨(Option.some.inj hticket).symm, call, hwaiting, hselected, heq⟩
    case isFalse => cases hticket

theorem outcome?_of_selected (h : Settles p q selected s) (hp : p.Sound) {call : PendingCall}
    (hcall : call ∈ p.waiting) (hselected : selected call = true) :
    q.outcome? call.ticket = some s := by
  have hmem : call.ticket ∈ (p.waiting.filter selected).map PendingCall.ticket :=
    List.mem_map_of_mem (List.mem_filter.mpr ⟨hcall, hselected⟩)
  rw [h.outcome?_eq, hp.unsettled call hcall, lookup_map, if_pos hmem]
  rfl

theorem sound (h : Settles p q selected s) (hp : p.Sound) : q.Sound where
  ids := by
    rw [h.waiting]
    exact hp.ids.sublist (List.filter_sublist.map _)
  tickets := by
    rw [h.waiting]
    exact hp.tickets.sublist (List.filter_sublist.map _)
  issued call hcall := by
    rw [h.nextTicket]
    exact hp.issued call (h.mem_waiting.mp hcall).1
  unsettled call hcall := by
    obtain ⟨hwaiting, hkept⟩ := h.mem_waiting.mp hcall
    by_contra houtcome
    obtain ⟨t, ht⟩ := Option.ne_none_iff_exists'.mp houtcome
    rcases h.outcome?_cases ht with hold | ⟨-, other, hother, hselected, heq⟩
    · rw [hp.unsettled call hwaiting] at hold
      cases hold
    · have hsame := hp.eq_of_ticket_eq hother hwaiting heq
      rw [hsame, hkept] at hselected
      cases hselected
  unissued ticket hticket := by
    rw [h.nextTicket] at hticket
    by_contra houtcome
    obtain ⟨t, ht⟩ := Option.ne_none_iff_exists'.mp houtcome
    rcases h.outcome?_cases ht with hold | ⟨-, call, hcall, -, heq⟩
    · rw [hp.unissued ticket hticket] at hold
      cases hold
    · exact absurd (heq ▸ hp.issued call hcall) (Nat.not_lt_of_le hticket)

end Settles

/-- Where identifiers are distinct, the call of an identifier is the only one of it. -/
theorem settles_settle (hp : p.Sound) (id : String) (s : Settlement) :
    Settles p (p.settle id s).2 (fun call ↦ call.id = id) s := by
  unfold settle
  cases hfind : p.find? id with
  | none =>
    have hnone : ∀ call ∈ p.waiting, ¬ call.id = id := by
      intro call hcall
      simpa using List.find?_eq_none.mp hfind call hcall
    have hfilter : p.waiting.filter (fun call ↦ call.id = id) = [] := by
      rw [List.filter_eq_nil_iff]
      intro call hcall
      simpa using hnone call hcall
    refine ⟨?_, ?_, rfl⟩
    · symm
      rw [List.filter_eq_self]
      intro call hcall
      simpa using hnone call hcall
    · rw [hfilter]
      exact (List.append_nil _).symm
  | some found =>
    obtain ⟨hid, before, behind, hsplit, hbefore⟩ := List.find?_eq_some_iff_append.mp hfind
    have hids := hp.ids
    rw [hsplit, List.map_append, List.map_cons, List.nodup_append] at hids
    have hbehind : ∀ call ∈ behind, ¬ call.id = id := by
      intro call hcall heq
      apply (List.nodup_cons.mp hids.2.1).1
      rw [of_decide_eq_true hid, ← heq]
      exact List.mem_map_of_mem hcall
    have hfilter : p.waiting.filter (fun call ↦ call.id = id) = [found] := by
      have hfront : before.filter (fun call ↦ call.id = id) = [] :=
        List.filter_eq_nil_iff.mpr fun call hcall ↦ by simpa using hbefore call hcall
      have hback : behind.filter (fun call ↦ call.id = id) = [] :=
        List.filter_eq_nil_iff.mpr fun call hcall ↦ by simpa using hbehind call hcall
      rw [hsplit, List.filter_append, List.filter_cons, if_pos hid, hfront, hback]
      rfl
    refine ⟨?_, ?_, rfl⟩
    · simp
    · rw [hfilter]
      rfl

theorem settles_complete (hp : p.Sound) (id : String) (r : Response) :
    Settles p (p.complete id r).2 (fun call ↦ call.id = id) (.delivered (.ok r)) :=
  settles_settle hp id _

theorem settles_dropGuard (hp : p.Sound) (id : String) :
    Settles p (p.dropGuard id) (fun call ↦ call.id = id) .closed :=
  settles_settle hp id _

/-- A guard whose identifier stands for no call changes nothing. -/
@[simp]
theorem dropGuard_of_none {id : String} (h : p.find? id = none) : p.dropGuard id = p := by
  unfold dropGuard remove settle
  rw [h]

theorem settles_failConnection (p : PendingCalls) (connection : ConnectionId) (fault : Fault) :
    Settles p (p.failConnection connection fault).2 (fun call ↦ call.connection = connection)
      (.delivered (.error fault)) := by
  unfold failConnection
  rw [List.partition_eq_filter_filter]
  exact ⟨rfl, rfl, rfl⟩

/-! ## Registering and collecting -/

def enter (p : PendingCalls) (id : String) (connection : ConnectionId) : PendingCalls :=
  { p with
    waiting := p.waiting ++ [⟨id, p.nextTicket, connection⟩]
    nextTicket := p.nextTicket + 1 }

@[simp]
theorem register_of_none {id : String} (h : p.find? id = none) (connection : ConnectionId) :
    p.register id connection = (.ok p.nextTicket, p.enter id connection) := by
  unfold register
  rw [h]
  rfl

@[simp]
theorem register_of_some {id : String} {call : PendingCall} (h : p.find? id = some call)
    (connection : ConnectionId) : p.register id connection =
      (.error (.invalidRequest ("Request id " ++ id ++ " is already in flight")), p) := by
  unfold register
  rw [h]

theorem Sound.enter (hp : p.Sound) {id : String} (hid : p.find? id = none)
    (connection : ConnectionId) : (p.enter id connection).Sound where
  ids := by
    have hnew : ∀ call ∈ p.waiting, call.id ≠ id := by
      intro call hcall
      simpa using List.find?_eq_none.mp hid call hcall
    show ((p.waiting ++ [_]).map PendingCall.id).Nodup
    rw [List.map_append, List.nodup_append]
    refine ⟨hp.ids, List.nodup_singleton _, ?_⟩
    intro a ha b hb
    obtain ⟨call, hcall, rfl⟩ := List.mem_map.mp ha
    rw [List.mem_singleton.mp hb]
    exact hnew call hcall
  tickets := by
    show ((p.waiting ++ [_]).map PendingCall.ticket).Nodup
    rw [List.map_append, List.nodup_append]
    refine ⟨hp.tickets, List.nodup_singleton _, ?_⟩
    intro a ha b hb
    obtain ⟨call, hcall, rfl⟩ := List.mem_map.mp ha
    rw [List.mem_singleton.mp hb]
    exact Nat.ne_of_lt (hp.issued call hcall)
  issued call hcall := by
    rcases List.mem_append.mp hcall with hcall | hcall
    · exact Nat.lt_succ_of_lt (hp.issued call hcall)
    · rw [List.mem_singleton.mp hcall]
      exact Nat.lt_succ_self _
  unsettled call hcall := by
    rcases List.mem_append.mp hcall with hcall | hcall
    · exact hp.unsettled call hcall
    · rw [List.mem_singleton.mp hcall]
      exact hp.unissued _ (Nat.le_refl _)
  unissued ticket hticket := hp.unissued ticket (Nat.le_of_succ_le hticket)

def close (p : PendingCalls) (ticket : Ticket) : PendingCalls :=
  { p with settled := p.settled.map fun o ↦ if o.1 = ticket then (ticket, .closed) else o }

@[simp]
theorem collect_of_some {ticket : Ticket} {s : Settlement} (h : p.outcome? ticket = some s) :
    p.collect ticket = (some s, p.close ticket) := by
  unfold collect
  rw [h]
  rfl

@[simp]
theorem outcome?_close (p : PendingCalls) (ticket other : Ticket) :
    (p.close ticket).outcome? other =
      if other = ticket then (p.outcome? ticket).map fun _ ↦ .closed else p.outcome? other := by
  unfold outcome? close
  induction p.settled with
  | nil => simp
  | cons o settled ih =>
    obtain ⟨key, s⟩ := o
    simp only at ih
    rw [List.map_cons, List.lookup_cons, List.lookup_cons, List.lookup_cons, ih]
    by_cases hkey : key = ticket
    · subst hkey
      by_cases hother : other = key
      · simp [hother]
      · have hne : (other == key) = false := beq_false_of_ne hother
        simp [hother, hne]
    · by_cases hother : other = ticket
      · subst hother
        have hne : (other == key) = false := beq_false_of_ne (Ne.symm hkey)
        simp [hkey, hne]
      · simp [hkey, hother]

theorem outcome?_close_of_none {ticket other : Ticket} (h : p.outcome? other = none) :
    (p.close ticket).outcome? other = none := by
  by_cases hother : other = ticket
  · simp [← hother, h]
  · simp [hother, h]

theorem Sound.close (hp : p.Sound) (ticket : Ticket) : (p.close ticket).Sound where
  ids := hp.ids
  tickets := hp.tickets
  issued := hp.issued
  unsettled call hcall := outcome?_close_of_none (hp.unsettled call hcall)
  unissued other hother := outcome?_close_of_none (hp.unissued other hother)

end FramedRpc.PendingCalls
