import FramedRpc.Client.Pool
import FramedRpc.Proofs.Client.Turns
import Mathlib.Data.Option.Basic

/-!
# What a step in the pool does

The steps of all parties in the pool, told by what they do to those who ask for a connection, to the
slots, to the table and to the connections. A connection moves by itself except where it leaves its
slot: it has to look that slot up, and waits until nobody has locked it. Apart from these steps only
calls touch the pool, which queue their requests.
-/

namespace FramedRpc

/-- The steps that a connection makes by itself. -/
inductive Connection.Moves (codec : Codec) (now : Nat) (c : Connection) :
    Pool.ConnectionEvent → Connection → Prop
  | closed : Moves codec now c .close c.close
  | turned {event : Connection.Event} {d : Connection} (hserving : c.stage = .serving)
    (h : c.Turns codec now event d) : Moves codec now c (.turn event) d
  | deafened {reason : Reason} (hstage : c.stage = .inactive reason) :
    Moves codec now c .deafen { c with stage := .deaf reason, queue := [] }
  | finished {reason : Reason} (hstage : c.stage = .departed reason) :
    Moves codec now c .finish { c with stage := .ended }

namespace Connection

variable {codec : Codec} {now : Nat} {c d : Connection} {event : Pool.ConnectionEvent}

/-- A connection that moves stays what it is made for. -/
theorem Moves.same (h : c.Moves codec now event d) : d.id = c.id ∧ d.key = c.key := by
  cases h with
  | turned _ h => exact ⟨h.same.1, h.same.2.1⟩
  | closed => exact ⟨rfl, rfl⟩
  | deafened => exact ⟨rfl, rfl⟩
  | finished => exact ⟨rfl, rfl⟩

theorem Moves.limits (h : c.Moves codec now event d) :
    d.liveness.limits = c.liveness.limits := by
  cases h with
  | turned _ h => exact h.limits
  | _ => rfl

/-- Nobody takes back that a connection is asked to end. -/
theorem Moves.told (h : c.Moves codec now event d) (hd : d.told = false) : c.told = false := by
  cases h with
  | closed => cases hd
  | turned _ h => exact h.same.2.2 ▸ hd
  | deafened => exact hd
  | finished => exact hd

/-- A connection that is inactive stays so. -/
theorem Moves.isActive (h : c.Moves codec now event d) (hd : d.isActive = true) :
    c.isActive = true := by
  cases h with
  | closed => exact hd
  | turned hserving => exact isActive_iff.mpr (.inl hserving)
  | deafened => cases hd
  | finished => cases hd

end Connection

namespace Pool

variable {p q : Pool} {now : Nat} {get : GetId} {g : Get} {id : ConnectionId} {c : Connection}
  {slot : SlotId} {event : Event}

/-- The pool behind a step of its own, or behind the step of a call that queues its request. -/
inductive Effect (p : Pool) (now : Nat) : Option Event → Pool → Prop
  | asked (key : ConnectionKey) :
    Effect p now (some (.ask key)) { p with gets := p.gets ++ [⟨key, .asking⟩] }
  | found {get : GetId} {g : Get} {slot : SlotId} (hg : p.gets[get]? = some g)
    (hphase : g.phase = .asking) (hslot : p.table.lookup g.key = some slot) :
    Effect p now (some (.get get .find)) (p.setPhase get (.waiting slot))
  | opened {get : GetId} {g : Get} (hg : p.gets[get]? = some g) (hphase : g.phase = .asking)
    (hnone : p.table.lookup g.key = none) : Effect p now (some (.get get .find))
    ({ p with
        slots := p.slots ++ [none]
        table := p.table ++ [(g.key, p.slots.length)] }.setPhase get (.waiting p.slots.length))
  | granted {get : GetId} {g : Get} {slot : SlotId} {id : ConnectionId}
    (hg : p.gets[get]? = some g) (hphase : g.phase = .waiting slot)
    (hcontent : p.content? slot = some id) (hactive : p.isActive id = true) :
    Effect p now (some (.get get .lock)) (p.setPhase get (.done (.ok id)))
  | locked {get : GetId} {g : Get} {slot : SlotId} (hg : p.gets[get]? = some g)
    (hphase : g.phase = .waiting slot) (hfree : p.isFree slot = true)
    (hinactive : ∀ id, p.content? slot = some id → p.isActive id = false) :
    Effect p now (some (.get get .lock)) ((p.setContent slot none).setPhase get (.connecting slot))
  | established {get : GetId} {g : Get} {slot : SlotId} (hg : p.gets[get]? = some g)
    (hphase : g.phase = .connecting slot) :
    Effect p now (some (.get get .established)) (p.establish now get g.key slot)
  | failed {get : GetId} {g : Get} {slot : SlotId} (flaw : ConnectFlaw)
    (hg : p.gets[get]? = some g) (hphase : g.phase = .connecting slot) :
    Effect p now (some (.get get (.failed flaw))) (p.setPhase get
      (.done (.error (flaw.fault g.key.endpoint p.config.connectTimeout))))
  | stored {get : GetId} {g : Get} {slot : SlotId} {id : ConnectionId}
    (hg : p.gets[get]? = some g) (hphase : g.phase = .storing slot id) :
    Effect p now (some (.get get .store))
      ((p.setContent slot (some id)).setPhase get (.done (.ok id)))
  | cancelled {get : GetId} {g : Get} {slot : SlotId} (hg : p.gets[get]? = some g)
    (hphase : g.phase = .waiting slot ∨ g.phase = .connecting slot) :
    Effect p now (some (.get get .cancel)) (p.setPhase get .cancelled)
  | moved {id : ConnectionId} {c d : Connection} {event : ConnectionEvent}
    (hc : p.connection? id = some c) (hmoves : c.Moves p.config.codec now event d) :
    Effect p now (some (.connection id event)) (p.setConnection d)
  | searched {id : ConnectionId} {c : Connection} {reason : Connection.Reason}
    (hc : p.connection? id = some c) (hstage : c.stage = .deaf reason) :
    Effect p now (some (.connection id .search))
      (p.setConnection { c with stage := .leaving reason (p.table.lookup c.key) })
  | departed {id : ConnectionId} {c : Connection} {reason : Connection.Reason}
    {found : Option SlotId} (hc : p.connection? id = some c)
    (hstage : c.stage = .leaving reason found) (hfree : found.all p.isFree = true) :
    Effect p now (some (.connection id .depart))
      ((found.elim p (p.clear c.id)).setConnection { c with stage := .departed reason })
  | swept : Effect p now (some .sweep)
    { p with table := [], sweeps := p.sweeps ++ [p.table.map Prod.snd] }
  | emptied {sweep : SweepId} {slot : SlotId} {remaining : List SlotId}
    (hsweep : p.sweeps[sweep]? = some remaining) (hslot : slot ∈ remaining)
    (hfree : p.isFree slot = true) : Effect p now (some (.empty sweep slot))
    ({ p with sweeps := p.sweeps.set sweep (remaining.erase slot) }.emptySlot slot)
  | pushed {c : Connection} (r : Request) (hc : p.connection? c.id = some c) :
    Effect p now none (p.setConnection { c with queue := c.queue ++ [r] })

/-! ## Who asks for a connection -/

theorem content?_eq (p : Pool) (slot : SlotId) : p.content? slot = (p.slots[slot]?).join := rfl

/-- An empty slot is as it was when it is emptied. -/
@[simp]
theorem setContent_of_none (h : p.content? slot = none) : p.setContent slot none = p := by
  have hslots : p.slots.set slot none = p.slots := by
    apply List.ext_getElem?
    intro i
    rw [List.getElem?_set]
    split
    case isTrue hi =>
      subst hi
      rw [content?_eq] at h
      cases hslot : p.slots[slot]? with
      | none =>
        have hlength : ¬ slot < p.slots.length := by
          simpa using hslot
        rw [if_neg hlength]
      | some content =>
        have hlength : slot < p.slots.length := (List.getElem?_eq_some_iff.mp hslot).1
        rw [hslot] at h
        rw [if_pos hlength]
        exact congrArg some h.symm
    case isFalse => rfl
  rw [setContent, hslots]

theorem effect_find (hg : p.gets[get]? = some g) (h : p.stepGet now get g .find = some q) :
    Effect p now (some (.get get .find)) q := by
  simp only [stepGet] at h
  split at h
  case h_1 hphase =>
    obtain rfl := Option.some.inj h
    unfold slotFor
    cases hslot : p.table.lookup g.key with
    | some slot => exact .found hg hphase hslot
    | none => exact .opened hg hphase hslot
  case h_2 => cases h

theorem effect_lock (hg : p.gets[get]? = some g) (h : p.stepGet now get g .lock = some q) :
    Effect p now (some (.get get .lock)) q := by
  simp only [stepGet] at h
  split at h
  case h_1 slot hphase =>
    obtain ⟨hfree, h⟩ := Option.ite_none_right_eq_some.mp h
    obtain rfl := Option.some.inj h
    unfold lock
    cases hcontent : p.content? slot with
    | none =>
      have hlocked : Effect p now (some (.get get .lock))
          ((p.setContent slot none).setPhase get (.connecting slot)) := by
        apply Effect.locked hg hphase hfree
        intro id hid
        rw [hcontent] at hid
        cases hid
      simpa [hcontent] using hlocked
    | some id =>
      by_cases hactive : p.isActive id = true
      · simp only [if_pos hactive]
        exact .granted hg hphase hcontent hactive
      · simp only [if_neg hactive]
        apply Effect.locked hg hphase hfree
        intro other hother
        rw [hcontent] at hother
        obtain rfl := Option.some.inj hother
        exact Bool.eq_false_iff.mpr hactive
  case h_2 => cases h

theorem effect_get {event : GetEvent} (hg : p.gets[get]? = some g)
    (h : p.stepGet now get g event = some q) : Effect p now (some (.get get event)) q := by
  cases event with
  | find => exact effect_find hg h
  | lock => exact effect_lock hg h
  | established =>
    simp only [stepGet] at h
    split at h
    case h_1 hphase =>
      obtain rfl := Option.some.inj h
      exact .established hg hphase
    case h_2 => cases h
  | failed flaw =>
    simp only [stepGet] at h
    split at h
    case h_1 hphase =>
      obtain rfl := Option.some.inj h
      exact .failed flaw hg hphase
    case h_2 => cases h
  | store =>
    simp only [stepGet] at h
    split at h
    case h_1 hphase =>
      obtain rfl := Option.some.inj h
      exact .stored hg hphase
    case h_2 => cases h
  | cancel =>
    simp only [stepGet] at h
    split at h
    case h_1 hphase =>
      obtain rfl := Option.some.inj h
      exact .cancelled hg (.inl hphase)
    case h_2 hphase =>
      obtain rfl := Option.some.inj h
      exact .cancelled hg (.inr hphase)
    case h_3 => cases h

/-! ## Connections -/

theorem effect_connection {event : ConnectionEvent} (hc : p.connection? id = some c)
    (h : p.stepConnection now c event = some q) : Effect p now (some (.connection id event)) q := by
  cases event with
  | close =>
    obtain rfl := Option.some.inj h
    exact .moved hc .closed
  | turn event =>
    obtain ⟨d, hturn, h⟩ := Option.bind_eq_some_iff.mp h
    obtain rfl := Option.some.inj h
    obtain ⟨hserving, hturns⟩ := Connection.turns_of_step hturn
    exact .moved hc (.turned hserving hturns)
  | deafen =>
    simp only [stepConnection] at h
    split at h
    case h_1 hstage =>
      obtain rfl := Option.some.inj h
      exact .moved hc (.deafened hstage)
    case h_2 => cases h
  | search =>
    simp only [stepConnection] at h
    split at h
    case h_1 hstage =>
      obtain rfl := Option.some.inj h
      exact .searched hc hstage
    case h_2 => cases h
  | depart =>
    simp only [stepConnection] at h
    split at h
    case h_1 hstage =>
      obtain ⟨hfree, h⟩ := Option.ite_none_right_eq_some.mp h
      obtain rfl := Option.some.inj h
      exact .departed hc hstage hfree
    case h_2 => cases h
  | finish =>
    simp only [stepConnection] at h
    split at h
    case h_1 hstage =>
      obtain rfl := Option.some.inj h
      exact .moved hc (.finished hstage)
    case h_2 => cases h

/-- What a step does to the pool. -/
theorem effect_of_step (h : p.step now event = some q) : Effect p now (some event) q := by
  cases event with
  | ask key =>
    obtain rfl := Option.some.inj h
    exact .asked key
  | get get event =>
    obtain ⟨g, hg, h⟩ := Option.bind_eq_some_iff.mp h
    exact effect_get hg h
  | connection id event =>
    obtain ⟨c, hc, h⟩ := Option.bind_eq_some_iff.mp h
    exact effect_connection hc h
  | sweep =>
    obtain rfl := Option.some.inj h
    exact .swept
  | empty sweep slot =>
    obtain ⟨remaining, hsweep, h⟩ := Option.bind_eq_some_iff.mp h
    obtain ⟨_, hguard, h⟩ := Option.bind_eq_some_iff.mp h
    obtain ⟨hslot, hfree⟩ := (Option.guard_eq_some' _).mp hguard
    obtain rfl := Option.some.inj h
    exact .emptied hsweep hslot hfree

end Pool

end FramedRpc
