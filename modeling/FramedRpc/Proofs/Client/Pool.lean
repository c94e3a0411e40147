import FramedRpc.Proofs.Client.PoolSteps

/-!
# What a step makes of connections and of those who ask for them

The connection of a number is behind a step what it was, or it took the step itself, or it was just
established, or it was asked to end. So only its own last step ends a connection. Who asks the pool
for a connection is told at most that it could not be established, which is no mismatch of a
response.
-/

namespace FramedRpc

namespace Pool

variable {p q : Pool} {now : Nat} {event : Event} {id : ConnectionId} {c d : Connection}

/-! ## Connections -/

theorem id_of_connection? (h : p.connection? id = some c) : c.id = id := by
  simpa using List.find?_some h

theorem isActive_of_connection? (h : p.connection? id = some c) : p.isActive id = c.isActive := by
  rw [isActive, h]
  rfl

/-- A connection in the place of another one of its number is what that number then stands for. -/
theorem connection?_setConnection (hc : p.connection? d.id = some c) (id : ConnectionId) :
    (p.setConnection d).connection? id = if id = d.id then some d else p.connection? id := by
  have hid : ((fun other : Connection ↦ decide (other.id = id)) ∘
      fun other ↦ if other.id = d.id then d else other) = fun other ↦ decide (other.id = id) := by
    funext other
    by_cases hother : other.id = d.id <;> simp [hother]
  have hfind : (p.setConnection d).connection? id =
      (p.connection? id).map fun other ↦ if other.id = d.id then d else other := by
    rw [connection?, setConnection, List.find?_map, hid]
    rfl
  rw [hfind]
  cases hother : p.connection? id with
  | none =>
    have hne : id ≠ d.id := by
      rintro rfl
      rw [hc] at hother
      cases hother
    simp [hne]
  | some other =>
    rw [Option.map_some, id_of_connection? hother, apply_ite some]

def isServing (p : Pool) (id : ConnectionId) : Bool := (p.connection? id).any Connection.isServing

/-- A connection in the place of another one that a test does not tell from it changes nothing for
that test. -/
theorem any_setConnection {test : Connection → Bool} (hc : p.connection? c.id = some c)
    (hid : d.id = c.id) (htest : test d = test c) (id : ConnectionId) :
    ((p.setConnection d).connection? id).any test = (p.connection? id).any test := by
  rw [← hid] at hc
  rw [connection?_setConnection hc]
  split
  case isTrue heq =>
    rw [heq, hc]
    exact htest
  case isFalse => rfl

theorem isActive_setConnection (hc : p.connection? c.id = some c) (hid : d.id = c.id)
    (hactive : d.isActive = c.isActive) (id : ConnectionId) :
    (p.setConnection d).isActive id = p.isActive id := any_setConnection hc hid hactive id

theorem isServing_setConnection (hc : p.connection? c.id = some c) (hid : d.id = c.id)
    (hserving : d.isServing = c.isServing) (id : ConnectionId) :
    (p.setConnection d).isServing id = p.isServing id := any_setConnection hc hid hserving id

/-- Where the connection comes from that has a number behind a step. -/
inductive Origin (p : Pool) (now : Nat) (id : ConnectionId) : Option Event → Connection → Prop
  | kept {event : Option Event} {c : Connection} (hc : p.connection? id = some c) :
    Origin p now id event c
  | established {get : GetId} {g : Get} {slot : SlotId} (hg : p.gets[get]? = some g)
    (hphase : g.phase = .connecting slot) (hid : id = p.nextId)
    (hnone : p.connection? id = none) : Origin p now id (some (.get get .established))
    (.establish p.nextId g.key p.config.idleLimits now)
  | moved {c d : Connection} {event : ConnectionEvent} (hc : p.connection? id = some c)
    (hmoves : c.Moves p.config.codec now event d) :
    Origin p now id (some (.connection id event)) d
  | searched {c : Connection} {reason : Connection.Reason} (hc : p.connection? id = some c)
    (hstage : c.stage = .deaf reason) : Origin p now id (some (.connection id .search))
    { c with stage := .leaving reason (p.table.lookup c.key) }
  | departed {c : Connection} {reason : Connection.Reason} {found : Option SlotId}
    (hc : p.connection? id = some c) (hstage : c.stage = .leaving reason found) :
    Origin p now id (some (.connection id .depart)) { c with stage := .departed reason }
  | told {c : Connection} {sweep : SweepId} {slot : SlotId} (hc : p.connection? id = some c)
    (hcontent : p.content? slot = some id) : Origin p now id (some (.empty sweep slot)) c.close
  | pushed {c : Connection} (r : Request) (hc : p.connection? id = some c) :
    Origin p now id none { c with queue := c.queue ++ [r] }

/-- A connection that leaves its slot changes nothing but what is in the slots. -/
theorem elim_clear (p : Pool) (id : ConnectionId) (found : Option SlotId) :
    ∃ slots, found.elim p (p.clear id) = { p with slots } := by
  cases found with
  | none => exact ⟨p.slots, rfl⟩
  | some slot =>
    show ∃ slots, p.clear id slot = { p with slots }
    unfold clear
    split
    case isTrue => exact ⟨_, rfl⟩
    case isFalse => exact ⟨p.slots, rfl⟩

/-- Who empties a slot changes nothing but what is in the slots and the connections. -/
theorem emptySlot_eq (p : Pool) (slot : SlotId) :
    ∃ slots connections, p.emptySlot slot = { p with slots, connections } := by
  unfold emptySlot
  split
  case h_1 => exact ⟨_, p.connections, rfl⟩
  case h_2 => exact ⟨_, _, rfl⟩

/-- A connection is put in the place of another one, maybe in a pool with other slots. -/
theorem connection?_cases {r : Pool} {changed : Connection} {other : ConnectionId}
    (hd : (r.setConnection changed).connection? id = some d) (hr : r.connections = p.connections)
    (hc : p.connection? other = some c) (hid : changed.id = other) :
    p.connection? id = some d ∨ id = other ∧ d = changed := by
  have hsame (id : ConnectionId) : r.connection? id = p.connection? id := by
    rw [connection?, hr, connection?]
  rw [← hid, ← hsame] at hc
  rw [connection?_setConnection hc, hid, hsame] at hd
  split at hd
  case isTrue heq => exact .inr ⟨heq, (Option.some.inj hd).symm⟩
  case isFalse => exact .inl hd

theorem origin_of_establish {get : GetId} {g : Get} {slot : SlotId} (hg : p.gets[get]? = some g)
    (hphase : g.phase = .connecting slot)
    (hd : (p.establish now get g.key slot).connection? id = some d) :
    Origin p now id (some (.get get .established)) d := by
  let new := Connection.establish p.nextId g.key p.config.idleLimits now
  have hfind : (p.connections ++ [new]).find? (fun other ↦ other.id = id) = some d := hd
  rw [List.find?_append] at hfind
  rcases Option.or_eq_some_iff.mp hfind with hold | ⟨hnone, hnew⟩
  · exact .kept hold
  · obtain rfl := List.mem_singleton.mp (List.mem_of_find?_eq_some hnew)
    have hid : new.id = id := by
      simpa using List.find?_some hnew
    exact .established hg hphase hid.symm hnone

theorem Effect.origin {event : Option Event} (h : Effect p now event q)
    (hd : q.connection? id = some d) : Origin p now id event d := by
  cases h with
  | established hg hphase => exact origin_of_establish hg hphase hd
  | moved hc hmoves =>
    have hid := hmoves.same.1.trans (id_of_connection? hc)
    rcases connection?_cases hd rfl hc hid with hold | ⟨rfl, rfl⟩
    · exact .kept hold
    · exact .moved hc hmoves
  | searched hc hstage =>
    have hid := id_of_connection? hc
    rcases connection?_cases hd rfl hc hid with hold | ⟨rfl, rfl⟩
    · exact .kept hold
    · exact .searched hc hstage
  | @departed other c reason found hc hstage =>
    have hid := id_of_connection? hc
    obtain ⟨slots, hslots⟩ := elim_clear p c.id found
    rw [hslots] at hd
    rcases connection?_cases (p := p) hd rfl hc hid with hold | ⟨rfl, rfl⟩
    · exact .kept hold
    · exact .departed hc hstage
  | @emptied sweep slot =>
    unfold emptySlot at hd
    split at hd
    case h_1 => exact .kept hd
    case h_2 c hc =>
      obtain ⟨content, hcontent, hc⟩ := Option.bind_eq_some_iff.mp hc
      have hid := id_of_connection? hc
      rcases connection?_cases (p := p) hd rfl hc hid with hold | ⟨rfl, rfl⟩
      · exact .kept hold
      · exact .told hc hcontent
  | pushed r hc =>
    rcases connection?_cases hd rfl hc rfl with hold | ⟨rfl, rfl⟩
    · exact .kept hold
    · exact .pushed r hc
  | _ => exact .kept hd

/-- No step changes how connections are made and kept. -/
theorem Effect.config_eq {event : Option Event} (h : Effect p now event q) :
    q.config = p.config := by
  cases h with
  | @departed id c reason found =>
    obtain ⟨slots, hslots⟩ := elim_clear p c.id found
    rw [hslots]
    rfl
  | @emptied sweep slot =>
    obtain ⟨slots, connections, hslots⟩ := emptySlot_eq _ slot
    rw [hslots]
  | _ => rfl

/-- All connections have the limits that they are made with. -/
def Limited (p : Pool) : Prop :=
  ∀ id c, p.connection? id = some c → c.liveness.limits = p.config.idleLimits

theorem limited_empty (config : ConnectionConfig) : (empty config).Limited := by
  intro id c hc
  have hnone : (empty config).connection? id = none := rfl
  cases hnone.symm.trans hc

theorem Effect.limited {event : Option Event} (h : Effect p now event q) (hp : p.Limited) :
    q.Limited := by
  intro id d hd
  rw [h.config_eq]
  have hkept {c : Connection} (hc : p.connection? id = some c)
      (hsame : d.liveness.limits = c.liveness.limits) :
      d.liveness.limits = p.config.idleLimits := hsame.trans (hp id c hc)
  cases h.origin hd with
  | established => rfl
  | kept hc => exact hkept hc rfl
  | moved hc hmoves => exact hkept hc hmoves.limits
  | searched hc => exact hkept hc rfl
  | departed hc => exact hkept hc rfl
  | told hc => exact hkept hc rfl
  | pushed _ hc => exact hkept hc rfl

def Ended (p : Pool) (id : ConnectionId) : Prop :=
  ∃ c, p.connection? id = some c ∧ c.stage = .ended

/-- A connection of the same stage in the place of another one ends none. -/
theorem Ended.of_setConnection (h : (p.setConnection d).Ended id)
    (hc : p.connection? c.id = some c) (hid : d.id = c.id) (hstage : d.stage = c.stage) :
    p.Ended id := by
  obtain ⟨found, hfound, hended⟩ := h
  rcases connection?_cases hfound rfl hc hid with hold | ⟨rfl, rfl⟩
  · exact ⟨found, hold, hended⟩
  · exact ⟨c, hc, hstage.symm.trans hended⟩

/-- A connection that has ended behind a step had ended before, or ends by that step. -/
theorem ended_of_step (hstep : p.step now event = some q) (h : q.Ended id) :
    p.Ended id ∨ event = .connection id .finish ∧
      ∃ c reason, p.connection? id = some c ∧ c.stage = .departed reason := by
  obtain ⟨d, hd, hended⟩ := h
  cases (effect_of_step hstep).origin hd with
  | kept hd => exact .inl ⟨d, hd, hended⟩
  | established => cases hended
  | moved hc hmoves =>
    cases hmoves with
    | closed => exact .inl ⟨_, hc, hended⟩
    | turned hserving hturns =>
      rcases hturns.stage with hsame | ⟨reason, hinactive⟩ | hbroken
      · cases hserving.symm.trans (hsame.symm.trans hended)
      · cases hinactive.symm.trans hended
      · cases hbroken.symm.trans hended
    | deafened => cases hended
    | finished hstage => exact .inr ⟨rfl, _, _, hc, hstage⟩
  | searched => cases hended
  | departed => cases hended
  | told hc => exact .inl ⟨_, hc, hended⟩

/-! ## Who asks for a connection -/

/-- What a step does to those who ask for a connection: nothing, or there is one more, or one of
them gets to a stage, which is no mismatch. -/
inductive Asked (p : Pool) : List Get → Prop
  | same : Asked p p.gets
  | more (key : ConnectionKey) : Asked p (p.gets ++ [⟨key, .asking⟩])
  | moved (get : GetId) (phase : Phase)
    (hphase : ∀ fault, phase = .done (.error fault) → fault.kind ≠ .responseMismatch) :
    Asked p (p.setPhase get phase).gets

theorem kind_fault (flaw : ConnectFlaw) (e : Endpoint) (timeout : Nat) :
    (flaw.fault e timeout).kind ≠ .responseMismatch := by
  cases flaw <;> nofun

theorem asked_step (h : p.step now event = some q) : Asked p q.gets := by
  cases effect_of_step h with
  | asked key => exact .more key
  | found => exact .moved _ _ nofun
  | opened => exact .moved _ _ nofun
  | granted => exact .moved _ _ nofun
  | locked => exact .moved _ _ nofun
  | established => exact .moved _ _ nofun
  | failed flaw =>
    refine .moved _ _ fun fault hfault ↦ ?_
    cases hfault
    exact kind_fault flaw _ _
  | stored => exact .moved _ _ nofun
  | cancelled => exact .moved _ _ nofun
  | moved => exact .same
  | searched => exact .same
  | @departed id c reason found =>
    obtain ⟨slots, hslots⟩ := elim_clear p c.id found
    rw [hslots]
    exact .same
  | swept => exact .same
  | @emptied sweep slot =>
    obtain ⟨slots, connections, hslots⟩ := emptySlot_eq _ slot
    rw [hslots]
    exact .same

/-- Nobody who asks for a connection is told of a mismatch. -/
def Blameless (p : Pool) : Prop :=
  ∀ g ∈ p.gets, ∀ fault, g.phase = .done (.error fault) → fault.kind ≠ .responseMismatch

theorem Asked.blameless {gets : List Get} (h : Asked p gets) (hp : p.Blameless) :
    ∀ g ∈ gets, ∀ fault, g.phase = .done (.error fault) → fault.kind ≠ .responseMismatch := by
  cases h with
  | same => exact hp
  | more key =>
    intro g hg fault hfault
    rcases List.mem_append.mp hg with hg | hg
    · exact hp g hg fault hfault
    · rw [List.mem_singleton.mp hg] at hfault
      cases hfault
  | moved get phase hphase =>
    intro g hg fault hfault
    obtain ⟨i, hi⟩ := List.mem_iff_getElem?.mp hg
    have hget : (p.gets.modify get fun g ↦ { g with phase })[i]? = some g := hi
    rw [List.getElem?_modify] at hget
    obtain ⟨old, hold, rfl⟩ := Option.map_eq_some_iff.mp hget
    split at hfault
    case isTrue => exact hphase fault hfault
    case isFalse => exact hp old (List.mem_of_getElem? hold) fault hfault

end Pool

end FramedRpc
