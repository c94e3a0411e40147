import FramedRpc.Proofs.Client.Order

/-!
# Where a connection is held

A connection is held in a slot if it is in it or a caller is about to store it there. Only when it
is established does it get to a slot, and as long as it is active it stays there, unless somebody
who closes everything takes it out and asks it to end. A slot holds one connection at a time.
-/

namespace FramedRpc

namespace Pool

/-- A connection is in a slot, or a caller is about to store it there. -/
inductive Held (p : Pool) (slot : SlotId) (id : ConnectionId) : Prop
  | stored (h : p.content? slot = some id)
  | coming {g : Get} (hg : g ∈ p.gets) (hphase : g.phase = .storing slot id)

variable {p q : Pool} {now : Nat} {event : Option Event} {get : GetId} {g f : Get}
  {id other : ConnectionId} {c d : Connection} {slot : SlotId} {keys : List ConnectionKey}
  {phase : Phase} {reason : Connection.Reason}

/-! ## What is held -/

/-- What is held in a slot is made for its key. -/
theorem Ordered.key_of_held (h : Ordered keys p) (hheld : p.Held slot id)
    (hc : p.connection? id = some c) : keys[slot]? = some c.key := by
  have hmade : ∃ key, keys[slot]? = some key ∧ p.keyOf? id = some key := by
    cases hheld with
    | stored hcontent => exact h.stored slot id hcontent
    | @coming g hg hphase =>
      obtain ⟨hsought, -, howned⟩ := h.rightful g hg
      exact ⟨g.key, hsought slot (by rw [hphase]; rfl), howned id (by rw [hphase]; rfl)⟩
  obtain ⟨key, hslot, hkey⟩ := hmade
  obtain ⟨found, hfound, rfl⟩ := Option.map_eq_some_iff.mp hkey
  obtain rfl := Option.some.inj (hc.symm.trans hfound)
  exact hslot

/-- As long as the pool forgets no slots, it has what is held under its key. -/
theorem Ordered.lookup_of_held (h : Ordered keys p) (hsweeps : p.sweeps = [])
    (hheld : p.Held slot id) (hc : p.connection? id = some c) :
    p.table.lookup c.key = some slot :=
  lookup_eq_some_of_mem h.distinct (h.complete hsweeps c.key slot (h.key_of_held hheld hc))

theorem Ordered.held_unique (h : Ordered keys p) (hid : p.Held slot id)
    (hother : p.Held slot other) : id = other := by
  have hlocked {g : Get} {id : ConnectionId} (hg : g ∈ p.gets)
      (hphase : g.phase = .storing slot id) : p.content? slot = none :=
    (h.rightful g hg).vacant slot (by rw [hphase]; rfl)
  cases hid with
  | stored hcontent =>
    cases hother with
    | stored hsecond => exact Option.some.inj (hcontent.symm.trans hsecond)
    | coming hg hphase => cases hcontent.symm.trans (hlocked hg hphase)
  | @coming g hg hphase =>
    cases hother with
    | stored hsecond => cases hsecond.symm.trans (hlocked hg hphase)
    | @coming f hf hsecond =>
      obtain ⟨first, hfirst⟩ := List.mem_iff_getElem?.mp hg
      obtain ⟨second, hget⟩ := List.mem_iff_getElem?.mp hf
      obtain rfl := h.alone first second g f slot hfirst hget (by rw [hphase]; rfl)
        (by rw [hsecond]; rfl)
      obtain rfl := Option.some.inj (hfirst.symm.trans hget)
      cases hphase.symm.trans hsecond
      rfl

/-! ## Back to the pool before a step -/

theorem mem_gets_setPhase (hg : p.gets[get]? = some g) (hf : f ∈ (p.setPhase get phase).gets) :
    f = ⟨g.key, phase⟩ ∨ f ∈ p.gets := by
  obtain ⟨other, hother⟩ := List.mem_iff_getElem?.mp hf
  rw [getElem?_setPhase hg] at hother
  split at hother
  case isTrue => exact .inl (Option.some.inj hother).symm
  case isFalse => exact .inr (List.mem_of_getElem? hother)

theorem Held.of_thins (h : q.Held slot id) (hthins : Thins p q) : p.Held slot id := by
  cases h with
  | stored hcontent => exact .stored (hthins.content slot id hcontent)
  | coming hg hphase => exact .coming (hthins.gets ▸ hg) hphase

/-- A caller that is not about to store a connection holds none. -/
theorem Held.of_setPhase (h : (p.setPhase get phase).Held slot id) (hg : p.gets[get]? = some g)
    (hphase : ∀ slot id, phase ≠ .storing slot id) : p.Held slot id := by
  cases h with
  | stored hcontent => exact .stored hcontent
  | coming hf hstoring =>
    rcases mem_gets_setPhase hg hf with rfl | hold
    · exact absurd hstoring (hphase slot id)
    · exact .coming hold hstoring

theorem Held.of_setContent {target : SlotId} (h : (p.setContent target (some other)).Held slot id)
    (hg : g ∈ p.gets) (hphase : g.phase = .storing target other) : p.Held slot id := by
  cases h with
  | stored hcontent =>
    rcases content?_setContent_cases hcontent with hold | ⟨rfl, hid⟩
    · exact .stored hold
    · obtain rfl := Option.some.inj hid
      exact .coming hg hphase
  | coming hf hstoring => exact .coming hf hstoring

/-- What is held behind a step was held before, or was just established. -/
theorem Effect.held_cases (heffect : Effect p now event q) (h : q.Held slot id) :
    p.Held slot id ∨ id = p.nextId ∧ ∃ get g, event = some (.get get .established) ∧
      p.gets[get]? = some g ∧ g.phase = .connecting slot := by
  cases heffect with
  | asked key =>
    cases h with
    | stored hcontent => exact .inl (.stored hcontent)
    | coming hg hphase =>
      rcases List.mem_append.mp hg with hold | hnew
      · exact .inl (.coming hold hphase)
      · obtain rfl := List.mem_singleton.mp hnew
        cases hphase
  | found hg => exact .inl (h.of_setPhase hg nofun)
  | opened hg =>
    cases h.of_setPhase hg nofun with
    | stored hcontent =>
      exact .inl (.stored (by simpa using hcontent))
    | coming hf hphase => exact .inl (.coming hf hphase)
  | granted hg => exact .inl (h.of_setPhase hg nofun)
  | locked hg => exact .inl ((h.of_setPhase hg nofun).of_thins (thins_setContent_none p _))
  | @established get g slot hg hphase =>
    cases h with
    | stored hcontent => exact .inl (.stored hcontent)
    | coming hf hstoring =>
      rcases mem_gets_setPhase (p := { p with connections := _, nextId := _ }) hg hf with rfl | hold
      · cases hstoring
        exact .inr ⟨rfl, get, g, rfl, hg, hphase⟩
      · exact .inl (.coming hold hstoring)
  | failed flaw hg => exact .inl (h.of_setPhase hg nofun)
  | stored hg hphase =>
    exact .inl ((h.of_setPhase hg nofun).of_setContent (List.mem_of_getElem? hg) hphase)
  | cancelled hg => exact .inl (h.of_setPhase hg nofun)
  | moved hc hmoves => exact .inl (h.of_thins (thins_setConnection hc hmoves.same.1 hmoves.same.2))
  | searched hc => exact .inl (h.of_thins (thins_setConnection hc rfl rfl))
  | departed hc => exact .inl (h.of_thins (thins_depart hc _ _))
  | swept =>
    cases h with
    | stored hcontent => exact .inl (.stored hcontent)
    | coming hg hphase => exact .inl (.coming hg hphase)
  | emptied => exact .inl (h.of_thins (thins_empty p _ _ _))
  | pushed r hc => exact .inl (h.of_thins (thins_setConnection hc rfl rfl))

/-- Who closes everything began to do so, and stays there. -/
theorem Effect.sweeps_cases (heffect : Effect p now event q) :
    q.sweeps.length = p.sweeps.length ∨
      event = some .sweep ∧ q.sweeps.length = p.sweeps.length + 1 := by
  cases heffect with
  | @departed id c reason found =>
    obtain ⟨slots, hslots⟩ := elim_clear p c.id found
    rw [hslots]
    exact .inl rfl
  | swept => exact .inr ⟨rfl, List.length_append⟩
  | @emptied sweep slot =>
    obtain ⟨slots, connections, hslots⟩ := emptySlot_eq _ slot
    rw [hslots]
    exact .inl List.length_set
  | _ => exact .inl rfl

theorem Effect.sweeps (heffect : Effect p now event q) (h : q.sweeps = []) : p.sweeps = [] := by
  rw [← List.length_eq_zero_iff] at h ⊢
  rcases heffect.sweeps_cases with hlength | ⟨-, hlength⟩
  · exact hlength.symm.trans h
  · omega

/-! ## A slot that is emptied -/

/-- In a slot that is empty and that nobody has locked no connection is held. -/
theorem not_held_of_isFree (hfree : p.isFree slot = true) (hgets : q.gets = p.gets)
    (hcontent : q.content? slot ≠ some id) : ¬ q.Held slot id := by
  intro h
  cases h with
  | stored hstored => exact hcontent hstored
  | coming hg hphase =>
    rw [hgets] at hg
    exact isFree_iff.mp hfree _ hg (by rw [hphase]; rfl)

@[simp]
theorem content?_emptySlot_self (p : Pool) (slot : SlotId) :
    (p.emptySlot slot).content? slot = none := by
  unfold emptySlot
  split
  case h_1 => simp
  case h_2 => exact content?_setContent_self p slot

theorem Effect.not_held_of_empty {sweep : SweepId}
    (heffect : Effect p now (some (.empty sweep slot)) q) : ¬ q.Held slot id := by
  cases heffect with
  | emptied hsweep hslot hfree =>
    refine not_held_of_isFree hfree (thins_empty p _ _ _).gets fun h ↦ ?_
    simp at h

/-- A connection that left the slot that it had found is not held in it. -/
theorem Effect.not_held_of_depart (heffect : Effect p now (some (.connection id .depart)) q)
    (hc : p.connection? id = some c) (hstage : c.stage = .leaving reason (some slot)) :
    ¬ q.Held slot id := by
  cases heffect with
  | moved _ hmoves => cases hmoves
  | departed hfound hleaving hfree =>
    obtain rfl := Option.some.inj (hc.symm.trans hfound)
    obtain ⟨rfl, rfl⟩ := Connection.Stage.leaving.inj (hleaving.symm.trans hstage)
    obtain rfl := id_of_connection? hc
    refine not_held_of_isFree hfree (thins_depart hc (some slot) _).gets fun h ↦ ?_
    have hclear : (p.clear c.id slot).content? slot = some c.id := h
    unfold clear at hclear
    split at hclear
    case isTrue => simp at hclear
    case isFalse hother => exact hother hclear

/-- A connection that is held in a slot which somebody empties is asked to end. -/
theorem Effect.told_of_empty {sweep : SweepId}
    (heffect : Effect p now (some (.empty sweep slot)) q) (h : p.Held slot id)
    (hd : q.connection? id = some d) : d.told = true ∧ q.sweeps ≠ [] := by
  have hsweeps : q.sweeps ≠ [] := by
    intro hnil
    have hbefore := heffect.sweeps hnil
    cases heffect with
    | emptied hsweep => simp [hbefore] at hsweep
  refine ⟨?_, hsweeps⟩
  cases heffect with
  | emptied hsweep hslot hfree =>
    cases h with
    | coming hg hphase => exact absurd (by rw [hphase]; rfl) (isFree_iff.mp hfree _ hg)
    | stored hcontent =>
      unfold emptySlot at hd
      split at hd
      case h_1 hnone =>
        have hbind : (p.content? slot).bind p.connection? = none := hnone
        rw [hcontent] at hbind
        cases hbind.symm.trans hd
      case h_2 c hc =>
        have hbind : (p.content? slot).bind p.connection? = some c := hc
        rw [hcontent] at hbind
        obtain rfl := id_of_connection? hbind
        have hd : (p.setConnection c.close).connection? c.id = some d := hd
        rw [connection?_setConnection (d := c.close) hbind] at hd
        cases (if_pos rfl).symm.trans hd
        rfl

/-! ## What an active connection keeps -/

theorem mem_gets_setPhase_of_ne (hg : p.gets[get]? = some g) (hf : f ∈ p.gets)
    (hne : f.phase ≠ g.phase) : f ∈ (p.setPhase get phase).gets := by
  obtain ⟨other, hother⟩ := List.mem_iff_getElem?.mp hf
  have hget : other ≠ get := by
    rintro rfl
    obtain rfl := Option.some.inj (hother.symm.trans hg)
    exact hne rfl
  apply List.mem_of_getElem? (i := other)
  rw [getElem?_setPhase hg, if_neg hget, hother]

/-- Only what is in the slots and the callers count. -/
theorem Held.congr (h : p.Held slot id) (hslots : q.slots = p.slots) (hgets : q.gets = p.gets) :
    q.Held slot id := by
  cases h with
  | stored hcontent =>
    apply Held.stored
    rw [content?_eq, hslots]
    exact hcontent
  | coming hg hphase => exact .coming (hgets ▸ hg) hphase

/-- Another slot is emptied. -/
theorem Held.setContent (h : p.Held slot id) {target : SlotId}
    (htarget : p.content? target = some id → slot ≠ target) (content : Option ConnectionId) :
    (p.setContent target content).Held slot id := by
  cases h with
  | stored hcontent =>
    apply Held.stored
    rw [content?_setContent_of_ne]
    · exact hcontent
    · rintro rfl
      exact htarget hcontent rfl
  | coming hg hphase => exact .coming hg hphase

theorem Held.setPhase (h : p.Held slot id) (hg : p.gets[get]? = some g)
    (hphase : ∀ slot id, g.phase ≠ .storing slot id) : (p.setPhase get phase).Held slot id := by
  cases h with
  | stored hcontent => exact .stored hcontent
  | coming hf hstoring =>
    refine .coming (mem_gets_setPhase_of_ne hg hf ?_) hstoring
    rw [hstoring]
    exact (hphase slot id).symm

theorem Held.store (h : p.Held slot id) (hp : Ordered keys p) {target : SlotId}
    (hg : p.gets[get]? = some g) (hphase : g.phase = .storing target other) :
    ((p.setContent target (some other)).setPhase get (.done (.ok other))).Held slot id := by
  have hlocked : g.phase.locked? = some target := by rw [hphase]; rfl
  have hvacant := (hp.rightful_of_getElem? hg).vacant target hlocked
  have hlength : target < p.slots.length := by
    have htarget := hp.sought hg (Phase.slot?_of_locked? hlocked)
    exact hp.length ▸ (List.getElem?_eq_some_iff.mp htarget).1
  cases h with
  | stored hcontent =>
    apply Held.stored
    show (p.setContent target (some other)).content? slot = some id
    rw [content?_setContent_of_ne]
    · exact hcontent
    · rintro rfl
      cases hvacant.symm.trans hcontent
  | @coming f hf hstoring =>
    by_cases hsame : f.phase = g.phase
    · cases (hstoring.symm.trans hsame).trans hphase
      apply Held.stored
      show (p.setContent slot (some id)).content? slot = some id
      rw [content?_eq, Pool.setContent, List.getElem?_set_self hlength]
      rfl
    · exact .coming (mem_gets_setPhase_of_ne (p := p.setContent _ _) hg hf hsame) hstoring

theorem Held.open (h : p.Held slot id) (key : ConnectionKey) :
    Held { p with
      slots := p.slots ++ [none]
      table := p.table ++ [(key, p.slots.length)] } slot id := by
  cases h with
  | stored hcontent => exact .stored (by simpa using hcontent)
  | coming hg hphase => exact .coming hg hphase

/-- Another connection leaves its slot. -/
theorem Held.clear (h : p.Held slot id) (hother : id ≠ other) (found : Option SlotId) :
    (found.elim p (p.clear other)).Held slot id := by
  cases h with
  | stored hcontent => exact .stored (content?_clear_of_ne hcontent hother found)
  | coming hg hphase => exact .coming ((thins_clear p other found).gets ▸ hg) hphase

theorem Held.emptySlot (h : p.Held slot id) {target : SlotId} (htarget : slot ≠ target) :
    (p.emptySlot target).Held slot id := by
  have hother := h.setContent (fun _ ↦ htarget) none
  unfold Pool.emptySlot
  split
  case h_1 => exact hother
  case h_2 => exact hother.congr rfl rfl

/-- A connection that is active and held in a slot is held there behind a step, too, unless somebody
who closes everything empties that slot. -/
theorem Effect.held_of_active (heffect : Effect p now event q) (hp : Ordered keys p)
    (h : p.Held slot id) (hactive : p.isActive id = true) :
    q.Held slot id ∨ ∃ sweep, event = some (.empty sweep slot) := by
  cases heffect with
  | asked key =>
    cases h with
    | stored hcontent => exact .inl (.stored hcontent)
    | coming hg hphase => exact .inl (.coming (List.mem_append_left _ hg) hphase)
  | found hg hphase => exact .inl (h.setPhase hg (by rw [hphase]; nofun))
  | @opened get g hg hphase => exact .inl ((h.open g.key).setPhase hg (by rw [hphase]; nofun))
  | granted hg hphase => exact .inl (h.setPhase hg (by rw [hphase]; nofun))
  | @locked get g target hg hphase hfree hinactive =>
    have htarget (hcontent : p.content? target = some id) : slot ≠ target := by
      cases (hinactive id hcontent).symm.trans hactive
    exact .inl ((h.setContent htarget none).setPhase hg (by rw [hphase]; nofun))
  | @established get g target hg hphase =>
    let new := Connection.establish p.nextId g.key p.config.idleLimits now
    have hsame : Held { p with
        connections := p.connections ++ [new]
        nextId := p.nextId + 1 } slot id := h.congr rfl rfl
    exact .inl (hsame.setPhase hg (by rw [hphase]; nofun))
  | failed flaw hg hphase => exact .inl (h.setPhase hg (by rw [hphase]; nofun))
  | stored hg hphase => exact .inl (h.store hp hg hphase)
  | cancelled hg hphase =>
    refine .inl (h.setPhase hg ?_)
    rcases hphase with hphase | hphase
    · rw [hphase]
      nofun
    · rw [hphase]
      nofun
  | moved => exact .inl (h.congr rfl rfl)
  | searched => exact .inl (h.congr rfl rfl)
  | @departed _ c reason found hc hstage =>
    -- the connection that leaves is not active
    have hother : id ≠ c.id := by
      rintro rfl
      rw [id_of_connection? hc, isActive_of_connection? hc] at hactive
      simp [Connection.isActive, hstage] at hactive
    exact .inl ((h.clear hother found).congr rfl rfl)
  | swept => exact .inl (h.congr rfl rfl)
  | @emptied sweep target remaining =>
    by_cases htarget : slot = target
    · exact .inr ⟨sweep, by rw [htarget]⟩
    · have hsame : Held { p with sweeps := p.sweeps.set sweep (remaining.erase target) } slot id :=
        h.congr rfl rfl
      exact .inl (hsame.emptySlot htarget)
  | pushed => exact .inl (h.congr rfl rfl)

theorem Effect.held_of_established (heffect : Effect p now (some (.get get .established)) q)
    (hg : p.gets[get]? = some g) (hphase : g.phase = .connecting slot) : q.Held slot p.nextId := by
  cases heffect with
  | established hfound hconnecting =>
    obtain rfl := Option.some.inj (hg.symm.trans hfound)
    cases hphase.symm.trans hconnecting
    apply Held.coming (g := ⟨g.key, .storing slot p.nextId⟩)
    · apply List.mem_of_getElem? (i := get)
      exact (getElem?_setPhase (p := { p with connections := _, nextId := _ }) hg _ get).trans
        (if_pos rfl)
    · rfl

/-- A connection that is active behind a step, and that nobody who closes everything can have asked
to end, was just established, or was active before and is still held where it was. -/
theorem Effect.active_cases (heffect : Effect p now event q) (hp : Ordered keys p)
    (hd : q.connection? id = some d) (hactive : d.isActive = true)
    (hkept : d.told = false ∨ q.sweeps = []) :
    (∃ get g slot, event = some (.get get .established) ∧ p.gets[get]? = some g ∧
      g.phase = .connecting slot ∧ id = p.nextId ∧ q.Held slot id) ∨
    ∃ c, p.connection? id = some c ∧ c.isActive = true ∧ (d.told = false → c.told = false) ∧
      ∀ slot, p.Held slot id → q.Held slot id := by
  have hstays {c : Connection} (hc : p.connection? id = some c) (hactive : c.isActive = true)
      (slot : SlotId) (h : p.Held slot id) : q.Held slot id := by
    rcases heffect.held_of_active hp h (isActive_of_connection? hc ▸ hactive) with hq | ⟨_, rfl⟩
    · exact hq
    · obtain ⟨htold, hsweeps⟩ := heffect.told_of_empty h hd
      rcases hkept with hkept | hkept
      · cases hkept.symm.trans htold
      · exact absurd hkept hsweeps
  cases heffect.origin hd with
  | kept hc =>
    exact .inr ⟨d, hc, hactive, fun huntold ↦ huntold, hstays hc hactive⟩
  | established hg hphase hid =>
    rw [hid]
    exact .inl ⟨_, _, _, rfl, hg, hphase, rfl, heffect.held_of_established hg hphase⟩
  | @moved c d event hc hmoves =>
    have hbefore := hmoves.isActive hactive
    exact .inr ⟨c, hc, hbefore, hmoves.told, hstays hc hbefore⟩
  | searched => cases hactive
  | departed => cases hactive
  | @told c sweep slot hc =>
    exact .inr ⟨c, hc, hactive, nofun, hstays hc hactive⟩
  | @pushed c r hc =>
    exact .inr ⟨c, hc, hactive, fun huntold ↦ huntold, hstays hc hactive⟩

/-- Every active connection that nobody who closes everything can have asked to end is held. -/
def Sheltered (p : Pool) : Prop :=
  ∀ id c, p.connection? id = some c → c.isActive = true → (c.told = false ∨ p.sweeps = []) →
    ∃ slot, p.Held slot id

theorem Effect.sheltered (heffect : Effect p now event q) (hp : Ordered keys p)
    (h : p.Sheltered) : q.Sheltered := by
  intro id d hd hactive hkept
  rcases heffect.active_cases hp hd hactive hkept with
    ⟨_, _, slot, _, _, _, _, hheld⟩ | ⟨c, hc, hbefore, huntold, hstays⟩
  · exact ⟨slot, hheld⟩
  · obtain ⟨slot, hheld⟩ := h id c hc hbefore (hkept.imp huntold heffect.sweeps)
    exact ⟨slot, hstays slot hheld⟩

end Pool

end FramedRpc
