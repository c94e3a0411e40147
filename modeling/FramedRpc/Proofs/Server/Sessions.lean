import FramedRpc.Proofs.Server.Answers
import Mathlib.Data.List.Induction

/-!
# How sessions go on

A session comes out of each step as it was, or by one of a few changes: a step of its own, the
worker that it waited for, or a reply that is handed over to it. Once its loop was left, none of
them brings it back.
-/

namespace FramedRpc

/-! ## Where sessions come from -/

namespace Serving

variable {s s' : Serving} {id : SessionId} {S T : Session} {event : Event}

/-- The session of a number behind a step. -/
inductive Origin (s : Serving) (id : SessionId) : Event → Session → Prop
  | kept {event : Event} {S : Session} (hS : s.sessions[id]? = some S) : Origin s id event S
  | accepted (hnone : s.sessions[id]? = none) :
    Origin s id .accept (.accept s.server.config.idleLimits s.now)
  | moved {event : SessionEvent} {S T : Session} (hS : s.sessions[id]? = some S)
    (hmoves : S.Moves s event T) : Origin s id (.session id event) T
  | reserved {S : Session} {order : Session.Order} (hS : s.sessions[id]? = some S)
    (hstage : S.stage = .reserving order) :
    Origin s id (.session id .reserve) { S with stage := .serving }.turn
  | told {k : TaskId} {t : Task} {S : Session} {response : Response}
    (hS : s.sessions[id]? = some S) (ht : s.tasks[k]? = some t) (hsession : t.session = some id)
    (hphase : t.phase = .answered (some response)) :
    Origin s id (.task k .deliver) (S.queue ⟨t.order.serializer, response⟩)

theorem origin_deliver {k : TaskId} {t : Task} {response : Option Response}
    (ht : s.tasks[k]? = some t) (hphase : t.phase = .answered response)
    (hT : (s.deliver t response).sessions[id]? = some T) : Origin s id (.task k .deliver) T := by
  unfold deliver at hT
  split at hT
  case h_1 other r hother =>
    replace hT : (s.sessions.modify other _)[id]? = some T := hT
    rw [List.getElem?_modify] at hT
    obtain ⟨S, hS, rfl⟩ := Option.map_eq_some_iff.mp hT
    split
    case isTrue hid =>
      subst hid
      exact .told hS ht hother hphase
    case isFalse => exact .kept hS
  case h_2 => exact .kept hT

theorem Effect.origin (heffect : Effect s event s') (hT : s'.sessions[id]? = some T) :
    Origin s id event T := by
  cases heffect with
  | accepted =>
    rw [getElem?_concat] at hT
    split at hT
    case isTrue hid =>
      obtain rfl := Option.some.inj hT
      exact .accepted (List.getElem?_eq_none (Nat.le_of_eq hid.symm))
    case isFalse => exact .kept hT
  | @moved changed S U event hS hmoves =>
    replace hT : (s.sessions.set changed U)[id]? = some T := hT
    rw [getElem?_set_of_some hS] at hT
    split at hT
    case isTrue hid =>
      obtain rfl := Option.some.inj hT
      subst hid
      exact .moved hS hmoves
    case isFalse => exact .kept hT
  | @reserved changed S order workers hS hstage hworkers =>
    replace hT : (s.sessions.set changed { S with stage := .serving }.turn)[id]? = some T := hT
    rw [getElem?_set_of_some hS] at hT
    split at hT
    case isTrue hid =>
      obtain rfl := Option.some.inj hT
      subst hid
      exact .reserved hS hstage
    case isFalse => exact .kept hT
  | delivered ht hphase => exact origin_deliver ht hphase hT
  | _ => exact .kept hT

/-- Sessions stay. -/
theorem Effect.length_sessions_le (heffect : Effect s event s') :
    s.sessions.length ≤ s'.sessions.length := by
  cases heffect with
  | accepted =>
    rw [List.length_append]
    exact Nat.le_add_right _ _
  | moved => exact Nat.le_of_eq (List.length_set ..).symm
  | reserved => exact Nat.le_of_eq (List.length_set ..).symm
  | delivered => exact Nat.le_of_eq (length_sessions_deliver ..).symm
  | _ => exact Nat.le_refl _

/-! ## Histories -/

def offering (s : Serving) (catalogue : Catalogue) : Serving :=
  { s with server := { s.server with catalogue } }

theorem effect_of_stepWith {catalogue : Catalogue} (h : s.stepWith catalogue event = some s') :
    Effect (s.offering catalogue) event s' :=
  effect_of_step h

@[simp]
theorem stepsWith_append (s : Serving) (steps : List (Catalogue × Event))
    (step : Catalogue × Event) : s.stepsWith (steps ++ [step]) =
      (s.stepsWith steps).bind fun b ↦ b.stepWith step.1 step.2 := by
  unfold stepsWith
  rw [List.foldlM_append]
  refine congrArg (Option.bind (List.foldlM _ s steps)) (funext fun b ↦ ?_)
  exact Option.bind_fun_some _

/-- What holds of a server, and is kept by each step together with the steps before it, holds behind
all steps. -/
theorem stepsWith_induction {P : List (Catalogue × Event) → Serving → Prop}
    {steps : List (Catalogue × Event)} (hstart : P [] s)
    (hkept : ∀ {before : List (Catalogue × Event)} {catalogue : Catalogue} {event : Event}
      {a b : Serving}, s.stepsWith before = some a → P before a →
        Effect (a.offering catalogue) event b → P (before ++ [(catalogue, event)]) b)
    (h : s.stepsWith steps = some s') : P steps s' := by
  induction steps using List.reverseRecOn generalizing s' with
  | nil =>
    obtain rfl := Option.some.inj h
    exact hstart
  | append_singleton before step ih =>
    rw [stepsWith_append] at h
    obtain ⟨b, hbefore, hstep⟩ := Option.bind_eq_some_iff.mp h
    exact hkept hbefore (ih hbefore) (effect_of_stepWith hstep)

end Serving

/-! ## Loops that were left -/

namespace Session

variable {s : Serving} {S T : Session}

/-- Once the loop was left, nothing is written any more, and the session only takes in what still
arrives. -/
structure Lasts (S T : Session) : Prop where
  stage : T.stage = S.stage
  liveness : T.liveness = S.liveness
  orders : T.orders = S.orders
  outbox : T.outbox = S.outbox
  written : T.written = S.written

theorem Lasts.isOpen (h : S.Lasts T) : T.isOpen = S.isOpen := by
  rw [Session.isOpen, h.stage]
  rfl

theorem Lasts.refl (S : Session) : S.Lasts S := ⟨rfl, rfl, rfl, rfl, rfl⟩

theorem Lasts.trans {U : Session} (h : S.Lasts T) (hnext : T.Lasts U) : S.Lasts U :=
  ⟨hnext.stage.trans h.stage, hnext.liveness.trans h.liveness, hnext.orders.trans h.orders,
    hnext.outbox.trans h.outbox, hnext.written.trans h.written⟩

theorem lasts_of_moves {event : Serving.SessionEvent} (hleft : S.isOpen = false)
    (hmoves : S.Moves s event T) : S.Lasts T := by
  have hclosed : S.isServing = true → False := fun hserving ↦
    Bool.false_ne_true (hleft.symm.trans (isOpen_of_isServing hserving))
  cases hmoves with
  | arrived => exact ⟨rfl, rfl, rfl, rfl, rfl⟩
  | read h => exact (hclosed (reads_of_read? h).1).elim
  | refused hstage =>
    exact (Bool.false_ne_true (hleft.symm.trans (isOpen_of_reserving hstage))).elim
  | wrote h => exact (hclosed (writes_of_write? h).1).elim
  | lost h => exact (hclosed (writes_of_lose? h).1).elim
  | woke h =>
    obtain ⟨hcondition, -⟩ := Option.ite_none_right_eq_some.mp h
    exact (hclosed ((Bool.and_eq_true _ _).mp hcondition).1).elim
  | quit _ hopen => exact (Bool.false_ne_true (hleft.symm.trans hopen)).elim
  | aborted _ hopen => exact (Bool.false_ne_true (hleft.symm.trans hopen)).elim

@[simp]
theorem queue_of_left (hleft : S.isOpen = false) (r : Reply) : S.queue r = S :=
  if_neg (Bool.eq_false_iff.mp hleft)

end Session

namespace Serving

variable {s s' : Serving} {id : SessionId} {S T : Session} {event : Event}

theorem Effect.lasts (heffect : Effect s event s') (hS : s.sessions[id]? = some S)
    (hleft : S.isOpen = false) : ∃ T, s'.sessions[id]? = some T ∧ S.Lasts T := by
  have hid : id < s'.sessions.length :=
    Nat.lt_of_lt_of_le (List.getElem?_eq_some_iff.mp hS).1 heffect.length_sessions_le
  obtain ⟨T, hT⟩ : ∃ T, s'.sessions[id]? = some T := ⟨_, List.getElem?_eq_getElem hid⟩
  refine ⟨T, hT, ?_⟩
  cases heffect.origin hT with
  | kept h =>
    obtain rfl := Option.some.inj (hS.symm.trans h)
    exact Session.Lasts.refl S
  | accepted hnone =>
    rw [hS] at hnone
    cases hnone
  | moved h hmoves =>
    obtain rfl := Option.some.inj (hS.symm.trans h)
    exact Session.lasts_of_moves hleft hmoves
  | reserved h hstage =>
    obtain rfl := Option.some.inj (hS.symm.trans h)
    exact (Bool.false_ne_true (hleft.symm.trans (Session.isOpen_of_reserving hstage))).elim
  | told h =>
    obtain rfl := Option.some.inj (hS.symm.trans h)
    simpa [hleft] using Session.Lasts.refl S

/-- Once the loop of a session was left, no step brings it back, and nothing more is written. -/
theorem lasts_of_stepsWith {steps : List (Catalogue × Event)} (hS : s.sessions[id]? = some S)
    (hleft : S.isOpen = false) (h : s.stepsWith steps = some s') :
    ∃ T, s'.sessions[id]? = some T ∧ S.Lasts T := by
  refine stepsWith_induction (P := fun _ b ↦ ∃ T, b.sessions[id]? = some T ∧ S.Lasts T)
    ⟨S, hS, Session.Lasts.refl S⟩ ?_ h
  rintro before catalogue event a b - ⟨T, hT, hlasts⟩ heffect
  obtain ⟨U, hU, hnext⟩ := heffect.lasts hT (hlasts.isOpen.trans hleft)
  exact ⟨U, hU, hlasts.trans hnext⟩

end Serving

end FramedRpc
