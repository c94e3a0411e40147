import FramedRpc.Proofs.SerializerRoundTrip
import FramedRpc.Proofs.Server.Dispatch
import FramedRpc.Service.Declared

/-!
# Remote calls and local calls

The declaration of a service yields a stub and a handler that do not know of each other. A call that
goes from the stub through a dispatcher to the handler runs the method once, on the arguments that
the caller gave, and what the method returns comes back to the caller. Of a fault the caller gets
the status that the dispatcher gives it, and the text.
-/

namespace FramedRpc

variable {m : Type → Type} {τ : Type} [WireTypes τ] {s : Serializer}

/-! ## Values that are read back -/

/-- A serializer encodes a value and reads it back. -/
def Serializer.ReadsBack (s : Serializer) (t : τ) (v : WireTypes.Value t) : Prop :=
  ∃ bytes, WireTypes.encode t s v = .ok bytes ∧ WireTypes.decode t s bytes = .ok v

def Serializer.ReadsAllBack (s : Serializer) : (types : List τ) → WireTypes.Values types → Prop
  | [], _ => True
  | t :: rest, (v, values) => s.ReadsBack t v ∧ s.ReadsAllBack rest values

theorem encodeValues_cons {t : τ} {rest : List τ} {v : WireTypes.Value t}
    {values : WireTypes.Values rest} {bytes : List UInt8} {encoded : List Argument}
    (hbytes : WireTypes.encode t s v = .ok bytes)
    (hrest : Argument.encodeValues s rest values = .ok encoded) :
    Argument.encodeValues s (t :: rest) (v, values) =
      .ok (⟨WireTypes.typeName t, bytes⟩ :: encoded) := by
  rw [Argument.encodeValues, hbytes, hrest]
  rfl

/-- The argument behind those that were decoded is the next one. -/
theorem nextValue_behind (s : Serializer) (t : τ) (decoded : List (List UInt8))
    (value : List UInt8) (behind : List (List UInt8)) :
    Arguments.nextValue t ⟨s, decoded ++ value :: behind, decoded.length⟩ =
      (WireTypes.decode t s value, ⟨s, decoded ++ value :: behind, decoded.length + 1⟩) := by
  have hvalue : (decoded ++ value :: behind)[decoded.length]? = some value := by
    rw [List.getElem?_append_right (Nat.le_refl _), Nat.sub_self]
    rfl
  unfold Arguments.nextValue
  simp only [hvalue]

/-- Arguments that a stub encoded, with the types of the parameters. Behind arguments that were
decoded they are decoded one after the other. -/
structure Encodes (s : Serializer) (types : List τ) (values : WireTypes.Values types)
    (encoded : List Argument) : Prop where
  encodeValues : Argument.encodeValues s types values = .ok encoded
  typeNames : encoded.map Argument.typeName = types.map WireTypes.typeName
  nextValues : ∀ decoded : List (List UInt8), Arguments.nextValues types
    ⟨s, decoded ++ encoded.map Argument.value, decoded.length⟩ = .ok values

theorem exists_encodes {types : List τ} {values : WireTypes.Values types}
    (hvalues : s.ReadsAllBack types values) : ∃ encoded, Encodes s types values encoded := by
  induction types with
  | nil => exact ⟨[], rfl, rfl, fun _ ↦ rfl⟩
  | cons t rest ih =>
    obtain ⟨v, values⟩ := values
    obtain ⟨⟨bytes, hbytes, hv⟩, hrest⟩ := hvalues
    obtain ⟨encoded, hencoded, htypes, hread⟩ := ih hrest
    refine ⟨_, encodeValues_cons hbytes hencoded, congrArg (WireTypes.typeName t :: ·) htypes,
      fun decoded ↦ ?_⟩
    -- the value in front is counted to those that were decoded, and the position moves on by one
    have hbehind := hread (decoded ++ [bytes])
    rw [List.append_assoc, List.length_append] at hbehind
    unfold Arguments.nextValues
    simp only [List.map_cons, nextValue_behind, hv]
    simp only [List.singleton_append, List.length_singleton] at hbehind
    rw [hbehind]
    rfl

/-! ## The handler of a declared service -/

section

variable {service : Service m τ} {i : Implemented m τ}
  {arguments : WireTypes.Values i.signature.params} {encoded : List Argument}

/-- Where names are distinct, the method of a name is the only one of it. -/
theorem Service.find?_of_mem (hnames : (service.methods.map (·.signature.name)).Nodup)
    (hi : i ∈ service.methods) :
    service.methods.find? (fun method ↦ method.signature.name = i.signature.name) = some i := by
  obtain ⟨before, behind, hsplit⟩ := List.mem_iff_append.mp hi
  rw [hsplit, List.map_append, List.map_cons] at hnames
  have hbefore : ∀ method ∈ before, ¬ method.signature.name = i.signature.name := by
    intro method hmethod hname
    have hapart := (List.nodup_append.mp hnames).2.2 method.signature.name
      (List.mem_map_of_mem hmethod) i.signature.name List.mem_cons_self
    exact hapart hname
  rw [hsplit, List.find?_append, List.find?_eq_none.mpr (by simpa using hbefore), List.find?_cons]
  simp

theorem Service.invocation_of_mem (hnames : (service.methods.map (·.signature.name)).Nodup)
    (hi : i ∈ service.methods) (a : Arguments) : service.invocation i.signature.name a =
      (Arguments.nextValues i.signature.params a).map fun values ↦ ⟨i, values⟩ := by
  unfold invocation
  rw [find?_of_mem hnames hi]
  simp only
  cases Arguments.nextValues i.signature.params a <;> rfl

theorem Service.invocation_of_encodes
    (hnames : (service.methods.map (·.signature.name)).Nodup) (hi : i ∈ service.methods)
    (hencoded : Encodes s i.signature.params arguments encoded) :
    service.invocation i.signature.name (.ofValues s (encoded.map Argument.value)) =
      .ok ⟨i, arguments⟩ := by
  have hread : Arguments.nextValues i.signature.params
      (.ofValues s (encoded.map Argument.value)) = .ok arguments := hencoded.nextValues []
  rw [invocation_of_mem hnames hi, hread]
  rfl

variable [Monad m]

theorem Service.offers (hi : i ∈ service.methods)
    (hencoded : Encodes s i.signature.params arguments encoded) :
    service.handler.Offers i.signature.name (encoded.map Argument.typeName) :=
  ⟨i.signature.method, List.mem_map_of_mem hi, rfl, hencoded.typeNames.symm⟩

theorem Service.call_of_invocation {name : String} {a : Arguments}
    {values : WireTypes.Values i.signature.params}
    (h : service.invocation name a = .ok ⟨i, values⟩) :
    service.call name a = do
      return (← i.body values).encode i.signature.result a.serializer := by
  unfold call
  rw [h]
  rfl

end

/-! ## From the stub to the handler and back -/

/-- What the sender of a request makes of what a dispatcher says to it. Where there is no response,
it takes something else for an outcome. -/
def Dispatcher.receive (r : Request) (silence : Outcome (List UInt8)) :
    Except String (Option Response) → Outcome (List UInt8)
  | .ok (some response) => .ofExcept (response.dataFor r)
  | .ok none => silence
  | .error text => .panicked text

/-- Ships a call in a request of its own to a dispatcher that runs where the caller runs, checks the
response and takes the data out of it. -/
def Dispatcher.ship [Monad m] (catalogue : Catalogue m) (s : Serializer) (id : String)
    (silence : Outcome (List UInt8)) (c : Call) : m (Outcome (List UInt8)) := do
  let r : Request := .call id c.service c.method c.arguments
  return receive r silence (← handle catalogue s r)

theorem Signature.invoke_of_call [Monad m] [LawfulMonad m] {signature : Signature τ}
    {service : String} {send : Call → m (Outcome (List UInt8))}
    {arguments : WireTypes.Values signature.params} {c : Call}
    (h : signature.call service s arguments = .ok c) :
    signature.invoke service s send arguments =
      Outcome.decode signature.result s <$> send c := by
  rw [invoke, h, map_eq_pure_bind]

/-- If a method returned, the value is read back. -/
def Outcome.ReadsBack {t : τ} (s : Serializer) (outcome : Outcome (WireTypes.Value t)) : Prop :=
  ∀ v, outcome = .returned v → s.ReadsBack t v

/-- How a call ends for the caller, by how the method ended: what was returned is returned, a
missing method is reported as such, and every other fault as a failure with its text. -/
structure Relays {t : τ} (s : Serializer)
    (seen : Outcome (WireTypes.Value t) → Outcome (WireTypes.Value t)) : Prop where
  returned : ∀ outcome v, outcome.ReadsBack s →
    (seen outcome = .returned v ↔ outcome = .returned v)
  methodNotFound : ∀ outcome, outcome.ReadsBack s →
    ((∃ detail, seen outcome = .failed (.invocation .methodNotFound detail)) ↔
      ∃ name, outcome = .failed (.methodNotFound name))
  failed : ∀ fault, (∀ name, fault ≠ .methodNotFound name) → seen (.failed fault) =
    .failed (.invocation .fail ("method invocation failed: " ++ fault.message))
  panicked : ∀ text, seen (.panicked text) = .panicked text

theorem Fault.message_ne_empty (fault : Fault) : fault.message ≠ "" := by
  have hfront {front : String} (h : front ≠ "") (behind : String) : front ++ behind ≠ "" :=
    fun hempty ↦ h (String.append_eq_empty_iff.mp hempty).1
  cases fault with
  | timeout => exact hfront (hfront (by decide) _) _
  | responseMismatch => exact hfront (hfront (hfront (by decide) _) _) _
  | invocation => exact hfront (hfront (hfront (by decide) _) _) _
  | _ => exact hfront (by decide) _

section

variable {t : τ} {r : Request} {silence : Outcome (List UInt8)}

/-- What a caller sees of how a method ended on the other side. -/
def Outcome.relay (t : τ) (s : Serializer) (r : Request) (silence : Outcome (List UInt8))
    (outcome : Outcome (WireTypes.Value t)) : Outcome (WireTypes.Value t) :=
  (Dispatcher.receive r silence (Dispatcher.conclude r.id (outcome.encode t s))).decode t s

theorem relay_returned {v : WireTypes.Value t} (hv : s.ReadsBack t v) :
    Outcome.relay t s r silence (.returned v) = .returned v := by
  obtain ⟨bytes, hbytes, hread⟩ := hv
  have hencoded : (Outcome.returned v).encode t s = .returned bytes :=
    congrArg Outcome.ofExcept hbytes
  have hdata := (Response.reports_success r bytes).dataFor_of_success
  rw [Outcome.relay, hencoded]
  show Outcome.decode t s (.ofExcept ((Response.success r.id bytes).dataFor r)) = _
  rw [hdata]
  exact congrArg Outcome.ofExcept hread

theorem decode_receive_failure {status : Status} (hstatus : status ≠ .success) (detail : String) :
    (Dispatcher.receive r silence (.ok (some (.failure r.id status detail)))).decode t s =
      .failed (.invocation status (Response.failure r.id status detail).message) := by
  have hfault := (Response.reports_failure r hstatus detail).dataFor_of_failure hstatus
  show Outcome.decode t s (.ofExcept ((Response.failure r.id status detail).dataFor r)) = _
  rw [hfault]
  rfl

theorem relay_methodNotFound (t : τ) (s : Serializer) (r : Request)
    (silence : Outcome (List UInt8)) (name : String) : ∃ detail,
    Outcome.relay t s r silence (.failed (.methodNotFound name)) =
      .failed (.invocation .methodNotFound detail) :=
  ⟨_, decode_receive_failure (by decide : Status.methodNotFound ≠ .success) name⟩

theorem relay_failed {fault : Fault} (h : ∀ name, fault ≠ .methodNotFound name) :
    Outcome.relay t s r silence (.failed fault) =
      .failed (.invocation .fail ("method invocation failed: " ++ fault.message)) := by
  have hmessage : (Response.failure r.id .fail fault.message).message =
      "method invocation failed: " ++ fault.message := by
    have hdetail : ¬ fault.message.isEmpty = true :=
      fun hempty ↦ fault.message_ne_empty (String.isEmpty_iff.mp hempty)
    exact if_neg hdetail
  show Outcome.decode t s (Dispatcher.receive r silence
    (Dispatcher.conclude r.id (.failed fault))) = _
  rw [Dispatcher.conclude_failed h, decode_receive_failure (by decide), hmessage]

/-- A fault is seen as one of an invocation, and as a missing method only if it is one. -/
theorem relay_fault (t : τ) (s : Serializer) (r : Request) (silence : Outcome (List UInt8))
    (fault : Fault) : ∃ status detail,
    Outcome.relay t s r silence (.failed fault) = .failed (.invocation status detail) ∧
    (status = .methodNotFound ↔ ∃ name, fault = .methodNotFound name) := by
  by_cases hmissing : ∃ name, fault = .methodNotFound name
  case pos =>
    obtain ⟨name, rfl⟩ := hmissing
    obtain ⟨detail, hseen⟩ := relay_methodNotFound t s r silence name
    exact ⟨_, detail, hseen, by simp⟩
  case neg =>
    have hother : ∀ name, fault ≠ .methodNotFound name := fun name h ↦ hmissing ⟨name, h⟩
    exact ⟨_, _, relay_failed hother, by simp [hmissing]⟩

theorem relays_relay : Relays s (Outcome.relay t s r silence) where
  returned outcome v hback := by
    cases outcome with
    | returned w => rw [relay_returned (hback w rfl)]
    | failed fault =>
      obtain ⟨status, detail, hseen, -⟩ := relay_fault t s r silence fault
      rw [hseen]
      exact ⟨nofun, nofun⟩
    | panicked text => exact ⟨nofun, nofun⟩
  methodNotFound outcome hback := by
    cases outcome with
    | returned v =>
      rw [relay_returned (hback v rfl)]
      exact ⟨nofun, nofun⟩
    | failed fault =>
      obtain ⟨status, detail, hseen, hstatus⟩ := relay_fault t s r silence fault
      rw [hseen]
      simp [hstatus]
    | panicked text => exact ⟨nofun, nofun⟩
  failed _ := relay_failed
  panicked _ := rfl

end

section

variable [Monad m] [LawfulMonad m] {service : Service m τ} {catalogue : Catalogue m}
  {i : Implemented m τ} {arguments : WireTypes.Values i.signature.params}
  {encoded : List Argument}

theorem Dispatcher.handle_call (hnames : (service.methods.map (·.signature.name)).Nodup)
    (hi : i ∈ service.methods) (hbound : catalogue.get? service.name = some service.handler)
    (hencoded : Encodes s i.signature.params arguments encoded) (id : String) :
    handle catalogue s (.call id service.name i.signature.name encoded) =
      (fun outcome ↦ conclude id (outcome.encode i.signature.result s)) <$>
        i.body arguments := by
  have hplan := plan_of_offers (s := s)
    (r := .call id service.name i.signature.name encoded) rfl (by simp [Request.call]) hbound
    (Service.offers hi hencoded)
  have hcall := Service.call_of_invocation (Service.invocation_of_encodes hnames hi hencoded)
  unfold handle
  rw [hplan]
  show (do return conclude id (← service.call i.signature.name _)) = _
  rw [Request.call, hcall, bind_assoc]
  simp only [pure_bind, map_eq_pure_bind]
  rfl

/-- A call of a method of a service, by the stub and through a dispatcher at which the service is
found under its name, runs the method once, on the arguments of the call, and what the caller sees
tells how it ended. -/
theorem invoke_ship (hnames : (service.methods.map (·.signature.name)).Nodup)
    (hi : i ∈ service.methods) (hbound : catalogue.get? service.name = some service.handler)
    (harguments : s.ReadsAllBack i.signature.params arguments) (id : String)
    (silence : Outcome (List UInt8)) :
    ∃ seen, Relays s seen ∧
      i.signature.invoke service.name s (Dispatcher.ship catalogue s id silence) arguments =
        seen <$> i.body arguments := by
  obtain ⟨encoded, hencoded⟩ := exists_encodes harguments
  let c : Call := ⟨service.name, i.signature.name, encoded⟩
  let r : Request := .call id service.name i.signature.name encoded
  refine ⟨Outcome.relay i.signature.result s r silence, relays_relay, ?_⟩
  have hcall : i.signature.call service.name s arguments = .ok c := by
    rw [Signature.call, hencoded.encodeValues]
    rfl
  have hship : Dispatcher.ship catalogue s id silence c =
      Dispatcher.receive r silence <$> Dispatcher.handle catalogue s r := by
    rw [map_eq_pure_bind]
    rfl
  rw [Signature.invoke_of_call hcall, hship, Dispatcher.handle_call hnames hi hbound hencoded id,
    Functor.map_map, Functor.map_map]
  rfl

end

/-- A method that notes a number down, and tells how many there are. -/
def noteMethod : Implemented (StateM (List UInt32)) where
  signature := ⟨"note", [.u32], .u64⟩
  body := fun (n, _) noted ↦ (.returned (noted.length + 1).toUInt64, noted ++ [n])

/-- A service that notes numbers down, and that forgets none. -/
def tallyService : Service (StateM (List UInt32)) where
  name := "Tally"
  methods := [⟨⟨"forget", [.u32], .unit⟩, fun _ noted ↦ (.failed (.invalidRequest "never"), noted)⟩,
    noteMethod]

theorem readsBack_json {shape : Wire.Shape} (hlossless : shape.isLossless = true)
    (v : shape.Value) : Serializer.json.ReadsBack shape v :=
  ⟨_, rfl, Serializer.decodeValue_encodeValue .json hlossless nofun⟩

/-- A remote call notes its number down once, behind the one that was there before. -/
theorem invoke_tally : (noteMethod.signature.invoke "Tally" .json
    (Dispatcher.ship (Catalogue.empty.publish tallyService.handler).2 .json "a"
      (.panicked "no response")) ((7 : UInt32), ())).run [5] =
        (.returned (2 : UInt64), [5, 7]) := by
  have hback : Serializer.json.ReadsAllBack noteMethod.signature.params ((7 : UInt32), ()) :=
    ⟨readsBack_json (by decide) _, trivial⟩
  have hmember : noteMethod ∈ tallyService.methods := List.mem_cons_of_mem _ List.mem_cons_self
  have hbound : (Catalogue.empty.publish tallyService.handler).2.get? tallyService.name =
      some tallyService.handler := rfl
  obtain ⟨seen, hrelays, hinvoke⟩ :=
    invoke_ship (by decide) hmember hbound hback "a" (.panicked "no response")
  have hresult : Outcome.ReadsBack (t := Wire.Shape.u64) .json (.returned (2 : UInt64)) :=
    fun v _ ↦ readsBack_json (by decide) v
  have hseen := (hrelays.returned _ _ hresult).mpr rfl
  calc
    _ = (seen <$> noteMethod.body ((7 : UInt32), ())).run [5] :=
      congrArg (fun call : StateM (List UInt32) _ ↦ call.run [5]) hinvoke
    _ = (seen (.returned (2 : UInt64)), [5, 7]) := rfl
    _ = _ := congrArg (fun outcome ↦ (outcome, ([5, 7] : List UInt32))) hseen

end FramedRpc
