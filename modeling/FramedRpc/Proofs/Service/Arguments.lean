import FramedRpc.Proofs.Service.RemoteCall

/-!
# Arguments of accepted calls

A request is accepted if it has as many values as types, and located if the service has a method of
its name and types. The handler of a declared service looks at neither again: it selects the method
by name alone, and decodes one value after the other, each at the next parameter. Since there is a
value for each parameter, it never runs out of them, whatever bytes they are.
-/

namespace FramedRpc

variable {m : Type → Type} {τ : Type} [WireTypes τ] {s : Serializer}

/-! ## Decoding one value after the other -/

/-- What comes of values that are decoded one after the other, each at its own type, until one is
refused. -/
inductive Decodes (s : Serializer) :
    (types : List τ) → List (List UInt8) → Except Fault (WireTypes.Values types) → Prop
  | done : Decodes s [] [] (.ok ())
  | decoded {t : τ} {types : List τ} {value : List UInt8} {values : List (List UInt8)}
    {v : WireTypes.Value t} {behind : WireTypes.Values types}
    (hv : WireTypes.decode t s value = .ok v) (hbehind : Decodes s types values (.ok behind)) :
    Decodes s (t :: types) (value :: values) (.ok (v, behind))
  | refused {t : τ} {types : List τ} {value : List UInt8} {values : List (List UInt8)}
    {fault : Fault} (hfault : WireTypes.decode t s value = .error fault) :
    Decodes s (t :: types) (value :: values) (.error fault)
  | refusedBehind {t : τ} {types : List τ} {value : List UInt8} {values : List (List UInt8)}
    {v : WireTypes.Value t} {fault : Fault} (hv : WireTypes.decode t s value = .ok v)
    (hbehind : Decodes s types values (.error fault)) :
    Decodes s (t :: types) (value :: values) (.error fault)

theorem Decodes.refuses {types : List τ} {values : List (List UInt8)} {fault : Fault}
    (h : Decodes s types values (.error fault)) : s.Refuses fault := by
  generalize hresult : (.error fault : Except Fault (WireTypes.Values types)) = result at h
  induction h with
  | done => cases hresult
  | decoded => cases hresult
  | refused hfault =>
    obtain rfl := Except.error.inj hresult
    exact WireTypes.refuses hfault
  | refusedBehind hv hbehind ih =>
    obtain rfl := Except.error.inj hresult
    exact ih rfl

/-- With a value for each type, decoding behind others never runs out of values. -/
theorem decodes_nextValues {types : List τ} {values : List (List UInt8)}
    (hlength : values.length = types.length) (decoded : List (List UInt8)) :
    Decodes s types values
      (Arguments.nextValues types ⟨s, decoded ++ values, decoded.length⟩) := by
  induction types generalizing values decoded with
  | nil =>
    obtain rfl := List.length_eq_zero_iff.mp hlength
    exact .done
  | cons t types ih =>
    obtain ⟨value, values, rfl⟩ := List.exists_cons_of_length_eq_add_one hlength
    have hbehind := ih (Nat.succ.inj hlength) (decoded ++ [value])
    simp only [List.append_assoc, List.singleton_append, List.length_append,
      List.length_singleton] at hbehind
    unfold Arguments.nextValues
    simp only [nextValue_behind]
    cases hv : WireTypes.decode t s value with
    | error fault => exact .refused hv
    | ok v =>
      generalize Arguments.nextValues types _ = result at hbehind ⊢
      cases result with
      | error fault => exact .refusedBehind hv hbehind
      | ok behind => exact .decoded hv hbehind

/-- The arguments behind as many as there are types, each of which was asked for. -/
def Arguments.behind (a : Arguments) (types : List τ) : Arguments :=
  types.foldl (fun a t ↦ (a.nextValue t).2) a

/-- Asking for a value moves on by one, whether it can be decoded or not. -/
theorem Arguments.behind_eq (types : List τ) (values : List (List UInt8)) (position : Nat)
    (h : position + types.length ≤ values.length) :
    (⟨s, values, position⟩ : Arguments).behind types =
      ⟨s, values, position + types.length⟩ := by
  induction types generalizing position with
  | nil => rfl
  | cons t types ih =>
    rw [List.length_cons] at h
    have hposition : position < values.length := by omega
    have hnext : (Arguments.nextValue t ⟨s, values, position⟩).2 =
        ⟨s, values, position + 1⟩ := by
      simp [nextValue, hposition]
    rw [behind, List.foldl_cons, hnext, ← behind, ih (position + 1) (by omega), List.length_cons,
      Nat.add_assoc, Nat.add_comm 1]

/-! ## Accepted requests -/

/-- How the handler of a service goes about a request, once a method is selected. -/
structure Serves [Monad m] (service : Service m τ) (s : Serializer) (r : Request)
    (i : Implemented m τ) : Prop where
  /-- No other method has the name of the request. -/
  alone : ∀ other ∈ service.methods, other.signature.name = r.method → other = i
  even : r.parameters.length = i.signature.params.length
  /-- Who asks for one value for each parameter gets the one at the position of the parameter. -/
  reads : ∀ k t, i.signature.params[k]? = some t → ∃ value, r.parameters[k]? = some value ∧
    ((Arguments.ofValues s r.parameters).behind (i.signature.params.take k)).nextValue t =
      (WireTypes.decode t s value, ⟨s, r.parameters, k + 1⟩)
  /-- Before the method runs there is no fault but that of the serializer. -/
  refuses : ∀ fault, service.invocation r.method (.ofValues s r.parameters) = .error fault →
    s.Refuses fault
  /-- The method runs once, on all values, if all can be decoded, and otherwise not at all. -/
  ends : (∃ values, Decodes s i.signature.params r.parameters (.ok values) ∧
      service.call r.method (.ofValues s r.parameters) = do
        return (← i.body values).encode i.signature.result s) ∨
    ∃ fault, Decodes s i.signature.params r.parameters (.error fault) ∧ s.Refuses fault ∧
      service.call r.method (.ofValues s r.parameters) = pure (.failed fault)

section

variable [Monad m] {service : Service m τ} {r : Request} {method : Method} {i : Implemented m τ}

theorem Request.length_eq_of_validate (hsign : r.heartbeat = false) (hvalid : r.validate = .ok ()) :
    r.parameters.length = r.paramTypes.length := by
  by_contra hlength
  obtain ⟨detail, hinvalid⟩ := Dispatcher.validate_of_length_ne hsign hlength
  cases hvalid.symm.trans hinvalid

/-- What a service has in its table, it has an implementation for. -/
theorem Service.exists_implemented (h : service.handler.find? r.method r.paramTypes = some method) :
    ∃ i ∈ service.methods, i.signature.method = method ∧ i.signature.name = r.method ∧
      i.signature.params.map WireTypes.typeName = r.paramTypes := by
  obtain ⟨i, hi, hmethod⟩ := List.mem_map.mp (List.mem_of_find?_eq_some h)
  obtain ⟨hname, htypes⟩ : method.name = r.method ∧ method.paramTypes = r.paramTypes := by
    simpa [Method.matches] using List.find?_some h
  rw [← hmethod] at hname htypes
  exact ⟨i, hi, hmethod, hname, htypes⟩

theorem Service.call_of_error {name : String} {a : Arguments} {fault : Fault}
    (h : service.invocation name a = .error fault) :
    service.call name a = pure (.failed fault) := by
  unfold call
  rw [h]

theorem serves_of_mem (hnames : (service.methods.map (·.signature.name)).Nodup)
    (hi : i ∈ service.methods) (hname : i.signature.name = r.method)
    (heven : r.parameters.length = i.signature.params.length) (s : Serializer) :
    Serves service s r i := by
  have hdecodes : Decodes s i.signature.params r.parameters
      (Arguments.nextValues i.signature.params (.ofValues s r.parameters)) :=
    decodes_nextValues heven []
  have hinvocation := Service.invocation_of_mem hnames hi (.ofValues s r.parameters)
  rw [hname] at hinvocation
  refine
    { alone := fun other hother hsame ↦ ?alone
      even := heven
      reads := fun k t ht ↦ ?reads
      refuses := fun fault hfault ↦ ?refuses
      ends := ?ends }
  case alone =>
    have hother := Service.find?_of_mem hnames hother
    rw [hsame, ← hname, Service.find?_of_mem hnames hi] at hother
    exact (Option.some.inj hother).symm
  case reads =>
    have hk : k < i.signature.params.length := (List.getElem?_eq_some_iff.mp ht).1
    have htake : (i.signature.params.take k).length = k :=
      List.length_take_of_le (Nat.le_of_lt hk)
    have hbehind := Arguments.behind_eq (s := s) (i.signature.params.take k) r.parameters 0
      (by omega)
    rw [htake, Nat.zero_add] at hbehind
    have hvalue : k < r.parameters.length := heven ▸ hk
    refine ⟨r.parameters[k], List.getElem?_eq_getElem hvalue, ?_⟩
    rw [Arguments.ofValues, hbehind]
    simp [Arguments.nextValue, hvalue]
  all_goals
    generalize Arguments.nextValues i.signature.params _ = result at hdecodes hinvocation
  case refuses =>
    cases result with
    | ok values => cases hinvocation.symm.trans hfault
    | error found =>
      cases hinvocation.symm.trans hfault
      exact hdecodes.refuses
  case ends =>
    cases result with
    | ok values => exact .inl ⟨values, hdecodes, Service.call_of_invocation hinvocation⟩
    | error fault =>
      exact .inr ⟨fault, hdecodes, hdecodes.refuses, Service.call_of_error hinvocation⟩

/-- The handler of a declared service serves a request that is no sign of life, is accepted and is
located, by the method that was located, and has a value for each of its parameters. -/
theorem exists_serves (hnames : (service.methods.map (·.signature.name)).Nodup)
    (hsign : r.heartbeat = false) (hvalid : r.validate = .ok ())
    (hfound : service.handler.find? r.method r.paramTypes = some method) (s : Serializer) :
    ∃ i ∈ service.methods, i.signature.method = method ∧ Serves service s r i := by
  obtain ⟨i, hi, hmethod, hname, htypes⟩ := Service.exists_implemented hfound
  have heven : r.parameters.length = i.signature.params.length := by
    rw [Request.length_eq_of_validate hsign hvalid, ← htypes, List.length_map]
  exact ⟨i, hi, hmethod, serves_of_mem hnames hi hname heven s⟩

end

/-- A number that is complete and one that is cut off, in the encoding of fixed length. -/
def cutCall : Request :=
  .call "a" "driver.Kitchen" "add" [⟨"i64", [1, 0, 0, 0, 0, 0, 0, 0]⟩, ⟨"i64", [2, 0, 0]⟩]

/-- Nothing is added up where the second number is cut off. -/
theorem serves_cut : ∃ i ∈ Demo.kitchenService.methods,
    i.signature.method = ⟨"add", ["i64", "i64"]⟩ ∧ Serves Demo.kitchenService .bincode cutCall i ∧
    Demo.kitchenService.call "add" (.ofValues .bincode cutCall.parameters) =
      .failed (.bincode .endOfInput) := by
  have hnames : (Demo.kitchenService.methods.map (·.signature.name)).Nodup := by decide
  have hfound : Demo.kitchenService.handler.find? cutCall.method cutCall.paramTypes =
      some ⟨"add", ["i64", "i64"]⟩ := rfl
  obtain ⟨i, hi, hmethod, hserves⟩ := exists_serves hnames rfl rfl hfound .bincode
  exact ⟨i, hi, hmethod, hserves, rfl⟩

/-- A sign of life is accepted whatever it has, so one without values is located at a method with a
parameter, for which its handler would find no value. -/
theorem unserved_heartbeat :
    Request.validate ⟨"a", Demo.Bye.service, "bye", [], ["alloc::string::String"], true⟩ = .ok () ∧
    Demo.byeService.handler.find? "bye" ["alloc::string::String"] =
      some ⟨"bye", ["alloc::string::String"]⟩ ∧
    Demo.byeService.call "bye" (.ofValues .bincode []) =
      .failed (.invalidRequest "Missing argument at position 0") :=
  ⟨rfl, rfl, rfl⟩

end FramedRpc
