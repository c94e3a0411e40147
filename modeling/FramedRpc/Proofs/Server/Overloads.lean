import FramedRpc.Proofs.Server.Dispatch

/-!
# Which of several methods of one name is meant

A request names the types of its parameters, and by these the method is located. The handler is
then called by name: it gets the name of the method and the encoded arguments, and no types. So it
can tell methods of one name apart by the number of their parameters, and by nothing else.
-/

namespace FramedRpc

variable {m : Type → Type}

def Handler.DiffersInArity (h : Handler m) : Prop :=
  ∀ method ∈ h.methods, ∀ other ∈ h.methods, method.name = other.name →
    method.paramTypes.length = other.paramTypes.length → method = other

namespace Dispatcher

variable {catalogue : Catalogue m} {s t : Serializer} {h : Handler m} {r q : Request}
  {method other : Method}

/-! ## Located methods -/

/-- A request for which a handler has a method, found by the name and the types of the request. -/
structure Located (catalogue : Catalogue m) (h : Handler m) (r : Request) (method : Method) :
    Prop where
  sign : r.heartbeat = false
  even : r.parameters.length = r.paramTypes.length
  published : catalogue.get? r.service = some h
  found : h.find? r.method r.paramTypes = some method

namespace Located

theorem mem (hr : Located catalogue h r method) : method ∈ h.methods :=
  List.mem_of_find?_eq_some hr.found

theorem signature (hr : Located catalogue h r method) : method = ⟨r.method, r.paramTypes⟩ := by
  have hmatches := List.find?_some hr.found
  obtain ⟨hname, htypes⟩ : method.name = r.method ∧ method.paramTypes = r.paramTypes := by
    simpa [Method.matches] using hmatches
  rw [← hname, ← htypes]

/-- There is a value for each parameter of the method. -/
theorem length_eq (hr : Located catalogue h r method) :
    (Arguments.ofValues s r.parameters).size = method.paramTypes.length := by
  rw [hr.signature]
  exact hr.even

/-- The handler is called by the name of the method, with the values of the request. -/
theorem plan_eq (hr : Located catalogue h r method) :
    plan catalogue s r = .call h method.name (.ofValues s r.parameters) := by
  have hoffers : h.Offers r.method r.paramTypes := by
    refine ⟨method, hr.mem, ?_⟩
    rw [hr.signature]
    exact ⟨rfl, rfl⟩
  rw [plan_of_offers hr.sign hr.even hr.published hoffers, hr.signature]

/-- The types of two requests have no part in whether the same is handed over for them. -/
theorem plan_eq_iff (hr : Located catalogue h r method) (hq : Located catalogue h q other) :
    plan catalogue s r = plan catalogue t q ↔
      method.name = other.name ∧ s = t ∧ r.parameters = q.parameters := by
  rw [hr.plan_eq, hq.plan_eq]
  simp [Arguments.ofValues]

theorem plan_ne (hr : Located catalogue h r method) (hq : Located catalogue h q other)
    (hdiffer : method.name ≠ other.name ∨ method.paramTypes.length ≠ other.paramTypes.length) :
    plan catalogue s r ≠ plan catalogue t q := by
  intro hsame
  obtain ⟨hname, -, hvalues⟩ := (hr.plan_eq_iff hq).mp hsame
  rcases hdiffer with hother | hlength
  · exact hother hname
  · rw [← hr.length_eq (s := s), ← hq.length_eq (s := s), hvalues] at hlength
    exact hlength rfl

end Located

/-- For every method of a handler there is a request that locates it, with as many values as there
are parameters. -/
theorem exists_located (h : Handler m) (hmethod : method ∈ h.methods) :
    ∃ catalogue r, Located catalogue h r method ∧
      r.parameters = List.replicate method.paramTypes.length [] := by
  let r : Request := ⟨"", h.service, method.name, List.replicate method.paramTypes.length [],
    method.paramTypes, false⟩
  have hoffers : h.Offers r.method r.paramTypes := ⟨method, hmethod, rfl, rfl⟩
  obtain ⟨found, hfound⟩ := h.exists_find? hoffers
  have hlocated : Located ⟨[(h.service, h)]⟩ h r found :=
    ⟨rfl, List.length_replicate, by simp [Catalogue.get?, r], hfound⟩
  obtain rfl : found = method := hlocated.signature
  exact ⟨_, r, hlocated, rfl⟩

/-! ## What a handler can tell -/

/-- A handler can tell from what it gets which method was located. -/
def CanTell (h : Handler m) : Prop :=
  ∃ choose : String → Arguments → Option Method, ∀ catalogue s r method,
    Located catalogue h r method →
      choose method.name (.ofValues s r.parameters) = some method

theorem canTell_iff (h : Handler m) : CanTell h ↔ h.DiffersInArity := by
  constructor
  · rintro ⟨choose, hchoose⟩ method hmethod other hother hname hlength
    obtain ⟨catalogue, r, hr, hvalues⟩ := exists_located h hmethod
    obtain ⟨catalogue', q, hq, hvalues'⟩ := exists_located h hother
    have hmeant := hchoose catalogue .json r method hr
    have hmeant' := hchoose catalogue' .json q other hq
    rw [hvalues, hname, hlength, ← hvalues', hmeant'] at hmeant
    exact (Option.some.inj hmeant).symm
  · intro hdiffers
    let choose (name : String) (a : Arguments) : Option Method :=
      h.methods.find? fun method ↦ method.name = name ∧ method.paramTypes.length = a.size
    refine ⟨choose, fun catalogue s r method hr ↦ ?_⟩
    have hchosen : choose method.name (.ofValues s r.parameters) ≠ none := by
      intro hnone
      have hother := List.find?_eq_none.mp hnone method hr.mem
      simp [hr.length_eq] at hother
    obtain ⟨found, hfound⟩ := Option.ne_none_iff_exists'.mp hchosen
    obtain ⟨hname, hlength⟩ : found.name = method.name ∧
        found.paramTypes.length = (Arguments.ofValues s r.parameters).size := by
      simpa using List.find?_some hfound
    rw [hr.length_eq] at hlength
    rw [hfound, hdiffers found (List.mem_of_find?_eq_some hfound) method hr.mem hname hlength]

/-- What a handler gets for the requests that are located at its methods. -/
structure HandedOver (h : Handler m) : Prop where
  /-- It is called by the name of the method, with a value for each parameter. -/
  called : ∀ catalogue s r method, Located catalogue h r method →
    plan catalogue s r = .call h method.name (.ofValues s r.parameters) ∧
      (Arguments.ofValues s r.parameters).size = method.paramTypes.length
  /-- Two requests give it the same exactly if name, encoding and values are the same. -/
  same : ∀ catalogue s t r q method other, Located catalogue h r method →
    Located catalogue h q other → (plan catalogue s r = plan catalogue t q ↔
      method.name = other.name ∧ s = t ∧ r.parameters = q.parameters)
  /-- They differ for it if their methods differ in their names or in the number of parameters. -/
  apart : ∀ catalogue s t r q method other, Located catalogue h r method →
    Located catalogue h q other →
    method.name ≠ other.name ∨ method.paramTypes.length ≠ other.paramTypes.length →
      plan catalogue s r ≠ plan catalogue t q
  /-- It can always tell which method was located exactly if there are no two methods that differ
  in their types only. -/
  told : CanTell h ↔ h.DiffersInArity

/-- A handler gets the name of the located method and the values of the request, so it can tell
methods of one name apart by the number of their parameters only. -/
theorem handedOver (h : Handler m) : HandedOver h where
  called _ _ _ _ hr := ⟨hr.plan_eq, hr.length_eq⟩
  same _ _ _ _ _ _ _ hr hq := hr.plan_eq_iff hq
  apart _ _ _ _ _ _ _ hr hq hdiffer := hr.plan_ne hq hdiffer
  told := canTell_iff h

/-- A handler of two methods of one name, which takes what it gets for a signed integer. -/
def twins : Handler where
  service := "Twins"
  methods := [⟨"f", ["i32"]⟩, ⟨"f", ["u32"]⟩]
  call _ a :=
    let value : Outcome Int32 := .ofExcept (a.nextValue Wire.Shape.i32).1
    pure (value <&> fun i ↦ a.serializer.encodeValue .text (Numeral.intText i.toInt))

/-- A call of one of the two methods, with four bytes that are read as -1 or as the largest
unsigned integer. -/
def twinCall (type : String) : Request := .call "a" "Twins" "f" [⟨type, [255, 255, 255, 255]⟩]

/-- Two requests that differ in their types are located at different methods, and still the handler
gets the same for both and answers the same. -/
theorem twins_handed_same :
    Located ⟨[("Twins", twins)]⟩ twins (twinCall "i32") ⟨"f", ["i32"]⟩ ∧
    Located ⟨[("Twins", twins)]⟩ twins (twinCall "u32") ⟨"f", ["u32"]⟩ ∧
    (twinCall "i32").paramTypes ≠ (twinCall "u32").paramTypes ∧
    (⟨"f", ["i32"]⟩ : Method) ≠ ⟨"f", ["u32"]⟩ ∧
    plan ⟨[("Twins", twins)]⟩ .bincode (twinCall "i32") =
      plan ⟨[("Twins", twins)]⟩ .bincode (twinCall "u32") ∧
    handle ⟨[("Twins", twins)]⟩ .bincode (twinCall "i32") =
      handle ⟨[("Twins", twins)]⟩ .bincode (twinCall "u32") :=
  ⟨⟨rfl, rfl, rfl, rfl⟩, ⟨rfl, rfl, rfl, rfl⟩, by decide, by decide, rfl, rfl⟩

end Dispatcher

end FramedRpc
