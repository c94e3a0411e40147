import FramedRpc.Demo.Kitchen
import FramedRpc.Proofs.Responses
import FramedRpc.Server.Dispatcher

/-!
# How requests are decided

Services are published one after the other, each under its own name or under another one, and the
first one of a name serves it. A request is checked in a fixed order, and the first check that fails
gives the status of the response. Only a request that passes all of them reaches a method.
-/

namespace FramedRpc

variable {m : Type → Type}

/-! ## Publications -/

/-- A handler that is published, under its own name or under another one. -/
structure Publication (m : Type → Type := Id) where
  handler : Handler m
  name? : Option String

def Publication.name (p : Publication m) : String := p.name?.getD p.handler.service

namespace Catalogue

variable {c : Catalogue m} {publications before behind : List (Publication m)}
  {p : Publication m} {name : String}

def add (c : Catalogue m) (p : Publication m) : Catalogue m :=
  match p.name? with
  | none => (c.publish p.handler).2
  | some name => (c.publishAs name p.handler).2

def ofPublications (publications : List (Publication m)) : Catalogue m :=
  publications.foldl add empty

theorem add_eq (c : Catalogue m) (p : Publication m) :
    c.add p = (c.publishAs p.name p.handler).2 := by
  unfold add Publication.name publish
  cases p.name? <;> rfl

/-- A publication changes what is found under its own name only, and only where nothing was. -/
@[simp]
theorem get?_add (c : Catalogue m) (p : Publication m) (name : String) :
    (c.add p).get? name =
      (c.get? name).or (if p.name = name then some p.handler else none) := by
  rw [add_eq, publishAs]
  cases htaken : c.get? p.name with
  | some handler =>
    by_cases hname : p.name = name
    case pos =>
      rw [← hname, htaken]
      rfl
    case neg => rw [if_neg hname, Option.or_none]
  | none =>
    show (c.services ++ [(p.name, p.handler)]).lookup name = _
    rw [List.lookup_append]
    by_cases hname : p.name = name
    case pos => simp [get?, hname]
    case neg =>
      have hother : (name == p.name) = false := beq_false_of_ne (Ne.symm hname)
      simp [get?, List.lookup_cons, hname, hother]

@[simp]
theorem get?_foldl_add (publications : List (Publication m)) (c : Catalogue m) (name : String) :
    (publications.foldl add c).get? name = (c.get? name).or
      ((publications.find? fun p ↦ p.name = name).map Publication.handler) := by
  induction publications generalizing c with
  | nil => simp
  | cons p publications ih =>
    by_cases hname : p.name = name <;> simp [ih, hname]

/-- Under a name is found what was published first under it. -/
@[simp]
theorem get?_ofPublications (publications : List (Publication m)) (name : String) :
    (ofPublications publications).get? name =
      (publications.find? fun p ↦ p.name = name).map Publication.handler :=
  get?_foldl_add publications empty name

theorem get?_of_unpublished (h : ∀ p ∈ publications, p.name ≠ name) :
    (ofPublications publications).get? name = none := by
  simpa using h

theorem get?_of_first (hname : p.name = name) (h : ∀ q ∈ before, q.name ≠ name) :
    (ofPublications (before ++ p :: behind)).get? name = some p.handler := by
  have hbefore : before.find? (fun q ↦ q.name = name) = none :=
    List.find?_eq_none.mpr (by simpa using h)
  simp [List.find?_append, hbefore, hname]

end Catalogue

/-! ## Methods of a name and types -/

/-- A handler has a method of a name and of exactly these parameter types. -/
def Handler.Offers (h : Handler m) (name : String) (paramTypes : List String) : Prop :=
  ∃ method ∈ h.methods, method.name = name ∧ method.paramTypes = paramTypes

theorem Handler.find?_eq_none_iff (h : Handler m) (name : String) (paramTypes : List String) :
    h.find? name paramTypes = none ↔ ¬ h.Offers name paramTypes := by
  simp [Handler.find?, Method.matches, Handler.Offers]

theorem Handler.exists_find? {h : Handler m} {name : String} {paramTypes : List String}
    (hoffers : h.Offers name paramTypes) : ∃ method, h.find? name paramTypes = some method := by
  rw [← Option.ne_none_iff_exists']
  exact fun hnone ↦ (h.find?_eq_none_iff name paramTypes).mp hnone hoffers

namespace Dispatcher

/-! ## The order of the checks -/

section Plan

variable {catalogue : Catalogue m} {s : Serializer} {r : Request} {handler : Handler m}

theorem validate_of_length_ne (hsign : r.heartbeat = false)
    (hlength : r.parameters.length ≠ r.paramTypes.length) :
    ∃ detail, r.validate = .error (.invalidRequest detail) := by
  have hinvalid : ¬ (r.heartbeat = true ∨ r.parameters.length = r.paramTypes.length) := by
    simp [hsign, hlength]
  exact ⟨_, if_neg hinvalid⟩

@[simp]
theorem validate_of_length_eq (hlength : r.parameters.length = r.paramTypes.length) :
    r.validate = .ok () :=
  if_pos (.inr hlength)

@[simp]
theorem plan_of_heartbeat (hsign : r.heartbeat = true) : plan catalogue s r = .ignore :=
  if_pos hsign

theorem plan_of_length_ne (hsign : r.heartbeat = false)
    (hlength : r.parameters.length ≠ r.paramTypes.length) :
    ∃ detail, plan catalogue s r = .answer (.failure r.id .fail detail) := by
  obtain ⟨detail, hinvalid⟩ := validate_of_length_ne hsign hlength
  unfold plan
  rw [hsign, hinvalid]
  exact ⟨_, rfl⟩

/-- A request that is no sign of life gets a failure, or a method is called. -/
theorem plan_cases (catalogue : Catalogue m) (s : Serializer) (hsign : r.heartbeat = false) :
    (∃ status detail, plan catalogue s r = .answer (.failure r.id status detail)) ∨
      ∃ handler, plan catalogue s r = .call handler r.method (.ofValues s r.parameters) := by
  have hcall : ¬ r.heartbeat = true := Bool.eq_false_iff.mp hsign
  unfold plan
  rw [if_neg hcall]
  split
  case h_1 => exact .inl ⟨_, _, rfl⟩
  case h_2 =>
    split
    case h_1 => exact .inl ⟨_, _, rfl⟩
    case h_2 handler _ =>
      split
      case h_1 => exact .inl ⟨_, _, rfl⟩
      case h_2 => exact .inr ⟨handler, rfl⟩

variable (hsign : r.heartbeat = false) (hlength : r.parameters.length = r.paramTypes.length)

include hsign hlength

theorem plan_of_get?_eq_none (hnone : catalogue.get? r.service = none) :
    plan catalogue s r = .answer (.failure r.id .classNotFound r.service) := by
  simp [plan, hsign, hlength, hnone]

theorem plan_of_not_offers (hget : catalogue.get? r.service = some handler)
    (hoffers : ¬ handler.Offers r.method r.paramTypes) :
    plan catalogue s r = .answer (.failure r.id .methodNotFound r.signature) := by
  have hnone := (handler.find?_eq_none_iff r.method r.paramTypes).mpr hoffers
  simp [plan, hsign, hlength, hget, hnone]

theorem plan_of_offers (hget : catalogue.get? r.service = some handler)
    (hoffers : handler.Offers r.method r.paramTypes) :
    plan catalogue s r = .call handler r.method (.ofValues s r.parameters) := by
  obtain ⟨method, hfound⟩ := handler.exists_find? hoffers
  simp [plan, hsign, hlength, hget, hfound]

end Plan

/-! ## What becomes of a request -/

variable {publications : List (Publication m)} {r : Request}

/-- A request gets a response that reports a failure, and nothing is called. -/
def Refuses [Monad m] (handled : m (Except String (Option Response))) (r : Request)
    (status : Status) : Prop :=
  ∃ response, handled = pure (.ok (some response)) ∧ response.Reports r status none

/-- The response to a call reports how the call ended, and a method that breaks off gets none. -/
structure Concludes (conclusion : Outcome (List UInt8) → Except String (Option Response))
    (r : Request) : Prop where
  returned : ∀ data, ∃ response, conclusion (.returned data) = .ok (some response) ∧
    response.Reports r .success (some data)
  methodNotFound : ∀ name, ∃ response,
    conclusion (.failed (.methodNotFound name)) = .ok (some response) ∧
      response.Reports r .methodNotFound none
  failed : ∀ fault, (∀ name, fault ≠ .methodNotFound name) → ∃ response,
    conclusion (.failed fault) = .ok (some response) ∧ response.Reports r .fail none
  panicked : ∀ text, conclusion (.panicked text) = .error text

/-- How a request is decided behind publications. -/
structure Decided [Monad m] (publications : List (Publication m)) (s : Serializer) (r : Request)
    (handled : m (Except String (Option Response))) : Prop where
  heartbeat : r.heartbeat = true → handled = pure (.ok none)
  uneven : r.heartbeat = false → r.parameters.length ≠ r.paramTypes.length →
    Refuses handled r .fail
  unpublished : r.heartbeat = false → r.parameters.length = r.paramTypes.length →
    (∀ p ∈ publications, p.name ≠ r.service) → Refuses handled r .classNotFound
  /-- The publication is the first one under the name that the request asks for. -/
  published : r.heartbeat = false → r.parameters.length = r.paramTypes.length →
    ∀ before p behind, publications = before ++ p :: behind → p.name = r.service →
      (∀ q ∈ before, q.name ≠ r.service) →
      (¬ p.handler.Offers r.method r.paramTypes → Refuses handled r .methodNotFound) ∧
      (p.handler.Offers r.method r.paramTypes → ∃ conclusion, Concludes conclusion r ∧
        handled = do
          return conclusion (← p.handler.call r.method (.ofValues s r.parameters)))
  /-- Whatever text goes with a failure, its status is the one that is read. -/
  recovered : ∀ status ≠ .success, ∀ detail,
    (Response.failure r.id status detail).Reports r status none

theorem conclude_failed {fault : Fault} (h : ∀ name, fault ≠ .methodNotFound name) (id : String) :
    conclude id (.failed fault) = .ok (some (.failure id .fail fault.message)) := by
  cases fault with
  | methodNotFound name => exact absurd rfl (h name)
  | _ => rfl

theorem concludes_conclude (r : Request) : Concludes (conclude r.id) r where
  returned data := ⟨_, rfl, Response.reports_success r data⟩
  methodNotFound name :=
    ⟨.failure r.id .methodNotFound name, rfl, Response.reports_failure r (by decide) name⟩
  failed fault hfault :=
    ⟨_, conclude_failed hfault r.id, Response.reports_failure r (by decide) fault.message⟩
  panicked _ := rfl

section

variable [Monad m] {catalogue : Catalogue m} {s : Serializer} {status : Status}

theorem refuses_of_plan {detail : String} (hstatus : status ≠ .success)
    (h : plan catalogue s r = .answer (.failure r.id status detail)) :
    Refuses (handle catalogue s r) r status := by
  refine ⟨.failure r.id status detail, ?_, Response.reports_failure r hstatus detail⟩
  unfold handle
  rw [h]

/-- Behind any publications a sign of life gets no response, and every other request is decided by
the first check that it fails. A method is called only if it passes all of them. -/
theorem decided_handle (publications : List (Publication m)) (s : Serializer) (r : Request) :
    Decided publications s r (handle (.ofPublications publications) s r) where
  heartbeat hsign := by
    simp [handle, hsign]
  uneven hsign hlength := by
    obtain ⟨detail, hplan⟩ := plan_of_length_ne hsign hlength
    exact refuses_of_plan nofun hplan
  unpublished hsign hlength hnone :=
    refuses_of_plan nofun (plan_of_get?_eq_none hsign hlength (Catalogue.get?_of_unpublished hnone))
  published hsign hlength := by
    rintro before p behind rfl hname hfirst
    have hget : (Catalogue.ofPublications (before ++ p :: behind)).get? r.service =
        some p.handler := Catalogue.get?_of_first hname hfirst
    refine ⟨fun hoffers ↦ ?_, fun hoffers ↦ ⟨conclude r.id, concludes_conclude r, ?_⟩⟩
    · exact refuses_of_plan nofun (plan_of_not_offers hsign hlength hget hoffers)
    · unfold handle
      rw [plan_of_offers hsign hlength hget hoffers]
  recovered _ hstatus := Response.reports_failure r hstatus

end

/-- The first service of two that are published under one name is called. -/
theorem handle_published_twice : ∃ conclusion,
    Concludes conclusion (.call "a" "driver.Overloads" "gone" []) ∧
    handle (.ofPublications [⟨Demo.overloads, none⟩, ⟨Demo.kitchenService.handler,
        some "driver.Overloads"⟩]) .json (.call "a" "driver.Overloads" "gone" []) =
      conclusion (.failed (.methodNotFound "late gone")) := by
  have hdecided := decided_handle
    [⟨Demo.overloads, none⟩, ⟨Demo.kitchenService.handler, some "driver.Overloads"⟩] .json
    (.call "a" "driver.Overloads" "gone" [])
  have hoffers : Demo.overloads.Offers "gone" [] := ⟨⟨"gone", []⟩, by decide, rfl, rfl⟩
  obtain ⟨conclusion, hconcludes, hhandled⟩ :=
    (hdecided.published rfl rfl [] _ _ rfl rfl nofun).2 hoffers
  exact ⟨conclusion, hconcludes, hhandled⟩

/-! ## Requests on workers -/

@[simp]
theorem respond_id (id : String) (result : Except Fault (List UInt8)) :
    (respond id result).id = id := by
  unfold respond
  split <;> rfl

theorem conclude_cases (id : String) (outcome : Outcome (List UInt8)) :
    (∃ response, conclude id outcome = .ok (some response) ∧ response.id = id) ∨
      ∃ text, conclude id outcome = .error text := by
  cases outcome with
  | returned data => exact .inl ⟨_, rfl, respond_id id (.ok data)⟩
  | failed fault => exact .inl ⟨_, rfl, respond_id id (.error fault)⟩
  | panicked text => exact .inr ⟨text, rfl⟩

section

variable {catalogue : Catalogue} {s : Serializer}

theorem run_of_ok {response : Option Response} (h : handle catalogue s r = .ok response) :
    run catalogue s r = response := by
  unfold run
  rw [h]
  rfl

theorem run_of_error {text : String} (h : handle catalogue s r = .error text) :
    run catalogue s r = some (brokenOff r.id) := by
  unfold run
  rw [h]
  rfl

end

/-- Whatever becomes of a request on a worker, a request that is no sign of life gets one response,
with its identifier. -/
theorem run_of_order (catalogue : Catalogue) (s : Serializer) (hsign : r.heartbeat = false) :
    ∃ response, run catalogue s r = some response ∧ response.id = r.id := by
  rcases plan_cases catalogue s hsign with ⟨status, detail, hplan⟩ | ⟨handler, hplan⟩
  · have hhandle : handle catalogue s r = .ok (some (.failure r.id status detail)) := by
      unfold handle
      rw [hplan]
      rfl
    exact ⟨_, run_of_ok hhandle, rfl⟩
  · have hhandle : handle catalogue s r =
        conclude r.id (handler.call r.method (.ofValues s r.parameters)) := by
      unfold handle
      rw [hplan]
      rfl
    rcases conclude_cases r.id (handler.call r.method (.ofValues s r.parameters)) with
      ⟨response, hresponse, hid⟩ | ⟨text, htext⟩
    · exact ⟨response, run_of_ok (hhandle.trans hresponse), hid⟩
    · exact ⟨_, run_of_error (hhandle.trans htext), rfl⟩

end Dispatcher

end FramedRpc
