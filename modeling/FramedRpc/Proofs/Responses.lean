import FramedRpc.Message

/-!
# What a response reports

All failures share one code, and behind the message of the status stands a text that may come from
anywhere. No status has a message that begins like that of another one for as long as the shorter of
them goes, so whatever the text is, the status that was written is the one that is read.
-/

namespace FramedRpc

/-- Whatever stands behind the message of a status, the text begins with no other message. -/
theorem Status.isPrefixOf_message_append (a b : Status) (tail : String) :
    a.message.toList.isPrefixOf (b.message ++ tail).toList = decide (a = b) := by
  rw [String.toList_append]
  cases a <;> cases b <;> rfl

/-- A status is read back from its code and its message, whatever stands behind that. -/
@[simp]
theorem Status.ofWire_message_append (status : Status) (tail : String) :
    .ofWire status.code (status.message ++ tail) = status := by
  unfold ofWire
  rw [isPrefixOf_message_append, isPrefixOf_message_append]
  cases status <;> rfl

namespace Response

variable {r : Request} {response : Response} {status : Status}

@[simp]
theorem status_success (id : String) (data : List UInt8) : (success id data).status = .success :=
  Status.ofWire_message_append .success ""

@[simp]
theorem status_failure (id : String) (status : Status) (detail : String) :
    (failure id status detail).status = status := by
  by_cases hdetail : detail.isEmpty = true
  case pos =>
    have hread := status.ofWire_message_append ""
    rw [String.append_empty] at hread
    simpa [Response.status, failure, hdetail] using hread
  case neg =>
    have hread := status.ofWire_message_append (": " ++ detail)
    rw [← String.append_assoc] at hread
    simpa [Response.status, failure, hdetail] using hread

theorem check_of_id_eq (hid : response.id = r.id) (hstatus : response.status = status) :
    response.check r =
      if status = .success then .ok () else .error (.invocation status response.message) := by
  have hsame : ¬ r.id ≠ response.id := fun hne ↦ hne hid.symm
  rw [check, if_neg hsame, hstatus]

/-- A response to a request reports a status, and data exactly for a success. Whoever sent the
request reads this status and no other. -/
structure Reports (response : Response) (r : Request) (reported : Status)
    (carried : Option (List UInt8)) : Prop where
  id : response.id = r.id
  status : response.status = reported
  data : response.data = carried
  isSome_data : response.data.isSome = true ↔ reported = .success
  check : response.check r =
    if reported = .success then .ok () else .error (.invocation reported response.message)

theorem reports_success (r : Request) (data : List UInt8) :
    (success r.id data).Reports r .success (some data) where
  id := rfl
  status := by simp
  data := rfl
  isSome_data := by simp [success]
  check := check_of_id_eq rfl (by simp)

theorem reports_failure (r : Request) (hstatus : status ≠ .success) (detail : String) :
    (failure r.id status detail).Reports r status none where
  id := rfl
  status := by simp
  data := rfl
  isSome_data := by simp [failure, hstatus]
  check := check_of_id_eq rfl (by simp)

/-- Whoever sent a request gets the data of a success. -/
theorem Reports.dataFor_of_success {data : List UInt8}
    (h : response.Reports r .success (some data)) : response.dataFor r = .ok data := by
  rw [dataFor, h.check, h.data]
  rfl

/-- Whoever sent a request gets a failure together with the message of the response. -/
theorem Reports.dataFor_of_failure (h : response.Reports r status none)
    (hstatus : status ≠ .success) :
    response.dataFor r = .error (.invocation status response.message) := by
  rw [dataFor, h.check, if_neg hstatus]
  rfl

end Response

end FramedRpc
