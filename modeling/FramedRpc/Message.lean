import FramedRpc.Serializer

/-!
# Messages

Calls and their answers. A request names a service and a method and carries the encoded arguments
together with the names of their types; a heartbeat is a request that only shows that its sender is
alive. A response carries the identifier of its request, a status and, for a success, the encoded
return value.
-/

namespace FramedRpc

open Wire (HasShape Shape)

/-- An encoded argument and the name of its type. -/
structure Argument where
  typeName : String
  value : List UInt8
  deriving DecidableEq, Repr

def Argument.encode {α : Type} [HasShape α] (s : Serializer) (a : α) : Argument :=
  ⟨(HasShape.shape α).typeName, s.encode a⟩

/-- A call, or a sign of life. -/
structure Request where
  id : String
  service : String
  method : String
  parameters : List (List UInt8)
  paramTypes : List String
  heartbeat : Bool
  deriving DecidableEq, Repr

namespace Request

def call (id service method : String) (arguments : List Argument) : Request where
  id := id
  service := service
  method := method
  parameters := arguments.map Argument.value
  paramTypes := arguments.map Argument.typeName
  heartbeat := false

/-- A sign of life. -/
def alive (id : String) : Request := ⟨id, "", "", [], [], true⟩

/-- The service and the method of a request. -/
def target (r : Request) : String := r.service ++ "#" ++ r.method

/-- The target of a request with the types of its arguments. -/
def signature (r : Request) : String :=
  r.target ++ "(" ++ String.intercalate ", " r.paramTypes ++ ")"

/-- Every argument has a type. Signs of life need none. -/
def validate (r : Request) : Except Fault Unit :=
  if r.heartbeat ∨ r.parameters.length = r.paramTypes.length then .ok ()
  else .error (.invalidRequest (Numeral.text r.parameters.length ++ " parameter values but " ++
    Numeral.text r.paramTypes.length ++ " parameter types for " ++ r.target))

instance : HasShape Request where
  shape := .record "nexrpc_common::protocol::requests" "Request"
    (.cons "request_id" .text (.cons "interface_name" .text (.cons "method_name" .text
      (.cons "parameters" (.list .bytes) (.cons "param_types" (.list .text)
        (.cons "heartbeat" .bool .nil))))))
  toValue r := (r.id, r.service, r.method, r.parameters, r.paramTypes, r.heartbeat, ())
  ofValue := fun (id, service, method, parameters, paramTypes, heartbeat, _) =>
    ⟨id, service, method, parameters, paramTypes, heartbeat⟩

end Request

structure Response where
  id : String
  code : UInt16
  message : String
  data : Option (List UInt8)
  deriving DecidableEq, Repr

namespace Response

def success (id : String) (data : List UInt8) : Response :=
  ⟨id, Status.success.code, Status.success.message, some data⟩

/-- The answer of a call that failed, with more detail than the status gives. -/
def failure (id : String) (status : Status) (detail : String) : Response where
  id := id
  code := status.code
  message := if detail.isEmpty then status.message else status.message ++ ": " ++ detail
  data := none

def status (r : Response) : Status := .ofWire r.code r.message

def isSuccess (r : Response) : Bool := r.status = .success

/-- An answer to a request has its identifier and reports a success. -/
def check (r : Response) (request : Request) : Except Fault Unit :=
  if request.id ≠ r.id then .error (.responseMismatch request.id r.id)
  else if r.status = .success then .ok ()
  else .error (.invocation r.status r.message)

/-- The return value that an answer to a request carries. -/
def dataFor (r : Response) (request : Request) : Except Fault (List UInt8) := do
  r.check request
  match r.data with
  | some data => return data
  | none => throw (.invalidResponse "Missing data in success response")

instance : HasShape Response where
  shape := .record "nexrpc_common::protocol::responses" "Response"
    (.cons "request_id" .text (.cons "status_code" .u16 (.cons "message" .text
      (.cons "data" (.optional .bytes) .nil))))
  toValue r := (r.id, r.code, r.message, r.data, ())
  ofValue := fun (id, code, message, data, _) => ⟨id, code, message, data⟩

end Response

/-- What travels in a frame. -/
inductive Message where
  | request (request : Request)
  | response (response : Response)
  deriving DecidableEq, Repr

namespace Message

inductive Kind where
  | request
  | response
  deriving DecidableEq, Repr

def Kind.code : Kind → UInt32
  | .request => 0
  | .response => 1

def Kind.ofCode? (code : UInt32) : Option Kind :=
  [Kind.request, Kind.response].find? fun k => k.code = code

def kind : Message → Kind
  | .request _ => .request
  | .response _ => .response

def encode (s : Serializer) : Message → List UInt8
  | .request r => s.encode r
  | .response r => s.encode r

def decode (s : Serializer) (kind : Kind) (bytes : List UInt8) : Except Fault Message :=
  match kind with
  | .request => .request <$> s.decode Request bytes
  | .response => .response <$> s.decode Response bytes

end Message

end FramedRpc
