import FramedRpc.Text.Numeral

/-!
# Outcomes of a call

The status of a response. On the wire a status is a code and a message; the failures share one
code, so they are told apart by the beginning of the message.
-/

namespace FramedRpc

inductive Status where
  | success
  | fail
  | methodNotFound
  | classNotFound
  deriving DecidableEq, Repr

namespace Status

def all : List Status := [.success, .fail, .methodNotFound, .classNotFound]

def name : Status → String
  | .success => "Success"
  | .fail => "Fail"
  | .methodNotFound => "MethodNotFound"
  | .classNotFound => "ClassNotFound"

def ofName? (name : String) : Option Status := all.find? fun s => s.name = name

def successCode : UInt16 := 200

/-- The code of every failure. -/
def failureCode : UInt16 := 500

def code : Status → UInt16
  | .success => successCode
  | .fail | .methodNotFound | .classNotFound => failureCode

def message : Status → String
  | .success => "method invoked successfully"
  | .fail => "method invocation failed"
  | .methodNotFound => "method not found"
  | .classNotFound => "class not found"

def text (status : Status) : String :=
  Numeral.text status.code.toNat ++ " " ++ status.message

/-- The status for a code and a message. -/
def ofWire (code : UInt16) (text : String) : Status :=
  if code = successCode then .success
  else if message .methodNotFound |>.toList.isPrefixOf text.toList then .methodNotFound
  else if message .classNotFound |>.toList.isPrefixOf text.toList then .classNotFound
  else .fail

end Status

end FramedRpc
