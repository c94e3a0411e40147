import FramedRpc.CommandLine.Grammar
import FramedRpc.Demo.Greeting
import FramedRpc.Endpoint

/-!
# Commands

The two commands of the program: serving the demonstration services, and calling one of their
methods. A request for help before the name of a command is handed on to that command.
-/

namespace FramedRpc.CommandLine

def program : String := "nexrpc"

structure ServeOptions where
  bind : String
  advertised : Option Endpoint
  /-- After so many seconds silent connections are closed; zero closes none. -/
  readIdle : Nat
  workers : Nat
  deriving DecidableEq, Repr

/-- What is told of a call on the command line. The two operands are missing until they are read. -/
structure CallOptions where
  endpoint : Option Endpoint
  method : Option Demo.DemoMethod
  message : String
  id : Int32
  serializer : Serializer
  timeout : Nat
  deriving DecidableEq

inductive Command where
  | serve (options : ServeOptions)
  | call (endpoint : Endpoint) (method : Demo.DemoMethod) (options : CallOptions)

/-! ## Values -/

def readWord (text : String) : Except String Nat :=
  (Numeral.readNat 0xFFFFFFFFFFFFFFFF text.toList).mapError Numeral.Flaw.message

def readId (text : String) : Except String Int32 :=
  match Numeral.readInt 0x7FFFFFFF text.toList with
  | .ok i => .ok (Int32.ofInt i)
  | .error flaw => .error flaw.message

def readEndpoint (text : String) : Except String Endpoint :=
  (Endpoint.parse text).mapError Fault.message

/-- Reads the name or the code of a serializer. -/
def readSerializer (text : String) : Except String Serializer :=
  (Serializer.parse text).mapError Fault.message

/-! ## Grammars -/

namespace ServeOptions

def standard : ServeOptions := ⟨"127.0.0.1:9000", none, 30, 16⟩

def about : String :=
  "Arguments for starting a server. The server publishes \x60HelloService\x60 and \x60ByeService\x60, " ++
    "registers them in a process-local directory and runs until Ctrl-C. serve the demo services"

def grammar : Grammar ServeOptions where
  path := [program, "serve"]
  about := about
  operands := []
  settings :=
    [⟨some 'b', "bind", "address to listen on", fun text o => .ok { o with bind := text }⟩,
      ⟨none, "advertise", "endpoint to register instead of the bound address",
        fun text o => do return { o with advertised := some (← readEndpoint text) }⟩,
      ⟨none, "read-idle-secs", "close connections silent for this many seconds (0 disables)",
        fun text o => do return { o with readIdle := ← readWord text }⟩,
      ⟨some 'w', "workers", "maximum concurrent method invocations",
        fun text o => do return { o with workers := ← readWord text }⟩]

end ServeOptions

namespace CallOptions

def standard : CallOptions := ⟨none, none, "This is a message", 12, .standard, 10000⟩

def about : String :=
  "Arguments for a single call. The reply is printed to stdout and nothing else is, " ++
    "so the command can be used from scripts. Errors go to stderr with a non-zero exit code. " ++
    "call a demo service method"

def grammar : Grammar CallOptions where
  path := [program, "call"]
  about := about
  operands :=
    [⟨"endpoint", "server endpoint, host:port",
        fun text o => do return { o with endpoint := some (← readEndpoint text) }⟩,
      ⟨"method", "method to call: hello or bye",
        fun text o => do return { o with method := some (← Demo.DemoMethod.parse text) }⟩]
  settings :=
    [⟨some 'm', "message", "message for hello, name for bye",
        fun text o => .ok { o with message := text }⟩,
      ⟨none, "id", "id for hello", fun text o => do return { o with id := ← readId text }⟩,
      ⟨some 's', "serializer", "payload serializer: bincode, json, postcard or a numeric code",
        fun text o => do return { o with serializer := ← readSerializer text }⟩,
      ⟨none, "timeout-ms", "call timeout in milliseconds",
        fun text o => do return { o with timeout := ← readWord text }⟩]

end CallOptions

/-! ## Choosing a command -/

namespace Command

def entries : List (String × String) :=
  [("serve", ServeOptions.about), ("call", CallOptions.about)]

def help : String :=
  String.intercalate "\n\n"
    ["Usage: " ++ program ++ " <command> [<args>]", "NexRPC - binary-framed RPC runtime",
      Layout.part "Options:" [helpEntry], Layout.part "Commands:" entries] ++ "\n"

/-- Reads the command of a name, if there is one. -/
def named? (name : String) (arguments : List String) : Option (Except Halt Command) :=
  match name with
  | "serve" => some do return .serve (← ServeOptions.grammar.read .standard arguments)
  | "call" => some do
    let o ← CallOptions.grammar.read .standard arguments
    match o.endpoint, o.method with
    | some endpoint, some method => return .call endpoint method o
    | _, _ => throw (.help CallOptions.grammar.help)
  | _ => none

/-- Reads arguments up to the name of a command, and those after it as that command takes them. -/
def readFrom (helped ended : Bool) : List String → Except Halt Command
  | [] =>
    if helped then .error (.help help)
    else
      .error (.refused (Grammar.missingMessage "One of the following subcommands must be present:"
        ("help" :: entries.map Prod.fst)))
  | argument :: rest =>
    if !ended && helpWords.contains argument then readFrom true ended rest
    else if !ended && isOption argument then
      if argument = "--" then readFrom helped true rest
      else if helped then .error (.refused trailingMessage)
      else .error (.refused (unknownMessage argument))
    else
      match named? argument (if helped then "help" :: rest else rest) with
      | some command => command
      | none => .error (.refused (unknownMessage argument))

def read (arguments : List String) : Except Halt Command := readFrom false false arguments

end Command

end FramedRpc.CommandLine
