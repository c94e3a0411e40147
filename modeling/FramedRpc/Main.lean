import FramedRpc.Client
import FramedRpc.CommandLine.Program
import FramedRpc.Frame.Stream
import FramedRpc.Network.Isolated
import FramedRpc.RequestId
import FramedRpc.Server.Serving
import Std.Async.DNS
import Std.Async.Select
import Std.Async.Signal
import Std.Async.TCP
import Std.Async.Timer
import Std.Sync.Channel

/-!
# The program

The sockets, the clock and the signals of the operating system. What comes of them is decided
elsewhere: whatever the network brings is played to the client or the server as an event, and the
messages that they have written are sent.
-/

namespace FramedRpc.Program

open Std.Async Std.Net CommandLine

/-! ## The operating system -/

/-- The number and the wording of an error of the operating system. -/
def systemError? : IO.Error → Option (UInt32 × String)
  | .alreadyExists _ number text | .otherError number text | .resourceBusy number text
  | .resourceVanished number text | .unsupportedOperation number text
  | .hardwareFault number text | .unsatisfiedConstraints number text
  | .illegalOperation number text | .protocolError number text | .timeExpired number text
  | .interrupted _ number text | .noFileOrDirectory _ number text
  | .invalidArgument _ number text | .permissionDenied _ number text
  | .resourceExhausted _ number text | .inappropriateType _ number text
  | .noSuchThing _ number text => some (number, text)
  | .unexpectedEof | .userError _ => none

/-- What is said of an error. Numbers from 3000 on are those of the name service. -/
def detail (error : IO.Error) : String :=
  match systemError? error with
  | none => error.toString
  | some (number, text) =>
    let number := min number.toNat (0x100000000 - number.toNat)
    if 3000 ≤ number then "failed to lookup address information: " ++ text
    else text.capitalize ++ " (os error " ++ Numeral.text number ++ ")"

/-- The milliseconds that have passed since a time. -/
def elapsed (began : Nat) : IO Nat := do return (← IO.monoMsNow) - began

def randomWord : IO Nat := do return Codec.number (← IO.getRandomBytes 8).toList

def freshId : IO String := do return RequestId.ofDraws (← randomWord) (← randomWord)

def nativeAddress : Address → IPAddr
  | .v4 a b c d => .v4 (.ofParts a.toUInt8 b.toUInt8 c.toUInt8 d.toUInt8)
  | .v6 groups => .v6 ⟨Vector.ofFn fun i => (groups.getD i 0).toUInt16⟩

def nativeSocket (port : UInt16) : IPAddr → SocketAddress
  | .v4 a => .v4 ⟨a, port⟩
  | .v6 a => .v6 ⟨a, port⟩

def knownAddress : IPAddr → Address
  | .v4 a => .v4 a.octets[0].toNat a.octets[1].toNat a.octets[2].toNat a.octets[3].toNat
  | .v6 a => .v6 (a.segments.toList.map UInt16.toNat)

/-! ## News -/

/-- What the program learns while it waits. Connections are numbered as they are made. -/
inductive News where
  | accepted (socket : TCP.Socket.Client)
  | received (connection : Nat) (bytes : List UInt8)
  | ended (connection : Nat)
  | unreadable (connection : Nat) (detail : String)
  | unwritable (connection : Nat) (detail : String)
  | interrupted
  /-- A deadline has come. -/
  | nothing

instance : Inhabited News := ⟨.nothing⟩

/-- The next news, or that there are none for some time. -/
def nextNews (news : Std.Channel News) (milliseconds : Nat) : Async News := do
  Selectable.one #[
    .case news.recvSelector pure,
    .case (← Selector.sleep (.ofNat milliseconds)) fun _ => pure .nothing]

/-- The longest time without news after which deadlines are looked at again. -/
def patience : Nat := 60000

/-- Tells what is received over a connection. -/
partial def listenTo (news : Std.Channel News) (connection : Nat) (socket : TCP.Socket.Client) :
    Async Unit := do
  let received ← try Except.ok <$> socket.recv? 0x10000 catch e => pure (.error (detail e))
  match received with
  | .ok (some bytes) =>
    let _ ← news.send (.received connection bytes.toList)
    listenTo news connection socket
  | .ok none => let _ ← news.send (.ended connection)
  | .error text => let _ ← news.send (.unreadable connection text)

/-- Sends what is queued for a connection, up to nothing, which ends it. -/
partial def speakTo (news : Std.Channel News) (connection : Nat) (socket : TCP.Socket.Client)
    (queue : Std.Channel (Option (List UInt8))) : Async Unit := do
  match ← await (← queue.recv) with
  | none => try socket.shutdown catch _ => pure ()
  | some bytes =>
    let sent ← try Except.ok <$> socket.send ⟨bytes.toArray⟩ catch e => pure (.error (detail e))
    match sent with
    | .ok () => speakTo news connection socket queue
    | .error text => let _ ← news.send (.unwritable connection text)

structure Line where
  /-- What is to be sent. -/
  queue : Std.Channel (Option (List UInt8))
  /-- What was received. -/
  stream : FrameStream
  /-- The number of messages that were queued. -/
  sent : Nat

namespace Line

def start (news : Std.Channel News) (connection : Nat) (socket : TCP.Socket.Client) :
    Async Line := do
  let queue ← Std.Channel.new
  background (listenTo news connection socket)
  background (speakTo news connection socket queue)
  return ⟨queue, .start, 0⟩

/-- Queues frames that can be encoded. -/
def send (line : Line) (codec : Codec) (frames : List Frame) : Async Line := do
  for frame in frames do
    if let .ok bytes := codec.encode frame then
      let _ ← line.queue.send (some bytes)
  return { line with sent := line.sent + frames.length }

def close (line : Line) : Async Unit := do
  let _ ← line.queue.send none

/-- What bytes complete. -/
def feed (line : Line) (codec : Codec) (bytes : List UInt8) :
    List (Except Fault Frame) × Line :=
  let stream := line.stream.feed codec bytes
  (stream.answers, { line with stream := { stream with frames := [] } })

end Line

/-! ## Calling -/

def addresses (host : String) : Async (List IPAddr) := do
  match Network.resolve host with
  | .ok (address, _) => return [nativeAddress address]
  | .error .unresolvedName => return (← DNS.getAddrInfo host "").toList.eraseDups
  | .error flaw => throw (.userError flaw.message)

/-- Connects to the first address that accepts. -/
def connectToAny (port : UInt16) : List IPAddr → Async TCP.Socket.Client
  | [] => throw (.userError "could not resolve to any addresses")
  | address :: rest => do
    let attempt : Async TCP.Socket.Client := do
      let socket ← TCP.Socket.Client.mk
      socket.connect (nativeSocket port address)
      return socket
    if rest.isEmpty then attempt else try attempt catch _ => connectToAny port rest

instance : Inhabited ConnectFlaw := ⟨.timedOut⟩

def connect (e : Endpoint) (timeout : Nat) : Async (Except ConnectFlaw TCP.Socket.Client) :=
  Async.race
    (try
      return .ok (← connectToAny e.port (← addresses e.host))
    catch error => return .error (.failed (detail error)))
    (do
      sleep (.ofNat timeout)
      return .error .timedOut)

/-- What is read from a connection, as its loop takes it. -/
def readings (answers : List (Except Fault Frame)) : List Connection.Event :=
  answers.map fun
    | .ok frame => .receive frame.message
    | .error fault => .leave (.unreadable fault)

/-- What news mean to the connection of a client, which gets an identifier for a heartbeat. -/
def heardByClient (codec : Codec) (id : String) (line : Line) :
    News → List Connection.Event × Line
  | .received _ bytes => let (answers, line) := line.feed codec bytes; (readings answers, line)
  | .ended _ => (readings line.stream.finish.answers ++ [.leave .closedByPeer], line)
  | .unreadable _ text => ([.leave (.unreadable (.io text))], line)
  | .unwritable _ text => ([.leave (.writeFailed (.io text))], line)
  | .nothing => ([.wake id], line)
  | .accepted _ | .interrupted => ([], line)

/-- How long nothing will happen in a client by itself. -/
def clientPause (c : Client) (id : ConnectionId) : Nat :=
  let call := c.runs.filterMap fun run =>
    match run.phase with
    | .waiting _ _ deadline => some deadline
    | _ => none
  let idle := ((c.pool.connection? id).bind fun c => c.liveness.nextDeadline.toOption.join).toList
  (call ++ idle).foldl (fun pause deadline => min pause (deadline - c.now)) patience

/-- Carries the only call of a client on until it has a result. -/
partial def converse (began : Nat) (news : Std.Channel News) (c : Client) (id : ConnectionId)
    (line : Line) : Async (Except Fault Response) := do
  let c := c.attend 0 id
  let codec := c.config.connection.codec
  let written := (c.pool.connection? id).elim [] Connection.written
  let line ← line.send codec
    ((written.drop line.sent).map fun w => ⟨c.config.serializer, .request w.request⟩)
  match c.result? 0 with
  | some result =>
    line.close
    return result
  | none =>
    let told ← nextNews news (clientPause c id)
    let (events, line) := heardByClient codec (← freshId) line told
    let c := c.play (.pass ((← elapsed began) - c.now) ::
      events.map fun event => .pool (.connection id (.turn event)))
    converse began news c id line

/-- Sends a call to an endpoint and waits for its result. -/
def send (o : CallOptions) (e : Endpoint) (call : Call) : Async (Outcome (List UInt8)) := do
  let began ← IO.monoMsNow
  let request : Request := .call (← freshId) call.service call.method call.arguments
  let start := (Client.start o.config).play [.begin request]
  let answer ← connect e o.config.connection.connectTimeout
  let flaw := match answer with
    | .ok _ => none
    | .error flaw => some flaw
  let c := start.play (.pass (← elapsed began) :: Client.opening 0 0 (.ok e) flaw)
  let result ← match answer, c.connection? 0 with
    | .ok socket, some id => do
      let news ← Std.Channel.new
      converse began news c id (← Line.start news 0 socket)
    | _, _ => pure ((c.result? 0).getD (.error (Client.droppedFault request)))
  return .ofExcept (result >>= fun response => response.dataFor request)

/-! ## Serving -/

def listen (address : String) : IO (Except String (TCP.Socket.Server × Endpoint)) := do
  match Network.Isolated.bindTarget address with
  | .error flaw => return .error flaw.message
  | .ok ((target, _), port) =>
    try
      let server ← TCP.Socket.Server.mk
      server.bind (nativeSocket port.toUInt16 (nativeAddress target))
      server.listen 1024
      let bound ← server.getSockName
      return .ok (server, .ofAddress (knownAddress bound.ipAddr) bound.port.toNat)
    catch error => return .error (detail error)

/-- Tells of every connection that is made to a server. -/
partial def acceptAll (news : Std.Channel News) (server : TCP.Socket.Server) : Async Unit := do
  match ← (try some <$> server.accept catch _ => pure none) with
  | some socket => let _ ← news.send (.accepted socket)
  | none => sleep (.ofNat 100)
  acceptAll news server

def awaitInterrupt (news : Std.Channel News) : Async Unit := do
  let _ ← await (← (← Signal.Waiter.mk .sigint false).wait)
  let _ ← news.send .interrupted

/-- What news mean to the session of a server. -/
def heardByServer (codec : Codec) (line : Line) : News → List Session.Inbound × Line
  | .received _ bytes =>
    let (answers, line) := line.feed codec bytes
    (answers.map fun answer =>
      match answer with
      | .ok frame => .frame frame
      | .error fault => .unreadable fault, line)
  | .ended _ =>
    match line.stream.finish.fault with
    | some fault => ([.unreadable fault], line)
    | none => ([.ending], line)
  | .unreadable _ text | .unwritable _ text => ([.unreadable (.io text)], line)
  | .accepted _ | .interrupted | .nothing => ([], line)

/-- How long nothing will happen in a server by itself. -/
def serverPause (s : Serving) : Nat :=
  (s.sessions.filter Session.isOpen).foldl (fun pause session =>
    session.liveness.nextDeadline.toOption.join.elim pause fun deadline =>
      min pause (deadline - s.now)) patience

/-- Sends what the session of a line has written, and ends the line together with its session. -/
def flush (s : Serving) (id : SessionId) (line : Line) : Async (Option Line) := do
  match s.sessions[id]? with
  | none => return some line
  | some session =>
    let line ← line.send s.server.codec
      ((session.written.drop line.sent).map Session.Reply.frame)
    if session.isOpen then return some line
    line.close
    return none

/-- Serves until the program is interrupted. -/
partial def serve (began : Nat) (news : Std.Channel News) (s : Serving)
    (lines : Array (Option Line)) : Async Unit := do
  let told ← nextNews news (serverPause s)
  let s := s.play [.pass ((← elapsed began) - s.now)]
  match told with
  | .interrupted => for line in lines do line.forM Line.close
  | .accepted socket =>
    let id := s.sessions.length
    serve began news (s.play [.accept]) (lines.push (some (← Line.start news id socket)))
  | .received id _ | .ended id | .unreadable id _ | .unwritable id _ =>
    match (lines[id]?).join with
    | none => serve began news s lines
    | some line =>
      let (arrived, line) := heardByServer s.server.codec line told
      let s := (s.play (arrived.map fun inbound => .session id (.arrive inbound))).attend id
      serve began news s (lines.setIfInBounds id (← flush s id line))
  | .nothing =>
    let s := s.play ((List.range s.sessions.length).map fun id => .session id .wake)
    let lines ← lines.mapIdxM fun id line =>
      match line with
      | some line => flush s id line
      | none => pure none
    serve began news s lines

/-- Starts a server, lets it serve until the program is interrupted, and stops it. -/
def runServer (o : ServeOptions) : Async (Outcome Unit) := do
  let listener ← listen o.bind
  match o.start (listener.map Prod.snd), listener with
  | (.returned running, registry), .ok (socket, _) =>
    IO.eprintln ("Serving " ++ String.intercalate ", " running.services ++ " at " ++
      running.endpoint.display)
    let news ← Std.Channel.new
    background (acceptAll news socket)
    background (awaitInterrupt news)
    serve (← IO.monoMsNow) news (.start o.server) #[]
    let (result, _, _) := running.stop Backend.memory registry
    for report in interruptedReports do IO.eprintln report
    return .ofExcept result
  | (outcome, _), _ => return (fun _ => ()) <$> outcome

/-! ## Commands -/

def run : Command → Async (Outcome String)
  | .call endpoint method o => do
    return (· ++ "\n") <$> (← o.invoke method (send o endpoint))
  | .serve o => do return (fun _ => "") <$> (← runServer o)

def runLine (arguments : List String) : Async Ending := do
  match Command.read arguments with
  | .error halt => return .ofHalt halt
  | .ok command => return .ofOutcome (← run command)

end FramedRpc.Program

def main (arguments : List String) : IO UInt32 := do
  let ending ← (FramedRpc.Program.runLine arguments).block
  IO.print ending.output
  IO.eprint ending.errors
  return ending.code.toUInt32
