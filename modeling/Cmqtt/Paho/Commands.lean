import Cmqtt.Machine
import Cmqtt.Paho.Protocol
import Cmqtt.Paho.Identifiers
import Cmqtt.Paho.Utf8

/-!
# The requests of the application

What `MQTTAsync.c` does with requests: each becomes a command in one list for all
clients, which the sending thread works on. Of the commands of a client, only
the first is ever taken; commands to connect, and to disconnect after an error,
go in front. A command that was sent waits among the responses of its client
until the receiving thread finds the packet that answers it, and the
application is called back.

What the library does while it holds its lock is one step, and so is
`MQTTAsync_writeComplete`, which does not take the lock. The functions that the
application calls do not hold it all along: they look whether the client is
connected, are given an identifier, and put their command into the list, and the
threads of the library and other calls may run in between (`Draft`). What the
application does in a callback comes after the step it is called back in.

The memory of a command that is done with is used again, for any other command
(`QueuedCommand.address`); that memory in use is not given out is nowhere needed.

Clients have one server, no automatic reconnection, no persistence, and no transport but
TCP; they are made without options (`MQTTAsync_create`), so that a message is never
deleted to make room for another one, and always connect with the same options, for
versions of the protocol before 5. They are not destroyed. The application gives
callbacks with every request.
-/

namespace Cmqtt

open SocketBuffer MQTTPacket MQTTProtocol

/-- `connect_state`. -/
inductive ConnectState
  | notInProgress
  | tcpInProgress
  | waitForConnack
  | disconnecting
  deriving DecidableEq, Repr

/-- What is kept of a command to connect. -/
structure Connect where
  /-- `MQTTVersion`: 4 and 3 are for 3.1.1 and 3.1, and 0 for one after the other. -/
  version : ℕ
  /-- Whether `onSuccess` is still set. -/
  onSuccess : Bool
  deriving DecidableEq, Repr

/-- `MQTTAsync_command`: what is asked for. -/
inductive Request
  | connect (conn : Connect)
  | subscribe (topics : List (CString × ℕ))
  | unsubscribe (topics : List CString)
  | publish (destinationName : CString) (payload : List UInt8) (qos : ℕ) (retained : Bool)
  | disconnect (internal : Bool) (timeout : ℕ)
  deriving DecidableEq

namespace Request

/-- Requests that are sent to the server, in order. -/
def isOrdinary : Request → Bool
  | subscribe _ | unsubscribe _ | publish _ _ _ _ => true
  | connect _ | disconnect _ _ => false

/-- Requests that go in front of all others. -/
def isFirst : Request → Bool
  | connect _ => true
  | disconnect internal _ => internal
  | _ => false

/-- `clientCompareConnectCommand`, for commands of one client. -/
def isSame : Request → Request → Bool
  | connect _, connect _ => true
  | disconnect _ _, disconnect _ _ => true
  | _, _ => false

end Request

/-- `MQTTAsync_queuedCommand`. -/
structure QueuedCommand where
  /-- Tells commands apart. -/
  number : ℕ
  /-- Where it is in memory, which does not tell it apart from commands that are done
      with. Of a command to connect or disconnect, nothing depends on it. -/
  address : ℕ
  client : ℕ
  token : ℕ
  request : Request
  deriving DecidableEq

/-- A function that the application has called, before it has put its command into the
    list. -/
structure Draft where
  client : ℕ
  /-- The identifier, once there is one; 0 for a request that needs none. -/
  msgid : Option ℕ
  request : Request
  deriving DecidableEq

/-- What becomes of a request. -/
inductive Outcome
  | success
  /-- The qualities that the server grants. -/
  | granted (qoss : List UInt8)
  | failure (token : ℕ) (code : ℤ)
  deriving DecidableEq, Repr

/-- What the application is called back with. -/
inductive Callback
  | connected (client : ℕ)
  | connectFailed (client : ℕ) (code : ℤ)
  | connectionLost (client : ℕ)
  | disconnected (client : ℕ)
  | finished (cmd : QueuedCommand) (outcome : Outcome)
  deriving DecidableEq

/-- `MQTTAsyncs`: a client. -/
structure Async where
  c : Clients
  msgID : ℕ
  connectState : ConnectState
  /-- The last command to connect. -/
  connect : Connect
  /-- The last command to disconnect: `internal`, `timeout`. -/
  disconnect : Bool × ℕ
  responses : List QueuedCommand
  /-- `pending_write`: an address, of a command that may be done with. -/
  pendingWrite : Option ℕ

/-- The options of `MQTTAsync_connect` that are used here. -/
structure ClientOptions where
  version : ℕ
  cleansession : Bool
  maxInflight : ℕ

/-- All clients and commands. -/
structure Library where
  commands : List QueuedCommand
  /-- The calls of the application that are under way. -/
  drafts : List Draft
  clients : ℕ → Async
  /-- The next number of a command. -/
  numbers : ℕ
  /-- The ordinary requests that were accepted, and those that were taken from the list. -/
  accepted : List QueuedCommand
  started : List QueuedCommand
  calls : List Callback

/-- What the sending thread depends on when it takes a command. -/
structure Processing where
  noPendingWrites : ℕ → Bool
  /-- What comes of the packet that is sent. -/
  rc : Completion Unit
  /-- How far `MQTTProtocol_connect` gets. -/
  connectState : ConnectState
  /-- The time since the command was given. -/
  elapsed : ℕ
  /-- The command that `ListFindItem` looks at first. -/
  current : ℕ

namespace Library

/-- `SOCKET_ERROR`, `MQTTASYNC_FAILURE`. -/
def socketError : ℤ := -1

/-- `MQTTASYNC_OPERATION_INCOMPLETE`. -/
def operationIncomplete : ℤ := -11

/-- There are no commands, and all clients are new. -/
def start : Library where
  commands := []
  drafts := []
  clients _ := ⟨⟨false, [], [], []⟩, 0, .notInProgress, ⟨0, false⟩, (false, 0), [], none⟩
  numbers := 0
  accepted := []
  started := []
  calls := []

variable (opts : ℕ → ClientOptions) (s : Library) (i : ℕ)

/-- A client changes. -/
def modify (f : Async → Async) : Library :=
  { s with clients := Function.update s.clients i (f (s.clients i)) }

/-- The application is called back. -/
def call (cb : Callback) : Library := { s with calls := s.calls ++ [cb] }

/-! ## The list of commands -/

/-- `ListRemoveItem` with `clientCompareConnectCommand`: the current element of the
    list is looked at first. -/
def removeItem (cmd : QueuedCommand) (current : ℕ) (cmds : List QueuedCommand) :
    List QueuedCommand :=
  let same := fun c : QueuedCommand => c.client == cmd.client && c.request.isSame cmd.request
  if cmds.any fun c => same c && c.number == current then
    cmds.eraseP fun c => same c && c.number == current
  else cmds.eraseP same

/-- `MQTTAsync_addCommand`. -/
def addCommand (cmd : QueuedCommand) (current : ℕ) : Library :=
  if cmd.request.isFirst then
    if s.commands.head?.any fun head =>
        head.client == cmd.client && head.request.isSame cmd.request then s
    else { s with commands := cmd :: removeItem cmd current s.commands }
  else { s with commands := s.commands ++ [cmd] }

/-- A new command is added. -/
def queue (token address : ℕ) (request : Request) (current : ℕ) : Library :=
  addCommand { s with numbers := s.numbers + 1 } ⟨s.numbers, address, i, token, request⟩ current

/-! ## Calls of the application -/

/-- A call that is to put a command into the list. -/
def draft (msgid : Option ℕ) (request : Request) : Library :=
  { s with drafts := s.drafts ++ [⟨i, msgid, request⟩] }

/-- `MQTTAsync_subscribeMany`. -/
def subscribe (topics : List (CString × ℕ)) : Library :=
  if !(s.clients i).c.connected then s
  else if topics.all fun t => UTF8.validateString true t.1 && t.2 ≤ 2 then
    s.draft i none (.subscribe topics)
  else s

/-- `MQTTAsync_unsubscribeMany`. -/
def unsubscribe (topics : List CString) : Library :=
  if !(s.clients i).c.connected then s
  else if topics.all (UTF8.validateString true) then s.draft i none (.unsubscribe topics)
  else s

/-- `MQTTAsync_send`; a message that is not acknowledged has no identifier. -/
def send (destinationName : CString) (payload : List UInt8) (qos : ℕ) (retained : Bool) : Library :=
  if !(s.clients i).c.connected then s
  else if !UTF8.validateString true destinationName then s
  else if qos > 2 then s
  else s.draft i (if qos > 0 then none else some 0) (.publish destinationName payload qos retained)

/-- `MQTTAsync_connect`. -/
def connect : Library :=
  (s.modify i fun a => { a with connect := { a.connect with onSuccess := true } }).draft i (some 0)
    (.connect ⟨0, true⟩)

/-- `MQTTAsync_disconnect`. -/
def disconnect (timeout : ℕ) : Library :=
  if !(s.clients i).c.connected then s else s.draft i (some 0) (.disconnect false timeout)

/-- Whether an identifier is in use, for `MQTTAsync_assignMsgId`: the commands of all
    clients are looked at, but no call that is under way. -/
def inUse (msgid : ℕ) : Bool :=
  s.commands.any (·.token == msgid) || (findMsg msgid (s.clients i).c.outboundMsgs).isSome ||
    (s.clients i).responses.any (·.token == msgid)

/-- What `MQTTAsync_assignMsgId` returns, if the loop ends. -/
def assignMsgId : Option ℕ :=
  MQTTAsync.assignMsgId (s.inUse i) (s.clients i).msgID MQTTAsync.maxMsgId

/-- A call is given an identifier. -/
def give (d : Draft) (msgid : ℕ) : Library :=
  { s.modify d.client fun a => { a with msgID := msgid } with
    drafts := s.drafts.erase d ++ [{ d with msgid := some msgid }] }

/-- A call returns without a command. -/
def refuse (d : Draft) : Library := { s with drafts := s.drafts.erase d }

/-- A call that needs an identifier asks for one. -/
def assign (d : Draft) : Option Library :=
  (s.assignMsgId d.client).map fun msgid => if msgid = 0 then s.refuse d else s.give d msgid

/-- A call puts its command into the list. -/
def add (d : Draft) (msgid address current : ℕ) : Library :=
  let s' : Library := { s with
    drafts := s.drafts.erase d
    accepted := if d.request.isOrdinary then
        s.accepted ++ [⟨s.numbers, address, d.client, msgid, d.request⟩]
      else s.accepted }
  s'.queue d.client msgid address d.request current

/-! ## Connections -/

/-- `MQTTAsync_disconnect_internal`. -/
def disconnectInternal (current : ℕ) : Library :=
  if !(s.clients i).c.connected then s else s.queue i 0 0 (.disconnect true 0) current

/-- `MQTTAsync_closeOnly`. -/
def closeOnly : Library :=
  s.modify i fun a =>
    { a with c := { a.c with connected := false }, connectState := .notInProgress }

/-- `MQTTAsync_cleanSession`, with `MQTTAsync_freeResponses`. -/
def cleanSession : Library :=
  { s.modify i fun a => { a with
      c := { a.c with inboundMsgs := [], outboundMsgs := [] }, msgID := 0, responses := [] } with
    calls := s.calls ++ (s.clients i).responses.map fun cmd =>
      .finished cmd (.failure cmd.token operationIncomplete) }

/-- `MQTTAsync_closeSession`. -/
def closeSession : Library :=
  if (opts i).cleansession then (s.closeOnly i).cleanSession i else s.closeOnly i

/-- `MQTTAsync_checkDisconnect`. -/
def checkDisconnect (internal : Bool) (timeout elapsed : ℕ) : Library :=
  if (s.clients i).c.outboundMsgs = [] ∨ elapsed ≥ timeout then
    if internal then
      if (s.clients i).c.connected then (s.closeSession opts i).call (.connectionLost i)
      else s.closeSession opts i
    else (s.closeSession opts i).call (.disconnected i)
  else s

/-- `MQTTAsync_checkConn`: whether there is another version to try. -/
def checkConn (conn : Connect) : Bool := conn.version == 4 && (opts i).version == 0

/-- `nextOrClose`. -/
def nextOrClose (code : ℤ) (current : ℕ) : Library :=
  if checkConn opts i (s.clients i).connect then
    (s.closeOnly i).queue i 0 0 (.connect (s.clients i).connect) current
  else (s.closeSession opts i).call (.connectFailed i code)

/-- What `MQTTAsync_receiveThread` does after an error. -/
def afterError (current : ℕ) : Library :=
  (s.disconnectInternal i current).nextOrClose opts i socketError current

/-- The version to connect with. -/
def negotiate (conn : Connect) : Connect :=
  { conn with
    version := if (opts i).version = 0 then
        if conn.version = 0 then 4 else if conn.version = 4 then 3 else conn.version
      else (opts i).version }

/-! ## The sending thread -/

/-- Whether `MQTTAsync_processCommand` can take a command. -/
def isReady (env : Processing) (cmd : QueuedCommand) : Bool :=
  let a := s.clients cmd.client
  let inflight := a.c.outboundMsgs.length
  match cmd.request with
  | .connect _ | .disconnect _ _ => true
  | .publish _ _ qos _ =>
    a.c.connected && a.connectState == .notInProgress && env.noPendingWrites cmd.client &&
      !(inflight ≥ MQTTAsync.maxMsgId - 1) &&
      !(qos > 0 && inflight ≥ (opts cmd.client).maxInflight)
  | .subscribe _ | .unsubscribe _ =>
    a.c.connected && a.connectState == .notInProgress && env.noPendingWrites cmd.client &&
      !(inflight ≥ MQTTAsync.maxMsgId - 1) && !(inflight ≥ (opts cmd.client).maxInflight)

/-- The command that is taken, with the others: once a command of a client is passed
    over, so are all others of it. -/
def takeCommand (ready : QueuedCommand → Bool) :
    List ℕ → List QueuedCommand → Option (QueuedCommand × List QueuedCommand)
  | _, [] => none
  | ignored, cmd :: rest =>
    if cmd.client ∈ ignored then
      (takeCommand ready ignored rest).map fun r => (r.1, cmd :: r.2)
    else if ready cmd then some (cmd, rest)
    else (takeCommand ready (cmd.client :: ignored) rest).map fun r => (r.1, cmd :: r.2)

variable (cmd : QueuedCommand) (env : Processing)

/-- The packet of a command could not be sent. -/
def failed : Library :=
  (s.disconnectInternal cmd.client env.current).call (.finished cmd (.failure 0 socketError))

/-- The command waits for its response. -/
def await : Library :=
  s.modify cmd.client fun a => { a with responses := a.responses ++ [cmd] }

/-- A command to connect. -/
def processConnect (conn : Connect) : Library :=
  let a := s.clients cmd.client
  let conn' := negotiate opts cmd.client conn
  if a.connectState ≠ .notInProgress ∨ a.c.connected then
    s.modify cmd.client fun a => { a with connect := conn }
  else if env.connectState = .tcpInProgress ∨ env.connectState = .waitForConnack then
    s.modify cmd.client fun a => { a with connectState := env.connectState, connect := conn' }
  else if checkConn opts cmd.client conn' then
    s.addCommand { cmd with request := .connect conn' } env.current
  else (s.modify cmd.client fun a => { a with connect := conn' }).call
    (.connectFailed cmd.client socketError)

/-- The message of a command. -/
def message (destinationName : CString) (payload : List UInt8) (qos : ℕ) (retained : Bool) :
    Messages :=
  ⟨cmd.token, qos, retained, none, destinationName.bytes, payload⟩

/-- A command to publish: what is not acknowledged is finished when it has been written. -/
def processPublish (m : Messages) : Library :=
  let s' := s.modify cmd.client fun a =>
    { a with c := (startPublish a.c ⟨true, env.rc, true⟩ m).client }
  if m.qos = 0 then
    match env.rc with
    | .complete _ => s'.call (.finished cmd .success)
    | .interrupted =>
      (s'.await cmd).modify cmd.client fun a => { a with pendingWrite := some cmd.address }
    | .socketError =>
      (s'.modify cmd.client fun a => { a with pendingWrite := some cmd.address }).failed cmd env
  else if env.rc = .socketError then s'.failed cmd env
  else s'.await cmd

/-- A command to disconnect. -/
def processDisconnect (internal : Bool) (timeout : ℕ) : Library :=
  let a := s.clients cmd.client
  let s' :=
    if a.connectState ≠ .notInProgress then
      ((s.modify cmd.client fun a => { a with connectState := .disconnecting }).call
        (.connectFailed cmd.client operationIncomplete)).checkDisconnect opts cmd.client internal
          timeout env.elapsed
    else if a.c.connected then s.checkDisconnect opts cmd.client internal timeout env.elapsed
    else s
  s'.modify cmd.client fun a => { a with disconnect := (internal, timeout) }

/-- A command that has been taken. -/
def execute : Library :=
  match cmd.request with
  | .connect conn => s.processConnect opts cmd env conn
  | .subscribe _ | .unsubscribe _ =>
    if env.rc = .socketError then s.failed cmd env else s.await cmd
  | .publish destinationName payload qos retained =>
    s.processPublish cmd env (message cmd destinationName payload qos retained)
  | .disconnect internal timeout => s.processDisconnect opts cmd env internal timeout

/-- `MQTTAsync_processCommand`. -/
def processCommand : Library :=
  match takeCommand (s.isReady opts env) [] s.commands with
  | none => s
  | some (cmd, rest) =>
    { s with
      commands := rest
      started := if cmd.request.isOrdinary then s.started ++ [cmd] else s.started }.execute opts
        cmd env

/-! ## The receiving thread -/

/-- The first response with an identifier is finished. -/
def finish (msgid : ℕ) (outcome : Outcome) : Library :=
  match (s.clients i).responses.find? (·.token == msgid) with
  | none => s
  | some cmd =>
    (s.modify i fun a => { a with responses := a.responses.eraseP (·.token == msgid) }).call
      (.finished cmd outcome)

/-- What is granted: `MQTT_BAD_SUBSCRIBE` alone is a failure. -/
def granted (msgid : ℕ) (qoss : List UInt8) : Outcome :=
  if qoss = [0x80] then .failure msgid 0x80 else .granted qoss

/-- The connection is up: `connected`, and a clean session if it is to be one. -/
def connectionUp (flags : UInt8) : Library :=
  let s' := s.modify i fun a =>
    { a with c := { a.c with connected := true }, connectState := .notInProgress }
  if (opts i).cleansession ∨ (opts i).version ≥ 4 ∧ flags &&& 1 = 0 then s'.cleanSession i else s'

/-- `MQTTAsync_completeConnection`, if the server accepts: messages that are not
    acknowledged are sent again, which may fail. -/
def completeConnection (flags : UInt8) (retryFails : Bool) (current : ℕ) : Library :=
  let s' := s.connectionUp opts i flags
  if retryFails && !(s'.clients i).c.outboundMsgs.isEmpty then s'.disconnectInternal i current
  else s'

/-- The application is told that the client is connected, once. -/
def tellConnected : Library :=
  if (s.clients i).connect.onSuccess then
    (s.modify i fun a => { a with connect := { a.connect with onSuccess := false } }).call
      (.connected i)
  else s

/-- `CONNACK`. -/
def receiveConnack (flags rc : UInt8) (retryFails : Bool) (current : ℕ) : Library :=
  if (s.clients i).connectState ≠ .waitForConnack then s.nextOrClose opts i socketError current
  else if rc ≠ 0 then s.nextOrClose opts i rc.toNat current
  else (s.completeConnection opts i flags retryFails current).tellConnected i

/-- A message has been acknowledged, if the packet says so. -/
def acknowledged : Pack → Library
  | .ack header msgId =>
    match MsgType.ofCode header.type with
    | some .puback | some .pubcomp => s.finish i msgId .success
    | _ => s
  | _ => s

/-- A packet about messages, in `MQTTAsync_cycle`. The lock is released then, so that an
    error is worked on in a step of its own (`afterError`). -/
def receiveMessage (env : Surroundings) (p : Pack) : Library :=
  (s.modify i fun a => { a with c := (handle a.c env p).client }).acknowledged i p

/-- A packet has been read. -/
def receive (env : Surroundings) (retryFails : Bool) (current : ℕ) : Pack → Library
  | .connack _ flags rc => s.receiveConnack opts i flags rc retryFails current
  | .suback _ msgId qoss => s.finish i msgId (granted msgId qoss)
  | .unsuback _ msgId => s.finish i msgId .success
  | p => s.receiveMessage i env p

/-- The response at the address that `pending_write` points to. -/
def written : Option QueuedCommand :=
  (s.clients i).pendingWrite.bind fun address =>
    (s.clients i).responses.find? (·.address == address)

/-- `MQTTAsync_writeComplete`: a response that is not for a message is removed without a
    callback. -/
def writeComplete (rc : ℤ) : Library :=
  let s' := s.modify i fun a => { a with pendingWrite := none }
  match s.written i with
  | none => s'
  | some cmd =>
    let removed := s'.modify i fun a =>
      { a with responses := a.responses.eraseP (·.address == cmd.address) }
    match cmd.request with
    | .publish _ _ qos _ =>
      if rc = 1 ∧ qos = 0 then removed.call (.finished cmd .success)
      else if rc = -1 then removed.call (.finished cmd (.failure cmd.token rc))
      else s'
    | _ => removed

/-- `MQTTAsync_connecting`, when the TCP connection is up, or could not be made. -/
def connecting (up : Bool) (current : ℕ) : Library :=
  if up then s.modify i fun a => { a with connectState := .waitForConnack }
  else s.nextOrClose opts i socketError current

/-- `MQTTAsync_checkTimeouts`, for one client. -/
def checkTimeouts (expired : Bool) (elapsed current : ℕ) : Library :=
  let a := s.clients i
  let s' :=
    if a.connectState = .disconnecting then
      s.checkDisconnect opts i a.disconnect.1 a.disconnect.2 elapsed
    else s
  if (s'.clients i).connectState ≠ .notInProgress ∧ expired then
    s'.nextOrClose opts i socketError current
  else s'

/-- What happens. -/
inductive Action
  | connect (i : ℕ)
  | disconnect (i timeout : ℕ)
  | subscribe (i : ℕ) (topics : List (CString × ℕ))
  | unsubscribe (i : ℕ) (topics : List CString)
  | send (i : ℕ) (destinationName : CString) (payload : List UInt8) (qos : ℕ) (retained : Bool)
  /-- A call of the application looks for an identifier. -/
  | assign (d : Draft)
  /-- A call is refused: there is no memory, or the options are wrong. -/
  | refuse (d : Draft)
  /-- A call puts its command into the list, in memory that `malloc` has found. -/
  | add (d : Draft) (address current : ℕ)
  /-- The sending thread takes a command. -/
  | processCommand (env : Processing)
  /-- A packet has been read. -/
  | receive (i : ℕ) (env : Surroundings) (retryFails : Bool) (current : ℕ) (p : Pack)
  /-- The receiving thread works on the queue of messages. -/
  | deliver (i : ℕ) (taken : Bool)
  /-- There was an error when a packet was read or answered. -/
  | readError (i current : ℕ)
  | writeComplete (i : ℕ) (rc : ℤ)
  | connecting (i : ℕ) (up : Bool) (current : ℕ)
  | checkTimeouts (i : ℕ) (expired : Bool) (elapsed current : ℕ)
  /-- `MQTTProtocol_closeSession`, when a ping is not answered. -/
  | keepalive (i current : ℕ)

/-- Whether a client has a socket to read from. -/
def isOpen : Bool :=
  (s.clients i).c.connected || (s.clients i).connectState == .waitForConnack ||
    (s.clients i).connectState == .disconnecting

/-- What an action does, where it is possible. -/
def step : Action → Option Library
  | .connect i => some (s.connect i)
  | .disconnect i timeout => some (s.disconnect i timeout)
  | .subscribe i topics => some (s.subscribe i topics)
  | .unsubscribe i topics => some (s.unsubscribe i topics)
  | .send i destinationName payload qos retained =>
    some (s.send i destinationName payload qos retained)
  | .assign d => if d ∈ s.drafts ∧ d.msgid = none then s.assign d else none
  | .refuse d => if d ∈ s.drafts then some (s.refuse d) else none
  | .add d address current =>
    if d ∈ s.drafts then d.msgid.map fun msgid => s.add d msgid address current else none
  | .processCommand env => some (s.processCommand opts env)
  | .receive i env retryFails current p =>
    if s.isOpen i then some (s.receive opts i env retryFails current p) else none
  | .deliver i taken =>
    some (s.modify i fun a => { a with c := (a.c.deliverQueued taken).1 })
  | .readError i current => if s.isOpen i then some (s.afterError opts i current) else none
  | .writeComplete i rc => some (s.writeComplete i rc)
  | .connecting i up current =>
    if (s.clients i).connectState = .tcpInProgress then some (s.connecting opts i up current)
    else none
  | .checkTimeouts i expired elapsed current =>
    some (s.checkTimeouts opts i expired elapsed current)
  | .keepalive i current => some (s.disconnectInternal i current)

end Library

/-- The library, with the options its clients connect with. -/
def library (opts : ℕ → ClientOptions) : Machine Library Library.Action where
  init s := s = .start
  step s := s.step opts

end Cmqtt
