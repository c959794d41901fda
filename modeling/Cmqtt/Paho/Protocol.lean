import Cmqtt.Keyed
import Cmqtt.Paho.Publish
import Cmqtt.Paho.SocketBuffer
import Cmqtt.Topic.Arrival

/-!
# Messages on their way

What the library does with messages that are published and acknowledged, by
`MQTTProtocolClient.c`, for the versions 3.1 and 3.1.1 of the protocol. A client
keeps two lists: what it has published and the other end has not acknowledged
yet (`outboundMsgs`), and what has been published to it with quality 2 and has
not been released yet (`inboundMsgs`). Messages for the application go through
`Protocol_processPublication`, which calls back at once, or puts them into a
queue that the receiving thread works on.

Nothing is persisted, as `MQTTCLIENT_PERSISTENCE_NONE` is asked for, and packets
are sent again only after the client has connected again: `retryInterval` is zero.
-/

namespace Cmqtt

open SocketBuffer MQTTPacket

/-- `MQTTAsync_message`: a message as the application gets it. -/
structure Message where
  payload : List UInt8
  qos : ℕ
  retained : Bool
  dup : Bool
  msgid : ℕ
  deriving DecidableEq, Repr

/-- `Messages`: a message on its way. -/
structure Messages where
  msgid : ℕ
  qos : ℕ
  retain : Bool
  /-- The packet that is awaited; it is set for quality 2 only. -/
  nextMessageType : Option MsgType
  topic : List UInt8
  payload : List UInt8
  deriving DecidableEq, Repr

/-- `Clients`, as far as messages are concerned. -/
structure Clients where
  connected : Bool
  outboundMsgs : List Messages
  inboundMsgs : List Messages
  messageQueue : List (Arrival Message)

/-- What a client depends on while it handles a packet. -/
structure Surroundings where
  /-- `Socket_noPendingWrites`. -/
  noPendingWrites : Bool
  /-- What comes of the packet that is sent. -/
  rc : Completion Unit
  /-- Whether the application takes a message it is called back with. -/
  taken : Bool

/-- What the handling of a packet does. -/
structure Handled where
  client : Clients
  rc : Completion Unit
  /-- The packets that are written to the socket, or are to be. -/
  sent : List Pack
  /-- The messages that are for the application. -/
  published : List Publish
  /-- What the application is called back with. -/
  calls : List (Arrival Message)
  /-- The messages the other end has acknowledged. -/
  acknowledged : List Messages

namespace Clients

variable (c : Clients) (env : Surroundings)

/-- Nothing is done. -/
def ignore (rc : Completion Unit) : Handled := ⟨c, rc, [], [], [], []⟩

/-- The message `Protocol_processPublication` makes for the application. -/
def message (p : Publish) : Message where
  payload := p.payload
  qos := p.header.qos
  retained := p.header.retain
  dup := if p.header.qos = 2 then false else p.header.dup
  msgid := p.msgId

/-- `Protocol_processPublication`: a message that is not taken at once is queued,
    and so is every one after it. -/
def processPublication (p : Publish) (taken : Bool) : Clients × List (Arrival Message) :=
  let entry : Arrival Message := ⟨p.topic, p.topic.length, message p⟩
  let queued := { c with messageQueue := c.messageQueue ++ [entry] }
  if c.messageQueue.isEmpty && c.connected then (if taken then c else queued, [entry])
  else (queued, [])

/-- The part of `MQTTAsync_receiveThread` that works on the queue: the length of
    the topic is given only if there is a NUL in it. -/
def deliverQueued (taken : Bool) : Clients × List (Arrival Message) :=
  match c.messageQueue with
  | [] => (c, [])
  | entry :: rest =>
    let topicLen := if entry.topic.bytes.length = entry.topicLen then 0 else entry.topicLen
    (if taken then { c with messageQueue := rest } else c, [{ entry with topicLen := topicLen }])

end Clients

namespace MQTTProtocol

/-- The packet of `MQTTPacket_send_ack`. -/
def ackPack (t : MsgType) (msgid : ℕ) : Pack :=
  .ack (.ofBits t.code false (if t = .pubrel then 1 else 0) false) msgid

/-- The packet of `MQTTPacket_send_publish`. -/
def publishPack (dup : Bool) (m : Messages) : Pack :=
  .publish ⟨.ofBits MsgType.publish.code dup m.qos m.retain, m.topic, m.msgid, m.payload⟩

/-- What is written of a packet that is sent. -/
def written (rc : Completion Unit) (p : Pack) : List Pack :=
  if rc = .socketError then [] else [p]

/-- `ListFindItem` with `messageIDCompare`. -/
def findMsg (msgid : ℕ) (msgs : List Messages) : Option Messages :=
  Keyed.find Messages.msgid msgid msgs

/-- `ListRemove` of the message that was found. -/
def removeMsg (msgid : ℕ) (msgs : List Messages) : List Messages :=
  Keyed.remove Messages.msgid msgid msgs

/-- A message with the same identifier is replaced where it stands. -/
def storeMsg (m : Messages) (msgs : List Messages) : List Messages :=
  if (findMsg m.msgid msgs).isSome then Keyed.update Messages.msgid m.msgid (fun _ => m) msgs
  else msgs ++ [m]

variable (c : Clients) (env : Surroundings)

/-- A packet is sent, and the message processed. -/
def answer (ack : Option Pack) (p : Publish) : Handled :=
  let (client, calls) := c.processPublication p env.taken
  match ack with
  | none => ⟨client, .complete (), [], [p], calls, []⟩
  | some ack => ⟨client, env.rc, written env.rc ack, [p], calls, []⟩

/-- `MQTTProtocol_handlePublishes`. -/
def handlePublishes (p : Publish) : Handled :=
  if p.header.qos = 0 then answer c env none p
  else if !env.noPendingWrites then c.ignore .socketError
  else if p.header.qos = 1 then answer c env (ackPack .puback p.msgId) p
  else if p.header.qos = 2 then
    let m : Messages := ⟨p.msgId, p.header.qos, p.header.retain, some .pubrel, p.topic, p.payload⟩
    { c.ignore env.rc with
      client := { c with inboundMsgs := storeMsg m c.inboundMsgs }
      sent := written env.rc (ackPack .pubrec p.msgId) }
  else c.ignore (.complete ())

/-- `MQTTProtocol_handlePubrels`: a message is processed when it is released. -/
def handlePubrels (header : Header) (msgId : ℕ) : Handled :=
  match findMsg msgId c.inboundMsgs with
  | none =>
    if !header.dup then c.ignore (.complete ())
    else if !env.noPendingWrites then c.ignore .socketError
    else { c.ignore env.rc with sent := written env.rc (ackPack .pubcomp msgId) }
  | some m =>
    if m.qos ≠ 2 then c.ignore (.complete ())
    else if m.nextMessageType ≠ some .pubrel then c.ignore (.complete ())
    else if !env.noPendingWrites then c.ignore .socketError
    else
      let p : Publish := ⟨.ofBits 0 false m.qos m.retain, m.topic, m.msgid, m.payload⟩
      answer { c with inboundMsgs := removeMsg msgId c.inboundMsgs } env (ackPack .pubcomp msgId) p

/-- The message has arrived. -/
def acknowledge (m : Messages) : Handled :=
  { c.ignore (.complete ()) with
    client := { c with outboundMsgs := removeMsg m.msgid c.outboundMsgs }
    acknowledged := [m] }

/-- `MQTTProtocol_handlePubacks`. -/
def handlePubacks (msgId : ℕ) : Handled :=
  match findMsg msgId c.outboundMsgs with
  | none => c.ignore (.complete ())
  | some m => if m.qos ≠ 1 then c.ignore (.complete ()) else acknowledge c m

/-- `MQTTProtocol_handlePubrecs`. -/
def handlePubrecs (msgId : ℕ) : Handled :=
  match findMsg msgId c.outboundMsgs with
  | none => c.ignore (.complete ())
  | some m =>
    if m.qos ≠ 2 then c.ignore (.complete ())
    else if m.nextMessageType ≠ some .pubrec then c.ignore (.complete ())
    else
      let outboundMsgs := Keyed.update Messages.msgid msgId
        (fun m => { m with nextMessageType := some .pubcomp }) c.outboundMsgs
      { c.ignore env.rc with
        client := { c with outboundMsgs := outboundMsgs }
        sent := written env.rc (ackPack .pubrel msgId) }

/-- `MQTTProtocol_handlePubcomps`. -/
def handlePubcomps (msgId : ℕ) : Handled :=
  match findMsg msgId c.outboundMsgs with
  | none => c.ignore (.complete ())
  | some m =>
    if m.qos ≠ 2 then c.ignore (.complete ())
    else if m.nextMessageType ≠ some .pubcomp then c.ignore (.complete ())
    else acknowledge c m

/-- What `MQTTAsync_cycle` does with a packet about messages. -/
def handle : Pack → Handled
  | .publish p => handlePublishes c env p
  | .ack header msgId =>
    match MsgType.ofCode header.type with
    | some .puback => handlePubacks c msgId
    | some .pubrec => handlePubrecs c env msgId
    | some .pubrel => handlePubrels c env header msgId
    | some .pubcomp => handlePubcomps c msgId
    | _ => c.ignore (.complete ())
  | _ => c.ignore (.complete ())

/-- `MQTTProtocol_createMessage`. -/
def createMessage (m : Messages) : Messages :=
  { m with nextMessageType := if m.qos = 2 then some .pubrec else none }

/-- `MQTTProtocol_startPublish`: a message that is acknowledged is kept until then. -/
def startPublish (m : Messages) : Handled :=
  if m.qos > 0 then { c.ignore env.rc with
    client := { c with outboundMsgs := c.outboundMsgs ++ [createMessage m] }
    sent := written env.rc (publishPack false (createMessage m)) }
  else { c.ignore env.rc with sent := written env.rc (publishPack false { m with msgid := 0 }) }

/-- The packet that is sent again for a message. -/
def retryPack (m : Messages) : Option Pack :=
  if m.qos = 1 ∨ m.qos = 2 ∧ m.nextMessageType = some .pubrec then some (publishPack true m)
  else if m.qos > 0 ∧ m.nextMessageType = some .pubcomp then some (ackPack .pubrel m.msgid)
  else none

/-- `MQTTProtocol_retries`, after the client has connected again: what is sent, if
    the packets fare like `rcs`. The loop ends when a packet has not been
    written whole; for `PUBREL` the connection is closed then, as after an error. -/
def retries : List (Completion Unit) → List Messages → List Pack
  | rc :: rcs, m :: msgs =>
    match retryPack m with
    | none => retries (rc :: rcs) msgs
    | some p =>
      match rc with
      | .complete _ => p :: retries rcs msgs
      | .interrupted => if p = ackPack .pubrel m.msgid then [] else [p]
      | .socketError => []
  | _, _ => []

end MQTTProtocol

end Cmqtt
