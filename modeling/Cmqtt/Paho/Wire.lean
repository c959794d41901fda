import Cmqtt.Paho.Exchange
import Cmqtt.Paho.Receiving

/-!
# Messages on the wire

The exchange of messages between two ends of a connection, with the bytes of
the packets on their way (`Wire`) instead of the packets (`Link`): what is sent are
the buffers that `MQTTPacket_send_publish` and `MQTTPacket_send_ack` write, and a packet
is read by `MQTTPacket_Factory` from them. On their way are all bytes accepted for
writing and not read: of a packet that has been written in part, also those that
are pending. Where they are, `bytes_eq_unread` says: with the reader, on the
connection, or with the writer.

A length or an identifier that does not fit into its two bytes, or a topic with
a NUL in it, would be sent as something else, and neither is checked. As long as
what is published fits (`Messages.Fits`), every packet that either end ever sends
is read as it was sent (`Pack.Sendable`), so that the wire does what the link does:

* `wire_refines_link`: a run with bytes is a run with packets;
* `wire_guarantees`: every read gives a packet, none is refused or read past its end,
  and messages are processed as `qos_guarantees` says.
-/

namespace Cmqtt

open SocketBuffer MQTTPacket MQTTProtocol

/-- The message fits into a packet. -/
structure Messages.Fits (m : Messages) : Prop where
  nul_free : 0 ∉ m.topic
  topic : m.topic.length < 65536
  msgid : m.qos > 0 → m.msgid < 65536
  length : 2 + m.topic.length + (if m.qos > 0 then 2 else 0) + m.payload.length < 2 ^ 28

namespace Pack

/-- The buffers of a packet that a client writes: `MQTTPacket_send_publish`,
    `MQTTPacket_send_ack` and `MQTTPacket_send_pingreq`. The others are for servers. -/
def buffers : Pack → List (List UInt8)
  | .publish p =>
    sendPublish p.header.dup p.header.qos p.header.retain (.ofBytes p.topic) p.msgId p.payload
  | .ack header msgId => sends header [writeInt msgId]
  | .headerOnly header => sends header []
  | .connack _ _ _ | .suback _ _ _ | .unsuback _ _ => []

/-- The bytes that are written of a packet. -/
def bytes (p : Pack) : List UInt8 := p.buffers.flatten

/-- The packets that are sent for messages. -/
inductive Sendable : Pack → Prop
  | publish {dup : Bool} {m : Messages} : m.qos ≤ 2 → (m.qos = 0 → m.msgid = 0) → m.Fits →
      Sendable (publishPack dup m)
  | ack {t : MsgType} {i : ℕ} : newPackets t = some MQTTPacket.ack → i < 65536 →
      Sendable (ackPack t i)

theorem bytes_publishPack {dup : Bool} {m : Messages} (hqos : m.qos ≤ 2) (h : 0 ∉ m.topic) :
    (publishPack dup m).bytes = (⟨.ofBits MsgType.publish.code dup m.qos m.retain,
      publishData m.qos m.topic m.msgid m.payload⟩ : Frame).bytes := by
  have hbits : (Header.ofBits MsgType.publish.code dup m.qos m.retain).qos = m.qos := by
    rw [Header.qos_ofBits]
    omega
  rw [bytes, publishPack, buffers, flatten_sendPublish, CString.bytes_ofBytes h]
  simp only [Header.dup_ofBits, Header.retain_ofBits, hbits]

/-- A packet is read as it was sent, whatever follows it. -/
theorem Sendable.exists_frame {p : Pack} (h : p.Sendable) (rest : List UInt8) :
    ∃ f, cut (p.bytes ++ rest) = .frame f rest ∧ make f = .ok (.pack p) := by
  cases h with
  | @publish dup m hqos hzero hfits =>
    have hlen := length_publishData m.qos m.topic m.msgid m.payload
    rw [bytes_publishPack hqos hfits.nul_free, cut_bytes, if_pos (hlen ▸ hfits.length)]
    refine ⟨_, rfl, make_eq_publish_iff.2 ⟨type_publish _ _ _, rfl, hfits.topic, ?_⟩⟩
    have hbits : (Header.ofBits MsgType.publish.code dup m.qos m.retain).qos = m.qos := by
      rw [Header.qos_ofBits]
      omega
    simp only [hbits]
    split_ifs with hpos
    · exact ⟨hfits.msgid hpos, by rw [publishData, if_pos hpos]⟩
    · exact ⟨hzero (by omega), by rw [publishData, if_neg hpos]⟩
  | @ack t i ht hi =>
    have htype : (Header.ofBits t.code false (if t = .pubrel then 1 else 0) false).type = t.code := by
      rw [Header.type_ofBits]
      exact Nat.mod_eq_of_lt (MsgType.code_lt t)
    rw [bytes, ackPack, buffers, flatten_sends, cut_bytes, if_pos (by simp)]
    refine ⟨_, rfl, ?_⟩
    rw [make_of_type htype, ht, result_eq_pack_iff, MQTTPacket.ack]
    simp only [List.flatten_cons, List.flatten_nil, readInt_writeInt hi]
    rfl

end Pack

/-! ## What is sent fits -/

/-- What a client keeps of messages fits. -/
structure Clients.Fits (c : Clients) : Prop where
  outbound : ∀ m ∈ c.outboundMsgs, 0 < m.qos ∧ m.qos ≤ 2 ∧ m.Fits
  inbound : ∀ m ∈ c.inboundMsgs, m.msgid < 65536

section

variable {c : Clients}

theorem sendable_written {p : Pack} (h : p.Sendable) (rc : Completion Unit) :
    ∀ q ∈ written rc p, q.Sendable := by
  intro q hq
  rw [written] at hq
  split_ifs at hq
  · cases hq
  · exact List.mem_singleton.1 hq ▸ h

theorem mem_update {m : Messages} {i : ℕ} {f : Messages → Messages} {msgs : List Messages}
    (h : m ∈ Keyed.update Messages.msgid i f msgs) : m ∈ msgs ∨ ∃ m' ∈ msgs, m = f m' := by
  induction msgs with
  | nil => cases h
  | cons m' msgs ih =>
    rw [Keyed.update] at h
    split_ifs at h
    · obtain rfl | h := List.mem_cons.1 h
      · exact .inr ⟨m', List.mem_cons_self, rfl⟩
      · exact .inl (List.mem_cons_of_mem _ h)
    · obtain rfl | h := List.mem_cons.1 h
      · exact .inl List.mem_cons_self
      · obtain h | ⟨m'', hm, rfl⟩ := ih h
        · exact .inl (List.mem_cons_of_mem _ h)
        · exact .inr ⟨m'', List.mem_cons_of_mem _ hm, rfl⟩

theorem mem_storeMsg {m m' : Messages} {msgs : List Messages} (h : m' ∈ storeMsg m msgs) :
    m' = m ∨ m' ∈ msgs := by
  rw [storeMsg] at h
  split_ifs at h
  · obtain h | ⟨_, -, rfl⟩ := mem_update h
    · exact .inr h
    · exact .inl rfl
  · exact (List.mem_append.1 h).symm.imp List.mem_singleton.1 id

theorem Clients.Fits.answer (h : c.Fits) (env : Surroundings) (ack : Option Pack) (p : Publish)
    (hack : ∀ a ∈ ack, a.Sendable) : (answer c env ack p).client.Fits ∧
      ∀ q ∈ (answer c env ack p).sent, q.Sendable := by
  obtain ⟨hout, hin⟩ := processPublication_lists c p env.taken
  have hclient : (c.processPublication p env.taken).1.Fits :=
    ⟨hout ▸ h.outbound, hin ▸ h.inbound⟩
  cases ack with
  | none => exact ⟨hclient, fun q hq => (by cases hq)⟩
  | some a => exact ⟨hclient, sendable_written (hack a rfl) env.rc⟩

theorem Clients.Fits.handlePublishes (h : c.Fits) (env : Surroundings) {p : Publish}
    (hid : p.msgId < 65536) :
    (handlePublishes c env p).client.Fits ∧ ∀ q ∈ (handlePublishes c env p).sent, q.Sendable := by
  have hnone : ∀ q ∈ ([] : List Pack), q.Sendable := fun q hq => (by cases hq)
  rw [MQTTProtocol.handlePublishes]
  split_ifs
  · exact h.answer env none p (by simp)
  · exact ⟨h, hnone⟩
  · refine h.answer env _ p fun a ha => ?_
    exact Option.some.inj ha ▸ .ack rfl hid
  · refine ⟨⟨h.outbound, fun m hm => ?_⟩, sendable_written (.ack rfl hid) env.rc⟩
    obtain rfl | hm := mem_storeMsg hm
    · exact hid
    · exact h.inbound m hm
  · exact ⟨h, hnone⟩

theorem Clients.Fits.acknowledge (h : c.Fits) (m : Messages) :
    (acknowledge c m).client.Fits ∧ ∀ q ∈ (acknowledge c m).sent, q.Sendable :=
  ⟨⟨fun m' hm => h.outbound m' (List.mem_of_mem_eraseP hm), h.inbound⟩, fun q hq => (by cases hq)⟩

theorem Clients.Fits.handlePubrels (h : c.Fits) (env : Surroundings) (header : Header) {i : ℕ}
    (hid : i < 65536) :
    (handlePubrels c env header i).client.Fits ∧
      ∀ q ∈ (handlePubrels c env header i).sent, q.Sendable := by
  have hnone : ∀ q ∈ ([] : List Pack), q.Sendable := fun q hq => (by cases hq)
  rw [MQTTProtocol.handlePubrels]
  split
  · split_ifs
    · exact ⟨h, hnone⟩
    · exact ⟨h, hnone⟩
    · exact ⟨h, sendable_written (.ack rfl hid) env.rc⟩
  · split_ifs
    · exact ⟨h, hnone⟩
    · exact ⟨h, hnone⟩
    · exact ⟨h, hnone⟩
    · have hrest : Clients.Fits { c with inboundMsgs := removeMsg i c.inboundMsgs } :=
        ⟨h.outbound, fun m hm => h.inbound m (List.mem_of_mem_eraseP hm)⟩
      refine hrest.answer env _ _ fun a ha => ?_
      exact Option.some.inj ha ▸ .ack rfl hid

/-- What a client answers to a packet can be sent. -/
theorem Clients.Fits.handle (h : c.Fits) (env : Surroundings) {p : Pack} (hp : p.Sendable) :
    (handle c env p).client.Fits ∧ ∀ q ∈ (handle c env p).sent, q.Sendable := by
  have hnone : ∀ q ∈ ([] : List Pack), q.Sendable := fun q hq => (by cases hq)
  cases hp with
  | @publish dup m hqos hzero hfits =>
    refine h.handlePublishes env (p := ⟨_, m.topic, m.msgid, m.payload⟩) ?_
    obtain hpos | hnot := Nat.eq_zero_or_pos m.qos
    · simp [hzero hpos]
    · exact hfits.msgid hnot
  | @ack t i ht hi =>
    rw [ackPack, MQTTProtocol.handle]
    split
    · rw [handlePubacks]
      split
      · exact ⟨h, hnone⟩
      · split_ifs
        · exact ⟨h, hnone⟩
        · exact h.acknowledge _
    · rw [handlePubrecs]
      split
      · exact ⟨h, hnone⟩
      · split_ifs
        · exact ⟨h, hnone⟩
        · exact ⟨h, hnone⟩
        · refine ⟨⟨fun m hm => ?_, h.inbound⟩, sendable_written (.ack rfl hi) env.rc⟩
          obtain hm | ⟨m', hm', rfl⟩ := mem_update hm
          · exact h.outbound m hm
          · obtain ⟨hpos, hqos, hfits⟩ := h.outbound m' hm'
            exact ⟨hpos, hqos, hfits.nul_free, hfits.topic, hfits.msgid, hfits.length⟩
    · exact h.handlePubrels env _ hi
    · rw [handlePubcomps]
      split
      · exact ⟨h, hnone⟩
      · split_ifs
        · exact ⟨h, hnone⟩
        · exact ⟨h, hnone⟩
        · exact h.acknowledge _
    · exact ⟨h, hnone⟩

theorem Clients.Fits.startPublish (h : c.Fits) (env : Surroundings) {m : Messages}
    (hqos : m.qos ≤ 2) (hm : m.Fits) :
    (startPublish c env m).client.Fits ∧ ∀ q ∈ (startPublish c env m).sent, q.Sendable := by
  have hcreate : (createMessage m).Fits := ⟨hm.nul_free, hm.topic, hm.msgid, hm.length⟩
  by_cases hpos : m.qos > 0
  · rw [startPublish_of_pos c env hpos]
    have hsend : (publishPack false (createMessage m)).Sendable :=
      .publish hqos (fun hzero => absurd hzero hpos.ne') hcreate
    refine ⟨⟨fun m' hm' => ?_, h.inbound⟩, sendable_written hsend env.rc⟩
    obtain hm' | hm' := List.mem_append.1 hm'
    · exact h.outbound m' hm'
    · exact List.mem_singleton.1 hm' ▸ ⟨hpos, hqos, hcreate⟩
  · rw [startPublish_of_not_pos c env hpos]
    have hfits : Messages.Fits { m with msgid := 0 } :=
      ⟨hm.nul_free, hm.topic, fun _ => by simp, hm.length⟩
    have hsend : (publishPack false { m with msgid := 0 }).Sendable :=
      .publish hqos (fun _ => rfl) hfits
    exact ⟨h, sendable_written hsend env.rc⟩

theorem sendable_retryPack {m : Messages} {p : Pack} (hpos : 0 < m.qos) (hqos : m.qos ≤ 2)
    (hm : m.Fits) (hp : retryPack m = some p) : p.Sendable := by
  rw [retryPack] at hp
  split_ifs at hp
  · exact Option.some.inj hp ▸ .publish hqos (fun hzero => absurd hzero hpos.ne') hm
  · exact Option.some.inj hp ▸ .ack rfl (hm.msgid hpos)

theorem sendable_retries {msgs : List Messages} (rcs : List (Completion Unit))
    (h : ∀ m ∈ msgs, 0 < m.qos ∧ m.qos ≤ 2 ∧ m.Fits) : ∀ p ∈ retries rcs msgs, p.Sendable := by
  induction msgs generalizing rcs with
  | nil =>
    intro p hp
    cases rcs <;> cases hp
  | cons m msgs ih =>
    have hrest : ∀ m ∈ msgs, 0 < m.qos ∧ m.qos ≤ 2 ∧ m.Fits :=
      fun m' hm' => h m' (List.mem_cons_of_mem _ hm')
    obtain ⟨hpos, hqos, hm⟩ := h m List.mem_cons_self
    cases rcs with
    | nil => exact fun p hp => (by cases hp)
    | cons rc rcs =>
      rw [retries]
      split
      · exact ih _ hrest
      · next q hq =>
        have hsend := sendable_retryPack hpos hqos hm hq
        cases rc with
        | complete u =>
          intro p hp
          obtain rfl | hp := List.mem_cons.1 hp
          · exact hsend
          · exact ih rcs hrest p hp
        | interrupted =>
          intro p hp
          simp only at hp
          split_ifs at hp
          · cases hp
          · exact List.mem_singleton.1 hp ▸ hsend
        | socketError => exact fun p hp => (by cases hp)

end

/-! ## Bytes between the ends -/

/-- Two ends of a connection, with the bytes on their way; the rest is as in `Link`. -/
structure Wire where
  ends : Bool → Clients
  /-- The bytes on their way, by the end that sends them: accepted for writing, and
      not read as a packet. -/
  bytes : Bool → List UInt8
  started : Bool → ℕ → List Content
  processed : Bool → ℕ → List Content
  completed : Bool → ℕ → List Content
  arrived : Bool → List Publish
  calls : Bool → List (Arrival Message × Bool)

/-- The bytes of the packets on their way. -/
def Link.onWire (l : Link) : Wire where
  ends := l.ends
  bytes e := (l.channels e).flatMap Pack.bytes
  started := l.started
  processed := l.processed
  completed := l.completed
  arrived := l.arrived
  calls := l.calls

namespace Wire

/-- Nothing has been published. -/
def start : Wire := Link.start.onWire

variable (w : Wire)

/-- `MQTTProtocol_startPublish` at an end. -/
def publish (e : Bool) (m : Messages) (env : Surroundings) : Wire :=
  let h := startPublish (w.ends e) env m
  { w with
    ends := Function.update w.ends e h.client
    bytes := Function.update w.bytes e (w.bytes e ++ h.sent.flatMap Pack.bytes)
    started := Link.note w.started e (if m.qos > 0 then [(m.msgid, m.content)] else []) }

/-- A packet has been read at an end. -/
def receive (e : Bool) (env : Surroundings) (p : Pack) (rest : List UInt8) : Wire :=
  let h := handle (w.ends e) env p
  let sent := w.bytes e ++ h.sent.flatMap Pack.bytes
  { w with
    ends := Function.update w.ends e h.client
    bytes := Function.update (Function.update w.bytes (!e) rest) e sent
    processed := Link.note w.processed (!e)
      ((h.published.filter (·.header.qos > 0)).map fun p => (p.msgId, p.content))
    completed := Link.note w.completed e (h.acknowledged.map fun m => (m.msgid, m.content))
    arrived := Function.update w.arrived e (w.arrived e ++ h.published)
    calls := Function.update w.calls e (w.calls e ++ h.calls.map (·, env.taken)) }

/-- The receiving thread works on the queue at an end. -/
def deliver (e : Bool) (taken : Bool) : Wire :=
  let r := (w.ends e).deliverQueued taken
  { w with
    ends := Function.update w.ends e r.1
    calls := Function.update w.calls e (w.calls e ++ r.2.map (·, taken)) }

/-- A new connection, with `MQTTProtocol_retries` at both ends. -/
def reconnect (clean : Bool) (rcs : Bool → List (Completion Unit)) : Wire :=
  { w with
    ends := fun e => Link.cleanSession clean (w.ends e)
    bytes := fun e =>
      (retries (rcs e) (Link.cleanSession clean (w.ends e)).outboundMsgs).flatMap Pack.bytes }

/-- The two ends after an action, where it is possible; a read that gives no packet
    is none. -/
def step (clean : Bool) : Link.Action → Option Wire
  | .publish e m env =>
    if m.qos ≤ 2 ∧ (findMsg m.msgid (w.ends e).outboundMsgs).isNone then some (w.publish e m env)
    else none
  | .receive e env =>
    match cut (w.bytes !e) with
    | .frame f rest =>
      match make f with
      | .ok (.pack p) => some (w.receive e env p rest)
      | _ => none
    | _ => none
  | .deliver e taken => some (w.deliver e taken)
  | .connected e connected => some { w with
      ends := Function.update w.ends e { w.ends e with connected := connected } }
  | .reconnect rcs => some (w.reconnect clean rcs)

end Wire

/-- Two ends of a connection with bytes between them. -/
def wire (clean : Bool) : Machine Wire Link.Action where
  init w := w = .start
  step w := w.step clean

namespace Link

/-- What is published fits. -/
def Action.Fits : Action → Prop
  | .publish _ m _ => m.Fits
  | _ => True

/-- All that is on its way, and all that will be, can be sent. -/
structure Fitting (l : Link) : Prop where
  channels : ∀ e, ∀ p ∈ l.channels e, p.Sendable
  ends : ∀ e, (l.ends e).Fits

variable {l l' : Link} {clean : Bool}

theorem fitting_start : Fitting start where
  channels e p hp := by cases hp
  ends e := ⟨fun m hm => (by cases hm), fun m hm => (by cases hm)⟩

/-- One end does something, and sends packets. -/
theorem Fitting.update (h : Fitting l) {e : Bool} {c : Clients} (packs : List Pack)
    (hc : c.Fits) (hpacks : ∀ p ∈ packs, p.Sendable)
    (hends : l'.ends = Function.update l.ends e c)
    (hself : l'.channels e = l.channels e ++ packs)
    (hother : ∀ p ∈ l'.channels !e, p ∈ l.channels !e) : Fitting l' where
  channels d p hp := by
    by_cases hd : d = e
    · rw [hd, hself] at hp
      exact (List.mem_append.1 hp).elim (h.channels e p) (hpacks p)
    · rw [Bool.eq_not.2 hd] at hp
      exact h.channels _ p (hother p hp)
  ends d := by
    rw [hends]
    by_cases hd : d = e
    · rw [hd, Function.update_self]
      exact hc
    · rw [Function.update_of_ne hd]
      exact h.ends d

theorem Fitting.step {a : Action} (h : Fitting l) (ha : a.Fits) (hs : l.step clean a = some l') :
    Fitting l' := by
  cases a with
  | publish e m env =>
    rw [Link.step] at hs
    split_ifs at hs with hguard
    obtain rfl := Option.some.inj hs
    obtain ⟨hclient, hsent⟩ := (h.ends e).startPublish env hguard.1 ha
    refine h.update _ hclient hsent rfl (Function.update_self _ _ _) ?_
    simp [publish, Function.update_of_ne]
  | receive e env =>
    rw [Link.step] at hs
    split at hs
    next => cases hs
    next p rest hp =>
      obtain rfl := Option.some.inj hs
      have hsend : p.Sendable := h.channels (!e) p (hp ▸ List.mem_cons_self)
      obtain ⟨hclient, hsent⟩ := (h.ends e).handle env hsend
      refine h.update _ hclient hsent rfl (Function.update_self _ _ _) fun q hq => ?_
      rw [channels_receive_not] at hq
      rw [hp]
      exact List.mem_cons_of_mem _ hq
  | deliver e taken =>
    obtain rfl := Option.some.inj hs
    obtain ⟨hout, hin⟩ := deliverQueued_lists (l.ends e) taken
    have hclient : ((l.ends e).deliverQueued taken).1.Fits :=
      ⟨hout ▸ (h.ends e).outbound, hin ▸ (h.ends e).inbound⟩
    exact h.update [] hclient (by simp) rfl (List.append_nil _).symm fun _ => id
  | connected e connected =>
    obtain rfl := Option.some.inj hs
    have hclient : Clients.Fits { l.ends e with connected := connected } :=
      ⟨(h.ends e).outbound, (h.ends e).inbound⟩
    exact h.update [] hclient (by simp) rfl (List.append_nil _).symm fun _ => id
  | reconnect rcs =>
    obtain rfl := Option.some.inj hs
    have hends : ∀ e, (cleanSession clean (l.ends e)).Fits := by
      intro e
      rw [cleanSession]
      split_ifs
      · exact ⟨fun m hm => (by cases hm), fun m hm => (by cases hm)⟩
      · exact h.ends e
    exact ⟨fun e => sendable_retries _ (hends e).outbound, hends⟩

/-- The bytes are those of the packets, also where a channel changes. -/
theorem flatMap_update (channels : Bool → List Pack) (e : Bool) (packs : List Pack) :
    (fun d => (Function.update channels e packs d).flatMap Pack.bytes) =
      Function.update (fun d => (channels d).flatMap Pack.bytes) e (packs.flatMap Pack.bytes) := by
  funext d
  by_cases hd : d = e
  · rw [hd, Function.update_self, Function.update_self]
  · rw [Function.update_of_ne hd, Function.update_of_ne hd]

theorem bytes_onWire (l : Link) (e : Bool) :
    l.onWire.bytes e = (l.channels e).flatMap Pack.bytes := rfl

theorem onWire_publish (l : Link) (e : Bool) (m : Messages) (env : Surroundings) :
    (l.publish e m env).onWire = l.onWire.publish e m env := by
  simp only [onWire, publish, Wire.publish, flatMap_update, List.flatMap_append]

theorem onWire_receive (l : Link) (e : Bool) (env : Surroundings) (p : Pack) (rest : List Pack) :
    (l.receive e env p rest).onWire = l.onWire.receive e env p (rest.flatMap Pack.bytes) := by
  simp only [onWire, receive, Wire.receive, flatMap_update, List.flatMap_append]

/-- The next packet is read as it was sent. -/
theorem Fitting.exists_frame (h : Fitting l) {e : Bool} {p : Pack} {rest : List Pack}
    (hp : l.channels e = p :: rest) : ∃ f,
      cut (l.onWire.bytes e) = .frame f (rest.flatMap Pack.bytes) ∧ make f = .ok (.pack p) := by
  have hsend : p.Sendable := h.channels e p (hp ▸ List.mem_cons_self)
  have hbytes : l.onWire.bytes e = p.bytes ++ rest.flatMap Pack.bytes := by
    rw [bytes_onWire, hp, List.flatMap_cons]
  rw [hbytes]
  exact hsend.exists_frame _

/-- What happens on the wire happens on the link. -/
theorem Fitting.exists_step {a : Action} {w : Wire} (h : Fitting l)
    (hs : l.onWire.step clean a = some w) : ∃ l', l.step clean a = some l' ∧ w = l'.onWire := by
  cases a with
  | publish e m env =>
    rw [Wire.step] at hs
    split_ifs at hs with hguard
    refine ⟨l.publish e m env, if_pos hguard, ?_⟩
    rw [onWire_publish]
    exact (Option.some.inj hs).symm
  | receive e env =>
    rw [Wire.step] at hs
    cases hp : l.channels !e with
    | nil =>
      rw [bytes_onWire, hp] at hs
      cases hs
    | cons p rest =>
      obtain ⟨f, hcut, hmake⟩ := h.exists_frame hp
      rw [hcut] at hs
      simp only [hmake] at hs
      refine ⟨l.receive e env p rest, by rw [Link.step, hp], ?_⟩
      rw [onWire_receive]
      exact (Option.some.inj hs).symm
  | deliver e taken => exact ⟨_, rfl, (Option.some.inj hs).symm⟩
  | connected e connected => exact ⟨_, rfl, (Option.some.inj hs).symm⟩
  | reconnect rcs => exact ⟨_, rfl, (Option.some.inj hs).symm⟩

end Link

namespace Wire

variable {w : Wire} {clean : Bool} {as : List Link.Action}

/-- The packets behind the bytes. -/
theorem exists_link {l : Link} (hl : (link clean).Reachable l) (hfit : l.Fitting)
    (h : (wire clean).exec l.onWire as = some w) (has : ∀ a ∈ as, a.Fits) :
    ∃ l', (link clean).Reachable l' ∧ w = l'.onWire ∧ l'.Fitting := by
  induction as generalizing l with
  | nil => exact ⟨l, hl, (Option.some.inj h).symm, hfit⟩
  | cons a as ih =>
    obtain ⟨w', hstep, hrest⟩ := Option.bind_eq_some_iff.1 h
    obtain ⟨l', hl', rfl⟩ := hfit.exists_step hstep
    have hfit' := hfit.step (has a List.mem_cons_self) hl'
    exact ih (.step hl hl') hfit' hrest fun b hb => has b (List.mem_cons_of_mem _ hb)

/-- A run with bytes is a run with packets, as long as all messages fit: the first packet
    on its way is what is read next. -/
theorem wire_refines_link (h : (wire clean).exec start as = some w) (has : ∀ a ∈ as, a.Fits) :
    ∃ l, (link clean).Reachable l ∧ w = l.onWire ∧ ∀ e p rest, l.channels e = p :: rest →
      ∃ f, cut (w.bytes e) = .frame f (rest.flatMap Pack.bytes) ∧ make f = .ok (.pack p) := by
  obtain ⟨l, hl, rfl, hfit⟩ := exists_link (.init rfl) Link.fitting_start h has
  exact ⟨l, hl, rfl, fun e p rest hp => hfit.exists_frame hp⟩

/-- As long as all messages fit, the bytes on their way, pending ones included, are whole
    packets, and messages are processed as they should be. -/
theorem wire_guarantees (h : (wire clean).exec start as = some w) (has : ∀ a ∈ as, a.Fits)
    (d : Bool) :
    (∃ fs, framing.Splits (w.bytes d) fs [] ∧ ∀ f ∈ fs, ∃ p, make f = .ok (.pack p)) ∧
      ∀ i, (twos (w.processed d i)).Sublist (twos (w.started d i)) ∧
        (w.completed d i).Sublist (w.processed d i) := by
  obtain ⟨l, hl, rfl, hfit⟩ := exists_link (.init rfl) Link.fitting_start h has
  refine ⟨?_, fun i => ((Link.reachable_link_sound hl).phase d i).guarantees⟩
  rw [Link.bytes_onWire]
  have hsend := hfit.channels d
  generalize l.channels d = packs at hsend
  induction packs with
  | nil => exact ⟨[], .done rfl, by simp⟩
  | cons p packs ih =>
    obtain ⟨fs, hsplits, hmake⟩ := ih fun q hq => hsend q (List.mem_cons_of_mem _ hq)
    obtain ⟨f, hcut, hf⟩ := (hsend p List.mem_cons_self).exists_frame (packs.flatMap Pack.bytes)
    refine ⟨f :: fs, .frame hcut hsplits, fun g hg => ?_⟩
    obtain rfl | hg := List.mem_cons.1 hg
    · exact ⟨p, hf⟩
    · exact hmake g hg

/-- A message is published, and its acknowledgement is on its way. -/
def acknowledged : List Link.Action :=
  [.publish false ⟨300, 1, false, none, [0x61], [0x01]⟩ Link.fine, .receive true Link.fine]

/-- Where the bytes on their way are. If the packets on their way are those that the writer
    of the connection has accepted and its reader has not read, the bytes are what the
    reader keeps of a packet, what waits there, what the connection has (`coming`), and
    what is pending with the writer (`rest`). -/
theorem bytes_eq_unread {l : Link} {e : Bool} {n : Sockets} {s t : ℤ} {ch : Channel} {wr : Writer}
    {out : Outgoing} (hn : sockets.Reachable n) (hch : n.channels s = some ch)
    (hw : writer.Reachable wr) (hout : wr.links t = some out) (hbroken : out.broken = false)
    (hlen : ∀ f ∈ out.accepted, f.data.length < 2 ^ 28) (hsent : ch.sent <+: out.wire)
    (hpacks : out.accepted.map Frame.bytes =
      ch.packets.map Frame.bytes ++ (l.channels e).map Pack.bytes) :
    ∃ coming rest, out.wire = ch.sent ++ coming ∧ (t ∉ wr.writePending → rest = []) ∧
      l.onWire.bytes e = n.buffer.pending s ++ (ch.conn.incoming ++ (coming ++ rest)) := by
  obtain ⟨unread, coming, rest, haccepted, hwire, hnil, hunread⟩ :=
    Sockets.unread_bytes hn hch hw hout hbroken hlen hsent
  refine ⟨coming, rest, hwire, hnil, ?_⟩
  rw [haccepted, List.map_append, List.append_cancel_left_eq] at hpacks
  rw [hunread, Link.bytes_onWire, List.flatMap_def, List.flatMap_def, hpacks]

theorem acknowledged_fits : ∀ a ∈ acknowledged, a.Fits := by
  intro a ha
  obtain rfl | ha := List.mem_cons.1 ha
  · exact ⟨by decide, by decide, fun _ => by decide, by decide⟩
  · obtain rfl := List.mem_singleton.1 ha
    trivial

theorem wire_refines_link_acknowledged : ∃ w l, (wire false).exec start acknowledged = some w ∧
    w.bytes true = [0x40, 0x02, 0x01, 0x2C] ∧ (link false).Reachable l ∧ w = l.onWire := by
  have hexec : ((wire false).exec start acknowledged).map (fun w => w.bytes true) =
      some [0x40, 0x02, 0x01, 0x2C] := by decide +kernel
  obtain ⟨w, hw, hbytes⟩ := Option.map_eq_some_iff.1 hexec
  obtain ⟨l, hl, heq, -⟩ := wire_refines_link hw acknowledged_fits
  exact ⟨w, l, hw, hbytes, hl, heq⟩

theorem wire_guarantees_acknowledged : ∃ w, (wire false).exec start acknowledged = some w ∧
    w.processed false 300 = [⟨1, false, [0x61], [0x01]⟩] ∧
      ∃ fs, framing.Splits (w.bytes true) fs [] ∧ ∀ f ∈ fs, ∃ p, make f = .ok (.pack p) := by
  have hexec : ((wire false).exec start acknowledged).map (fun w => w.processed false 300) =
      some [⟨1, false, [0x61], [0x01]⟩] := by decide +kernel
  obtain ⟨w, hw, hprocessed⟩ := Option.map_eq_some_iff.1 hexec
  exact ⟨w, hw, hprocessed, (wire_guarantees hw acknowledged_fits true).1⟩

end Wire

end Cmqtt
