import Cmqtt.Paho.Packet

/-!
# Taking packets apart

What `MQTTPacket_Factory` makes of a packet it has read, by the functions of
the table `new_packets` (for the versions 3.1 and 3.1.1 of the protocol), and
how a message is put into a packet (`MQTTPacket_send_publish`).

* `make_sendPublish_iff`: a message is read back as it was sent, exactly if its
  fields fit into the packet;
* `make_eq_publish_iff`: a packet taken for a message is one, to the byte;
* `make_error_iff`: the packets whose end the functions of the table do not
  see, or whose memory they use after freeing it.
-/

namespace Cmqtt

/-- `Publish`: a message. -/
structure Publish where
  header : Header
  topic : List UInt8
  msgId : ℕ
  payload : List UInt8
  deriving DecidableEq, Repr

/-- The packets the library takes. -/
inductive Pack
  /-- `Connack`. -/
  | connack (header : Header) (flags rc : UInt8)
  /-- `Publish`. -/
  | publish (p : Publish)
  /-- `Ack`: one of the acknowledgements of messages. -/
  | ack (header : Header) (msgId : ℕ)
  /-- `Suback`. -/
  | suback (header : Header) (msgId : ℕ) (qoss : List UInt8)
  /-- `Unsuback`. -/
  | unsuback (header : Header) (msgId : ℕ)
  /-- A packet that is only a header. -/
  | headerOnly (header : Header)
  deriving DecidableEq, Repr

/-- What is made of a packet. -/
inductive Made
  /-- Packets of this type are not for a client. -/
  | ignored
  /-- `SOCKET_ERROR`: no packet could be made. -/
  | bad
  | pack (p : Pack)
  deriving DecidableEq, Repr

namespace MQTTPacket

/-! ## The table of functions -/

/-- `MQTTPacket_publish`. -/
def publish (aHeader : Header) (data : List UInt8) : Except Fault (Option Pack) :=
  match readUTFlen data with
  | none => .ok none
  | some (topic, curdata) =>
    if aHeader.qos > 0 then do
      let (msgId, payload) ← readInt curdata
      return some (.publish ⟨aHeader, topic, msgId, payload⟩)
    else .ok (some (.publish ⟨aHeader, topic, 0, curdata⟩))

/-- `MQTTPacket_ack`. -/
def ack (aHeader : Header) (data : List UInt8) : Except Fault (Option Pack) := do
  let (msgId, _) ← readInt data
  return some (.ack aHeader msgId)

/-- `MQTTPacket_connack`: both bytes are read before the length is checked. -/
def connack (aHeader : Header) (data : List UInt8) : Except Fault (Option Pack) := do
  let (flags, curdata) ← readChar data
  let (rc, _) ← readChar curdata
  return if data.length ≠ 2 then none else some (.connack aHeader flags rc)

/-- `MQTTPacket_suback`: without any code in it, the packet is freed, and its
    list of codes after it. -/
def suback (aHeader : Header) (data : List UInt8) : Except Fault (Option Pack) := do
  let (msgId, qoss) ← readInt data
  if qoss = [] then .error .freed else .ok (some (.suback aHeader msgId qoss))

/-- `MQTTPacket_unsuback`. -/
def unsuback (aHeader : Header) (data : List UInt8) : Except Fault (Option Pack) := do
  let (msgId, _) ← readInt data
  return some (.unsuback aHeader msgId)

/-- `MQTTPacket_header_only`. -/
def headerOnly (aHeader : Header) (_ : List UInt8) : Except Fault (Option Pack) :=
  .ok (some (.headerOnly aHeader))

/-- The table `new_packets`; from `DISCONNECT` on, its entries are for a later version. -/
def newPackets : MsgType → Option (Header → List UInt8 → Except Fault (Option Pack))
  | .connack => some connack
  | .publish => some publish
  | .puback => some ack
  | .pubrec => some ack
  | .pubrel => some ack
  | .pubcomp => some ack
  | .suback => some suback
  | .unsuback => some unsuback
  | .pingreq => some headerOnly
  | .pingresp => some headerOnly
  | .connect => none
  | .subscribe => none
  | .unsubscribe => none
  | .disconnect => none
  | .auth => none

/-- What a function of the table returns, for `MQTTPacket_Factory`. -/
def result : Except Fault (Option Pack) → Except Fault Made
  | .error e => .error e
  | .ok none => .ok .bad
  | .ok (some p) => .ok (.pack p)

/-- The part of `MQTTPacket_Factory` after a packet has been read. -/
def make (f : Frame) : Except Fault Made :=
  match (MsgType.ofCode f.header.type).bind newPackets with
  | none => .ok .ignored
  | some new => result (new f.header f.data)

/-! ## Messages -/

/-- The buffers `MQTTPacket_sends` writes: the header and the length, and the rest. -/
def sends (header : Header) (bufs : List (List UInt8)) : List (List UInt8) :=
  (header.byte :: encode bufs.flatten.length) :: bufs

/-- The buffers `MQTTPacket_send_publish` writes: the length of the topic, the
    topic, the identifier if there is one, and the payload. -/
def sendPublish (dup : Bool) (qos : ℕ) (retained : Bool) (topic : CString) (msgId : ℕ)
    (payload : List UInt8) : List (List UInt8) :=
  sends (.ofBits MsgType.publish.code dup qos retained)
    (if qos > 0 then [writeInt topic.bytes.length, topic.bytes, writeInt msgId, payload]
      else [writeInt topic.bytes.length, topic.bytes, payload])

theorem flatten_sends (header : Header) (bufs : List (List UInt8)) :
    (sends header bufs).flatten = (⟨header, bufs.flatten⟩ : Frame).bytes := by
  simp [sends, Frame.bytes]

/-- The data of a message: the topic with its length, the identifier if there
    is one, and the payload. -/
def IsData (p : Publish) (data : List UInt8) : Prop :=
  p.topic.length < 65536 ∧
    if p.header.qos > 0 then
      p.msgId < 65536 ∧ data = writeData p.topic ++ (writeInt p.msgId ++ p.payload)
    else p.msgId = 0 ∧ data = writeData p.topic ++ p.payload

theorem publish_eq_ok_iff {h : Header} {data : List UInt8} {p : Publish} :
    publish h data = .ok (some (.publish p)) ↔ p.header = h ∧ IsData p data := by
  constructor
  · intro hp
    rw [publish] at hp
    cases hutf : readUTFlen data with
    | none =>
      rw [hutf] at hp
      cases hp
    | some r =>
      obtain ⟨topic, curdata⟩ := r
      obtain ⟨htopic, hdata⟩ := readUTFlen_eq_some_iff.1 hutf
      rw [hutf] at hp
      simp only at hp
      split_ifs at hp with hqos
      · cases hint : readInt curdata with
        | error e =>
          rw [hint] at hp
          cases hp
        | ok r =>
          obtain ⟨msgId, payload⟩ := r
          obtain ⟨hid, rfl⟩ := readInt_eq_ok_iff.1 hint
          rw [hint] at hp
          obtain rfl := Pack.publish.inj (Option.some.inj (Except.ok.inj hp))
          exact ⟨rfl, htopic, by rw [if_pos hqos]; exact ⟨hid, hdata⟩⟩
      · obtain rfl := Pack.publish.inj (Option.some.inj (Except.ok.inj hp))
        exact ⟨rfl, htopic, by rw [if_neg hqos]; exact ⟨rfl, hdata⟩⟩
  · rintro ⟨rfl, htopic, hdata⟩
    obtain ⟨header, topic, msgId, payload⟩ := p
    simp only at htopic hdata ⊢
    split_ifs at hdata with hqos
    · obtain ⟨hid, rfl⟩ := hdata
      simp only [publish, readUTFlen_writeData htopic, if_pos hqos, readInt_writeInt hid]
      rfl
    · obtain ⟨rfl, rfl⟩ := hdata
      simp only [publish, readUTFlen_writeData htopic, if_neg hqos]

theorem publish_error_iff {h : Header} {data : List UInt8} {e : Fault} :
    publish h data = .error e ↔ e = .overread ∧ h.qos > 0 ∧
      ∃ topic rest, readUTFlen data = some (topic, rest) ∧ rest.length < 2 := by
  rw [publish]
  cases hutf : readUTFlen data with
  | none => simp
  | some r =>
    obtain ⟨topic, curdata⟩ := r
    simp only
    split_ifs with hqos
    · cases hint : readInt curdata with
      | error e' =>
        obtain ⟨hlt, rfl⟩ := readInt_error_iff.1 hint
        constructor
        · rintro ⟨⟩
          exact ⟨rfl, hqos, topic, curdata, rfl, hlt⟩
        · rintro ⟨rfl, -⟩
          rfl
      | ok r =>
        constructor
        · nofun
        · rintro ⟨-, -, topic', rest, heq, hlt⟩
          obtain ⟨rfl, rfl⟩ := Prod.mk.inj (Option.some.inj heq)
          rw [readInt_error_iff.2 ⟨hlt, rfl⟩] at hint
          cases hint
    · constructor
      · nofun
      · rintro ⟨-, hqos', -⟩
        exact absurd hqos' hqos

/-- What the other functions of the table do, by the length of the data. -/
theorem ack_eq (h : Header) (data : List UInt8) : ack h data =
    match data with
    | b :: c :: _ => .ok (some (.ack h (256 * b.toNat + c.toNat)))
    | _ => .error .overread := by
  match data with
  | [] => rfl
  | [_] => rfl
  | _ :: _ :: _ => rfl

theorem unsuback_eq (h : Header) (data : List UInt8) : unsuback h data =
    match data with
    | b :: c :: _ => .ok (some (.unsuback h (256 * b.toNat + c.toNat)))
    | _ => .error .overread := by
  match data with
  | [] => rfl
  | [_] => rfl
  | _ :: _ :: _ => rfl

theorem suback_eq (h : Header) (data : List UInt8) : suback h data =
    match data with
    | b :: c :: q :: qs => .ok (some (.suback h (256 * b.toNat + c.toNat) (q :: qs)))
    | [_, _] => .error .freed
    | _ => .error .overread := by
  match data with
  | [] => rfl
  | [_] => rfl
  | [_, _] => rfl
  | _ :: _ :: _ :: _ => rfl

theorem connack_eq (h : Header) (data : List UInt8) : connack h data =
    match data with
    | [flags, rc] => .ok (some (.connack h flags rc))
    | _ :: _ :: _ => .ok none
    | _ => .error .overread := by
  match data with
  | [] => rfl
  | [_] => rfl
  | [_, _] => rfl
  | _ :: _ :: _ :: _ => simp [connack, readChar]; rfl

/-- A packet goes to the function for its type. -/
theorem make_of_type {f : Frame} {t : MsgType} (ht : f.header.type = t.code) : make f =
    match newPackets t with
    | none => .ok .ignored
    | some new => result (new f.header f.data) := by
  rw [make, ht, MsgType.ofCode_code, Option.bind_some]

theorem result_eq_pack_iff {r : Except Fault (Option Pack)} {p : Pack} :
    result r = .ok (.pack p) ↔ r = .ok (some p) := by
  match r with
  | .error e => simp [result]
  | .ok none => simp [result]
  | .ok (some q) => simp [result]

theorem result_eq_error_iff {r : Except Fault (Option Pack)} {e : Fault} :
    result r = .error e ↔ r = .error e := by
  match r with
  | .error e => simp [result]
  | .ok none => simp [result]
  | .ok (some q) => simp [result]

/-- A packet is taken for a message exactly if it is one. -/
theorem make_eq_publish_iff {f : Frame} {p : Publish} : make f = .ok (.pack (.publish p)) ↔
    f.header.type = MsgType.publish.code ∧ p.header = f.header ∧ IsData p f.data := by
  constructor
  · intro h
    cases ht : MsgType.ofCode f.header.type with
    | none =>
      rw [make, ht] at h
      cases h
    | some t =>
      have htype := MsgType.eq_code_of_ofCode ht
      rw [make_of_type htype] at h
      -- The functions for the other types make no message.
      cases t
      case publish => exact ⟨htype, publish_eq_ok_iff.1 (result_eq_pack_iff.1 h)⟩
      all_goals
        simp only [newPackets, result_eq_pack_iff, ack_eq, suback_eq, unsuback_eq, connack_eq,
          headerOnly] at h
        first
          | cases h
          | (split at h <;> cases h)
  · rintro ⟨htype, h⟩
    rw [make_of_type htype]
    exact result_eq_pack_iff.2 (publish_eq_ok_iff.2 h)

/-- The packets whose end is not seen: they are shorter than what is read of
    them, or a list of codes without codes. -/
def Faulty (f : Frame) : Prop :=
  match MsgType.ofCode f.header.type with
  | some .publish => f.header.qos > 0 ∧
      ∃ topic rest, readUTFlen f.data = some (topic, rest) ∧ rest.length < 2
  | some .suback => f.data.length < 3
  | some .connack | some .puback | some .pubrec | some .pubrel | some .pubcomp
  | some .unsuback => f.data.length < 2
  | _ => False

theorem make_error_iff {f : Frame} : (∃ e, make f = .error e) ↔ Faulty f := by
  rw [Faulty]
  cases ht : MsgType.ofCode f.header.type with
  | none => simp [make, ht]
  | some t =>
    rw [make_of_type (MsgType.eq_code_of_ofCode ht)]
    cases t
    case publish =>
      simp only [newPackets, result_eq_error_iff, publish_error_iff]
      simp
    all_goals
      simp only [newPackets, result_eq_error_iff, ack_eq, suback_eq, unsuback_eq, connack_eq,
        headerOnly]
      rcases f.data with _ | ⟨a, _ | ⟨b, _ | ⟨c, tl⟩⟩⟩ <;> simp

/-- The data of a message that is sent. -/
def publishData (qos : ℕ) (topic : List UInt8) (msgId : ℕ) (payload : List UInt8) : List UInt8 :=
  writeData topic ++ if qos > 0 then writeInt msgId ++ payload else payload

theorem length_publishData (qos : ℕ) (topic : List UInt8) (msgId : ℕ) (payload : List UInt8) :
    (publishData qos topic msgId payload).length =
      2 + topic.length + (if qos > 0 then 2 else 0) + payload.length := by
  rw [publishData, List.length_append, length_writeData]
  split_ifs
  · rw [List.length_append, length_writeInt]
    omega
  · rfl

theorem flatten_sendPublish (dup : Bool) (qos : ℕ) (retained : Bool) (topic : CString) (msgId : ℕ)
    (payload : List UInt8) : (sendPublish dup qos retained topic msgId payload).flatten =
      (⟨.ofBits MsgType.publish.code dup qos retained,
        publishData qos topic.bytes msgId payload⟩ : Frame).bytes := by
  have hdata : (if qos > 0 then [writeInt topic.bytes.length, topic.bytes, writeInt msgId, payload]
      else [writeInt topic.bytes.length, topic.bytes, payload]).flatten =
      publishData qos topic.bytes msgId payload := by
    rw [publishData, writeData]
    split_ifs <;> simp
  rw [sendPublish, flatten_sends, hdata]

theorem type_publish (dup : Bool) (qos : ℕ) (retained : Bool) :
    (Header.ofBits MsgType.publish.code dup qos retained).type = MsgType.publish.code := by
  rw [Header.type_ofBits]
  exact Nat.mod_eq_of_lt (MsgType.code_lt _)

/-- A message is found in a stream and read back as it was sent, exactly if its
    topic, its identifier and its whole length fit into the packet. -/
theorem make_sendPublish_iff {dup retained : Bool} {qos msgId : ℕ} {topic : CString}
    {payload rest : List UInt8} (hqos : qos ≤ 2) :
    (∃ f, cut ((sendPublish dup qos retained topic msgId payload).flatten ++ rest) = .frame f rest ∧
      make f = .ok (.pack (.publish ⟨.ofBits MsgType.publish.code dup qos retained, topic.bytes,
        if qos > 0 then msgId else 0, payload⟩))) ↔
    topic.bytes.length < 65536 ∧ (qos > 0 → msgId < 65536) ∧
      2 + topic.bytes.length + (if qos > 0 then 2 else 0) + payload.length < 2 ^ 28 := by
  set header := Header.ofBits MsgType.publish.code dup qos retained with hheader
  have hbits : header.qos = qos := by
    rw [hheader, Header.qos_ofBits]
    omega
  set data := publishData qos topic.bytes msgId payload with hdata
  have hlen := length_publishData qos topic.bytes msgId payload
  rw [← hdata] at hlen
  rw [flatten_sendPublish, cut_bytes]
  constructor
  · rintro ⟨f, hcut, hmake⟩
    have hlt : data.length < 2 ^ 28 := by
      by_contra hge
      rw [if_neg hge] at hcut
      cases hcut
    rw [if_pos hlt] at hcut
    obtain ⟨rfl, -⟩ := Cut.frame.inj hcut
    obtain ⟨-, -, htopic, hid⟩ := make_eq_publish_iff.1 hmake
    refine ⟨htopic, fun hpos => ?_, hlen ▸ hlt⟩
    simp only [hbits, if_pos hpos] at hid
    exact hid.1
  · rintro ⟨htopic, hid, hlt⟩
    refine ⟨⟨header, data⟩, if_pos (hlen ▸ hlt), ?_⟩
    refine make_eq_publish_iff.2 ⟨type_publish dup qos retained, rfl, htopic, ?_⟩
    simp only [hbits]
    split_ifs with hpos
    · exact ⟨hid hpos, by rw [hdata, publishData, if_pos hpos]⟩
    · exact ⟨rfl, by rw [hdata, publishData, if_neg hpos]⟩

theorem make_sendPublish_iff_released :
    (∃ f, cut ((sendPublish false 2 true (.ofBytes [0x61]) 7 [0x01]).flatten ++ [0xC0]) =
        .frame f [0xC0] ∧
      make f = .ok (.pack (.publish ⟨.ofBits 3 false 2 true, [0x61], 7, [0x01]⟩))) ∧
    ¬∃ f, cut ((sendPublish false 2 true (.ofBytes [0x61]) 65536 [0x01]).flatten ++ []) =
        .frame f [] ∧
      make f = .ok (.pack (.publish ⟨.ofBits 3 false 2 true, [0x61], 65536, [0x01]⟩)) := by
  constructor
  · exact (make_sendPublish_iff (by decide)).2 (by decide)
  · intro h
    have hid := ((make_sendPublish_iff (by decide)).1 h).2.1 (by decide)
    omega

end MQTTPacket

end Cmqtt
