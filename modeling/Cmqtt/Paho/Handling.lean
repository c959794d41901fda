import Cmqtt.Paho.Phases

/-!
# Handling the packets of an exchange

Which exchange a packet belongs to, and what the functions of `Protocol` touch: a
packet about a message that the other end publishes changes only what is kept of
it here, and is answered by a packet that goes back (`Receives`); a packet about a
message that is published here changes only what is kept of that one, and is
answered by a packet that goes the way of the message (`Sends`).
-/

namespace Cmqtt

open SocketBuffer MQTTPacket MQTTProtocol

/-! ## Packets of an exchange -/

/-- The acknowledgement of a type, if it is one. -/
def MsgType.token : MsgType → Option Token
  | .puback => some .puback
  | .pubrec => some .pubrec
  | .pubrel => some .pubrel
  | .pubcomp => some .pubcomp
  | _ => none

/-- What a packet is to the exchange with an identifier, if it belongs to it. -/
def Pack.token (i : ℕ) : Pack → Option Token
  | .publish p => if p.header.qos > 0 ∧ p.msgId = i then some (.publish p.content) else none
  | .ack header msgId =>
    if msgId = i then (MsgType.ofCode header.type).bind MsgType.token else none
  | _ => none

/-- The packets of an exchange among others, those that go one way. -/
def tokens (forward : Bool) (i : ℕ) (ps : List Pack) : List Token :=
  ps.filterMap fun p => (p.token i).filter (·.forward == forward)

section

variable {i j : ℕ} {b : Bool} {p : Pack} {ps qs : List Pack} {m : Messages} {t : MsgType}

@[simp]
theorem tokens_nil : tokens b i [] = [] := rfl

@[simp]
theorem tokens_append : tokens b i (ps ++ qs) = tokens b i ps ++ tokens b i qs := by
  simp [tokens]

theorem tokens_cons : tokens b i (p :: ps) = tokens b i [p] ++ tokens b i ps :=
  @tokens_append i b [p] ps

theorem tokens_singleton :
    tokens b i [p] = ((p.token i).filter (·.forward == b)).toList := by
  cases h : (p.token i).filter (·.forward == b) <;> simp [tokens, h]

theorem tokens_ackPack : tokens b i [ackPack t j] =
    if j = i then (t.token.filter (·.forward == b)).toList else [] := by
  have htype : t.code % 16 = t.code := Nat.mod_eq_of_lt t.code_lt
  rw [tokens_singleton, ackPack, Pack.token, Header.type_ofBits, htype, MsgType.ofCode_code,
    Option.bind_some]
  split_ifs <;> rfl

theorem tokens_publish {p : Publish} : tokens b i [.publish p] =
    if p.header.qos > 0 ∧ p.msgId = i ∧ b = true then [.publish p.content] else [] := by
  rw [tokens_singleton, Pack.token]
  by_cases h : p.header.qos > 0 ∧ p.msgId = i
  · cases b <;> simp [h, Token.forward, Option.filter]
  · rw [if_neg h, if_neg fun h' => h ⟨h'.1, h'.2.1⟩]
    rfl

theorem tokens_publishPack {dup : Bool} (hqos : m.qos ≤ 2) : tokens b i [publishPack dup m] =
    if m.qos > 0 ∧ m.msgid = i ∧ b = true then [.publish m.content] else [] := by
  have hmod : m.qos % 4 = m.qos := Nat.mod_eq_of_lt (by omega)
  rw [publishPack, tokens_publish]
  simp only [Publish.content, Header.qos_ofBits, Header.retain_ofBits, hmod]
  rfl

end

/-! ## What handling a packet touches -/

/-- The tokens of what is written of a packet. -/
theorem tokens_written (rc : Completion Unit) (p : Pack) (forward : Bool) (i : ℕ) :
    tokens forward i (written rc p) = [] ∨
      tokens forward i (written rc p) = tokens forward i [p] := by
  rw [written]
  split_ifs
  · exact .inl rfl
  · exact .inr rfl

theorem tokens_written_eq_nil {rc : Completion Unit} {p : Pack} {forward : Bool} {i : ℕ}
    (h : tokens forward i [p] = []) : tokens forward i (written rc p) = [] := by
  obtain h' | h' := tokens_written rc p forward i
  · exact h'
  · exact h'.trans h

theorem tokens_ack (b : Bool) (rc : Completion Unit) (t : MsgType) (i : ℕ) {x : Token}
    (ht : t.token = some x) (hx : x.forward = b) :
    tokens b i (written rc (ackPack t i)) = [] ∨ tokens b i (written rc (ackPack t i)) = [x] := by
  refine (tokens_written rc _ _ i).imp_right fun h => h.trans ?_
  rw [tokens_ackPack, if_pos rfl, ht]
  simp [hx, Option.filter]

theorem tokens_ack_singleton {header : Header} {t : MsgType} {x : Token} {b : Bool} {i j : ℕ}
    (htype : MsgType.ofCode header.type = some t) (ht : t.token = some x) :
    tokens b j [.ack header i] = if i = j ∧ x.forward = b then [x] else [] := by
  rw [tokens_singleton, Pack.token, htype, Option.bind_some, ht]
  by_cases hi : i = j <;> cases hx : x.forward <;> cases b <;> simp [hi, hx, Option.filter]

/-- A packet of the exchange `i` has been handled, which another end publishes. -/
structure Receives (c : Clients) (h : Handled) (i : ℕ) : Prop where
  outbound : h.client.outboundMsgs = c.outboundMsgs
  nodup : (c.inboundMsgs.map Messages.msgid).Nodup → (h.client.inboundMsgs.map Messages.msgid).Nodup
  others : (c.inboundMsgs.map Messages.msgid).Nodup →
    ∀ j ≠ i, findMsg j h.client.inboundMsgs = findMsg j c.inboundMsgs
  fwd : ∀ j, tokens true j h.sent = []
  bwd : ∀ j ≠ i, tokens false j h.sent = []
  published : ∀ q ∈ h.published, q.header.qos > 0 → q.msgId = i
  acknowledged : h.acknowledged = []

/-- A packet of the exchange `i` has been handled, which this end publishes. -/
structure Sends (c : Clients) (h : Handled) (i : ℕ) : Prop where
  inbound : h.client.inboundMsgs = c.inboundMsgs
  nodup : (c.outboundMsgs.map Messages.msgid).Nodup →
    (h.client.outboundMsgs.map Messages.msgid).Nodup
  others : (c.outboundMsgs.map Messages.msgid).Nodup →
    ∀ j ≠ i, findMsg j h.client.outboundMsgs = findMsg j c.outboundMsgs
  fwd : ∀ j ≠ i, tokens true j h.sent = []
  bwd : ∀ j, tokens false j h.sent = []
  published : h.published = []
  acknowledged : ∀ m ∈ h.acknowledged, m.msgid = i

section

variable {c : Clients} {i : ℕ} {env : Surroundings}

theorem receives_ignore (c : Clients) (rc : Completion Unit) (i : ℕ) :
    Receives c (c.ignore rc) i where
  outbound := rfl
  nodup := id
  others _ _ _ := rfl
  fwd _ := rfl
  bwd _ _ := rfl
  published := by simp [Clients.ignore]
  acknowledged := rfl

theorem sends_ignore (c : Clients) (rc : Completion Unit) (i : ℕ) : Sends c (c.ignore rc) i where
  inbound := rfl
  nodup := id
  others _ _ _ := rfl
  fwd _ _ := rfl
  bwd _ := rfl
  published := rfl
  acknowledged := by simp [Clients.ignore]

/-- Processing a message leaves the lists of messages alone. -/
theorem processPublication_lists (c : Clients) (p : Publish) (taken : Bool) :
    (c.processPublication p taken).1.outboundMsgs = c.outboundMsgs ∧
      (c.processPublication p taken).1.inboundMsgs = c.inboundMsgs := by
  rw [Clients.processPublication]
  split_ifs <;> exact ⟨rfl, rfl⟩

theorem deliverQueued_lists (c : Clients) (taken : Bool) :
    (c.deliverQueued taken).1.outboundMsgs = c.outboundMsgs ∧
      (c.deliverQueued taken).1.inboundMsgs = c.inboundMsgs := by
  rw [Clients.deliverQueued]
  cases c.messageQueue with
  | nil => exact ⟨rfl, rfl⟩
  | cons entry rest => cases taken <;> exact ⟨rfl, rfl⟩

/-- An acknowledgement belongs to its identifier, and goes back. -/
theorem tokens_ackPack_of_ne {t : MsgType} {j : ℕ} {forward : Bool} (hj : j ≠ i) :
    tokens forward j [ackPack t i] = [] := by
  rw [tokens_ackPack, if_neg (Ne.symm hj)]

theorem answer_some (c : Clients) (env : Surroundings) (a : Pack) (p : Publish) :
    answer c env (some a) p = ⟨(c.processPublication p env.taken).1, env.rc, written env.rc a, [p],
      (c.processPublication p env.taken).2, []⟩ := rfl

/-- A message is processed, and acknowledged. -/
theorem receives_answer {t : MsgType} {p : Publish} (hp : p.msgId = i)
    (ht : (t.token.filter (·.forward == true)) = none) :
    Receives c (answer c env (some (ackPack t i)) p) i where
  outbound := (processPublication_lists c p env.taken).1
  nodup := by
    rw [answer_some, (processPublication_lists c p env.taken).2]
    exact id
  others _ j _ := by rw [answer_some, (processPublication_lists c p env.taken).2]
  fwd j := by
    refine tokens_written_eq_nil ?_
    rw [tokens_ackPack, ht]
    exact ite_self _
  bwd j hj := tokens_written_eq_nil (tokens_ackPack_of_ne hj)
  published q hq _ := by
    obtain rfl := List.mem_singleton.1 hq
    exact hp
  acknowledged := rfl

theorem findMsg_storeMsg (m : Messages) (msgs : List Messages) (j : ℕ) :
    findMsg j (storeMsg m msgs) = if j = m.msgid then some m else findMsg j msgs := by
  rw [storeMsg]
  cases hfind : findMsg m.msgid msgs with
  | none => exact Keyed.find_snoc hfind
  | some m' =>
    refine (Keyed.find_update fun _ _ => rfl).trans ?_
    split_ifs with hj
    · rw [hj, ← findMsg, hfind, Option.map_some]
    · rfl

theorem nodup_storeMsg {m : Messages} {msgs : List Messages}
    (h : (msgs.map Messages.msgid).Nodup) : ((storeMsg m msgs).map Messages.msgid).Nodup := by
  rw [storeMsg]
  split_ifs with hfind
  · rw [Keyed.map_update fun _ _ => rfl]
    exact h
  · exact Keyed.nodup_snoc (Option.not_isSome_iff_eq_none.1 hfind) h

/-- Only a packet is sent back. -/
theorem receives_ack (t : MsgType) (env : Surroundings)
    (ht : (t.token.filter (·.forward == true)) = none) :
    Receives c { c.ignore env.rc with sent := written env.rc (ackPack t i) } i := by
  refine { receives_ignore c env.rc i with fwd := fun j => ?_, bwd := fun j hj => ?_ }
  · refine tokens_written_eq_nil ?_
    rw [tokens_ackPack, ht]
    exact ite_self _
  · exact tokens_written_eq_nil (tokens_ackPack_of_ne hj)

theorem receives_handlePublishes (c : Clients) (env : Surroundings) (p : Publish) :
    Receives c (handlePublishes c env p) p.msgId := by
  rw [handlePublishes]
  by_cases h0 : p.header.qos = 0
  · rw [if_pos h0]
    obtain ⟨hout, hin⟩ := processPublication_lists c p env.taken
    refine { receives_ignore c (.complete ()) p.msgId with
      outbound := hout, nodup := ?_, others := ?_, published := ?_ }
    · exact fun h => hin.symm ▸ h
    · exact fun _ j _ => congrArg (findMsg j) hin
    · intro q hq hpos
      obtain rfl := List.mem_singleton.1 hq
      omega
  rw [if_neg h0]
  by_cases hpending : (!env.noPendingWrites) = true
  · rw [if_pos hpending]
    exact receives_ignore c _ _
  rw [if_neg hpending]
  by_cases h1 : p.header.qos = 1
  · rw [if_pos h1]
    exact receives_answer rfl rfl
  rw [if_neg h1]
  by_cases h2 : p.header.qos = 2
  · rw [if_pos h2]
    refine { receives_ack (c := c) .pubrec env rfl with
      nodup := nodup_storeMsg, others := fun _ j hj => ?_ }
    exact (findMsg_storeMsg _ _ j).trans (if_neg hj)
  · rw [if_neg h2]
    exact receives_ignore c _ _

theorem receives_handlePubrels (c : Clients) (env : Surroundings) (header : Header) (i : ℕ) :
    Receives c (handlePubrels c env header i) i := by
  rw [handlePubrels]
  cases hfind : findMsg i c.inboundMsgs with
  | none =>
    simp only
    split_ifs
    · exact receives_ignore c _ _
    · exact receives_ignore c _ _
    · exact receives_ack .pubcomp env rfl
  | some m =>
    simp only
    split_ifs
    · exact receives_ignore c _ _
    · exact receives_ignore c _ _
    · exact receives_ignore c _ _
    · have hid : m.msgid = i := Keyed.key_of_find hfind
      let c' : Clients := { c with inboundMsgs := removeMsg i c.inboundMsgs }
      have h : Receives c' (answer c' env (some (ackPack .pubcomp i))
          ⟨.ofBits 0 false m.qos m.retain, m.topic, m.msgid, m.payload⟩) i := receives_answer hid rfl
      refine { h with nodup := fun hn => h.nodup (Keyed.nodup_remove hn), others := fun hn j hj => ?_ }
      exact (h.others (Keyed.nodup_remove hn) j hj).trans ((Keyed.find_remove hn).trans (if_neg hj))

theorem sends_acknowledge {m : Messages} (hm : m.msgid = i) : Sends c (acknowledge c m) i where
  inbound := rfl
  nodup := Keyed.nodup_remove
  others hnodup j hj := (Keyed.find_remove hnodup).trans (if_neg (hm ▸ hj))
  fwd _ _ := rfl
  bwd _ := rfl
  published := rfl
  acknowledged q hq := by
    obtain rfl := List.mem_singleton.1 hq
    exact hm

theorem sends_handlePubacks (c : Clients) (i : ℕ) : Sends c (handlePubacks c i) i := by
  rw [handlePubacks]
  cases hfind : findMsg i c.outboundMsgs with
  | none => exact sends_ignore c _ _
  | some m =>
    simp only
    split_ifs
    · exact sends_ignore c _ _
    · exact sends_acknowledge (Keyed.key_of_find hfind)

theorem sends_handlePubcomps (c : Clients) (i : ℕ) : Sends c (handlePubcomps c i) i := by
  rw [handlePubcomps]
  cases hfind : findMsg i c.outboundMsgs with
  | none => exact sends_ignore c _ _
  | some m =>
    simp only
    split_ifs
    · exact sends_ignore c _ _
    · exact sends_ignore c _ _
    · exact sends_acknowledge (Keyed.key_of_find hfind)

theorem sends_handlePubrecs (c : Clients) (env : Surroundings) (i : ℕ) :
    Sends c (handlePubrecs c env i) i := by
  rw [handlePubrecs]
  cases hfind : findMsg i c.outboundMsgs with
  | none => exact sends_ignore c _ _
  | some m =>
    simp only
    split_ifs
    · exact sends_ignore c _ _
    · exact sends_ignore c _ _
    · refine { sends_ignore c env.rc i with nodup := ?_, others := ?_, fwd := ?_, bwd := ?_ }
      · intro hnodup
        simp only
        rwa [Keyed.map_update]
        exact fun _ => id
      · intro _ j hj
        refine (Keyed.find_update ?_).trans (if_neg hj)
        exact fun _ => id
      · exact fun j hj => tokens_written_eq_nil (tokens_ackPack_of_ne hj)
      · intro j
        refine tokens_written_eq_nil ?_
        rw [tokens_ackPack]
        exact ite_self _

theorem startPublish_of_pos {m : Messages} (c : Clients) (env : Surroundings) (hpos : m.qos > 0) :
    startPublish c env m = { c.ignore env.rc with
      client := { c with outboundMsgs := c.outboundMsgs ++ [createMessage m] }
      sent := written env.rc (publishPack false (createMessage m)) } :=
  if_pos hpos

theorem startPublish_of_not_pos {m : Messages} (c : Clients) (env : Surroundings)
    (hpos : ¬m.qos > 0) : startPublish c env m = { c.ignore env.rc with
      sent := written env.rc (publishPack false { m with msgid := 0 }) } :=
  if_neg hpos

/-- A message that is not acknowledged belongs to no exchange. -/
theorem tokens_unacknowledged {m : Messages} (hpos : ¬m.qos > 0) (rc : Completion Unit) (b : Bool)
    (j : ℕ) : tokens b j (written rc (publishPack false { m with msgid := 0 })) = [] := by
  have hqos : m.qos ≤ 2 := by omega
  have hqos' : { m with msgid := 0 }.qos ≤ 2 := hqos
  refine tokens_written_eq_nil ?_
  rw [tokens_publishPack hqos', if_neg fun h => hpos h.1]

/-- A message that is published is the first of its exchange. -/
theorem sends_startPublish {m : Messages} (env : Surroundings) (hqos : m.qos ≤ 2)
    (hfind : findMsg m.msgid c.outboundMsgs = none) :
    Sends c (startPublish c env m) m.msgid := by
  have hqos' : (createMessage m).qos ≤ 2 := hqos
  have hfind' : findMsg (createMessage m).msgid c.outboundMsgs = none := hfind
  by_cases hpos : m.qos > 0
  · rw [startPublish_of_pos c env hpos]
    refine { sends_ignore c env.rc m.msgid with nodup := ?_, others := ?_, fwd := ?_, bwd := ?_ }
    · exact fun hnodup => Keyed.nodup_snoc hfind' hnodup
    · exact fun _ j hj => (Keyed.find_snoc hfind').trans (if_neg hj)
    · intro j hj
      refine tokens_written_eq_nil ?_
      rw [tokens_publishPack hqos', if_neg fun h => hj h.2.1.symm]
    · intro j
      refine tokens_written_eq_nil ?_
      rw [tokens_publishPack hqos', if_neg (by simp)]
  · rw [startPublish_of_not_pos c env hpos]
    exact { sends_ignore c env.rc m.msgid with
      fwd := fun j _ => tokens_unacknowledged hpos env.rc true j
      bwd := tokens_unacknowledged hpos env.rc false }

end

/-! ## Sending again -/

/-- A message that has been published. -/
def Published (m : Messages) : Prop :=
  m.qos = 1 ∨ m.qos = 2 ∧ (m.nextMessageType = some .pubrec ∨ m.nextMessageType = some .pubcomp)

theorem exists_retryPack {m : Messages} (hm : Published m) (i : ℕ) : ∃ p, retryPack m = some p ∧
    tokens false i [p] = [] ∧ tokens true i [p] = if m.msgid = i then [m.retryToken] else [] := by
  have hpublish : ∀ hqos : m.qos = 1 ∨ m.qos = 2, tokens false i [publishPack true m] = [] ∧
      tokens true i [publishPack true m] = if m.msgid = i then [.publish m.content] else [] := by
    intro hqos
    rw [tokens_publishPack (by omega), tokens_publishPack (by omega), if_neg (by simp)]
    refine ⟨rfl, if_congr ?_ rfl rfl⟩
    exact ⟨fun h => h.2.1, fun h => ⟨by omega, h, rfl⟩⟩
  obtain h1 | ⟨h2, hnext | hnext⟩ := hm
  · have htoken : m.retryToken = .publish m.content := if_pos (.inl h1)
    refine ⟨_, if_pos (.inl h1), ?_⟩
    rw [htoken]
    exact hpublish (.inl h1)
  · have htoken : m.retryToken = .publish m.content := if_pos (.inr hnext)
    refine ⟨_, if_pos (.inr ⟨h2, hnext⟩), ?_⟩
    rw [htoken]
    exact hpublish (.inr h2)
  · have htoken : m.retryToken = .pubrel := if_neg (by simp [h2, hnext])
    refine ⟨ackPack .pubrel m.msgid, by simp [retryPack, h2, hnext], ?_, ?_⟩
    · rw [tokens_ackPack]
      exact ite_self _
    · rw [tokens_ackPack, htoken]
      rfl

/-- The packets that are sent again, of one exchange. -/
theorem tokens_retries {msgs : List Messages} (rcs : List (Completion Unit)) (i : ℕ)
    (hmsgs : ∀ m ∈ msgs, Published m) (hnodup : (msgs.map Messages.msgid).Nodup) :
    tokens false i (retries rcs msgs) = [] ∧ (tokens true i (retries rcs msgs) = [] ∨
      ∃ m, findMsg i msgs = some m ∧ tokens true i (retries rcs msgs) = [m.retryToken]) := by
  induction msgs generalizing rcs with
  | nil => simp [retries]
  | cons m msgs ih =>
    cases rcs with
    | nil => simp [retries]
    | cons rc rcs =>
      obtain ⟨hm, hnodup⟩ := List.nodup_cons.1 hnodup
      obtain ⟨hback, hthere⟩ := ih rcs (fun m hm => hmsgs m (.tail _ hm)) hnodup
      obtain ⟨p, hp, hback', hthere'⟩ := exists_retryPack (hmsgs m List.mem_cons_self) i
      have hfind : findMsg i (m :: msgs) = if m.msgid = i then some m else findMsg i msgs :=
        Keyed.find_cons
      -- The packet of the message alone.
      have hone : tokens true i [p] = [] ∨
          ∃ m', findMsg i (m :: msgs) = some m' ∧ tokens true i [p] = [m'.retryToken] := by
        rw [hthere', hfind]
        split_ifs
        · exact .inr ⟨m, rfl, rfl⟩
        · exact .inl rfl
      rw [retries, hp]
      cases rc with
      | complete u =>
        have hcons : ∀ b, tokens b i (p :: retries rcs msgs) =
            tokens b i [p] ++ tokens b i (retries rcs msgs) := fun b => tokens_cons
        simp only [hcons, hback, hback', List.append_nil, true_and]
        by_cases hi : m.msgid = i
        · -- There is no other message with the identifier.
          have hnone : findMsg i msgs = none := by
            refine Keyed.find_eq_none.2 fun m' hm' hid => hm (List.mem_map.2 ⟨m', hm', ?_⟩)
            rw [hid, hi]
          have hrest : tokens true i (retries rcs msgs) = [] := by
            obtain hnil | ⟨m', hm', -⟩ := hthere
            · exact hnil
            · rw [hnone] at hm'
              cases hm'
          simpa [hrest] using hone
        · rw [hthere', hfind, if_neg hi, if_neg hi, List.nil_append]
          exact hthere
      | interrupted =>
        simp only
        split_ifs
        · exact ⟨rfl, .inl rfl⟩
        · exact ⟨hback', hone⟩
      | socketError => exact ⟨rfl, .inl rfl⟩

end Cmqtt
