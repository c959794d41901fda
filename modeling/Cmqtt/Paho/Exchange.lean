import Cmqtt.Machine
import Cmqtt.Paho.Handling

/-!
# The exchange of messages

Two ends of a connection that both work as in `Protocol`, with the packets on
their way between them. Either end publishes messages to the other one, with any
quality of service, and packets are read in the order in which they were sent;
sending may fail, so that the packet is lost, and so may the answer to a packet
that has been read. At any time the connection may break: all packets on their
way are lost then, and after the next connection both ends send again what the
other end has not acknowledged, or forget it, if the session is a clean one.

Messages are sent again after a new connection only. `MQTTProtocol_retry` can also
send them again while a connection lasts (with a `retryInterval` above 0, or when
another client of the process connects), which is left out, and so are runs in
which some sessions are clean and others are not.

For every identifier, what is known of it at the two ends and what is on its way
between them are in step (`Phase`), and at most one packet is on its way, in
either direction (`Flight`). From this:

* `qos_guarantees`: of the messages published with quality 2, each is processed at
  most once, in order; and those that have been acknowledged, of either quality,
  have been processed;
* `kept_or_completed`: unless the sessions are clean, a message is kept until it is
  acknowledged, so that every message of quality 2 is processed exactly once by then.
-/

namespace Cmqtt

open SocketBuffer MQTTPacket MQTTProtocol

/-- Two ends of a connection, called `false` and `true`. -/
structure Link where
  ends : Bool → Clients
  /-- The packets on their way, by the end that has sent them. -/
  channels : Bool → List Pack
  /-- The messages published with an acknowledgement, by the end that publishes
      them and by their identifiers. -/
  started : Bool → ℕ → List Content
  /-- Those that the other end has processed. -/
  processed : Bool → ℕ → List Content
  /-- Those that the other end has acknowledged. -/
  completed : Bool → ℕ → List Content
  /-- All messages that were processed at an end. -/
  arrived : Bool → List Publish
  /-- What the application at an end has been called back with, and its answers. -/
  calls : Bool → List (Arrival Message × Bool)

namespace Link

/-- What happens at the ends. -/
inductive Action
  /-- `MQTTProtocol_startPublish`. -/
  | publish (e : Bool) (m : Messages) (env : Surroundings)
  /-- A packet is read. -/
  | receive (e : Bool) (env : Surroundings)
  /-- The receiving thread works on the queue. -/
  | deliver (e : Bool) (taken : Bool)
  /-- The end finds itself connected, or not. -/
  | connected (e : Bool) (connected : Bool)
  /-- The connection breaks, and there is a new one. -/
  | reconnect (rcs : Bool → List (Completion Unit))

/-- Nothing has been published. -/
def start : Link where
  ends _ := ⟨true, [], [], []⟩
  channels _ := []
  started _ _ := []
  processed _ _ := []
  completed _ _ := []
  arrived _ := []
  calls _ := []

/-- More messages of the end `e`, with their identifiers. -/
def note (hist : Bool → ℕ → List Content) (e : Bool) (msgs : List (ℕ × Content)) :
    Bool → ℕ → List Content := fun d i =>
  if d = e then hist d i ++ (msgs.filter (·.1 = i)).map Prod.snd else hist d i

variable (l : Link)

/-- `MQTTProtocol_startPublish` at an end. -/
def publish (e : Bool) (m : Messages) (env : Surroundings) : Link :=
  let h := startPublish (l.ends e) env m
  { l with
    ends := Function.update l.ends e h.client
    channels := Function.update l.channels e (l.channels e ++ h.sent)
    started := note l.started e (if m.qos > 0 then [(m.msgid, m.content)] else []) }

/-- A packet is read at an end. -/
def receive (e : Bool) (env : Surroundings) (p : Pack) (rest : List Pack) : Link :=
  let h := handle (l.ends e) env p
  { l with
    ends := Function.update l.ends e h.client
    channels := Function.update (Function.update l.channels (!e) rest) e (l.channels e ++ h.sent)
    processed := note l.processed (!e)
      ((h.published.filter (·.header.qos > 0)).map fun p => (p.msgId, p.content))
    completed := note l.completed e (h.acknowledged.map fun m => (m.msgid, m.content))
    arrived := Function.update l.arrived e (l.arrived e ++ h.published)
    calls := Function.update l.calls e (l.calls e ++ h.calls.map (·, env.taken)) }

/-- The receiving thread works on the queue at an end. -/
def deliver (e : Bool) (taken : Bool) : Link :=
  let r := (l.ends e).deliverQueued taken
  { l with
    ends := Function.update l.ends e r.1
    calls := Function.update l.calls e (l.calls e ++ r.2.map (·, taken)) }

/-- `MQTTAsync_cleanSession`, if it is called for. -/
def cleanSession (clean : Bool) (c : Clients) : Clients :=
  if clean then { c with outboundMsgs := [], inboundMsgs := [] } else c

/-- A new connection, with `MQTTProtocol_retries` at both ends. -/
def reconnect (clean : Bool) (rcs : Bool → List (Completion Unit)) : Link :=
  { l with
    ends := fun e => cleanSession clean (l.ends e)
    channels := fun e => retries (rcs e) (cleanSession clean (l.ends e)).outboundMsgs }

/-- The two ends after an action, where it is possible: the quality has been checked,
    and the identifier is one that is not in use (see `Library.Distinct.publish_link`). -/
def step (clean : Bool) : Action → Option Link
  | .publish e m env =>
    if m.qos ≤ 2 ∧ (findMsg m.msgid (l.ends e).outboundMsgs).isNone then some (l.publish e m env)
    else none
  | .receive e env =>
    match l.channels (!e) with
    | [] => none
    | p :: rest => some (l.receive e env p rest)
  | .deliver e taken => some (l.deliver e taken)
  | .connected e connected => some { l with
      ends := Function.update l.ends e { l.ends e with connected := connected } }
  | .reconnect rcs => some (l.reconnect clean rcs)

end Link

/-- Two ends of a connection, with sessions that are clean or not. -/
def link (clean : Bool) : Machine Link Link.Action where
  init l := l = .start
  step l := l.step clean

namespace Link

/-- The exchanges with an identifier that the end `d` publishes. -/
def view (l : Link) (d : Bool) (i : ℕ) : View where
  out := findMsg i (l.ends d).outboundMsgs
  inb := findMsg i (l.ends !d).inboundMsgs
  fwd := tokens true i (l.channels d)
  bwd := tokens false i (l.channels !d)
  started := l.started d i
  processed := l.processed d i
  completed := l.completed d i

/-- What holds at any time. -/
structure Sound (clean : Bool) (l : Link) : Prop where
  outbound : ∀ e, ((l.ends e).outboundMsgs.map Messages.msgid).Nodup
  inbound : ∀ e, ((l.ends e).inboundMsgs.map Messages.msgid).Nodup
  phase : ∀ d i, Phase clean (l.view d i)

variable {l l' : Link} {e d : Bool} {i j : ℕ} {env : Surroundings} {p : Pack} {rest : List Pack}

theorem sound_start : Sound clean start where
  outbound _ := List.nodup_nil
  inbound _ := List.nodup_nil
  phase _ _ := .idle .nil

theorem note_of_ne {hist : Bool → ℕ → List Content} (msgs : List (ℕ × Content)) (h : d ≠ e) :
    note hist e msgs d i = hist d i :=
  if_neg h

theorem note_of_forall_ne {hist : Bool → ℕ → List Content} {msgs : List (ℕ × Content)}
    (h : ∀ m ∈ msgs, m.1 ≠ i) : note hist e msgs d i = hist d i := by
  have hnil : msgs.filter (·.1 = i) = [] := by simpa [List.filter_eq_nil_iff] using h
  rw [note, hnil, List.map_nil, List.append_nil, ite_self]

theorem note_of_forall {hist : Bool → ℕ → List Content} {msgs : List (ℕ × Content)}
    (h : ∀ m ∈ msgs, m.1 = i) : note hist e msgs e i = hist e i ++ msgs.map Prod.snd := by
  have hall : msgs.filter (·.1 = i) = msgs := by simpa [List.filter_eq_self] using h
  rw [note, hall, if_pos rfl]

section

variable (l e env p rest)

theorem ends_receive_self : (l.receive e env p rest).ends e = (handle (l.ends e) env p).client :=
  Function.update_self _ _ _

theorem ends_receive_not : (l.receive e env p rest).ends (!e) = l.ends (!e) :=
  Function.update_of_ne (Bool.not_ne_self e) _ _

theorem channels_receive_self : (l.receive e env p rest).channels e =
    l.channels e ++ (handle (l.ends e) env p).sent :=
  Function.update_self _ _ _

theorem channels_receive_not : (l.receive e env p rest).channels (!e) = rest := by
  simp [receive]

end

theorem tokens_of_cons {b : Bool} (hch : l.channels e = p :: rest) (h : tokens b i [p] = []) :
    tokens b i rest = tokens b i (l.channels e) := by
  rw [hch, tokens_cons, h, List.nil_append]

/-- The exchanges that the other end publishes. -/
theorem view_not (l : Link) (e : Bool) (i : ℕ) : l.view (!e) i =
    ⟨findMsg i (l.ends !e).outboundMsgs, findMsg i (l.ends e).inboundMsgs,
      tokens true i (l.channels !e), tokens false i (l.channels e),
      l.started (!e) i, l.processed (!e) i, l.completed (!e) i⟩ := by
  rw [view, Bool.not_not]

/-- Only one exchange has changed. -/
theorem Sound.change (h : Sound clean l) (hout : ∀ e, ((l'.ends e).outboundMsgs.map Messages.msgid).Nodup)
    (hinb : ∀ e, ((l'.ends e).inboundMsgs.map Messages.msgid).Nodup)
    (hothers : ∀ d' j, (d' = d → j ≠ i) → l'.view d' j = l.view d' j)
    (hphase : Phase clean (l'.view d i)) : Sound clean l' := by
  refine ⟨hout, hinb, fun d' j => ?_⟩
  by_cases hd : d' = d ∧ j = i
  · obtain ⟨rfl, rfl⟩ := hd
    exact hphase
  · rw [hothers d' j fun hd' hj => hd ⟨hd', hj⟩]
    exact h.phase d' j

/-- A packet of an exchange that the other end publishes is read. -/
theorem Sound.receives (h : Sound clean l) (hch : l.channels (!e) = p :: rest)
    (hr : Receives (l.ends e) (handle (l.ends e) env p) i)
    (hbwd : ∀ j, tokens false j [p] = []) (hfwd : ∀ j ≠ i, tokens true j [p] = [])
    (hphase : Phase clean
      ⟨findMsg i (l.ends !e).outboundMsgs, findMsg i (handle (l.ends e) env p).client.inboundMsgs,
        tokens true i rest,
        tokens false i (l.channels e) ++ tokens false i (handle (l.ends e) env p).sent,
        l.started (!e) i, l.processed (!e) i ++
          ((handle (l.ends e) env p).published.filter (·.header.qos > 0)).map Publish.content,
        l.completed (!e) i⟩) :
    Sound clean (l.receive e env p rest) := by
  have hself := ends_receive_self l e env p rest
  have hnot := ends_receive_not l e env p rest
  have hsent := channels_receive_self l e env p rest
  have hrest := channels_receive_not l e env p rest
  have hpub : ∀ m ∈ ((handle (l.ends e) env p).published.filter (·.header.qos > 0)).map
      fun p => (p.msgId, p.content), m.1 = i := by
    intro m hm
    obtain ⟨q, hq, rfl⟩ := List.mem_map.1 hm
    obtain ⟨hq, hpos⟩ := List.mem_filter.1 hq
    exact hr.published q hq (by simpa using hpos)
  refine h.change (d := !e) (i := i) (fun d => ?_) (fun d => ?_) (fun d j hj => ?_) ?_
  · obtain rfl | rfl := Bool.eq_or_eq_not d e
    · rw [hself, hr.outbound]
      exact h.outbound d
    · rw [hnot]
      exact h.outbound _
  · obtain rfl | rfl := Bool.eq_or_eq_not d e
    · rw [hself]
      exact hr.nodup (h.inbound d)
    · rw [hnot]
      exact h.inbound _
  · obtain rfl | rfl := Bool.eq_or_eq_not d e
    · refine View.ext ?_ ?_ ?_ ?_ rfl ?_ ?_
      · rw [view, hself, hr.outbound, view]
      · rw [view, hnot, view]
      · rw [view, hsent, tokens_append, hr.fwd, List.append_nil, view]
      · rw [view, hrest, tokens_of_cons hch (hbwd j), view]
      · exact note_of_ne _ (Bool.not_ne_self d).symm
      · refine note_of_forall_ne ?_
        rw [hr.acknowledged]
        simp
    · rw [view_not, view_not]
      refine View.ext ?_ ?_ ?_ ?_ rfl ?_ ?_
      · rw [hnot]
      · rw [hself, hr.others (h.inbound e) j (hj rfl)]
      · rw [hrest, tokens_of_cons hch (hfwd j (hj rfl))]
      · rw [hsent, tokens_append, hr.bwd j (hj rfl), List.append_nil]
      · exact note_of_forall_ne fun m hm hmj => hj rfl (hmj.symm.trans (hpub m hm))
      · exact note_of_ne _ (Bool.not_ne_self e)
  · have hprocessed : (l.receive e env p rest).processed (!e) i = l.processed (!e) i ++
        ((handle (l.ends e) env p).published.filter (·.header.qos > 0)).map Publish.content := by
      refine (note_of_forall hpub).trans ?_
      rw [List.map_map]
      rfl
    have hcompleted : (l.receive e env p rest).completed (!e) i = l.completed (!e) i :=
      note_of_ne _ (Bool.not_ne_self e)
    rw [view_not, hnot, hself, hrest, hsent, tokens_append, hprocessed, hcompleted]
    exact hphase

/-- A packet of an exchange that this end publishes is read. -/
theorem Sound.sends (h : Sound clean l) (hch : l.channels (!e) = p :: rest)
    (hs : Sends (l.ends e) (handle (l.ends e) env p) i)
    (hfwd : ∀ j, tokens true j [p] = []) (hbwd : ∀ j ≠ i, tokens false j [p] = [])
    (hphase : Phase clean
      ⟨findMsg i (handle (l.ends e) env p).client.outboundMsgs, findMsg i (l.ends !e).inboundMsgs,
        tokens true i (l.channels e) ++ tokens true i (handle (l.ends e) env p).sent,
        tokens false i rest, l.started e i, l.processed e i,
        l.completed e i ++ (handle (l.ends e) env p).acknowledged.map Messages.content⟩) :
    Sound clean (l.receive e env p rest) := by
  have hself := ends_receive_self l e env p rest
  have hnot := ends_receive_not l e env p rest
  have hsent := channels_receive_self l e env p rest
  have hrest := channels_receive_not l e env p rest
  have hack : ∀ m ∈ (handle (l.ends e) env p).acknowledged.map fun m => (m.msgid, m.content),
      m.1 = i := by
    intro m hm
    obtain ⟨q, hq, rfl⟩ := List.mem_map.1 hm
    exact hs.acknowledged q hq
  refine h.change (d := e) (i := i) (fun d => ?_) (fun d => ?_) (fun d j hj => ?_) ?_
  · obtain rfl | rfl := Bool.eq_or_eq_not d e
    · rw [hself]
      exact hs.nodup (h.outbound d)
    · rw [hnot]
      exact h.outbound _
  · obtain rfl | rfl := Bool.eq_or_eq_not d e
    · rw [hself, hs.inbound]
      exact h.inbound d
    · rw [hnot]
      exact h.inbound _
  · obtain rfl | rfl := Bool.eq_or_eq_not d e
    · refine View.ext ?_ ?_ ?_ ?_ rfl ?_ ?_
      · rw [view, hself, hs.others (h.outbound d) j (hj rfl), view]
      · rw [view, hnot, view]
      · rw [view, hsent, tokens_append, hs.fwd j (hj rfl), List.append_nil, view]
      · rw [view, hrest, tokens_of_cons hch (hbwd j (hj rfl)), view]
      · exact note_of_ne _ (Bool.not_ne_self d).symm
      · exact note_of_forall_ne fun m hm hmj => hj rfl (hmj.symm.trans (hack m hm))
    · rw [view_not, view_not]
      refine View.ext ?_ ?_ ?_ ?_ rfl ?_ ?_
      · rw [hnot]
      · rw [hself, hs.inbound]
      · rw [hrest, tokens_of_cons hch (hfwd j)]
      · rw [hsent, tokens_append, hs.bwd j, List.append_nil]
      · refine note_of_forall_ne ?_
        rw [hs.published]
        simp
      · exact note_of_ne _ (Bool.not_ne_self e)
  · have hprocessed : (l.receive e env p rest).processed e i = l.processed e i :=
      note_of_ne _ (Bool.not_ne_self e).symm
    have hcompleted : (l.receive e env p rest).completed e i = l.completed e i ++
        (handle (l.ends e) env p).acknowledged.map Messages.content := by
      refine (note_of_forall hack).trans ?_
      rw [List.map_map]
      rfl
    rw [view, hnot, hself, hrest, hsent, tokens_append, hprocessed, hcompleted]
    exact hphase

theorem Sound.receive_publish {q : Publish} (h : Sound clean l)
    (hch : l.channels (!e) = .publish q :: rest) : Sound clean (l.receive e env (.publish q) rest) := by
  refine h.receives hch (receives_handlePublishes (l.ends e) env q) (fun j => ?_) (fun j hj => ?_) ?_
  · rw [tokens_publish, if_neg (by simp)]
  · rw [tokens_publish, if_neg fun hq => hj hq.2.1.symm]
  have hv := h.phase (!e) q.msgId
  rw [view_not] at hv
  rw [show handle (l.ends e) env (.publish q) = handlePublishes (l.ends e) env q from rfl]
  by_cases h0 : q.header.qos = 0
  · -- It belongs to no exchange.
    have hfwd : tokens true q.msgId rest = tokens true q.msgId (l.channels !e) := by
      refine tokens_of_cons hch ?_
      rw [tokens_publish, if_neg (by omega)]
    have heq : handlePublishes (l.ends e) env q = answer (l.ends e) env none q := by
      rw [handlePublishes, if_pos h0]
    have hinb := (processPublication_lists (l.ends e) q env.taken).2
    rw [heq, hfwd]
    simpa [answer, hinb, h0] using hv
  have hfwd : tokens true q.msgId (l.channels !e) = .publish q.content :: tokens true q.msgId rest := by
    rw [hch, tokens_cons, tokens_publish, if_pos ⟨Nat.pos_of_ne_zero h0, rfl, rfl⟩]
    rfl
  have hdropped := hv.dropped hfwd
  by_cases hpending : (!env.noPendingWrites) = true
  · have heq : handlePublishes (l.ends e) env q = (l.ends e).ignore .socketError := by
      rw [handlePublishes, if_neg h0, if_pos hpending]
    rw [heq]
    simpa [Clients.ignore] using hdropped
  by_cases h1 : q.header.qos = 1
  · have heq : handlePublishes (l.ends e) env q =
        answer (l.ends e) env (some (ackPack .puback q.msgId)) q := by
      rw [handlePublishes, if_neg h0, if_neg hpending, if_pos h1]
    have hinb := (processPublication_lists (l.ends e) q env.taken).2
    have hprocess := hv.process hfwd h1 (tokens_ack false env.rc .puback q.msgId rfl rfl)
    rw [heq, answer_some, hinb]
    simpa [h1] using hprocess
  by_cases h2 : q.header.qos = 2
  · have hstore := hv.store (r := ⟨q.msgId, q.header.qos, q.header.retain, some .pubrel, q.topic,
      q.payload⟩) hfwd h2 rfl rfl (tokens_ack false env.rc .pubrec q.msgId rfl rfl)
    rw [handlePublishes, if_neg h0, if_neg hpending, if_neg h1, if_pos h2]
    simpa [Clients.ignore, findMsg_storeMsg] using hstore
  · have heq : handlePublishes (l.ends e) env q = (l.ends e).ignore (.complete ()) := by
      rw [handlePublishes, if_neg h0, if_neg hpending, if_neg h1, if_neg h2]
    rw [heq]
    simpa [Clients.ignore] using hdropped

theorem Sound.receive_pubrel {header : Header} (h : Sound clean l)
    (hch : l.channels (!e) = .ack header i :: rest)
    (htype : MsgType.ofCode header.type = some .pubrel) :
    Sound clean (l.receive e env (.ack header i) rest) := by
  have heq : handle (l.ends e) env (.ack header i) = handlePubrels (l.ends e) env header i := by
    rw [handle, htype]
  have hr := receives_handlePubrels (l.ends e) env header i
  rw [← heq] at hr
  refine h.receives hch hr (fun j => ?_) (fun j hj => ?_) ?_
  · rw [tokens_ack_singleton htype rfl, if_neg (by simp [Token.forward])]
  · rw [tokens_ack_singleton htype rfl, if_neg fun hi => hj hi.1.symm]
  have hv := h.phase (!e) i
  rw [view_not] at hv
  have hfwd : tokens true i (l.channels !e) = .pubrel :: tokens true i rest := by
    rw [hch, tokens_cons, tokens_ack_singleton htype rfl, if_pos ⟨rfl, rfl⟩]
    rfl
  have hdropped := hv.dropped hfwd
  have hack := tokens_ack false env.rc .pubcomp i rfl rfl
  rw [heq]
  cases hfind : findMsg i (l.ends e).inboundMsgs with
  | none =>
    have hagain := hv.again hfwd hfind hack
    rw [handlePubrels, hfind]
    simp only
    split_ifs
    · simpa [Clients.ignore] using hdropped
    · simpa [Clients.ignore] using hdropped
    · simpa [Clients.ignore] using hagain
  | some m =>
    obtain ⟨hqos, hnext, hrelease⟩ := hv.release hfwd hfind
    rw [handlePubrels, hfind]
    simp only [hqos, hnext, ne_eq, not_true_eq_false, if_false]
    split_ifs
    · simpa [Clients.ignore] using hdropped
    · have hinb : findMsg i (removeMsg i (l.ends e).inboundMsgs) = none :=
        (Keyed.find_remove (h.inbound e)).trans (if_pos rfl)
      rw [answer_some, (processPublication_lists _ _ env.taken).2, hinb]
      simpa [Publish.content, Messages.content, hqos] using hrelease _ hack

/-- The message that is removed is not found again. -/
theorem findMsg_acknowledge {m : Messages} (h : Sound clean l)
    (hfind : findMsg i (l.ends e).outboundMsgs = some m) :
    findMsg i (acknowledge (l.ends e) m).client.outboundMsgs = none := by
  have hid : m.msgid = i := Keyed.key_of_find hfind
  exact (Keyed.find_remove (h.outbound e)).trans (if_pos hid.symm)

theorem Sound.receive_puback {header : Header} (h : Sound clean l)
    (hch : l.channels (!e) = .ack header i :: rest)
    (htype : MsgType.ofCode header.type = some .puback) :
    Sound clean (l.receive e env (.ack header i) rest) := by
  have heq : handle (l.ends e) env (.ack header i) = handlePubacks (l.ends e) i := by
    rw [handle, htype]
  have hs := sends_handlePubacks (l.ends e) i
  rw [← heq] at hs
  refine h.sends hch hs (fun j => ?_) (fun j hj => ?_) ?_
  · rw [tokens_ack_singleton htype rfl, if_neg (by simp [Token.forward])]
  · rw [tokens_ack_singleton htype rfl, if_neg fun hi => hj hi.1.symm]
  have hv := h.phase e i
  rw [view] at hv
  have hbwd : tokens false i (l.channels !e) = .puback :: tokens false i rest := by
    rw [hch, tokens_cons, tokens_ack_singleton htype rfl, if_pos ⟨rfl, rfl⟩]
    rfl
  obtain ⟨m, hout, hqos, hphase⟩ := hv.puback hbwd
  have hack : handlePubacks (l.ends e) i = acknowledge (l.ends e) m := by
    rw [handlePubacks, show findMsg i (l.ends e).outboundMsgs = some m from hout]
    simp [hqos]
  rw [heq, hack, findMsg_acknowledge h hout]
  simpa [acknowledge, Clients.ignore] using hphase

theorem Sound.receive_pubcomp {header : Header} (h : Sound clean l)
    (hch : l.channels (!e) = .ack header i :: rest)
    (htype : MsgType.ofCode header.type = some .pubcomp) :
    Sound clean (l.receive e env (.ack header i) rest) := by
  have heq : handle (l.ends e) env (.ack header i) = handlePubcomps (l.ends e) i := by
    rw [handle, htype]
  have hs := sends_handlePubcomps (l.ends e) i
  rw [← heq] at hs
  refine h.sends hch hs (fun j => ?_) (fun j hj => ?_) ?_
  · rw [tokens_ack_singleton htype rfl, if_neg (by simp [Token.forward])]
  · rw [tokens_ack_singleton htype rfl, if_neg fun hi => hj hi.1.symm]
  have hv := h.phase e i
  rw [view] at hv
  have hbwd : tokens false i (l.channels !e) = .pubcomp :: tokens false i rest := by
    rw [hch, tokens_cons, tokens_ack_singleton htype rfl, if_pos ⟨rfl, rfl⟩]
    rfl
  obtain ⟨m, hout, hqos, hnext, hphase⟩ := hv.pubcomp hbwd
  have hack : handlePubcomps (l.ends e) i = acknowledge (l.ends e) m := by
    rw [handlePubcomps, show findMsg i (l.ends e).outboundMsgs = some m from hout]
    simp [hqos, hnext]
  rw [heq, hack, findMsg_acknowledge h hout]
  simpa [acknowledge, Clients.ignore] using hphase

theorem Sound.receive_pubrec {header : Header} (h : Sound clean l)
    (hch : l.channels (!e) = .ack header i :: rest)
    (htype : MsgType.ofCode header.type = some .pubrec) :
    Sound clean (l.receive e env (.ack header i) rest) := by
  have heq : handle (l.ends e) env (.ack header i) = handlePubrecs (l.ends e) env i := by
    rw [handle, htype]
  have hs := sends_handlePubrecs (l.ends e) env i
  rw [← heq] at hs
  refine h.sends hch hs (fun j => ?_) (fun j hj => ?_) ?_
  · rw [tokens_ack_singleton htype rfl, if_neg (by simp [Token.forward])]
  · rw [tokens_ack_singleton htype rfl, if_neg fun hi => hj hi.1.symm]
  have hv := h.phase e i
  rw [view] at hv
  have hbwd : tokens false i (l.channels !e) = .pubrec :: tokens false i rest := by
    rw [hch, tokens_cons, tokens_ack_singleton htype rfl, if_pos ⟨rfl, rfl⟩]
    rfl
  obtain ⟨m, hout, hqos, hnext, hphase⟩ := hv.pubrec hbwd
  have hfind : findMsg i (Keyed.update Messages.msgid i
      (fun m => { m with nextMessageType := some .pubcomp }) (l.ends e).outboundMsgs) =
        some { m with nextMessageType := some .pubcomp } := by
    have hkey : ∀ m : Messages, m.msgid = i →
        { m with nextMessageType := some MsgType.pubcomp }.msgid = i := fun _ => id
    rw [findMsg, Keyed.find_update hkey, if_pos rfl, ← findMsg,
      show findMsg i (l.ends e).outboundMsgs = some m from hout, Option.map_some]
  rw [heq, handlePubrecs, show findMsg i (l.ends e).outboundMsgs = some m from hout]
  simp only [hqos, hnext, ne_eq, not_true_eq_false, if_false, hfind]
  simpa [Clients.ignore, hqos] using hphase _ (tokens_ack true env.rc .pubrel i rfl rfl)

/-- A packet that is of no exchange. -/
theorem Sound.receive_other (h : Sound clean l) (hch : l.channels (!e) = p :: rest)
    (hp : ∀ i, p.token i = none) (hhandle : handle (l.ends e) env p = (l.ends e).ignore (.complete ())) :
    Sound clean (l.receive e env p rest) := by
  have htokens : ∀ b j, tokens b j [p] = [] := by
    intro b j
    rw [tokens_singleton, hp]
    rfl
  refine h.receives (i := 0) hch ?_ (htokens false) (fun j _ => htokens true j) ?_
  · rw [hhandle]
    exact receives_ignore _ _ _
  · have hv := h.phase (!e) 0
    rw [view_not] at hv
    rw [hhandle, tokens_of_cons hch (htokens true 0)]
    simpa [Clients.ignore] using hv

theorem Sound.receive (h : Sound clean l) (hch : l.channels (!e) = p :: rest) :
    Sound clean (l.receive e env p rest) := by
  cases p with
  | publish q => exact h.receive_publish hch
  | ack header i =>
    cases htype : MsgType.ofCode header.type with
    | none => exact h.receive_other hch (by simp [Pack.token, htype]) (by rw [handle, htype])
    | some t =>
      cases t with
      | puback => exact h.receive_puback hch htype
      | pubrec => exact h.receive_pubrec hch htype
      | pubrel => exact h.receive_pubrel hch htype
      | pubcomp => exact h.receive_pubcomp hch htype
      | _ =>
        exact h.receive_other hch (by simp [Pack.token, htype, MsgType.token]) (by rw [handle, htype])
  | _ => exact h.receive_other hch (fun _ => rfl) rfl

/-- A message is published. -/
theorem Sound.publish {m : Messages} (h : Sound clean l) (hqos : m.qos ≤ 2)
    (hfind : findMsg m.msgid (l.ends e).outboundMsgs = none) : Sound clean (l.publish e m env) := by
  have hself : (l.publish e m env).ends e = (startPublish (l.ends e) env m).client :=
    Function.update_self _ _ _
  have hnot : (l.publish e m env).ends (!e) = l.ends (!e) :=
    Function.update_of_ne (Bool.not_ne_self e) _ _
  have hsent : (l.publish e m env).channels e =
      l.channels e ++ (startPublish (l.ends e) env m).sent := Function.update_self _ _ _
  have hrest : (l.publish e m env).channels (!e) = l.channels (!e) :=
    Function.update_of_ne (Bool.not_ne_self e) _ _
  have hs := sends_startPublish (c := l.ends e) env hqos hfind
  have hv := h.phase e m.msgid
  rw [view] at hv
  have hstarted : ∀ x ∈ if m.qos > 0 then [(m.msgid, m.content)] else [], x.1 = m.msgid := by
    intro x hx
    split_ifs at hx
    · rw [List.mem_singleton.1 hx]
    · cases hx
  refine h.change (d := e) (i := m.msgid) (fun d => ?_) (fun d => ?_) (fun d j hj => ?_) ?_
  · obtain rfl | rfl := Bool.eq_or_eq_not d e
    · rw [hself]
      exact hs.nodup (h.outbound d)
    · rw [hnot]
      exact h.outbound _
  · obtain rfl | rfl := Bool.eq_or_eq_not d e
    · rw [hself, hs.inbound]
      exact h.inbound d
    · rw [hnot]
      exact h.inbound _
  · obtain rfl | rfl := Bool.eq_or_eq_not d e
    · refine View.ext ?_ ?_ ?_ ?_ ?_ rfl rfl
      · rw [view, hself, hs.others (h.outbound d) j (hj rfl), view]
      · rw [view, hnot, view]
      · rw [view, hsent, tokens_append, hs.fwd j (hj rfl), List.append_nil, view]
      · rw [view, hrest, view]
      · exact note_of_forall_ne fun x hx hxj => hj rfl (hxj.symm.trans (hstarted x hx))
    · rw [view_not, view_not]
      refine View.ext ?_ ?_ ?_ ?_ ?_ rfl rfl
      · rw [hnot]
      · rw [hself, hs.inbound]
      · rw [hrest]
      · rw [hsent, tokens_append, hs.bwd j, List.append_nil]
      · exact note_of_ne _ (Bool.not_ne_self e)
  · have hnote : (l.publish e m env).started e m.msgid = _ := note_of_forall hstarted
    rw [view, hself, hnot, hsent, hrest, tokens_append, hnote]
    by_cases hpos : m.qos > 0
    · have hqos' : (createMessage m).qos ≤ 2 := hqos
      have hfind' : findMsg (createMessage m).msgid (l.ends e).outboundMsgs = none := hfind
      have hout : findMsg m.msgid ((l.ends e).outboundMsgs ++ [createMessage m]) =
          some (createMessage m) := (Keyed.find_snoc hfind').trans (if_pos rfl)
      have hw := tokens_written env.rc (publishPack false (createMessage m)) true m.msgid
      rw [tokens_publishPack hqos', if_pos ⟨hpos, rfl, rfl⟩] at hw
      rw [startPublish_of_pos _ env hpos, hout, if_pos hpos]
      refine hv.start hfind hw ?_
      obtain h1 | h2 : m.qos = 1 ∨ m.qos = 2 := by omega
      · exact .inl h1
      · exact .inr ⟨h2, if_pos h2⟩
    · rw [startPublish_of_not_pos _ env hpos, if_neg hpos, tokens_unacknowledged hpos,
        List.map_nil, List.append_nil, List.append_nil]
      exact hv

theorem published_of_phase {m : Messages} (h : Phase clean v) (hout : v.out = some m) :
    Published m := by
  cases h with
  | idle => cases hout
  | once hist hqos hf hn =>
    obtain rfl := Option.some.inj hout
    exact .inl hqos
  | sent hist hqos hnext hf =>
    obtain rfl := Option.some.inj hout
    exact .inr ⟨hqos, .inl hnext⟩
  | stored hist hqos hnext hr hr' hf =>
    obtain rfl := Option.some.inj hout
    exact .inr ⟨hqos, .inl hnext⟩
  | released hist hqos hnext hr hr' hf =>
    obtain rfl := Option.some.inj hout
    exact .inr ⟨hqos, .inr hnext⟩
  | done hist hqos hnext hf =>
    obtain rfl := Option.some.inj hout
    exact .inr ⟨hqos, .inr hnext⟩

/-- There is a new connection. -/
theorem Sound.reconnect (h : Sound clean l) (rcs : Bool → List (Completion Unit)) :
    Sound clean (l.reconnect clean rcs) := by
  cases clean with
  | true =>
    refine ⟨fun _ => List.nodup_nil, fun _ => List.nodup_nil, fun d i => ?_⟩
    have hnil : ∀ e, retries (rcs e) [] = [] := by
      intro e
      cases rcs e <;> rfl
    have hv := (h.phase d i).forget
    have hview : (l.reconnect true rcs).view d i =
        { l.view d i with out := none, inb := none, fwd := [], bwd := [] } := by
      refine View.ext rfl rfl ?_ ?_ rfl rfl rfl
      · exact congrArg (tokens true i) (hnil d)
      · exact congrArg (tokens false i) (hnil !d)
    rw [hview]
    exact hv
  | false =>
    have hpublished : ∀ e, ∀ m ∈ (l.ends e).outboundMsgs, Published m := by
      intro e m hm
      exact published_of_phase (h.phase e m.msgid) (Keyed.find_of_mem (h.outbound e) hm)
    refine ⟨h.outbound, h.inbound, fun d i => ?_⟩
    have htokens := fun e => tokens_retries (rcs e) i (hpublished e) (h.outbound e)
    have hview : (l.reconnect false rcs).view d i = { l.view d i with
        fwd := tokens true i (retries (rcs d) (l.ends d).outboundMsgs), bwd := [] } :=
      View.ext rfl rfl rfl (htokens !d).1 rfl rfl rfl
    rw [hview]
    exact (h.phase d i).retry (htokens d).2

theorem lists_update {c : Clients} (hc : c.outboundMsgs = (l.ends e).outboundMsgs ∧
    c.inboundMsgs = (l.ends e).inboundMsgs) (d : Bool) :
    (Function.update l.ends e c d).outboundMsgs = (l.ends d).outboundMsgs ∧
      (Function.update l.ends e c d).inboundMsgs = (l.ends d).inboundMsgs := by
  by_cases hd : d = e
  · rw [hd, Function.update_self]
    exact hc
  · rw [Function.update_of_ne hd]
    exact ⟨rfl, rfl⟩

/-- The lists of messages have not changed. -/
theorem Sound.congr (h : Sound clean l)
    (hlists : ∀ e, (l'.ends e).outboundMsgs = (l.ends e).outboundMsgs ∧
      (l'.ends e).inboundMsgs = (l.ends e).inboundMsgs)
    (hchannels : l'.channels = l.channels) (hstarted : l'.started = l.started)
    (hprocessed : l'.processed = l.processed) (hcompleted : l'.completed = l.completed) :
    Sound clean l' := by
  refine ⟨fun d => ?_, fun d => ?_, fun d i => ?_⟩
  · rw [(hlists d).1]
    exact h.outbound d
  · rw [(hlists d).2]
    exact h.inbound d
  · have hview : l'.view d i = l.view d i := by
      rw [view, (hlists d).1, (hlists !d).2, hchannels, hstarted, hprocessed, hcompleted, view]
    rw [hview]
    exact h.phase d i

theorem Sound.step {a : Action} (h : Sound clean l) (hl : l.step clean a = some l') :
    Sound clean l' := by
  cases a with
  | publish e m env =>
    rw [Link.step] at hl
    split_ifs at hl with hm
    obtain rfl := Option.some.inj hl
    exact h.publish hm.1 (Option.isNone_iff_eq_none.1 hm.2)
  | receive e env =>
    rw [Link.step] at hl
    cases hch : l.channels !e with
    | nil => rw [hch] at hl; cases hl
    | cons p rest =>
      rw [hch] at hl
      obtain rfl := Option.some.inj hl
      exact h.receive hch
  | deliver e taken =>
    obtain rfl := Option.some.inj hl
    exact h.congr (lists_update (deliverQueued_lists (l.ends e) taken)) rfl rfl rfl rfl
  | connected e connected =>
    obtain rfl := Option.some.inj hl
    exact h.congr (lists_update ⟨rfl, rfl⟩) rfl rfl rfl rfl
  | reconnect rcs =>
    obtain rfl := Option.some.inj hl
    exact h.reconnect rcs

theorem reachable_link_sound (hl : (link clean).Reachable l) : Sound clean l := by
  refine hl.invariant ?_ fun _ _ _ _ h hstep => h.step hstep
  rintro _ rfl
  exact sound_start

end Link

namespace Link

variable {clean : Bool} {l : Link}

/-- Of the messages that are published with quality 2, each is processed at most
    once, in order; and a message that was acknowledged has been processed. -/
theorem qos_guarantees (hl : (link clean).Reachable l) (d : Bool) (i : ℕ) :
    (twos (l.processed d i)).Sublist (twos (l.started d i)) ∧
      (l.completed d i).Sublist (l.processed d i) :=
  ((reachable_link_sound hl).phase d i).guarantees

/-- Unless the sessions are clean, a message is kept until it is acknowledged. The
    messages of quality 2 are processed in order, each exactly once: those that were
    acknowledged have been, and those that have not been are still kept. -/
theorem kept_or_completed (hl : (link false).Reachable l) (d : Bool) (i : ℕ) :
    l.started d i = l.completed d i ++
        ((findMsg i (l.ends d).outboundMsgs).map Messages.content).toList ∧
      twos (l.completed d i) <+: twos (l.processed d i) ∧
      twos (l.processed d i) <+: twos (l.started d i) :=
  ((reachable_link_sound hl).phase d i).kept

/-- Nothing goes wrong. -/
def fine : Surroundings := ⟨true, .complete (), true⟩

/-- A message of quality 2 arrives, the acknowledgement is lost with the connection,
    and the message is sent again. -/
def sentTwice : List Action :=
  [.publish false ⟨7, 2, false, none, [0x61], [0x01]⟩ fine, .receive true fine,
    .reconnect fun _ => [.complete ()], .receive true fine, .receive false fine,
    .receive true fine, .receive false fine]

theorem qos_guarantees_sentTwice : ∃ l, (link false).exec start sentTwice = some l ∧
    l.processed false 7 = [⟨2, false, [0x61], [0x01]⟩] ∧
      (twos (l.processed false 7)).Sublist (twos (l.started false 7)) ∧
      (l.completed false 7).Sublist (l.processed false 7) := by
  have hexec : ((link false).exec start sentTwice).map (fun l => l.processed false 7) =
      some [⟨2, false, [0x61], [0x01]⟩] := by decide +kernel
  obtain ⟨l, hl, hprocessed⟩ := Option.map_eq_some_iff.1 hexec
  exact ⟨l, hl, hprocessed, qos_guarantees (Machine.reachable_of_exec rfl hl) false 7⟩

theorem kept_or_completed_lost : ∃ l,
    (link false).exec start (sentTwice.take 2 ++ [.reconnect fun _ => []]) = some l ∧
      l.channels false = [] ∧ l.channels true = [] ∧ l.completed false 7 = [] ∧
      l.started false 7 = l.completed false 7 ++
        ((findMsg 7 (l.ends false).outboundMsgs).map Messages.content).toList := by
  have hexec : ((link false).exec start (sentTwice.take 2 ++ [.reconnect fun _ => []])).map
      (fun l => (l.channels false, l.channels true, l.completed false 7)) = some ([], [], []) := by
    decide +kernel
  obtain ⟨l, hl, hlost⟩ := Option.map_eq_some_iff.1 hexec
  obtain ⟨hthere, hlost⟩ := Prod.mk.inj hlost
  obtain ⟨hback, hcompleted⟩ := Prod.mk.inj hlost
  exact ⟨l, hl, hthere, hback, hcompleted,
    (kept_or_completed (Machine.reachable_of_exec rfl hl) false 7).1⟩

end Link

end Cmqtt
