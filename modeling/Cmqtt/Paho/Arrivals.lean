import Cmqtt.Paho.Exchange

/-!
# The messages for the application

The messages that an end of a connection processes are given to the application
by calling it back. It may refuse a message, which is then given to it again by
the receiving thread; until it has been taken, the messages after it wait in a
queue.

`calls_in_order`: whatever the application answers, it takes the messages in the
order in which they were processed, each of them once, and it is never called back
with a message before it has taken all those before it.
-/

namespace Cmqtt

open SocketBuffer MQTTPacket MQTTProtocol

/-- What the application is given. -/
def Arrival.given (a : Arrival Message) : List UInt8 × Message := (a.topicName, a.msg)

/-- What the application is to be given of a message. -/
def Publish.given (p : Publish) : List UInt8 × Message := (p.topic, Clients.message p)

/-- What the application has taken. -/
def taken (calls : List (Arrival Message × Bool)) : List (List UInt8 × Message) :=
  (calls.filter (·.2)).map (·.1.given)

/-- The messages that were processed have been taken or are in the queue, and every
    call was for the first one that had not been taken. -/
structure InOrder (arrived : List Publish) (calls : List (Arrival Message × Bool))
    (queue : List (Arrival Message)) : Prop where
  account : taken calls ++ queue.map Arrival.given = arrived.map Publish.given
  next : ∀ pre c post, calls = pre ++ c :: post →
    (arrived.map Publish.given)[(taken pre).length]? = some c.1.given

section

variable {arrived : List Publish} {calls : List (Arrival Message × Bool)}
  {queue : List (Arrival Message)} {c : Arrival Message × Bool} {p : Publish} {b : Bool}

theorem taken_append (calls calls' : List (Arrival Message × Bool)) :
    taken (calls ++ calls') = taken calls ++ taken calls' := by simp [taken]

/-- One more message has been processed. -/
theorem InOrder.arrive (h : InOrder arrived calls queue) {a : Arrival Message}
    (ha : a.given = p.given) : InOrder (arrived ++ [p]) calls (queue ++ [a]) where
  account := by
    rw [List.map_append, List.map_append, ← List.append_assoc, h.account, List.map_singleton,
      List.map_singleton, ha]
  next pre c post hcalls := by
    have hnext := h.next pre c post hcalls
    obtain ⟨hlt, -⟩ := List.getElem?_eq_some_iff.1 hnext
    rw [List.map_append, List.getElem?_append_left hlt, hnext]

/-- One more call, for the first message of the queue. -/
theorem InOrder.call {a a' : Arrival Message} (h : InOrder arrived calls (a :: queue))
    (ha : a'.given = a.given) (b : Bool) :
    InOrder arrived (calls ++ [(a', b)]) (if b then queue else a :: queue) where
  account := by
    rw [taken_append, ← h.account]
    cases b <;> simp [taken, ha]
  next pre c post hcalls := by
    obtain hpost | ⟨post', d, hpost⟩ := List.eq_nil_or_concat post
    · rw [hpost] at hcalls
      obtain ⟨rfl, hc⟩ := List.append_inj' hcalls rfl
      obtain rfl := List.singleton_inj.1 hc
      rw [← h.account, List.getElem?_append_right le_rfl, Nat.sub_self]
      simp [ha]
    · rw [hpost, List.concat_eq_append, ← List.cons_append, ← List.append_assoc] at hcalls
      exact h.next pre c post' (List.append_inj' hcalls rfl).1

/-- A message is processed at an end whose queue is this one. -/
theorem InOrder.processPublication {c : Clients} (h : InOrder arrived calls c.messageQueue)
    (p : Publish) (b : Bool) :
    InOrder (arrived ++ [p]) (calls ++ (c.processPublication p b).2.map (·, b))
      (c.processPublication p b).1.messageQueue := by
  have harrive := h.arrive (a := ⟨p.topic, p.topic.length, Clients.message p⟩) rfl
  by_cases hdirect : (c.messageQueue.isEmpty && c.connected) = true
  · -- The queue is empty, so that the message is the next one.
    have hnil : c.messageQueue = [] := by
      rw [Bool.and_eq_true] at hdirect
      exact List.isEmpty_iff.1 hdirect.1
    rw [hnil, List.nil_append] at harrive
    have hcall := harrive.call rfl b
    rw [Clients.processPublication, if_pos hdirect]
    cases b <;> simpa [hnil] using hcall
  · rw [Clients.processPublication, if_neg hdirect]
    simpa using harrive

theorem InOrder.deliverQueued {c : Clients} (h : InOrder arrived calls c.messageQueue) (b : Bool) :
    InOrder arrived (calls ++ (c.deliverQueued b).2.map (·, b))
      (c.deliverQueued b).1.messageQueue := by
  rw [Clients.deliverQueued]
  cases hqueue : c.messageQueue with
  | nil => simpa [hqueue] using h
  | cons entry rest =>
    rw [hqueue] at h
    let entry' : Arrival Message := { entry with
      topicLen := if entry.topic.bytes.length = entry.topicLen then 0 else entry.topicLen }
    have hcall := h.call (show entry'.given = entry.given from rfl) b
    cases b with
    | true => exact hcall
    | false => simpa [hqueue] using hcall

end

/-- What has been done with a packet is in order. -/
def KeepsOrder (c : Clients) (b : Bool) (h : Handled) : Prop :=
  ∀ arrived calls, InOrder arrived calls c.messageQueue →
    InOrder (arrived ++ h.published) (calls ++ h.calls.map (·, b)) h.client.messageQueue

section

variable {c : Clients} {b : Bool} {h : Handled}

/-- Nothing was processed. -/
theorem KeepsOrder.quiet (hpublished : h.published = []) (hcalls : h.calls = [])
    (hqueue : h.client.messageQueue = c.messageQueue) : KeepsOrder c b h := by
  intro arrived calls hin
  rw [hpublished, hcalls, hqueue, List.append_nil, List.map_nil, List.append_nil]
  exact hin

theorem KeepsOrder.ignore (c : Clients) (b : Bool) (rc : Completion Unit) :
    KeepsOrder c b (c.ignore rc) :=
  .quiet rfl rfl rfl

theorem keepsOrder_answer {c' : Clients} (hqueue : c'.messageQueue = c.messageQueue)
    (env : Surroundings) (ack : Option Pack) (p : Publish) :
    KeepsOrder c env.taken (answer c' env ack p) := by
  intro arrived calls hin
  rw [← hqueue] at hin
  cases ack <;> exact hin.processPublication p env.taken

theorem keepsOrder_handlePublishes (c : Clients) (env : Surroundings) (p : Publish) :
    KeepsOrder c env.taken (handlePublishes c env p) := by
  rw [handlePublishes]
  split_ifs
  · exact keepsOrder_answer rfl env _ p
  · exact .ignore c _ _
  · exact keepsOrder_answer rfl env _ p
  · exact .quiet rfl rfl rfl
  · exact .ignore c _ _

theorem keepsOrder_handlePubrels (c : Clients) (env : Surroundings) (header : Header) (i : ℕ) :
    KeepsOrder c env.taken (handlePubrels c env header i) := by
  rw [handlePubrels]
  cases findMsg i c.inboundMsgs with
  | none =>
    simp only
    split_ifs
    · exact .ignore c _ _
    · exact .ignore c _ _
    · exact .quiet rfl rfl rfl
  | some m =>
    simp only
    split_ifs
    · exact .ignore c _ _
    · exact .ignore c _ _
    · exact .ignore c _ _
    · refine keepsOrder_answer ?_ env _ _
      rfl

theorem keepsOrder_handlePubacks (c : Clients) (b : Bool) (i : ℕ) :
    KeepsOrder c b (handlePubacks c i) := by
  rw [handlePubacks]
  cases findMsg i c.outboundMsgs with
  | none => exact .ignore c _ _
  | some m =>
    simp only
    split_ifs
    · exact .ignore c _ _
    · exact .quiet rfl rfl rfl

theorem keepsOrder_handlePubrecs (c : Clients) (env : Surroundings) (b : Bool) (i : ℕ) :
    KeepsOrder c b (handlePubrecs c env i) := by
  rw [handlePubrecs]
  cases findMsg i c.outboundMsgs with
  | none => exact .ignore c _ _
  | some m =>
    simp only
    split_ifs
    · exact .ignore c _ _
    · exact .ignore c _ _
    · exact .quiet rfl rfl rfl

theorem keepsOrder_handlePubcomps (c : Clients) (b : Bool) (i : ℕ) :
    KeepsOrder c b (handlePubcomps c i) := by
  rw [handlePubcomps]
  cases findMsg i c.outboundMsgs with
  | none => exact .ignore c _ _
  | some m =>
    simp only
    split_ifs
    · exact .ignore c _ _
    · exact .ignore c _ _
    · exact .quiet rfl rfl rfl

theorem keepsOrder_handle (c : Clients) (env : Surroundings) (p : Pack) :
    KeepsOrder c env.taken (handle c env p) := by
  cases p with
  | publish q => exact keepsOrder_handlePublishes c env q
  | ack header i =>
    rw [handle]
    cases MsgType.ofCode header.type with
    | none => exact .ignore c _ _
    | some t =>
      cases t with
      | puback => exact keepsOrder_handlePubacks c _ i
      | pubrec => exact keepsOrder_handlePubrecs c env _ i
      | pubrel => exact keepsOrder_handlePubrels c env header i
      | pubcomp => exact keepsOrder_handlePubcomps c _ i
      | _ => exact .ignore c _ _
  | _ => exact .ignore c _ _

theorem startPublish_queue (c : Clients) (env : Surroundings) (m : Messages) :
    (startPublish c env m).client.messageQueue = c.messageQueue := by
  rw [startPublish]
  split_ifs <;> rfl

end

namespace Link

/-- The application at both ends is called back in order. -/
def CallsInOrder (l : Link) : Prop :=
  ∀ e, InOrder (l.arrived e) (l.calls e) (l.ends e).messageQueue

variable {l l' : Link} {e : Bool} {clean : Bool}

theorem CallsInOrder.update {c : Clients} (published : List Publish)
    (calls : List (Arrival Message × Bool)) (h : CallsInOrder l)
    (hc : InOrder (l.arrived e ++ published) (l.calls e ++ calls) c.messageQueue)
    (hends : l'.ends = Function.update l.ends e c)
    (harrived : l'.arrived = Function.update l.arrived e (l.arrived e ++ published))
    (hcalls : l'.calls = Function.update l.calls e (l.calls e ++ calls)) : CallsInOrder l' := by
  intro d
  rw [hends, harrived, hcalls]
  by_cases hd : d = e
  · rw [hd, Function.update_self, Function.update_self, Function.update_self]
    exact hc
  · rw [Function.update_of_ne hd, Function.update_of_ne hd, Function.update_of_ne hd]
    exact h d

/-- The queue of an end has not changed. -/
theorem CallsInOrder.same {c : Clients} (h : CallsInOrder l)
    (hqueue : c.messageQueue = (l.ends e).messageQueue)
    (hends : l'.ends = Function.update l.ends e c) (harrived : l'.arrived = l.arrived)
    (hcalls : l'.calls = l.calls) : CallsInOrder l' := by
  refine h.update [] [] ?_ hends ?_ ?_
  · rw [List.append_nil, List.append_nil, hqueue]
    exact h e
  · rw [List.append_nil, Function.update_eq_self, harrived]
  · rw [List.append_nil, Function.update_eq_self, hcalls]

theorem CallsInOrder.step {a : Action} (h : CallsInOrder l) (hl : l.step clean a = some l') :
    CallsInOrder l' := by
  cases a with
  | publish e m env =>
    rw [Link.step] at hl
    split_ifs at hl
    obtain rfl := Option.some.inj hl
    exact h.same (startPublish_queue (l.ends e) env m) rfl rfl rfl
  | receive e env =>
    rw [Link.step] at hl
    cases hch : l.channels !e with
    | nil => rw [hch] at hl; cases hl
    | cons p rest =>
      rw [hch] at hl
      obtain rfl := Option.some.inj hl
      exact h.update _ _ (keepsOrder_handle (l.ends e) env p _ _ (h e)) rfl rfl rfl
  | deliver e taken =>
    obtain rfl := Option.some.inj hl
    refine h.update [] _ ?_ rfl ?_ rfl
    · rw [List.append_nil]
      exact (h e).deliverQueued taken
    · rw [List.append_nil, Function.update_eq_self]
      rfl
  | connected e connected =>
    obtain rfl := Option.some.inj hl
    exact h.same (e := e) (c := { l.ends e with connected := connected }) rfl rfl rfl rfl
  | reconnect rcs =>
    obtain rfl := Option.some.inj hl
    intro e
    have hqueue : (cleanSession clean (l.ends e)).messageQueue = (l.ends e).messageQueue := by
      cases clean <;> rfl
    rw [show (l.reconnect clean rcs).ends e = cleanSession clean (l.ends e) from rfl, hqueue]
    exact h e

/-- What the application has taken and what waits in the queue are the messages that
    were processed, in order; and every call is for the first one not yet taken. -/
theorem calls_in_order (hl : (link clean).Reachable l) (e : Bool) :
    taken (l.calls e) ++ (l.ends e).messageQueue.map Arrival.given =
        (l.arrived e).map Publish.given ∧
      ∀ pre c post, l.calls e = pre ++ c :: post →
        ((l.arrived e).map Publish.given)[(taken pre).length]? = some c.1.given := by
  have h : CallsInOrder l := by
    refine hl.invariant ?_ fun _ _ _ _ h hstep => h.step hstep
    rintro _ rfl e
    exact ⟨rfl, by simp [start]⟩
  exact ⟨(h e).account, (h e).next⟩

/-- Two messages arrive; the application refuses the first one twice. -/
def refused : List Action :=
  [.publish false ⟨1, 0, false, none, [0x61], [0x01]⟩ fine,
    .publish false ⟨1, 1, false, none, [0x61], [0x02]⟩ fine,
    .receive true { fine with taken := false }, .receive true fine,
    .deliver true false, .deliver true true, .deliver true true]

theorem calls_in_order_refused : ∃ l, (link false).exec start refused = some l ∧
    (l.calls true).map (·.2) = [false, false, true, true] ∧
    (l.calls true).map (·.1.msg.payload) = [[0x01], [0x01], [0x01], [0x02]] ∧
    taken (l.calls true) ++ (l.ends true).messageQueue.map Arrival.given =
      (l.arrived true).map Publish.given := by
  have hexec : ((link false).exec start refused).map
      (fun l => ((l.calls true).map (·.2), (l.calls true).map (·.1.msg.payload))) =
        some ([false, false, true, true], [[0x01], [0x01], [0x01], [0x02]]) := by
    decide +kernel
  obtain ⟨l, hl, hcalls⟩ := Option.map_eq_some_iff.1 hexec
  obtain ⟨hanswers, hpayloads⟩ := Prod.mk.inj hcalls
  exact ⟨l, hl, hanswers, hpayloads,
    (calls_in_order (Machine.reachable_of_exec rfl hl) true).1⟩

end Link

end Cmqtt
