import Cmqtt.Paho.Exchange
import Cmqtt.Paho.Orderly

/-!
# What becomes of requests

The ordinary requests of a client, in any run of the library:

* `started_in_order`: they are started in the order in which they were accepted,
  whatever the other clients do;
* `inflight_le`: the messages that are not yet acknowledged are never more than the
  application allows;
* `finished_once_iff`: the application is called back at most once for each, and none is
  lost (each waits in the list, or for its response, or the application has been called
  back for it) if and only if no step of the run drops one;
* `identifiers_distinct_iff`: no two of those that wait or are being made ever have the
  same identifier, so that a response is taken for the request it answers, if and only
  if no call is given the identifier of another one that is under way.

As long as identifiers are different, messages are published as `Link` asks for
(`Distinct.publish_link`).
-/

namespace Cmqtt

open SocketBuffer MQTTPacket MQTTProtocol

namespace Library

variable {s s' : Library} {i j : ℕ} {opts : ℕ → ClientOptions} {a : Action}

/-! ## Requests in order -/

/-- One message may wait for its acknowledgement. -/
def oneInflight : ℕ → ClientOptions := fun _ => ⟨4, true, 1⟩

/-- The sending thread takes a command. -/
def sending (rc : Completion Unit) : Action :=
  .processCommand ⟨fun _ => true, rc, .waitForConnack, 0, 0⟩

/-- The server sends a packet. -/
def answered (p : Pack) : Action := .receive 0 ⟨true, .complete (), true⟩ false 0 p

/-- The client connects. -/
def newConnection : List Action :=
  [.connect 0, .add ⟨0, some 0, .connect ⟨0, true⟩⟩ 0 0, sending (.complete ()),
    answered (.connack ⟨0x20⟩ 0 0)]

/-- Two topics. -/
def topicA : CString := ⟨[0x61], by decide⟩
def topicB : CString := ⟨[0x62], by decide⟩

/-- A message is sent that is not acknowledged. -/
def sentOnce (address : ℕ) : List Action :=
  [.send 0 topicA [0x01] 0 false, .add ⟨0, some 0, .publish topicA [0x01] 0 false⟩ address 0]

/-- A call to subscribe is given an identifier. -/
def subscribing (topic : CString) : List Action :=
  [.subscribe 0 [(topic, 1)], .assign ⟨0, none, .subscribe [(topic, 1)]⟩]

/-- The call puts its command into the list. -/
def subscribed (topic : CString) (msgid address : ℕ) : Action :=
  .add ⟨0, some msgid, .subscribe [(topic, 1)]⟩ address 0

/-- Three requests are made, and the second has to wait for the first. -/
def threeRequests : List Action :=
  newConnection ++ [.send 0 topicA [0x01] 1 false, .assign ⟨0, none, .publish topicA [0x01] 1 false⟩,
    .add ⟨0, some 1, .publish topicA [0x01] 1 false⟩ 1 0] ++
    subscribing topicB ++ [subscribed topicB 2 2] ++ sentOnce 3 ++
    [sending (.complete ()), sending (.complete ())]

/-- Requests are started in the order in which they were accepted. -/
theorem started_in_order (h : (library opts).Reachable s) (i : ℕ) :
    ordinary i s.started ++ ordinary i s.commands = ordinary i s.accepted :=
  (reachable_orderly h).order i

theorem started_in_order_waiting : ∃ s, (library oneInflight).exec start threeRequests = some s ∧
    s.started.map QueuedCommand.number = [1] ∧ s.commands.map QueuedCommand.number = [2, 3] ∧
      ordinary 0 s.started ++ ordinary 0 s.commands = ordinary 0 s.accepted := by
  have hexec : ((library oneInflight).exec start threeRequests).map (fun s =>
      (s.started.map QueuedCommand.number, s.commands.map QueuedCommand.number)) =
        some ([1], [2, 3]) := by decide +kernel
  obtain ⟨s, hs, hnumbers⟩ := Option.map_eq_some_iff.1 hexec
  obtain ⟨hstarted, hcommands⟩ := Prod.mk.inj hnumbers
  exact ⟨s, hs, hstarted, hcommands, started_in_order (Machine.reachable_of_exec rfl hs) 0⟩

/-- The messages that are not acknowledged are never more than the application allows,
    and there is always an identifier left for another. -/
theorem inflight_le (h : (library opts).Reachable s) (i : ℕ) :
    (s.clients i).c.outboundMsgs.length ≤ (opts i).maxInflight ∧
      (s.clients i).c.outboundMsgs.length < MQTTAsync.maxMsgId := by
  have hinflight := (reachable_orderly h).inflight i
  have hmax : 0 < MQTTAsync.maxMsgId := by decide
  omega

theorem inflight_le_full : ∃ s, (library oneInflight).exec start threeRequests = some s ∧
    (s.clients 0).c.outboundMsgs.length = 1 ∧
      (s.clients 0).c.outboundMsgs.length ≤ (oneInflight 0).maxInflight := by
  have hexec : ((library oneInflight).exec start threeRequests).map (fun s =>
      (s.clients 0).c.outboundMsgs.length) = some 1 := by decide +kernel
  obtain ⟨s, hs, hlength⟩ := Option.map_eq_some_iff.1 hexec
  exact ⟨s, hs, hlength, (inflight_le (Machine.reachable_of_exec rfl hs) 0).1⟩

/-! ## Requests that are lost -/

/-- What was started is held as long as no step drops a request. -/
theorem subset_held_iff {tr : List (Library × Action)} (h : (library opts).Run start tr s) (i : ℕ) :
    ordinary i s.started ⊆ s.held i ↔ ∀ p ∈ tr, p.1.drops i p.2 = false := by
  refine h.invariant (P := fun tr s => ordinary i s.started ⊆ s.held i ↔
    ∀ p ∈ tr, p.1.drops i p.2 = false) rfl ?_ fun tr t a u ht ih hstep => ?_
  · simp [start, ordinary]
  · have horderly := reachable_orderly ht
    rw [(horderly.accounted i).subset_iff (change_of_effect horderly (step_effect opts hstep) i), ih]
    simp [or_imp, forall_and]

/-- The application is called back for a request at most once, and each request waits to be
    sent, waits for its response, or is finished, if and only if no step of the run has
    dropped one. -/
theorem finished_once_iff {tr : List (Library × Action)} (h : (library opts).Run start tr s)
    (i : ℕ) : (s.accepted.map QueuedCommand.number).Nodup ∧
      Accounted (ordinary i s.accepted)
        (ordinary i s.commands ++ (s.clients i).responses ++ finished i s.calls) ∧
      ((ordinary i s.commands ++ (s.clients i).responses ++ finished i s.calls).Perm
          (ordinary i s.accepted) ↔ ∀ p ∈ tr, p.1.drops i p.2 = false) := by
  have horderly := reachable_orderly (h.reachable rfl)
  have haccounted := horderly.accounted i
  have hnodup : (ordinary i s.accepted).Nodup := (List.Nodup.of_map _ horderly.numbers).filter _
  have hsplit := hnodup
  rw [← horderly.order, List.nodup_append] at hsplit
  obtain ⟨-, hcommands, hdisjoint⟩ := hsplit
  have hall : Accounted (ordinary i s.accepted) (ordinary i s.commands ++ s.held i) := by
    refine ⟨List.nodup_append.2 ⟨hcommands, haccounted.nodup, fun c hc d hd => ?_⟩, ?_⟩
    · exact fun heq => hdisjoint d (haccounted.subset hd) c hc heq.symm
    · rw [← horderly.order]
      exact List.append_subset.2 ⟨List.subset_append_right _ _,
        List.Subset.trans haccounted.subset (List.subset_append_left _ _)⟩
  rw [List.append_assoc]
  refine ⟨horderly.numbers, hall, ?_⟩
  rw [← subset_held_iff h i]
  refine (hall.perm_iff hnodup).trans ?_
  rw [← horderly.order]
  refine ⟨fun hsub c hc => ?_, fun hsub => List.append_subset.2
    ⟨List.Subset.trans hsub (List.subset_append_right _ _), List.subset_append_left _ _⟩⟩
  obtain hmem | hmem := List.mem_append.1 (hsub (List.mem_append_left _ hc))
  · exact absurd rfl (hdisjoint c hc c hmem)
  · exact hmem

/-- A message was being written when the connection was lost. Its memory is used again, for
    a call to subscribe on the next connection, and the next write that is completed is
    taken for that of the message. -/
def addressReused : List Action :=
  newConnection ++ sentOnce 1 ++ [sending .interrupted, .readError 0 0, sending (.complete ())] ++
    newConnection ++ subscribing topicB ++
    [subscribed topicB 1 1, sending .interrupted, .writeComplete 0 1]

theorem finished_once_iff_addressReused :
    ∃ s, (library oneInflight).exec start addressReused = some s ∧
      s.accepted.map QueuedCommand.token = [0, 1] ∧ (s.clients 0).responses = [] ∧
      (finished 0 s.calls).map QueuedCommand.token = [0] ∧
      ¬(ordinary 0 s.commands ++ (s.clients 0).responses ++ finished 0 s.calls).Perm
        (ordinary 0 s.accepted) := by
  have hexec : ((library oneInflight).exec start addressReused).map (fun s =>
      (s.accepted.map QueuedCommand.token, (s.clients 0).responses,
        (finished 0 s.calls).map QueuedCommand.token)) = some ([0, 1], [], [0]) := by
    decide +kernel
  have hdrops : ((library oneInflight).trace start addressReused).any (fun p => p.1.drops 0 p.2) =
      true := by decide +kernel
  obtain ⟨s, hs, hstate⟩ := Option.map_eq_some_iff.1 hexec
  obtain ⟨haccepted, hstate⟩ := Prod.mk.inj hstate
  obtain ⟨hresponses, hfinished⟩ := Prod.mk.inj hstate
  refine ⟨s, hs, haccepted, hresponses, hfinished, fun hperm => ?_⟩
  have hnone := (finished_once_iff (Machine.run_of_exec hs) 0).2.2.1 hperm
  obtain ⟨p, hp, hdropped⟩ := List.any_eq_true.1 hdrops
  rw [hnone p hp] at hdropped
  cases hdropped

/-! ## Identifiers -/

/-- A response is found by its identifier. -/
theorem find_token {cmds : List QueuedCommand} {cmd : QueuedCommand}
    (h : ((cmds.map QueuedCommand.token).filter (· ≠ 0)).Nodup) (hcmd : cmd ∈ cmds)
    (hne : cmd.token ≠ 0) : cmds.find? (·.token == cmd.token) = some cmd := by
  induction cmds with
  | nil => cases hcmd
  | cons c cmds ih =>
    by_cases hc : c.token = cmd.token
    · rw [List.find?_cons_of_pos (by simpa using hc)]
      rw [List.map_cons, List.filter_cons_of_pos (by simpa [hc] using hne), List.nodup_cons] at h
      obtain rfl | hcmd := List.mem_cons.1 hcmd
      · rfl
      · refine absurd (List.mem_filter.2 ⟨List.mem_map.2 ⟨cmd, hcmd, hc.symm⟩, ?_⟩) h.1
        simpa [hc] using hne
    · rw [List.find?_cons_of_neg (by simpa using hc)]
      obtain rfl | hcmd := List.mem_cons.1 hcmd
      · exact absurd rfl hc
      · refine ih (h.sublist ?_) hcmd
        exact ((List.sublist_cons_self c cmds).map _).filter _

/-- The identifiers of a client are different, those that are reserved are not in use for a
    message, and a response is found for the request that has its identifier. -/
structure Distinct (s : Library) (i : ℕ) : Prop where
  nodup : (s.identifiers i).Nodup
  bounded : ∀ msgid ∈ s.identifiers i, msgid ≤ MQTTAsync.maxMsgId
  unused : ∀ msgid ∈ s.reserved i, msgid ∉ (s.clients i).c.outboundMsgs.map Messages.msgid
  found : ∀ cmd ∈ (s.clients i).responses, cmd.token ≠ 0 →
    (s.clients i).responses.find? (·.token == cmd.token) = some cmd

theorem Orderly.distinct (h : Orderly opts s) (hnodup : (s.identifiers i).Nodup)
    (hunused : ∀ msgid ∈ s.reserved i, msgid ∉ (s.clients i).c.outboundMsgs.map Messages.msgid) :
    s.Distinct i where
  nodup := hnodup
  bounded := h.bounded i
  unused := hunused
  found cmd hcmd hne := by
    rw [identifiers, List.nodup_append] at hnodup
    exact find_token hnodup.2.1 hcmd hne

theorem Distinct.shrinks (hd : s.Distinct i) (h' : Orderly opts s') (hs : s.Shrinks s') :
    s'.Distinct i := by
  refine h'.distinct (hd.nodup.sublist (hs.identifiers i)) fun msgid hmsgid hmem => ?_
  exact hd.unused msgid ((hs.reserved i).subset hmsgid) ((hs.clients i).outbound.subset hmem)

theorem ne_zero_of_mem_reserved {msgid : ℕ} (h : msgid ∈ s.reserved i) : msgid ≠ 0 := by
  obtain h | h := List.mem_append.1 h
  · simpa using (List.mem_filter.1 h).2
  · simpa using (List.mem_filter.1 h).2

theorem Distinct.started {ready : QueuedCommand → Bool} {cmd : QueuedCommand}
    {rest : List QueuedCommand} (hd : s.Distinct i) (h' : Orderly opts s')
    (htake : takeCommand ready [] s.commands = some (cmd, rest))
    (hcmd : cmd.request.isOrdinary = true)
    (hm : Moves cmd.client [cmd] cmd.ids
      { s with commands := rest, started := s.started ++ [cmd] } s') : s'.Distinct i := by
  obtain ⟨l, hperm, hsub⟩ := identifiers_take htake hcmd hm i
  refine h'.distinct (hperm.nodup_iff.1 (hd.nodup.sublist hsub)) fun msgid hmsgid hmem => ?_
  have hold := hd.unused msgid ((reserved_take htake hcmd hm i).subset hmsgid)
  by_cases hi : i = cmd.client
  · subst hi
    obtain hmem | hmem := List.mem_append.1 (hm.outbound.subset hmem)
    · exact hold hmem
    · -- No other request of the client has the identifier.
      have htoken := eq_token_of_mem_ids hmem
      have hne := ne_zero_of_mem_reserved hmsgid
      rw [htoken] at hmsgid hne
      obtain ⟨l', hperm', hsub'⟩ := reserved_take_self htake hcmd hm
      have hnodup := hperm'.nodup_iff.1 ((List.nodup_append.1 hd.nodup).1.sublist hsub')
      rw [List.filter_cons_of_pos (by simpa using hne), List.filter_nil, List.singleton_append,
        List.nodup_cons] at hnodup
      exact hnodup.1 hmsgid
  · exact hold ((hm.others i hi).outbound.subset hmem)

theorem Distinct.given_iff {d : Draft} {msgid : ℕ} (hd : s.Distinct i) (h : Orderly opts s)
    (hmem : d ∈ s.drafts) (hnone : d.msgid = none)
    (hassign : s.assignMsgId d.client = some msgid) (hne : msgid ≠ 0) :
    (s.give d msgid).Distinct i ↔ s.doubles i (.assign d) = false := by
  have hids := identifiers_give hmem hnone hne i
  have hreserved := reserved_give hmem hnone hne i
  obtain ⟨k, -, hk⟩ := clients_give s d msgid i
  have h' := h.given hmem hnone hassign hne
  by_cases hi : d.client = i
  · subst hi
    have hfree := (MQTTAsync.fresh_of_assignMsgId (h.msgID d.client) hassign hne).2
    have hdoubles : s.doubles d.client (.assign d) = false ↔ msgid ∉ s.identifiers d.client := by
      rw [mem_identifiers_iff hfree]
      simp [doubles, hassign]
    rw [if_pos rfl] at hids hreserved
    rw [hdoubles]
    refine ⟨fun hdistinct => ?_, fun hnew => h'.distinct ?_ fun n hn => ?_⟩
    · exact (List.nodup_cons.1 (hids.nodup_iff.1 hdistinct.nodup)).1
    · exact hids.nodup_iff.2 (List.nodup_cons.2 ⟨hnew, hd.nodup⟩)
    · rw [hk]
      obtain hn | hn := List.mem_append.1 (hreserved.subset hn)
      · exact List.mem_singleton.1 hn ▸ (inUse_eq_false hfree).2.1
      · exact hd.unused n hn
  · rw [if_neg hi] at hids hreserved
    refine ⟨fun _ => by simp [doubles, hi], fun _ => h'.distinct ?_ fun n hn => ?_⟩
    · exact hids.nodup_iff.2 hd.nodup
    · rw [hk]
      exact hd.unused n (hreserved.subset hn)

theorem Distinct.drafted {msgid : Option ℕ} {request : Request} (hd : s.Distinct i)
    (h' : Orderly opts (s.draft j msgid request)) (hmsgid : msgid = none ∨ msgid = some 0) :
    (s.draft j msgid request).Distinct i := by
  refine h'.distinct ?_ ?_
  · rw [identifiers_draft s j request hmsgid]
    exact hd.nodup
  · rw [reserved_draft s j request hmsgid]
    exact hd.unused

theorem Distinct.effect_iff (hd : s.Distinct i) (h : Orderly opts s) (he : Effect opts s a s') :
    s'.Distinct i ↔ s.doubles i a = false := by
  have h' := h.effect he
  cases he with
  | settles hs hdoubles _ => exact ⟨fun _ => hdoubles i, fun _ => hd.shrinks h' hs.toShrinks⟩
  | drafted hs hmsgid _ hdoubles _ =>
    refine ⟨fun _ => hdoubles i, fun _ => ?_⟩
    exact (hd.shrinks (h.shrinks hs.toShrinks h'.accounted) hs.toShrinks).drafted h' hmsgid
  | given hmem hnone hassign hne => exact hd.given_iff h hmem hnone hassign hne
  | @accepted d msgid address current hmem hmsgid hr =>
    refine ⟨fun _ => rfl, fun _ => h'.distinct ?_ fun n hn => ?_⟩
    · exact (identifiers_add hmem hmsgid hr address current i).nodup_iff.2 hd.nodup
    · have hclients : (s.add d msgid address current).clients = s.clients := by rw [add_eq hr]
      rw [hclients]
      exact hd.unused n ((reserved_add hmem hmsgid hr address current i).subset hn)
  | started htake hcmd hm => exact ⟨fun _ => rfl, fun _ => hd.started h' htake hcmd hm⟩
  | dropped hwritten hcmd =>
    exact ⟨fun _ => rfl, fun _ => hd.shrinks h' (Shrinks.writeComplete s _ _ hwritten hcmd).1⟩

/-- The identifiers of a client are different at any time of a run if and only if no call is
    given the identifier of another one that is under way. -/
theorem identifiers_distinct_iff {tr : List (Library × Action)}
    (h : (library opts).Run start tr s) (i : ℕ) :
    (∀ t ∈ tr.map Prod.fst ++ [s], t.Distinct i) ↔ ∀ p ∈ tr, p.1.doubles i p.2 = false := by
  refine h.invariant (P := fun tr s => (∀ t ∈ tr.map Prod.fst ++ [s], t.Distinct i) ↔
    ∀ p ∈ tr, p.1.doubles i p.2 = false) rfl ?_ fun tr t a u ht ih hstep => ?_
  · have hstart : start.Distinct i :=
      Orderly.distinct (orderly_start : Orderly opts start) List.nodup_nil (by simp [start])
    simpa using hstart
  · have horderly := reachable_orderly ht
    have heffect := step_effect opts hstep
    have hstates : (∀ x ∈ (tr ++ [(t, a)]).map Prod.fst ++ [u], x.Distinct i) ↔
        (∀ x ∈ tr.map Prod.fst ++ [t], x.Distinct i) ∧ u.Distinct i := by
      rw [List.map_append, List.map_singleton, List.forall_mem_append, List.forall_mem_singleton]
    rw [hstates, ih, List.forall_mem_append, List.forall_mem_singleton]
    refine and_congr_right fun hbefore => ?_
    have hdistinct := ih.2 hbefore t (List.mem_append_right _ (List.mem_singleton_self t))
    exact hdistinct.effect_iff horderly heffect

/-- The session is cleaned when one call has its identifier, which is then given to
    another one. -/
def cleanedBetween : List Action :=
  newConnection ++ subscribing topicA ++ [.readError 0 0, sending (.complete ())] ++
    newConnection ++ subscribing topicB ++ [subscribed topicA 1 1, subscribed topicB 1 2]

theorem identifiers_distinct_iff_cleanedBetween :
    ∃ s, (library oneInflight).exec start cleanedBetween = some s ∧ s.identifiers 0 = [1, 1] ∧
      ¬∀ t ∈ ((library oneInflight).trace start cleanedBetween).map Prod.fst ++ [s],
        t.Distinct 0 := by
  have hexec : ((library oneInflight).exec start cleanedBetween).map (fun s => s.identifiers 0) =
      some [1, 1] := by decide +kernel
  have hdoubles : ((library oneInflight).trace start cleanedBetween).any
      (fun p => p.1.doubles 0 p.2) = true := by decide +kernel
  obtain ⟨s, hs, hidentifiers⟩ := Option.map_eq_some_iff.1 hexec
  refine ⟨s, hs, hidentifiers, fun hdistinct => ?_⟩
  have hnone := (identifiers_distinct_iff (Machine.run_of_exec hs) 0).1 hdistinct
  obtain ⟨p, hp, hdoubled⟩ := List.any_eq_true.1 hdoubles
  rw [hnone p hp] at hdoubled
  cases hdoubled

/-! ## Messages that are published -/

theorem clients_failed (s : Library) (cmd : QueuedCommand) (env : Processing) :
    (s.failed cmd env).clients = s.clients := by
  rw [failed, call, disconnectInternal]
  split_ifs
  · rfl
  · rw [Library.queue, Library.addCommand]
    split_ifs <;> rfl

theorem startPublish_processPublish (s : Library) (cmd : QueuedCommand) (env : Processing)
    (m : Messages) : ((s.processPublish cmd env m).clients cmd.client).c =
      (startPublish (s.clients cmd.client).c ⟨true, env.rc, true⟩ m).client := by
  rw [processPublish]
  split_ifs
  · cases hrc : env.rc with
    | complete u => rw [call, clients_modify_self]
    | interrupted => rw [await, clients_modify_self, clients_modify_self, clients_modify_self]
    | socketError => rw [clients_failed, clients_modify_self, clients_modify_self]
  · rw [clients_failed, clients_modify_self]
  · rw [await, clients_modify_self, clients_modify_self]

/-- What the sending thread publishes is what an end of a `Link` may publish, and it changes
    the client as the end is changed. -/
theorem Distinct.publish_link {ready : QueuedCommand → Bool} {cmd : QueuedCommand}
    {rest : List QueuedCommand} {destinationName : CString} {payload : List UInt8} {qos : ℕ}
    {retained : Bool} (hd : s.Distinct cmd.client) (h : Orderly opts s)
    (htake : takeCommand ready [] s.commands = some (cmd, rest))
    (hrequest : cmd.request = .publish destinationName payload qos retained)
    (env : Processing) {l : Link} {e : Bool} (hl : l.ends e = (s.clients cmd.client).c)
    (clean : Bool) :
    let m := message cmd destinationName payload qos retained
    ∃ l', l.step clean (.publish e m ⟨true, env.rc, true⟩) = some l' ∧
      l'.ends e = ((s.processPublish cmd env m).clients cmd.client).c := by
  intro m
  have hordinary : cmd.request.isOrdinary = true := by rw [hrequest]; rfl
  have hmem : cmd ∈ ordinary cmd.client s.commands := by
    rw [ordinary_take htake hordinary, if_pos rfl]
    exact List.mem_cons_self
  have hvalid := h.valid cmd.client cmd hmem
  rw [hrequest] at hvalid
  have hfree : (findMsg m.msgid (l.ends e).outboundMsgs).isNone := by
    rw [hl, Option.isNone_iff_eq_none]
    refine Keyed.find_eq_none.2 fun x hx heq => ?_
    have hout : cmd.token ∈ (s.clients cmd.client).c.outboundMsgs.map Messages.msgid :=
      List.mem_map.2 ⟨x, hx, heq⟩
    by_cases hzero : cmd.token = 0
    · exact h.acknowledged cmd.client (hzero ▸ hout)
    · refine hd.unused cmd.token (List.mem_append_right _ ?_) hout
      exact List.mem_filter.2 ⟨List.mem_map.2 ⟨cmd, hmem, rfl⟩, by simpa using hzero⟩
  refine ⟨l.publish e m ⟨true, env.rc, true⟩, if_pos ⟨hvalid.1, hfree⟩, ?_⟩
  rw [startPublish_processPublish, ← hl]
  exact Function.update_self _ _ _

end Library

end Cmqtt
