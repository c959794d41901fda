import Cmqtt.Paho.Commands
import Cmqtt.Paho.Handling

/-!
# What is done with requests

Commands to subscribe, unsubscribe and publish are ordinary requests; they are
accepted when they are put into the list, started when they are taken from it, and
finished when the application is called back for them.

All but a few functions of the library neither accept nor start a request
(`Shrinks`). They only move requests from the responses of a client to those that
are finished (`Settles`), and take messages and identifiers out of use. A request
that is started comes to wait for its response or is finished at once (`Moves`), and
it is the first of its client in the list (`ordinary_take`).
-/

namespace Cmqtt

open SocketBuffer MQTTPacket MQTTProtocol

/-- The ordinary requests of a client among commands. -/
def ordinary (i : ℕ) (cmds : List QueuedCommand) : List QueuedCommand :=
  cmds.filter fun cmd => cmd.client == i && cmd.request.isOrdinary

/-- The command that a callback is about, if it is an ordinary one. -/
def Callback.command : Callback → Option QueuedCommand
  | finished cmd _ => some cmd
  | _ => none

/-- The requests of a client that are finished. -/
def finished (i : ℕ) (calls : List Callback) : List QueuedCommand :=
  (calls.filterMap Callback.command).filter (·.client == i)

/-- What a command puts among the messages that are not acknowledged. -/
def QueuedCommand.ids (cmd : QueuedCommand) : List ℕ :=
  match cmd.request with
  | .publish _ _ qos _ => if qos > 0 then [cmd.token] else []
  | _ => []

/-- Whether a request is to publish a message. -/
def Request.isPublish : Request → Bool
  | publish _ _ _ _ => true
  | _ => false

/-- A client gets rid of responses, messages and identifiers. -/
structure Async.Shrinks (a a' : Async) : Prop where
  responses : a'.responses.Sublist a.responses
  outbound : (a'.c.outboundMsgs.map Messages.msgid).Sublist (a.c.outboundMsgs.map Messages.msgid)
  msgID : a'.msgID ≤ a.msgID

theorem Async.Shrinks.refl (a : Async) : a.Shrinks a := ⟨.refl _, .refl _, le_rfl⟩

theorem Async.Shrinks.trans {a b c : Async} (h : a.Shrinks b) (h' : b.Shrinks c) : a.Shrinks c where
  responses := h'.responses.trans h.responses
  outbound := h'.outbound.trans h.outbound
  msgID := h'.msgID.trans h.msgID

theorem Async.Shrinks.length_le {a a' : Async} (h : a.Shrinks a') :
    a'.c.outboundMsgs.length ≤ a.c.outboundMsgs.length := by
  simpa using h.outbound.length_le

namespace Library

/-- Responses are kept with the client they belong to. -/
def Belongs (s : Library) : Prop := ∀ i, ∀ cmd ∈ (s.clients i).responses, cmd.client = i

/-- The requests of a client that wait for their response or are finished. -/
def held (s : Library) (i : ℕ) : List QueuedCommand :=
  (s.clients i).responses ++ finished i s.calls

/-- No request is accepted or started. -/
structure Shrinks (s s' : Library) : Prop where
  accepted : s'.accepted = s.accepted
  started : s'.started = s.started
  numbers : s.numbers ≤ s'.numbers
  drafts : s'.drafts.Sublist s.drafts
  queued : ∀ i, ordinary i s'.commands = ordinary i s.commands
  clients : ∀ i, (s.clients i).Shrinks (s'.clients i)

/-- No request is accepted or started; some may be finished. -/
structure Settles (s s' : Library) : Prop extends Shrinks s s' where
  ledger : s.Belongs → ∀ i, (s'.held i).Perm (s.held i)

variable {s s' s'' : Library} {i : ℕ}

theorem Shrinks.refl (s : Library) : s.Shrinks s :=
  ⟨rfl, rfl, le_rfl, .refl _, fun _ => rfl, fun _ => .refl _⟩

theorem Shrinks.call (s : Library) (cb : Callback) : s.Shrinks (s.call cb) :=
  ⟨rfl, rfl, le_rfl, .refl _, fun _ => rfl, fun _ => .refl _⟩

theorem Shrinks.belongs (h : s.Shrinks s') (hb : s.Belongs) : s'.Belongs :=
  fun i cmd hcmd => hb i cmd ((h.clients i).responses.subset hcmd)

theorem Shrinks.trans (h : s.Shrinks s') (h' : s'.Shrinks s'') : s.Shrinks s'' where
  accepted := h'.accepted.trans h.accepted
  started := h'.started.trans h.started
  numbers := h.numbers.trans h'.numbers
  drafts := h'.drafts.trans h.drafts
  queued i := (h'.queued i).trans (h.queued i)
  clients i := (h.clients i).trans (h'.clients i)

theorem Settles.refl (s : Library) : s.Settles s := ⟨.refl s, fun _ _ => .refl _⟩

theorem Settles.trans (h : s.Settles s') (h' : s'.Settles s'') : s.Settles s'' :=
  ⟨h.toShrinks.trans h'.toShrinks,
    fun hb i => (h'.ledger (h.belongs hb) i).trans (h.ledger hb i)⟩

theorem clients_modify_self (s : Library) (i : ℕ) (f : Async → Async) :
    (s.modify i f).clients i = f (s.clients i) := Function.update_self _ _ _

theorem clients_modify_of_ne {j : ℕ} (s : Library) (f : Async → Async) (h : j ≠ i) :
    (s.modify i f).clients j = s.clients j := Function.update_of_ne h _ _

theorem Shrinks.modify {f : Async → Async} (h : (s.clients i).Shrinks (f (s.clients i))) :
    s.Shrinks (s.modify i f) where
  accepted := rfl
  started := rfl
  numbers := le_rfl
  drafts := .refl _
  queued _ := rfl
  clients j := by
    by_cases hj : j = i
    · rw [hj, clients_modify_self]
      exact h
    · rw [clients_modify_of_ne s f hj]
      exact .refl _

theorem held_modify {f : Async → Async}
    (hr : (f (s.clients i)).responses = (s.clients i).responses) (j : ℕ) :
    (s.modify i f).held j = s.held j := by
  rw [held, held]
  by_cases hj : j = i
  · rw [hj, clients_modify_self, hr]
    rfl
  · rw [clients_modify_of_ne s f hj]
    rfl

/-- A client changes, but for its responses. -/
theorem Settles.modify {f : Async → Async} (h : (s.clients i).Shrinks (f (s.clients i)))
    (hr : (f (s.clients i)).responses = (s.clients i).responses) : s.Settles (s.modify i f) where
  toShrinks := .modify h
  ledger _ j := by
    rw [held_modify hr]

/-- The application is told of something else. -/
theorem Settles.call {cb : Callback} (h : cb.command = none) : s.Settles (s.call cb) where
  toShrinks := .call s cb
  ledger _ i := by
    have hcalls : finished i (s.call cb).calls = finished i s.calls := by
      simp [finished, Library.call, h]
    rw [held, hcalls]
    exact .refl _

theorem ordinary_removeItem (cmd : QueuedCommand) (current : ℕ) (cmds : List QueuedCommand) :
    ordinary i (removeItem cmd current cmds) = ordinary i cmds := by
  have herase : ∀ p : QueuedCommand → Bool, (∀ c, p c = true → c.request.isOrdinary = false) →
      ordinary i (cmds.eraseP p) = ordinary i cmds := by
    intro p hp
    obtain heq | ⟨c, l₁, l₂, -, hc, hcmds, heq⟩ := List.exists_or_eq_self_of_eraseP p cmds
    · rw [heq]
    · rw [heq, hcmds]
      simp [ordinary, hp c hc]
  have hsame : ∀ c : QueuedCommand, c.request.isSame cmd.request = true →
      c.request.isOrdinary = false := by
    intro c hc
    revert hc
    cases c.request <;> cases cmd.request <;> simp [Request.isSame, Request.isOrdinary]
  rw [removeItem]
  split_ifs
  · refine herase _ fun c hc => hsame c ?_
    simp only [Bool.and_eq_true] at hc
    exact hc.1.2
  · refine herase _ fun c hc => hsame c ?_
    simp only [Bool.and_eq_true] at hc
    exact hc.2

/-- A command to connect or disconnect is added. -/
theorem Settles.addCommand {cmd : QueuedCommand} (h : cmd.request.isOrdinary = false)
    (current : ℕ) : s.Settles (s.addCommand cmd current) := by
  have hcmds : (s.addCommand cmd current).commands = s.commands ∨
      (s.addCommand cmd current).commands = cmd :: removeItem cmd current s.commands ∨
      (s.addCommand cmd current).commands = s.commands ++ [cmd] := by
    rw [Library.addCommand]
    split_ifs
    · exact .inl rfl
    · exact .inr (.inl rfl)
    · exact .inr (.inr rfl)
  have hrest : s.addCommand cmd current =
      { s with commands := (s.addCommand cmd current).commands } := by
    rw [Library.addCommand]
    split_ifs <;> rfl
  rw [hrest]
  refine ⟨⟨rfl, rfl, le_rfl, .refl _, fun i => ?_, fun _ => .refl _⟩, fun _ _ => .refl _⟩
  obtain heq | heq | heq := hcmds
  · rw [heq]
  · rw [heq]
    refine Eq.trans ?_ (ordinary_removeItem cmd current s.commands)
    simp [ordinary, h]
  · rw [heq]
    simp [ordinary, h]

theorem Settles.queue {request : Request} (h : request.isOrdinary = false)
    (token address current : ℕ) : s.Settles (s.queue i token address request current) := by
  have hnumbers : s.Settles { s with numbers := s.numbers + 1 } :=
    ⟨⟨rfl, rfl, Nat.le_succ _, .refl _, fun _ => rfl, fun _ => .refl _⟩, fun _ _ => .refl _⟩
  exact hnumbers.trans (.addCommand h current)

theorem Settles.disconnectInternal (s : Library) (i current : ℕ) :
    s.Settles (s.disconnectInternal i current) := by
  rw [Library.disconnectInternal]
  split_ifs
  · exact .refl s
  · exact .queue rfl 0 0 current

theorem Settles.closeOnly (s : Library) (i : ℕ) : s.Settles (s.closeOnly i) :=
  .modify ⟨.refl _, .refl _, le_rfl⟩ rfl

theorem finished_append (calls calls' : List Callback) :
    finished i (calls ++ calls') = finished i calls ++ finished i calls' := by
  simp [finished]

theorem finished_map {cmds : List QueuedCommand} (outcome : QueuedCommand → Outcome) :
    finished i (cmds.map fun cmd => .finished cmd (outcome cmd)) = cmds.filter (·.client == i) := by
  induction cmds with
  | nil => rfl
  | cons cmd cmds ih =>
    rw [List.map_cons, ← List.singleton_append, finished_append, ih, List.filter_cons]
    simp only [finished, Callback.command, List.filterMap_cons, List.filterMap_nil]
    split_ifs with h
    · simp [h]
    · simp [h]

theorem finished_call (s : Library) (cmd : QueuedCommand) (outcome : Outcome) (j : ℕ) :
    finished j (s.call (.finished cmd outcome)).calls =
      finished j s.calls ++ if j = cmd.client then [cmd] else [] := by
  have hcalls : finished j (s.call (.finished cmd outcome)).calls =
      finished j s.calls ++ [cmd].filter (·.client == j) := by
    rw [← finished_map fun _ => outcome, ← finished_append]
    rfl
  rw [hcalls]
  by_cases hj : j = cmd.client
  · simp [hj]
  · simp [hj, Ne.symm hj]

/-- The responses of a client are finished. -/
theorem Settles.cleanSession (s : Library) (i : ℕ) : s.Settles (s.cleanSession i) := by
  refine ⟨⟨rfl, rfl, le_rfl, .refl _, fun _ => rfl, fun j => ?_⟩, fun hb j => ?_⟩
  · by_cases hj : j = i
    · subst hj
      rw [Library.cleanSession]
      simp only [clients_modify_self]
      exact ⟨List.nil_sublist _, List.nil_sublist _, Nat.zero_le _⟩
    · rw [Library.cleanSession]
      simp only [clients_modify_of_ne _ _ hj]
      exact .refl _
  · have hcalls : finished j (s.cleanSession i).calls =
        finished j s.calls ++ (s.clients i).responses.filter (·.client == j) := by
      rw [← finished_map, ← finished_append]
      rfl
    rw [held, held, hcalls]
    by_cases hj : j = i
    · subst hj
      have hall : (s.clients j).responses.filter (·.client == j) = (s.clients j).responses := by
        simpa [List.filter_eq_self] using hb j
      have hresponses : ((s.cleanSession j).clients j).responses = [] :=
        congrArg Async.responses (Function.update_self j _ s.clients)
      rw [hall, hresponses, List.nil_append]
      exact List.perm_append_comm
    · have hnone : (s.clients i).responses.filter (·.client == j) = [] := by
        rw [List.filter_eq_nil_iff]
        intro cmd hcmd
        simpa [hb i cmd hcmd] using Ne.symm hj
      have hclient : (s.cleanSession i).clients j = s.clients j := Function.update_of_ne hj _ _
      rw [hnone, List.append_nil, hclient]

theorem Settles.closeSession (opts : ℕ → ClientOptions) (s : Library) (i : ℕ) :
    s.Settles (s.closeSession opts i) := by
  rw [Library.closeSession]
  split_ifs
  · exact (Settles.closeOnly s i).trans (.cleanSession _ i)
  · exact .closeOnly s i

theorem Settles.checkDisconnect (opts : ℕ → ClientOptions) (s : Library) (i : ℕ) (internal : Bool)
    (timeout elapsed : ℕ) : s.Settles (s.checkDisconnect opts i internal timeout elapsed) := by
  rw [Library.checkDisconnect]
  split_ifs
  · exact (Settles.closeSession opts s i).trans (.call rfl)
  · exact .closeSession opts s i
  · exact (Settles.closeSession opts s i).trans (.call rfl)
  · exact .refl s

theorem Settles.nextOrClose (opts : ℕ → ClientOptions) (s : Library) (i : ℕ) (code : ℤ)
    (current : ℕ) : s.Settles (s.nextOrClose opts i code current) := by
  rw [Library.nextOrClose]
  split_ifs
  · exact (Settles.closeOnly s i).trans (.queue rfl 0 0 current)
  · exact (Settles.closeSession opts s i).trans (.call rfl)

theorem Settles.afterError (opts : ℕ → ClientOptions) (s : Library) (i current : ℕ) :
    s.Settles (s.afterError opts i current) :=
  (Settles.disconnectInternal s i current).trans (.nextOrClose opts _ i _ current)

theorem perm_cons_eraseP {α : Type*} {p : α → Bool} {l : List α} {a : α} (h : l.find? p = some a) :
    (a :: l.eraseP p).Perm l := by
  induction l with
  | nil => cases h
  | cons b l ih =>
    by_cases hb : p b = true
    · rw [List.find?_cons_of_pos hb] at h
      rw [List.eraseP_cons_of_pos hb, Option.some.inj h]
    · rw [List.find?_cons_of_neg hb] at h
      rw [List.eraseP_cons_of_neg hb]
      exact (List.Perm.swap b a _).trans ((ih h).cons b)

/-- A response is finished. -/
theorem Settles.finish {p : QueuedCommand → Bool} {cmd : QueuedCommand}
    (h : (s.clients i).responses.find? p = some cmd) (outcome : Outcome) :
    s.Settles ((s.modify i fun a => { a with responses := a.responses.eraseP p }).call
      (.finished cmd outcome)) := by
  set s' := (s.modify i fun a => { a with responses := a.responses.eraseP p }).call
    (.finished cmd outcome) with hs'
  have hself : s'.clients i = { s.clients i with responses := (s.clients i).responses.eraseP p } :=
    Function.update_self i _ s.clients
  have hothers : ∀ j ≠ i, s'.clients j = s.clients j := fun j hj => Function.update_of_ne hj _ _
  refine ⟨⟨rfl, rfl, le_rfl, .refl _, fun _ => rfl, fun j => ?_⟩, fun hb j => ?_⟩
  · by_cases hj : j = i
    · rw [hj, hself]
      exact ⟨List.eraseP_sublist, .refl _, le_rfl⟩
    · rw [hothers j hj]
      exact .refl _
  · have hcalls : finished j s'.calls = finished j s.calls ++ if j = cmd.client then [cmd] else [] :=
      finished_call _ cmd outcome j
    have hclient : cmd.client = i := hb i cmd (List.mem_of_find?_eq_some h)
    rw [held, held, hcalls, hclient]
    by_cases hj : j = i
    · rw [hj, hself, if_pos rfl]
      have hperm := perm_cons_eraseP h
      calc ((s.clients i).responses.eraseP p ++ (finished i s.calls ++ [cmd])).Perm
            (cmd :: ((s.clients i).responses.eraseP p ++ finished i s.calls)) := by
            rw [← List.append_assoc]
            exact List.perm_append_singleton _ _
        _ |>.Perm ((s.clients i).responses ++ finished i s.calls) := hperm.append_right _
    · rw [hothers j hj, if_neg hj, List.append_nil]

theorem Settles.finishToken (s : Library) (i msgid : ℕ) (outcome : Outcome) :
    s.Settles (s.finish i msgid outcome) := by
  rw [Library.finish]
  split
  next => exact .refl s
  next cmd h => exact .finish h outcome

theorem outbound_handle (c : Clients) (env : Surroundings) (p : Pack) :
    ((handle c env p).client.outboundMsgs.map Messages.msgid).Sublist
      (c.outboundMsgs.map Messages.msgid) := by
  have hacknowledge : ∀ m, ((acknowledge c m).client.outboundMsgs.map Messages.msgid).Sublist
      (c.outboundMsgs.map Messages.msgid) := fun m => List.eraseP_sublist.map _
  cases p with
  | publish q =>
    rw [show handle c env (.publish q) = handlePublishes c env q from rfl,
      (receives_handlePublishes c env q).outbound]
  | ack header i =>
    rw [handle]
    split
    · rw [handlePubacks]
      split
      · exact .refl _
      · split_ifs
        · exact .refl _
        · exact hacknowledge _
    · rw [handlePubrecs]
      split
      · exact .refl _
      · split_ifs
        · exact .refl _
        · exact .refl _
        · simp only
          rw [Keyed.map_update]
          exact fun _ => id
    · rw [(receives_handlePubrels c env header i).outbound]
    · rw [handlePubcomps]
      split
      · exact .refl _
      · split_ifs
        · exact .refl _
        · exact .refl _
        · exact hacknowledge _
    · exact .refl _
  | _ => exact .refl _

/-- A client changes only in what requests do not depend on. -/
theorem Settles.modify_rest {f : Async → Async}
    (hr : (f (s.clients i)).responses = (s.clients i).responses)
    (ho : (f (s.clients i)).c.outboundMsgs = (s.clients i).c.outboundMsgs)
    (hid : (f (s.clients i)).msgID = (s.clients i).msgID) : s.Settles (s.modify i f) := by
  refine .modify ⟨?_, ?_, hid.le⟩ hr
  · rw [hr]
  · rw [ho]

variable (opts : ℕ → ClientOptions)

theorem Settles.connectionUp (s : Library) (i : ℕ) (flags : UInt8) :
    s.Settles (s.connectionUp opts i flags) := by
  have hup : s.Settles (s.modify i fun a => { a with
      c := { a.c with connected := true }, connectState := .notInProgress }) :=
    .modify_rest rfl rfl rfl
  rw [Library.connectionUp]
  split_ifs
  · exact hup.trans (.cleanSession _ i)
  · exact hup

theorem Settles.completeConnection (s : Library) (i : ℕ) (flags : UInt8) (retryFails : Bool)
    (current : ℕ) : s.Settles (s.completeConnection opts i flags retryFails current) := by
  rw [Library.completeConnection]
  split_ifs
  · exact (Settles.connectionUp opts s i flags).trans (.disconnectInternal _ i current)
  · exact .connectionUp opts s i flags

theorem Settles.tellConnected (s : Library) (i : ℕ) : s.Settles (s.tellConnected i) := by
  have honce : s.Settles (s.modify i fun a =>
      { a with connect := { a.connect with onSuccess := false } }) := .modify_rest rfl rfl rfl
  rw [Library.tellConnected]
  split_ifs
  · exact honce.trans (.call rfl)
  · exact .refl s

theorem Settles.receiveConnack (s : Library) (i : ℕ) (flags rc : UInt8) (retryFails : Bool)
    (current : ℕ) : s.Settles (s.receiveConnack opts i flags rc retryFails current) := by
  rw [Library.receiveConnack]
  split_ifs
  · exact .nextOrClose opts s i _ current
  · exact .nextOrClose opts s i _ current
  · exact (Settles.completeConnection opts s i flags retryFails current).trans (.tellConnected _ i)

theorem Settles.acknowledged (s : Library) (i : ℕ) (p : Pack) : s.Settles (s.acknowledged i p) := by
  cases p with
  | ack header msgId =>
    rw [Library.acknowledged]
    split
    · exact .finishToken s i _ _
    · exact .finishToken s i _ _
    · exact .refl s
  | _ => exact .refl s

theorem Settles.receiveMessage (s : Library) (i : ℕ) (env : Surroundings) (p : Pack) :
    s.Settles (s.receiveMessage i env p) := by
  have hhandle : s.Settles (s.modify i fun a => { a with c := (handle a.c env p).client }) :=
    .modify ⟨.refl _, outbound_handle _ env p, le_rfl⟩ rfl
  exact hhandle.trans (.acknowledged _ i p)

theorem Settles.receive (s : Library) (i : ℕ) (env : Surroundings) (retryFails : Bool) (current : ℕ)
    (p : Pack) : s.Settles (s.receive opts i env retryFails current p) := by
  cases p with
  | connack header flags rc => exact .receiveConnack opts s i flags rc retryFails current
  | suback header msgId qoss => exact .finishToken s i msgId _
  | unsuback header msgId => exact .finishToken s i msgId _
  | publish q => exact .receiveMessage s i env (.publish q)
  | ack header msgId => exact .receiveMessage s i env (.ack header msgId)
  | headerOnly header => exact .receiveMessage s i env (.headerOnly header)

theorem find_of_written {cmd : QueuedCommand} (h : s.written i = some cmd) :
    (s.clients i).responses.find? (·.address == cmd.address) = some cmd := by
  obtain ⟨address, -, hfind⟩ := Option.bind_eq_some_iff.1 h
  have haddress : cmd.address = address := by simpa using List.find?_some hfind
  rw [haddress]
  exact hfind

/-- The message is found that was written. -/
theorem Settles.writeComplete (s : Library) (i : ℕ) (rc : ℤ)
    (h : ∀ cmd, s.written i = some cmd → cmd.request.isPublish = true) :
    s.Settles (s.writeComplete i rc) := by
  have hclear : s.Settles (s.modify i fun a => { a with pendingWrite := none }) :=
    .modify ⟨.refl _, .refl _, le_rfl⟩ rfl
  rw [Library.writeComplete]
  simp only
  split
  next => exact hclear
  next cmd hwritten =>
    have hfind : ((s.modify i fun a => { a with pendingWrite := none }).clients i).responses.find?
        (·.address == cmd.address) = some cmd := by
      rw [clients_modify_self]
      exact find_of_written hwritten
    have hpublish := h cmd hwritten
    cases hrequest : cmd.request with
    | publish d payload qos retained =>
      simp only
      split_ifs
      · exact hclear.trans (.finish hfind _)
      · exact hclear.trans (.finish hfind _)
      · exact hclear
    | _ =>
      rw [hrequest] at hpublish
      cases hpublish

/-- Another command is found, and is removed. -/
theorem Shrinks.writeComplete (s : Library) (i : ℕ) (rc : ℤ) {cmd : QueuedCommand}
    (hwritten : s.written i = some cmd) (h : cmd.request.isPublish = false) :
    s.Shrinks (s.writeComplete i rc) ∧ ((s.writeComplete i rc).clients i).responses =
        (s.clients i).responses.eraseP (·.address == cmd.address) ∧
      (∀ j ≠ i, (s.writeComplete i rc).clients j = s.clients j) ∧
        (s.writeComplete i rc).calls = s.calls := by
  have heq : s.writeComplete i rc = (s.modify i fun a => { a with pendingWrite := none }).modify i
      fun a => { a with responses := a.responses.eraseP (·.address == cmd.address) } := by
    rw [Library.writeComplete, hwritten]
    cases hrequest : cmd.request with
    | publish d payload qos retained =>
      rw [hrequest] at h
      cases h
    | _ => simp only [hrequest]
  rw [heq]
  refine ⟨?_, ?_, fun j hj => ?_, rfl⟩
  · have hclear : s.Shrinks (s.modify i fun a => { a with pendingWrite := none }) :=
      .modify ⟨.refl _, .refl _, le_rfl⟩
    exact hclear.trans (.modify ⟨List.eraseP_sublist, .refl _, le_rfl⟩)
  · rw [clients_modify_self, clients_modify_self]
  · rw [clients_modify_of_ne _ _ hj, clients_modify_of_ne _ _ hj]

theorem Settles.connecting (s : Library) (i : ℕ) (up : Bool) (current : ℕ) :
    s.Settles (s.connecting opts i up current) := by
  rw [Library.connecting]
  split_ifs
  · exact .modify_rest rfl rfl rfl
  · exact .nextOrClose opts s i _ current

theorem Settles.checkTimeouts (s : Library) (i : ℕ) (expired : Bool) (elapsed current : ℕ) :
    s.Settles (s.checkTimeouts opts i expired elapsed current) := by
  rw [Library.checkTimeouts]
  split_ifs
  · exact (Settles.checkDisconnect opts s i _ _ elapsed).trans (.nextOrClose opts _ i _ current)
  · exact .checkDisconnect opts s i _ _ elapsed
  · exact .nextOrClose opts s i _ current
  · exact .refl s

theorem Settles.processConnect (s : Library) (cmd : QueuedCommand) (env : Processing)
    (conn : Connect) : s.Settles (s.processConnect opts cmd env conn) := by
  rw [Library.processConnect]
  split_ifs
  · exact .modify_rest rfl rfl rfl
  · exact .modify_rest rfl rfl rfl
  · exact .addCommand rfl env.current
  · refine Settles.trans ?_ (.call rfl)
    exact .modify_rest rfl rfl rfl

theorem Settles.processDisconnect (s : Library) (cmd : QueuedCommand) (env : Processing)
    (internal : Bool) (timeout : ℕ) :
    s.Settles (s.processDisconnect opts cmd env internal timeout) := by
  rw [Library.processDisconnect]
  refine Settles.trans ?_ (.modify_rest rfl rfl rfl)
  split_ifs
  · refine Settles.trans ?_ (.checkDisconnect opts _ _ internal timeout env.elapsed)
    refine Settles.trans ?_ (.call rfl)
    exact .modify_rest rfl rfl rfl
  · exact .checkDisconnect opts s _ internal timeout env.elapsed
  · exact .refl s

/-! ## Commands that are taken -/

theorem takeCommand_eq_some {ready : QueuedCommand → Bool} {ignored : List ℕ}
    {cmds rest : List QueuedCommand} {cmd : QueuedCommand}
    (h : takeCommand ready ignored cmds = some (cmd, rest)) :
    ready cmd = true ∧ cmd.client ∉ ignored ∧ ∃ pre post, cmds = pre ++ cmd :: post ∧
      rest = pre ++ post ∧ ∀ c ∈ pre, c.client ≠ cmd.client := by
  induction cmds generalizing ignored rest with
  | nil => cases h
  | cons c cmds ih =>
    rw [takeCommand] at h
    split_ifs at h with hignored hready
    · -- The command is passed over, because one before it was.
      obtain ⟨⟨cmd', rest'⟩, htake, heq⟩ := Option.map_eq_some_iff.1 h
      obtain ⟨rfl, rfl⟩ := Prod.mk.inj heq
      obtain ⟨hr, hni, pre, post, rfl, rfl, hpre⟩ := ih htake
      refine ⟨hr, hni, c :: pre, post, rfl, rfl, fun d hd => ?_⟩
      obtain rfl | hd := List.mem_cons.1 hd
      · exact fun heq => hni (heq ▸ hignored)
      · exact hpre d hd
    · obtain ⟨rfl, rfl⟩ := Prod.mk.inj (Option.some.inj h)
      exact ⟨hready, hignored, [], cmds, rfl, rfl, by simp⟩
    · obtain ⟨⟨cmd', rest'⟩, htake, heq⟩ := Option.map_eq_some_iff.1 h
      obtain ⟨rfl, rfl⟩ := Prod.mk.inj heq
      obtain ⟨hr, hni, pre, post, rfl, rfl, hpre⟩ := ih htake
      obtain ⟨hc, hni⟩ := not_or.1 (fun hmem => hni (List.mem_cons.2 hmem))
      refine ⟨hr, hni, c :: pre, post, rfl, rfl, fun d hd => ?_⟩
      obtain rfl | hd := List.mem_cons.1 hd
      · exact fun heq => hc heq.symm
      · exact hpre d hd

/-- The first ordinary request of its client has been taken. -/
theorem ordinary_take {ready : QueuedCommand → Bool} {cmds rest : List QueuedCommand}
    {cmd : QueuedCommand} (h : takeCommand ready [] cmds = some (cmd, rest))
    (hcmd : cmd.request.isOrdinary = true) (i : ℕ) :
    ordinary i cmds = if i = cmd.client then cmd :: ordinary i rest else ordinary i rest := by
  obtain ⟨-, -, pre, post, rfl, rfl, hpre⟩ := takeCommand_eq_some h
  rw [ordinary, ordinary, List.filter_append, List.filter_append, List.filter_cons]
  split_ifs with hcond hi hi
  · have hnil : pre.filter (fun c => c.client == i && c.request.isOrdinary) = [] := by
      rw [List.filter_eq_nil_iff]
      intro c hc
      simp [hi, hpre c hc]
    rw [hnil]
    rfl
  · simp only [Bool.and_eq_true, beq_iff_eq] at hcond
    exact absurd hcond.1.symm hi
  · exact absurd (by simp [hi, hcmd]) hcond
  · rfl

theorem ordinary_take_of_false {ready : QueuedCommand → Bool} {cmds rest : List QueuedCommand}
    {cmd : QueuedCommand} (h : takeCommand ready [] cmds = some (cmd, rest))
    (hcmd : cmd.request.isOrdinary = false) (i : ℕ) : ordinary i rest = ordinary i cmds := by
  obtain ⟨-, -, pre, post, rfl, rfl, -⟩ := takeCommand_eq_some h
  simp [ordinary, hcmd]

/-- A command of a client is worked on: it may come to wait for its response or be
    finished (`new`), and be put among the messages that are not acknowledged (`ids`). -/
structure Moves (i : ℕ) (new : List QueuedCommand) (ids : List ℕ) (s s' : Library) : Prop where
  accepted : s'.accepted = s.accepted
  started : s'.started = s.started
  numbers : s.numbers ≤ s'.numbers
  drafts : s'.drafts.Sublist s.drafts
  queued : ∀ j, ordinary j s'.commands = ordinary j s.commands
  others : ∀ j ≠ i, (s.clients j).Shrinks (s'.clients j)
  responses : (s'.clients i).responses.Sublist ((s.clients i).responses ++ new)
  outbound : ((s'.clients i).c.outboundMsgs.map Messages.msgid).Sublist
    ((s.clients i).c.outboundMsgs.map Messages.msgid ++ ids)
  msgID : (s'.clients i).msgID ≤ (s.clients i).msgID
  ledger : s.Belongs → (∀ cmd ∈ new, cmd.client = i) → ∀ j,
    (s'.held j).Perm (s.held j ++ if j = i then new else [])

section

variable {new new' : List QueuedCommand} {ids ids' : List ℕ} {cmd : QueuedCommand}

theorem Settles.moves (h : s.Settles s') (i : ℕ) : Moves i [] [] s s' where
  accepted := h.accepted
  started := h.started
  numbers := h.numbers
  drafts := h.drafts
  queued := h.queued
  others j _ := h.clients j
  responses := by
    rw [List.append_nil]
    exact (h.clients i).responses
  outbound := by
    rw [List.append_nil]
    exact (h.clients i).outbound
  msgID := (h.clients i).msgID
  ledger hb _ j := by
    rw [ite_self, List.append_nil]
    exact h.ledger hb j

theorem Moves.belongs (h : Moves i new ids s s') (hb : s.Belongs)
    (hnew : ∀ cmd ∈ new, cmd.client = i) : s'.Belongs := by
  intro j cmd hcmd
  by_cases hj : j = i
  · rw [hj] at hcmd ⊢
    obtain hcmd | hcmd := List.mem_append.1 (h.responses.subset hcmd)
    · exact hb i cmd hcmd
    · exact hnew cmd hcmd
  · exact hb j cmd ((h.others j hj).responses.subset hcmd)

theorem Moves.trans (h : Moves i new ids s s') (h' : Moves i new' ids' s' s'') :
    Moves i (new ++ new') (ids ++ ids') s s'' where
  accepted := h'.accepted.trans h.accepted
  started := h'.started.trans h.started
  numbers := h.numbers.trans h'.numbers
  drafts := h'.drafts.trans h.drafts
  queued j := (h'.queued j).trans (h.queued j)
  others j hj := (h.others j hj).trans (h'.others j hj)
  responses := by
    rw [← List.append_assoc]
    exact h'.responses.trans (h.responses.append_right new')
  outbound := by
    rw [← List.append_assoc]
    exact h'.outbound.trans (h.outbound.append_right ids')
  msgID := h'.msgID.trans h.msgID
  ledger hb hnew j := by
    have hfirst : ∀ cmd ∈ new, cmd.client = i := fun c hc => hnew c (List.mem_append_left _ hc)
    have hl := h.ledger hb hfirst j
    have hl' := h'.ledger (h.belongs hb hfirst) (fun c hc => hnew c (List.mem_append_right _ hc)) j
    refine hl'.trans ((hl.append_right _).trans ?_)
    rw [List.append_assoc]
    split_ifs <;> exact .refl _

/-- The command waits for its response. -/
theorem moves_await (s : Library) (cmd : QueuedCommand) :
    Moves cmd.client [cmd] [] s (s.await cmd) := by
  have hself : (s.await cmd).clients cmd.client =
      { s.clients cmd.client with responses := (s.clients cmd.client).responses ++ [cmd] } :=
    Function.update_self _ _ _
  have hothers : ∀ j ≠ cmd.client, (s.await cmd).clients j = s.clients j :=
    fun j hj => Function.update_of_ne hj _ _
  refine ⟨rfl, rfl, le_rfl, .refl _, fun _ => rfl, fun j hj => ?_, ?_, ?_, ?_,
    fun _ _ j => ?_⟩
  · rw [hothers j hj]
    exact .refl _
  · rw [hself]
  · rw [hself, List.append_nil]
  · rw [hself]
  · rw [held, held]
    by_cases hj : j = cmd.client
    · rw [hj, hself, if_pos rfl, List.append_assoc, List.append_assoc]
      exact List.Perm.append_left _ List.perm_append_comm
    · rw [hothers j hj, if_neg hj, List.append_nil]
      exact .refl _

/-- The command is finished. -/
theorem moves_finished (s : Library) (cmd : QueuedCommand) (outcome : Outcome) :
    Moves cmd.client [cmd] [] s (s.call (.finished cmd outcome)) where
  accepted := rfl
  started := rfl
  numbers := le_rfl
  drafts := .refl _
  queued _ := rfl
  others _ _ := .refl _
  responses := List.sublist_append_left _ _
  outbound := by
    rw [List.append_nil]
    exact .refl _
  msgID := le_rfl
  ledger _ _ j := by
    rw [held, finished_call, ← List.append_assoc]
    exact .refl _

/-- A client changes, but for its responses. -/
theorem moves_modify {f : Async → Async}
    (hr : (f (s.clients i)).responses = (s.clients i).responses)
    (ho : ((f (s.clients i)).c.outboundMsgs.map Messages.msgid).Sublist
      ((s.clients i).c.outboundMsgs.map Messages.msgid ++ ids))
    (hid : (f (s.clients i)).msgID = (s.clients i).msgID) : Moves i [] ids s (s.modify i f) := by
  have hself := clients_modify_self s i f
  refine ⟨rfl, rfl, le_rfl, .refl _, fun _ => rfl, fun j hj => ?_, ?_, ?_, ?_,
    fun _ _ j => ?_⟩
  · rw [clients_modify_of_ne s f hj]
    exact .refl _
  · rw [hself, hr, List.append_nil]
  · rw [hself]
    exact ho
  · rw [hself, hid]
  · rw [ite_self, List.append_nil, held_modify hr]

theorem moves_failed (s : Library) (cmd : QueuedCommand) (env : Processing) :
    Moves cmd.client [cmd] [] s (s.failed cmd env) :=
  ((Settles.disconnectInternal s cmd.client env.current).moves cmd.client).trans
    (moves_finished _ cmd _)

theorem outbound_startPublish (c : Clients) (env : Surroundings) (m : Messages) :
    (startPublish c env m).client.outboundMsgs.map Messages.msgid =
      c.outboundMsgs.map Messages.msgid ++ if m.qos > 0 then [m.msgid] else [] := by
  by_cases hqos : m.qos > 0
  · rw [startPublish_of_pos c env hqos, if_pos hqos]
    simp [createMessage]
  · rw [startPublish_of_not_pos c env hqos, if_neg hqos, List.append_nil]
    rfl

theorem moves_processPublish (s : Library) (cmd : QueuedCommand) (env : Processing) (m : Messages) :
    Moves cmd.client [cmd] (if m.qos > 0 then [m.msgid] else []) s
      (s.processPublish cmd env m) := by
  have hstart : Moves cmd.client [] (if m.qos > 0 then [m.msgid] else []) s
      (s.modify cmd.client fun a =>
        { a with c := (startPublish a.c ⟨true, env.rc, true⟩ m).client }) := by
    refine moves_modify rfl ?_ rfl
    rw [outbound_startPublish]
  have hwrite : ∀ t : Library, Moves cmd.client [] [] t
      (t.modify cmd.client fun a => { a with pendingWrite := some cmd.address }) :=
    fun t => moves_modify rfl (by rw [List.append_nil]) rfl
  generalize (if m.qos > 0 then [m.msgid] else []) = xs at hstart ⊢
  rw [← List.append_nil xs, processPublish]
  split_ifs
  · cases hrc : env.rc with
    | complete u =>
      rw [hrc] at hstart
      exact hstart.trans (moves_finished _ cmd .success)
    | interrupted =>
      rw [hrc] at hstart
      exact hstart.trans ((moves_await _ cmd).trans (hwrite _))
    | socketError =>
      rw [hrc] at hstart
      exact hstart.trans ((hwrite _).trans (moves_failed _ cmd env))
  · exact hstart.trans (moves_failed _ cmd env)
  · exact hstart.trans (moves_await _ cmd)

theorem moves_execute (opts : ℕ → ClientOptions) (s : Library) (env : Processing)
    (hcmd : cmd.request.isOrdinary = true) :
    Moves cmd.client [cmd] cmd.ids s (s.execute opts cmd env) := by
  rw [QueuedCommand.ids, execute]
  cases hrequest : cmd.request with
  | connect conn => rw [hrequest] at hcmd; cases hcmd
  | disconnect internal timeout => rw [hrequest] at hcmd; cases hcmd
  | subscribe topics =>
    simp only
    split_ifs
    · exact moves_failed s cmd env
    · exact moves_await s cmd
  | unsubscribe topics =>
    simp only
    split_ifs
    · exact moves_failed s cmd env
    · exact moves_await s cmd
  | publish d payload qos retained =>
    exact moves_processPublish s cmd env (message cmd d payload qos retained)

end

end Library

end Cmqtt
