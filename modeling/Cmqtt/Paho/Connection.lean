import Cmqtt.Paho.Requests

/-!
# What the application is told of its connections

A program that is told that a client is connected relies on being told when it no
longer is. `told_connected`: in any run of the library, as long as the last
callback about a connection is that it was made, the client is connected, or the
library is at work on a connection, or it has been asked for one and has not
looked at that yet.

What matters of a client is its `Line`. An end of a connection is followed by a
callback, but for one that another version of the protocol is tried after; then
a command to connect is added before anything else is done. Of a connection
that is being ended (`ConnectState.disconnecting`), the application was told
before, and never again that it was made.
-/

namespace Cmqtt

open SocketBuffer MQTTPacket MQTTProtocol

/-- The client whose connection a callback is about. -/
def Callback.about : Callback → Option ℕ
  | connected i | connectFailed i _ | connectionLost i | disconnected i => some i
  | finished _ _ => none

/-- Whether a command is to connect a client. -/
def QueuedCommand.connects (cmd : QueuedCommand) (i : ℕ) : Bool :=
  cmd.client == i && match cmd.request with
    | .connect _ => true
    | _ => false

/-- A connection, as the library and the application see it. -/
structure Line where
  connected : Bool
  connectState : ConnectState
  /-- Whether there is a command to connect. -/
  asked : Bool
  /-- The last callback about the connection. -/
  last : Option Callback

/-- The connection has ended. -/
def Line.closed (l : Line) : Line :=
  { l with connected := false, connectState := .notInProgress }

/-- The application is not left with a connection that has ended. -/
structure Line.Informed (i : ℕ) (l : Line) : Prop where
  connected : l.connected = true → l.connectState = .notInProgress
  disconnecting : l.connectState = .disconnecting → l.last ≠ some (.connected i)
  told : l.last = some (.connected i) →
    l.connected = true ∨ l.connectState ≠ .notInProgress ∨ l.asked = true

namespace Library

/-- The connection of a client. -/
def line (s : Library) (i : ℕ) : Line where
  connected := (s.clients i).c.connected
  connectState := (s.clients i).connectState
  asked := s.commands.any (·.connects i)
  last := (s.calls.filter (·.about == some i)).getLast?

/-- The application is informed of all connections. -/
def Informed (s : Library) : Prop := ∀ i, (s.line i).Informed i

variable {s s' : Library} {i : ℕ}

/-- Connections are as they were. -/
def SameLines (s s' : Library) : Prop := ∀ j, s'.line j = s.line j

theorem Informed.same (h : s.Informed) (hs : SameLines s s') : s'.Informed :=
  fun j => hs j ▸ h j

theorem SameLines.trans {s'' : Library} (h : SameLines s s') (h' : SameLines s' s'') :
    SameLines s s'' := fun j => (h' j).trans (h j)

theorem line_congr (hconnected : (s'.clients i).c.connected = (s.clients i).c.connected)
    (hstate : (s'.clients i).connectState = (s.clients i).connectState)
    (hcommands : s'.commands = s.commands) (hcalls : s'.calls = s.calls) :
    s'.line i = s.line i := by
  rw [line, line, hconnected, hstate, hcommands, hcalls]

/-- A client changes in something else. -/
theorem sameLines_modify {f : Async → Async}
    (hconnected : (f (s.clients i)).c.connected = (s.clients i).c.connected)
    (hstate : (f (s.clients i)).connectState = (s.clients i).connectState) :
    SameLines s (s.modify i f) := by
  intro j
  refine line_congr ?_ ?_ rfl rfl
  · by_cases hj : j = i
    · rw [hj, clients_modify_self, hconnected]
    · rw [clients_modify_of_ne s f hj]
  · by_cases hj : j = i
    · rw [hj, clients_modify_self, hstate]
    · rw [clients_modify_of_ne s f hj]

theorem line_modify_of_ne {j : ℕ} (s : Library) (f : Async → Async) (h : j ≠ i) :
    (s.modify i f).line j = s.line j := by
  refine line_congr ?_ ?_ rfl rfl
  · rw [clients_modify_of_ne s f h]
  · rw [clients_modify_of_ne s f h]

theorem line_call_self (s : Library) {cb : Callback} (h : cb.about = some i) :
    (s.call cb).line i = { s.line i with last := some cb } := by
  rw [line, line, call]
  simp [h]

theorem line_call_of_ne (s : Library) {cb : Callback} {j : ℕ} (h : cb.about = some i) (hj : j ≠ i) :
    (s.call cb).line j = s.line j := by
  rw [line, line, call]
  simp [h, Ne.symm hj]

/-- Callbacks about requests say nothing of connections. -/
theorem sameLines_finished (s : Library) (calls : List Callback)
    (h : ∀ cb ∈ calls, cb.about = none) :
    SameLines s { s with calls := s.calls ++ calls } := by
  intro j
  have hnone : calls.filter (·.about == some j) = [] := by
    rw [List.filter_eq_nil_iff]
    intro cb hcb
    simp [h cb hcb]
  rw [line, line]
  simp only [List.filter_append, hnone, List.append_nil]

theorem sameLines_call (s : Library) {cb : Callback} (h : cb.about = none) :
    SameLines s (s.call cb) := sameLines_finished s [cb] (by simpa using h)

/-! ## Commands -/

theorem any_eraseP_connects (p : QueuedCommand → Bool) (j : ℕ) (cmds : List QueuedCommand)
    (hp : ∀ c, p c = true → c.connects j = false) :
    (cmds.eraseP p).any (·.connects j) = cmds.any (·.connects j) := by
  obtain heq | ⟨c, l₁, l₂, -, hc, hcmds, heq⟩ := List.exists_or_eq_self_of_eraseP p cmds
  · rw [heq]
  · rw [heq, hcmds]
    simp [hp c hc]

theorem any_removeItem {cmd : QueuedCommand} {j : ℕ} (current : ℕ) (cmds : List QueuedCommand)
    (h : cmd.connects j = false) :
    (removeItem cmd current cmds).any (·.connects j) = cmds.any (·.connects j) := by
  -- A command to connect is removed only for another one of the same client.
  have hsame : ∀ c : QueuedCommand, c.client = cmd.client → c.request.isSame cmd.request = true →
      c.connects j = false := by
    intro c hclient hc
    rw [QueuedCommand.connects] at h ⊢
    rw [hclient]
    revert h hc
    cases c.request <;> cases cmd.request <;> simp [Request.isSame]
  rw [removeItem]
  split_ifs
  · refine any_eraseP_connects _ j cmds fun c hc => ?_
    simp only [Bool.and_eq_true, beq_iff_eq] at hc
    exact hsame c hc.1.1 hc.1.2
  · refine any_eraseP_connects _ j cmds fun c hc => ?_
    simp only [Bool.and_eq_true, beq_iff_eq] at hc
    exact hsame c hc.1 hc.2

theorem asked_addCommand (s : Library) (cmd : QueuedCommand) (current j : ℕ) :
    (s.addCommand cmd current).commands.any (·.connects j) =
      (s.commands.any (·.connects j) || cmd.connects j) := by
  cases hconnects : cmd.connects j with
  | false =>
    rw [addCommand]
    split_ifs
    · rw [Bool.or_false]
    · simp only [List.any_cons, hconnects, Bool.false_or, Bool.or_false]
      exact any_removeItem current s.commands hconnects
    · simp [hconnects]
  | true =>
    rw [Bool.or_true, addCommand]
    split_ifs with hfirst hhead
    · -- There is one at the head of the list.
      cases hcmds : s.commands with
      | nil => simp [hcmds] at hhead
      | cons head rest =>
        rw [hcmds] at hhead
        simp only [List.head?_cons, Option.any_some, Bool.and_eq_true, beq_iff_eq] at hhead
        rw [List.any_cons, Bool.or_eq_true]
        refine .inl ?_
        obtain ⟨hclient, hsame⟩ := hhead
        rw [QueuedCommand.connects] at hconnects ⊢
        rw [hclient]
        revert hsame hconnects
        cases head.request <;> cases cmd.request <;> simp [Request.isSame]
    · simp [hconnects]
    · simp [hconnects]

theorem addCommand_rest (s : Library) (cmd : QueuedCommand) (current : ℕ) :
    (s.addCommand cmd current).clients = s.clients ∧ (s.addCommand cmd current).calls = s.calls := by
  rw [addCommand]
  split_ifs <;> exact ⟨rfl, rfl⟩

theorem line_addCommand (s : Library) (cmd : QueuedCommand) (current j : ℕ) :
    (s.addCommand cmd current).line j =
      { s.line j with asked := (s.line j).asked || cmd.connects j } := by
  obtain ⟨hclients, hcalls⟩ := addCommand_rest s cmd current
  rw [line, line, hclients, hcalls, asked_addCommand]

theorem line_queue (s : Library) (i token address : ℕ) (request : Request) (current j : ℕ) :
    (s.queue i token address request current).line j =
      { s.line j with asked := (s.line j).asked ||
        (QueuedCommand.connects ⟨s.numbers, address, i, token, request⟩ j) } :=
  line_addCommand { s with numbers := s.numbers + 1 } _ current j

theorem Informed.addCommand (h : s.Informed) (cmd : QueuedCommand) (current : ℕ) :
    (s.addCommand cmd current).Informed := by
  intro j
  rw [line_addCommand]
  refine ⟨(h j).connected, (h j).disconnecting, fun hlast => ?_⟩
  obtain hconnected | hstate | hasked := (h j).told hlast
  · exact .inl hconnected
  · exact .inr (.inl hstate)
  · exact .inr (.inr (by simp [hasked]))

theorem Informed.queue (h : s.Informed) (i token address : ℕ) (request : Request)
    (current : ℕ) : (s.queue i token address request current).Informed := by
  have hnumbers : Informed { s with numbers := s.numbers + 1 } := h
  exact hnumbers.addCommand _ current

theorem Informed.disconnectInternal (h : s.Informed) (i current : ℕ) :
    (s.disconnectInternal i current).Informed := by
  rw [Library.disconnectInternal]
  split_ifs
  · exact h
  · exact h.queue i 0 0 _ current

theorem Informed.add (h : s.Informed) (d : Draft) (msgid address current : ℕ) :
    (s.add d msgid address current).Informed := by
  rw [Library.add]
  refine Informed.queue (h.same fun _ => ?_) _ _ _ _ _
  rfl

theorem Informed.assign {d : Draft} (h : s.Informed) (hs : s.assign d = some s') : s'.Informed := by
  obtain ⟨msgid, -, rfl⟩ := Option.map_eq_some_iff.1 hs
  split_ifs
  · exact h
  · have hid : SameLines s (s.modify d.client fun a => { a with msgID := msgid }) :=
      sameLines_modify rfl rfl
    exact h.same hid

/-! ## Ends of connections -/

theorem sameLines_cleanSession (s : Library) (i : ℕ) : SameLines s (s.cleanSession i) := by
  have hclient : SameLines s (s.modify i fun a => { a with
      c := { a.c with inboundMsgs := [], outboundMsgs := [] }, msgID := 0, responses := [] }) :=
    sameLines_modify rfl rfl
  refine hclient.trans (sameLines_finished _ _ fun cb hcb => ?_)
  obtain ⟨cmd, -, rfl⟩ := List.mem_map.1 hcb
  rfl

theorem line_closeOnly (s : Library) (i j : ℕ) :
    (s.closeOnly i).line j = if j = i then (s.line j).closed else s.line j := by
  split_ifs with h
  · subst h
    rw [line, closeOnly, clients_modify_self]
    rfl
  · exact line_modify_of_ne s _ h

theorem line_closeSession (opts : ℕ → ClientOptions) (s : Library) (i j : ℕ) :
    (s.closeSession opts i).line j = if j = i then (s.line j).closed else s.line j := by
  rw [closeSession]
  split_ifs with hclean hj hj
  · rw [sameLines_cleanSession, line_closeOnly, if_pos hj]
  · rw [sameLines_cleanSession, line_closeOnly, if_neg hj]
  · rw [line_closeOnly, if_pos hj]
  · rw [line_closeOnly, if_neg hj]

/-- The application is told that a connection has ended. -/
theorem Informed.lost (opts : ℕ → ClientOptions) (h : s.Informed) {cb : Callback}
    (habout : cb.about = some i) (hcb : cb ≠ .connected i) :
    ((s.closeSession opts i).call cb).Informed := by
  intro j
  by_cases hj : j = i
  · subst hj
    rw [line_call_self _ habout, line_closeSession, if_pos rfl]
    refine ⟨fun hconnected => (by cases hconnected), fun hstate => (by cases hstate), fun hlast => ?_⟩
    exact absurd (Option.some.inj hlast) hcb
  · rw [line_call_of_ne _ habout hj, line_closeSession, if_neg hj]
    exact h j

theorem Informed.checkDisconnect (opts : ℕ → ClientOptions) (h : s.Informed) (i : ℕ)
    (internal : Bool) (timeout elapsed : ℕ)
    (hlast : (s.clients i).c.connected = true ∨ (s.line i).last ≠ some (.connected i)) :
    (s.checkDisconnect opts i internal timeout elapsed).Informed := by
  rw [Library.checkDisconnect]
  split_ifs with htime hinternal hconnected
  · exact h.lost opts rfl (by simp)
  · -- There was no connection.
    intro j
    rw [line_closeSession]
    split_ifs with hj
    · subst hj
      refine ⟨fun hc => (by cases hc), fun hc => (by cases hc), fun hc => ?_⟩
      exact absurd hc (hlast.resolve_left hconnected)
    · exact h j
  · exact h.lost opts rfl (by simp)
  · exact h

theorem Informed.nextOrClose (opts : ℕ → ClientOptions) (h : s.Informed) (i : ℕ) (code : ℤ)
    (current : ℕ) : (s.nextOrClose opts i code current).Informed := by
  rw [Library.nextOrClose]
  split_ifs
  · -- Another version is tried.
    intro j
    rw [line_queue, line_closeOnly]
    by_cases hj : j = i
    · rw [if_pos hj]
      refine ⟨fun hc => (by cases hc), fun hc => (by cases hc), fun _ => .inr (.inr ?_)⟩
      simp [QueuedCommand.connects, hj]
    · rw [if_neg hj]
      have hother : QueuedCommand.connects ⟨s.numbers, 0, i, 0, .connect (s.clients i).connect⟩ j =
          false := by
        simpa [QueuedCommand.connects] using Ne.symm hj
      have hj' := h j
      rw [show (s.closeOnly i).numbers = s.numbers from rfl, hother, Bool.or_false]
      exact hj'
  · exact h.lost opts rfl (by simp)

theorem Informed.afterError (opts : ℕ → ClientOptions) (h : s.Informed) (i current : ℕ) :
    (s.afterError opts i current).Informed :=
  (h.disconnectInternal i current).nextOrClose opts i socketError current

/-! ## Connections that are made -/

theorem line_connectionUp (opts : ℕ → ClientOptions) (s : Library) (i : ℕ) (flags : UInt8) (j : ℕ) :
    (s.connectionUp opts i flags).line j =
      if j = i then { s.line j with connected := true, connectState := .notInProgress }
      else s.line j := by
  have hup : (s.modify i fun a => { a with
      c := { a.c with connected := true }, connectState := .notInProgress }).line j =
      if j = i then { s.line j with connected := true, connectState := .notInProgress }
      else s.line j := by
    split_ifs with h
    · subst h
      rw [line, clients_modify_self]
      rfl
    · exact line_modify_of_ne s _ h
  rw [connectionUp]
  split_ifs with hclean hj hj
  · rw [sameLines_cleanSession, hup, if_pos hj]
  · rw [sameLines_cleanSession, hup, if_neg hj]
  · rw [hup, if_pos hj]
  · rw [hup, if_neg hj]

theorem Informed.connectionUp (opts : ℕ → ClientOptions) (h : s.Informed) (i : ℕ) (flags : UInt8) :
    (s.connectionUp opts i flags).Informed := by
  intro j
  rw [line_connectionUp]
  split_ifs
  · exact ⟨fun _ => rfl, fun hc => (by cases hc), fun _ => .inl rfl⟩
  · exact h j

theorem clients_disconnectInternal (s : Library) (i current : ℕ) :
    (s.disconnectInternal i current).clients = s.clients := by
  rw [disconnectInternal]
  split_ifs
  · rfl
  · exact (addCommand_rest _ _ current).1

/-- The application is told only of connections there are. -/
theorem Informed.tellConnected (h : s.Informed) (hup : (s.clients i).c.connected = true) :
    (s.tellConnected i).Informed := by
  have honce : SameLines s (s.modify i fun a =>
      { a with connect := { a.connect with onSuccess := false } }) := sameLines_modify rfl rfl
  rw [Library.tellConnected]
  split_ifs
  · intro j
    by_cases hj : j = i
    · subst hj
      have hstate : (s.line j).connectState = .notInProgress := (h j).connected hup
      rw [line_call_self _ rfl, honce j]
      refine ⟨fun _ => hstate, fun hc => ?_, fun _ => .inl hup⟩
      rw [hstate] at hc
      cases hc
    · rw [line_call_of_ne _ rfl hj, honce j]
      exact h j
  · exact h

theorem Informed.receiveConnack (opts : ℕ → ClientOptions) (h : s.Informed) (i : ℕ)
    (flags rc : UInt8) (retryFails : Bool) (current : ℕ) :
    (s.receiveConnack opts i flags rc retryFails current).Informed := by
  have hup := h.connectionUp opts i flags
  have hconnected : ((s.connectionUp opts i flags).clients i).c.connected = true := by
    have hline := line_connectionUp opts s i flags i
    rw [if_pos rfl] at hline
    exact congrArg Line.connected hline
  rw [Library.receiveConnack]
  split_ifs
  · exact h.nextOrClose opts i _ current
  · exact h.nextOrClose opts i _ current
  · rw [completeConnection]
    split_ifs
    · refine (hup.disconnectInternal i current).tellConnected ?_
      rw [clients_disconnectInternal]
      exact hconnected
    · exact hup.tellConnected hconnected

/-! ## Packets -/

theorem connected_answer (c : Clients) (env : Surroundings) (ack : Option Pack) (q : Publish) :
    (answer c env ack q).client.connected = c.connected := by
  have hprocess : (c.processPublication q env.taken).1.connected = c.connected := by
    rw [Clients.processPublication]
    split_ifs <;> rfl
  rw [answer]
  cases ack with
  | none => exact hprocess
  | some _ => exact hprocess

theorem connected_handle (c : Clients) (env : Surroundings) (p : Pack) :
    (handle c env p).client.connected = c.connected := by
  cases p with
  | publish q =>
    rw [handle, handlePublishes]
    split_ifs
    · exact connected_answer c env _ q
    · rfl
    · exact connected_answer c env _ q
    · rfl
    · rfl
  | ack header msgId =>
    rw [handle]
    split
    · rw [handlePubacks]
      split
      · rfl
      · split_ifs <;> rfl
    · rw [handlePubrecs]
      split
      · rfl
      · split_ifs <;> rfl
    · rw [handlePubrels]
      split
      · split_ifs <;> rfl
      · split_ifs
        · rfl
        · rfl
        · rfl
        · exact connected_answer { c with inboundMsgs := _ } env _ _
    · rw [handlePubcomps]
      split
      · rfl
      · split_ifs <;> rfl
    · rfl
  | _ => rfl

theorem sameLines_finish (s : Library) (i msgid : ℕ) (outcome : Outcome) :
    SameLines s (s.finish i msgid outcome) := by
  rw [finish]
  split
  next => exact fun _ => rfl
  next cmd h =>
    have hresponses : SameLines s (s.modify i fun a =>
        { a with responses := a.responses.eraseP (·.token == msgid) }) := sameLines_modify rfl rfl
    exact hresponses.trans (sameLines_call _ rfl)

theorem sameLines_acknowledged (s : Library) (i : ℕ) (p : Pack) :
    SameLines s (s.acknowledged i p) := by
  cases p with
  | ack header msgId =>
    rw [acknowledged]
    split
    · exact sameLines_finish s i _ _
    · exact sameLines_finish s i _ _
    · exact fun _ => rfl
  | _ => exact fun _ => rfl

theorem sameLines_receiveMessage (s : Library) (i : ℕ) (env : Surroundings) (p : Pack) :
    SameLines s (s.receiveMessage i env p) := by
  have hhandle : SameLines s (s.modify i fun a => { a with c := (handle a.c env p).client }) :=
    sameLines_modify (connected_handle _ env p) rfl
  exact hhandle.trans (sameLines_acknowledged _ i p)

theorem Informed.receive (opts : ℕ → ClientOptions) (h : s.Informed) (i : ℕ) (env : Surroundings)
    (retryFails : Bool) (current : ℕ) (p : Pack) :
    (s.receive opts i env retryFails current p).Informed := by
  cases p with
  | connack header flags rc => exact h.receiveConnack opts i flags rc retryFails current
  | suback header msgId qoss => exact h.same (sameLines_finish s i msgId _)
  | unsuback header msgId => exact h.same (sameLines_finish s i msgId _)
  | publish q => exact h.same (sameLines_receiveMessage s i env (.publish q))
  | ack header msgId => exact h.same (sameLines_receiveMessage s i env (.ack header msgId))
  | headerOnly header => exact h.same (sameLines_receiveMessage s i env (.headerOnly header))

theorem sameLines_writeComplete (s : Library) (i : ℕ) (rc : ℤ) :
    SameLines s (s.writeComplete i rc) := by
  have hclear : SameLines s (s.modify i fun a => { a with pendingWrite := none }) :=
    sameLines_modify rfl rfl
  rw [writeComplete]
  simp only
  split
  next => exact hclear
  next cmd _ =>
    have hremove : SameLines s ((s.modify i fun a => { a with pendingWrite := none }).modify i
        fun a => { a with responses := a.responses.eraseP (·.address == cmd.address) }) :=
      hclear.trans (sameLines_modify rfl rfl)
    split
    · split_ifs
      · exact hremove.trans (sameLines_call _ rfl)
      · exact hremove.trans (sameLines_call _ rfl)
      · exact hclear
    · exact hremove

theorem line_modify_self (s : Library) (i : ℕ) (f : Async → Async) :
    (s.modify i f).line i =
      { s.line i with
        connected := (f (s.clients i)).c.connected
        connectState := (f (s.clients i)).connectState } := by
  rw [line, clients_modify_self]
  rfl

theorem Informed.connecting (opts : ℕ → ClientOptions) (h : s.Informed)
    (hstate : (s.clients i).connectState = .tcpInProgress) (up : Bool) (current : ℕ) :
    (s.connecting opts i up current).Informed := by
  rw [Library.connecting]
  split_ifs
  · intro j
    by_cases hj : j = i
    · subst hj
      rw [line_modify_self]
      refine ⟨fun hup => ?_, fun hc => (by cases hc), fun _ => .inr (.inl (by simp))⟩
      have hidle := (h j).connected hup
      rw [show (s.line j).connectState = .tcpInProgress from hstate] at hidle
      cases hidle
    · rw [line_modify_of_ne s _ hj]
      exact h j
  · exact h.nextOrClose opts i _ current

theorem Informed.checkTimeouts (opts : ℕ → ClientOptions) (h : s.Informed) (i : ℕ) (expired : Bool)
    (elapsed current : ℕ) : (s.checkTimeouts opts i expired elapsed current).Informed := by
  have hcheck : Informed (if (s.clients i).connectState = .disconnecting then
      s.checkDisconnect opts i (s.clients i).disconnect.1 (s.clients i).disconnect.2 elapsed
    else s) := by
    split_ifs with hstate
    · exact h.checkDisconnect opts i _ _ elapsed (.inr ((h i).disconnecting hstate))
    · exact h
  rw [Library.checkTimeouts]
  split_ifs at hcheck ⊢
  · exact hcheck.nextOrClose opts i _ current
  · exact hcheck
  · exact hcheck.nextOrClose opts i _ current
  · exact hcheck

/-! ## The sending thread -/

/-- The command to connect has been taken from the list. -/
theorem Informed.processConnect (opts : ℕ → ClientOptions) {cmd : QueuedCommand} {conn : Connect}
    (hothers : ∀ j ≠ cmd.client, (s.line j).Informed j)
    (hself : Line.Informed cmd.client { s.line cmd.client with asked := true })
    (env : Processing) : (s.processConnect opts cmd env conn).Informed := by
  rw [Library.processConnect]
  intro j
  by_cases hj : j = cmd.client
  · subst hj
    split_ifs with hbusy hstate hnext
    · -- The client is connected, or a connection is made.
      rw [line_modify_self]
      refine ⟨hself.connected, hself.disconnecting, fun _ => ?_⟩
      exact hbusy.symm.imp_right .inl
    · rw [line_modify_self]
      obtain ⟨-, hdown⟩ := not_or.1 hbusy
      refine ⟨fun hup => absurd hup hdown, fun hc => ?_, fun _ => .inr (.inl fun hc => ?_)⟩
      · rw [show env.connectState = .disconnecting from hc] at hstate
        simp at hstate
      · rw [show env.connectState = .notInProgress from hc] at hstate
        simp at hstate
    · rw [line_addCommand, show QueuedCommand.connects
        { cmd with request := .connect (negotiate opts cmd.client conn) } cmd.client = true by
          simp [QueuedCommand.connects], Bool.or_true]
      exact hself
    · rw [line_call_self _ rfl, line_modify_self]
      exact ⟨hself.connected, fun _ => by simp, fun hlast => by simp at hlast⟩
  · have hold := hothers j hj
    split_ifs
    · rw [line_modify_of_ne s _ hj]
      exact hold
    · rw [line_modify_of_ne s _ hj]
      exact hold
    · rw [line_addCommand, show QueuedCommand.connects
        { cmd with request := .connect (negotiate opts cmd.client conn) } j = false by
          simpa [QueuedCommand.connects] using Ne.symm hj, Bool.or_false]
      exact hold
    · rw [line_call_of_ne _ rfl hj, line_modify_of_ne s _ hj]
      exact hold

theorem Informed.processDisconnect (opts : ℕ → ClientOptions) (h : s.Informed)
    (cmd : QueuedCommand) (env : Processing) (internal : Bool) (timeout : ℕ) :
    (s.processDisconnect opts cmd env internal timeout).Informed := by
  rw [Library.processDisconnect]
  refine Informed.same ?_ (sameLines_modify rfl rfl)
  split_ifs with hstate hconnected
  · refine Informed.checkDisconnect opts (fun j => ?_) _ _ _ _ (.inr ?_)
    · by_cases hj : j = cmd.client
      · subst hj
        rw [line_call_self _ rfl, line_modify_self]
        refine ⟨fun hup => ?_, fun _ => by simp, fun hlast => by simp at hlast⟩
        exact absurd ((h cmd.client).connected hup) hstate
      · rw [line_call_of_ne _ rfl hj, line_modify_of_ne s _ hj]
        exact h j
    · rw [line_call_self _ rfl]
      simp
  · exact h.checkDisconnect opts _ _ _ _ (.inl hconnected)
  · exact h

theorem Informed.failed (h : s.Informed) (cmd : QueuedCommand) (env : Processing) :
    (s.failed cmd env).Informed :=
  (h.disconnectInternal cmd.client env.current).same (sameLines_call _ rfl)

theorem sameLines_await (s : Library) (cmd : QueuedCommand) : SameLines s (s.await cmd) :=
  sameLines_modify rfl rfl

theorem Informed.processPublish (h : s.Informed) (cmd : QueuedCommand) (env : Processing)
    (m : Messages) : (s.processPublish cmd env m).Informed := by
  have hstart : Informed (s.modify cmd.client fun a =>
      { a with c := (startPublish a.c ⟨true, env.rc, true⟩ m).client }) := by
    refine h.same (sameLines_modify ?_ rfl)
    simp only [startPublish]
    split_ifs <;> rfl
  rw [Library.processPublish]
  split_ifs
  · cases hrc : env.rc with
    | complete u =>
      rw [hrc] at hstart
      exact hstart.same (sameLines_call _ rfl)
    | interrupted =>
      rw [hrc] at hstart
      exact hstart.same ((sameLines_await _ cmd).trans (sameLines_modify rfl rfl))
    | socketError =>
      rw [hrc] at hstart
      exact (hstart.same (sameLines_modify rfl rfl)).failed cmd env
  · exact hstart.failed cmd env
  · exact hstart.same (sameLines_await _ cmd)

theorem Informed.processCommand (opts : ℕ → ClientOptions) (h : s.Informed) (env : Processing) :
    (s.processCommand opts env).Informed := by
  rw [Library.processCommand]
  split
  next => exact h
  next cmd rest htake =>
    obtain ⟨-, -, pre, post, hcmds, rfl, -⟩ := takeCommand_eq_some htake
    set s' : Library := { s with
      commands := pre ++ post
      started := if cmd.request.isOrdinary then s.started ++ [cmd] else s.started }
    have hline : ∀ j, cmd.connects j = false → s'.line j = s.line j := by
      intro j hj
      rw [line, line, hcmds]
      simp [s', hj]
    have hordinary : (∀ conn, cmd.request ≠ .connect conn) → s'.Informed := by
      intro hne
      refine h.same fun j => hline j ?_
      rw [QueuedCommand.connects]
      split
      next conn hconn => exact absurd hconn (hne conn)
      next => exact Bool.and_false _
    rw [execute]
    cases hrequest : cmd.request with
    | connect conn =>
      refine Informed.processConnect opts (fun j hj => ?_) ?_ env
      · rw [hline j (by simpa [QueuedCommand.connects] using fun hc => absurd hc.symm hj)]
        exact h j
      · have hself := h cmd.client
        exact ⟨hself.connected, hself.disconnecting, fun _ => .inr (.inr rfl)⟩
    | subscribe topics =>
      simp only
      split_ifs
      · exact (hordinary (by simp [hrequest])).failed cmd env
      · exact (hordinary (by simp [hrequest])).same (sameLines_await _ cmd)
    | unsubscribe topics =>
      simp only
      split_ifs
      · exact (hordinary (by simp [hrequest])).failed cmd env
      · exact (hordinary (by simp [hrequest])).same (sameLines_await _ cmd)
    | publish d payload qos retained =>
      exact (hordinary (by simp [hrequest])).processPublish cmd env _
    | disconnect internal timeout =>
      exact (hordinary (by simp [hrequest])).processDisconnect opts cmd env internal timeout

/-! ## Runs -/

theorem informed_start : start.Informed := fun _ =>
  ⟨fun hc => (by cases hc), fun hc => (by cases hc), fun hc => (by cases hc)⟩

theorem Informed.step {opts : ℕ → ClientOptions} {a : Action} (h : s.Informed)
    (hs : s.step opts a = some s') : s'.Informed := by
  cases a with
  | connect i =>
    have hset : SameLines s (s.modify i fun a =>
        { a with connect := { a.connect with onSuccess := true } }) := sameLines_modify rfl rfl
    exact Option.some.inj hs ▸ h.same hset
  | disconnect i timeout =>
    refine Option.some.inj hs ▸ ?_
    rw [Library.disconnect]
    split_ifs <;> exact h
  | subscribe i topics =>
    refine Option.some.inj hs ▸ ?_
    rw [Library.subscribe]
    split_ifs <;> exact h
  | unsubscribe i topics =>
    refine Option.some.inj hs ▸ ?_
    rw [Library.unsubscribe]
    split_ifs <;> exact h
  | send i d payload qos retained =>
    refine Option.some.inj hs ▸ ?_
    rw [Library.send]
    split_ifs <;> exact h
  | assign d =>
    rw [Library.step] at hs
    split_ifs at hs
    exact h.assign hs
  | refuse d =>
    rw [Library.step] at hs
    split_ifs at hs
    exact Option.some.inj hs ▸ h
  | add d address current =>
    rw [Library.step] at hs
    split_ifs at hs
    obtain ⟨msgid, -, rfl⟩ := Option.map_eq_some_iff.1 hs
    exact h.add d msgid address current
  | processCommand env => exact Option.some.inj hs ▸ h.processCommand opts env
  | receive i env retryFails current p =>
    rw [Library.step] at hs
    split_ifs at hs
    exact Option.some.inj hs ▸ h.receive opts i env retryFails current p
  | deliver i taken =>
    refine Option.some.inj hs ▸ h.same (sameLines_modify ?_ rfl)
    simp only [Clients.deliverQueued]
    split
    · rfl
    · split_ifs <;> rfl
  | readError i current =>
    rw [Library.step] at hs
    split_ifs at hs
    exact Option.some.inj hs ▸ h.afterError opts i current
  | writeComplete i rc => exact Option.some.inj hs ▸ h.same (sameLines_writeComplete s i rc)
  | connecting i up current =>
    rw [Library.step] at hs
    split_ifs at hs with hstate
    refine Option.some.inj hs ▸ ?_
    exact h.connecting opts hstate up current
  | checkTimeouts i expired elapsed current =>
    exact Option.some.inj hs ▸ h.checkTimeouts opts i expired elapsed current
  | keepalive i current => exact Option.some.inj hs ▸ h.disconnectInternal i current

theorem reachable_informed {opts : ℕ → ClientOptions} (h : (library opts).Reachable s) :
    s.Informed := by
  refine h.invariant ?_ fun _ _ _ _ h hstep => h.step hstep
  rintro _ rfl
  exact informed_start

/-- As long as the application believes that it is connected, it is, or the library tries
    to connect, or is about to. -/
theorem told_connected {opts : ℕ → ClientOptions} (h : (library opts).Reachable s) (i : ℕ)
    (hlast : (s.calls.filter (·.about == some i)).getLast? = some (.connected i)) :
    (s.clients i).c.connected = true ∨ (s.clients i).connectState = .tcpInProgress ∨
      (s.clients i).connectState = .waitForConnack ∨ ∃ cmd ∈ s.commands, cmd.connects i = true := by
  have hinformed := reachable_informed h i
  obtain hconnected | hstate | hasked := hinformed.told hlast
  · exact .inl hconnected
  · cases hcase : (s.clients i).connectState with
    | notInProgress => exact absurd hcase hstate
    | tcpInProgress => exact .inr (.inl rfl)
    | waitForConnack => exact .inr (.inr (.inl rfl))
    | disconnecting => exact absurd hlast (hinformed.disconnecting hcase)
  · exact .inr (.inr (.inr (List.any_eq_true.1 hasked)))

/-- The connection is lost, and another version of the protocol is to be tried. -/
def lostAtOnce : List Action :=
  [.connect 0, .add ⟨0, some 0, .connect ⟨0, true⟩⟩ 1 0,
    .processCommand ⟨fun _ => true, .complete (), .waitForConnack, 0, 0⟩,
    .receive 0 ⟨true, .complete (), true⟩ false 0 (.connack ⟨0x20⟩ 0 0), .readError 0 0]

theorem told_connected_lostAtOnce : ∃ s,
    (library fun _ => ⟨0, true, 1⟩).exec start lostAtOnce = some s ∧ s.calls = [.connected 0] ∧
      (s.clients 0).c.connected = false ∧ (s.clients 0).connectState = .notInProgress ∧
      ∃ cmd ∈ s.commands, cmd.connects 0 = true := by
  have hexec : ((library fun _ => ⟨0, true, 1⟩).exec start lostAtOnce).map (fun s =>
      (s.calls, (s.clients 0).c.connected, (s.clients 0).connectState)) =
        some ([.connected 0], false, .notInProgress) := by decide +kernel
  obtain ⟨s, hs, hstate⟩ := Option.map_eq_some_iff.1 hexec
  obtain ⟨hcalls, hstate⟩ := Prod.mk.inj hstate
  obtain ⟨hconnected, hstate⟩ := Prod.mk.inj hstate
  refine ⟨s, hs, hcalls, hconnected, hstate, ?_⟩
  have htold := told_connected (Machine.reachable_of_exec rfl hs) 0 (by rw [hcalls]; rfl)
  rw [hconnected, hstate] at htold
  simpa using htold

end Library

end Cmqtt
