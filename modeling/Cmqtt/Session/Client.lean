import Cmqtt.Main.Settings

/-!
# The client and its recovery

`core/mqtta.c` keeps a client of the MQTT library connected. A connection that
is lost, a connect request that fails and a message that cannot be sent all
call `myReconnctMQTT`, through `connlost` or `onConFailure`: a loop that makes
connect requests until the library accepts one, at most 100 of them.

The state (`Session`) has both sides: the variables of `core/mqtta.c` with the
calls of `myReconnctMQTT` in progress (`Reconnect`), and what the library has
of them. What the library answers, and when, is left open (`Event`), up to what
its documentation says: a request accepted when the client is connected changes
nothing, one accepted otherwise succeeds or fails later, and a failure calls
`onFailure` of the options of the request with their context.

* `Reconnect.InProgress`, `Reconnect.Ended`: a call of `myReconnctMQTT` makes 1
  to 100 requests, stops at the first one accepted, and ends;
* `ReconnectStep`: what an event does to these calls, which have numbers;
* `Attended`: the client is connected or somebody works at it, or a call of
  `myReconnctMQTT` gave up;
* `Attended.event`: this is kept by everything that happens, as long as all
  callbacks are set (`Armed`).
-/

namespace Cmqtt

/-- A client of the library, with what it was created from. -/
structure Client where
  serverURI : List UInt8
  clientId : List UInt8
  deriving DecidableEq

/-- The options of a connect request. -/
structure ConnectOptions where
  keepAliveInterval : ℤ
  cleansession : ℤ
  automaticReconnect : ℤ
  /-- The callback for a failure: `onConFailure`, or null. -/
  onFailure : Bool
  context : Option Client
  username : Option (List UInt8)
  password : Option (List UInt8)
  deriving DecidableEq

/-- `MQTTAsync_connectOptions_initializer`. -/
def ConnectOptions.initializer : ConnectOptions where
  keepAliveInterval := 60
  cleansession := 1
  automaticReconnect := 0
  onFailure := false
  context := none
  username := none
  password := none

/-! ## A call of `myReconnctMQTT` -/

/-- A call of `myReconnctMQTT` at the start of its loop. -/
structure Reconnect where
  /-- The calls before it. -/
  number : ℕ
  contxt : Option Client
  rc : ℤ
  count : ℤ
  /-- What its requests returned so far. -/
  rcs : List ℤ
  deriving DecidableEq

namespace Reconnect

/-- A call at its start. -/
def start (number : ℕ) (contxt : Option Client) : Reconnect := ⟨number, contxt, 0, 100, []⟩

/-- The body of the loop, for a request that returned `rc`. -/
def attempt (l : Reconnect) (rc : ℤ) : Reconnect :=
  { l with rc, count := l.count - 1, rcs := l.rcs ++ [rc] }

/-- The condition of the loop. -/
def again (l : Reconnect) : Bool := l.rc != 0 && 0 != l.count

/-- A call in progress: its requests so far were refused, and it goes on. -/
structure InProgress (l : Reconnect) : Prop where
  count : l.count = 100 - l.rcs.length
  length_lt : l.rcs.length < 100
  refused : ∀ rc ∈ l.rcs, rc ≠ 0

/-- What the requests of a call that has ended returned: 1 to 100 results, only
    the last of them may be a success, and it is one unless there are 100. -/
structure Ended (rcs : List ℤ) : Prop where
  length_pos : 0 < rcs.length
  length_le : rcs.length ≤ 100
  refused : ∀ rc ∈ rcs.dropLast, rc ≠ 0
  last : rcs.getLast? = some 0 ∨ rcs.length = 100

/-- A call gave up: it received 100 results, none of them a success. -/
def GaveUp (rcs : List ℤ) : Prop := rcs.length = 100 ∧ ∀ rc ∈ rcs, rc ≠ 0

variable {l : Reconnect} {rc : ℤ} {number : ℕ} {contxt : Option Client}

theorem inProgress_start : InProgress (start number contxt) := ⟨rfl, Nat.zero_lt_succ _, nofun⟩

theorem InProgress.attempt (h : InProgress l) (hagain : (l.attempt rc).again) :
    InProgress (l.attempt rc) := by
  simp only [again, Reconnect.attempt, Bool.and_eq_true, bne_iff_ne] at hagain
  have hcount := h.count
  have hlt := h.length_lt
  refine ⟨?_, ?_, fun rc' hrc' => ?_⟩
  · simp only [Reconnect.attempt, List.length_append, List.length_singleton]
    omega
  · simp only [Reconnect.attempt, List.length_append, List.length_singleton]
    omega
  · rcases List.mem_append.1 hrc' with hrc' | hrc'
    · exact h.refused rc' hrc'
    · exact List.mem_singleton.1 hrc' ▸ hagain.1

/-- A call that ends: its last request was accepted, or it gave up. -/
theorem InProgress.ended (h : InProgress l) (hagain : (l.attempt rc).again = false) :
    Ended (l.attempt rc).rcs ∧ (rc = 0 ∨ GaveUp (l.attempt rc).rcs) := by
  simp only [again, Reconnect.attempt, Bool.and_eq_false_iff, bne_eq_false_iff_eq] at hagain
  have hcount := h.count
  have hlt := h.length_lt
  have hlength : (l.attempt rc).rcs.length = l.rcs.length + 1 := by simp [Reconnect.attempt]
  -- the loop ends at a success or when `count` is zero
  have hend : rc = 0 ∨ (l.attempt rc).rcs.length = 100 := by omega
  refine ⟨⟨by omega, by omega, ?_, ?_⟩, ?_⟩
  · simpa [Reconnect.attempt] using h.refused
  · refine hend.imp_left fun hrc => ?_
    simp [Reconnect.attempt, hrc]
  · rcases eq_or_ne rc 0 with hrc | hrc
    · exact .inl hrc
    · refine .inr ⟨hend.resolve_left hrc, fun rc' hrc' => ?_⟩
      rcases List.mem_append.1 hrc' with hrc' | hrc'
      · exact h.refused rc' hrc'
      · exact List.mem_singleton.1 hrc' ▸ hrc

end Reconnect

/-! ## The client -/

/-- The variables of `core/mqtta.c`, and the state of the library. -/
structure Session where
  clientContext : Option Client
  /-- `client_conn_opts`. -/
  connOpts : ConnectOptions
  /-- The calls of `myReconnctMQTT` in progress. -/
  loops : List Reconnect
  /-- The calls that have ended. -/
  ended : List Reconnect
  /-- The number of calls so far. -/
  made : ℕ
  /-- The context of the callbacks `connlost` and `my_mqqta_recvmsg`, if set. -/
  callbacks : Option (Option Client)
  connected : Bool
  /-- The connect requests accepted and not answered yet, with their options. -/
  pending : List ConnectOptions
  /-- The messages being sent, with the contexts of their `onFailure`. -/
  sending : List (Option Client)
  deriving DecidableEq

namespace Session

/-- The client at the start of the process. -/
def start : Session where
  clientContext := none
  connOpts := .initializer
  loops := []
  ended := []
  made := 0
  callbacks := none
  connected := false
  pending := []
  sending := []

/-- `MQTTAsync_connect` with the options of the program, returning `rc`. The
    library only accepts requests for a client it has created. -/
def connect (c : Session) (client : Option Client) (rc : ℤ) : Option Session :=
  if rc ≠ 0 then some c
  else if client = none ∨ client ≠ c.clientContext then none
  -- nothing changes for a client that is connected
  else if c.connected then some c
  else some { c with pending := c.pending ++ [c.connOpts] }

/-- The start of a call of `myReconnctMQTT`. -/
def myReconnct (s : Settings) (c : Session) (contxt : Option Client) : Session :=
  { c with
    connOpts := { c.connOpts with keepAliveInterval := s.mqttKeepalive, cleansession := 1 }
    loops := c.loops ++ [.start c.made contxt]
    made := c.made + 1 }

/-- `connlost`. -/
def connlost (s : Settings) (c : Session) (context : Option Client) : Session :=
  c.myReconnct s context

/-- `onConFailure`. -/
def onConFailure (s : Settings) (c : Session) (context : Option Client) : Session :=
  c.myReconnct s context

/-- What happens to the client. -/
inductive Event
  /-- The call `j` of `myReconnctMQTT` makes a request, which returns `rc`. -/
  | attempt (j : ℕ) (rc : ℤ)
  /-- The request `j` succeeds. -/
  | succeeded (j : ℕ)
  /-- The request `j` fails. -/
  | failed (j : ℕ)
  /-- The connection is lost. -/
  | lost
  /-- `my_mqqta_sendmsg` is called, where `MQTTAsync_sendMessage` returns `rc`. -/
  | send (rc : ℤ)
  /-- The message `j` is sent. -/
  | sent (j : ℕ)
  /-- The message `j` cannot be sent. -/
  | sendFailed (j : ℕ)
  deriving DecidableEq, Repr

/-- The request of the call `l` of `myReconnctMQTT`, the `j`-th one in progress. -/
def attempt (c : Session) (j : ℕ) (l : Reconnect) (rc : ℤ) : Option Session :=
  (c.connect l.contxt rc).map fun c =>
    let l := l.attempt rc
    if l.again then { c with loops := c.loops.set j l }
    else { c with loops := c.loops.eraseIdx j, ended := c.ended ++ [l] }

/-- `my_mqqta_sendmsg`. The library refuses messages without a connection. -/
def myMqqtaSendmsg (c : Session) (rc : ℤ) : Option Session :=
  if rc ≠ 0 then some c
  else if c.connected then some { c with sending := c.sending ++ [c.clientContext] }
  else none

/-- The client after an event, if it is possible. -/
def event (s : Settings) (c : Session) : Event → Option Session
  | .attempt j rc => c.loops[j]?.bind fun l => c.attempt j l rc
  | .succeeded j => c.pending[j]?.map fun _ =>
    { c with connected := true, pending := c.pending.eraseIdx j }
  | .failed j => c.pending[j]?.map fun o =>
    let c := { c with pending := c.pending.eraseIdx j }
    if o.onFailure then c.onConFailure s o.context else c
  | .lost =>
    if c.connected then
      let c := { c with connected := false }
      some (match c.callbacks with
        | some context => c.connlost s context
        | none => c)
    else none
  | .send rc => c.myMqqtaSendmsg rc
  | .sent j => if j < c.sending.length then some { c with sending := c.sending.eraseIdx j } else none
  | .sendFailed j => c.sending[j]?.map fun context =>
    ({ c with sending := c.sending.eraseIdx j } : Session).onConFailure s context

/-! ## Recovery -/

/-- All callbacks are set, with the client as their context, and the calls of
    `myReconnctMQTT` behave. -/
structure Armed (c : Session) : Prop where
  created : c.clientContext ≠ none
  callbacks : c.callbacks = some c.clientContext
  onFailure : c.connOpts.onFailure
  context : c.connOpts.context = c.clientContext
  pending : ∀ o ∈ c.pending, o.onFailure ∧ o.context = c.clientContext
  loops : ∀ l ∈ c.loops, l.InProgress ∧ l.contxt = c.clientContext
  sending : ∀ x ∈ c.sending, x = c.clientContext
  ended : ∀ l ∈ c.ended, Reconnect.Ended l.rcs

/-- The client is connected or somebody works at it, or a call of
    `myReconnctMQTT` gave up. -/
def Attended (c : Session) : Prop :=
  c.connected ∨ c.pending ≠ [] ∨ c.loops ≠ [] ∨ ∃ l ∈ c.ended, Reconnect.GaveUp l.rcs

variable {s : Settings} {c c' : Session}

/-- Requests that are answered, messages that are sent, and the connection do not
    matter. -/
theorem Armed.mono {b : Bool} {pending : List ConnectOptions} {sending : List (Option Client)}
    (h : Armed c) (hpending : pending ⊆ c.pending) (hsending : sending ⊆ c.sending) :
    Armed { c with connected := b, pending, sending } :=
  ⟨h.created, h.callbacks, h.onFailure, h.context, fun o ho => h.pending o (hpending ho), h.loops,
    fun x hx => h.sending x (hsending hx), h.ended⟩

theorem Armed.myReconnct (h : Armed c) : Armed (c.myReconnct s c.clientContext) where
  created := h.created
  callbacks := h.callbacks
  onFailure := h.onFailure
  context := h.context
  pending := h.pending
  loops l hl := by
    rcases List.mem_append.1 hl with hl | hl
    · exact h.loops l hl
    · rw [List.mem_singleton.1 hl]
      exact ⟨Reconnect.inProgress_start, rfl⟩
  sending := h.sending
  ended := h.ended

theorem attended_myReconnct {contxt : Option Client} : Attended (c.myReconnct s contxt) :=
  .inr (.inr (.inl (List.append_ne_nil_of_right_ne_nil _ (List.cons_ne_nil _ _))))

/-- What a request does. -/
theorem connect_cases {client : Option Client} {rc : ℤ} (h : c.connect client rc = some c') :
    (c' = c ∧ (rc ≠ 0 ∨ c.connected)) ∨
      (rc = 0 ∧ c' = { c with pending := c.pending ++ [c.connOpts] }) := by
  simp only [connect] at h
  split_ifs at h with hrc _ hcon
  · exact .inl ⟨(Option.some.inj h).symm, .inl hrc⟩
  · exact .inl ⟨(Option.some.inj h).symm, .inr hcon⟩
  · exact .inr ⟨not_not.1 hrc, (Option.some.inj h).symm⟩

/-- Only requests for a client are accepted. -/
theorem ne_none_of_connect {client : Option Client} (h : c.connect client 0 = some c') :
    client ≠ none := by
  rintro rfl
  simp [connect] at h

theorem Armed.connect {client : Option Client} {rc : ℤ} (h : Armed c)
    (hc : c.connect client rc = some c') : Armed c' := by
  obtain ⟨rfl, -⟩ | ⟨-, rfl⟩ := connect_cases hc
  · exact h
  · refine ⟨h.created, h.callbacks, h.onFailure, h.context, fun o ho => ?_, h.loops, h.sending,
      h.ended⟩
    rcases List.mem_append.1 ho with ho | ho
    · exact h.pending o ho
    · rw [List.mem_singleton.1 ho]
      exact ⟨h.onFailure, h.context⟩

/-- A request that is accepted leaves the client connected, or is pending. -/
theorem attended_connect {client : Option Client} (h : c.connect client 0 = some c') :
    c'.connected ∨ c'.pending ≠ [] := by
  obtain ⟨rfl, hrc | hcon⟩ | ⟨-, rfl⟩ := connect_cases h
  · exact absurd rfl hrc
  · exact .inl hcon
  · exact .inr (List.append_ne_nil_of_right_ne_nil _ (List.cons_ne_nil _ _))

theorem Armed.attempt {j : ℕ} {l : Reconnect} {rc : ℤ} (h : Armed c) (hl : c.loops[j]? = some l)
    (hc : c.attempt j l rc = some c') : Armed c' := by
  obtain ⟨hprog, hcontxt⟩ := h.loops l (List.mem_of_getElem? hl)
  -- `c₁` is the client after the request, and before the loop goes on
  obtain ⟨c₁, hc₁, rfl⟩ := Option.map_eq_some_iff.1 hc
  have h₁ := h.connect hc₁
  have hsame : c₁.clientContext = c.clientContext := by
    obtain ⟨rfl, -⟩ | ⟨-, rfl⟩ := connect_cases hc₁ <;> rfl
  dsimp only
  split_ifs with hagain
  · refine ⟨h₁.created, h₁.callbacks, h₁.onFailure, h₁.context, h₁.pending, fun l' hl' => ?_,
      h₁.sending, h₁.ended⟩
    rcases List.mem_or_eq_of_mem_set hl' with hl' | rfl
    · exact h₁.loops l' hl'
    · exact ⟨hprog.attempt hagain, hcontxt.trans hsame.symm⟩
  · refine ⟨h₁.created, h₁.callbacks, h₁.onFailure, h₁.context, h₁.pending, fun l' hl' => ?_,
      h₁.sending, fun l' hl' => ?_⟩
    · exact h₁.loops l' (List.mem_of_mem_eraseIdx hl')
    · rcases List.mem_append.1 hl' with hl' | hl'
      · exact h₁.ended l' hl'
      · rw [List.mem_singleton.1 hl']
        exact (hprog.ended (by simpa using hagain)).1

/-- The request of a call of `myReconnctMQTT`: the call goes on, its request was
    accepted, or it gave up. -/
theorem attended_attempt {j : ℕ} {l : Reconnect} {rc : ℤ} (h : Armed c)
    (hl : c.loops[j]? = some l) (hc : c.attempt j l rc = some c') : Attended c' := by
  obtain ⟨c₁, hc₁, rfl⟩ := Option.map_eq_some_iff.1 hc
  have hloops : c₁.loops = c.loops := by
    obtain ⟨rfl, -⟩ | ⟨-, rfl⟩ := connect_cases hc₁ <;> rfl
  dsimp only
  split_ifs with hagain
  · refine .inr (.inr (.inl ?_))
    have hne := List.ne_nil_of_mem (List.mem_of_getElem? hl)
    simpa [hloops] using hne
  · have hprog := (h.loops l (List.mem_of_getElem? hl)).1
    rcases (hprog.ended (by simpa using hagain)).2 with rfl | hup
    · exact (attended_connect hc₁).imp_right .inl
    · exact .inr (.inr (.inr ⟨_, List.mem_append_right _ (List.mem_singleton_self _), hup⟩))

/-- Everything that happens keeps the callbacks set. -/
theorem Armed.event {e : Event} (h : Armed c) (hc : c.event s e = some c') : Armed c' := by
  rcases e with ⟨j, rc⟩ | j | j | _ | rc | j | j <;> simp only [Session.event] at hc
  · obtain ⟨l, hl, hc⟩ := Option.bind_eq_some_iff.1 hc
    exact h.attempt hl hc
  · obtain ⟨o, -, rfl⟩ := Option.map_eq_some_iff.1 hc
    exact h.mono (List.eraseIdx_subset ..) (List.Subset.refl _)
  · obtain ⟨o, ho, rfl⟩ := Option.map_eq_some_iff.1 hc
    obtain ⟨hfail, hcontext⟩ := h.pending o (List.mem_of_getElem? ho)
    simp only [hfail, if_true, hcontext]
    exact (h.mono (List.eraseIdx_subset ..) (List.Subset.refl _)).myReconnct
  · have hlost : Armed { c with connected := false } :=
      h.mono (List.Subset.refl _) (List.Subset.refl _)
    split_ifs at hc
    obtain rfl := Option.some.inj hc
    split
    next context hcontext =>
      obtain rfl := Option.some.inj (hcontext.symm.trans h.callbacks)
      exact hlost.myReconnct
    next => exact hlost
  · simp only [myMqqtaSendmsg] at hc
    split_ifs at hc
    · exact Option.some.inj hc ▸ h
    · obtain rfl := Option.some.inj hc
      refine ⟨h.created, h.callbacks, h.onFailure, h.context, h.pending, h.loops, fun x hx => ?_,
        h.ended⟩
      rcases List.mem_append.1 hx with hx | hx
      · exact h.sending x hx
      · exact List.mem_singleton.1 hx
  · split_ifs at hc
    obtain rfl := Option.some.inj hc
    exact h.mono (List.Subset.refl _) (List.eraseIdx_subset ..)
  · obtain ⟨x, hx, rfl⟩ := Option.map_eq_some_iff.1 hc
    rw [h.sending x (List.mem_of_getElem? hx)]
    exact (h.mono (List.Subset.refl _) (List.eraseIdx_subset ..)).myReconnct

/-- Nothing that happens leaves the client unattended. -/
theorem Attended.event {e : Event} (h : Attended c) (ha : Armed c) (hc : c.event s e = some c') :
    Attended c' := by
  rcases e with ⟨j, rc⟩ | j | j | _ | rc | j | j <;> simp only [Session.event] at hc
  · obtain ⟨l, hl, hc⟩ := Option.bind_eq_some_iff.1 hc
    exact attended_attempt ha hl hc
  · obtain ⟨o, -, rfl⟩ := Option.map_eq_some_iff.1 hc
    exact .inl rfl
  · obtain ⟨o, ho, rfl⟩ := Option.map_eq_some_iff.1 hc
    simp only [(ha.pending o (List.mem_of_getElem? ho)).1, if_true]
    exact attended_myReconnct
  · split_ifs at hc
    obtain rfl := Option.some.inj hc
    simp only [ha.callbacks]
    exact attended_myReconnct
  · simp only [myMqqtaSendmsg] at hc
    split_ifs at hc <;> exact Option.some.inj hc ▸ h
  · split_ifs at hc
    exact Option.some.inj hc ▸ h
  · obtain ⟨x, -, rfl⟩ := Option.map_eq_some_iff.1 hc
    exact attended_myReconnct

/-- A call of `myReconnctMQTT` is never kept from its next request. -/
theorem Armed.event_attempt {j : ℕ} {l : Reconnect} (h : Armed c) (hl : c.loops[j]? = some l)
    (rc : ℤ) : ∃ c', c.event s (.attempt j rc) = some c' := by
  have hcontxt := (h.loops l (List.mem_of_getElem? hl)).2
  obtain ⟨c₁, hc₁⟩ : ∃ c₁, c.connect l.contxt rc = some c₁ := by
    simp only [Session.connect, hcontxt, h.created, ne_eq, not_true, or_self, if_false]
    split_ifs <;> exact ⟨_, rfl⟩
  simp only [Session.event, hl, Option.bind_some, Session.attempt, hc₁, Option.map_some]
  exact ⟨_, rfl⟩

/-! ## The calls of `myReconnctMQTT` -/

/-- The calls of `myReconnctMQTT` so far. -/
def reconnects (c : Session) : List Reconnect := c.loops ++ c.ended

/-- What the call `n` of `myReconnctMQTT` is returned by an event. -/
def attempted (c : Session) (n : ℕ) : Event → Option ℤ
  | .attempt j rc => if c.loops[j]?.any (·.number = n) then some rc else none
  | _ => none

/-- What an event does to the calls of `myReconnctMQTT`. -/
inductive ReconnectStep (c : Session) (e : Event) (c' : Session) : Prop
  | keep (he : ∀ n, c.attempted n e = none) (hloops : c'.loops = c.loops)
      (hended : c'.ended = c.ended) (hmade : c'.made = c.made)
  | start (he : ∀ n, c.attempted n e = none) (contxt : Option Client)
      (hloops : c'.loops = c.loops ++ [.start c.made contxt]) (hended : c'.ended = c.ended)
      (hmade : c'.made = c.made + 1)
  | again (j : ℕ) (rc : ℤ) (l : Reconnect) (he : e = .attempt j rc) (hl : c.loops[j]? = some l)
      (hloops : c'.loops = c.loops.set j (l.attempt rc)) (hended : c'.ended = c.ended)
      (hmade : c'.made = c.made)
  | stop (j : ℕ) (rc : ℤ) (l : Reconnect) (he : e = .attempt j rc) (hl : c.loops[j]? = some l)
      (hloops : c'.loops = c.loops.eraseIdx j) (hended : c'.ended = c.ended ++ [l.attempt rc])
      (hmade : c'.made = c.made)

theorem reconnectStep {e : Event} (hc : c.event s e = some c') : ReconnectStep c e c' := by
  rcases e with ⟨j, rc⟩ | j | j | _ | rc | j | j <;> simp only [Session.event] at hc
  · obtain ⟨l, hl, hc⟩ := Option.bind_eq_some_iff.1 hc
    obtain ⟨c₁, hc₁, rfl⟩ := Option.map_eq_some_iff.1 hc
    obtain ⟨hloops, hended, hmade⟩ :
        c₁.loops = c.loops ∧ c₁.ended = c.ended ∧ c₁.made = c.made := by
      obtain ⟨rfl, -⟩ | ⟨-, rfl⟩ := connect_cases hc₁ <;> exact ⟨rfl, rfl, rfl⟩
    dsimp only
    split_ifs
    · exact .again j rc l rfl hl (by rw [hloops]) hended hmade
    · exact .stop j rc l rfl hl (by rw [hloops]) (by rw [hended]) hmade
  · obtain ⟨o, -, rfl⟩ := Option.map_eq_some_iff.1 hc
    exact .keep (fun _ => rfl) rfl rfl rfl
  · obtain ⟨o, -, rfl⟩ := Option.map_eq_some_iff.1 hc
    split_ifs
    · exact .start (fun _ => rfl) o.context rfl rfl rfl
    · exact .keep (fun _ => rfl) rfl rfl rfl
  · split_ifs at hc
    obtain rfl := Option.some.inj hc
    split
    next context _ => exact .start (fun _ => rfl) context rfl rfl rfl
    next => exact .keep (fun _ => rfl) rfl rfl rfl
  · simp only [myMqqtaSendmsg] at hc
    split_ifs at hc <;> exact Option.some.inj hc ▸ .keep (fun _ => rfl) rfl rfl rfl
  · split_ifs at hc
    exact Option.some.inj hc ▸ .keep (fun _ => rfl) rfl rfl rfl
  · obtain ⟨context, -, rfl⟩ := Option.map_eq_some_iff.1 hc
    exact .start (fun _ => rfl) context rfl rfl rfl

/-- The calls of `myReconnctMQTT` have the numbers up to `made`, and have kept
    what their requests returned, `rcs n` for the call `n`. -/
structure Counted (c : Session) (rcs : ℕ → List ℤ) : Prop where
  numbers : (c.reconnects.map Reconnect.number).Perm (List.range c.made)
  kept : ∀ l ∈ c.reconnects, l.rcs = rcs l.number
  fresh : ∀ n, c.made ≤ n → rcs n = []

variable {rcs : ℕ → List ℤ} {j : ℕ} {rc : ℤ} {l : Reconnect}

/-- A call in progress has not ended. -/
theorem Counted.number_ne (h : Counted c rcs) {l' : Reconnect} (hl : l ∈ c.loops)
    (hl' : l' ∈ c.ended) : l.number ≠ l'.number := by
  have hnodup := h.numbers.nodup_iff.2 List.nodup_range
  rw [reconnects, List.map_append] at hnodup
  exact (List.nodup_append.1 hnodup).2.2 _ (List.mem_map_of_mem hl) _ (List.mem_map_of_mem hl')

theorem Counted.number_lt (h : Counted c rcs) (hl : l ∈ c.reconnects) : l.number < c.made :=
  List.mem_range.1 (h.numbers.subset (List.mem_map_of_mem hl))

/-- A request of the call `l` is kept there, and concerns no other call. -/
theorem Counted.attempt (h : Counted c rcs) (hl : c.loops[j]? = some l)
    (hnumbers : (c'.reconnects.map Reconnect.number).Perm (c.reconnects.map Reconnect.number))
    (hnew : l.attempt rc ∈ c'.reconnects)
    (hold : ∀ l' ∈ c'.reconnects, l' = l.attempt rc ∨ l' ∈ c.reconnects)
    (hmade : c'.made = c.made) :
    Counted c' fun n => rcs n ++ (c.attempted n (.attempt j rc)).toList := by
  have hmem : l ∈ c.reconnects := List.mem_append_left _ (List.mem_of_getElem? hl)
  have hperm := hnumbers.trans h.numbers
  have hnone : ∀ n, l.number ≠ n → (c.attempted n (.attempt j rc)).toList = [] := fun n hn => by
    simp [attempted, hl, hn]
  refine ⟨hmade ▸ hperm, fun l' hl' => ?_, fun n hn => ?_⟩
  · rcases eq_or_ne l.number l'.number with hn | hn
    · -- no other call has this number
      obtain rfl : l.attempt rc = l' :=
        List.inj_on_of_nodup_map (hperm.nodup_iff.2 List.nodup_range) hnew hl' hn
      simp [Reconnect.attempt, attempted, hl, h.kept l hmem]
    · have hl'c := (hold l' hl').resolve_left (by rintro rfl; exact hn rfl)
      rw [hnone _ hn, List.append_nil, h.kept l' hl'c]
  · have hlt := h.number_lt hmem
    rw [hnone n (by omega), List.append_nil, h.fresh n (hmade ▸ hn)]

theorem Counted.event {e : Event} (h : Counted c rcs) (hc : c.event s e = some c') :
    Counted c' fun n => rcs n ++ (c.attempted n e).toList := by
  cases reconnectStep hc with
  | keep he hloops hended hmade =>
    simp only [he, Option.toList_none, List.append_nil]
    have hcalls : c'.reconnects = c.reconnects := by rw [reconnects, hloops, hended, reconnects]
    exact ⟨hcalls ▸ hmade ▸ h.numbers, hcalls ▸ h.kept, hmade ▸ h.fresh⟩
  | start he contxt hloops hended hmade =>
    simp only [he, Option.toList_none, List.append_nil]
    have hcalls : c'.reconnects.Perm (c.reconnects ++ [.start c.made contxt]) := by
      rw [reconnects, hloops, hended, reconnects, List.append_assoc, List.append_assoc]
      exact List.perm_append_comm.append_left _
    refine ⟨(hcalls.map _).trans ?_, fun l hl => ?_, fun n hn => h.fresh n (by omega)⟩
    · rw [List.map_append, hmade, List.range_succ]
      exact h.numbers.append_right _
    · rcases List.mem_append.1 (hcalls.subset hl) with hl | hl
      · exact h.kept l hl
      · rw [List.mem_singleton.1 hl]
        exact (h.fresh c.made (Nat.le_refl _)).symm
  | again j rc l he hl hloops hended hmade =>
    subst he
    obtain ⟨hj, hget⟩ := List.getElem?_eq_some_iff.1 hl
    have hcalls : c'.reconnects = c.loops.set j (l.attempt rc) ++ c.ended := by
      rw [reconnects, hloops, hended]
    refine h.attempt hl ?_ ?_ (fun l' hl' => ?_) hmade
    · have hset : (c.loops.set j (l.attempt rc)).map Reconnect.number =
          c.loops.map Reconnect.number := by
        have hnumber : (l.attempt rc).number = (c.loops.map Reconnect.number).get ⟨j, by simpa⟩ := by
          rw [List.get_eq_getElem, List.getElem_map, hget]
          rfl
        rw [List.map_set, hnumber, List.get_eq_getElem, List.set_getElem_self]
      rw [hcalls, List.map_append, hset, reconnects, List.map_append]
    · rw [hcalls]
      exact List.mem_append_left _ (List.mem_set hj _)
    · rw [hcalls] at hl'
      rcases List.mem_append.1 hl' with hl' | hl'
      · exact (List.mem_or_eq_of_mem_set hl').symm.imp_right (List.mem_append_left _)
      · exact .inr (List.mem_append_right _ hl')
  | stop j rc l he hl hloops hended hmade =>
    subst he
    obtain ⟨hj, hget⟩ := List.getElem?_eq_some_iff.1 hl
    have hcalls : c'.reconnects = c.loops.eraseIdx j ++ (c.ended ++ [l.attempt rc]) := by
      rw [reconnects, hloops, hended]
    refine h.attempt hl ?_ ?_ (fun l' hl' => ?_) hmade
    · have hmove : (l :: c.loops.eraseIdx j).Perm c.loops :=
        hget ▸ List.getElem_cons_eraseIdx_perm hj
      have hlast : (c'.reconnects.map Reconnect.number).Perm
          ((l :: (c.loops.eraseIdx j ++ c.ended)).map Reconnect.number) := by
        rw [hcalls, ← List.append_assoc, List.map_append]
        exact List.perm_append_comm
      exact hlast.trans ((hmove.append_right c.ended).map _)
    · rw [hcalls]
      exact List.mem_append_right _ (List.mem_append_right _ (List.mem_singleton_self _))
    · rw [hcalls] at hl'
      rcases List.mem_append.1 hl' with hl' | hl'
      · exact .inr (List.mem_append_left _ (List.mem_of_mem_eraseIdx hl'))
      · rcases List.mem_append.1 hl' with hl' | hl'
        · exact .inr (List.mem_append_right _ hl')
        · exact .inl (List.mem_singleton.1 hl')

end Session

end Cmqtt
