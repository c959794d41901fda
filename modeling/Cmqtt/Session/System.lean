import Cmqtt.Machine
import Cmqtt.Session.Client
import Cmqtt.Topic.Dispatch

/-!
# The client, the broker and the start of the program

The thread `Hall` starts the program (`core_init`): it creates and connects the
client, loads the table of topics and subscribes to them. Meanwhile the library
makes, loses and restores the connection, and calls back with the messages that
arrive. The machine of all of this (`system`) interleaves

* the steps of `Hall` (`hallStep`), down to the iterations of the loops of
  `initTopicConf` and `regTopicFromTable`;
* what happens to the client (`Session.event`);
* the broker granting subscriptions and delivering messages.

Of the library and the broker, it assumes that the library refuses to subscribe
without a connection, that a subscription accepted is granted, that a connect
request with a clean session discards the subscriptions the broker had, and that
the broker delivers messages of the topics subscribed to only (`topicMatches`).

The steps of `Hall` are those of the functions it calls: `initTopicConf_of_steps`
puts the steps in `initTopicConf` together again.
-/

namespace Cmqtt

open Session (Event)

/-! ## Topic filters -/

/-- The levels of a topic. -/
def levels (topic : List UInt8) : List (List UInt8) := topic.splitOn 47

/-- The levels of a topic match those of a filter: `+` stands for any level, and
    `#` at the end for any levels. -/
def matchLevels : List (List UInt8) → List (List UInt8) → Bool
  | [], [] => true
  | [], _ :: _ => false
  | f :: fs, [] => f == ascii "#" && fs.isEmpty
  | f :: fs, t :: ts =>
    (f == ascii "#" && fs.isEmpty) || ((f == ascii "+" || f == t) && matchLevels fs ts)

/-- A topic matches a filter; topics starting with `$` need a filter that does. -/
def topicMatches (filter topic : List UInt8) : Bool :=
  (topic.head? != some 36 || filter.head? == some 36) && matchLevels (levels filter) (levels topic)

/-- A filter without wildcards. -/
def Literal (filter : List UInt8) : Prop :=
  ∀ l ∈ levels filter, l ≠ ascii "+" ∧ l ≠ ascii "#"

instance : DecidablePred Literal := fun filter =>
  inferInstanceAs (Decidable (∀ l ∈ levels filter, l ≠ ascii "+" ∧ l ≠ ascii "#"))

theorem eq_of_matchLevels {fs ts : List (List UInt8)}
    (hfs : ∀ f ∈ fs, f ≠ ascii "+" ∧ f ≠ ascii "#") (h : matchLevels fs ts) : fs = ts := by
  induction fs generalizing ts with
  | nil =>
    rcases ts with _ | ⟨t, ts⟩
    · rfl
    · cases h
  | cons f fs ih =>
    obtain ⟨hplus, hhash⟩ := hfs f List.mem_cons_self
    rcases ts with _ | ⟨t, ts⟩
    · simp [matchLevels, hhash] at h
    · simp only [matchLevels, beq_eq_false_iff_ne.2 hplus, beq_eq_false_iff_ne.2 hhash,
        Bool.false_and, Bool.false_or, Bool.and_eq_true, beq_iff_eq] at h
      rw [h.1, ih (fun f hf => hfs f (List.mem_cons_of_mem _ hf)) h.2]

/-- A filter without wildcards only matches itself. -/
theorem eq_of_topicMatches {filter topic : List UInt8} (hf : Literal filter)
    (h : topicMatches filter topic) : filter = topic := by
  simp only [topicMatches, Bool.and_eq_true] at h
  have hlevels := congrArg (List.intercalate [47]) (eq_of_matchLevels hf h.2)
  rwa [levels, levels, List.intercalate_splitOn, List.intercalate_splitOn] at hlevels

/-! ## The machine -/

/-- What the process is given: the settings `main` loaded, the heap, the file
    `initTopicConf` reads, and the database. -/
structure Env where
  settings : Settings
  heap : Heap
  file : Option File
  db : Database

/-- The keys of the section `[TOPIC]`. -/
def Env.getKey (env : Env) : CString → Except Stop CString := topicKey env.file

/-- An environment in which one topic is enabled. -/
def Env.oneTopic : Env where
  settings := .default
  heap := .unlimited
  file := some (.regular (ascii "[TOPIC]\nNUM=1\nDEFAULT=1\n"))
  db := ⟨some 7, true⟩

/-- Where `Hall` is, in `core_init`. -/
inductive HallPc
  /-- Before `MQTTAsync_create` in `init_mqtt_client`. -/
  | create
  /-- Before `MQTTAsync_setCallbacks`. -/
  | setCallbacks
  /-- Before `MQTTAsync_connect`. -/
  | connect
  /-- Before the assertion that the client is connected. -/
  | isConnected
  /-- At the start of `initTopicConf`. -/
  | confDefault
  /-- Before it reads the number of topics. -/
  | confNum (iDefault : ℤ)
  /-- Before it allocates the array. -/
  | confAlloc (iDefault : ℤ)
  /-- In its loop. -/
  | confLoop (iDefault : ℤ) (i idx : ℕ)
  /-- In the loop of `regTopicFromTable`. -/
  | regTopic (idx : ℕ)
  /-- After `core_init`. -/
  | running
  deriving DecidableEq, Repr

/-- The state of the process, the library and the broker. -/
structure System (M : Type) where
  pc : HallPc
  /-- Why the process stopped, if it did. -/
  stopped : Option Stop
  session : Session
  reg : RegFunc Handler
  /-- The calls of handlers so far. -/
  calls : List (Call Handler M)
  /-- The subscriptions accepted by the library and not granted yet. -/
  inflight : List CString
  /-- The subscriptions the broker has. -/
  subs : List CString
  /-- All subscriptions accepted so far. -/
  requested : List CString

/-- What happens next. -/
inductive Action (M : Type)
  /-- `Hall` takes a step; a function of the library it calls returns `rc`. -/
  | hall (rc : ℤ)
  | session (e : Event)
  /-- The broker grants the subscription `j` in flight. -/
  | granted (j : ℕ)
  /-- A message arrives. -/
  | arrived (topicName : List UInt8) (msg : M)

namespace System

variable {M : Type}

/-- The start of the process. -/
def start : System M where
  pc := .create
  stopped := none
  session := .start
  reg := .start ctrHandleTab
  calls := []
  inflight := []
  subs := []
  requested := []

/-- The process stops. -/
def stop (s : System M) (e : Stop) : System M := { s with stopped := some e }

/-- The state after a call, which may stop the process. -/
def orStop {α : Type} (s : System M) (x : Except Stop α) (f : α → System M) : System M :=
  match x with
  | .ok a => f a
  | .error e => s.stop e

variable (env : Env) (s : System M)

/-- The options of the first connect request in `init_mqtt_client`. -/
def setOptions (c : Session) : Session :=
  { c with connOpts := { c.connOpts with
      keepAliveInterval := env.settings.mqttKeepalive
      cleansession := 1
      onFailure := true
      context := c.clientContext
      username := some env.settings.mqttUsername
      password := some env.settings.mqttPwd } }

/-- `my_subsribe_topic`, where `MQTTAsync_subscribe` returns `rc`. -/
def mySubsribeTopic (topic : CString) (rc : ℤ) : Option (System M) :=
  if rc ≠ 0 then some s
  else if s.session.connected then
    some { s with inflight := s.inflight ++ [topic], requested := s.requested ++ [topic] }
  else none

/-- A step of `Hall` in `init_mqtt_client`. -/
def initMqttClientStep (rc : ℤ) : Option (System M) :=
  match s.pc with
  | .create => some (if rc ≠ 0 then s.stop (.exit 1) else
    { s with
      pc := .setCallbacks
      session := { s.session with
        clientContext := some ⟨env.settings.mqttSvrIp, env.settings.mqttClientId⟩ } })
  | .setCallbacks => some (if rc ≠ 0 then s.stop (.exit 1) else
    { s with
      pc := .connect
      session := { s.session with callbacks := some s.session.clientContext } })
  | .connect =>
    -- the options stay set if the request is refused
    let c := setOptions env s.session
    (c.connect c.clientContext rc).map fun c =>
      if rc ≠ 0 then { s with session := c }.stop (.exit 1)
      else { s with pc := .isConnected, session := c }
  | .isConnected => some (if s.session.connected then { s with pc := .confDefault } else s.stop .abort)
  | _ => none

/-- A step of `Hall` in `initTopicConf`. -/
def initTopicConfStep : Option (System M) :=
  match s.pc with
  | .confDefault => some (s.orStop (confDefault env.getKey) fun iDefault =>
    { s with pc := .confNum iDefault })
  | .confNum iDefault => some (s.orStop
    (confNum ctrHandleTab env.getKey s.reg.topicNumLocal) fun topicNumLocal =>
      { s with pc := .confAlloc iDefault, reg := { s.reg with topicNumLocal } })
  | .confAlloc iDefault => some (s.orStop
    (confAlloc env.heap s.reg.topicNumLocal) fun l =>
      { s with
        pc := .confLoop iDefault 0 l.idx
        reg := { s.reg with handleTableLocal := some l.table } })
  | .confLoop iDefault i idx =>
    let l : ConfLoop Handler := ⟨idx, s.reg.handleTableLocal.getD []⟩
    if i < s.reg.topicNumLocal then
      some (s.orStop (confStep ctrHandleTab env.getKey iDefault l i) fun l =>
        { s with
          pc := .confLoop iDefault (i + 1) l.idx
          reg := { s.reg with handleTableLocal := some l.table } })
    else some (s.orStop (confFinish s.reg l) fun reg => { s with pc := .regTopic 0, reg })
  | _ => none

/-- A step of `Hall` in `regTopicFromTable`. -/
def regTopicFromTableStep (rc : ℤ) : Option (System M) :=
  match s.pc with
  | .regTopic idx =>
    if idx < s.reg.topicNumLocal then
      match regTopicStep s.reg idx with
      | .error e => some (s.stop e)
      | .ok none => some { s with pc := .regTopic (idx + 1) }
      | .ok (some topic) =>
        -- what `my_subsribe_topic` returns is not looked at
        (s.mySubsribeTopic topic rc).map fun s => { s with pc := .regTopic (idx + 1) }
    else some { s with pc := .running }
  | _ => none

/-- A step of `Hall`. -/
def hallStep (rc : ℤ) : Option (System M) :=
  match s.pc with
  | .create | .setCallbacks | .connect | .isConnected => s.initMqttClientStep env rc
  | .confDefault | .confNum _ | .confAlloc _ | .confLoop .. => s.initTopicConfStep env
  | .regTopic _ => s.regTopicFromTableStep rc
  | .running => none

/-- `my_mqqta_recvmsg`. -/
def myMqqtaRecvmsg (topicName : List UInt8) (msg : M) : System M :=
  -- `topicLen` is not looked at: the topic ends at its first NUL
  s.orStop (decodeMsgHandle (.ofBytes topicName) msg env.db s.reg) fun (reg, calls) =>
    { s with reg, calls := s.calls ++ calls }

/-- A connect request with a clean session succeeds. -/
def cleans : Event → Bool
  | .succeeded j => s.session.pending[j]?.any (·.cleansession != 0)
  | _ => false

/-- The broker may deliver a message of a topic. -/
def deliverable (topicName : List UInt8) : Bool :=
  s.requested.any fun filter => topicMatches filter.bytes topicName

/-- The state after an action, if it is possible. -/
def step (a : Action M) : Option (System M) :=
  -- a process that stopped takes its library along
  if s.stopped.isSome then none
  else
    match a with
    | .hall rc => s.hallStep env rc
    | .session e => (s.session.event env.settings e).map fun session =>
      { s with session, subs := if s.cleans e then [] else s.subs }
    | .granted j =>
      if s.session.connected then s.inflight[j]?.map fun topic =>
        { s with inflight := s.inflight.eraseIdx j, subs := s.subs ++ [topic] }
      else none
    | .arrived topicName msg =>
      if s.session.callbacks.isSome && s.deliverable topicName then
        some (s.myMqqtaRecvmsg env topicName msg)
      else none

/-! ## What a step does -/

/-- What a step of `Hall` does. -/
inductive HallStep (rc : ℤ) : System M → Prop
  | stop (e : Stop) (hpc : ∀ idx, s.pc = .regTopic idx → regTopicStep s.reg idx = .error e) :
      HallStep rc (s.stop e)
  | connectRefused (hpc : s.pc = .connect) :
      HallStep rc ({ s with session := setOptions env s.session }.stop (.exit 1))
  | create (hpc : s.pc = .create) (client : Client) :
      HallStep rc { s with
        pc := .setCallbacks
        session := { s.session with clientContext := some client } }
  | setCallbacks (hpc : s.pc = .setCallbacks) :
      HallStep rc { s with
        pc := .connect
        session := { s.session with callbacks := some s.session.clientContext } }
  | connect (hpc : s.pc = .connect) (c : Session)
      (hc : (setOptions env s.session).connect s.session.clientContext 0 = some c) :
      HallStep rc { s with pc := .isConnected, session := c }
  | isConnected (hpc : s.pc = .isConnected) (hcon : s.session.connected) :
      HallStep rc { s with pc := .confDefault }
  | confDefault (hpc : s.pc = .confDefault) (d : ℤ) (hd : confDefault env.getKey = .ok d) :
      HallStep rc { s with pc := .confNum d }
  | confNum {d : ℤ} (hpc : s.pc = .confNum d) (topicNumLocal : ℤ)
      (hnum : confNum ctrHandleTab env.getKey s.reg.topicNumLocal = .ok topicNumLocal) :
      HallStep rc { s with pc := .confAlloc d, reg := { s.reg with topicNumLocal } }
  | confAlloc {d : ℤ} (hpc : s.pc = .confAlloc d) (l : ConfLoop Handler)
      (hl : confAlloc env.heap s.reg.topicNumLocal = .ok l) :
      HallStep rc { s with
        pc := .confLoop d 0 l.idx
        reg := { s.reg with handleTableLocal := some l.table } }
  | confLoop {d : ℤ} {i idx : ℕ} (hpc : s.pc = .confLoop d i idx) (hi : i < s.reg.topicNumLocal)
      (l : ConfLoop Handler) (hl : confStep ctrHandleTab env.getKey d
        ⟨idx, s.reg.handleTableLocal.getD []⟩ i = .ok l) :
      HallStep rc { s with
        pc := .confLoop d (i + 1) l.idx
        reg := { s.reg with handleTableLocal := some l.table } }
  | confFinish {d : ℤ} {i idx : ℕ} (hpc : s.pc = .confLoop d i idx)
      (hi : ¬ i < s.reg.topicNumLocal) (reg : RegFunc Handler)
      (hreg : confFinish s.reg ⟨idx, s.reg.handleTableLocal.getD []⟩ = .ok reg) :
      HallStep rc { s with pc := .regTopic 0, reg }
  | skip {idx : ℕ} (hpc : s.pc = .regTopic idx) (hidx : idx < s.reg.topicNumLocal)
      (hreg : regTopicStep s.reg idx = .ok none) : HallStep rc { s with pc := .regTopic (idx + 1) }
  | refused {idx : ℕ} (hpc : s.pc = .regTopic idx) (hidx : idx < s.reg.topicNumLocal)
      (topic : CString) (hreg : regTopicStep s.reg idx = .ok (some topic)) (hrc : rc ≠ 0) :
      HallStep rc { s with pc := .regTopic (idx + 1) }
  | subscribed {idx : ℕ} (hpc : s.pc = .regTopic idx) (hidx : idx < s.reg.topicNumLocal)
      (topic : CString) (hreg : regTopicStep s.reg idx = .ok (some topic)) (hrc : rc = 0) :
      HallStep rc { s with
        pc := .regTopic (idx + 1)
        inflight := s.inflight ++ [topic]
        requested := s.requested ++ [topic] }
  | running {idx : ℕ} (hpc : s.pc = .regTopic idx) (hidx : ¬ idx < s.reg.topicNumLocal) :
      HallStep rc { s with pc := .running }

variable {env s} {s' : System M} {rc : ℤ} {a : Action M}

theorem orStop_cases {α : Type} {x : Except Stop α} {f : α → System M} (h : s.orStop x f = s') :
    (∃ e, s' = s.stop e) ∨ ∃ a, x = .ok a ∧ s' = f a := by
  rcases x with e | a
  · exact .inl ⟨e, h.symm⟩
  · exact .inr ⟨a, rfl, h.symm⟩

theorem hallStep_initMqttClient (h : s.initMqttClientStep env rc = some s') :
    HallStep env s rc s' := by
  rw [initMqttClientStep] at h
  split at h
  next hpc =>
    obtain rfl := Option.some.inj h
    split_ifs
    · exact .stop _ (by simp [hpc])
    · exact .create hpc _
  next hpc =>
    obtain rfl := Option.some.inj h
    split_ifs
    · exact .stop _ (by simp [hpc])
    · exact .setCallbacks hpc
  next hpc =>
    obtain ⟨c, hc, rfl⟩ := Option.map_eq_some_iff.1 h
    split_ifs with hrc
    · obtain ⟨rfl, -⟩ | ⟨hrc', -⟩ := Session.connect_cases hc
      · exact .connectRefused hpc
      · exact absurd hrc' hrc
    · obtain rfl := not_not.1 hrc
      exact .connect hpc c hc
  next hpc =>
    obtain rfl := Option.some.inj h
    split_ifs with hcon
    · exact .isConnected hpc hcon
    · exact .stop _ (by simp [hpc])
  next => cases h

theorem hallStep_initTopicConf (h : s.initTopicConfStep env = some s') : HallStep env s rc s' := by
  rw [initTopicConfStep] at h
  split at h
  next hpc =>
    obtain ⟨e, rfl⟩ | ⟨d, hd, rfl⟩ := orStop_cases (Option.some.inj h)
    · exact .stop _ (by simp [hpc])
    · exact .confDefault hpc d hd
  next d hpc =>
    obtain ⟨e, rfl⟩ | ⟨num, hnum, rfl⟩ := orStop_cases (Option.some.inj h)
    · exact .stop _ (by simp [hpc])
    · exact .confNum hpc num hnum
  next d hpc =>
    obtain ⟨e, rfl⟩ | ⟨l, hl, rfl⟩ := orStop_cases (Option.some.inj h)
    · exact .stop _ (by simp [hpc])
    · exact .confAlloc hpc l hl
  next d i idx hpc =>
    dsimp only at h
    split_ifs at h with hi
    · obtain ⟨e, rfl⟩ | ⟨l, hl, rfl⟩ := orStop_cases (Option.some.inj h)
      · exact .stop _ (by simp [hpc])
      · exact .confLoop hpc hi l hl
    · obtain ⟨e, rfl⟩ | ⟨reg, hreg, rfl⟩ := orStop_cases (Option.some.inj h)
      · exact .stop _ (by simp [hpc])
      · exact .confFinish hpc hi reg hreg
  next => cases h

theorem hallStep_regTopicFromTable (h : s.regTopicFromTableStep rc = some s') :
    HallStep env s rc s' := by
  rw [regTopicFromTableStep] at h
  split at h
  next idx hpc =>
    split_ifs at h with hidx
    · split at h
      next e he =>
        obtain rfl := Option.some.inj h
        refine .stop e fun idx' hpc' => ?_
        obtain rfl := HallPc.regTopic.inj (hpc.symm.trans hpc')
        exact he
      next hreg =>
        obtain rfl := Option.some.inj h
        exact .skip hpc hidx hreg
      next topic hreg =>
        obtain ⟨t, ht, rfl⟩ := Option.map_eq_some_iff.1 h
        simp only [mySubsribeTopic] at ht
        split_ifs at ht with hrc
        · obtain rfl := Option.some.inj ht
          exact .refused hpc hidx topic hreg hrc
        · obtain rfl := Option.some.inj ht
          exact .subscribed hpc hidx topic hreg (not_not.1 hrc)
    · obtain rfl := Option.some.inj h
      exact .running hpc hidx
  next => cases h

theorem hallStep_cases (h : s.hallStep env rc = some s') : HallStep env s rc s' := by
  rw [hallStep] at h
  split at h <;> first
    | exact hallStep_initMqttClient h
    | exact hallStep_initTopicConf h
    | exact hallStep_regTopicFromTable h
    | cases h

/-- What a step does. -/
theorem step_cases (h : s.step env a = some s') :
    (∃ rc, a = .hall rc ∧ HallStep env s rc s') ∨
    (∃ e c, a = .session e ∧ s.session.event env.settings e = some c ∧
      s' = { s with session := c, subs := if s.cleans e then [] else s.subs }) ∨
    (∃ j topic, a = .granted j ∧ s.inflight[j]? = some topic ∧
      s' = { s with inflight := s.inflight.eraseIdx j, subs := s.subs ++ [topic] }) ∨
    (∃ topicName msg, a = .arrived topicName msg ∧ s.deliverable topicName ∧
      s' = s.myMqqtaRecvmsg env topicName msg) := by
  have hstop : ¬ s.stopped.isSome := fun hs => by simp [step, hs] at h
  rcases a with rc | e | j | ⟨topicName, msg⟩ <;> simp only [step, if_neg hstop] at h
  · exact .inl ⟨rc, rfl, hallStep_cases h⟩
  · obtain ⟨c, hc, rfl⟩ := Option.map_eq_some_iff.1 h
    exact .inr (.inl ⟨e, c, rfl, hc, rfl⟩)
  · split_ifs at h
    obtain ⟨topic, ht, rfl⟩ := Option.map_eq_some_iff.1 h
    exact .inr (.inr (.inl ⟨j, topic, rfl, ht, rfl⟩))
  · split_ifs at h with hd
    rw [Bool.and_eq_true] at hd
    exact .inr (.inr (.inr ⟨topicName, msg, rfl, hd.2, (Option.some.inj h).symm⟩))

end System

/-- The machine of the process, the library and the broker. -/
def system (M : Type) (env : Env) : Machine (System M) (Action M) where
  init s := s = .start
  step := System.step env

end Cmqtt
