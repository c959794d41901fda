import Cmqtt.Paho.Requests

/-!
# What a step does with requests

A step settles requests, or gives a call of the application an identifier, or
accepts a request, or starts one (`step_effect`). There are two slips, which only
runs with a certain past come to:

* a call is given the identifier of another one that is under way, as these are not
  looked at (`doubles`);
* a command that waits for its response is dropped, as it is taken for a message that
  was at its address before (`drops`).
-/

namespace Cmqtt

open SocketBuffer MQTTPacket MQTTProtocol

/-- The identifiers that calls of a client have been given. -/
def msgids (i : ℕ) (drafts : List Draft) : List ℕ :=
  ((drafts.filter (·.client == i)).filterMap Draft.msgid).filter (· ≠ 0)

/-- A message has one of three qualities, and an identifier if it is to be acknowledged. -/
def Request.Valid (msgid : Option ℕ) : Request → Prop
  | publish _ _ qos _ => qos ≤ 2 ∧ (msgid = some 0 ↔ qos = 0)
  | _ => True

namespace Library

variable {s s' : Library} {i : ℕ} (opts : ℕ → ClientOptions)

theorem Settles.refuse (s : Library) (d : Draft) : s.Settles (s.refuse d) :=
  ⟨⟨rfl, rfl, le_rfl, List.erase_sublist, fun _ => rfl, fun _ => .refl _⟩, fun _ _ => .refl _⟩

/-- A command to connect or disconnect is put into the list. -/
theorem Settles.add {d : Draft} (h : d.request.isOrdinary = false) (s : Library)
    (msgid address current : ℕ) : s.Settles (s.add d msgid address current) := by
  rw [Library.add, h]
  exact (Settles.refuse s d).trans (.queue h msgid address current)

/-- The identifiers of a client that are not yet in the list. -/
def given (s : Library) (i : ℕ) : List ℕ := msgids i s.drafts

/-- Whether a call is given the identifier of another one that is under way. -/
def doubles (s : Library) (i : ℕ) : Action → Bool
  | .assign d => d.client == i && (s.assignMsgId i).any fun msgid => (s.given i).contains msgid
  | _ => false

/-- Whether a command to subscribe or unsubscribe is taken for a message that has been
    written, which was at its address. -/
def drops (s : Library) (i : ℕ) : Action → Bool
  | .writeComplete j _ => j == i && (s.written i).any fun cmd => !cmd.request.isPublish
  | _ => false

/-- What a step does with requests. -/
inductive Effect (s : Library) : Action → Library → Prop
  | settles {a : Action} {s' : Library} (h : s.Settles s') (hdoubles : ∀ i, s.doubles i a = false)
      (hdrops : ∀ i, s.drops i a = false) : Effect s a s'
  /-- A call begins. -/
  | drafted {a : Action} {s' : Library} {i : ℕ} {msgid : Option ℕ} {request : Request}
      (h : s.Settles s') (hmsgid : msgid = none ∨ msgid = some 0) (hvalid : request.Valid msgid)
      (hdoubles : ∀ i, s.doubles i a = false) (hdrops : ∀ i, s.drops i a = false) :
      Effect s a (s'.draft i msgid request)
  /-- A call is given an identifier. -/
  | given {d : Draft} {msgid : ℕ} (hd : d ∈ s.drafts) (hnone : d.msgid = none)
      (hassign : s.assignMsgId d.client = some msgid) (hne : msgid ≠ 0) :
      Effect s (.assign d) (s.give d msgid)
  | accepted {d : Draft} {msgid : ℕ} {address current : ℕ} (hd : d ∈ s.drafts)
      (hmsgid : d.msgid = some msgid) (hr : d.request.isOrdinary = true) :
      Effect s (.add d address current) (s.add d msgid address current)
  | started {env : Processing} {cmd : QueuedCommand} {rest : List QueuedCommand} {s' : Library}
      (htake : takeCommand (s.isReady opts env) [] s.commands = some (cmd, rest))
      (hcmd : cmd.request.isOrdinary = true)
      (hm : Moves cmd.client [cmd] cmd.ids
        { s with commands := rest, started := s.started ++ [cmd] } s') :
      Effect s (.processCommand env) s'
  /-- A request is lost. -/
  | dropped {i : ℕ} {rc : ℤ} {cmd : QueuedCommand} (hwritten : s.written i = some cmd)
      (hcmd : cmd.request.isPublish = false) :
      Effect s (.writeComplete i rc) (s.writeComplete i rc)

theorem effect_assign {d : Draft} (hd : d ∈ s.drafts) (hnone : d.msgid = none)
    (hs : s.assign d = some s') : Effect opts s (.assign d) s' := by
  obtain ⟨msgid, hassign, rfl⟩ := Option.map_eq_some_iff.1 hs
  split_ifs with hzero
  · refine .settles (.refuse s d) (fun i => ?_) fun _ => rfl
    by_cases hi : d.client = i
    · -- No call has been given 0.
      have hzero' : 0 ∉ s.given i := fun hmem => by simpa using (List.mem_filter.1 hmem).2
      simp [doubles, ← hi, hassign, hzero, hi ▸ hzero']
    · simp [doubles, hi]
  · exact .given hd hnone hassign hzero

theorem effect_processCommand (s : Library) (env : Processing) :
    Effect opts s (.processCommand env) (s.processCommand opts env) := by
  rw [Library.processCommand]
  split
  next => exact .settles (.refl s) (fun _ => rfl) fun _ => rfl
  next cmd rest htake =>
    cases hcmd : cmd.request.isOrdinary with
    | true => exact .started htake hcmd (moves_execute opts _ env hcmd)
    | false =>
      have hrest : s.Settles { s with commands := rest } :=
        ⟨⟨rfl, rfl, le_rfl, .refl _, ordinary_take_of_false htake hcmd, fun _ => .refl _⟩,
          fun _ _ => .refl _⟩
      refine .settles (hrest.trans ?_) (fun _ => rfl) fun _ => rfl
      rw [execute]
      cases hrequest : cmd.request with
      | connect conn => exact .processConnect opts _ cmd env conn
      | disconnect internal timeout => exact .processDisconnect opts _ cmd env internal timeout
      | _ => rw [hrequest] at hcmd; cases hcmd

theorem effect_writeComplete (s : Library) (i : ℕ) (rc : ℤ) :
    Effect opts s (.writeComplete i rc) (s.writeComplete i rc) := by
  by_cases hdrops : ∃ cmd, s.written i = some cmd ∧ cmd.request.isPublish = false
  · obtain ⟨cmd, hwritten, hcmd⟩ := hdrops
    exact .dropped hwritten hcmd
  · have hpublish : ∀ cmd, s.written i = some cmd → cmd.request.isPublish = true := by
      simpa using hdrops
    refine .settles (.writeComplete s i rc hpublish) (fun _ => rfl) fun j => ?_
    by_cases hj : i = j
    · subst hj
      cases hwritten : s.written i with
      | none => simp [drops, hwritten]
      | some cmd => simp [drops, hwritten, hpublish cmd hwritten]
    · simp [drops, hj]

/-- A call begins that has passed its checks. -/
theorem effect_draft {a : Action} {msgid : Option ℕ} {request : Request}
    (hmsgid : msgid = none ∨ msgid = some 0) (hvalid : request.Valid msgid)
    (hdoubles : ∀ i, s.doubles i a = false) (hdrops : ∀ i, s.drops i a = false) :
    Effect opts s a (s.draft i msgid request) :=
  .drafted (.refl s) hmsgid hvalid hdoubles hdrops

theorem effect_connect (s : Library) (i : ℕ) : Effect opts s (.connect i) (s.connect i) := by
  have hset : s.Settles (s.modify i fun a =>
      { a with connect := { a.connect with onSuccess := true } }) := .modify_rest rfl rfl rfl
  exact .drafted hset (.inr rfl) trivial (fun _ => rfl) fun _ => rfl

theorem effect_send (s : Library) (i : ℕ) (destinationName : CString) (payload : List UInt8)
    (qos : ℕ) (retained : Bool) :
    Effect opts s (.send i destinationName payload qos retained)
      (s.send i destinationName payload qos retained) := by
  have hrefl : Effect opts s (.send i destinationName payload qos retained) s :=
    .settles (.refl s) (fun _ => rfl) fun _ => rfl
  rw [Library.send]
  split_ifs with _ _ hqos hpos
  · exact hrefl
  · exact hrefl
  · exact hrefl
  · have hvalid : (Request.publish destinationName payload qos retained).Valid none :=
      ⟨not_lt.1 hqos, by simp [hpos.ne']⟩
    exact effect_draft opts (.inl rfl) hvalid (fun _ => rfl) fun _ => rfl
  · have hvalid : (Request.publish destinationName payload qos retained).Valid (some 0) :=
      ⟨not_lt.1 hqos, by simpa using hpos⟩
    exact effect_draft opts (.inr rfl) hvalid (fun _ => rfl) fun _ => rfl

theorem step_effect {a : Action} (hs : s.step opts a = some s') : Effect opts s a s' := by
  cases a with
  | connect i => exact Option.some.inj hs ▸ effect_connect opts s i
  | disconnect i timeout =>
    refine Option.some.inj hs ▸ ?_
    rw [Library.disconnect]
    split_ifs
    · exact .settles (.refl s) (fun _ => rfl) fun _ => rfl
    · exact effect_draft opts (.inr rfl) trivial (fun _ => rfl) fun _ => rfl
  | subscribe i topics =>
    refine Option.some.inj hs ▸ ?_
    rw [Library.subscribe]
    split_ifs
    · exact .settles (.refl s) (fun _ => rfl) fun _ => rfl
    · exact effect_draft opts (.inl rfl) trivial (fun _ => rfl) fun _ => rfl
    · exact .settles (.refl s) (fun _ => rfl) fun _ => rfl
  | unsubscribe i topics =>
    refine Option.some.inj hs ▸ ?_
    rw [Library.unsubscribe]
    split_ifs
    · exact .settles (.refl s) (fun _ => rfl) fun _ => rfl
    · exact effect_draft opts (.inl rfl) trivial (fun _ => rfl) fun _ => rfl
    · exact .settles (.refl s) (fun _ => rfl) fun _ => rfl
  | send i destinationName payload qos retained =>
    exact Option.some.inj hs ▸ effect_send opts s i destinationName payload qos retained
  | assign d =>
    rw [Library.step] at hs
    split_ifs at hs with hd
    exact effect_assign opts hd.1 hd.2 hs
  | refuse d =>
    rw [Library.step] at hs
    split_ifs at hs
    exact Option.some.inj hs ▸ .settles (.refuse s d) (fun _ => rfl) fun _ => rfl
  | add d address current =>
    rw [Library.step] at hs
    split_ifs at hs with hd
    obtain ⟨msgid, hmsgid, rfl⟩ := Option.map_eq_some_iff.1 hs
    cases hr : d.request.isOrdinary with
    | true => exact .accepted hd hmsgid hr
    | false => exact .settles (.add hr s msgid address current) (fun _ => rfl) fun _ => rfl
  | processCommand env => exact Option.some.inj hs ▸ effect_processCommand opts s env
  | receive i env retryFails current p =>
    rw [Library.step] at hs
    split_ifs at hs
    refine Option.some.inj hs ▸ .settles (.receive opts s i env retryFails current p) ?_ ?_
    · exact fun _ => rfl
    · exact fun _ => rfl
  | deliver i taken =>
    refine Option.some.inj hs ▸ .settles (.modify_rest rfl ?_ rfl) (fun _ => rfl) fun _ => rfl
    exact (deliverQueued_lists _ taken).1
  | readError i current =>
    rw [Library.step] at hs
    split_ifs at hs
    exact Option.some.inj hs ▸ .settles (.afterError opts s i current) (fun _ => rfl) fun _ => rfl
  | writeComplete i rc => exact Option.some.inj hs ▸ effect_writeComplete opts s i rc
  | connecting i up current =>
    rw [Library.step] at hs
    split_ifs at hs
    refine Option.some.inj hs ▸ .settles (.connecting opts s i up current) ?_ ?_
    · exact fun _ => rfl
    · exact fun _ => rfl
  | checkTimeouts i expired elapsed current =>
    refine Option.some.inj hs ▸ .settles (.checkTimeouts opts s i expired elapsed current) ?_ ?_
    · exact fun _ => rfl
    · exact fun _ => rfl
  | keepalive i current =>
    exact Option.some.inj hs ▸ .settles (.disconnectInternal s i current) (fun _ => rfl) fun _ => rfl

end Library

end Cmqtt
