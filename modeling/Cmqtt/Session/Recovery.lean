import Cmqtt.Session.System

/-!
# The client is never abandoned

From the first connect request on, the client is connected, or a connect request
is pending, or a call of `myReconnctMQTT` is in progress, unless one gave up
(`run_attended`): in every interleaving of `Hall`, of the calls of
`myReconnctMQTT`, and of the connection being made, failing and being lost.

Before, the client is idle (`Session.Idle`). `init_mqtt_client` sets all
callbacks before its connect request, and `Session.Armed` takes over.

What the requests of a call returned is read off the run (`attempts`). A call in
progress has made fewer than 100 of them, all refused, and can always make its
next one; so that its loop ends, whatever happens in between.
-/

namespace Cmqtt

/-- The first connect request has been accepted. -/
def HallPc.accepted : HallPc → Bool
  | .create | .setCallbacks | .connect => false
  | _ => true

/-- Nothing has been asked of the library yet. -/
structure Session.Idle (c : Session) : Prop where
  connected : c.connected = false
  pending : c.pending = []
  loops : c.loops = []
  sending : c.sending = []
  ended : c.ended = []
  made : c.made = 0

/-- Nothing happens to a client that is idle. -/
theorem Session.Idle.event {settings : Settings} {c c' : Session} {e : Session.Event} (h : c.Idle)
    (hc : c.event settings e = some c') : c' = c := by
  rcases e with ⟨j, rc⟩ | j | j | _ | rc | j | j
  · simp [Session.event, h.loops] at hc
  · simp [Session.event, h.pending] at hc
  · simp [Session.event, h.pending] at hc
  · simp [Session.event, h.connected] at hc
  · simp only [Session.event, Session.myMqqtaSendmsg, h.connected, Bool.false_eq_true, if_false] at hc
    split_ifs at hc
    exact (Option.some.inj hc).symm
  · simp [Session.event, h.sending] at hc
  · simp [Session.event, h.sending] at hc

namespace System

variable {M : Type} {env : Env} {s s' : System M} {a : Action M} {rc : ℤ}

/-- The client is idle until its first connect request, and attended from then
    on. -/
structure Recovering (s : System M) : Prop where
  idle : s.pc.accepted = false → s.session.Idle
  callbacks : s.pc = .connect → s.session.callbacks = some s.session.clientContext
  armed : s.pc.accepted → s.session.Armed
  attended : s.pc.accepted → s.session.Attended

/-- The options of the first connect request set all callbacks. -/
theorem armed_setOptions {c : Session} (h : c.Idle) (hcreated : c.clientContext ≠ none)
    (hcallbacks : c.callbacks = some c.clientContext) : (setOptions env c).Armed where
  created := hcreated
  callbacks := hcallbacks
  onFailure := rfl
  context := rfl
  pending o ho := by simp [setOptions, h.pending] at ho
  loops l hl := by simp [setOptions, h.loops] at hl
  sending x hx := by simp [setOptions, h.sending] at hx
  ended l hl := by simp [setOptions, h.ended] at hl

/-- A step of `Hall` that does not concern the client. -/
theorem Recovering.of_session (h : Recovering s) (hsession : s'.session = s.session)
    (hacc : s.pc.accepted) (hacc' : s'.pc.accepted) : Recovering s' where
  idle hidle := by cases hidle.symm.trans hacc'
  callbacks hpc := by
    rw [hpc] at hacc'
    cases hacc'
  armed _ := hsession ▸ h.armed hacc
  attended _ := hsession ▸ h.attended hacc

theorem Recovering.hallStep (h : Recovering s) (hs : HallStep env s rc s') : Recovering s' := by
  cases hs with
  | stop => exact ⟨h.idle, h.callbacks, h.armed, h.attended⟩
  | connectRefused hpc =>
    have hidle := h.idle (by rw [hpc]; rfl)
    refine ⟨fun _ => ⟨hidle.connected, hidle.pending, hidle.loops, hidle.sending, hidle.ended,
      hidle.made⟩,
      h.callbacks, fun hacc => ?_, fun hacc => ?_⟩
    all_goals
      rw [stop, hpc] at hacc
      cases hacc
  | create hpc client =>
    have hidle := h.idle (by rw [hpc]; rfl)
    exact ⟨fun _ => ⟨hidle.connected, hidle.pending, hidle.loops, hidle.sending, hidle.ended,
      hidle.made⟩,
      nofun, nofun, nofun⟩
  | setCallbacks hpc =>
    have hidle := h.idle (by rw [hpc]; rfl)
    exact ⟨fun _ => ⟨hidle.connected, hidle.pending, hidle.loops, hidle.sending, hidle.ended,
      hidle.made⟩,
      fun _ => rfl, nofun, nofun⟩
  | connect hpc c hc =>
    -- the callbacks of the library were set before, those of the request are now
    have harmed : (setOptions env s.session).Armed :=
      armed_setOptions (h.idle (by rw [hpc]; rfl)) (Session.ne_none_of_connect hc) (h.callbacks hpc)
    exact ⟨nofun, nofun, fun _ => harmed.connect hc,
      fun _ => (Session.attended_connect hc).imp_right .inl⟩
  | isConnected hpc | confDefault hpc | confNum hpc | confAlloc hpc | confLoop hpc
    | confFinish hpc | skip hpc | refused hpc | subscribed hpc | running hpc =>
    exact h.of_session rfl (by rw [hpc]; rfl) rfl

theorem Recovering.step (h : Recovering s) (hs : s.step env a = some s') : Recovering s' := by
  obtain ⟨rc, -, hs⟩ | ⟨e, c, -, hc, rfl⟩ | ⟨j, topic, -, -, rfl⟩ | ⟨topicName, msg, -, -, rfl⟩ :=
    step_cases hs
  · exact h.hallStep hs
  · refine ⟨?_, ?_, ?_, ?_⟩
    · intro hidle
      exact (h.idle hidle).event hc ▸ h.idle hidle
    · intro hpc
      have hidle : s.session.Idle := h.idle (by rw [show s.pc = .connect from hpc]; rfl)
      exact hidle.event hc ▸ h.callbacks hpc
    · intro hacc
      exact (h.armed hacc).event hc
    · intro hacc
      exact (h.attended hacc).event (h.armed hacc) hc
  · exact ⟨h.idle, h.callbacks, h.armed, h.attended⟩
  · obtain ⟨e, hstop⟩ | ⟨x, -, hok⟩ := orStop_cases (rfl : s.myMqqtaRecvmsg env topicName msg = _)
    · rw [hstop]
      exact ⟨h.idle, h.callbacks, h.armed, h.attended⟩
    · rw [hok]
      exact ⟨h.idle, h.callbacks, h.armed, h.attended⟩

theorem reachable_recovering (hs : (system M env).Reachable s) : Recovering s := by
  refine hs.invariant (fun s hinit => ?_) fun s a s' _ h hstep => h.step hstep
  rw [hinit]
  exact ⟨fun _ => ⟨rfl, rfl, rfl, rfl, rfl, rfl⟩, nofun, nofun, nofun⟩

/-! ## The calls of `myReconnctMQTT` in a run -/

/-- What the requests of the call `n` of `myReconnctMQTT` returned in a run. -/
def attempts (n : ℕ) (tr : List (System M × Action M)) : List ℤ :=
  tr.filterMap fun p => match p.2 with
    | .session e => p.1.session.attempted n e
    | _ => none

variable {tr : List (System M × Action M)}

theorem attempts_snoc_session {n : ℕ} {e : Session.Event} :
    attempts n (tr ++ [(s, .session e)]) = attempts n tr ++ (s.session.attempted n e).toList := by
  rw [attempts, attempts, List.filterMap_append]
  cases h : s.session.attempted n e <;> simp [h]

theorem attempts_snoc (ha : ∀ e, a ≠ .session e) :
    (fun n => attempts n (tr ++ [(s, a)])) = fun n => attempts n tr := by
  funext n
  rw [attempts, attempts, List.filterMap_append]
  cases a with
  | session e => exact absurd rfl (ha e)
  | hall | granted | arrived => simp

/-- A step of `Hall` is not part of a call of `myReconnctMQTT`. -/
theorem HallStep.reconnects (hs : HallStep env s rc s') :
    s'.session.reconnects = s.session.reconnects ∧ s'.session.made = s.session.made := by
  cases hs with
  | connect hpc c hc =>
    obtain ⟨rfl, -⟩ | ⟨-, rfl⟩ := Session.connect_cases hc <;> exact ⟨rfl, rfl⟩
  | stop | connectRefused | create | setCallbacks | isConnected | confDefault | confNum | confAlloc
    | confLoop | confFinish | skip | refused | subscribed | running => exact ⟨rfl, rfl⟩

theorem counted_step (h : s.session.Counted fun n => attempts n tr) (hs : s.step env a = some s') :
    s'.session.Counted fun n => attempts n (tr ++ [(s, a)]) := by
  obtain ⟨rc, rfl, hhall⟩ | ⟨e, c, rfl, hc, rfl⟩ | ⟨j, topic, rfl, -, rfl⟩ |
    ⟨topicName, msg, rfl, -, rfl⟩ := step_cases hs
  · rw [attempts_snoc (a := .hall rc) nofun]
    obtain ⟨hcalls, hmade⟩ := hhall.reconnects
    exact ⟨hcalls ▸ hmade ▸ h.numbers, hcalls ▸ h.kept, hmade ▸ h.fresh⟩
  · simp only [attempts_snoc_session]
    exact h.event hc
  · rw [attempts_snoc (a := .granted j) nofun]
    exact h
  · rw [attempts_snoc (a := .arrived topicName msg) nofun]
    obtain ⟨e, hstop⟩ | ⟨x, -, hok⟩ := orStop_cases (rfl : s.myMqqtaRecvmsg env topicName msg = _)
    · exact hstop ▸ h
    · exact hok ▸ h

theorem run_counted (h : (system M env).Run .start tr s) :
    s.session.Counted fun n => attempts n tr := by
  refine h.invariant (P := fun tr s => s.session.Counted fun n => attempts n tr) rfl
    ⟨.refl _, fun l hl => ?_, fun n _ => rfl⟩ fun tr s a s' _ h hstep => counted_step h hstep
  cases hl

/-- The client is never abandoned: from the first connect request on, it is
    connected or somebody works at it, unless a call of `myReconnctMQTT` gave up.
    Such a call has either made fewer than 100 requests, all refused, and can
    make its next one, or it has ended, after 1 to 100 requests, at the first one
    accepted. -/
theorem run_attended (h : (system M env).Run .start tr s) (hacc : s.pc.accepted) :
    (s.session.connected ∨ s.session.pending ≠ [] ∨ s.session.loops ≠ [] ∨
      ∃ n < s.session.made, (attempts n tr).length = 100 ∧ ∀ rc ∈ attempts n tr, rc ≠ 0) ∧
    ∀ n < s.session.made,
      ((∃ l ∈ s.session.loops, l.number = n) ∧ (∀ l ∈ s.session.ended, l.number ≠ n) ∧
        (attempts n tr).length < 100 ∧ (∀ rc ∈ attempts n tr, rc ≠ 0) ∧
        (s.stopped = none → ∀ rc, ∃ j s', s.step env (.session (.attempt j rc)) = some s' ∧
          attempts n (tr ++ [(s, .session (.attempt j rc))]) = attempts n tr ++ [rc])) ∨
      ((∃ l ∈ s.session.ended, l.number = n) ∧ (∀ l ∈ s.session.loops, l.number ≠ n) ∧
        Reconnect.Ended (attempts n tr)) := by
  have hrec := reachable_recovering (h.reachable rfl)
  have hcount := run_counted h
  refine ⟨(hrec.attended hacc).imp_right (Or.imp_right (Or.imp_right ?_)), fun n hn => ?_⟩
  · rintro ⟨l, hl, hup⟩
    have hmem : l ∈ s.session.reconnects := List.mem_append_right _ hl
    exact ⟨l.number, hcount.number_lt hmem, hcount.kept l hmem ▸ hup⟩
  · obtain ⟨l, hl, rfl⟩ := List.mem_map.1 (hcount.numbers.symm.subset (List.mem_range.2 hn))
    have hkept : l.rcs = attempts l.number tr := hcount.kept l hl
    rcases List.mem_append.1 hl with hl | hl
    · have hprog := ((hrec.armed hacc).loops l hl).1
      refine .inl ⟨⟨l, hl, rfl⟩, fun l' hl' => (hcount.number_ne hl hl').symm,
        hkept ▸ hprog.length_lt, hkept ▸ hprog.refused, fun hstop rc => ?_⟩
      obtain ⟨j, hj, hget⟩ := List.getElem_of_mem hl
      have hl? : s.session.loops[j]? = some l := List.getElem?_eq_some_iff.2 ⟨hj, hget⟩
      obtain ⟨c, hc⟩ := (hrec.armed hacc).event_attempt (s := env.settings) hl? rc
      have hstep : (s.step env (.session (.attempt j rc))).isSome := by
        simp [System.step, hstop, hc]
      obtain ⟨s', hs'⟩ := Option.isSome_iff_exists.1 hstep
      refine ⟨j, s', hs', ?_⟩
      rw [attempts_snoc_session]
      simp [Session.attempted, hl?]
    · exact .inr ⟨⟨l, hl, rfl⟩, fun l' hl' => hcount.number_ne hl' hl,
        hkept ▸ (hrec.armed hacc).ended l hl⟩

/-- The first connect request fails, and so does the first request of the call of
    `myReconnctMQTT` that takes over: it is in progress. -/
theorem run_attended_failed :
    ∃ (tr : List (System Unit × Action Unit)) (s : System Unit),
      (system Unit .oneTopic).Run .start tr s ∧ s.session.connected = false ∧
      s.session.pending = [] ∧ attempts 0 tr = [-1] ∧ ∃ l ∈ s.session.loops, l.number = 0 := by
  have hexec : ∃ s, (system Unit .oneTopic).exec .start
      [.hall 0, .hall 0, .hall 0, .session (.failed 0), .session (.attempt 0 (-1))] = some s ∧
      s.pc.accepted ∧ s.session.connected = false ∧ s.session.pending = [] ∧
      s.session.ended = [] ∧ s.session.made = 1 :=
    ⟨_, rfl, rfl, rfl, rfl, rfl, rfl⟩
  obtain ⟨s, hs, hacc, hcon, hpending, hended, hmade⟩ := hexec
  have hrun := Machine.run_of_exec hs
  obtain ⟨hloops, -⟩ | ⟨⟨l, hl, -⟩, -⟩ := (run_attended hrun hacc).2 0 (by omega)
  · exact ⟨_, s, hrun, hcon, hpending, rfl, hloops⟩
  · rw [hended] at hl
    cases hl

end System

end Cmqtt
