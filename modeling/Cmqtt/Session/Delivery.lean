import Cmqtt.Session.System

/-!
# Messages arrive at their handlers

The callback for messages is set before the table of topics exists. A message
still finds its handler, in every interleaving: the broker only delivers what
was subscribed to, the program subscribes only after it has built the table, and
then only to topics in the table.

The invariant (`Conforming`) has two parts. Up to the table, `Hall` has done a
part of `initTopicConf` (`Phase`), and nothing was subscribed to. From then on,
the table is what `initTopicConf` left, but for its counters (`Loaded`), and
everything subscribed to is in it.

A message whose handler needs a database that cannot be reached is not
dispatched (`arrived_not_dispatched`): the process exits at the first message.
-/

namespace Cmqtt

/-- `Hall` is past building the table. -/
def HallPc.built : HallPc → Bool
  | .regTopic _ | .running => true
  | _ => false

namespace System

variable {M : Type} {env : Env} {s s' : System M} {a : Action M} {rc : ℤ} {r r' : RegFunc Handler}
  {n : ℕ} {sel : List (CmdPro Handler)}

/-- The table of topics that `initTopicConf` left, but for its counters. -/
structure Loaded (env : Env) (r : RegFunc Handler) (n : ℕ) (sel : List (CmdPro Handler)) : Prop where
  ready : Ready env.db n sel r
  routes : (sel.map CmdPro.route).Sublist (ctrHandleTab.map CmdPro.route)
  conf : ∃ v r₀, initTopicConf ctrHandleTab env.heap env.getKey (.start ctrHandleTab) = .ok (v, r₀) ∧
    r.topicNames = r₀.topicNames

/-- How far the table of topics is built. -/
def Phase (env : Env) (pc : HallPc) (r : RegFunc Handler) : Prop :=
  match pc with
  | .create | .setCallbacks | .connect | .isConnected | .confDefault => r = .start ctrHandleTab
  | .confNum d => confDefault env.getKey = .ok d ∧ r = .start ctrHandleTab
  | .confAlloc d => confDefault env.getKey = .ok d ∧
    ∃ num, confNum ctrHandleTab env.getKey ctrHandleTab.length = .ok num ∧
      r = { RegFunc.start ctrHandleTab with topicNumLocal := num }
  | .confLoop d i idx => confDefault env.getKey = .ok d ∧
    ∃ num l table, confNum ctrHandleTab env.getKey ctrHandleTab.length = .ok num ∧
      confAlloc env.heap num = .ok l ∧ i ≤ num.toNat ∧
      (List.range i).foldlM (confStep ctrHandleTab env.getKey d) l = .ok ⟨idx, table⟩ ∧
      r = { RegFunc.start ctrHandleTab with topicNumLocal := num, handleTableLocal := some table }
  | .regTopic _ | .running => ∃ n sel, Loaded env r n sel

/-- Everything subscribed to is in the table, which is built before. -/
structure Conforming (env : Env) (s : System M) : Prop where
  phase : Phase env s.pc s.reg
  requested : ∀ topic ∈ s.requested, s.pc.built ∧ topic ∈ s.reg.topicNames

/-! ## The table -/

/-- The table `initTopicConf` leaves has entries of `ctrHandleTab`. -/
theorem exists_loaded {v : ℤ}
    (h : initTopicConf ctrHandleTab env.heap env.getKey (.start ctrHandleTab) = .ok (v, r)) :
    ∃ n sel, Loaded env r n sel := by
  obtain ⟨n, sel, hsub, hwf, rfl⟩ := exists_wellFormed h
  have hroutes : (sel.map CmdPro.route).Sublist (ctrHandleTab.map CmdPro.route) :=
    hsub.map CmdPro.route
  exact ⟨n, sel, ready_load ctrHandleTab env.db hwf, hroutes, v, _, h, rfl⟩

/-- The steps of `Hall` up to the end of `initTopicConf` compute what it does. -/
theorem initTopicConf_of_steps {d num : ℤ} {idx : ℕ} {l : ConfLoop Handler}
    {table : List (CmdPro Handler)} (hd : confDefault env.getKey = .ok d)
    (hnum : confNum ctrHandleTab env.getKey ctrHandleTab.length = .ok num)
    (hl : confAlloc env.heap num = .ok l)
    (hloop : (List.range num.toNat).foldlM (confStep ctrHandleTab env.getKey d) l = .ok ⟨idx, table⟩)
    (hr : confFinish (.start ctrHandleTab) ⟨idx, table⟩ = .ok r) :
    initTopicConf ctrHandleTab env.heap env.getKey (.start ctrHandleTab) =
      .ok (r.topicNumLocal, r) := by
  have hstart : (RegFunc.start ctrHandleTab).topicNumLocal = ctrHandleTab.length := rfl
  rw [initTopicConf, hd, hstart, hnum]
  simp only [bind, Except.bind, hl]
  rw [hloop]
  simp only [hr]
  rfl

theorem Phase.hallStep (h : Phase env s.pc s.reg) (hs : HallStep env s rc s') :
    Phase env s'.pc s'.reg := by
  cases hs with
  | stop => exact h
  | connectRefused => exact h
  | create hpc | setCallbacks hpc | connect hpc | isConnected hpc =>
    rw [hpc] at h
    exact h
  | confDefault hpc d hd =>
    rw [hpc] at h
    exact ⟨hd, h⟩
  | confNum hpc num hnum =>
    rw [hpc] at h
    obtain ⟨hd, hr⟩ := h
    rw [hr] at hnum ⊢
    exact ⟨hd, num, hnum, rfl⟩
  | confAlloc hpc l hl =>
    rw [hpc] at h
    obtain ⟨hd, num, hnum, hr⟩ := h
    rw [hr] at hl ⊢
    exact ⟨hd, num, l, l.table, hnum, hl, Nat.zero_le _, rfl, rfl⟩
  | confLoop hpc hi l hl =>
    rw [hpc] at h
    obtain ⟨hd, num, l₀, table, hnum, hl₀, hle, hloop, hr⟩ := h
    rw [hr] at hi hl ⊢
    change _ < num at hi
    exact ⟨hd, num, l₀, l.table, hnum, hl₀, by omega, (foldlM_range_succ hloop).trans hl, rfl⟩
  | confFinish hpc hi reg hreg =>
    rw [hpc] at h
    obtain ⟨hd, num, l₀, table, hnum, hl₀, hle, hloop, hr⟩ := h
    rw [hr] at hi hreg
    change ¬ _ < num at hi
    -- the loop is at its end
    obtain rfl : _ = num.toNat := le_antisymm hle (by omega)
    exact exists_loaded (initTopicConf_of_steps hd hnum hl₀ hloop hreg)
  | skip hpc | refused hpc | subscribed hpc | running hpc =>
    rw [hpc] at h
    exact h

/-! ## Subscribing and dispatching -/

/-- `regTopicFromTable` subscribes to the topics in the table. -/
theorem Loaded.regTopicStep_eq (h : Loaded env r n sel) {idx : ℕ} (hidx : idx < r.topicNumLocal) :
    ∃ topic, r.topicNames[idx]? = some topic ∧ regTopicStep r idx = .ok (some topic) := by
  have hlt : idx < sel.length := by
    have hnum := h.ready.num
    omega
  refine ⟨sel[idx].topicName, ?_, ?_⟩
  · rw [h.ready.topicNames_eq, List.getElem?_map, List.getElem?_eq_getElem hlt]
    rfl
  · rw [← h.ready.load_eq]
    exact regTopicStep_load hlt (h.ready.wf.bc _ (List.getElem_mem hlt))

/-- A message of a topic in the table goes to the handler of the topic. -/
theorem Loaded.decodeMsgHandle_eq (h : Loaded env r n sel) {topic : CString}
    (ht : topic ∈ r.topicNames) (msg : M) :
    ∃ e bc, e ∈ ctrHandleTab ∧ e.topicName = topic ∧ e.bc = some bc ∧
      (∀ con, dbInit env.db = .ok con → ∃ r' sel',
        decodeMsgHandle topic msg env.db r = .ok (r', [⟨bc, topic, msg, con⟩]) ∧
          Loaded env r' n sel' ∧ r'.topicNames = r.topicNames) ∧
      ∀ e, dbInit env.db = .error e → decodeMsgHandle topic msg env.db r = .error e := by
  rw [h.ready.topicNames_eq] at ht
  obtain ⟨e, he, rfl⟩ := List.mem_map.1 ht
  obtain ⟨bc, hbc⟩ := Option.isSome_iff_exists.1 (h.ready.wf.bc e he)
  obtain ⟨e', he', hroute⟩ := List.mem_map.1 (h.routes.subset (List.mem_map_of_mem he))
  obtain ⟨hname, hbc'⟩ := Prod.mk.inj hroute
  refine ⟨e', bc, he', hname, hbc'.trans hbc, fun con hdb => ?_, fun stop hdb => ?_⟩
  · obtain ⟨r', hr', hready, -⟩ :=
      Cmqtt.decodeMsgHandle_eq msg hdb h.ready (h.ready.wf.named e he)
    have hcalls : plainDispatch con sel (e.topicName, msg) = [⟨bc, e.topicName, msg, con⟩] := by
      obtain ⟨i, hi⟩ := List.mem_iff_getElem?.1 he
      rw [plainDispatch, h.ready.wf.find?_eq hi rfl, Option.bind_some, hbc]
    have hnames : r'.topicNames = r.topicNames := by
      rw [hready.topicNames_eq, topicName_bump, h.ready.topicNames_eq]
    refine ⟨r', bump e.topicName sel, hcalls ▸ hr', ⟨hready, ?_, ?_⟩, hnames⟩
    · rw [route_bump]
      exact h.routes
    · rw [hnames]
      exact h.conf
  · exact decodeMsgHandle_eq_error msg hdb h.ready

theorem phase_iff_of_built {pc : HallPc} (hbuilt : pc.built) :
    Phase env pc r ↔ ∃ n sel, Loaded env r n sel := by
  cases pc <;> first
    | exact Iff.rfl
    | cases hbuilt

theorem Conforming.loaded (h : Conforming env s) (hbuilt : s.pc.built) :
    ∃ n sel, Loaded env s.reg n sel :=
  (phase_iff_of_built hbuilt).1 h.phase

/-- A message that is delivered is of a topic in the table. -/
theorem Conforming.exists_topic (h : Conforming env s) {topicName : List UInt8}
    (hd : s.deliverable topicName) :
    s.pc.built ∧ ∃ topic ∈ s.reg.topicNames, CString.ofBytes topicName = topic ∧
      topic.bytes = topicName := by
  obtain ⟨topic, ht, hmatch⟩ := List.any_eq_true.1 hd
  obtain ⟨hbuilt, hmem⟩ := h.requested topic ht
  obtain ⟨n, sel, hloaded⟩ := h.loaded hbuilt
  have hliteral : Literal topic.bytes := by
    have hall : ∀ route ∈ ctrHandleTab.map CmdPro.route, Literal route.1.bytes := by decide
    obtain ⟨e, he, rfl⟩ := List.mem_map.1 (hloaded.ready.topicNames_eq ▸ hmem)
    exact hall _ (hloaded.routes.subset (List.mem_map_of_mem he))
  -- no topic of the table has wildcards, so the filter is the topic
  obtain rfl := eq_of_topicMatches hliteral hmatch
  exact ⟨hbuilt, topic, hmem, CString.ofBytes_bytes topic, rfl⟩

/-! ## The invariant -/

theorem Conforming.hallStep (h : Conforming env s) (hs : HallStep env s rc s') :
    Conforming env s' := by
  refine ⟨h.phase.hallStep hs, ?_⟩
  cases hs with
  | stop => exact h.requested
  | connectRefused => exact h.requested
  | create hpc | setCallbacks hpc | connect hpc | isConnected hpc | confDefault hpc | confNum hpc
    | confAlloc hpc | confLoop hpc | confFinish hpc =>
    -- nothing was subscribed to yet
    intro topic ht
    have hbuilt := (h.requested topic ht).1
    rw [hpc] at hbuilt
    cases hbuilt
  | skip | refused | running => exact fun topic ht => ⟨rfl, (h.requested topic ht).2⟩
  | subscribed hpc hidx topic hreg =>
    obtain ⟨n, sel, hloaded⟩ := h.loaded (by rw [hpc]; rfl)
    obtain ⟨topic', hmem, htopic'⟩ := hloaded.regTopicStep_eq hidx
    obtain rfl : topic = topic' := Option.some.inj (Except.ok.inj (hreg.symm.trans htopic'))
    intro t ht
    rcases List.mem_append.1 ht with ht | ht
    · exact ⟨rfl, (h.requested t ht).2⟩
    · rw [List.mem_singleton.1 ht]
      exact ⟨rfl, List.mem_of_getElem? hmem⟩

/-- What a message that arrives does. -/
theorem Conforming.recvmsg (h : Conforming env s) {topicName : List UInt8} (msg : M)
    (hd : s.deliverable topicName) :
    s.pc.built ∧ ∃ e bc, e ∈ ctrHandleTab ∧ e.topicName.bytes = topicName ∧
      e.topicName ∈ s.reg.topicNames ∧ e.bc = some bc ∧
      (∀ con, dbInit env.db = .ok con → ∃ reg, s.myMqqtaRecvmsg env topicName msg =
          { s with reg, calls := s.calls ++ [⟨bc, e.topicName, msg, con⟩] } ∧
        reg.topicNames = s.reg.topicNames ∧ ∃ n sel, Loaded env reg n sel) ∧
      ∀ stop, dbInit env.db = .error stop → s.myMqqtaRecvmsg env topicName msg = s.stop stop := by
  obtain ⟨hbuilt, topic, hmem, hname, hbytes⟩ := h.exists_topic hd
  obtain ⟨n, sel, hloaded⟩ := h.loaded hbuilt
  obtain ⟨e, bc, he, rfl, hbc, hok, herror⟩ := hloaded.decodeMsgHandle_eq hmem msg
  refine ⟨hbuilt, e, bc, he, hbytes, hmem, hbc, fun con hdb => ?_, fun stop hdb => ?_⟩
  · obtain ⟨reg, sel', hreg, hloaded', hnames⟩ := hok con hdb
    refine ⟨reg, ?_, hnames, n, sel', hloaded'⟩
    rw [myMqqtaRecvmsg, hname, hreg]
    rfl
  · rw [myMqqtaRecvmsg, hname, herror stop hdb]
    rfl

theorem Conforming.step (h : Conforming env s) (hs : s.step env a = some s') : Conforming env s' := by
  obtain ⟨rc, -, hs⟩ | ⟨e, c, -, -, rfl⟩ | ⟨j, topic, -, -, rfl⟩ | ⟨topicName, msg, -, hd, rfl⟩ :=
    step_cases hs
  · exact h.hallStep hs
  · exact ⟨h.phase, h.requested⟩
  · exact ⟨h.phase, h.requested⟩
  · obtain ⟨hbuilt, e, bc, -, -, -, -, hok, herror⟩ := h.recvmsg msg hd
    rcases hdb : dbInit env.db with stop | con
    · rw [herror stop hdb]
      exact ⟨h.phase, h.requested⟩
    · obtain ⟨reg, hreg, hnames, hloaded⟩ := hok con hdb
      rw [hreg]
      refine ⟨(phase_iff_of_built hbuilt).2 hloaded, fun topic ht => ?_⟩
      rw [hnames]
      exact h.requested topic ht

theorem reachable_conforming (hs : (system M env).Reachable s) : Conforming env s := by
  refine hs.invariant (fun s hinit => ?_) fun s a s' _ h hstep => h.step hstep
  rw [hinit]
  exact ⟨rfl, nofun⟩

theorem of_arrived {topicName : List UInt8} {msg : M}
    (h : (system M env).step s (.arrived topicName msg) = some s') :
    s.stopped = none ∧ s.deliverable topicName ∧ s' = s.myMqqtaRecvmsg env topicName msg := by
  simp only [system, System.step] at h
  split_ifs at h with hstop hd
  rw [Bool.and_eq_true] at hd
  exact ⟨by simpa using hstop, hd.2, (Option.some.inj h).symm⟩

/-- Subscribing and dispatching agree at every moment: when a message arrives,
    the table `initTopicConf` builds is there and not empty, and the message goes
    to exactly one handler, the one `ctrHandleTab` has for its topic. (Without a
    database, the process exits instead.) -/
theorem arrived_dispatched {topicName : List UInt8} {msg : M} (hs : (system M env).Reachable s)
    (h : (system M env).step s (.arrived topicName msg) = some s') :
    (∃ v r, initTopicConf ctrHandleTab env.heap env.getKey (.start ctrHandleTab) = .ok (v, r) ∧
      s.reg.topicNames = r.topicNames) ∧
    s.reg.handleTableLocal.isSome ∧ 1 ≤ s.reg.topicNumLocal ∧
    ∃ e bc, e ∈ ctrHandleTab ∧ e.topicName.bytes = topicName ∧ e.bc = some bc ∧
      (∀ e' ∈ ctrHandleTab, e'.topicName.bytes = topicName → e' = e) ∧
      (∀ con, dbInit env.db = .ok con →
        s'.stopped = none ∧ s'.calls = s.calls ++ [⟨bc, e.topicName, msg, con⟩]) ∧
      ∀ stop, dbInit env.db = .error stop → s'.stopped = some stop ∧ s'.calls = s.calls := by
  obtain ⟨hrun, hd, rfl⟩ := of_arrived h
  have hconf := reachable_conforming hs
  obtain ⟨hbuilt, e, bc, he, hbytes, hmem, hbc, hok, herror⟩ := hconf.recvmsg msg hd
  obtain ⟨n, sel, hloaded⟩ := hconf.loaded hbuilt
  have hnum : 1 ≤ s.reg.topicNumLocal := by
    rw [hloaded.ready.topicNames_eq] at hmem
    have hlen := List.length_pos_of_mem hmem
    rw [List.length_map] at hlen
    rw [hloaded.ready.num]
    omega
  refine ⟨hloaded.conf, by rw [hloaded.ready.table]; rfl, hnum, e, bc, he, hbytes, hbc,
    fun e' he' hbytes' => ?_, fun con hdb => ?_, fun stop hdb => ?_⟩
  · have hinj : ∀ e ∈ ctrHandleTab, ∀ e' ∈ ctrHandleTab,
        e'.topicName.bytes = e.topicName.bytes → e' = e := by decide
    exact hinj e he e' he' (hbytes'.trans hbytes.symm)
  · obtain ⟨reg, hreg, -⟩ := hok con hdb
    rw [hreg]
    exact ⟨hrun, rfl⟩
  · rw [herror stop hdb]
    exact ⟨rfl, rfl⟩

/-- The first message arrives while the program is still subscribing. -/
theorem arrived_dispatched_first :
    ∃ s s' : System ℕ, (system ℕ .oneTopic).Reachable s ∧ s.pc = .regTopic 1 ∧
      (system ℕ .oneTopic).step s (.arrived (ascii "RRS123") 5) = some s' ∧
      s'.calls = [⟨.doA1, .lit "RRS123", 5, 7⟩] := by
  obtain ⟨s, hs, hpc, s', hs', hcalls⟩ : ∃ s : System ℕ, (system ℕ .oneTopic).exec .start
      [.hall 0, .hall 0, .hall 0, .session (.succeeded 0), .hall 0, .hall 0, .hall 0, .hall 0,
        .hall 0, .hall 0, .hall 0, .granted 0] = some s ∧ s.pc = .regTopic 1 ∧
      ∃ s', (system ℕ .oneTopic).step s (.arrived (ascii "RRS123") 5) = some s' ∧ s.calls = [] :=
    ⟨_, rfl, rfl, _, rfl, rfl⟩
  have hreach := Machine.reachable_of_exec rfl hs
  refine ⟨s, s', hreach, hpc, hs', ?_⟩
  obtain ⟨-, -, -, e, bc, he, hbytes, hbc, -, hok, -⟩ := arrived_dispatched hreach hs'
  obtain rfl : e = ⟨.lit "RRS123", 0, some .doA1⟩ :=
    (show ∀ e ∈ ctrHandleTab, e.topicName.bytes = ascii "RRS123" → e = _ by decide) e he hbytes
  obtain rfl := Option.some.inj hbc
  rw [(hok 7 rfl).2, hcalls]
  rfl

/-- The same message, where the database refuses connections: the process exits
    before it dispatches. -/
theorem arrived_not_dispatched :
    ¬∀ (env : Env) (s s' : System ℕ) (topicName : List UInt8) (msg : ℕ),
      (system ℕ env).Reachable s → (system ℕ env).step s (.arrived topicName msg) = some s' →
        ∃ e bc con, e ∈ ctrHandleTab ∧ e.topicName.bytes = topicName ∧ e.bc = some bc ∧
          s'.calls = s.calls ++ [⟨bc, e.topicName, msg, con⟩] := by
  intro hall
  obtain ⟨s, hs, s', hs', hstop, hcalls⟩ : ∃ s : System ℕ,
      (system ℕ { Env.oneTopic with db := ⟨some 7, false⟩ }).exec .start
        [.hall 0, .hall 0, .hall 0, .session (.succeeded 0), .hall 0, .hall 0, .hall 0, .hall 0,
          .hall 0, .hall 0, .hall 0, .granted 0] = some s ∧
      ∃ s', (system ℕ { Env.oneTopic with db := ⟨some 7, false⟩ }).step s
          (.arrived (ascii "RRS123") 5) = some s' ∧
        s'.stopped = some (.exit 1) ∧ s'.calls = s.calls :=
    ⟨_, rfl, _, rfl, rfl, rfl⟩
  obtain ⟨e, bc, con, -, -, -, hcall⟩ := hall _ s s' _ _ (Machine.reachable_of_exec rfl hs) hs'
  rw [hcalls] at hcall
  exact absurd (List.self_eq_append_right.1 hcall) (List.cons_ne_nil _ _)

end System

end Cmqtt
