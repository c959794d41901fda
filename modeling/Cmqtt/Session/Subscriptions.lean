import Cmqtt.Ledger
import Cmqtt.Session.Delivery

/-!
# Subscriptions and reconnects

`regTopicFromTable` subscribes to every topic once, and does not look at what
`my_subsribe_topic` returns; the calls of `myReconnctMQTT` connect with a clean
session, and do not subscribe again. So the subscriptions the broker has at the
end are those of the table only as long as the library accepts every one of
them, and no connect request succeeds once the broker has some (`kept`). This is
exact: `subs_eq_iff` says so for every run.

The proof keeps a ledger of the topics `asked` for so far and the topics `held`
by the library or the broker. Every step of a run changes it in one of the ways
of `Change`.
-/

namespace Cmqtt

/-! ## The ledger of the program -/

namespace System

variable {M : Type} {env : Env} {s s' : System M} {a : Action M} {rc : ℤ}

/-- The topics `regTopicFromTable` has been through. -/
def asked (s : System M) : List CString :=
  match s.pc with
  | .regTopic idx => s.reg.topicNames.take idx
  | .running => s.reg.topicNames
  | _ => []

/-- The subscriptions the broker has, or is about to grant. -/
def held (s : System M) : List CString := s.subs ++ s.inflight

/-- A step that keeps the subscriptions: the library accepts the subscription
    `regTopicFromTable` asks for, and a connect request with a clean session only
    succeeds when the broker has none. -/
def kept (s : System M) : Action M → Bool
  | .hall rc =>
    match s.pc with
    | .regTopic idx => rc == 0 || decide (s.reg.topicNumLocal ≤ idx)
    | _ => true
  | .session e => !s.cleans e || s.subs.isEmpty
  | .granted _ => true
  | .arrived _ _ => true

theorem Loaded.nodup {r : RegFunc Handler} {n : ℕ} {sel : List (CmdPro Handler)}
    (h : Loaded env r n sel) : r.topicNames.Nodup := by
  rw [h.ready.topicNames_eq]
  exact h.ready.wf.nodup

theorem Loaded.length_topicNames {r : RegFunc Handler} {n : ℕ} {sel : List (CmdPro Handler)}
    (h : Loaded env r n sel) : (r.topicNames.length : ℤ) = r.topicNumLocal := by
  rw [h.ready.topicNames_eq, List.length_map, h.ready.num]

/-- The next topic `regTopicFromTable` asks for is a new one. -/
theorem asked_succ (h : Conforming env s) {idx : ℕ} (hpc : s.pc = .regTopic idx)
    (hidx : idx < s.reg.topicNumLocal) {topic : CString}
    (hreg : regTopicStep s.reg idx = .ok (some topic)) :
    s.reg.topicNames.take (idx + 1) = s.asked ++ [topic] ∧ topic ∉ s.asked := by
  obtain ⟨n, sel, hloaded⟩ := h.loaded (by rw [hpc]; rfl)
  obtain ⟨topic', hget, htopic⟩ := hloaded.regTopicStep_eq hidx
  obtain rfl : topic = topic' := Option.some.inj (Except.ok.inj (hreg.symm.trans htopic))
  have hasked : s.asked = s.reg.topicNames.take idx := by simp only [asked, hpc]
  have htake : s.reg.topicNames.take (idx + 1) = s.asked ++ [topic] := by
    rw [List.take_add_one, hget, hasked]
    rfl
  refine ⟨htake, fun hmem => ?_⟩
  have hnodup := hloaded.nodup.sublist (List.take_sublist (idx + 1) _)
  rw [htake] at hnodup
  exact (List.nodup_append.1 hnodup).2.2 topic hmem topic (List.mem_singleton_self _) rfl

/-- With the table, `regTopicFromTable` does not stop. -/
theorem kept_of_stop (h : Conforming env s) {e : Stop}
    (herror : ∀ idx, s.pc = .regTopic idx → regTopicStep s.reg idx = .error e) :
    s.kept (.hall rc) := by
  simp only [kept]
  split
  next idx hpc =>
    obtain ⟨n, sel, hloaded⟩ := h.loaded (by rw [hpc]; rfl)
    rcases lt_or_ge (idx : ℤ) s.reg.topicNumLocal with hlt | hge
    · obtain ⟨topic, -, htopic⟩ := hloaded.regTopicStep_eq hlt
      cases (herror idx hpc).symm.trans htopic
    · simp [hge]
  next => rfl

theorem change_of_hallStep (h : Conforming env s) (hs : HallStep env s rc s') :
    Change s.asked s.held s'.asked s'.held (s.kept (.hall rc)) := by
  cases hs with
  | stop e herror =>
    rw [kept_of_stop h herror]
    exact .same (List.Perm.refl _)
  | connectRefused hpc =>
    have hkept : s.kept (.hall rc) := by simp [kept, hpc]
    rw [hkept]
    exact .same (List.Perm.refl _)
  | create hpc | setCallbacks hpc | connect hpc | isConnected hpc | confDefault hpc | confNum hpc
    | confAlloc hpc | confLoop hpc | confFinish hpc =>
    have hkept : s.kept (.hall rc) := by simp [kept, hpc]
    have hasked : s.asked = [] := by simp [asked, hpc]
    rw [hkept, hasked]
    exact .same (List.Perm.refl _)
  | skip hpc hidx hreg =>
    -- every entry of the table has a handler
    obtain ⟨n, sel, hloaded⟩ := h.loaded (by rw [hpc]; rfl)
    obtain ⟨topic, -, htopic⟩ := hloaded.regTopicStep_eq hidx
    cases hreg.symm.trans htopic
  | refused hpc hidx topic hreg hrc =>
    -- the topic is not asked for again
    obtain ⟨htake, hnew⟩ := asked_succ h hpc hidx hreg
    have hkept : s.kept (.hall rc) = false := by simp [kept, hpc, hrc, hidx]
    rw [hkept]
    simp only [asked, htake]
    exact .missed topic hnew
  | subscribed hpc hidx topic hreg hrc =>
    obtain ⟨htake, hnew⟩ := asked_succ h hpc hidx hreg
    have hkept : s.kept (.hall rc) := by simp [kept, hpc, hrc]
    rw [hkept]
    simp only [asked, held, htake, ← List.append_assoc]
    exact .added topic hnew (.refl _)
  | running hpc hidx =>
    -- the loop has been through the whole table
    obtain ⟨n, sel, hloaded⟩ := h.loaded (by rw [hpc]; rfl)
    have hlen := hloaded.length_topicNames
    have hkept : s.kept (.hall rc) := by
      simp only [kept, hpc, Bool.or_eq_true, decide_eq_true_eq]
      omega
    have hasked : s.asked = s.reg.topicNames := by
      simp only [asked, hpc]
      exact List.take_of_length_le (by omega)
    rw [hkept, hasked]
    exact .same (List.Perm.refl _)

/-- Every step changes the ledger in one of the ways of `Change`. -/
theorem change_of_step (h : Conforming env s) (hs : s.step env a = some s') :
    Change s.asked s.held s'.asked s'.held (s.kept a) := by
  obtain ⟨rc, rfl, hhall⟩ | ⟨e, c, rfl, -, rfl⟩ | ⟨j, topic, rfl, hj, rfl⟩ |
    ⟨topicName, msg, rfl, hd, rfl⟩ := step_cases hs
  · exact change_of_hallStep h hhall
  · -- a clean session drops what the broker has, but not what is in flight
    rcases hcleans : s.cleans e with _ | _
    · have hkept : s.kept (.session e) := by simp [kept, hcleans]
      rw [hkept]
      exact .same (List.Perm.refl _)
    · rcases hsubs : s.subs with _ | ⟨t, ts⟩
      · have hkept : s.kept (.session e) := by simp [kept, hsubs]
        rw [hkept]
        simp only [held, hsubs]
        exact .same (List.Perm.refl _)
      · have hkept : s.kept (.session e) = false := by simp [kept, hcleans, hsubs]
        rw [hkept]
        have hheld : s.held = s.subs ++ s.inflight := rfl
        exact .dropped (.of_eq hheld) (by simp [hsubs])
  · obtain ⟨hlt, rfl⟩ := List.getElem?_eq_some_iff.1 hj
    refine .same ?_
    have hperm : (s.inflight[j] :: s.inflight.eraseIdx j).Perm s.inflight :=
      List.getElem_cons_eraseIdx_perm hlt
    simpa [held] using hperm.append_left s.subs
  · obtain ⟨-, e, bc, -, -, -, -, hok, herror⟩ := h.recvmsg msg hd
    rcases hdb : dbInit env.db with stop | con
    · rw [herror stop hdb]
      exact .same (List.Perm.refl _)
    · obtain ⟨reg, hreg, hnames, -⟩ := hok con hdb
      rw [hreg]
      simp only [asked, hnames]
      exact .same (List.Perm.refl _)

/-- In every run, the subscriptions held are those asked for if and only if all
    steps keep them. -/
theorem accounted_of_run {tr : List (System M × Action M)} (h : (system M env).Run .start tr s) :
    Accounted s.asked s.held ∧ (s.asked ⊆ s.held ↔ ∀ p ∈ tr, p.1.kept p.2) := by
  refine h.invariant (P := fun tr s => Accounted s.asked s.held ∧
    (s.asked ⊆ s.held ↔ ∀ p ∈ tr, p.1.kept p.2)) rfl ?_ fun tr s a s' hs ih hstep => ?_
  · refine ⟨⟨List.nodup_nil, List.Subset.refl _⟩, ?_⟩
    simp [asked, start]
  · obtain ⟨haccounted, hiff⟩ := ih
    have hchange := change_of_step (reachable_conforming hs) hstep
    refine ⟨haccounted.change hchange, ?_⟩
    rw [haccounted.subset_iff hchange, hiff]
    simp [or_imp, forall_and]

/-- When the program has started and no subscription is in flight, the broker has
    exactly the subscriptions of the table if and only if every step of the run
    kept them: the library accepted all subscriptions, and no connect request
    succeeded when the broker had some. -/
theorem subs_eq_iff {tr : List (System M × Action M)} (h : (system M env).Run .start tr s)
    (hpc : s.pc = .running) (hinflight : s.inflight = []) :
    (∀ topic, topic ∈ s.subs ↔ topic ∈ s.reg.topicNames) ↔ ∀ p ∈ tr, p.1.kept p.2 := by
  obtain ⟨haccounted, hiff⟩ := accounted_of_run h
  have hasked : s.asked = s.reg.topicNames := by simp only [asked, hpc]
  have hheld : s.held = s.subs := by rw [held, hinflight, List.append_nil]
  rw [hasked, hheld] at haccounted hiff
  rw [← hiff]
  exact ⟨fun hsubs topic ht => (hsubs topic).2 ht,
    fun hsubset topic => ⟨fun ht => haccounted.subset ht, fun ht => hsubset ht⟩⟩

/-- The steps of a start without losses. -/
def plainStart : List (Action M) :=
  [.hall 0, .hall 0, .hall 0, .session (.succeeded 0), .hall 0, .hall 0, .hall 0, .hall 0,
    .hall 0, .hall 0, .hall 0, .granted 0, .hall 0]

/-- A start without losses keeps the subscription. -/
theorem subs_eq_iff_plainStart :
    ∃ s : System Unit, (system Unit .oneTopic).Reachable s ∧ s.pc = .running ∧
      s.session.connected ∧ s.inflight = [] ∧ ∀ topic, topic ∈ s.subs ↔ topic ∈ s.reg.topicNames := by
  obtain ⟨s, hs, hpc, hcon, hinflight⟩ : ∃ s, (system Unit .oneTopic).exec .start plainStart = some s ∧
      s.pc = .running ∧ s.session.connected ∧ s.inflight = [] := ⟨_, rfl, rfl, rfl, rfl⟩
  refine ⟨s, Machine.reachable_of_exec rfl hs, hpc, hcon, hinflight, ?_⟩
  refine (subs_eq_iff (Machine.run_of_exec hs) hpc hinflight).2 ?_
  rw [← List.all_eq_true]
  rfl

/-- The connection is lost after the start, and a call of `myReconnctMQTT`
    restores it: the client is connected, nothing is in flight, and the broker has
    no subscription. -/
theorem subs_lost :
    ∃ s : System Unit, (system Unit .oneTopic).Reachable s ∧ s.pc = .running ∧
      s.session.connected ∧ s.inflight = [] ∧ s.subs = [] ∧ s.reg.topicNames = [.lit "RRS123"] := by
  obtain ⟨s, hs, h⟩ : ∃ s, (system Unit .oneTopic).exec .start
      (plainStart ++ [.session .lost, .session (.attempt 0 0), .session (.succeeded 0)]) = some s ∧
      s.pc = .running ∧ s.session.connected ∧ s.inflight = [] ∧ s.subs = [] ∧
      s.reg.topicNames = [.lit "RRS123"] := ⟨_, rfl, rfl, rfl, rfl, rfl, rfl⟩
  exact ⟨s, Machine.reachable_of_exec rfl hs, h⟩

end System

end Cmqtt
