import Cmqtt.Topic.Dispatch

/-!
# Topics as they arrive

The library hands a topic over as the bytes of the packet, with a NUL after
them, and gives their number in `topicLen` if there is a NUL among them, too.
`my_mqqta_recvmsg` of `core/mqtta.c` passes the pointer on and forgets the length:
for `decode_msg_handle`, the topic ends at its first NUL.

A message should run a handler, and be counted at its entry, only if its topic
is the name of that entry as a whole (`Sound`). There are two ways to miss that,
and no other (`soundRun_iff`):

* the topic has a NUL after the name of an entry (`sound_fails_nul`);
* no topic is enabled, and the topic is empty up to its first NUL: the cache then
  points at the zeroed first entry, whose name it is, and whose handler is null.

As long as a topic is enabled, the cache stays within the entries of topics
(`Cached`), whose names are not empty.
-/

namespace Cmqtt

section

variable {H M : Type}

/-- A message as the library hands it over. -/
structure Arrival (M : Type) where
  topicName : List UInt8
  topicLen : ℤ
  msg : M

/-- The topic of a message, as a C string. -/
def Arrival.topic (a : Arrival M) : CString := .ofBytes a.topicName

/-- `my_mqqta_recvmsg`, with the calls of handlers it makes: the length of the topic
    is not looked at. -/
def recvmsg (db : Database) (r : RegFunc H) (a : Arrival M) :
    Except Stop (RegFunc H × List (Call H M)) :=
  decodeMsgHandle a.topic a.msg db r

/-- The entries of the topics: `handleTableLocal[0..topicNumLocal)`. -/
def RegFunc.entries (r : RegFunc H) : List (CmdPro H) :=
  (r.handleTableLocal.getD []).take r.topicNumLocal.toNat

/-- What a message may do: it runs the handler of an entry, and is counted there, only
    if its topic is the name of the entry, with all of its bytes; any other message
    is counted in `msgcnt` only. -/
structure Sound (r : RegFunc H) (a : Arrival M) (r' : RegFunc H) (calls : List (Call H M)) :
    Prop where
  handlers : ∀ c ∈ calls, ∃ e ∈ r.entries, e.topicName.bytes = a.topicName ∧ e.bc = some c.bc
  counters : ∀ (i : ℕ) (e e' : CmdPro H), r.entries[i]? = some e → r'.entries[i]? = some e' →
    e'.cnt ≠ e.cnt → e.topicName.bytes = a.topicName
  others : (∀ e ∈ r.entries, e.topicName.bytes ≠ a.topicName) →
    calls = [] ∧ r'.handleTableLocal = r.handleTableLocal
  msgcnt : r'.msgcnt = r.msgcnt + 1

/-- A sequence of messages, each of which returns and does what it may. -/
def SoundRun (db : Database) : RegFunc H → List (Arrival M) → Prop
  | _, [] => True
  | r, a :: as => ∃ r' calls, recvmsg db r a = .ok (r', calls) ∧ Sound r a r' calls ∧
    SoundRun db r' as

/-- A topic without a NUL after the name of an entry, and not empty up to its first NUL
    when there are no entries. -/
def Arrival.harmless (a : Arrival M) (names : List CString) : Bool :=
  (!a.topicName.elem 0 || !names.elem a.topic) && (a.topic != .empty || !names.isEmpty)

/-- The cache points to the entry of a topic, if there are any. -/
def Cached (k : ℕ) (r : RegFunc H) : Prop :=
  0 < k → ∀ con, r.mysqlcon = some con → ∃ i < k, r.pHandle = some i

variable {n k con : ℕ} {sel : List (CmdPro H)} {r r' : RegFunc H} {topic : CString} {msg : M}
  {db : Database} {a : Arrival M} {calls : List (Call H M)}

theorem Ready.entries_eq (h : Ready db n sel r) : r.entries = sel := by
  rw [RegFunc.entries, h.table, h.num, Int.toNat_natCast, Option.getD_some, List.take_left]

/-! ## The cache -/

theorem invoke_pHandle {e : CmdPro H} (h : invoke topic msg con r e = .ok (r', calls)) :
    r'.pHandle = r.pHandle ∧ r'.mysqlcon = r.mysqlcon := by
  simp only [invoke] at h
  split at h
  next => cases h
  next =>
    obtain ⟨rfl, -⟩ := Prod.mk.inj (Except.ok.inj h)
    exact ⟨rfl, rfl⟩

/-- A search leaves the cache alone, or within the entries it went through. -/
theorem search_pHandle (hidx : 0 ≤ r.idx) (h : search topic msg con k r = .ok (r', calls)) :
    (r'.pHandle = r.pHandle ∨ ∃ i, i < r.idx.toNat + k ∧ r'.pHandle = some i) ∧
      r'.mysqlcon = r.mysqlcon := by
  induction k generalizing r with
  | zero =>
    obtain ⟨rfl, -⟩ := Prod.mk.inj (Except.ok.inj h)
    exact ⟨.inl rfl, rfl⟩
  | succ k ih =>
    rw [search] at h
    obtain ⟨e, -, h⟩ := exists_of_bind_eq_ok h
    split at h
    · obtain ⟨hp, hcon⟩ := invoke_pHandle h
      exact ⟨.inr ⟨r.idx.toNat, by omega, hp⟩, hcon⟩
    · obtain ⟨hp | ⟨i, hi, hp⟩, hcon⟩ := ih (by simp only; omega) h
      · exact ⟨.inr ⟨r.idx.toNat, by omega, hp⟩, hcon⟩
      · refine ⟨.inr ⟨i, ?_, hp⟩, hcon⟩
        simp only at hi
        omega

theorem connectOnce_cases (h : connectOnce db r = .ok (con, r')) :
    r' = r ∨ r' = { r with mysqlcon := some con, pHandle := r.handleTableLocal.map fun _ => 0 } := by
  simp only [connectOnce] at h
  split at h
  · exact .inl (Prod.mk.inj (Except.ok.inj h)).2.symm
  · obtain ⟨con', -, h⟩ := exists_of_bind_eq_ok h
    obtain ⟨rfl, rfl⟩ := Prod.mk.inj (Except.ok.inj h)
    exact .inr rfl

theorem Cached.connectOnce (h : Ready db n sel r) (hc : Cached k r)
    (hok : connectOnce db r = .ok (con, r')) : Cached k r' := by
  obtain rfl | rfl := connectOnce_cases hok
  · exact hc
  · intro hk _ _
    exact ⟨0, hk, by rw [h.table]; rfl⟩

/-- A call keeps the cache within the entries of topics. -/
theorem Cached.decodeMsgHandle (h : Ready db n sel r) (hc : Cached sel.length r)
    (hok : decodeMsgHandle topic msg db r = .ok (r', calls)) : Cached sel.length r' := by
  rw [Cmqtt.decodeMsgHandle] at hok
  obtain ⟨⟨con, r₁⟩, hr₁, hok⟩ := exists_of_bind_eq_ok hok
  have h₀ : Ready db n sel { r with msgcnt := r.msgcnt + 1 } := ⟨h.wf, h.num, h.table, h.cache⟩
  have hc₁ : Cached sel.length r₁ := Cached.connectOnce h₀ hc hr₁
  have hnum : r₁.topicNumLocal.toNat = sel.length := by
    obtain rfl | rfl := connectOnce_cases hr₁ <;> simp [h.num]
  obtain ⟨e, -, hok⟩ := exists_of_bind_eq_ok hok
  intro hk con' hcon'
  split at hok
  · obtain ⟨hp, hcon⟩ := invoke_pHandle hok
    rw [hp]
    exact hc₁ hk con' (hcon ▸ hcon')
  · obtain ⟨hp | ⟨i, hi, hp⟩, hcon⟩ := search_pHandle (by simp) hok
    · rw [hp]
      exact hc₁ hk con' (hcon ▸ hcon')
    · refine ⟨i, ?_, hp⟩
      simp only [hnum] at hi
      simpa using hi

/-! ## A message -/

/-- A message is dispatched by its topic up to the first NUL, if that is not empty
    or a topic is enabled. -/
theorem recvmsg_eq (hdb : dbInit db = .ok con) (h : Ready db n sel r) (hc : Cached sel.length r)
    (hne : a.topic ≠ .empty ∨ sel ≠ []) :
    ∃ r', recvmsg db r a = .ok (r', plainDispatch con sel (a.topic, a.msg)) ∧
      Ready db n (bump a.topic sel) r' ∧ Cached sel.length r' ∧ r'.msgcnt = r.msgcnt + 1 := by
  have h₀ : Ready db n sel { r with msgcnt := r.msgcnt + 1 } := ⟨h.wf, h.num, h.table, h.cache⟩
  obtain ⟨r', hr', h', hcnt⟩ := decodeMsgHandle_of_cache a.topic a.msg hdb h (by
    intro r₁ e hr₁ he hname
    rcases hne with hne | hne
    · exact hne
    · -- the cache points to the entry of a topic
      obtain ⟨r₂, hr₂, h₂, -, hcon⟩ := connectOnce_eq hdb h₀
      obtain rfl : r₁ = r₂ := (Prod.mk.inj (Except.ok.inj (hr₁.symm.trans hr₂))).2
      have hc₁ : Cached sel.length r₁ := Cached.connectOnce h₀ hc hr₁
      obtain ⟨i, hi, hp⟩ := hc₁ (List.length_pos_iff.2 hne) con hcon
      rw [hp, deref_eq_ok h₂.table, List.getElem?_append_left hi] at he
      exact hname ▸ h.wf.named e (List.mem_of_getElem? he))
  exact ⟨r', hr', h', hc.decodeMsgHandle h hr', hcnt⟩

/-- Without any topic enabled, an empty topic calls the null handler of the zeroed
    first entry. -/
theorem recvmsg_nullPointer (hdb : dbInit db = .ok con) (h : Ready db n [] r)
    (htopic : a.topic = .empty) : recvmsg db r a = .error .nullPointer := by
  obtain ⟨r', hr', h', -, hcon⟩ := connectOnce_eq (r := { r with msgcnt := r.msgcnt + 1 }) hdb
    ⟨h.wf, h.num, h.table, h.cache⟩
  obtain ⟨-, i, hi, hp⟩ := h'.cache con hcon
  have he : deref r' r'.pHandle = .ok CmdPro.zero := by
    rw [hp, deref_eq_ok h'.table, List.nil_append, List.getElem?_replicate]
    simpa using hi
  rw [recvmsg, decodeMsgHandle, hr', htopic]
  change (deref r' r'.pHandle >>= _) = _
  rw [he]
  rfl

theorem mem_plainDispatch {m : CString × M} {c : Call H M} (hc : c ∈ plainDispatch con sel m) :
    ∃ e ∈ sel, m.1 = e.topicName ∧ e.bc = some c.bc := by
  rw [plainDispatch] at hc
  split at hc
  next => cases hc
  next bc hbc =>
    obtain ⟨e, he, hbc⟩ := Option.bind_eq_some_iff.1 hbc
    obtain rfl := List.mem_singleton.1 hc
    exact ⟨e, List.mem_of_find?_eq_some he, by simpa using List.find?_some he, hbc⟩

theorem Arrival.harmless_iff {names : List CString} : a.harmless names ↔
    (0 ∈ a.topicName → a.topic ∉ names) ∧ (a.topic ≠ .empty ∨ names ≠ []) := by
  simp [harmless, imp_iff_not_or]

/-- A topic that is harmless and dispatched to an entry is its name, as a whole. -/
theorem Arrival.bytes_eq {e : CmdPro H} (ha : a.harmless (sel.map CmdPro.topicName)) (he : e ∈ sel)
    (hname : a.topic = e.topicName) : e.topicName.bytes = a.topicName := by
  have hmem : a.topic ∈ sel.map CmdPro.topicName := hname ▸ List.mem_map_of_mem he
  rw [← hname]
  exact CString.bytes_ofBytes fun h0 => (harmless_iff.1 ha).1 h0 hmem

theorem sound_of_harmless (h : Ready db n sel r) (h' : Ready db n (bump a.topic sel) r')
    (hcnt : r'.msgcnt = r.msgcnt + 1) (ha : a.harmless (sel.map CmdPro.topicName)) :
    Sound r a r' (plainDispatch con sel (a.topic, a.msg)) where
  handlers c hc := by
    rw [h.entries_eq]
    obtain ⟨e, he, hname, hbc⟩ := mem_plainDispatch hc
    exact ⟨e, he, Arrival.bytes_eq ha he hname, hbc⟩
  counters i e e' he he' hne := by
    rw [h.entries_eq] at he
    rw [h'.entries_eq, bump, List.getElem?_map, he, Option.map_some] at he'
    obtain rfl := Option.some.inj he'
    by_cases hname : a.topic = e.topicName
    · exact Arrival.bytes_eq ha (List.mem_of_getElem? he) hname
    · exact absurd (by rw [if_neg hname]) hne
  others hother := by
    rw [h.entries_eq] at hother
    have hmiss : ∀ e ∈ sel, a.topic ≠ e.topicName := fun e he hname =>
      hother e he (Arrival.bytes_eq ha he hname)
    refine ⟨?_, ?_⟩
    · rw [plainDispatch, List.find?_eq_none.2 (by simpa using hmiss)]
      rfl
    · rw [h'.table, h.table, bump_eq_self hmiss]
  msgcnt := hcnt

/-- A message that does what it may is harmless. -/
theorem harmless_of_sound (hdb : dbInit db = .ok con) (h : Ready db n sel r)
    (hc : Cached sel.length r) (hok : recvmsg db r a = .ok (r', calls)) (hs : Sound r a r' calls) :
    a.harmless (sel.map CmdPro.topicName) := by
  have hempty : a.topic ≠ .empty ∨ sel ≠ [] := by
    by_contra hnot
    push Not at hnot
    obtain ⟨htopic, rfl⟩ := hnot
    cases hok.symm.trans (recvmsg_nullPointer hdb h htopic)
  refine Arrival.harmless_iff.2 ⟨fun hnul hmem => ?_, by simpa using hempty⟩
  -- the handler of that entry runs, but the topic goes on after its name
  obtain ⟨e, he, hname⟩ := List.mem_map.1 hmem
  obtain ⟨bc, hbc⟩ := Option.isSome_iff_exists.1 (h.wf.bc e he)
  obtain ⟨i, hi⟩ := List.mem_iff_getElem?.1 he
  obtain ⟨r'', hr'', -⟩ := recvmsg_eq hdb h hc hempty
  obtain ⟨-, rfl⟩ := Prod.mk.inj (Except.ok.inj (hok.symm.trans hr''))
  have hcall : (⟨bc, a.topic, a.msg, con⟩ : Call H M) ∈ plainDispatch con sel (a.topic, a.msg) := by
    rw [plainDispatch, h.wf.find?_eq hi hname.symm]
    simp [hbc]
  obtain ⟨e', -, hbytes, -⟩ := hs.handlers _ hcall
  exact e'.topicName.nul_free (hbytes ▸ hnul)

/-- A sequence of messages, from whatever state earlier ones have left. -/
theorem soundRun_ready (hdb : dbInit db = .ok con) (h : Ready db n sel r)
    (hc : Cached sel.length r) (as : List (Arrival M)) :
    SoundRun db r as ↔ ∀ a ∈ as, a.harmless (sel.map CmdPro.topicName) := by
  induction as generalizing r sel with
  | nil => simp [SoundRun]
  | cons a as ih =>
    rw [List.forall_mem_cons, SoundRun]
    constructor
    · rintro ⟨r', calls, hok, hs, hrun⟩
      have ha := harmless_of_sound hdb h hc hok hs
      refine ⟨ha, ?_⟩
      have hne : a.topic ≠ .empty ∨ sel ≠ [] := by
        simpa using (Arrival.harmless_iff.1 ha).2
      obtain ⟨r'', hr'', h', hc', -⟩ := recvmsg_eq hdb h hc hne
      obtain ⟨rfl, -⟩ := Prod.mk.inj (Except.ok.inj (hok.symm.trans hr''))
      have := (ih h' (by rwa [length_bump])).1 hrun
      rwa [topicName_bump] at this
    · rintro ⟨ha, has⟩
      have hne : a.topic ≠ .empty ∨ sel ≠ [] := by
        simpa using (Arrival.harmless_iff.1 ha).2
      obtain ⟨r', hr', h', hc', hcnt⟩ := recvmsg_eq hdb h hc hne
      refine ⟨r', _, hr', sound_of_harmless h h' hcnt ha, ?_⟩
      refine (ih h' (by rwa [length_bump])).2 ?_
      rwa [topicName_bump]

end

/-! ## From a configuration -/

variable {M : Type}

/-- Whatever topics a configuration enables: every message of a sequence does only what
    it may exactly if none of them has a topic with a NUL after the name of an entry,
    nor, without any entry, a topic that is empty up to its first NUL. -/
theorem soundRun_iff {heap : Heap} {getKey : CString → Except Stop CString} {v : ℤ}
    {r : RegFunc Handler} {db : Database} {con : ℕ}
    (hconf : initTopicConf ctrHandleTab heap getKey (.start ctrHandleTab) = .ok (v, r))
    (hdb : dbInit db = .ok con) (as : List (Arrival M)) :
    SoundRun db r as ↔ ∀ a ∈ as, a.harmless r.topicNames := by
  obtain ⟨n, sel, -, hwf, rfl⟩ := exists_wellFormed hconf
  have h := ready_load ctrHandleTab db hwf
  have hc : Cached sel.length ((RegFunc.start ctrHandleTab).load sel n) := fun _ _ hcon => nomatch hcon
  rw [h.topicNames_eq]
  exact soundRun_ready hdb h hc as

/-- A message with the name of a topic, an empty topic, and one with a NUL that does not
    stand after a name. -/
theorem soundRun_iff_three : ∃ v r,
    initTopicConf ctrHandleTab .unlimited
        (topicKey (some (.regular (ascii "[TOPIC]\nNUM=1\nDEFAULT=1")))) (.start ctrHandleTab) =
      .ok (v, r) ∧
    SoundRun ⟨some 7, true⟩ r
      [⟨ascii "RRS123", 0, ()⟩, ⟨[], 0, ()⟩, ⟨ascii "RRS12" ++ [0] ++ ascii "3", 7, ()⟩] := by
  obtain ⟨r, hr, hnames⟩ : ∃ r, initTopicConf ctrHandleTab .unlimited
      (topicKey (some (.regular (ascii "[TOPIC]\nNUM=1\nDEFAULT=1")))) (.start ctrHandleTab) =
        .ok (1, r) ∧ r.topicNames = [.lit "RRS123"] := ⟨_, rfl, rfl⟩
  have hdb : dbInit ⟨some 7, true⟩ = .ok 7 := rfl
  refine ⟨1, r, hr, (soundRun_iff hr hdb _).2 ?_⟩
  rw [hnames]
  simp only [List.forall_mem_cons]
  decide

/-- A topic with a NUL after the name of an entry runs its handler. -/
theorem sound_fails_nul : ¬∀ (file : Option File) (v : ℤ) (r : RegFunc Handler) (db : Database)
    (con : ℕ) (as : List (Arrival Unit)),
    initTopicConf ctrHandleTab .unlimited (topicKey file) (.start ctrHandleTab) = .ok (v, r) →
    dbInit db = .ok con → SoundRun db r as := by
  intro hall
  let a : Arrival Unit := ⟨ascii "RRS123" ++ [0] ++ ascii "x", 8, ()⟩
  obtain ⟨r, hr, r', hr'⟩ : ∃ r, initTopicConf ctrHandleTab .unlimited
      (topicKey (some (.regular (ascii "[TOPIC]\nNUM=1\nDEFAULT=1")))) (.start ctrHandleTab) =
        .ok (1, r) ∧ ∃ r', recvmsg ⟨some 7, true⟩ r a = .ok (r', [⟨.doA1, .lit "RRS123", (), 7⟩]) :=
    ⟨_, rfl, _, rfl⟩
  obtain ⟨r'', calls, hok, hs, -⟩ := hall _ 1 r ⟨some 7, true⟩ 7 [a] hr rfl
  obtain ⟨-, rfl⟩ := Prod.mk.inj (Except.ok.inj (hok.symm.trans hr'))
  obtain ⟨e, -, hbytes, -⟩ := hs.handlers _ (List.mem_singleton_self _)
  exact e.topicName.nul_free (hbytes ▸ by decide)

end Cmqtt
