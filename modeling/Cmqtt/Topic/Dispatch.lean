import Cmqtt.Topic.Table

/-!
# Dispatching messages

`decode_msg_handle` of `core/regfunc.c` calls the handler of the topic of a
message. It first tries the entry of the topic handled last, which the static
pointer `pHandle` caches, and only then searches the table. A search moves the
pointer along, also when it fails: it leaves it at the last entry.

What the function is for does not mention a cache (`plainDispatch`, `bump`). The
invariant that relates the two (`Ready`) only asks the pointer to stay in the
array: an entry there is either the one of a topic or zeroed, and no topic
matches the empty name of a zeroed entry.

* `decodeMsgHandle_of_cache`, `decodeMsgHandle_eq`: a call keeps the invariant, and does what it is for;
* `decodeAll_eq`: and so does any sequence of calls.
-/

namespace Cmqtt

/-- What the program gets from the database client. -/
structure Database where
  /-- The address `malloc` returns for the connection: `none` is null. -/
  mysqlcon : Option ℕ
  /-- `mysql_real_connect` succeeds. -/
  connects : Bool
  deriving DecidableEq, Repr

/-- `db_init` with `mysqlConnetInit`. -/
def dbInit (db : Database) : Except Stop ℕ :=
  match db.mysqlcon with
  | none => .error (.exit 0)
  | some con => if db.connects then .ok con else .error (.exit 1)

/-- A call of a handler, with its arguments. -/
structure Call (H M : Type) where
  bc : H
  topic : CString
  msg : M
  mysqlcon : ℕ
  deriving DecidableEq

section

variable {H M : Type}

/-- The entry of the array a pointer points to. -/
def deref (r : RegFunc H) (p : Option ℕ) : Except Stop (CmdPro H) :=
  match p, r.handleTableLocal with
  | some i, some table =>
    match table[i]? with
    | some e => .ok e
    | none => .error (.overflow .handleTableLocal)
  | _, _ => .error .nullPointer

/-- The entry of the array at an index is counted. -/
def RegFunc.count (r : RegFunc H) (p : Option ℕ) (e : CmdPro H) : RegFunc H :=
  { r with
    handleTableLocal := r.handleTableLocal.map fun table =>
      table.set (p.getD 0) { e with cnt := e.cnt + 1 } }

variable (topic : CString) (msg : M)

/-- The handler of the entry `e` at `pHandle` is called, and the message
    counted. -/
def invoke (con : ℕ) (r : RegFunc H) (e : CmdPro H) : Except Stop (RegFunc H × List (Call H M)) :=
  match e.bc with
  | none => .error .nullPointer
  | some bc => .ok (r.count r.pHandle e, [⟨bc, topic, msg, con⟩])

/-- The loop over the entries, with `k` of them left from `idx` on. -/
def search (con : ℕ) : ℕ → RegFunc H → Except Stop (RegFunc H × List (Call H M))
  | 0, r => .ok (r, [])
  | k + 1, r => do
    let r := { r with pHandle := some r.idx.toNat }
    let e ← deref r r.pHandle
    if topic = e.topicName then invoke topic msg con r e
    else search con k { r with idx := r.idx + 1 }

/-- The connection to the database, made for the first message. -/
def connectOnce (db : Database) (r : RegFunc H) : Except Stop (ℕ × RegFunc H) :=
  match r.mysqlcon with
  | some con => .ok (con, r)
  | none => do
    let con ← dbInit db
    -- the cache starts at the first entry of the array, zeroed or not
    return (con, { r with mysqlcon := some con, pHandle := r.handleTableLocal.map fun _ => 0 })

/-- `decode_msg_handle`, with the calls it makes. -/
def decodeMsgHandle (db : Database) (r : RegFunc H) :
    Except Stop (RegFunc H × List (Call H M)) := do
  let (con, r) ← connectOnce db { r with msgcnt := r.msgcnt + 1 }
  -- the entry of the topic handled last
  let e ← deref r r.pHandle
  if topic = e.topicName then invoke topic msg con r e
  else search topic msg con r.topicNumLocal.toNat { r with idx := 0 }

/-- A sequence of calls of `decode_msg_handle`. -/
def decodeAll (db : Database) (r : RegFunc H) :
    List (CString × M) → Except Stop (RegFunc H × List (Call H M))
  | [] => .ok (r, [])
  | (topic, msg) :: msgs => do
    let (r, calls) ← decodeMsgHandle topic msg db r
    let (r, calls') ← decodeAll db r msgs
    return (r, calls ++ calls')

end

/-! ## What dispatching is for -/

section

variable {H M : Type}

/-- The calls for a message: the handler of the entry of its topic, if any. -/
def plainDispatch (con : ℕ) (sel : List (CmdPro H)) (m : CString × M) : List (Call H M) :=
  match (sel.find? fun e => m.1 = e.topicName).bind CmdPro.bc with
  | none => []
  | some bc => [⟨bc, m.1, m.2, con⟩]

/-- The table with a message of a topic counted. -/
def bump (topic : CString) (sel : List (CmdPro H)) : List (CmdPro H) :=
  sel.map fun e => if topic = e.topicName then { e with cnt := e.cnt + 1 } else e

/-- The topic and the handler of an entry. -/
def CmdPro.route (e : CmdPro H) : CString × Option H := (e.topicName, e.bc)

/-- The entry with the messages of its topic counted. -/
def tally (msgs : List (CString × M)) (e : CmdPro H) : CmdPro H :=
  { e with cnt := e.cnt + .ofNat (msgs.countP fun m => m.1 = e.topicName) }

/-- A table of topics as `initTopicConf` leaves it, in an array of `n` entries. -/
structure WellFormed (n : ℕ) (sel : List (CmdPro H)) : Prop where
  pos : 0 < n
  length_le : sel.length ≤ n
  nodup : (sel.map CmdPro.topicName).Nodup
  named : ∀ e ∈ sel, e.topicName ≠ .empty
  bc : ∀ e ∈ sel, e.bc.isSome

/-- The invariant: the table is in the array, and once the connection to the
    database is made, the cache points into the array. -/
structure Ready (db : Database) (n : ℕ) (sel : List (CmdPro H)) (r : RegFunc H) : Prop where
  wf : WellFormed n sel
  num : r.topicNumLocal = sel.length
  table : r.handleTableLocal = some (sel ++ List.replicate (n - sel.length) .zero)
  cache : ∀ con, r.mysqlcon = some con → dbInit db = .ok con ∧ ∃ i < n, r.pHandle = some i

variable {con n : ℕ} {sel : List (CmdPro H)} {r : RegFunc H} {topic : CString} {msg : M}
  {db : Database} {e : CmdPro H} {i : ℕ}

theorem route_bump (topic : CString) (sel : List (CmdPro H)) :
    (bump topic sel).map CmdPro.route = sel.map CmdPro.route := by
  rw [bump, List.map_map]
  refine List.map_congr_left fun e _ => ?_
  simp only [Function.comp_apply]
  split <;> rfl

@[simp] theorem topicName_bump :
    (bump topic sel).map CmdPro.topicName = sel.map CmdPro.topicName := by
  have h := congrArg (List.map Prod.fst) (route_bump topic sel)
  rwa [List.map_map, List.map_map] at h

@[simp] theorem length_bump : (bump topic sel).length = sel.length := List.length_map _

theorem mem_bump (he : e ∈ bump topic sel) :
    ∃ e' ∈ sel, e.topicName = e'.topicName ∧ e.bc = e'.bc := by
  obtain ⟨e', he', rfl⟩ := List.mem_map.1 he
  refine ⟨e', he', ?_⟩
  split <;> exact ⟨rfl, rfl⟩

/-- Counting messages does not change what is dispatched. -/
theorem plainDispatch_bump :
    (plainDispatch con (bump topic sel) : CString × M → List (Call H M)) = plainDispatch con sel := by
  funext m
  have hname : ((fun e : CmdPro H => decide (m.1 = e.topicName)) ∘ fun e : CmdPro H =>
      if topic = e.topicName then { e with cnt := e.cnt + 1 } else e) =
      fun e => decide (m.1 = e.topicName) := by
    funext e
    simp only [Function.comp_apply]
    split <;> rfl
  have hbc : CmdPro.bc ∘ (fun e : CmdPro H =>
      if topic = e.topicName then { e with cnt := e.cnt + 1 } else e) = CmdPro.bc := by
    funext e
    simp only [Function.comp_apply]
    split <;> rfl
  rw [plainDispatch, bump, List.find?_map, hname, Option.bind_map, hbc, plainDispatch]

theorem wellFormed_bump (h : WellFormed n sel) : WellFormed n (bump topic sel) where
  pos := h.pos
  length_le := by simpa using h.length_le
  nodup := by simpa using h.nodup
  named e he := by
    obtain ⟨e', he', hname, -⟩ := mem_bump he
    exact hname ▸ h.named e' he'
  bc e he := by
    obtain ⟨e', he', -, hbc⟩ := mem_bump he
    exact hbc ▸ h.bc e' he'

/-- The entry of a topic is the only one. -/
theorem WellFormed.getElem?_unique (h : WellFormed n sel) {j : ℕ} {e' : CmdPro H}
    (hi : sel[i]? = some e) (hj : sel[j]? = some e') (hname : e.topicName = e'.topicName) :
    i = j := by
  have hlt : i < (sel.map CmdPro.topicName).length := by
    obtain ⟨hlt, -⟩ := List.getElem?_eq_some_iff.1 hi
    simpa using hlt
  refine (List.getElem?_inj hlt h.nodup).1 ?_
  rw [List.getElem?_map, List.getElem?_map, hi, hj]
  exact congrArg some hname

theorem WellFormed.find?_eq (h : WellFormed n sel) (hi : sel[i]? = some e)
    (hname : topic = e.topicName) : sel.find? (fun e => topic = e.topicName) = some e := by
  obtain ⟨hlt, rfl⟩ := List.getElem?_eq_some_iff.1 hi
  refine List.find?_eq_some_iff_getElem.2 ⟨by simpa using hname, i, hlt, rfl, fun j hj => ?_⟩
  have hne : i ≠ j := by omega
  simp only [Bool.not_eq_eq_eq_not, Bool.not_true, decide_eq_false_iff_not]
  exact fun hj' => hne (h.getElem?_unique hi (List.getElem?_eq_getElem (by omega)) (hname ▸ hj'))

theorem WellFormed.set_eq_bump (h : WellFormed n sel) (hi : sel[i]? = some e)
    (hname : topic = e.topicName) : sel.set i { e with cnt := e.cnt + 1 } = bump topic sel := by
  refine List.ext_getElem? fun j => ?_
  rw [bump, List.getElem?_map, List.getElem?_set]
  obtain ⟨hlt, -⟩ := List.getElem?_eq_some_iff.1 hi
  simp only [hlt, if_true]
  split
  next hij =>
    subst hij
    rw [hi, Option.map_some, if_pos hname]
  next hij =>
    rcases hj : sel[j]? with _ | e'
    · rfl
    · have hne : topic ≠ e'.topicName := fun hj' => hij (h.getElem?_unique hi hj (hname ▸ hj'))
      simp [hne]

theorem bump_eq_self (h : ∀ e ∈ sel, topic ≠ e.topicName) : bump topic sel = sel := by
  rw [bump]
  exact (List.map_congr_left fun e he => if_neg (h e he)).trans (List.map_id' sel)

/-! ## The invariant -/

theorem deref_eq_ok {table : List (CmdPro H)} (h : r.handleTableLocal = some table) :
    deref r (some i) = .ok e ↔ table[i]? = some e := by
  simp only [deref, h]
  rcases table[i]? with _ | e' <;> simp

theorem Ready.getElem?_eq (h : Ready db n sel r) (he : deref r (some i) = .ok e)
    (hne : e.topicName ≠ .empty) : sel[i]? = some e := by
  rw [deref_eq_ok h.table] at he
  rcases Nat.lt_or_ge i sel.length with hlt | hge
  · rwa [List.getElem?_append_left hlt] at he
  · rw [List.getElem?_append_right hge] at he
    exact absurd (congrArg CmdPro.topicName (List.eq_of_mem_replicate (List.mem_of_getElem? he))) hne

/-- A call of the handler of the entry of the topic. -/
theorem invoke_eq (h : Ready db n sel r) (hp : r.pHandle = some i)
    (he : deref r r.pHandle = .ok e) (hname : topic = e.topicName) (hne : topic ≠ .empty) :
    ∃ r', invoke topic msg con r e = .ok (r', plainDispatch con sel (topic, msg)) ∧
      Ready db n (bump topic sel) r' ∧ r'.msgcnt = r.msgcnt ∧ r'.mysqlcon = r.mysqlcon := by
  -- the entry is not one of the zeroed ones, which have the empty name
  have hi : sel[i]? = some e := h.getElem?_eq (hp ▸ he) (hname ▸ hne)
  obtain ⟨bc, hbc⟩ := Option.isSome_iff_exists.1 (h.wf.bc e (List.mem_of_getElem? hi))
  refine ⟨r.count r.pHandle e, ?_, ⟨wellFormed_bump h.wf, ?_, ?_, ?_⟩, rfl, rfl⟩
  · rw [invoke, hbc, plainDispatch, h.wf.find?_eq hi hname]
    simp only [Option.bind_some, hbc]
  · rw [length_bump]
    exact h.num
  · obtain ⟨hlt, -⟩ := List.getElem?_eq_some_iff.1 hi
    rw [RegFunc.count, h.table, hp, Option.map_some, Option.getD_some,
      List.set_append_left _ _ hlt, h.wf.set_eq_bump hi hname, length_bump]
  · exact h.cache

/-- A search looks at the entry at `idx`, and goes on if it is of another topic. -/
theorem search_succ (msg : M) {k : ℕ} (hidx : r.idx.toNat = i)
    (he : deref { r with pHandle := some i } (some i) = .ok e) :
    search topic msg con (k + 1) r =
      if topic = e.topicName then invoke topic msg con { r with pHandle := some i } e
      else search topic msg con k { r with pHandle := some i, idx := r.idx + 1 } := by
  rw [search, hidx]
  change (deref { r with pHandle := some i } (some i) >>= _) = _
  rw [he]
  rfl

/-- What is left of a search finds the entry of the topic, if it was not before
    `idx`. -/
theorem search_eq (msg : M) {k : ℕ} (hk : k ≤ sel.length)
    (h : Ready db n sel r) (hidx : r.idx = (sel.length - k : ℕ)) (hcon : r.mysqlcon = some con)
    (hbefore : ∀ i < sel.length - k, ∀ e, sel[i]? = some e → topic ≠ e.topicName) :
    ∃ r', search topic msg con k r = .ok (r', plainDispatch con sel (topic, msg)) ∧
      Ready db n (bump topic sel) r' ∧ r'.msgcnt = r.msgcnt ∧ r'.mysqlcon = r.mysqlcon := by
  induction k generalizing r with
  | zero =>
    -- all entries were looked at
    have hmiss : ∀ e ∈ sel, topic ≠ e.topicName := by
      intro e he
      obtain ⟨i, hi⟩ := List.mem_iff_getElem?.1 he
      obtain ⟨hlt, -⟩ := List.getElem?_eq_some_iff.1 hi
      exact hbefore i (by omega) e hi
    refine ⟨r, ?_, (bump_eq_self hmiss).symm ▸ h, rfl, rfl⟩
    have hfind : sel.find? (fun e => topic = e.topicName) = none := by
      simpa using hmiss
    rw [search, plainDispatch, hfind, Option.bind_none]
  | succ k ih =>
    have hlt : sel.length - (k + 1) < sel.length := by omega
    have hn := h.wf.length_le
    set i := sel.length - (k + 1) with hi
    have h' : Ready db n sel { r with pHandle := some i } := ⟨h.wf, h.num, h.table, fun c hc =>
      ⟨(h.cache c hc).1, i, by omega, rfl⟩⟩
    have he : deref { r with pHandle := some i } (some i) = .ok sel[i] := by
      rw [deref_eq_ok h'.table, List.getElem?_append_left hlt, List.getElem?_eq_getElem hlt]
    rw [search_succ msg (by rw [hidx, Int.toNat_natCast]) he]
    split
    next hname =>
      exact invoke_eq h' rfl he hname (hname ▸ h.wf.named _ (List.getElem_mem hlt))
    next hname =>
      refine ih (by omega) ⟨h'.wf, h'.num, h'.table, h'.cache⟩ ?_ hcon ?_
      · simp only [hidx]
        omega
      · intro j hj e hj'
        rcases Nat.lt_or_ge j i with hlt' | hge
        · exact hbefore j hlt' e hj'
        · obtain rfl : j = i := by omega
          rw [List.getElem?_eq_getElem hlt] at hj'
          exact Option.some.inj hj' ▸ hname

theorem Ready.topicNames_eq (h : Ready db n sel r) : r.topicNames = sel.map CmdPro.topicName := by
  rw [RegFunc.topicNames, h.table, h.num, Int.toNat_natCast, Option.getD_some, List.take_left]

theorem Ready.load_eq (h : Ready db n sel r) : r.load sel n = r := by
  rw [RegFunc.load, ← h.num, ← h.table]

theorem connectOnce_eq (hdb : dbInit db = .ok con) (h : Ready db n sel r) :
    ∃ r', connectOnce db r = .ok (con, r') ∧ Ready db n sel r' ∧ r'.msgcnt = r.msgcnt ∧
      r'.mysqlcon = some con := by
  rcases hcon : r.mysqlcon with _ | c
  · refine ⟨{ r with mysqlcon := some con, pHandle := some 0 }, ?_,
      ⟨h.wf, h.num, h.table, ?_⟩, rfl, rfl⟩
    · rw [connectOnce, hcon, hdb, h.table]
      rfl
    · intro c hc
      exact ⟨Option.some.inj hc ▸ hdb, 0, h.wf.pos, rfl⟩
  · obtain ⟨hc, -⟩ := h.cache c hcon
    obtain rfl : c = con := Except.ok.inj (hc.symm.trans hdb)
    refine ⟨r, ?_, h, rfl, hcon⟩
    rw [connectOnce, hcon]

/-- A call dispatches its message as plainly, counts it, and keeps the invariant,
    unless the cache points to a zeroed entry and the topic is empty. -/
theorem decodeMsgHandle_of_cache (topic : CString) (msg : M) (hdb : dbInit db = .ok con)
    (h : Ready db n sel r)
    (hcache : ∀ r₁ e, connectOnce db { r with msgcnt := r.msgcnt + 1 } = .ok (con, r₁) →
      deref r₁ r₁.pHandle = .ok e → topic = e.topicName → topic ≠ .empty) :
    ∃ r', decodeMsgHandle topic msg db r = .ok (r', plainDispatch con sel (topic, msg)) ∧
      Ready db n (bump topic sel) r' ∧ r'.msgcnt = r.msgcnt + 1 := by
  obtain ⟨r', hr', h', hcnt, hcon⟩ := connectOnce_eq (r := { r with msgcnt := r.msgcnt + 1 }) hdb
    ⟨h.wf, h.num, h.table, h.cache⟩
  obtain ⟨-, i, hi, hp⟩ := h'.cache con hcon
  -- the cache points into the array
  obtain ⟨e, he⟩ : ∃ e, deref r' r'.pHandle = .ok e := by
    have hlen : i < (sel ++ List.replicate (n - sel.length) CmdPro.zero).length := by
      have := h.wf.length_le
      simp only [List.length_append, List.length_replicate]
      omega
    refine ⟨(sel ++ List.replicate (n - sel.length) CmdPro.zero)[i], ?_⟩
    rw [hp, deref_eq_ok h'.table, List.getElem?_eq_getElem hlen]
  have hdecode : decodeMsgHandle topic msg db r =
      if topic = e.topicName then invoke topic msg con r' e
      else search topic msg con r'.topicNumLocal.toNat { r' with idx := 0 } := by
    rw [decodeMsgHandle, hr']
    change (deref r' r'.pHandle >>= _) = _
    rw [he]
    rfl
  rw [hdecode]
  split
  next hname =>
    obtain ⟨r'', hr'', h'', hcnt', -⟩ := invoke_eq h' hp he hname (hcache r' e hr' he hname)
    exact ⟨r'', hr'', h'', hcnt'.trans hcnt⟩
  next =>
    obtain ⟨r'', hr'', h'', hcnt', -⟩ := search_eq msg (r := { r' with idx := 0 }) le_rfl
      ⟨h'.wf, h'.num, h'.table, h'.cache⟩ (by simp) hcon (by simp)
    have hnum : r'.topicNumLocal.toNat = sel.length := by rw [h'.num, Int.toNat_natCast]
    rw [hnum]
    exact ⟨r'', hr'', h'', hcnt'.trans hcnt⟩

/-- A call with a topic that is not empty dispatches its message as plainly, counts
    it, and keeps the invariant. -/
theorem decodeMsgHandle_eq (msg : M) (hdb : dbInit db = .ok con) (h : Ready db n sel r)
    (hne : topic ≠ .empty) :
    ∃ r', decodeMsgHandle topic msg db r = .ok (r', plainDispatch con sel (topic, msg)) ∧
      Ready db n (bump topic sel) r' ∧ r'.msgcnt = r.msgcnt + 1 :=
  decodeMsgHandle_of_cache topic msg hdb h fun _ _ _ _ _ => hne

/-- Without the database, the first call exits. -/
theorem decodeMsgHandle_eq_error {e : Stop} (msg : M) (hdb : dbInit db = .error e)
    (h : Ready db n sel r) : decodeMsgHandle topic msg db r = .error e := by
  have hcon : r.mysqlcon = none := by
    rcases hcon : r.mysqlcon with _ | c
    · rfl
    · cases hdb.symm.trans (h.cache c hcon).1
  have hconnect : connectOnce db { r with msgcnt := r.msgcnt + 1 } = .error e := by
    simp only [connectOnce, hcon, hdb]
    rfl
  rw [decodeMsgHandle, hconnect]
  rfl

/-- The table `initTopicConf` leaves is one of entries of `ctrHandleTab`. -/
theorem exists_wellFormed {heap : Heap} {getKey : CString → Except Stop CString} {v : ℤ}
    {r : RegFunc Handler}
    (h : initTopicConf ctrHandleTab heap getKey (.start ctrHandleTab) = .ok (v, r)) :
    ∃ n, ∃ sel : List (CmdPro Handler), sel.Sublist (ctrHandleTab.map .fresh) ∧ WellFormed n sel ∧
      r = (RegFunc.start ctrHandleTab).load sel n := by
  obtain ⟨n, sel, hsub, hbc, hpos, hlen, rfl⟩ :=
    exists_of_initTopicConf rfl (by decide) (by decide) h
  have hnames : (sel.map CmdPro.topicName).Sublist (ctrHandleTab.map CmdPro.topicName) :=
    hsub.map CmdPro.topicName
  have hnamed : ∀ e ∈ sel, e.topicName ≠ .empty := fun e he => by
    have hall : ∀ name ∈ ctrHandleTab.map CmdPro.topicName, name ≠ .empty := by decide
    exact hall _ (hnames.subset (List.mem_map_of_mem he))
  exact ⟨n, sel, hsub, ⟨hpos, hlen, hnames.nodup (by decide), hnamed, hbc⟩, rfl⟩

/-! ## Sequences of messages -/

variable {msgs msgs' : List (CString × M)}

theorem map_tally_bump (msg : M) :
    (bump topic sel).map (tally msgs) = sel.map (tally ((topic, msg) :: msgs)) := by
  rw [bump, List.map_map]
  refine List.map_congr_left fun e _ => ?_
  simp only [Function.comp_apply, tally, List.countP_cons, decide_eq_true_eq]
  split
  · simp only [UInt32.ofNat_add, UInt32.add_assoc, UInt32.add_comm]
    rfl
  · simp

/-- A sequence of calls dispatches every message as plainly and counts it, from
    whatever state earlier calls have left. -/
theorem decodeAll_eq (hdb : dbInit db = .ok con) (h : Ready db n sel r)
    (hne : ∀ m ∈ msgs, m.1 ≠ .empty) :
    ∃ r', decodeAll db r msgs = .ok (r', msgs.flatMap (plainDispatch con sel)) ∧
      Ready db n (sel.map (tally msgs)) r' ∧ r'.msgcnt = r.msgcnt + .ofNat msgs.length := by
  induction msgs generalizing r sel with
  | nil =>
    have hnil : sel.map (tally ([] : List (CString × M))) = sel := by
      refine (List.map_congr_left fun e _ => ?_).trans (List.map_id sel)
      simp [tally]
    refine ⟨r, rfl, hnil.symm ▸ h, ?_⟩
    simp
  | cons m msgs ih =>
    obtain ⟨topic, msg⟩ := m
    obtain ⟨r', hr', h', hcnt⟩ := decodeMsgHandle_eq msg hdb h (hne _ List.mem_cons_self)
    obtain ⟨r'', hr'', h'', hcnt'⟩ := ih h' fun m hm => hne m (List.mem_cons_of_mem _ hm)
    refine ⟨r'', ?_, map_tally_bump msg ▸ h'', ?_⟩
    · rw [plainDispatch_bump] at hr''
      simp only [decodeAll, hr', hr'', bind, Except.bind, pure, Except.pure, List.flatMap_cons]
    · rw [hcnt', hcnt, List.length_cons, UInt32.ofNat_add, UInt32.add_assoc]
      congr 1
      exact UInt32.add_comm _ _

/-- Every message is counted once: at the entry of its topic, or nowhere. -/
theorem sum_countP_add (hnodup : (sel.map CmdPro.topicName).Nodup) (msgs : List (CString × M)) :
    (sel.map fun e => msgs.countP fun m => m.1 = e.topicName).sum +
      msgs.countP (fun m => ∀ e ∈ sel, m.1 ≠ e.topicName) = msgs.length := by
  induction sel with
  | nil => simp
  | cons e sel ih =>
    rw [List.map_cons, List.nodup_cons] at hnodup
    rw [← ih hnodup.2, List.map_cons, List.sum_cons,
      List.countP_eq_countP_filter_add msgs (fun m => decide (∀ e ∈ sel, m.1 ≠ e.topicName))
        (fun m => m.1 = e.topicName), List.countP_filter, List.countP_filter]
    -- a message of the topic of `e` is of no other topic of the table
    have hother : ∀ m : CString × M, m.1 = e.topicName → ∀ e' ∈ sel, m.1 ≠ e'.topicName := by
      intro m hm e' he' h
      exact hnodup.1 (List.mem_map.2 ⟨e', he', h ▸ hm⟩)
    have h₁ : msgs.countP (fun m => decide (∀ e ∈ sel, m.1 ≠ e.topicName) &&
        decide (m.1 = e.topicName)) = msgs.countP fun m => m.1 = e.topicName := by
      refine List.countP_congr fun m _ => ?_
      simpa using hother m
    have h₂ : msgs.countP (fun m => decide (∀ e ∈ sel, m.1 ≠ e.topicName) &&
        !decide (m.1 = e.topicName)) =
        msgs.countP fun m => ∀ e' ∈ e :: sel, m.1 ≠ e'.topicName := by
      refine List.countP_congr fun m _ => ?_
      simp [and_comm]
    rw [h₁, h₂]
    omega

theorem ready_load (tab : List (CmdPro H)) (db : Database) (h : WellFormed n sel) :
    Ready db n sel ((RegFunc.start tab).load sel n) :=
  ⟨h, rfl, rfl, fun _ hc => nomatch hc⟩

theorem toNat_tally (h : e.cnt = 0) (msgs : List (CString × M)) :
    (tally msgs e).cnt.toNat = (msgs.countP fun m => m.1 = e.topicName) % 2 ^ 32 := by
  simp [tally, h]

/-- Dispatching with the cache is dispatching plainly, over whole runs: from a
    table as `initTopicConf` leaves it, the same handlers are called with the
    same arguments in the same order, and all counters are exact modulo `2 ^ 32`
    and the same for every order of the messages. -/
theorem decodeAll_eq_plainDispatch (tab : List (CmdPro H)) (hdb : dbInit db = .ok con)
    (hsel : WellFormed n sel) (hzero : ∀ e ∈ sel, e.cnt = 0) (hne : ∀ m ∈ msgs, m.1 ≠ .empty) :
    ∃ r, decodeAll db ((RegFunc.start tab).load sel n) msgs =
        .ok (r, msgs.flatMap (plainDispatch con sel)) ∧
      r.handleTableLocal =
        some (sel.map (tally msgs) ++ List.replicate (n - sel.length) .zero) ∧
      (∀ e ∈ sel,
        (tally msgs e).cnt.toNat = (msgs.countP fun m => m.1 = e.topicName) % 2 ^ 32) ∧
      r.msgcnt.toNat = msgs.length % 2 ^ 32 ∧
      r.msgcnt.toNat = ((sel.map fun e => (tally msgs e).cnt.toNat).sum +
        msgs.countP fun m => ∀ e ∈ sel, m.1 ≠ e.topicName) % 2 ^ 32 ∧
      ∀ msgs' : List (CString × M), msgs'.Perm msgs →
        ∃ r', decodeAll db ((RegFunc.start tab).load sel n) msgs' =
            .ok (r', msgs'.flatMap (plainDispatch con sel)) ∧
          r'.handleTableLocal = r.handleTableLocal ∧ r'.msgcnt = r.msgcnt := by
  obtain ⟨r, hr, h, hcnt⟩ := decodeAll_eq hdb (ready_load tab db hsel) hne
  have hmsgcnt : r.msgcnt.toNat = msgs.length % 2 ^ 32 := by
    rw [hcnt]
    simp [RegFunc.load, RegFunc.start]
  refine ⟨r, hr, ?_, fun e he => toNat_tally (hzero e he) msgs, hmsgcnt, ?_, ?_⟩
  · rw [h.table, List.length_map]
  · have hsum : (sel.map fun e => (tally msgs e).cnt.toNat) =
        (sel.map fun e => msgs.countP fun m => m.1 = e.topicName).map (· % 2 ^ 32) := by
      rw [List.map_map]
      exact List.map_congr_left fun e he => toNat_tally (hzero e he) msgs
    rw [hmsgcnt, hsum, ← Nat.mod_add_mod, ← List.sum_nat_mod, Nat.mod_add_mod,
      sum_countP_add hsel.nodup]
  · -- the counters only depend on how many messages of each topic there are
    intro msgs' hperm
    obtain ⟨r', hr', h', hcnt'⟩ := decodeAll_eq hdb (ready_load tab db hsel) fun m hm =>
      hne m (hperm.subset hm)
    have htally : (tally msgs' : CmdPro H → CmdPro H) = tally msgs := by
      funext e
      rw [tally, hperm.countP_eq, tally]
    refine ⟨r', hr', ?_, ?_⟩
    · rw [h'.table, h.table, htally]
    · rw [hcnt', hcnt, hperm.length_eq]

end

/-- Two topics in an array of three entries: the cache misses, a search fails,
    and the cache hits. -/
theorem decodeAll_eq_plainDispatch_two :
    ∃ r, decodeAll ⟨some 7, true⟩ ((RegFunc.start ctrHandleTab).load
        [⟨.lit "RRS123", 0, some .doA1⟩, ⟨.lit "TEST12", 0, some .doTest⟩] 3)
        [(.lit "TEST12", 0), (.lit "RDC123", 1), (.lit "TEST12", 2)] =
      .ok (r, [⟨Handler.doTest, .lit "TEST12", 0, 7⟩, ⟨.doTest, .lit "TEST12", 2, 7⟩]) ∧
      r.msgcnt.toNat = 3 := by
  obtain ⟨r, hr, -, -, hcnt, -⟩ := decodeAll_eq_plainDispatch ctrHandleTab
    (show dbInit ⟨some 7, true⟩ = .ok 7 by rfl)
    (show WellFormed 3 [⟨.lit "RRS123", 0, some Handler.doA1⟩,
      ⟨.lit "TEST12", 0, some .doTest⟩] from
      ⟨by decide, by decide, by decide, by decide, by decide⟩) (by decide)
    (show ∀ m ∈ [(CString.lit "TEST12", 0), (.lit "RDC123", 1), (.lit "TEST12", 2)],
      m.1 ≠ .empty by decide)
  refine ⟨r, hr.trans ?_, hcnt⟩
  rfl

end Cmqtt
