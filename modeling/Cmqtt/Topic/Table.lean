import Cmqtt.Config.Reading

/-!
# The table of topics

`core/handle.c` pairs every topic the program knows with its handler
(`ctrHandleTab`). At the start, `initTopicConf` of `core/regfunc.c` copies the
entries the configuration enables to an array allocated for the purpose,
`handleTableLocal`, and `regTopicFromTable` subscribes to them, one by one.

The section `[TOPIC]` of the configuration gives the number `NUM` of topics to
look at, whether a topic is enabled by default (`DEFAULT`), and under the key
`i` whether the topic `i` is enabled. The functions here take the values of its
keys as a parameter `getKey`, which may itself stop the process.

* `confStep`: an iteration of the loop over the topics;
* `selected`: what the loop is for, the entries enabled;
* `confLoop_eq`: after `k` iterations, the array holds the entries enabled among
  the first `k`, followed by zeroed entries;
* `initTopicConf_eq`, `initTopicConf_of_neg`: what `initTopicConf` leaves.
-/

namespace Cmqtt

/-- The handlers of `core/handle.c`. -/
inductive Handler
  | doA1
  | doTest
  deriving DecidableEq, Repr

/-- An entry of a table of topics, `struct cmd_pro`, with handlers in `H`. -/
structure CmdPro (H : Type) where
  topicName : CString
  cnt : UInt32
  /-- The handler: `none` is the null pointer. -/
  bc : Option H
  deriving DecidableEq

/-- An entry of zeroed memory. -/
def CmdPro.zero {H : Type} : CmdPro H := ⟨.empty, 0, none⟩

/-- The size of an entry in bytes: the name, the counter, padding, the pointer. -/
def sizeofCmdPro : ℕ := 272

/-- The topics and their handlers. -/
def ctrHandleTab : List (CmdPro Handler) := [
  ⟨.lit "RRS123", 0, some .doA1⟩,
  ⟨.lit "SFR123", 0, some .doA1⟩,
  ⟨.lit "RS4123", 0, some .doA1⟩,
  ⟨.lit "RDC123", 0, some .doA1⟩,
  ⟨.lit "RSC123", 0, some .doA1⟩,
  ⟨.lit "RCN123", 0, some .doA1⟩,
  ⟨.lit "TEST12", 0, some .doTest⟩]

/-- The variables of `core/regfunc.c`, the static ones of `decode_msg_handle`
    included. A pointer into `handleTableLocal` is an index. -/
structure RegFunc (H : Type) where
  topicNumLocal : ℤ
  /-- The array allocated, or null. -/
  handleTableLocal : Option (List (CmdPro H))
  msgcnt : UInt32
  idx : ℤ
  mysqlcon : Option ℕ
  pHandle : Option ℕ
  deriving DecidableEq

section

variable {H : Type} (tab : List (CmdPro H)) (heap : Heap) (getKey : CString → Except Stop CString)

/-- The variables at the start of the process. -/
def RegFunc.start : RegFunc H where
  topicNumLocal := tab.length
  handleTableLocal := none
  msgcnt := 0
  idx := 0
  mysqlcon := none
  pHandle := none

/-! ## Loading the configuration -/

/-- The loop over the topics: the number of entries written, and the array. -/
structure ConfLoop (H : Type) where
  idx : ℕ
  table : List (CmdPro H)
  deriving DecidableEq

/-- The default for topics without a key. -/
def confDefault : Except Stop ℤ := do
  let ret := atoi (← getKey (.lit "DEFAULT"))
  return if ret = 1 ∨ ret = 0 then ret else 0

/-- The number of topics to look at, `topicNumLocal` before it is corrected. -/
def confNum (topicNumLocal : ℤ) : Except Stop ℤ := do
  let ret := atoi (← getKey (.lit "NUM"))
  let topicNumLocal := if ret ≠ 0 then ret else topicNumLocal
  -- a negative number is not corrected
  return if topicNumLocal > tab.length then tab.length else topicNumLocal

/-- The zeroed array for the topics; its size is computed in `size_t`. -/
def confAlloc (topicNumLocal : ℤ) : Except Stop (ConfLoop H) :=
  let size := (sizeofCmdPro * topicNumLocal % 2 ^ 64).toNat
  if heap.malloc size then .ok ⟨0, List.replicate (size / sizeofCmdPro) .zero⟩
  else .error (.exit 1)

/-- Writing to the entry `idx` of the array. -/
def ConfLoop.write (s : ConfLoop H) (e : CmdPro H) : Except Stop (ConfLoop H) :=
  if s.idx < s.table.length then .ok ⟨s.idx + 1, s.table.set s.idx e⟩
  else .error (.overflow .handleTableLocal)

/-- The iteration of the loop for the topic `i`. -/
def confStep (iDefault : ℤ) (s : ConfLoop H) (i : ℕ) : Except Stop (ConfLoop H) := do
  let resstr ← strcpy .resstr 128 (← getKey (.ofBytes (decimal i))).bytes
  let ret := if resstr.bytes.length = 0 then iDefault else atoi resstr
  match tab[i]? with
  | none => .error (.overflow .ctrHandleTab)
  | some e =>
    if ret = 1 then do
      let topicName ← strcpy .topicName 256 e.topicName.bytes
      s.write { topicName, cnt := 0, bc := e.bc }
    else .ok s

/-- The end of `initTopicConf`: the number of topics is corrected, and their
    handlers are checked. -/
def confFinish (r : RegFunc H) (s : ConfLoop H) : Except Stop (RegFunc H) :=
  if (s.table.take s.idx).all (·.bc.isSome) then
    .ok { r with topicNumLocal := s.idx, handleTableLocal := some s.table }
  else .error .abort

/-- `initTopicConf`, with the value returned. -/
def initTopicConf (r : RegFunc H) : Except Stop (ℤ × RegFunc H) := do
  let iDefault ← confDefault getKey
  let topicNumLocal ← confNum tab getKey r.topicNumLocal
  let s ← confAlloc heap topicNumLocal
  let s ← (List.range topicNumLocal.toNat).foldlM (confStep tab getKey iDefault) s
  let r ← confFinish r s
  return (r.topicNumLocal, r)

/-! ## Subscribing -/

/-- The iteration of `regTopicFromTable` for the entry `idx`: the topic it
    subscribes to, if the entry has a handler. -/
def regTopicStep (r : RegFunc H) (idx : ℕ) : Except Stop (Option CString) :=
  match r.handleTableLocal with
  | none => .error .nullPointer
  | some table =>
    match table[idx]? with
    | none => .error (.overflow .handleTableLocal)
    | some e => .ok (if e.bc.isSome then some e.topicName else none)

/-- The calls of `my_subsribe_topic` that `regTopicFromTable` makes, in order:
    the topic and the quality of service. -/
def regTopicFromTable (r : RegFunc H) : Except Stop (List (CString × ℤ)) := do
  let topics ← (List.range r.topicNumLocal.toNat).mapM (regTopicStep r)
  return topics.reduceOption.map fun topic => (topic, 0)

/-- The names of the topics in the table: `handleTableLocal[0..topicNumLocal)`. -/
def RegFunc.topicNames (r : RegFunc H) : List CString :=
  ((r.handleTableLocal.getD []).take r.topicNumLocal.toNat).map CmdPro.topicName

/-! ## What is selected -/

/-- A topic is enabled: by the value of its key, or by default without one. -/
def enabled (iDefault : ℤ) (value : CString) : Bool :=
  if value.bytes.length = 0 then iDefault == 1 else atoi value == 1

/-- The entries of the topics enabled among the first `k`, in order. -/
def selected (value : ℕ → CString) (iDefault : ℤ) (k : ℕ) : List (CmdPro H) :=
  (List.range k).filterMap fun i =>
    if enabled iDefault (value i) then tab[i]?.map fun e => { e with cnt := 0 } else none

variable {tab heap getKey} {value : ℕ → CString} {iDefault : ℤ} {k n : ℕ} {r : RegFunc H}

theorem selected_succ : selected tab value iDefault (k + 1) = selected tab value iDefault k ++
    (if enabled iDefault (value k) then tab[k]?.map fun e => { e with cnt := 0 } else none).toList := by
  rw [selected, List.range_succ, List.filterMap_append]
  congr 1

theorem length_selected_le : (selected tab value iDefault k).length ≤ k :=
  (List.length_filterMap_le _ _).trans_eq List.length_range

/-- An entry selected is an entry of the table with its counter at zero. -/
theorem mem_of_mem_selected {e : CmdPro H} (he : e ∈ selected tab value iDefault k) :
    ∃ e' ∈ tab, e = { e' with cnt := 0 } := by
  obtain ⟨i, -, hi⟩ := List.mem_filterMap.1 he
  split at hi
  · obtain ⟨e', he', rfl⟩ := Option.map_eq_some_iff.1 hi
    exact ⟨e', List.mem_of_getElem? he', rfl⟩
  · cases hi

/-! ## The loop -/

theorem confAlloc_of_nonneg (hn : sizeofCmdPro * n ≤ 2 ^ 20) :
    confAlloc heap (n : ℤ) = .ok (⟨0, List.replicate n .zero⟩ : ConfLoop H) := by
  have hsize : ((sizeofCmdPro : ℤ) * n % 2 ^ 64).toNat = sizeofCmdPro * n := by
    rw [Int.emod_eq_of_lt (by positivity) (by norm_cast; omega)]
    norm_cast
  rw [confAlloc, hsize]
  simp only [heap.serves _ hn, if_true]
  rw [Nat.mul_div_cancel_left n (by decide)]

/-- A negative number of topics: the size requested wraps to more than the heap
    ever serves. -/
theorem confAlloc_of_neg {n : ℤ} (hneg : n < 0) (hn : -2 ^ 31 ≤ n) :
    confAlloc heap n = (.error (.exit 1) : Except Stop (ConfLoop H)) := by
  have hsize : 2 ^ 63 ≤ ((sizeofCmdPro : ℤ) * n % 2 ^ 64).toNat := by
    have hmod : (sizeofCmdPro : ℤ) * n % 2 ^ 64 = sizeofCmdPro * n + 2 ^ 64 := by
      rw [← Int.add_emod_right, Int.emod_eq_of_lt] <;> simp only [sizeofCmdPro] <;> omega
    rw [hmod]
    simp only [sizeofCmdPro]
    omega
  rw [confAlloc]
  simp only [heap.refuses _ hsize, Bool.false_eq_true, if_false]

/-- An iteration copies the entry of a topic that is enabled. -/
theorem confStep_eq {s : ConfLoop H} {i : ℕ} {e : CmdPro H}
    (hv : getKey (.ofBytes (decimal i)) = .ok (value i)) (hlen : (value i).bytes.length ≤ 127)
    (he : tab[i]? = some e) (hname : e.topicName.bytes.length < 256) :
    confStep tab getKey iDefault s i =
      if enabled iDefault (value i) then s.write { e with cnt := 0 } else .ok s := by
  have hres : strcpy .resstr 128 (value i).bytes = .ok (value i) := by
    rw [strcpy, if_pos (by omega), CString.ofBytes_bytes]
  have hcpy : strcpy .topicName 256 e.topicName.bytes = .ok e.topicName := by
    rw [strcpy, if_pos hname, CString.ofBytes_bytes]
  have hret : ((if (value i).bytes.length = 0 then iDefault else atoi (value i)) = 1) ↔
      enabled iDefault (value i) = true := by
    rw [enabled]
    split <;> simp
  rw [confStep, hv]
  change (do
    let resstr ← strcpy .resstr 128 (value i).bytes
    _) = _
  rw [hres]
  simp only [he, hcpy, bind, Except.bind, hret]

/-- Writing the next entry of the array. -/
theorem write_eq {sel : List (CmdPro H)} (e : CmdPro H) (h : sel.length < n) :
    ConfLoop.write ⟨sel.length, sel ++ List.replicate (n - sel.length) .zero⟩ e =
      .ok ⟨(sel ++ [e]).length, sel ++ [e] ++ List.replicate (n - (sel ++ [e]).length) .zero⟩ := by
  obtain ⟨m, rfl⟩ : ∃ m, n = sel.length + (m + 1) := ⟨n - sel.length - 1, by omega⟩
  rw [ConfLoop.write, if_pos (by simp), List.length_append, List.length_singleton,
    Nat.add_sub_cancel_left, List.set_append_right _ _ le_rfl, Nat.sub_self, List.replicate_succ,
    List.set_cons_zero, List.append_assoc, List.singleton_append]
  congr 5
  omega

/-- After `k` iterations, the array holds the entries of the topics enabled
    among the first `k`, followed by zeroed entries. -/
theorem confLoop_eq (iDefault : ℤ) (hk : k ≤ n) (hn : n ≤ tab.length)
    (hv : ∀ i < k, getKey (.ofBytes (decimal i)) = .ok (value i))
    (hlen : ∀ i < k, (value i).bytes.length ≤ 127)
    (hname : ∀ e ∈ tab, e.topicName.bytes.length < 256) :
    (List.range k).foldlM (confStep tab getKey iDefault) ⟨0, List.replicate n .zero⟩ =
      .ok ⟨(selected tab value iDefault k).length, selected tab value iDefault k ++
        List.replicate (n - (selected tab value iDefault k).length) .zero⟩ := by
  induction k with
  | zero => simp [selected, pure, Except.pure]
  | succ k ih =>
    have hk' : k < tab.length := by omega
    have he : tab[k]? = some tab[k] := List.getElem?_eq_getElem hk'
    have ih := ih (by omega) (fun i hi => hv i (by omega)) (fun i hi => hlen i (by omega))
    rw [foldlM_range_succ ih, confStep_eq (hv k (by omega)) (hlen k (by omega)) he
      (hname _ (List.getElem_mem hk')), selected_succ, he]
    split
    · -- no more entries than iterations, so there is room for this one
      have hlt : (selected tab value iDefault k).length < n :=
        Nat.lt_of_le_of_lt length_selected_le (by omega)
      exact write_eq _ hlt
    · simp

/-- The first value that does not fit `resstr` stops the loop. -/
theorem confLoop_overflow (hn : n ≤ tab.length)
    (hv : ∀ i < n, getKey (.ofBytes (decimal i)) = .ok (value i))
    (hlong : ∃ i < n, 127 < (value i).bytes.length)
    (hname : ∀ e ∈ tab, e.topicName.bytes.length < 256) :
    (List.range n).foldlM (confStep tab getKey iDefault) ⟨0, List.replicate n .zero⟩ =
      .error (.overflow .resstr) := by
  obtain ⟨hi, hlen⟩ := Nat.find_spec hlong
  have hbefore : ∀ j < Nat.find hlong, (value j).bytes.length ≤ 127 := by
    intro j hj
    by_contra h
    exact Nat.find_min hlong hj ⟨by omega, by omega⟩
  generalize Nat.find hlong = i at hi hlen hbefore
  have hok := confLoop_eq iDefault hi.le hn (fun j hj => hv j (by omega)) hbefore hname
  refine foldlM_range_of_error (k := i + 1) ?_ hi
  have hres : strcpy .resstr 128 (value i).bytes = .error (.overflow .resstr) := by
    rw [strcpy, if_neg (by omega)]
  rw [foldlM_range_succ hok, confStep, hv i hi]
  change (do
    let resstr ← strcpy .resstr 128 (value i).bytes
    _) = _
  rw [hres]
  rfl

/-! ## What is left for the program -/

/-- The default, from the value of its key. -/
def topicDefault (d : ℤ) : ℤ := if d = 1 ∨ d = 0 then d else 0

/-- The number of topics to look at, out of `size`, from the value of its key. -/
def topicCount (num : ℤ) (size : ℕ) : ℕ := if num = 0 then size else min num.toNat size

theorem topicCount_le (num : ℤ) (size : ℕ) : topicCount num size ≤ size := by
  rw [topicCount]
  split
  · exact le_rfl
  · exact min_le_right _ _

/-- The variables after `initTopicConf` selected some topics for an array of `n`
    entries. -/
def RegFunc.load (r : RegFunc H) (sel : List (CmdPro H)) (n : ℕ) : RegFunc H :=
  { r with
    topicNumLocal := sel.length
    handleTableLocal := some (sel ++ List.replicate (n - sel.length) .zero) }

theorem confNum_eq {num : CString} (hnum : getKey (.lit "NUM") = .ok num) (h0 : 0 ≤ atoi num) :
    confNum tab getKey tab.length = .ok (topicCount (atoi num) tab.length : ℤ) := by
  rw [confNum, hnum]
  simp only [bind, Except.bind, pure, Except.pure, topicCount]
  congr 1
  split_ifs <;> omega

/-- For a number that is not negative, `initTopicConf` gets to its loop, over an
    array for that many topics. -/
theorem initTopicConf_loop {num default : CString} (hr : r.topicNumLocal = tab.length)
    (hdefault : getKey (.lit "DEFAULT") = .ok default) (hnum : getKey (.lit "NUM") = .ok num)
    (h0 : 0 ≤ atoi num) (hsize : sizeofCmdPro * tab.length ≤ 2 ^ 20)
    (hn : topicCount (atoi num) tab.length = n) : initTopicConf tab heap getKey r = do
      let s ← (List.range n).foldlM (confStep tab getKey (topicDefault (atoi default)))
        ⟨0, List.replicate n .zero⟩
      let r ← confFinish r s
      return (r.topicNumLocal, r) := by
  have hle : n ≤ tab.length := hn ▸ topicCount_le (atoi num) tab.length
  rw [initTopicConf, confDefault, hdefault, hr, confNum_eq hnum h0, hn]
  simp only [bind, Except.bind, pure, Except.pure]
  rw [confAlloc_of_nonneg ((Nat.mul_le_mul_left _ hle).trans hsize)]
  simp only [Int.toNat_natCast, topicDefault]

/-- For a number that is not negative, `initTopicConf` loads the topics enabled. -/
theorem initTopicConf_eq {num default : CString} (hr : r.topicNumLocal = tab.length)
    (hdefault : getKey (.lit "DEFAULT") = .ok default) (hnum : getKey (.lit "NUM") = .ok num)
    (h0 : 0 ≤ atoi num)
    (hv : ∀ i < topicCount (atoi num) tab.length, getKey (.ofBytes (decimal i)) = .ok (value i))
    (hlen : ∀ i < topicCount (atoi num) tab.length, (value i).bytes.length ≤ 127)
    (hname : ∀ e ∈ tab, e.topicName.bytes.length < 256) (hbc : ∀ e ∈ tab, e.bc.isSome)
    (hsize : sizeofCmdPro * tab.length ≤ 2 ^ 20) :
    initTopicConf tab heap getKey r =
      let n := topicCount (atoi num) tab.length
      let sel := selected tab value (topicDefault (atoi default)) n
      .ok (sel.length, r.load sel n) := by
  rw [initTopicConf_loop hr hdefault hnum h0 hsize rfl,
    confLoop_eq _ le_rfl (topicCount_le _ _) hv hlen hname]
  have hall : (selected tab value (topicDefault (atoi default))
      (topicCount (atoi num) tab.length)).all (·.bc.isSome) := by
    rw [List.all_eq_true]
    intro e he
    obtain ⟨e', he', rfl⟩ := mem_of_mem_selected he
    exact hbc e' he'
  simp only [bind, Except.bind, confFinish, List.take_left]
  rw [if_pos hall]
  rfl

/-- For a value that does not fit `resstr`, it leaves the buffer. -/
theorem initTopicConf_overflow {num default : CString} (hr : r.topicNumLocal = tab.length)
    (hdefault : getKey (.lit "DEFAULT") = .ok default) (hnum : getKey (.lit "NUM") = .ok num)
    (h0 : 0 ≤ atoi num)
    (hv : ∀ i < topicCount (atoi num) tab.length, getKey (.ofBytes (decimal i)) = .ok (value i))
    (hlong : ∃ i < topicCount (atoi num) tab.length, 127 < (value i).bytes.length)
    (hname : ∀ e ∈ tab, e.topicName.bytes.length < 256)
    (hsize : sizeofCmdPro * tab.length ≤ 2 ^ 20) :
    initTopicConf tab heap getKey r = .error (.overflow .resstr) := by
  rw [initTopicConf_loop hr hdefault hnum h0 hsize rfl,
    confLoop_overflow (topicCount_le _ _) hv hlong hname]
  rfl

/-- For a negative number, `initTopicConf` exits. -/
theorem initTopicConf_of_neg {num default : CString} (hr : r.topicNumLocal = tab.length)
    (hdefault : getKey (.lit "DEFAULT") = .ok default) (hnum : getKey (.lit "NUM") = .ok num)
    (h0 : atoi num < 0) : initTopicConf tab heap getKey r = .error (.exit 1) := by
  have hn : confNum tab getKey tab.length = .ok (atoi num) := by
    rw [confNum, hnum]
    simp only [bind, Except.bind, pure, Except.pure]
    congr 1
    split_ifs <;> omega
  rw [initTopicConf, confDefault, hdefault, hr, hn]
  simp only [bind, Except.bind, pure, Except.pure]
  rw [confAlloc_of_neg h0 (neg_two_pow_le_atoi num)]

/-! ## Whatever the configuration -/

/-- The entry with its counter at zero. -/
def CmdPro.fresh (e : CmdPro H) : CmdPro H := { e with cnt := 0 }

/-- What an iteration that returns has done. -/
theorem confStep_cases {s s' : ConfLoop H} {i : ℕ} (h : confStep tab getKey iDefault s i = .ok s') :
    ∃ e, tab[i]? = some e ∧ (s' = s ∨ s.write e.fresh = .ok s') := by
  rw [confStep] at h
  obtain ⟨value, -, h⟩ := exists_of_bind_eq_ok h
  obtain ⟨resstr, -, h⟩ := exists_of_bind_eq_ok h
  dsimp only at h
  generalize (if resstr.bytes.length = 0 then iDefault else atoi resstr) = ret at h
  rcases he : tab[i]? with _ | e
  · rw [he] at h
    cases h
  · rw [he] at h
    refine ⟨e, rfl, ?_⟩
    dsimp only at h
    split_ifs at h
    · obtain ⟨topicName, hcpy, h⟩ := exists_of_bind_eq_ok h
      obtain rfl := eq_of_strcpy hcpy
      exact .inr h
    · exact .inl (Except.ok.inj h).symm

/-- After `k` iterations, the array holds some of the first `k` entries, in
    order, followed by zeroed entries. -/
theorem exists_of_confLoop {s : ConfLoop H}
    (h : (List.range k).foldlM (confStep tab getKey iDefault) ⟨0, List.replicate n .zero⟩ = .ok s) :
    ∃ sel : List (CmdPro H), sel.Sublist ((tab.take k).map .fresh) ∧ sel.length ≤ n ∧
      s = ⟨sel.length, sel ++ List.replicate (n - sel.length) .zero⟩ := by
  induction k generalizing s with
  | zero =>
    obtain rfl := Except.ok.inj h
    exact ⟨[], by simp, by simp, by simp⟩
  | succ k ih =>
    obtain ⟨s₁, h₁, h⟩ := exists_of_foldlM_range_succ h
    obtain ⟨sel, hsub, hlen, rfl⟩ := ih h₁
    obtain ⟨e, he, hs⟩ := confStep_cases h
    have htake : (tab.take (k + 1)).map CmdPro.fresh = (tab.take k).map .fresh ++ [e.fresh] := by
      rw [List.take_add_one, he, List.map_append]
      rfl
    rw [htake]
    rcases hs with rfl | hs
    · exact ⟨sel, hsub.trans (List.sublist_append_left _ _), hlen, rfl⟩
    · rcases Nat.lt_or_ge sel.length n with hlt | hge
      · rw [write_eq _ hlt] at hs
        exact ⟨sel ++ [e.fresh], hsub.append_right _, by simpa using hlt, (Except.ok.inj hs).symm⟩
      · -- the array is full
        rw [ConfLoop.write, if_neg (by simp; omega)] at hs
        cases hs

theorem confNum_bounds {num : ℤ} (h : confNum tab getKey tab.length = .ok num) (htab : tab ≠ []) :
    num ≠ 0 ∧ num ≤ tab.length ∧ -2 ^ 31 ≤ num := by
  obtain ⟨value, -, h⟩ := exists_of_bind_eq_ok h
  have hnum := Except.ok.inj h
  have hlen := List.length_pos_iff.2 htab
  have hmin := neg_two_pow_le_atoi value
  split_ifs at hnum <;> omega

/-- Whatever the configuration, `initTopicConf` loads some of the entries of the
    table, in order, if it returns. -/
theorem exists_of_initTopicConf {v : ℤ} {r' : RegFunc H} (hr : r.topicNumLocal = tab.length)
    (htab : tab ≠ []) (hsize : sizeofCmdPro * tab.length ≤ 2 ^ 20)
    (h : initTopicConf tab heap getKey r = .ok (v, r')) :
    ∃ n, ∃ sel : List (CmdPro H), sel.Sublist (tab.map .fresh) ∧ (∀ e ∈ sel, e.bc.isSome) ∧ 0 < n ∧
      sel.length ≤ n ∧ r' = r.load sel n := by
  rw [initTopicConf, hr] at h
  obtain ⟨iDefault, -, h⟩ := exists_of_bind_eq_ok h
  obtain ⟨num, hnum, h⟩ := exists_of_bind_eq_ok h
  obtain ⟨s, hs, h⟩ := exists_of_bind_eq_ok h
  obtain ⟨s', hs', h⟩ := exists_of_bind_eq_ok h
  obtain ⟨r'', hr'', h⟩ := exists_of_bind_eq_ok h
  obtain rfl : r'' = r' := congrArg Prod.snd (Except.ok.inj h)
  obtain ⟨hne, hle, hmin⟩ := confNum_bounds hnum htab
  rcases lt_or_ge num 0 with hneg | hpos
  · -- the allocation fails
    rw [confAlloc_of_neg hneg hmin] at hs
    cases hs
  · obtain ⟨n, rfl⟩ := Int.eq_ofNat_of_zero_le hpos
    rw [confAlloc_of_nonneg ((Nat.mul_le_mul_left _ (by omega)).trans hsize)] at hs
    obtain rfl := Except.ok.inj hs
    obtain ⟨sel, hsub, hlen, rfl⟩ := exists_of_confLoop hs'
    simp only [confFinish, List.take_left] at hr''
    split_ifs at hr'' with hall
    rw [List.all_eq_true] at hall
    refine ⟨n, sel, hsub.trans ((List.take_sublist _ _).map _), hall, by omega, hlen, ?_⟩
    exact (Except.ok.inj hr'').symm

theorem regTopicStep_load {sel : List (CmdPro H)} {idx : ℕ} (hidx : idx < sel.length)
    (hbc : sel[idx].bc.isSome) :
    regTopicStep (r.load sel n) idx = .ok (some sel[idx].topicName) := by
  have hget : (sel ++ List.replicate (n - sel.length) CmdPro.zero)[idx]? = some sel[idx] := by
    rw [List.getElem?_append_left hidx, List.getElem?_eq_getElem hidx]
  simp only [regTopicStep, RegFunc.load, hget, hbc, if_true]

/-- `regTopicFromTable` subscribes once to every topic loaded, in order. -/
theorem regTopicFromTable_load {sel : List (CmdPro H)} (hbc : ∀ e ∈ sel, e.bc.isSome) :
    regTopicFromTable (r.load sel n) = .ok (sel.map fun e => (e.topicName, 0)) := by
  have hstep : ∀ idx ∈ List.range sel.length,
      regTopicStep (r.load sel n) idx = .ok (sel[idx]?.map CmdPro.topicName) := fun idx hidx => by
    have hlt := List.mem_range.1 hidx
    rw [regTopicStep_load hlt (hbc _ (List.getElem_mem hlt)), List.getElem?_eq_getElem hlt]
    rfl
  have hmap : (List.range sel.length).map (fun idx => sel[idx]?.map CmdPro.topicName) =
      sel.map fun e => some e.topicName := by
    apply List.ext_getElem
    · simp
    · intro i h₁ h₂
      simp only [List.length_map, List.length_range] at h₁
      simp [h₁]
  rw [regTopicFromTable]
  change (do
    let topics ← (List.range sel.length).mapM (regTopicStep (r.load sel n))
    return topics.reduceOption.map fun topic => (topic, (0 : ℤ))) = _
  have hreduce : (sel.map fun e => some e.topicName).reduceOption = sel.map CmdPro.topicName := by
    change (sel.map fun e => some e.topicName).filterMap id = _
    rw [List.filterMap_map]
    exact congrFun List.filterMap_eq_map sel
  rw [mapM_eq_ok hstep, hmap]
  simp only [bind, Except.bind, pure, Except.pure, hreduce, List.map_map]
  rfl

end

/-! ## From a file -/

section

open GetInitKey

/-- The section `[TOPIC]` of a configuration file, as `initTopicConf` reads it. -/
def topicKey (file : Option File) (key : CString) : Except Stop CString :=
  getInitKey file (.lit "TOPIC") key

/-- The value a file gives for a key of the section `[TOPIC]`. -/
def topicValue (content : List UInt8) (key : CString) : CString :=
  fileValue content (.lit "TOPIC") key

/-- The value of the key of the topic `i`. -/
def topicSwitch (content : List UInt8) (i : ℕ) : CString :=
  topicValue content (.ofBytes (decimal i))

variable {content : List UInt8}

theorem topicKey_eq_ok (hshort : ∀ l ∈ lines content, l.length ≤ 1023) (key : CString) :
    topicKey (some (.regular content)) key = .ok (topicValue content key) :=
  getInitKey_eq_fileValue (by decide) fun l hl => hshort l (reached_subset hl)

/-- The topics a configuration selects. -/
def configured (content : List UInt8) : List (CmdPro Handler) :=
  selected ctrHandleTab (topicSwitch content)
    (topicDefault (atoi (topicValue content (.lit "DEFAULT"))))
    (topicCount (atoi (topicValue content (.lit "NUM"))) ctrHandleTab.length)

theorem initTopicConf_regular (heap : Heap) (hshort : ∀ l ∈ lines content, l.length ≤ 1023)
    (hswitch : ∀ i < ctrHandleTab.length, (topicSwitch content i).bytes.length ≤ 127)
    (h0 : 0 ≤ atoi (topicValue content (.lit "NUM"))) :
    initTopicConf ctrHandleTab heap (topicKey (some (.regular content))) (.start ctrHandleTab) =
      .ok ((configured content).length, (RegFunc.start ctrHandleTab).load (configured content)
        (topicCount (atoi (topicValue content (.lit "NUM"))) ctrHandleTab.length)) :=
  initTopicConf_eq rfl (topicKey_eq_ok hshort _) (topicKey_eq_ok hshort _) h0
    (fun i _ => topicKey_eq_ok hshort _) (fun i hi => hswitch i (hi.trans_le (topicCount_le _ _)))
    (by decide) (by decide) (by decide)

/-- The table of topics is exactly the configured selection: `initTopicConf`
    returns with it in the first entries of the array, zeroed entries after it
    and its length in `topicNumLocal`, and `regTopicFromTable` then subscribes
    to it in order; for a negative number of topics, the process exits. -/
theorem initTopicConf_configured (heap : Heap) (hshort : ∀ l ∈ lines content, l.length ≤ 1023)
    (hswitch : ∀ i < ctrHandleTab.length, (topicSwitch content i).bytes.length ≤ 127) :
    (0 ≤ atoi (topicValue content (.lit "NUM")) →
      ∃ r, initTopicConf ctrHandleTab heap (topicKey (some (.regular content)))
          (.start ctrHandleTab) = .ok ((configured content).length, r) ∧
        r = (RegFunc.start ctrHandleTab).load (configured content)
          (topicCount (atoi (topicValue content (.lit "NUM"))) ctrHandleTab.length) ∧
        regTopicFromTable r = .ok ((configured content).map fun e => (e.topicName, 0))) ∧
    (atoi (topicValue content (.lit "NUM")) < 0 →
      initTopicConf ctrHandleTab heap (topicKey (some (.regular content)))
        (.start ctrHandleTab) = .error (.exit 1)) := by
  refine ⟨fun h0 => ⟨_, initTopicConf_regular heap hshort hswitch h0, rfl, ?_⟩, fun h0 => ?_⟩
  · refine regTopicFromTable_load fun e he => ?_
    obtain ⟨e', he', rfl⟩ := mem_of_mem_selected he
    exact (show ∀ e ∈ ctrHandleTab, e.bc.isSome by decide) e' he'
  · exact initTopicConf_of_neg rfl (topicKey_eq_ok hshort _) (topicKey_eq_ok hshort _) h0

/-- Three topics to look at, enabled by default, the second one disabled. -/
theorem initTopicConf_configured_three :
    ∃ r, initTopicConf ctrHandleTab .unlimited
        (topicKey (some (.regular (ascii "[TOPIC]\nNUM=3\nDEFAULT=1\n1 = 0"))))
        (.start ctrHandleTab) = .ok (2, r) ∧
      regTopicFromTable r = .ok [(.lit "RRS123", 0), (.lit "RS4123", 0)] := by
  have hconf : configured (ascii "[TOPIC]\nNUM=3\nDEFAULT=1\n1 = 0") =
      [⟨.lit "RRS123", 0, some .doA1⟩, ⟨.lit "RS4123", 0, some .doA1⟩] := by decide +kernel
  obtain ⟨r, hr, -, hreg⟩ := (initTopicConf_configured .unlimited
    (show ∀ l ∈ lines (ascii "[TOPIC]\nNUM=3\nDEFAULT=1\n1 = 0"), _ by decide)
    (by decide +kernel)).1 (by decide +kernel)
  rw [hconf] at hr hreg
  exact ⟨r, hr, hreg⟩

end

end Cmqtt
