import Cmqtt.Ledger
import Cmqtt.Paho.Effects

/-!
# What holds of requests at any time

In every reachable state (`Orderly`), the requests of a client that were started,
followed by those in the list, are those that were accepted; none that was started is
held twice; identifiers are in their range; and no more messages wait for their
acknowledgement than may.

How the identifiers of a client change (`identifiers_give`, `identifiers_add`,
`identifiers_take`) and what it holds of its requests (`change_of_effect`) is said for
each effect of a step; the two slips are in neither way of the invariant.
-/

namespace Cmqtt

open SocketBuffer MQTTPacket MQTTProtocol

namespace Library

variable {s s' : Library} {i : ℕ} {opts : ℕ → ClientOptions} {a : Action}

/-! ## The invariant -/

/-- The identifiers of a client that are not yet in use: those of calls under way, and of
    commands in the list. -/
def reserved (s : Library) (i : ℕ) : List ℕ :=
  s.given i ++ ((ordinary i s.commands).map QueuedCommand.token).filter (· ≠ 0)

/-- The identifiers of the requests of a client that are being made or wait. -/
def identifiers (s : Library) (i : ℕ) : List ℕ :=
  s.reserved i ++ ((s.clients i).responses.map QueuedCommand.token).filter (· ≠ 0)

/-- What holds at any time. -/
structure Orderly (opts : ℕ → ClientOptions) (s : Library) : Prop where
  belongs : s.Belongs
  drafts : ∀ d ∈ s.drafts, d.request.Valid d.msgid
  valid : ∀ i, ∀ cmd ∈ ordinary i s.commands, cmd.request.Valid (some cmd.token)
  order : ∀ i, ordinary i s.started ++ ordinary i s.commands = ordinary i s.accepted
  accounted : ∀ i, Accounted (ordinary i s.started) (s.held i)
  numbers : (s.accepted.map QueuedCommand.number).Nodup
  fresh : ∀ cmd ∈ s.accepted, cmd.number < s.numbers
  bounded : ∀ i, ∀ msgid ∈ s.identifiers i, msgid ≤ MQTTAsync.maxMsgId
  msgID : ∀ i, (s.clients i).msgID ≤ MQTTAsync.maxMsgId
  acknowledged : ∀ i, 0 ∉ (s.clients i).c.outboundMsgs.map Messages.msgid
  inflight : ∀ i, (s.clients i).c.outboundMsgs.length ≤ (opts i).maxInflight ∧
    (s.clients i).c.outboundMsgs.length ≤ MQTTAsync.maxMsgId - 1

theorem orderly_start : Orderly opts start where
  belongs := by simp [Belongs, start]
  drafts := by simp [start]
  valid := by simp [start, ordinary]
  order _ := rfl
  accounted _ := ⟨List.nodup_nil, List.Subset.refl _⟩
  numbers := List.nodup_nil
  fresh := by simp [start]
  bounded := by simp [Library.identifiers, reserved, Library.given, msgids, start, ordinary]
  msgID _ := Nat.zero_le _
  acknowledged := by simp [start]
  inflight _ := ⟨Nat.zero_le _, Nat.zero_le _⟩

theorem msgids_append (drafts drafts' : List Draft) :
    msgids i (drafts ++ drafts') = msgids i drafts ++ msgids i drafts' := by
  simp [msgids]

/-- A call is under way, among others. -/
theorem msgids_perm {drafts : List Draft} {d : Draft} (h : d ∈ drafts) :
    (msgids i drafts).Perm (msgids i [d] ++ msgids i (drafts.erase d)) := by
  rw [← msgids_append, List.singleton_append]
  exact (((List.perm_cons_erase h).filter _).filterMap _).filter _

theorem msgids_singleton (d : Draft) :
    msgids i [d] = if d.client = i then d.msgid.toList.filter (· ≠ 0) else [] := by
  rw [msgids]
  split_ifs with h
  · cases hmsgid : d.msgid with
    | none => simp [h, hmsgid]
    | some msgid => simp [h, hmsgid]
  · simp [h]

theorem given_sublist (h : s'.drafts.Sublist s.drafts) (i : ℕ) :
    (s'.given i).Sublist (s.given i) :=
  ((h.filter _).filterMap _).filter _

theorem Shrinks.reserved (hs : s.Shrinks s') (i : ℕ) : (s'.reserved i).Sublist (s.reserved i) := by
  rw [Library.reserved, Library.reserved, hs.queued]
  exact (given_sublist hs.drafts i).append_right _

theorem Shrinks.identifiers (hs : s.Shrinks s') (i : ℕ) :
    (s'.identifiers i).Sublist (s.identifiers i) :=
  (hs.reserved i).append (((hs.clients i).responses.map _).filter _)

theorem Orderly.shrinks (h : Orderly opts s) (hs : s.Shrinks s')
    (haccounted : ∀ i, Accounted (ordinary i s'.started) (s'.held i)) : Orderly opts s' := by
  refine ⟨hs.belongs h.belongs, fun d hd => h.drafts d (hs.drafts.subset hd), fun i => ?_,
    fun i => ?_, haccounted, ?_, fun cmd hcmd => ?_, fun i msgid hid => ?_, fun i => ?_,
    fun i hzero => ?_, fun i => ?_⟩
  · rw [hs.queued]
    exact h.valid i
  · rw [hs.started, hs.queued, hs.accepted]
    exact h.order i
  · rw [hs.accepted]
    exact h.numbers
  · rw [hs.accepted] at hcmd
    exact (h.fresh cmd hcmd).trans_le hs.numbers
  · exact h.bounded i msgid ((hs.identifiers i).subset hid)
  · exact (hs.clients i).msgID.trans (h.msgID i)
  · exact h.acknowledged i ((hs.clients i).outbound.subset hzero)
  · have hlength := (hs.clients i).length_le
    exact ⟨hlength.trans (h.inflight i).1, hlength.trans (h.inflight i).2⟩

theorem ordinary_append (cmds cmds' : List QueuedCommand) :
    ordinary i (cmds ++ cmds') = ordinary i cmds ++ ordinary i cmds' := List.filter_append _ _

theorem ordinary_singleton {cmd : QueuedCommand} (h : cmd.request.isOrdinary = true) :
    ordinary i [cmd] = if i = cmd.client then [cmd] else [] := by
  by_cases hi : i = cmd.client
  · simp [ordinary, h, hi]
  · simp [ordinary, h, hi, Ne.symm hi]

theorem ordinary_snoc {cmd : QueuedCommand} (h : cmd.request.isOrdinary = true)
    (cmds : List QueuedCommand) :
    ordinary i (cmds ++ [cmd]) = ordinary i cmds ++ if i = cmd.client then [cmd] else [] := by
  rw [ordinary_append, ordinary_singleton h]

/-! ### A call begins -/

theorem given_draft {msgid : Option ℕ} (s : Library) (i : ℕ) (request : Request)
    (h : msgid = none ∨ msgid = some 0) (j : ℕ) :
    (s.draft i msgid request).given j = s.given j := by
  rw [given, given, draft, msgids_append, msgids_singleton]
  obtain rfl | rfl := h
  · simp
  · simp

theorem reserved_draft {msgid : Option ℕ} (s : Library) (i : ℕ) (request : Request)
    (h : msgid = none ∨ msgid = some 0) (j : ℕ) :
    (s.draft i msgid request).reserved j = s.reserved j := by
  rw [reserved, reserved, given_draft s i request h]
  rfl

theorem identifiers_draft {msgid : Option ℕ} (s : Library) (i : ℕ) (request : Request)
    (h : msgid = none ∨ msgid = some 0) (j : ℕ) :
    (s.draft i msgid request).identifiers j = s.identifiers j := by
  rw [identifiers, identifiers, reserved_draft s i request h]
  rfl

theorem Orderly.drafted {msgid : Option ℕ} {request : Request} (h : Orderly opts s) (i : ℕ)
    (hmsgid : msgid = none ∨ msgid = some 0) (hvalid : request.Valid msgid) :
    Orderly opts (s.draft i msgid request) := by
  refine ⟨h.belongs, fun d hd => ?_, h.valid, h.order, h.accounted, h.numbers, h.fresh,
    fun j => ?_, h.msgID, h.acknowledged, h.inflight⟩
  · obtain hd | hd := List.mem_append.1 hd
    · exact h.drafts d hd
    · rw [List.mem_singleton.1 hd]
      exact hvalid
  · rw [identifiers_draft s i request hmsgid]
    exact h.bounded j

/-! ### A call is given an identifier -/

theorem inUse_eq_false {msgid : ℕ} (h : s.inUse i msgid = false) :
    (∀ cmd ∈ s.commands, cmd.token ≠ msgid) ∧
      msgid ∉ (s.clients i).c.outboundMsgs.map Messages.msgid ∧
      ∀ cmd ∈ (s.clients i).responses, cmd.token ≠ msgid := by
  rw [inUse, Bool.or_eq_false_iff, Bool.or_eq_false_iff] at h
  obtain ⟨⟨hcommands, houtbound⟩, hresponses⟩ := h
  refine ⟨by simpa using hcommands, ?_, by simpa using hresponses⟩
  rw [Option.isSome_eq_false_iff, Option.isNone_iff_eq_none] at houtbound
  simpa using Keyed.find_eq_none.1 houtbound

/-- Only a call that is under way can have an identifier that is not in use. -/
theorem mem_identifiers_iff {msgid : ℕ} (h : s.inUse i msgid = false) :
    msgid ∈ s.identifiers i ↔ msgid ∈ s.given i := by
  obtain ⟨hcommands, -, hresponses⟩ := inUse_eq_false h
  refine ⟨fun hmem => ?_, fun hmem => List.mem_append_left _ (List.mem_append_left _ hmem)⟩
  obtain hmem | hmem := List.mem_append.1 hmem
  · obtain hmem | hmem := List.mem_append.1 hmem
    · exact hmem
    · obtain ⟨cmd, hcmd, rfl⟩ := List.mem_map.1 (List.mem_filter.1 hmem).1
      exact absurd rfl (hcommands cmd (List.mem_filter.1 hcmd).1)
  · obtain ⟨cmd, hcmd, rfl⟩ := List.mem_map.1 (List.mem_filter.1 hmem).1
    exact absurd rfl (hresponses cmd hcmd)

/-- Of the clients, only the last identifier changes. -/
theorem clients_give (s : Library) (d : Draft) (msgid j : ℕ) :
    ∃ k, (k = msgid ∨ k = (s.clients j).msgID) ∧
      (s.give d msgid).clients j = { s.clients j with msgID := k } := by
  by_cases hj : j = d.client
  · subst hj
    exact ⟨msgid, .inl rfl, Function.update_self _ _ _⟩
  · exact ⟨_, .inr rfl, Function.update_of_ne hj _ _⟩

theorem given_give {d : Draft} {msgid : ℕ} (hd : d ∈ s.drafts) (hnone : d.msgid = none)
    (hne : msgid ≠ 0) (j : ℕ) :
    ((s.give d msgid).given j).Perm ((if d.client = j then [msgid] else []) ++ s.given j) := by
  have hold : (s.given j).Perm (msgids j (s.drafts.erase d)) := by
    have hperm := msgids_perm (i := j) hd
    rw [msgids_singleton, hnone] at hperm
    simpa [Library.given] using hperm
  rw [Library.given, give, msgids_append, msgids_singleton]
  simp only [Option.toList_some, List.filter_cons, List.filter_nil, decide_eq_true_eq, ne_eq, hne,
    not_false_eq_true, if_true]
  exact List.perm_append_comm.trans (hold.symm.append_left _)

theorem reserved_give {d : Draft} {msgid : ℕ} (hd : d ∈ s.drafts) (hnone : d.msgid = none)
    (hne : msgid ≠ 0) (j : ℕ) :
    ((s.give d msgid).reserved j).Perm ((if d.client = j then [msgid] else []) ++ s.reserved j) := by
  rw [reserved, reserved, ← List.append_assoc]
  exact (given_give hd hnone hne j).append_right _

theorem identifiers_give {d : Draft} {msgid : ℕ} (hd : d ∈ s.drafts) (hnone : d.msgid = none)
    (hne : msgid ≠ 0) (j : ℕ) : ((s.give d msgid).identifiers j).Perm
      ((if d.client = j then [msgid] else []) ++ s.identifiers j) := by
  obtain ⟨k, -, hk⟩ := clients_give s d msgid j
  rw [identifiers, identifiers, hk, ← List.append_assoc]
  exact (reserved_give hd hnone hne j).append_right _

theorem held_give (s : Library) (d : Draft) (msgid j : ℕ) :
    (s.give d msgid).held j = s.held j := by
  obtain ⟨k, -, hk⟩ := clients_give s d msgid j
  rw [held, held, hk]
  rfl

/-- A request that waits for an identifier has been given one. -/
theorem valid_some {r : Request} {msgid : ℕ} (h : r.Valid none) (hne : msgid ≠ 0) :
    r.Valid (some msgid) := by
  cases r with
  | publish destinationName payload qos retained =>
    obtain ⟨hqos, hpos⟩ := h
    exact ⟨hqos, by simpa [hne] using hpos⟩
  | _ => trivial

theorem Orderly.given {d : Draft} {msgid : ℕ} (h : Orderly opts s) (hd : d ∈ s.drafts)
    (hnone : d.msgid = none) (hassign : s.assignMsgId d.client = some msgid) (hne : msgid ≠ 0) :
    Orderly opts (s.give d msgid) := by
  have hle := (MQTTAsync.fresh_of_assignMsgId (h.msgID d.client) hassign hne).1
  refine ⟨fun j => ?_, fun c hc => ?_, h.valid, h.order, fun j => ?_, h.numbers, h.fresh,
    fun j k hk => ?_, fun j => ?_, fun j => ?_, fun j => ?_⟩
  · obtain ⟨k, -, hk⟩ := clients_give s d msgid j
    rw [hk]
    exact h.belongs j
  · obtain hc | hc := List.mem_append.1 hc
    · exact h.drafts c (List.mem_of_mem_erase hc)
    · rw [List.mem_singleton.1 hc]
      exact valid_some (hnone ▸ h.drafts d hd) hne
  · rw [held_give]
    exact h.accounted j
  · obtain hk | hk := List.mem_append.1 ((identifiers_give hd hnone hne j).subset hk)
    · split_ifs at hk
      · exact List.mem_singleton.1 hk ▸ hle
      · cases hk
    · exact h.bounded j k hk
  · obtain ⟨k, hcases, hk⟩ := clients_give s d msgid j
    rw [hk]
    obtain rfl | rfl := hcases
    · exact hle
    · exact h.msgID j
  · obtain ⟨k, -, hk⟩ := clients_give s d msgid j
    rw [hk]
    exact h.acknowledged j
  · obtain ⟨k, -, hk⟩ := clients_give s d msgid j
    rw [hk]
    exact h.inflight j

/-! ### A request is accepted -/

theorem add_eq {d : Draft} (hr : d.request.isOrdinary = true) (msgid address current : ℕ) :
    s.add d msgid address current =
      { s with
        commands := s.commands ++ [⟨s.numbers, address, d.client, msgid, d.request⟩]
        drafts := s.drafts.erase d
        numbers := s.numbers + 1
        accepted := s.accepted ++ [⟨s.numbers, address, d.client, msgid, d.request⟩] } := by
  have hfirst : d.request.isFirst = false := by
    cases hrequest : d.request with
    | connect conn => rw [hrequest] at hr; cases hr
    | disconnect internal timeout => rw [hrequest] at hr; cases hr
    | _ => rfl
  rw [add, Library.queue, Library.addCommand, if_pos hr, if_neg (by simp [hfirst])]

/-- The identifier of the call is now that of the command. -/
theorem reserved_add {d : Draft} {msgid : ℕ} (hd : d ∈ s.drafts) (hmsgid : d.msgid = some msgid)
    (hr : d.request.isOrdinary = true) (address current j : ℕ) :
    ((s.add d msgid address current).reserved j).Perm (s.reserved j) := by
  have hold := msgids_perm (i := j) hd
  rw [msgids_singleton, hmsgid] at hold
  rw [reserved, reserved, add_eq hr, ordinary_snoc hr]
  simp only [Library.given]
  refine List.Perm.trans ?_ (hold.append_right _).symm
  by_cases hj : d.client = j
  · rw [if_pos hj, if_pos hj.symm, List.map_append, List.filter_append, ← List.append_assoc]
    refine List.perm_append_comm.trans ?_
    rw [List.append_assoc]
    exact .refl _
  · rw [if_neg hj, if_neg (Ne.symm hj), List.append_nil, List.nil_append]

theorem identifiers_add {d : Draft} {msgid : ℕ} (hd : d ∈ s.drafts) (hmsgid : d.msgid = some msgid)
    (hr : d.request.isOrdinary = true) (address current j : ℕ) :
    ((s.add d msgid address current).identifiers j).Perm (s.identifiers j) := by
  have hperm := reserved_add hd hmsgid hr address current j
  have hclients : (s.add d msgid address current).clients = s.clients := by rw [add_eq hr]
  rw [identifiers, identifiers, hclients]
  exact hperm.append_right _

theorem Orderly.accepted {d : Draft} {msgid : ℕ} (h : Orderly opts s) (hd : d ∈ s.drafts)
    (hmsgid : d.msgid = some msgid) (hr : d.request.isOrdinary = true) (address current : ℕ) :
    Orderly opts (s.add d msgid address current) := by
  have hids := identifiers_add hd hmsgid hr address current
  rw [add_eq hr] at hids ⊢
  refine ⟨h.belongs, fun c hc => h.drafts c (List.mem_of_mem_erase hc), fun j c hc => ?_,
    fun j => ?_, h.accounted, ?_, fun c hc => ?_, fun j k hk => ?_, h.msgID, h.acknowledged,
    h.inflight⟩
  · rw [ordinary_snoc hr] at hc
    obtain hc | hc := List.mem_append.1 hc
    · exact h.valid j c hc
    · split_ifs at hc
      · rw [List.mem_singleton.1 hc]
        exact hmsgid ▸ h.drafts d hd
      · cases hc
  · rw [ordinary_snoc hr, ordinary_snoc hr, ← List.append_assoc, h.order]
  · rw [List.map_append, List.nodup_append]
    refine ⟨h.numbers, List.nodup_singleton _, ?_⟩
    rintro n hn n' hn' rfl
    obtain ⟨c, hc, rfl⟩ := List.mem_map.1 hn
    exact (h.fresh c hc).ne (List.mem_singleton.1 hn')
  · obtain hc | hc := List.mem_append.1 hc
    · exact (h.fresh c hc).trans (Nat.lt_succ_self _)
    · rw [List.mem_singleton.1 hc]
      exact Nat.lt_succ_self _
  · exact h.bounded j k ((hids j).subset hk)

/-! ### A request is started -/

section

variable {env : Processing} {cmd : QueuedCommand} {rest : List QueuedCommand}

/-- The identifier of a command that is taken from the list is no longer reserved. -/
theorem reserved_take_self {ready : QueuedCommand → Bool}
    (htake : takeCommand ready [] s.commands = some (cmd, rest))
    (hcmd : cmd.request.isOrdinary = true)
    (hm : Moves cmd.client [cmd] cmd.ids
      { s with commands := rest, started := s.started ++ [cmd] } s') :
    ([cmd.token].filter (· ≠ 0) ++ s'.reserved cmd.client).Subperm (s.reserved cmd.client) := by
  have hgiven : (s'.given cmd.client).Sublist (s.given cmd.client) := given_sublist hm.drafts _
  rw [reserved, reserved, hm.queued, ordinary_take htake hcmd, if_pos rfl, List.map_cons,
    ← List.singleton_append (l := List.map _ _), List.filter_append]
  refine ((hgiven.append_right _).append_left _).subperm.trans ?_
  rw [← List.append_assoc, ← List.append_assoc]
  exact (List.perm_append_comm.append_right _).subperm

theorem reserved_take {ready : QueuedCommand → Bool}
    (htake : takeCommand ready [] s.commands = some (cmd, rest))
    (hcmd : cmd.request.isOrdinary = true)
    (hm : Moves cmd.client [cmd] cmd.ids
      { s with commands := rest, started := s.started ++ [cmd] } s') (j : ℕ) :
    (s'.reserved j).Sublist (s.reserved j) := by
  have hgiven : (s'.given j).Sublist (s.given j) := given_sublist hm.drafts j
  rw [reserved, reserved, hm.queued, ordinary_take htake hcmd]
  refine hgiven.append (List.Sublist.filter _ (List.Sublist.map _ ?_))
  split_ifs
  · exact List.sublist_cons_self _ _
  · exact .refl _

theorem identifiers_take {ready : QueuedCommand → Bool}
    (htake : takeCommand ready [] s.commands = some (cmd, rest))
    (hcmd : cmd.request.isOrdinary = true)
    (hm : Moves cmd.client [cmd] cmd.ids
      { s with commands := rest, started := s.started ++ [cmd] } s') (j : ℕ) :
    (s'.identifiers j).Subperm (s.identifiers j) := by
  rw [identifiers, identifiers]
  by_cases hj : j = cmd.client
  · subst hj
    have hresponses := (hm.responses.map QueuedCommand.token).filter (· ≠ 0)
    refine ((hresponses.append_left _).subperm).trans ?_
    rw [List.map_append, List.filter_append, ← List.append_assoc]
    refine List.perm_append_comm.subperm.trans ?_
    rw [← List.append_assoc]
    exact (reserved_take_self htake hcmd hm).append (List.Subperm.refl _)
  · have hresponses := ((hm.others j hj).responses.map QueuedCommand.token).filter (· ≠ 0)
    exact ((reserved_take htake hcmd hm j).append hresponses).subperm

/-- A message that is acknowledged is only taken if there is room for it. -/
theorem room_of_isReady (h : s.isReady opts env cmd = true)
    (hids : cmd.ids ≠ []) :
    (s.clients cmd.client).c.outboundMsgs.length < (opts cmd.client).maxInflight ∧
      (s.clients cmd.client).c.outboundMsgs.length < MQTTAsync.maxMsgId - 1 := by
  rw [QueuedCommand.ids] at hids
  rw [isReady] at h
  cases hrequest : cmd.request with
  | publish d payload qos retained =>
    rw [hrequest] at h hids
    simp only at h hids
    split_ifs at hids with hqos
    · simp only [Bool.and_eq_true, Bool.not_eq_true', decide_eq_false_iff_not,
        Bool.and_eq_false_iff] at h
      omega
    · exact absurd rfl hids
  | _ =>
    rw [hrequest] at hids
    exact absurd rfl hids

theorem eq_token_of_mem_ids {msgid : ℕ} (h : msgid ∈ cmd.ids) :
    msgid = cmd.token := by
  rw [QueuedCommand.ids] at h
  split at h
  · split_ifs at h
    · exact List.mem_singleton.1 h
    · cases h
  · cases h

theorem zero_notMem_ids (h : cmd.request.Valid (some cmd.token)) :
    0 ∉ cmd.ids := by
  intro hzero
  have htoken := eq_token_of_mem_ids hzero
  rw [QueuedCommand.ids] at hzero
  cases hrequest : cmd.request with
  | publish destinationName payload qos retained =>
    rw [hrequest] at h hzero
    simp only at hzero
    split_ifs at hzero with hqos
    · exact hqos.ne' (h.2.1 (congrArg some htoken.symm))
    · cases hzero
  | _ =>
    rw [hrequest] at hzero
    cases hzero

theorem length_ids_le (cmd : QueuedCommand) : cmd.ids.length ≤ 1 := by
  rw [QueuedCommand.ids]
  split
  · split_ifs <;> simp
  · simp

theorem Orderly.started (h : Orderly opts s)
    (htake : takeCommand (s.isReady opts env) [] s.commands = some (cmd, rest))
    (hcmd : cmd.request.isOrdinary = true)
    (hm : Moves cmd.client [cmd] cmd.ids
      { s with commands := rest, started := s.started ++ [cmd] } s')
    (haccounted : ∀ i, Accounted (ordinary i s'.started) (s'.held i)) : Orderly opts s' := by
  have hordinary := ordinary_take htake hcmd
  have hself := hordinary cmd.client
  rw [if_pos rfl] at hself
  refine ⟨hm.belongs h.belongs (by simp), fun d hd => h.drafts d (hm.drafts.subset hd),
    fun i c hc => ?_, fun i => ?_, haccounted, ?_, fun c hc => ?_, fun i k hk => ?_, fun i => ?_,
    fun i hzero => ?_, fun i => ?_⟩
  · rw [hm.queued] at hc
    refine h.valid i c ?_
    rw [hordinary i]
    split_ifs
    · exact List.mem_cons_of_mem _ hc
    · exact hc
  · rw [hm.started, hm.queued, hm.accepted, ordinary_snoc hcmd, ← h.order i, hordinary i]
    split_ifs
    · rw [List.append_assoc, List.singleton_append]
    · rw [List.append_nil]
  · rw [hm.accepted]
    exact h.numbers
  · rw [hm.accepted] at hc
    exact (h.fresh c hc).trans_le hm.numbers
  · exact h.bounded i k ((identifiers_take htake hcmd hm i).subset hk)
  · by_cases hi : i = cmd.client
    · rw [hi]
      exact hm.msgID.trans (h.msgID _)
    · exact (hm.others i hi).msgID.trans (h.msgID i)
  · by_cases hi : i = cmd.client
    · rw [hi] at hzero
      obtain hzero | hzero := List.mem_append.1 (hm.outbound.subset hzero)
      · exact h.acknowledged _ hzero
      · refine zero_notMem_ids (h.valid cmd.client cmd ?_) hzero
        rw [hself]
        exact List.mem_cons_self
    · exact h.acknowledged i ((hm.others i hi).outbound.subset hzero)
  · by_cases hi : i = cmd.client
    · rw [hi]
      have hlength : (s'.clients cmd.client).c.outboundMsgs.length ≤
          (s.clients cmd.client).c.outboundMsgs.length + cmd.ids.length := by
        simpa using hm.outbound.length_le
      have hold := h.inflight cmd.client
      by_cases hnil : cmd.ids = []
      · rw [hnil] at hlength
        exact ⟨hlength.trans hold.1, hlength.trans hold.2⟩
      · have hroom := room_of_isReady (takeCommand_eq_some htake).1 hnil
        have hle := length_ids_le cmd
        omega
    · have hothers := (hm.others i hi).length_le
      exact ⟨hothers.trans (h.inflight i).1, hothers.trans (h.inflight i).2⟩

end

/-! ### Steps -/

/-- A request that is still in the list has not been started. -/
theorem Orderly.notMem_started {ready : QueuedCommand → Bool} {cmd : QueuedCommand}
    {rest : List QueuedCommand} (h : Orderly opts s)
    (htake : takeCommand ready [] s.commands = some (cmd, rest))
    (hcmd : cmd.request.isOrdinary = true) : cmd ∉ ordinary cmd.client s.started := by
  have hnodup : (ordinary cmd.client s.accepted).Nodup :=
    (List.Nodup.of_map _ h.numbers).filter _
  rw [← h.order, ordinary_take htake hcmd, if_pos rfl, List.nodup_append] at hnodup
  exact fun hmem => hnodup.2.2 cmd hmem cmd List.mem_cons_self rfl

/-- Requests are started, and are held from then on, unless they are dropped. -/
theorem change_of_effect (h : Orderly opts s) (he : Effect opts s a s') (i : ℕ) :
    Change (ordinary i s.started) (s.held i) (ordinary i s'.started) (s'.held i) (!s.drops i a) := by
  cases he with
  | settles hs _ hdrops =>
    rw [hs.started, hdrops]
    exact .same (hs.ledger h.belongs i)
  | @drafted _ t j msgid request hs _ _ _ hdrops =>
    have hchange : Change (ordinary i s.started) (s.held i) (ordinary i t.started) (t.held i)
        true := by
      rw [hs.started]
      exact .same (hs.ledger h.belongs i)
    rw [hdrops]
    exact hchange
  | @given d msgid hd hnone hassign hne =>
    rw [held_give]
    exact .same (.refl _)
  | @accepted d msgid address current hd hmsgid hr =>
    rw [add_eq hr]
    exact .same (.refl _)
  | @started env cmd rest s' htake hcmd hm =>
    have hledger := hm.ledger h.belongs (by simp) i
    rw [hm.started, ordinary_snoc hcmd]
    by_cases hi : i = cmd.client
    · subst hi
      rw [if_pos rfl] at hledger ⊢
      exact .added cmd (h.notMem_started htake hcmd) hledger
    · rw [if_neg hi, List.append_nil] at hledger ⊢
      exact .same hledger
  | @dropped j rc cmd hwritten hcmd =>
    obtain ⟨hs, hresponses, hothers, hcalls⟩ := Shrinks.writeComplete s j rc hwritten hcmd
    rw [hs.started, held, held, hcalls]
    by_cases hi : i = j
    · subst hi
      have hdrops : s.drops i (.writeComplete i rc) = true := by simp [drops, hwritten, hcmd]
      rw [hdrops, hresponses]
      have hperm := (perm_cons_eraseP (find_of_written hwritten)).symm
      exact .dropped (hperm.append_right (finished i s.calls)) (List.cons_ne_nil cmd [])
    · have hdrops : s.drops i (.writeComplete j rc) = false := by simp [drops, Ne.symm hi]
      rw [hdrops, hothers i hi]
      exact .same (.refl _)

theorem Orderly.effect (h : Orderly opts s) (he : Effect opts s a s') : Orderly opts s' := by
  have haccounted : ∀ i, Accounted (ordinary i s'.started) (s'.held i) :=
    fun i => (h.accounted i).change (change_of_effect h he i)
  cases he with
  | settles hs _ _ => exact h.shrinks hs.toShrinks haccounted
  | drafted hs hmsgid hvalid _ _ => exact (h.shrinks hs.toShrinks haccounted).drafted _ hmsgid hvalid
  | given hd hnone hassign hne => exact h.given hd hnone hassign hne
  | accepted hd hmsgid hr => exact h.accepted hd hmsgid hr _ _
  | started htake hcmd hm => exact h.started htake hcmd hm haccounted
  | dropped hwritten hcmd =>
    exact h.shrinks (Shrinks.writeComplete s _ _ hwritten hcmd).1 haccounted

theorem reachable_orderly (h : (library opts).Reachable s) : Orderly opts s := by
  refine h.invariant ?_ fun _ _ _ _ h hstep => h.effect (step_effect opts hstep)
  rintro _ rfl
  exact orderly_start

end Library

end Cmqtt
