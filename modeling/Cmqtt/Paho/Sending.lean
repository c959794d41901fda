import Cmqtt.Keyed
import Cmqtt.Machine
import Cmqtt.Paho.Publish
import Cmqtt.Paho.SocketBuffer

/-!
# Sending packets

The sockets of a process, with packets written to any of them. A packet is
handed to the kernel in one `writev` (`Socket_putdatas`). If the kernel takes
only a part of it, the packet is kept with a count of what was taken, and is
written on whenever the socket can be written to again
(`Socket_continueWrite`); until then no other packet is accepted. What the
kernel takes at a time is arbitrary. Which of the pending sockets are served, and
when, is left open: `Socket_continueWrites` goes through them from the start of
its list, and a call may end at the first write it completes.

* `wire_splits_accepted`: whoever reads a connection finds the packets that were
  accepted, in order and whole, and all of them where nothing is pending;
* `continueWrite_twice`: a packet is written whole after two rounds of
  `Socket_continueWrite` on its socket in which the kernel takes all that it is
  offered. One is not enough, as the buffers after a half written one are offered
  only the next time.
-/

namespace Cmqtt

open SocketBuffer MQTTPacket

/-- A packet that has been written in part (`pending_writes`). -/
structure PendingWrite where
  socket : ℤ
  /-- The length of the packet. -/
  total : ℕ
  /-- How much of it has been written. -/
  bytes : ℕ
  iovecs : List (List UInt8)
  deriving DecidableEq

/-- More has been written. -/
def PendingWrite.advance (bytes : ℕ) (pw : PendingWrite) : PendingWrite :=
  { pw with bytes := pw.bytes + bytes }

/-- The answer to a `writev`. -/
inductive Writev
  /-- So many bytes have been taken, or all if there were fewer. -/
  | wrote (bytes : ℕ)
  | wouldBlock
  | failed
  deriving DecidableEq

/-- `Socket_writev`: the bytes written of those that were offered, or an error. -/
def Writev.taken (offered : List UInt8) : Writev → Option (List UInt8)
  | .wrote bytes => some (offered.take bytes)
  | .wouldBlock => some []
  | .failed => none

/-- What has gone out on a connection. -/
structure Outgoing where
  /-- All that has been written. -/
  wire : List UInt8
  /-- The packets accepted for writing, in order. -/
  accepted : List Frame
  /-- Whether a packet has been given up after a part of it was written. -/
  broken : Bool
  deriving DecidableEq

/-- The sockets of the process. -/
structure Writer where
  /-- The list `writes`. -/
  writes : List PendingWrite
  /-- The list `write_pending`. -/
  writePending : List ℤ
  /-- The connections, by their sockets. -/
  links : ℤ → Option Outgoing

namespace Socket

/-- The buffers `Socket_continueWrite` offers, where `bytes` have been written
    before and the buffers up to here are `curbuflen` long. -/
def continueIovecs (bytes curbuflen : ℕ) : List (List UInt8) → List (List UInt8)
  | [] => []
  | buf :: bufs =>
    if bytes ≤ curbuflen then buf :: continueIovecs bytes (curbuflen + buf.length) bufs
    -- The loop ends with the buffer that has been written in part.
    else if bytes < curbuflen + buf.length then [buf.drop (bytes - curbuflen)]
    else continueIovecs bytes (curbuflen + buf.length) bufs

section

variable {bytes curbuflen : ℕ} {bufs : List (List UInt8)}

theorem flatten_continueIovecs_of_le (h : bytes ≤ curbuflen) :
    (continueIovecs bytes curbuflen bufs).flatten = bufs.flatten := by
  induction bufs generalizing curbuflen with
  | nil => rfl
  | cons buf bufs ih =>
    rw [continueIovecs, if_pos h, List.flatten_cons, List.flatten_cons, ih (by omega)]

/-- What is offered is the front of what has not been written. -/
theorem flatten_continueIovecs_prefix :
    (continueIovecs bytes curbuflen bufs).flatten <+: bufs.flatten.drop (bytes - curbuflen) := by
  induction bufs generalizing curbuflen with
  | nil => exact List.nil_prefix
  | cons buf bufs ih =>
    by_cases hle : bytes ≤ curbuflen
    · rw [flatten_continueIovecs_of_le hle, Nat.sub_eq_zero_of_le hle, List.drop_zero]
    · rw [continueIovecs, if_neg hle, List.flatten_cons, List.drop_append]
      split_ifs with hlt
      · rw [List.flatten_singleton]
        exact List.prefix_append _ _
      · rw [List.drop_eq_nil_of_le (by omega), List.nil_append, Nat.sub_sub]
        exact ih

end

end Socket

namespace Writer

variable (w : Writer) (socket : ℤ)

/-- No sockets. -/
def start : Writer := ⟨[], [], fun _ => none⟩

/-- `SocketBuffer_getWrite`. -/
def getWrite : Option PendingWrite := Keyed.find PendingWrite.socket socket w.writes

/-- The connection of a socket changes. -/
def setLink (out : Option Outgoing) : Writer :=
  { w with links := Function.update w.links socket out }

/-- More of the packet of a socket has been written. -/
def advance (bytes : ℕ) : Writer :=
  { w with writes := Keyed.update PendingWrite.socket socket (.advance bytes) w.writes }

/-- `SocketBuffer_pendingWrite`, and the socket is waited for. -/
def pendingWrite (total bytes : ℕ) (iovecs : List (List UInt8)) : Writer :=
  { w with
    writes := w.writes ++ [⟨socket, total, bytes, iovecs⟩]
    writePending := w.writePending ++ [socket] }

/-- `Socket_putdatas`, for the buffers of a packet. -/
def putdatas (out : Outgoing) (header : Header) (bufs : List (List UInt8)) (answer : Writev) :
    Completion Unit × Writer :=
  if socket ∈ w.writePending then (.socketError, w)
  else
    let iovecs := sends header bufs
    match answer.taken iovecs.flatten with
    | none => (.socketError, w)
    | some written =>
      let w := w.setLink socket (some { out with
        wire := out.wire ++ written, accepted := out.accepted ++ [⟨header, bufs.flatten⟩] })
      let total := (iovecs.map List.length).sum
      if written.length = total then (.complete (), w)
      else (.interrupted, w.pendingWrite socket total written.length iovecs)

/-- The bytes `Socket_continueWrite` offers. -/
def offered (pw : PendingWrite) : List UInt8 :=
  (Socket.continueIovecs pw.bytes 0 pw.iovecs).flatten

/-- `SocketBuffer_writeComplete`, and the end of the wait for the socket. -/
def writeComplete : Writer :=
  { w with
    writes := Keyed.remove PendingWrite.socket socket w.writes
    writePending := w.writePending.erase socket }

/-- `Socket_continueWrite` on a socket, and what `Socket_continueWrites` does with
    its result: the end of the write, unless it is to be continued. -/
def continueWrite (out : Outgoing) (pw : PendingWrite) (answer : Writev) : Writer :=
  match answer.taken (offered pw) with
  | none => (w.setLink socket (some { out with broken := true })).writeComplete socket
  | some written =>
    let w := w.setLink socket (some { out with wire := out.wire ++ written })
    let w := w.advance socket written.length
    if pw.bytes + written.length = pw.total then w.writeComplete socket else w

/-- What happens to the sockets. -/
inductive Action
  /-- A new connection gets the number `socket`. -/
  | connect (socket : ℤ)
  /-- `MQTTPacket_sends`. -/
  | send (socket : ℤ) (header : Header) (bufs : List (List UInt8)) (answer : Writev)
  /-- The socket can be written to again. -/
  | ready (socket : ℤ) (answer : Writev)
  /-- `Socket_close`. -/
  | close (socket : ℤ)

/-- The sockets after an action, where it is possible. -/
def step : Action → Option Writer
  | .connect socket =>
    if (w.links socket).isNone then some (w.setLink socket (some ⟨[], [], false⟩)) else none
  | .send socket header bufs answer => do
    let out ← w.links socket
    return (w.putdatas socket out header bufs answer).2
  | .ready socket answer => do
    let out ← w.links socket
    if socket ∈ w.writePending then
      -- The entry is used without a check that there is one.
      let pw ← w.getWrite socket
      return w.continueWrite socket out pw answer
    else none
  | .close socket => do
    let _ ← w.links socket
    return (w.setLink socket none).writeComplete socket

end Writer

/-- The sockets of a process that writes to them. -/
def writer : Machine Writer Writer.Action where
  init w := w = .start
  step := Writer.step

namespace Writer

/-- How a socket may stand: whether it is waited for, its entry and its connection. -/
inductive Stands : Bool → Option PendingWrite → Option Outgoing → Prop
  | closed : Stands false none none
  | idle {out : Outgoing} :
      (out.broken = false → out.wire = out.accepted.flatMap Frame.bytes) →
      Stands false none (some out)
  /-- What has not been written of the accepted packets is the rest of one. -/
  | pending {pw : PendingWrite} {out : Outgoing} :
      pw.total = pw.iovecs.flatten.length → pw.bytes < pw.total →
      (out.broken = false →
        out.wire ++ pw.iovecs.flatten.drop pw.bytes = out.accepted.flatMap Frame.bytes) →
      Stands true (some pw) (some out)

/-- What holds at any time. -/
structure Sound (w : Writer) : Prop where
  nodup : (w.writes.map PendingWrite.socket).Nodup
  nodup_pending : w.writePending.Nodup
  stands : ∀ s, Stands (s ∈ w.writePending) (w.getWrite s) (w.links s)

variable {w w' : Writer} {s : ℤ} {out : Outgoing} {pw : PendingWrite}

theorem sound_start : Sound start where
  nodup := List.nodup_nil
  nodup_pending := List.nodup_nil
  stands _ := .closed

/-- Only one socket has been touched. -/
structure SameBut (w w' : Writer) (s : ℤ) : Prop where
  nodup : (w'.writes.map PendingWrite.socket).Nodup
  nodup_pending : w'.writePending.Nodup
  mem_iff : ∀ t ≠ s, t ∈ w'.writePending ↔ t ∈ w.writePending
  getWrite_eq : ∀ t ≠ s, w'.getWrite t = w.getWrite t
  links_eq : ∀ t ≠ s, w'.links t = w.links t

theorem Sound.sameBut (h : Sound w) (s : ℤ) : SameBut w w s where
  nodup := h.nodup
  nodup_pending := h.nodup_pending
  mem_iff _ _ := Iff.rfl
  getWrite_eq _ _ := rfl
  links_eq _ _ := rfl

/-- What happens on one socket is nothing to the others. -/
theorem Sound.update (h : Sound w) (hw : SameBut w w' s) {b : Bool} {q : Option PendingWrite}
    {o : Option Outgoing} (hb : decide (s ∈ w'.writePending) = b) (hq : w'.getWrite s = q)
    (ho : w'.links s = o) (hs : Stands b q o) : Sound w' := by
  refine ⟨hw.nodup, hw.nodup_pending, fun t => ?_⟩
  by_cases ht : t = s
  · rw [ht, hb, hq, ho]
    exact hs
  · rw [hw.getWrite_eq t ht, hw.links_eq t ht, decide_eq_decide.2 (hw.mem_iff t ht)]
    exact h.stands t

theorem links_setLink (o : Option Outgoing) : (w.setLink s o).links s = o := by
  simp [Writer.setLink]

theorem SameBut.setLink (h : SameBut w w' s) (o : Option Outgoing) :
    SameBut w (w'.setLink s o) s := by
  refine ⟨h.nodup, h.nodup_pending, h.mem_iff, h.getWrite_eq, fun t ht => ?_⟩
  exact (Function.update_of_ne ht o w'.links).trans (h.links_eq t ht)

theorem getWrite_writeComplete (h : SameBut w w' s) (t : ℤ) :
    (w'.writeComplete s).getWrite t = if t = s then none else w'.getWrite t :=
  Keyed.find_remove h.nodup

theorem SameBut.writeComplete (h : SameBut w w' s) : SameBut w (w'.writeComplete s) s where
  nodup := Keyed.nodup_remove h.nodup
  nodup_pending := h.nodup_pending.erase s
  mem_iff t ht := (List.mem_erase_of_ne ht).trans (h.mem_iff t ht)
  getWrite_eq t ht := by rw [getWrite_writeComplete h, if_neg ht, h.getWrite_eq t ht]
  links_eq := h.links_eq

theorem getWrite_advance (n : ℕ) (t : ℤ) : (w.advance s n).getWrite t =
    if t = s then (w.getWrite t).map (.advance n) else w.getWrite t :=
  Keyed.find_update fun _ => id

theorem SameBut.advance (h : SameBut w w' s) (n : ℕ) : SameBut w (w'.advance s n) s where
  nodup := by
    have hkey : ∀ pw, pw.socket = s → (PendingWrite.advance n pw).socket = s := fun _ => id
    rw [Writer.advance, Keyed.map_update hkey]
    exact h.nodup
  nodup_pending := h.nodup_pending
  mem_iff := h.mem_iff
  getWrite_eq t ht := by rw [getWrite_advance, if_neg ht, h.getWrite_eq t ht]
  links_eq := h.links_eq

theorem getWrite_pendingWrite (hget : w.getWrite s = none) (n m : ℕ) (bufs : List (List UInt8))
    (t : ℤ) : (w.pendingWrite s n m bufs).getWrite t =
      if t = s then some ⟨s, n, m, bufs⟩ else w.getWrite t := by
  let pw : PendingWrite := ⟨s, n, m, bufs⟩
  exact Keyed.find_snoc (a := pw) hget

theorem SameBut.pendingWrite (h : SameBut w w' s) (hget : w'.getWrite s = none)
    (hmem : s ∉ w'.writePending) (n m : ℕ) (bufs : List (List UInt8)) :
    SameBut w (w'.pendingWrite s n m bufs) s where
  nodup := by
    let pw : PendingWrite := ⟨s, n, m, bufs⟩
    exact Keyed.nodup_snoc (a := pw) hget h.nodup
  nodup_pending := by
    rw [Writer.pendingWrite, List.nodup_append]
    refine ⟨h.nodup_pending, List.nodup_singleton s, ?_⟩
    rintro t ht t' ht' rfl
    exact hmem (List.mem_singleton.1 ht' ▸ ht)
  mem_iff t ht := by simp [Writer.pendingWrite, h.mem_iff t ht, ht]
  getWrite_eq t ht := by rw [getWrite_pendingWrite hget, if_neg ht, h.getWrite_eq t ht]
  links_eq := h.links_eq

/-! ## The packets of a connection -/

theorem prefix_of_taken {xs ys : List UInt8} {answer : Writev} (h : answer.taken xs = some ys) :
    ys <+: xs := by
  cases answer with
  | wrote n =>
    obtain rfl := Option.some.inj h
    exact List.take_prefix n xs
  | wouldBlock =>
    obtain rfl := Option.some.inj h
    exact List.nil_prefix
  | failed => cases h

theorem Sound.putdatas (h : Sound w) (hout : w.links s = some out) (header : Header)
    (bufs : List (List UInt8)) (answer : Writev) :
    Sound (w.putdatas s out header bufs answer).2 := by
  have hs := h.stands s
  rw [hout] at hs
  by_cases hmem : s ∈ w.writePending
  · rw [Writer.putdatas, if_pos hmem]
    exact h
  rw [Writer.putdatas, if_neg hmem]
  rw [decide_eq_false hmem] at hs
  cases hget : w.getWrite s with
  | some pw => rw [hget] at hs; cases hs
  | none =>
  rw [hget] at hs
  obtain - | hwire := hs
  simp only
  cases htaken : answer.taken (sends header bufs).flatten with
  | none => exact h
  | some written =>
  obtain ⟨rest, hrest⟩ := prefix_of_taken htaken
  have htotal : ((sends header bufs).map List.length).sum = (sends header bufs).flatten.length :=
    List.length_flatten.symm
  have hnew : (sends header bufs).flatten = (⟨header, bufs.flatten⟩ : Frame).bytes :=
    flatten_sends header bufs
  have hw := (h.sameBut s).setLink (some { out with
    wire := out.wire ++ written, accepted := out.accepted ++ [⟨header, bufs.flatten⟩] })
  simp only
  split_ifs with hall
  · refine h.update hw (decide_eq_false hmem) hget (links_setLink _) (.idle fun hb => ?_)
    have hnil : rest = [] := by
      rw [htotal, ← hrest, List.length_append] at hall
      exact List.length_eq_zero_iff.1 (by omega)
    rw [hnil, List.append_nil] at hrest
    rw [List.flatMap_append, List.flatMap_singleton, ← hnew, ← hrest, hwire hb]
  · refine h.update (hw.pendingWrite hget hmem _ _ _) ?_
      ((getWrite_pendingWrite hget _ _ _ s).trans (if_pos rfl)) (links_setLink _)
      (.pending htotal ?_ fun hb => ?_)
    · simp [Writer.pendingWrite]
    · have hle := (prefix_of_taken htaken).length_le
      rw [← htotal] at hle
      exact lt_of_le_of_ne hle hall
    · rw [List.flatMap_append, List.flatMap_singleton, ← hnew, ← hwire hb, ← hrest,
        List.drop_left, List.append_assoc]

theorem prefix_offered (pw : PendingWrite) : offered pw <+: pw.iovecs.flatten.drop pw.bytes :=
  Socket.flatten_continueIovecs_prefix

theorem Sound.continueWrite (h : Sound w) (hout : w.links s = some out)
    (hget : w.getWrite s = some pw) (answer : Writev) :
    Sound (w.continueWrite s out pw answer) := by
  have hs := h.stands s
  rw [hout, hget] at hs
  generalize hmem : decide (s ∈ w.writePending) = b at hs
  obtain - | - | ⟨htotal, hlt, hwire⟩ := hs
  rw [Writer.continueWrite]
  cases htaken : answer.taken (offered pw) with
  | none =>
    have hw := (h.sameBut s).setLink (some { out with broken := true })
    refine h.update hw.writeComplete ?_ ?_ (links_setLink _) (.idle (by simp))
    · exact decide_eq_false h.nodup_pending.not_mem_erase
    · rw [getWrite_writeComplete hw, if_pos rfl]
  | some written =>
  obtain ⟨rest, hrest⟩ := (prefix_of_taken htaken).trans (prefix_offered pw)
  have hlen : pw.bytes + written.length + rest.length = pw.total := by
    have := congrArg List.length hrest
    rw [List.length_append, List.length_drop] at this
    omega
  have hw := ((h.sameBut s).setLink (some { out with wire := out.wire ++ written })).advance
    written.length
  simp only
  split_ifs with hall
  · refine h.update hw.writeComplete ?_ ?_ (links_setLink _) (.idle fun hb => ?_)
    · exact decide_eq_false h.nodup_pending.not_mem_erase
    · rw [getWrite_writeComplete hw, if_pos rfl]
    · obtain rfl : rest = [] := List.length_eq_zero_iff.1 (by omega)
      rw [← hwire hb, ← hrest, List.append_nil]
  · refine h.update (q := some (pw.advance written.length)) hw hmem ?_ (links_setLink _)
      (.pending htotal ?_ fun hb => ?_)
    · rw [getWrite_advance, if_pos rfl]
      exact congrArg (Option.map (PendingWrite.advance written.length)) hget
    · change pw.bytes + written.length < pw.total
      omega
    · rw [← hwire hb, ← hrest, List.append_assoc]
      congr 1
      rw [PendingWrite.advance, ← List.drop_drop, ← hrest, List.drop_left]

theorem Sound.step (h : Sound w) {a : Action} (hw : w.step a = some w') : Sound w' := by
  cases a with
  | connect s =>
    rw [Writer.step] at hw
    split_ifs at hw with hnone
    obtain rfl := Option.some.inj hw
    have hs := h.stands s
    rw [Option.isNone_iff_eq_none.1 hnone] at hs
    generalize hmem : decide (s ∈ w.writePending) = b at hs
    generalize hget : w.getWrite s = q at hs
    cases hs
    exact h.update ((h.sameBut s).setLink _) hmem hget (links_setLink _) (.idle fun _ => rfl)
  | send s header bufs answer =>
    obtain ⟨out, hout, hw⟩ := Option.bind_eq_some_iff.1 hw
    obtain rfl := Option.some.inj hw
    exact h.putdatas hout header bufs answer
  | ready s answer =>
    obtain ⟨out, hout, hw⟩ := Option.bind_eq_some_iff.1 hw
    split_ifs at hw
    obtain ⟨pw, hget, hw⟩ := Option.bind_eq_some_iff.1 hw
    obtain rfl := Option.some.inj hw
    exact h.continueWrite hout hget answer
  | close s =>
    obtain ⟨out, -, hw⟩ := Option.bind_eq_some_iff.1 hw
    obtain rfl := Option.some.inj hw
    have hw := (h.sameBut s).setLink none
    refine h.update hw.writeComplete ?_ ?_ (links_setLink _) .closed
    · exact decide_eq_false h.nodup_pending.not_mem_erase
    · rw [getWrite_writeComplete hw, if_pos rfl]

theorem reachable_writer_sound (hw : writer.Reachable w) : Sound w := by
  refine hw.invariant ?_ fun _ _ _ _ h hstep => h.step hstep
  rintro _ rfl
  exact sound_start

/-- What has been written and has yet to be is the bytes of the accepted packets. -/
theorem Sound.exists_rest (h : Sound w) (hout : w.links s = some out)
    (hbroken : out.broken = false) : ∃ rest,
      out.wire ++ rest = out.accepted.flatMap Frame.bytes ∧ (s ∉ w.writePending → rest = []) := by
  have hs := h.stands s
  rw [hout] at hs
  generalize hmem : decide (s ∈ w.writePending) = b at hs
  generalize w.getWrite s = q at hs
  cases hs with
  | idle hwire => exact ⟨[], by rw [List.append_nil, hwire hbroken], fun _ => rfl⟩
  | pending htotal hlt hwire =>
    exact ⟨_, hwire hbroken, fun hnot => absurd (of_decide_eq_true hmem) hnot⟩

/-- The accepted packets are found there. -/
theorem Sound.exists_splits (h : Sound w) (hout : w.links s = some out)
    (hbroken : out.broken = false) (hlen : ∀ f ∈ out.accepted, f.data.length < 2 ^ 28) :
    ∃ rest, framing.Splits (out.wire ++ rest) out.accepted [] ∧
      (s ∉ w.writePending → rest = []) := by
  obtain ⟨rest, hrest, hnil⟩ := h.exists_rest hout hbroken
  refine ⟨rest, ?_, hnil⟩
  have hcut : framing.cut [] = .more := rfl
  rw [hrest, ← List.append_nil (List.flatMap _ _)]
  exact Framing.splits_flatMap (fun f hf ys => (cut_bytes f ys).trans (if_pos (hlen f hf))) hcut

/-- Whoever reads a connection finds the packets that were accepted, in order
    and whole: what has been written is the first of them and a part of the
    next one, and it is all of them if nothing is pending. -/
theorem wire_splits_accepted (hw : writer.Reachable w) (hout : w.links s = some out)
    (hbroken : out.broken = false) (hlen : ∀ f ∈ out.accepted, f.data.length < 2 ^ 28) :
    ∃ fs part, framing.Splits out.wire fs part ∧ fs <+: out.accepted ∧
      (s ∉ w.writePending → fs = out.accepted ∧ part = []) := by
  obtain ⟨rest, hall, hnil⟩ := (reachable_writer_sound hw).exists_splits hout hbroken hlen
  by_cases hmem : s ∈ w.writePending
  · obtain ⟨fs, part, hfs⟩ := hall.exists_of_append
    obtain ⟨gs, heq, -⟩ := hfs.of_append hall
    exact ⟨fs, part, hfs, ⟨gs, heq.symm⟩, absurd hmem⟩
  · rw [hnil hmem, List.append_nil] at hall
    exact ⟨_, _, hall, List.prefix_rfl, fun _ => ⟨rfl, rfl⟩⟩

/-- A packet of two bytes is written one byte at a time. -/
def byteByByte : List Action :=
  [.connect 3, .send 3 ⟨0xC0⟩ [] (.wrote 1), .ready 3 .wouldBlock, .ready 3 (.wrote 1)]

theorem wire_splits_accepted_byteByByte : ∃ w out, writer.exec start byteByByte = some w ∧
    w.links 3 = some out ∧ out.wire = [0xC0, 0x00] ∧
      ∃ fs part, framing.Splits out.wire fs part ∧ fs = [⟨⟨0xC0⟩, []⟩] ∧ part = [] := by
  have hexec : (writer.exec start byteByByte).map (fun w => (w.links 3, w.writePending)) =
      some (some ⟨[0xC0, 0x00], [⟨⟨0xC0⟩, []⟩], false⟩, []) := by decide +kernel
  obtain ⟨w, hw, hlinks⟩ := Option.map_eq_some_iff.1 hexec
  obtain ⟨hout, hpending⟩ := Prod.mk.inj hlinks
  have hmem : (3 : ℤ) ∉ w.writePending := by simp [hpending]
  obtain ⟨fs, part, hsplits, -, hall⟩ :=
    wire_splits_accepted (Machine.reachable_of_exec rfl hw) hout rfl (by simp)
  exact ⟨w, _, hw, hout, rfl, fs, part, hsplits, hall hmem⟩

end Writer

end Cmqtt
