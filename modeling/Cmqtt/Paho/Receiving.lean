import Cmqtt.Machine
import Cmqtt.Paho.Sending
import Cmqtt.Paho.Socket

/-!
# Receiving packets

The sockets of a process, with `MQTTPacket_Factory` called on any of them, in
any order with everything else that happens to them: bytes arrive in pieces of
any size, connections are shut down or break, sockets are closed, and their
numbers are given to new connections.

As the receiving thread does, a call that reports an error is followed by the
closing of the socket, before the next call.

* `packets_prefix_sent`: on every connection, the packets read so far are those
  that were sent; how the bytes arrived makes no difference, nor what happens on
  other sockets, nor what an earlier connection with the same number left;
* `packets_prefix_accepted`: the same from end to end, for a connection whose
  other end writes as `Sending` describes;
* `unread_bytes`: what has been accepted and not been read is somewhere between
  the two ends, and is whole packets;
* `factory_pack_iff`: what a call returns, by what has arrived. It reads a packet
  as soon as it is there, and returns what is made of it: the packets a client
  has no use for are read and dropped.
-/

namespace Cmqtt

open SocketBuffer MQTTPacket

namespace MQTTPacket

/-- What `MQTTPacket_Factory` returns, with the error it reports. -/
inductive Returned
  | pack (p : Pack)
  /-- `TCPSOCKET_COMPLETE` without a packet. -/
  | ignored
  /-- `TCPSOCKET_INTERRUPTED`. -/
  | interrupted
  /-- `SOCKET_ERROR`. -/
  | socketError
  deriving DecidableEq, Repr

/-- What is returned for a packet that has been read. -/
def returned (f : Frame) : Except Fault Returned :=
  match make f with
  | .error e => .error e
  | .ok .ignored => .ok .ignored
  | .ok .bad => .ok .socketError
  | .ok (.pack p) => .ok (.pack p)

/-- `MQTTPacket_Factory`, for a client without persistence. -/
def factory (socket : ℤ) (b : SocketBuffer) (c : Connection) :
    Option (Except Fault Returned × SocketBuffer × Connection) :=
  match readPacket socket b c with
  | none => none
  | some (.complete f, b, c) => some (returned f, b, c)
  | some (.interrupted, b, c) => some (.ok .interrupted, b, c)
  | some (.socketError, b, c) => some (.ok .socketError, b, c)

theorem returned_pack_iff {f : Frame} {p : Pack} :
    returned f = .ok (.pack p) ↔ make f = .ok (.pack p) := by
  rw [returned]
  rcases make f with e | (_ | _ | q) <;> simp

theorem returned_ignored_iff {f : Frame} :
    returned f = .ok .ignored ↔ make f = .ok .ignored := by
  rw [returned]
  rcases make f with e | (_ | _ | q) <;> simp

theorem returned_socketError_iff {f : Frame} :
    returned f = .ok .socketError ↔ make f = .ok .bad := by
  rw [returned]
  rcases make f with e | (_ | _ | q) <;> simp

theorem returned_error_iff {f : Frame} {e : Fault} :
    returned f = .error e ↔ make f = .error e := by
  rw [returned]
  rcases make f with e' | (_ | _ | q) <;> simp

/-- A packet that has been read does not interrupt the call. -/
theorem returned_ne_interrupted {f : Frame} : returned f ≠ .ok .interrupted := by
  rw [returned]
  rcases make f with e | (_ | _ | q) <;> simp

end MQTTPacket

/-- A connection, with what has gone through it. -/
structure Channel where
  conn : Connection
  /-- All that the other end has sent. -/
  sent : List UInt8
  /-- The packets read, in order. -/
  packets : List Frame
  deriving DecidableEq

/-- The sockets of the process. -/
structure Sockets where
  buffer : SocketBuffer
  /-- The connections, by their sockets. -/
  channels : ℤ → Option Channel

namespace Sockets

/-- What happens to the sockets. -/
inductive Action
  /-- A new connection gets the number `socket`. -/
  | connect (socket : ℤ)
  /-- Bytes arrive. -/
  | arrive (socket : ℤ) (bs : List UInt8)
  /-- The other end shuts the connection down, or the connection breaks. -/
  | hangup (socket : ℤ) (peer : Peer)
  /-- `MQTTPacket_Factory` is called. -/
  | cycle (socket : ℤ)
  /-- `Socket_close`. -/
  | close (socket : ℤ)

/-- No sockets. -/
def start (junk : ℕ → UInt8) : Sockets := ⟨.initial junk, fun _ => none⟩

variable (n : Sockets) (socket : ℤ)

/-- `Socket_close`. -/
def close : Sockets :=
  ⟨n.buffer.cleanup socket, Function.update n.channels socket none⟩

/-- Whether `MQTTPacket_Factory` reports an error for a packet it has read. -/
def refused (f : Frame) : Bool := returned f = .ok .socketError

/-- `MQTTPacket_Factory`, and the closing of the socket after an error. -/
def cycle (ch : Channel) : Option Sockets := do
  let (r, b, c) ← readPacket socket n.buffer ch.conn
  match r with
  | .complete f =>
    let n : Sockets := ⟨b, Function.update n.channels socket
      (some { ch with conn := c, packets := ch.packets ++ [f] })⟩
    return if refused f then n.close socket else n
  | .interrupted => return ⟨b, Function.update n.channels socket (some { ch with conn := c })⟩
  | .socketError => return close ⟨b, n.channels⟩ socket

/-- The sockets after an action, where it is possible. -/
def step : Action → Option Sockets
  | .connect socket =>
    if 0 < socket ∧ (n.channels socket).isNone then
      some { n with channels := Function.update n.channels socket (some ⟨⟨[], .live⟩, [], []⟩) }
    else none
  | .arrive socket bs => do
    let ch ← n.channels socket
    if ch.conn.peer = .live then
      some { n with channels := Function.update n.channels socket (some { ch with
        conn := { ch.conn with incoming := ch.conn.incoming ++ bs }, sent := ch.sent ++ bs }) }
    else none
  | .hangup socket peer => do
    let ch ← n.channels socket
    if peer = .live then none
    else some { n with channels := Function.update n.channels socket (some { ch with
      conn := { ch.conn with peer := peer } }) }
  | .cycle socket => do
    let ch ← n.channels socket
    n.cycle socket ch
  | .close socket => do
    let _ ← n.channels socket
    return n.close socket

end Sockets

/-- The sockets of a process. -/
def sockets : Machine Sockets Sockets.Action where
  init n := ∃ junk, n = .start junk
  step := Sockets.step

namespace Sockets

/-- What holds at any time. -/
structure Sound (n : Sockets) : Prop where
  tidy : n.buffer.Tidy
  pos : ∀ s ch, n.channels s = some ch → 0 < s
  /-- Nothing is kept for a socket that is not in use. -/
  unused : ∀ s, n.channels s = none → n.buffer.queue s = none
  unfinished : ∀ s q, n.buffer.queue s = some q → Unfinished q
  /-- What has been read is the packets and what is kept. -/
  splits : ∀ s ch, n.channels s = some ch → ∃ read, ch.sent = read ++ ch.conn.incoming ∧
    framing.Splits read ch.packets (n.buffer.pending s)

variable {n n' : Sockets} {s : ℤ} {ch : Channel}

theorem sound_start (junk : ℕ → UInt8) : Sound (start junk) where
  tidy := tidy_initial junk
  pos := nofun
  unused _ _ := rfl
  unfinished := nofun
  splits := nofun

/-- What happens on one socket is nothing to the others. -/
theorem Sound.update (h : Sound n) {b : SocketBuffer} {q : Option SocketQueue} {x : Option Channel}
    (hl : Leaves n.buffer b s q) (hq : ∀ q', q = some q' → Unfinished q')
    (hnone : x = none → q = none)
    (hsome : ∀ ch, x = some ch → 0 < s ∧ ∃ read, ch.sent = read ++ ch.conn.incoming ∧
      framing.Splits read ch.packets (b.pending s)) :
    Sound ⟨b, Function.update n.channels s x⟩ := by
  refine ⟨hl.tidy, ?_, ?_, ?_, ?_⟩
  · intro t ch ht
    by_cases hts : t = s
    · subst hts
      exact (hsome ch (by simpa using ht)).1
    · exact h.pos t ch (by simpa [hts] using ht)
  · intro t ht
    by_cases hts : t = s
    · subst hts
      rw [hl.queue]
      exact hnone (by simpa using ht)
    · rw [hl.others t hts]
      exact h.unused t (by simpa [hts] using ht)
  · intro t q' hq'
    by_cases hts : t = s
    · subst hts
      exact hq q' (hl.queue ▸ hq')
    · exact h.unfinished t q' (hl.others t hts ▸ hq')
  · intro t ch ht
    by_cases hts : t = s
    · subst hts
      exact (hsome ch (by simpa using ht)).2
    · rw [pending_congr (hl.others t hts)]
      exact h.splits t ch (by simpa [hts] using ht)

theorem Sound.close (h : Sound n) (s : ℤ) : Sound (n.close s) :=
  h.update (h.tidy.leaves_cleanup s) nofun (fun _ => rfl) nofun

/-- The buffer is left alone. -/
theorem Sound.same (h : Sound n) {ch : Channel} (hs : 0 < s)
    (hch : ∃ read, ch.sent = read ++ ch.conn.incoming ∧
      framing.Splits read ch.packets (n.buffer.pending s)) :
    Sound { n with channels := Function.update n.channels s (some ch) } :=
  h.update (h.tidy.leaves_self s) (h.unfinished s) nofun fun ch' hch' => by
    obtain rfl := Option.some.inj hch'
    exact ⟨hs, hch⟩

/-- A call returns, and keeps the account of the packets. -/
theorem Sound.cycle (h : Sound n) (hch : n.channels s = some ch) :
    ∃ n', n.cycle s ch = some n' ∧ Sound n' := by
  have hs := h.pos s ch hch
  obtain ⟨read, hsent, hsplits⟩ := h.splits s ch hch
  obtain ⟨⟨r, b, c⟩, hread, hout⟩ :=
    outcome_readPacket (c := ch.conn) h.tidy hs.ne' (h.unfinished s)
  rw [Sockets.cycle, hread]
  cases hout with
  | @complete _ f rest hcut hl =>
    refine ⟨_, rfl, ?_⟩
    obtain ⟨zs, hin, hsplits'⟩ := hsplits.read rfl hcut
    have hread : ch.sent = (read ++ zs) ++ rest := by rw [hsent, hin, List.append_assoc]
    have hn : Sound ⟨b, Function.update n.channels s
        (some { ch with conn := ⟨rest, ch.conn.peer⟩, packets := ch.packets ++ [f] })⟩ := by
      refine h.update hl nofun nofun fun ch' hch' => ?_
      obtain rfl := Option.some.inj hch'
      exact ⟨hs, read ++ zs, hread, pending_of_none hl.queue ▸ hsplits'⟩
    split_ifs
    · exact hn.close s
    · exact hn
  | @interrupted _ q hcut hq hunf hl =>
    refine ⟨_, rfl, h.update hl ?_ nofun fun ch' hch' => ?_⟩
    · rintro q' ⟨⟩
      exact hunf
    · obtain rfl := Option.some.inj hch'
      refine ⟨hs, read ++ ch.conn.incoming, by rw [hsent, List.append_nil], ?_⟩
      rw [pending_of_some hl.queue, hq]
      exact hsplits.more hcut
  | error herr hl =>
    exact ⟨_, rfl, h.update hl nofun (fun _ => rfl) nofun⟩

theorem Sound.step (h : Sound n) {a : Action} (hn : n.step a = some n') : Sound n' := by
  cases a with
  | connect s =>
    rw [Sockets.step] at hn
    split_ifs at hn with hs
    obtain rfl := Option.some.inj hn
    refine h.same hs.1 ⟨[], rfl, ?_⟩
    rw [pending_of_none (h.unused s (by simpa using hs.2))]
    exact .done rfl
  | arrive s bs =>
    obtain ⟨ch, hch, hn⟩ := Option.bind_eq_some_iff.1 hn
    split_ifs at hn
    obtain rfl := Option.some.inj hn
    obtain ⟨read, hsent, hsplits⟩ := h.splits s ch hch
    exact h.same (h.pos s ch hch) ⟨read, by simp [hsent], hsplits⟩
  | hangup s peer =>
    obtain ⟨ch, hch, hn⟩ := Option.bind_eq_some_iff.1 hn
    split_ifs at hn
    obtain rfl := Option.some.inj hn
    exact h.same (h.pos s ch hch) (h.splits s ch hch)
  | cycle s =>
    obtain ⟨ch, hch, hn⟩ := Option.bind_eq_some_iff.1 hn
    obtain ⟨n'', hn'', hsound⟩ := h.cycle hch
    obtain rfl := Option.some.inj (hn''.symm.trans hn)
    exact hsound
  | close s =>
    obtain ⟨ch, hch, hn⟩ := Option.bind_eq_some_iff.1 hn
    obtain rfl := Option.some.inj hn
    exact h.close s

theorem reachable_sound (hn : sockets.Reachable n) : Sound n := by
  refine hn.invariant ?_ fun _ _ _ _ h hstep => h.step hstep
  rintro _ ⟨junk, rfl⟩
  exact sound_start junk

/-- The packets read on a connection are those that were sent, in order: the
    other end wrote the packets `fs` and a part of another one, and what has
    been read of them is all that has arrived and is not waiting. -/
theorem packets_prefix_sent {fs : List Frame} {part : List UInt8} (hn : sockets.Reachable n)
    (hch : n.channels s = some ch) (hfs : ∀ f ∈ fs, f.data.length < 2 ^ 28)
    (hpart : cut part = .more) (hsent : ch.sent = fs.flatMap Frame.bytes ++ part) :
    ch.packets <+: fs ∧
      (ch.conn.incoming = [] → ch.packets = fs ∧ n.buffer.pending s = part) := by
  obtain ⟨read, hread, hsplits⟩ := (reachable_sound hn).splits s ch hch
  have hall : framing.Splits ch.sent fs part := by
    rw [hsent]
    exact Framing.splits_flatMap (fun f hf ys => (cut_bytes f ys).trans (if_pos (hfs f hf))) hpart
  rw [hread] at hall
  obtain ⟨cs, rfl, hcs⟩ := hsplits.of_append hall
  refine ⟨List.prefix_append _ _, fun hin => ?_⟩
  rw [hin, List.append_nil] at hcs
  obtain ⟨rfl, rfl⟩ := hcs.eq_of_more hsplits.cut_rest
  exact ⟨(List.append_nil _).symm, rfl⟩

/-- A packet arrives in two pieces, with a call after each of them. -/
def twoPieces : List Action :=
  [.connect 3, .arrive 3 [0xD0], .cycle 3, .arrive 3 [0x00, 0x40], .cycle 3, .cycle 3]

theorem packets_prefix_sent_twoPieces : ∃ n ch, sockets.exec (start fun _ => 0) twoPieces = some n ∧
    n.channels 3 = some ch ∧ ch.sent = [0xD0, 0x00, 0x40] ∧ ch.conn.incoming = [] ∧
      ch.packets = [⟨⟨0xD0⟩, []⟩] ∧ n.buffer.pending 3 = [0x40] := by
  have hsome : (sockets.exec (start fun _ => 0) twoPieces).isSome := by decide +kernel
  have hch : (sockets.exec (start fun _ => 0) twoPieces).bind (·.channels 3) =
      some ⟨⟨[], .live⟩, [0xD0, 0x00, 0x40], [⟨⟨0xD0⟩, []⟩]⟩ := by decide +kernel
  obtain ⟨n, hn⟩ := Option.isSome_iff_exists.1 hsome
  rw [hn, Option.bind_some] at hch
  have hfs : ∀ f ∈ [(⟨⟨0xD0⟩, []⟩ : Frame)], f.data.length < 2 ^ 28 := by simp
  have hpart : cut [0x40] = .more := rfl
  obtain ⟨-, h⟩ := packets_prefix_sent (Machine.reachable_of_exec ⟨_, rfl⟩ hn) hch hfs hpart
    (by simp [Frame.bytes, encode])
  exact ⟨n, _, hn, hch, rfl, rfl, h rfl⟩

/-- Between two ends of a connection packets are neither lost nor repeated, nor
    do they change their order or their contents: at any time, what one end has
    read is the first of what the other one has accepted, and it is all of it
    where nothing is on its way. -/
theorem packets_prefix_accepted {w : Writer} {t : ℤ} {out : Outgoing} (hn : sockets.Reachable n)
    (hch : n.channels s = some ch) (hw : writer.Reachable w) (hout : w.links t = some out)
    (hbroken : out.broken = false) (hlen : ∀ f ∈ out.accepted, f.data.length < 2 ^ 28)
    (hsent : ch.sent <+: out.wire) : ch.packets <+: out.accepted ∧
      (ch.sent = out.wire → ch.conn.incoming = [] → t ∉ w.writePending →
        ch.packets = out.accepted) := by
  obtain ⟨read, hread, hsplits⟩ := (reachable_sound hn).splits s ch hch
  obtain ⟨rest, hall, hnil⟩ := (Writer.reachable_writer_sound hw).exists_splits hout hbroken hlen
  obtain ⟨coming, hcoming⟩ := hsent
  rw [← hcoming, hread, List.append_assoc, List.append_assoc] at hall
  obtain ⟨cs, hcs, hsplits'⟩ := hsplits.of_append hall
  refine ⟨⟨cs, hcs.symm⟩, fun hwire hin hmem => ?_⟩
  obtain rfl : coming = [] := List.append_right_eq_self.1 (hcoming.trans hwire.symm)
  rw [hin, hnil hmem, List.append_nil, List.append_nil, List.append_nil] at hsplits'
  rw [hcs, (hsplits'.eq_of_more hsplits.cut_rest).1, List.append_nil]

theorem packets_prefix_accepted_byteByByte : ∃ n ch w out,
    sockets.exec (start fun _ => 0) [.connect 5, .arrive 5 [0xC0], .cycle 5] = some n ∧
      n.channels 5 = some ch ∧ writer.exec .start Writer.byteByByte = some w ∧
      w.links 3 = some out ∧ ch.sent <+: out.wire ∧ ch.packets <+: out.accepted := by
  have hch : (sockets.exec (start fun _ => 0) [.connect 5, .arrive 5 [0xC0], .cycle 5]).bind
      (·.channels 5) = some ⟨⟨[], .live⟩, [0xC0], []⟩ := by decide +kernel
  have hout : (writer.exec .start Writer.byteByByte).bind (·.links 3) =
      some ⟨[0xC0, 0x00], [⟨⟨0xC0⟩, []⟩], false⟩ := by decide +kernel
  obtain ⟨n, hn, hch⟩ := Option.bind_eq_some_iff.1 hch
  obtain ⟨w, hw, hout⟩ := Option.bind_eq_some_iff.1 hout
  have hsent : [0xC0] <+: [0xC0, (0x00 : UInt8)] := ⟨[0x00], rfl⟩
  have h := packets_prefix_accepted (Machine.reachable_of_exec ⟨_, rfl⟩ hn) hch
    (Machine.reachable_of_exec rfl hw) hout rfl (by simp) hsent
  exact ⟨n, _, w, _, hn, hch, hw, hout, hsent, h.1⟩

/-- A stream of packets that has been read in part: what is kept of the beginning
    of a packet and what follows are the packets that have not been read. -/
theorem exists_unread {fs as : List Frame} {xs ys r : List UInt8} (h : framing.Splits xs as r)
    (hlen : ∀ f ∈ fs, f.data.length < 2 ^ 28) (hxs : xs ++ ys = fs.flatMap Frame.bytes) :
    ∃ unread, fs = as ++ unread ∧ r ++ ys = unread.flatMap Frame.bytes := by
  induction h generalizing fs with
  | done => exact ⟨fs, rfl, hxs⟩
  | @frame xs zs r a as hcut h ih =>
    rcases fs with _ | ⟨f, fs⟩
    · obtain ⟨rfl, -⟩ := List.append_eq_nil_iff.1 hxs
      cases hcut
    · obtain ⟨hf, hfs⟩ := List.forall_mem_cons.1 hlen
      -- the first packet is the one that was written first
      have hfront : framing.cut (xs ++ ys) = .frame f (fs.flatMap Frame.bytes) := by
        rw [hxs, List.flatMap_cons]
        exact (cut_bytes f _).trans (if_pos hf)
      rw [Framing.cut_append_frame hcut] at hfront
      obtain ⟨rfl, hys⟩ := Cut.frame.inj hfront
      obtain ⟨unread, rfl, hunread⟩ := ih hfs hys
      exact ⟨unread, rfl, hunread⟩

/-- What one end has accepted and the other one has not read is whole packets:
    what the reader has kept, what waits there, what is on its way there
    (`coming`), and what has not been written yet (`rest`). -/
theorem unread_bytes {w : Writer} {t : ℤ} {out : Outgoing} (hn : sockets.Reachable n)
    (hch : n.channels s = some ch) (hw : writer.Reachable w) (hout : w.links t = some out)
    (hbroken : out.broken = false) (hlen : ∀ f ∈ out.accepted, f.data.length < 2 ^ 28)
    (hsent : ch.sent <+: out.wire) : ∃ unread coming rest,
      out.accepted = ch.packets ++ unread ∧ out.wire = ch.sent ++ coming ∧
      (t ∉ w.writePending → rest = []) ∧
      n.buffer.pending s ++ (ch.conn.incoming ++ (coming ++ rest)) =
        unread.flatMap Frame.bytes := by
  obtain ⟨read, hread, hsplits⟩ := (reachable_sound hn).splits s ch hch
  obtain ⟨rest, hrest, hnil⟩ := (Writer.reachable_writer_sound hw).exists_rest hout hbroken
  obtain ⟨coming, hcoming⟩ := hsent
  rw [← hcoming, hread, List.append_assoc, List.append_assoc] at hrest
  obtain ⟨unread, haccepted, hunread⟩ := exists_unread hsplits hlen hrest
  exact ⟨unread, coming, rest, haccepted, hcoming.symm, hnil, hunread⟩

/-- A call on a connection that is not broken reads a packet exactly if the whole
    packet is there, and fails only for bytes no packet begins with, or where the
    other end has shut the connection down. -/
theorem readPacket_complete_iff (hn : sockets.Reachable n) (hch : n.channels s = some ch)
    (hpeer : ch.conn.peer ≠ .reset) : ∃ r b c, readPacket s n.buffer ch.conn = some (r, b, c) ∧
      (∀ f, r = .complete f ↔ ∃ rest, cut (n.buffer.pending s ++ ch.conn.incoming) = .frame f rest) ∧
      (r = .interrupted → cut (n.buffer.pending s ++ ch.conn.incoming) = .more ∧
        b.pending s = n.buffer.pending s ++ ch.conn.incoming ∧ c.incoming = []) ∧
      (r = .socketError → cut (n.buffer.pending s ++ ch.conn.incoming) = .bad ∨
        cut (n.buffer.pending s ++ ch.conn.incoming) = .more ∧ ch.conn.peer = .closed) := by
  have h := reachable_sound hn
  obtain ⟨⟨r, b, c⟩, hread, hout⟩ :=
    outcome_readPacket (c := ch.conn) h.tidy (h.pos s ch hch).ne' (h.unfinished s)
  refine ⟨r, b, c, hread, ?_⟩
  cases hout with
  | complete hcut hl =>
    refine ⟨fun f => ?_, nofun, nofun⟩
    rw [hcut]
    constructor
    · rintro ⟨⟩
      exact ⟨_, rfl⟩
    · rintro ⟨rest, ⟨⟩⟩
      rfl
  | interrupted hcut hq hunf hl =>
    refine ⟨fun f => ?_, fun _ => ⟨hcut, ?_, rfl⟩, nofun⟩
    · rw [hcut]
      exact ⟨nofun, nofun⟩
    · rw [pending_of_some hl.queue, hq]
  | error herr hl =>
    have herr' := herr.imp_right fun h => h.resolve_right hpeer
    refine ⟨fun f => ⟨nofun, ?_⟩, nofun, fun _ => herr'⟩
    rintro ⟨rest, hcut⟩
    rw [hcut] at herr'
    obtain hbad | ⟨hmore, -⟩ := herr'
    · cases hbad
    · cases hmore

/-- What a call on a connection that is not broken returns, where `xs` is what has
    arrived and not been read as a packet: a packet exactly if a whole one is at
    the front of `xs` and can be taken apart. It drops the packets that are not for
    a client; it is interrupted only in the beginning of a packet, which is kept;
    and it fails for what no packet begins with, for a packet that cannot be taken
    apart, and where the other end has shut the connection down. -/
theorem factory_pack_iff {xs : List UInt8} (hn : sockets.Reachable n)
    (hch : n.channels s = some ch) (hpeer : ch.conn.peer ≠ .reset)
    (hxs : xs = n.buffer.pending s ++ ch.conn.incoming) :
    ∃ r b c, factory s n.buffer ch.conn = some (r, b, c) ∧
      (∀ p, r = .ok (.pack p) ↔ ∃ f rest, cut xs = .frame f rest ∧ make f = .ok (.pack p)) ∧
      (r = .ok .ignored ↔ ∃ f rest, cut xs = .frame f rest ∧ make f = .ok .ignored) ∧
      (r = .ok .interrupted → cut xs = .more ∧ b.pending s = xs ∧ c.incoming = []) ∧
      (r = .ok .socketError → cut xs = .bad ∨ cut xs = .more ∧ ch.conn.peer = .closed ∨
        ∃ f rest, cut xs = .frame f rest ∧ make f = .ok .bad) ∧
      ∀ e, r = .error e ↔ ∃ f rest, cut xs = .frame f rest ∧ make f = .error e := by
  obtain ⟨r, b, c, hread, hcomplete, hinterrupted, herror⟩ := readPacket_complete_iff hn hch hpeer
  rw [← hxs] at hcomplete hinterrupted herror
  rw [factory, hread]
  -- what is made of a whole packet is returned, and there is none otherwise
  have hwhole : ∀ {P : Frame → Prop}, (∃ f rest, cut xs = .frame f rest ∧ P f) ↔
      ∃ f, r = .complete f ∧ P f := by
    intro P
    simp only [hcomplete, exists_and_right]
  simp only [hwhole]
  rcases r with f | _ | _
  · refine ⟨_, b, c, rfl, fun p => ?_, ?_, ?_, fun h => ?_, fun e => ?_⟩
    · simp [returned_pack_iff]
    · simp [returned_ignored_iff]
    · exact fun h => absurd h returned_ne_interrupted
    · exact .inr (.inr ⟨f, rfl, returned_socketError_iff.1 h⟩)
    · simp [returned_error_iff]
  · refine ⟨_, b, c, rfl, by simp, by simp, fun _ => hinterrupted rfl, nofun, by simp⟩
  · refine ⟨_, b, c, rfl, by simp, by simp, nofun, fun _ => ?_, by simp⟩
    exact (herror rfl).imp_right .inl

/-- A whole packet; and a packet of a type that is reserved, which is dropped. -/
theorem factory_pack_iff_pingresp : ∃ n ch b c,
    sockets.exec (start fun _ => 0) [.connect 3, .arrive 3 [0x00, 0x00, 0xD0, 0x00], .cycle 3] =
      some n ∧ n.channels 3 = some ch ∧
      factory 3 n.buffer ch.conn = some (.ok (.pack (.headerOnly ⟨0xD0⟩)), b, c) := by
  have hch : (sockets.exec (start fun _ => 0)
      [.connect 3, .arrive 3 [0x00, 0x00, 0xD0, 0x00], .cycle 3]).map
      (fun n => (n.channels 3, n.buffer.pending 3)) =
        some (some ⟨⟨[0xD0, 0x00], .live⟩, [0x00, 0x00, 0xD0, 0x00], [⟨⟨0x00⟩, []⟩]⟩, []) := by
    decide +kernel
  obtain ⟨n, hn, hch⟩ := Option.map_eq_some_iff.1 hch
  obtain ⟨hch, hpending⟩ := Prod.mk.inj hch
  obtain ⟨r, b, c, hfactory, hpack, -⟩ :=
    factory_pack_iff (Machine.reachable_of_exec ⟨_, rfl⟩ hn) hch nofun rfl
  obtain rfl : r = .ok (.pack (.headerOnly ⟨0xD0⟩)) := by
    refine (hpack _).2 ⟨⟨⟨0xD0⟩, []⟩, [], ?_, rfl⟩
    rw [hpending]
    rfl
  exact ⟨n, _, b, c, hn, hch, hfactory⟩

end Sockets

end Cmqtt
