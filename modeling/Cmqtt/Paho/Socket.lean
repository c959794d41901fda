import Cmqtt.Paho.SocketBuffer

/-!
# Reading packets from a socket

`MQTTPacket_Factory` reads one packet from a socket that does not block: the
header byte, the bytes of the length (`MQTTPacket_decode`) and the data, each
by a `recv` of its own, and each after what `SocketBuffer.c` has kept of an
earlier call that found too few bytes.

A connection has the bytes that have arrived and not been read; `recv` returns
of them what it is asked for, as far as there are any. That more arrive while a
call goes on is the same as their arriving before it or after it, as a call
that finds no more bytes ends.

`outcome_readPacket` says what a call does, in terms of the packet at the front
of the bytes kept and the bytes waiting (`MQTTPacket.cut`): if there is a whole
packet, the call returns it and keeps nothing; if there is not, it keeps
everything and is interrupted. In no case does it write outside of the memory
of the queue, or lose the data of a queue whose memory it replaces.
-/

namespace Cmqtt

open SocketBuffer

/-- What the other end of a connection has done. -/
inductive Peer
  | live
  /-- It has shut the connection down, after all it has sent. -/
  | closed
  /-- The connection is broken. -/
  | reset
  deriving DecidableEq, Repr

/-- A connection, as the operating system has it. -/
structure Connection where
  /-- The bytes that have arrived and have not been read. -/
  incoming : List UInt8
  peer : Peer
  deriving DecidableEq

/-- What `recv` returns. -/
inductive Recv
  /-- Some bytes; none at the end of the stream. -/
  | bytes (bs : List UInt8)
  /-- `EAGAIN` or `EWOULDBLOCK`. -/
  | wouldBlock
  /-- Another error. -/
  | failed
  deriving DecidableEq, Repr

namespace Socket

/-- `recv`, of at most `n` bytes. -/
def recv (n : ℕ) (c : Connection) : Recv × Connection :=
  if c.peer = .reset then (.failed, c)
  else if c.incoming = [] then (if c.peer = .closed then .bytes [] else .wouldBlock, c)
  else (.bytes (c.incoming.take n), { c with incoming := c.incoming.drop n })

/-- `Socket_getch`. -/
def getch (socket : ℤ) (b : SocketBuffer) (c : Connection) :
    Completion UInt8 × SocketBuffer × Connection :=
  match b.getQueuedChar socket with
  | (.interrupted, b) =>
    match recv 1 c with
    | (.bytes (ch :: _), c) => (.complete ch, b.queueChar socket ch, c)
    | (.bytes [], c) => (.socketError, b, c)
    | (.wouldBlock, c) => (.interrupted, b.interrupted socket 0, c)
    | (.failed, c) => (.socketError, b, c)
  | (r, b) => (r, b, c)

/-- A write of bytes into the block of memory of a queue. -/
def store (pos : ℕ) (bs : List UInt8) (q : SocketQueue) : SocketQueue :=
  { q with buf := q.buf.take pos ++ bs ++ q.buf.drop (pos + bs.length) }

/-- The end of `Socket_getdata`: the data is complete, or to be continued. -/
def endGetdata (socket : ℤ) (bytes actualLen : ℕ) (b : SocketBuffer) : SocketBuffer :=
  if actualLen = bytes then b.complete socket else b.interrupted socket actualLen

/-- `Socket_getdata`: the memory with the data, if there was no error, and how
    much of it is data. There is no result if a write leaves the memory. -/
def getdata (socket : ℤ) (bytes : ℕ) (b : SocketBuffer) (c : Connection) :
    Option ((Option (List UInt8) × ℕ) × SocketBuffer × Connection) :=
  if bytes = 0 then
    some ((some (b.complete socket).defQueue.buf, 0), b.complete socket, c)
  else
    let actualLen := (b.getQueuedData socket bytes).1
    let b := (b.getQueuedData socket bytes).2
    match recv (bytes - actualLen) c with
    | (.failed, c) => some ((none, actualLen), b, c)
    | (.bytes [], c) => some ((none, actualLen), b, c)
    | (.wouldBlock, c) =>
      some ((some (b.current socket).buf, actualLen), endGetdata socket bytes actualLen b, c)
    | (.bytes bs, c) =>
      if actualLen + bs.length ≤ (b.current socket).buf.length then
        let b := b.modify socket (store actualLen bs)
        let actualLen := actualLen + bs.length
        some ((some (b.current socket).buf, actualLen), endGetdata socket bytes actualLen b, c)
      else none

end Socket

namespace MQTTPacket

/-- The loop of `MQTTPacket_decode`, with `k` more bytes to go. -/
def decodeFrom (socket : ℤ) : ℕ → ℕ → ℕ → SocketBuffer → Connection →
    Completion ℕ × SocketBuffer × Connection
  | 0, _, _, b, c => (.socketError, b, c)
  | k + 1, value, multiplier, b, c =>
    match Socket.getch socket b c with
    | (.complete ch, b, c) =>
      if ch &&& 128 ≠ 0 then
        decodeFrom socket k (value + (ch &&& 127).toNat * multiplier) (multiplier * 128) b c
      else (.complete (value + (ch &&& 127).toNat * multiplier), b, c)
    | (.interrupted, b, c) => (.interrupted, b, c)
    | (.socketError, b, c) => (.socketError, b, c)

/-- `MQTTPacket_decode`. -/
def decode (socket : ℤ) (b : SocketBuffer) (c : Connection) :
    Completion ℕ × SocketBuffer × Connection :=
  decodeFrom socket maxLengthBytes 0 1 b c

/-- The part of `MQTTPacket_Factory` after the length has been read. -/
def readData (socket : ℤ) (header : UInt8) (remainingLength : ℕ) (b : SocketBuffer)
    (c : Connection) : Option (Completion Frame × SocketBuffer × Connection) := do
  let ((data, actualLen), b, c) ← Socket.getdata socket remainingLength b c
  match data with
  | none => return (if remainingLength ≠ 0 then .socketError else .complete ⟨⟨header⟩, []⟩, b, c)
  | some data =>
    return (if actualLen < remainingLength then .interrupted
      else .complete ⟨⟨header⟩, data.take remainingLength⟩, b, c)

/-- The part of `MQTTPacket_Factory` that reads a packet. -/
def readPacket (socket : ℤ) (b : SocketBuffer) (c : Connection) :
    Option (Completion Frame × SocketBuffer × Connection) :=
  match Socket.getch socket b c with
  | (.complete header, b, c) =>
    match decode socket b c with
    | (.complete remainingLength, b, c) => readData socket header remainingLength b c
    | (.interrupted, b, c) => some (.interrupted, b, c)
    | (.socketError, b, c) => some (.socketError, b, c)
  | (.interrupted, b, c) => some (.interrupted, b, c)
  | (.socketError, b, c) => some (.socketError, b, c)

end MQTTPacket

/-! ## What is read -/

variable {b₀ b : SocketBuffer} {c c' : Connection} {socket : ℤ} {len k v m v' m' : ℕ}
  {done saved saved' dt cs : List UInt8} {ch : UInt8} {peer : Peer}

namespace Socket

theorem getch_saved (h : Reading b₀ b socket len done (ch :: saved) dt) :
    ∃ b', getch socket b c = (.complete ch, b', c) ∧
      Reading b₀ b' socket len (done ++ [ch]) saved dt := by
  obtain ⟨b', hget, h'⟩ := h.getQueuedChar_saved
  refine ⟨b', ?_, h'⟩
  rw [getch, hget]

theorem getch_cons (h : Reading b₀ b socket len done [] []) (hdone : done.length ≤ 4)
    (hpeer : peer ≠ .reset) : getch socket b ⟨ch :: cs, peer⟩ =
      (.complete ch, b.queueChar socket ch, ⟨cs, peer⟩) := by
  simp [getch, h.getQueuedChar_nil hdone, recv, hpeer]

theorem getch_wait (h : Reading b₀ b socket len done [] []) (hdone : done.length ≤ 4) :
    getch socket b ⟨[], .live⟩ = (.interrupted, b.interrupted socket 0, ⟨[], .live⟩) := by
  simp [getch, h.getQueuedChar_nil hdone, recv]

theorem getch_error (h : Reading b₀ b socket len done [] []) (hdone : done.length ≤ 4)
    (hc : c.peer = .reset ∨ c.incoming = [] ∧ c.peer = .closed) :
    getch socket b c = (.socketError, b, c) := by
  rw [getch, h.getQueuedChar_nil hdone]
  obtain hc | ⟨hnil, hc⟩ := hc
  · simp [recv, hc]
  · simp [recv, hc, hnil]

end Socket

namespace MQTTPacket

/-- What `decodeFrom` does with the bytes of the length, kept or waiting. -/
inductive Decoded (b₀ : SocketBuffer) (c : Connection) (socket : ℤ) (len k v m : ℕ)
    (done saved dt : List UInt8) : Completion ℕ × SocketBuffer × Connection → Prop
  | complete {b' : SocketBuffer} {n : ℕ} (bs rest : List UInt8) :
      saved ++ (dt ++ c.incoming) = bs ++ (dt ++ rest) → lengthFrom k v m bs = .frame n [] →
      Reading b₀ b' socket len (done ++ bs) [] dt →
      Decoded b₀ c socket len k v m done saved dt (.complete n, b', ⟨rest, c.peer⟩)
  | interrupted {b' : SocketBuffer} {q : SocketQueue} :
      lengthFrom k v m (saved ++ (dt ++ c.incoming)) = .more → c.peer = .live →
      q.header = done ++ (saved ++ (dt ++ c.incoming)) → q.data = [] → Leaves b₀ b' socket (some q) →
      Decoded b₀ c socket len k v m done saved dt (.interrupted, b', ⟨[], c.peer⟩)
  | error {b' : SocketBuffer} {c' : Connection} {done' saved' dt' : List UInt8} :
      lengthFrom k v m (saved ++ (dt ++ c.incoming)) = .bad ∨
        lengthFrom k v m (saved ++ (dt ++ c.incoming)) = .more ∧ c.peer = .closed ∨
        c.peer = .reset →
      Reading b₀ b' socket len done' saved' dt' →
      Decoded b₀ c socket len k v m done saved dt (.socketError, b', c')

/-- One more byte of the length has been read. -/
theorem Decoded.cons {r : Completion ℕ × SocketBuffer × Connection}
    (h : Decoded b₀ c' socket len k v' m' (done ++ [ch]) saved' dt r)
    (hstream : saved ++ (dt ++ c.incoming) = ch :: (saved' ++ (dt ++ c'.incoming)))
    (hpeer : c'.peer = c.peer)
    (hlength : ∀ xs, lengthFrom (k + 1) v m (ch :: xs) = lengthFrom k v' m' xs) :
    Decoded b₀ c socket len (k + 1) v m done saved dt r := by
  cases h with
  | complete bs rest hbs hn hreading =>
    rw [hpeer]
    refine .complete (ch :: bs) rest ?_ ?_ ?_
    · rw [hstream, hbs, List.cons_append]
    · rw [hlength, hn]
    · simpa using hreading
  | interrupted hmore hlive hq hdata hleaves =>
    rw [hpeer]
    refine .interrupted ?_ (hpeer ▸ hlive) ?_ hdata hleaves
    · rw [hstream, hlength, hmore]
    · rw [hq, hstream]
      simp
  | error herr hreading =>
    refine .error ?_ hreading
    rw [hstream, hlength, ← hpeer]
    exact herr

theorem decoded_decodeFrom (h₀ : b₀.Tidy) (hs : socket ≠ 0)
    (h : Reading b₀ b socket len done saved dt) (hk : done.length + k ≤ 5)
    (hsaved : (∃ n, lengthFrom k v m saved = .frame n []) ∨
      (∀ n rest, lengthFrom k v m saved ≠ .frame n rest) ∧ dt = []) :
    Decoded b₀ c socket len k v m done saved dt (decodeFrom socket k v m b c) := by
  induction k generalizing v m b c done saved with
  | zero => exact .error (.inl rfl) h
  | succ k ih =>
    -- A byte `ch` has been read: it is the last one, or the loop goes on.
    have step : ∀ {b' : SocketBuffer} {c' : Connection} {saved' : List UInt8} {ch : UInt8},
        Socket.getch socket b c = (.complete ch, b', c') →
        Reading b₀ b' socket len (done ++ [ch]) saved' dt →
        saved ++ (dt ++ c.incoming) = ch :: (saved' ++ (dt ++ c'.incoming)) → c'.peer = c.peer →
        ((∃ n, lengthFrom (k + 1) v m (ch :: saved') = .frame n []) ∨
          (∀ n rest, lengthFrom (k + 1) v m (ch :: saved') ≠ .frame n rest) ∧ dt = [] ∨
          saved' = [] ∧ dt = []) →
        Decoded b₀ c socket len (k + 1) v m done saved dt (decodeFrom socket (k + 1) v m b c) := by
      intro b' c' saved' ch hget h' hstream hpeer hlength
      rw [decodeFrom, hget]
      simp only
      split_ifs with h128
      · simp only [lengthFrom, if_pos h128] at hlength
        refine (ih h' (by simp; omega) ?_).cons hstream hpeer ?_
        · obtain hn | hn | ⟨rfl, rfl⟩ := hlength
          · exact .inl hn
          · exact .inr hn
          · refine .inr ⟨?_, rfl⟩
            cases k <;> simp [lengthFrom]
        · intro xs
          rw [lengthFrom, if_pos h128]
      · -- Nothing is saved after the last byte.
        obtain rfl : saved' = [] := by
          simp only [lengthFrom, if_neg h128] at hlength
          obtain ⟨n, hn⟩ | ⟨hn, -⟩ | ⟨hnil, -⟩ := hlength
          · exact (Cut.frame.inj hn).2
          · exact absurd rfl (hn _ _)
          · exact hnil
        obtain ⟨rest, peer⟩ := c'
        obtain rfl : peer = c.peer := hpeer
        refine .complete [ch] rest hstream ?_ h'
        rw [lengthFrom, if_neg h128]
    cases saved with
    | cons ch saved =>
      obtain ⟨b', hget, h'⟩ := Socket.getch_saved (c := c) h
      exact step hget h' rfl rfl (hsaved.imp_right .inl)
    | nil =>
      obtain rfl : dt = [] := by
        obtain ⟨n, hn⟩ | ⟨-, hdt⟩ := hsaved
        · cases hn
        · exact hdt
      have hdone : done.length ≤ 4 := by omega
      obtain ⟨incoming, peer⟩ := c
      by_cases hreset : peer = .reset
      · rw [decodeFrom, Socket.getch_error h hdone (.inl hreset)]
        exact .error (.inr (.inr hreset)) h
      · cases incoming with
        | cons ch cs =>
          exact step (Socket.getch_cons h hdone hreset) (h.queueChar hs hdone ch) rfl rfl
            (.inr (.inr ⟨rfl, rfl⟩))
        | nil =>
          cases peer with
          | live =>
            rw [decodeFrom, Socket.getch_wait h hdone]
            refine .interrupted rfl rfl ?_ ?_ (h.interrupted h₀ (Nat.zero_le _))
            · simpa [SocketQueue.header] using h.header_eq
            · simp [SocketQueue.data]
          | closed =>
            rw [decodeFrom, Socket.getch_error h hdone (.inr ⟨rfl, rfl⟩)]
            exact .error (.inr (.inl ⟨rfl, rfl⟩)) h
          | reset => exact absurd rfl hreset

/-! ## The data -/

/-- The packet whose length has been read. -/
theorem cut_of_length {h : UInt8} {bs ys : List UInt8} {n : ℕ}
    (hn : remainingLength bs = .frame n []) : cut (h :: (bs ++ ys)) =
      if ys.length < n then .more else .frame ⟨⟨h⟩, ys.take n⟩ (ys.drop n) := by
  rw [cut, remainingLength_append hn, afterLength]

/-- A queue that holds the beginning of a packet. -/
inductive Unfinished (q : SocketQueue) : Prop
  | empty : q.header = [] → q.data = [] → Unfinished q
  | length {h : UInt8} {bs : List UInt8} :
      q.header = h :: bs → remainingLength bs = .more → q.data = [] → Unfinished q
  | data {h : UInt8} {bs : List UInt8} {n : ℕ} :
      q.header = h :: bs → remainingLength bs = .frame n [] → q.data.length < n →
      (q.data ≠ [] → n ≤ q.buflen) → Unfinished q

/-- What `readPacket` does, for the bytes `xs` kept or waiting. -/
inductive Outcome (b₀ : SocketBuffer) (peer : Peer) (socket : ℤ) (xs : List UInt8) :
    Completion Frame × SocketBuffer × Connection → Prop
  | complete {b' : SocketBuffer} {f : Frame} {rest : List UInt8} :
      cut xs = .frame f rest → Leaves b₀ b' socket none →
      Outcome b₀ peer socket xs (.complete f, b', ⟨rest, peer⟩)
  | interrupted {b' : SocketBuffer} {q : SocketQueue} :
      cut xs = .more → q.header ++ q.data = xs → Unfinished q →
      Leaves b₀ b' socket (some q) → Outcome b₀ peer socket xs (.interrupted, b', ⟨[], peer⟩)
  | error {b' : SocketBuffer} {c' : Connection} :
      cut xs = .bad ∨ cut xs = .more ∧ peer = .closed ∨ peer = .reset →
      Leaves b₀ (b'.cleanup socket) socket none → Outcome b₀ peer socket xs (.socketError, b', c')

theorem getdata_error {b₁ : SocketBuffer} {d n : ℕ} (hn : n ≠ 0)
    (hq : b.getQueuedData socket n = (d, b₁))
    (hc : c.peer = .reset ∨ c.incoming = [] ∧ c.peer = .closed) :
    Socket.getdata socket n b c = some ((none, d), b₁, c) := by
  rw [Socket.getdata, if_neg hn, hq]
  obtain hc | ⟨hnil, hc⟩ := hc
  · simp [Socket.recv, hc]
  · simp [Socket.recv, hc, hnil]

theorem getdata_wait {b₁ : SocketBuffer} {d n : ℕ} (hn : n ≠ 0)
    (hq : b.getQueuedData socket n = (d, b₁)) :
    Socket.getdata socket n b ⟨[], .live⟩ =
      some ((some (b₁.current socket).buf, d), Socket.endGetdata socket n d b₁, ⟨[], .live⟩) := by
  rw [Socket.getdata, if_neg hn, hq]
  simp [Socket.recv]

theorem getdata_bytes {b₁ : SocketBuffer} {d n : ℕ} {xs : List UInt8} (hd : d < n)
    (hq : b.getQueuedData socket n = (d, b₁)) (hpeer : peer ≠ .reset) (hxs : xs ≠ [])
    (hroom : n ≤ (b₁.current socket).buf.length) : Socket.getdata socket n b ⟨xs, peer⟩ =
      some ((some (Socket.store d (xs.take (n - d)) (b₁.current socket)).buf,
          d + (xs.take (n - d)).length),
        Socket.endGetdata socket n (d + (xs.take (n - d)).length)
          (b₁.modify socket (Socket.store d (xs.take (n - d)))), ⟨xs.drop (n - d), peer⟩) := by
  obtain ⟨x, xs, rfl⟩ := List.exists_cons_of_ne_nil hxs
  obtain ⟨k, hk⟩ : ∃ k, n - d = k + 1 := ⟨n - d - 1, by omega⟩
  have hle : d + ((x :: xs).take (k + 1)).length ≤ (b₁.current socket).buf.length := by
    rw [List.length_take]
    omega
  have hrecv : Socket.recv (k + 1) ⟨x :: xs, peer⟩ =
      (.bytes (x :: xs.take k), ⟨xs.drop k, peer⟩) := by
    simp [Socket.recv, hpeer]
  rw [List.take_succ_cons] at hle
  rw [Socket.getdata, if_neg (by omega), hq]
  simp only [hk, hrecv, List.take_succ_cons, List.drop_succ_cons]
  have hstore : ∀ q, (Socket.store d (x :: xs.take k) q).socket = q.socket := fun _ => rfl
  rw [if_pos hle, current_modify hstore]

/-- The memory after a write that goes on where the data ends. -/
theorem buf_store {q : SocketQueue} (xs : List UInt8) (hq : q.data = dt)
    (hlen : q.datalen = dt.length) : (Socket.store dt.length xs q).buf =
      dt ++ (xs ++ q.buf.drop (dt.length + xs.length)) := by
  rw [SocketQueue.data, hlen] at hq
  rw [Socket.store, hq, List.append_assoc]

/-- Some bytes of the data have been read: the packet is complete with them, or goes on. -/
theorem outcome_bytes {h : UInt8} {bs incoming : List UInt8} {n : ℕ} (h₀ : b₀.Tidy)
    (hr : Reading b₀ b socket n (h :: bs) [] dt) (hn : remainingLength bs = .frame n [])
    (hlt : dt.length < n) (hroom : n ≤ (b.current socket).buflen) :
    Outcome b₀ peer socket (h :: (bs ++ (dt ++ incoming)))
      (if dt.length + (incoming.take (n - dt.length)).length < n then .interrupted
        else .complete ⟨⟨h⟩, (Socket.store dt.length (incoming.take (n - dt.length))
          (b.current socket)).buf.take n⟩,
        Socket.endGetdata socket n (dt.length + (incoming.take (n - dt.length)).length)
          (b.modify socket (Socket.store dt.length (incoming.take (n - dt.length)))),
        ⟨incoming.drop (n - dt.length), peer⟩) := by
  have hcut : cut (h :: (bs ++ (dt ++ incoming))) = _ := cut_of_length hn
  have hroom' := hroom.trans hr.sized.buflen
  have hheader : (b.current socket).header = h :: bs := by simpa using hr.header_eq
  set got := incoming.take (n - dt.length) with hgot
  have hgotlen : got.length = min (n - dt.length) incoming.length := List.length_take
  have hmem := buf_store got hr.data_eq hr.datalen_eq
  have htake : (Socket.store dt.length got (b.current socket)).buf.take (dt.length + got.length) =
      dt ++ got := by
    rw [hmem, ← List.append_assoc]
    exact List.take_left' (by simp)
  have hstore : ∀ q, (Socket.store dt.length got q).socket = q.socket := fun _ => rfl
  have hbuf : (Socket.store dt.length got (b.current socket)).buf.length =
      (b.current socket).buf.length := by
    simp only [Socket.store, List.length_append, List.length_take, List.length_drop]
    omega
  have hr' : Reading b₀ (b.modify socket (Socket.store dt.length got)) socket n (h :: bs) [] dt := by
    refine hr.modify hstore ⟨hr.sized.1, hr.sized.2, ?_, ?_⟩ hr.header_eq hr.index_eq ?_ hr.room hr.fresh
    · rw [hbuf]
      exact hr.sized.buflen
    · rw [hbuf]
      exact hr.sized.datalen
    · change (Socket.store dt.length got (b.current socket)).buf.take (b.current socket).datalen = dt
      rw [hr.datalen_eq, hmem, List.take_left]
  rcases Nat.lt_or_ge (dt.length + got.length) n with hmore | hdone
  · -- All that is waiting has been read.
    have hall : incoming.length ≤ n - dt.length := by omega
    have hgot' : got = incoming := List.take_of_length_le hall
    rw [if_pos hmore, Socket.endGetdata, if_neg hmore.ne, List.drop_of_length_le hall]
    refine .interrupted ?_ ?_ ?_ (hr'.interrupted h₀ ?_)
    · rw [hcut, if_pos (by rw [List.length_append, ← hgot']; exact hmore)]
    · rw [current_modify hstore]
      refine (congrArg₂ (· ++ ·) hheader htake).trans ?_
      rw [hgot', List.cons_append]
    · rw [current_modify hstore]
      refine .data hheader hn ?_ fun _ => hroom
      refine (congrArg List.length htake).trans_lt ?_
      rwa [List.length_append]
    · rw [current_modify hstore, hbuf]
      omega
  · have hlen : dt.length + got.length = n := by omega
    rw [if_neg hdone.not_gt, Socket.endGetdata, if_pos hlen]
    refine .complete ?_ (hr'.complete h₀).1
    have hle : dt.length ≤ n := hlt.le
    rw [hcut, if_neg (by rw [List.length_append]; omega), ← hlen, htake, hlen,
      List.take_append, List.take_of_length_le hle, List.drop_append, List.drop_of_length_le hle,
      List.nil_append]

/-- The data of a packet, from what is kept of it and what is waiting. -/
theorem outcome_readData {h : UInt8} {bs : List UInt8} {n : ℕ} (h₀ : b₀.Tidy)
    (hr : Reading b₀ b socket n (h :: bs) [] dt) (hn : remainingLength bs = .frame n [])
    (hdt : dt.length < n ∨ dt = []) :
    ∃ r, readData socket h n b c = some r ∧
      Outcome b₀ c.peer socket (h :: (bs ++ (dt ++ c.incoming))) r := by
  obtain ⟨incoming, peer⟩ := c
  have hcut : cut (h :: (bs ++ (dt ++ incoming))) = _ := cut_of_length hn
  rcases Nat.eq_zero_or_pos n with rfl | hpos
  · -- There is no data: nothing is read.
    obtain rfl : dt = [] := hdt.resolve_left (Nat.not_lt_zero _)
    refine ⟨_, rfl, ?_⟩
    simp only [List.take_zero, lt_irrefl, if_false]
    exact .complete (by simpa using hcut) (hr.complete h₀).1
  · have hlt : dt.length < n := hdt.elim id (by rintro rfl; exact hpos)
    obtain ⟨b₁, hqueued, hr₁, hroom⟩ := hr.getQueuedData
    by_cases herror : peer = .reset ∨ incoming = [] ∧ peer = .closed
    · rw [readData, getdata_error hpos.ne' hqueued herror]
      refine ⟨_, rfl, ?_⟩
      simp only [if_pos hpos.ne']
      refine .error ?_ (hr₁.cleanup h₀)
      obtain hreset | ⟨rfl, hclosed⟩ := herror
      · exact .inr (.inr hreset)
      · exact .inr (.inl ⟨by rw [hcut, if_pos (by simpa using hlt)], hclosed⟩)
    · obtain ⟨hreset, hopen⟩ := not_or.1 herror
      have hroom' := hroom.trans hr₁.sized.buflen
      cases hin : incoming with
      | nil =>
        -- No byte is there: what was read before is kept.
        obtain rfl : peer = .live := by
          cases peer with
          | live => rfl
          | closed => exact absurd ⟨hin, rfl⟩ hopen
          | reset => exact absurd rfl hreset
        rw [readData, getdata_wait hpos.ne' hqueued]
        refine ⟨_, rfl, ?_⟩
        rw [if_pos hlt, Socket.endGetdata, if_neg hlt.ne]
        have hheader : (b₁.current socket).header = h :: bs := by simpa using hr₁.header_eq
        have hdata : (b₁.current socket).buf.take dt.length = dt := by
          have := hr₁.data_eq
          rwa [SocketQueue.data, hr₁.datalen_eq] at this
        rw [hin, List.append_nil] at hcut
        refine .interrupted ?_ ?_ ?_ (hr₁.interrupted h₀ (hlt.le.trans hroom'))
        · rw [List.append_nil, hcut, if_pos hlt]
        · rw [List.append_nil]
          exact congrArg₂ (· ++ ·) hheader hdata
        · refine .data hheader hn ?_ fun _ => hroom
          exact (congrArg List.length hdata).trans_lt hlt
      | cons x xs =>
        rw [← hin]
        have hne : incoming ≠ [] := by simp [hin]
        rw [readData, getdata_bytes hlt hqueued hreset hne hroom']
        exact ⟨_, rfl, outcome_bytes h₀ hr₁ hn hlt hroom⟩

/-- The packet after its header byte, which is saved or has just been read. -/
theorem outcome_afterHeader {h : UInt8} (h₀ : b₀.Tidy) (hs : socket ≠ 0)
    (hr : Reading b₀ b socket len [h] saved dt)
    (hsaved : remainingLength saved = .frame len [] ∧ dt.length < len ∨
      (∀ n rest, remainingLength saved ≠ .frame n rest) ∧ dt = []) :
    ∃ r, (match decode socket b c with
        | (.complete n, b, c) => readData socket h n b c
        | (.interrupted, b, c) => some (.interrupted, b, c)
        | (.socketError, b, c) => some (.socketError, b, c)) = some r ∧
      Outcome b₀ c.peer socket (h :: (saved ++ (dt ++ c.incoming))) r := by
  have hdec : Decoded b₀ c socket len maxLengthBytes 0 1 [h] saved dt (decode socket b c) := by
    refine decoded_decodeFrom h₀ hs hr (by simp [maxLengthBytes]) ?_
    exact hsaved.imp_left fun h => ⟨len, h.1⟩
  generalize decode socket b c = r at hdec
  cases hdec with
  | @complete b' n bs rest hbs hn hr' =>
    -- The length is that of the data which is saved, if there is any.
    have hdt : dt = [] ∨ n = len ∧ dt.length < len := by
      obtain ⟨hlen, hlt⟩ | ⟨-, hnil⟩ := hsaved
      · refine .inr ⟨?_, hlt⟩
        have hr : remainingLength (bs ++ (dt ++ rest)) = _ := remainingLength_append hn
        rw [← hbs, remainingLength_append hlen] at hr
        exact (Cut.frame.inj hr).1.symm
      · exact .inl hnil
    have hr'' : Reading b₀ b' socket n (h :: bs) [] dt := by
      refine { hr' with room := fun hne => ?_ }
      obtain rfl | ⟨rfl, -⟩ := hdt
      · exact absurd rfl hne
      · exact hr'.room hne
    rw [hbs]
    refine outcome_readData (c := ⟨rest, c.peer⟩) h₀ hr'' hn ?_
    obtain rfl | ⟨rfl, hlt⟩ := hdt
    · exact .inr rfl
    · exact .inl hlt
  | interrupted hmore hlive hq hdata hleaves =>
    refine ⟨_, rfl, .interrupted ?_ ?_ ?_ hleaves⟩
    · rw [cut, remainingLength, hmore, afterLength]
    · rw [hq, hdata, List.append_nil, List.singleton_append]
    · exact .length hq hmore hdata
  | error herr hr' =>
    refine ⟨_, rfl, .error ?_ (hr'.cleanup h₀)⟩
    rw [cut, remainingLength]
    obtain hbad | ⟨hmore, hclosed⟩ | hreset := herr
    · exact .inl (by rw [hbad, afterLength])
    · exact .inr (.inl ⟨by rw [hmore, afterLength], hclosed⟩)
    · exact .inr (.inr hreset)

/-- What a call does, from what is kept of a packet and what is waiting. -/
theorem outcome_readPacket (h₀ : b.Tidy) (hs : socket ≠ 0)
    (hq : ∀ q, b.queue socket = some q → Unfinished q) :
    ∃ r, readPacket socket b c = some r ∧
      Outcome b c.peer socket (b.pending socket ++ c.incoming) r := by
  have hcur : Unfinished (b.current socket) := by
    rw [current]
    cases hsome : b.queue socket with
    | none => exact .empty h₀.clean.header_eq h₀.clean.data_eq
    | some q => exact hq q hsome
  rw [h₀.pending_eq, List.append_assoc]
  cases hcur with
  | empty hheader hdata =>
    -- The header byte has to be read.
    have hr : Reading b b socket 0 [] [] [] := by
      have := h₀.reading socket 0 fun _ => Nat.zero_le _
      rwa [hheader, hdata] at this
    rw [hheader, hdata, List.nil_append, List.nil_append]
    obtain ⟨incoming, peer⟩ := c
    by_cases herror : peer = .reset ∨ incoming = [] ∧ peer = .closed
    · rw [readPacket, Socket.getch_error hr (Nat.zero_le 4) herror]
      refine ⟨_, rfl, .error ?_ (hr.cleanup h₀)⟩
      obtain hreset | ⟨rfl, hclosed⟩ := herror
      · exact .inr (.inr hreset)
      · exact .inr (.inl ⟨rfl, hclosed⟩)
    · obtain ⟨hreset, hopen⟩ := not_or.1 herror
      cases incoming with
      | nil =>
        obtain rfl : peer = .live := by
          cases peer with
          | live => rfl
          | closed => exact absurd ⟨rfl, rfl⟩ hopen
          | reset => exact absurd rfl hreset
        rw [readPacket, Socket.getch_wait hr (Nat.zero_le 4)]
        refine ⟨_, rfl, .interrupted rfl ?_ ?_ (hr.interrupted h₀ (Nat.zero_le _))⟩
        · exact congrArg₂ (· ++ ·) hheader List.take_zero
        · exact .empty hheader List.take_zero
      | cons h cs =>
        rw [readPacket, Socket.getch_cons hr (Nat.zero_le 4) hreset]
        exact outcome_afterHeader h₀ hs (hr.queueChar hs (Nat.zero_le 4) h)
          (.inr ⟨by simp [remainingLength, maxLengthBytes, lengthFrom], rfl⟩)
  | @length h bs hheader hmore hdata =>
    have hr : Reading b b socket 0 [] (h :: bs) [] := by
      have := h₀.reading socket 0 fun _ => Nat.zero_le _
      rwa [hheader, hdata] at this
    obtain ⟨b', hget, hr'⟩ := Socket.getch_saved (c := c) hr
    rw [hheader, hdata, readPacket, hget]
    exact outcome_afterHeader h₀ hs hr' (.inr ⟨by simp [hmore], rfl⟩)
  | @data h bs n hheader hn hlt hroom =>
    have hr : Reading b b socket n [] (h :: bs) (b.current socket).data := by
      have := h₀.reading socket n hroom
      rwa [hheader] at this
    obtain ⟨b', hget, hr'⟩ := Socket.getch_saved (c := c) hr
    rw [hheader, readPacket, hget]
    exact outcome_afterHeader h₀ hs hr' (.inl ⟨hn, hlt⟩)

end MQTTPacket

end Cmqtt
