import Cmqtt.Keyed
import Cmqtt.Paho.Packet

/-!
# Socket buffers

A read from a socket may end in the middle of a packet. `SocketBuffer.c` then
keeps what has been read of it, the bytes of the fixed header and those of the
data, in a queue of the socket, from which the next read goes on. Reads that
are not interrupted share one queue, the default queue; it becomes the queue of
a socket when a read from it is interrupted, and is replaced by a new one.

The calls for a socket work on its queue, or on the default queue if it has
none (`current`). What each of them does is said once, in terms of the queues
of all sockets: `queue_modify`, `queue_interrupted`, `queue_complete` and
`queue_cleanup`, with `defQueue_complete` and its like for the default queue.

A buffer is `Tidy` between the calls: the default queue is clean, no two queues
are of the same socket, and every queue has its position at the start of the
header.
-/

namespace Cmqtt

/-- `socket_queue`: what has been read of a packet on a socket. -/
structure SocketQueue where
  socket : ℤ
  /-- The position in the header. -/
  index : ℕ
  headerlen : ℕ
  /-- The array `fixed_header`, of five bytes. -/
  fixedHeader : List UInt8
  buflen : ℕ
  datalen : ℕ
  /-- The block of memory for the data. -/
  buf : List UInt8
  deriving DecidableEq

/-- The state of `SocketBuffer.c`. -/
structure SocketBuffer where
  /-- `def_queue`. -/
  defQueue : SocketQueue
  queues : List SocketQueue
  /-- What memory holds that has not been written to. -/
  junk : ℕ → UInt8

namespace SocketQueue

/-- The saved bytes of the header. -/
def header (q : SocketQueue) : List UInt8 := q.fixedHeader.take q.headerlen

/-- The saved bytes of the data. -/
def data (q : SocketQueue) : List UInt8 := q.buf.take q.datalen

/-- A queue without anything in it. -/
def reset (q : SocketQueue) : SocketQueue :=
  { q with socket := 0, index := 0, headerlen := 0, datalen := 0 }

/-- A queue as `reset` leaves it. -/
structure Clean (q : SocketQueue) : Prop where
  socket : q.socket = 0
  index : q.index = 0
  headerlen : q.headerlen = 0
  datalen : q.datalen = 0

/-- The sizes of a queue are those of its memory. -/
structure Sized (q : SocketQueue) : Prop where
  fixedHeader : q.fixedHeader.length = 5
  headerlen : q.headerlen ≤ 5
  buflen : q.buflen ≤ q.buf.length
  datalen : q.datalen ≤ q.buf.length

theorem clean_reset (q : SocketQueue) : q.reset.Clean := ⟨rfl, rfl, rfl, rfl⟩

theorem Sized.reset {q : SocketQueue} (h : q.Sized) : q.reset.Sized where
  fixedHeader := h.fixedHeader
  headerlen := Nat.zero_le 5
  buflen := h.buflen
  datalen := Nat.zero_le _

theorem Clean.header_eq {q : SocketQueue} (h : q.Clean) : q.header = [] := by
  rw [header, h.headerlen, List.take_zero]

theorem Clean.data_eq {q : SocketQueue} (h : q.Clean) : q.data = [] := by
  rw [data, h.datalen, List.take_zero]

end SocketQueue

namespace SocketBuffer

/-- A new block of memory. -/
def malloc (junk : ℕ → UInt8) (n : ℕ) : List UInt8 := (List.range n).map junk

@[simp]
theorem length_malloc {junk : ℕ → UInt8} {n : ℕ} : (malloc junk n).length = n := by simp [malloc]

/-- A block of another size, with the contents of the old one as far as they fit. -/
def realloc (junk : ℕ → UInt8) (buf : List UInt8) (n : ℕ) : List UInt8 :=
  buf.take n ++ malloc junk (n - buf.length)

/-- `SocketBuffer_newDefQ`: `buflen` is set to 1000 for the block, and to 0 again. -/
def newDefQ (junk : ℕ → UInt8) : SocketQueue where
  socket := 0
  index := 0
  headerlen := 0
  fixedHeader := malloc junk 5
  buflen := 0
  datalen := 0
  buf := malloc junk 1000

/-- `SocketBuffer_initialize`. -/
def initial (junk : ℕ → UInt8) : SocketBuffer := ⟨newDefQ junk, [], junk⟩

variable (b : SocketBuffer) (socket : ℤ)

/-- `ListFindItem` with `socketcompare`: the queue of a socket. -/
def queue : Option SocketQueue := Keyed.find SocketQueue.socket socket b.queues

/-- The queue the calls for a socket work on. -/
def current : SocketQueue := (b.queue socket).getD b.defQueue

/-- A write to the queue the calls for a socket work on. -/
def modify (f : SocketQueue → SocketQueue) : SocketBuffer :=
  if (b.queue socket).isSome then
    { b with queues := Keyed.update SocketQueue.socket socket f b.queues }
  else { b with defQueue := f b.defQueue }

/-- The memory of a queue for `bytes` bytes of data. A queue that holds data
    gets a new block, to which the data is not copied: the old block is freed
    first, and the new one copied onto itself. -/
def resize (junk : ℕ → UInt8) (bytes : ℕ) (q : SocketQueue) : SocketQueue :=
  if bytes > q.buflen then
    if q.datalen > 0 then { q with buf := malloc junk bytes, buflen := bytes }
    else { q with buf := realloc junk q.buf bytes, buflen := bytes }
  else q

/-- `SocketBuffer_getQueuedData`: how much data is there (`*actual_len`), and
    the memory for all of it. -/
def getQueuedData (bytes : ℕ) : ℕ × SocketBuffer :=
  match b.queue socket with
  | some q => (q.datalen, b.modify socket (resize b.junk bytes))
  | none => (0, b.modify socket (resize b.junk bytes))

/-- The completion codes of socket operations. -/
inductive Completion (α : Type)
  /-- `TCPSOCKET_COMPLETE`, and what was read. -/
  | complete (a : α)
  /-- `TCPSOCKET_INTERRUPTED`. -/
  | interrupted
  /-- `SOCKET_ERROR`. -/
  | socketError
  deriving DecidableEq, Repr

/-- `SocketBuffer_getQueuedChar`. -/
def getQueuedChar : Completion UInt8 × SocketBuffer :=
  match b.queue socket with
  | some q =>
    if q.index < q.headerlen then
      (.complete (q.fixedHeader.getD q.index 0),
        b.modify socket fun q => { q with index := q.index + 1 })
    else if q.index > 4 then (.socketError, b)
    else (.interrupted, b)
  | none => (.interrupted, b)

/-- `SocketBuffer_interrupted`. -/
def interrupted (actualLen : ℕ) : SocketBuffer :=
  match b.queue socket with
  | some _ => b.modify socket fun q => { q with index := 0, datalen := actualLen }
  | none =>
    { b with
      queues := b.queues ++ [{ b.defQueue with socket := socket, index := 0, datalen := actualLen }]
      defQueue := newDefQ b.junk }

/-- `SocketBuffer_complete`: the queue of the socket becomes the default queue. -/
def complete : SocketBuffer :=
  match b.queue socket with
  | some q =>
    { b with defQueue := q.reset, queues := Keyed.remove SocketQueue.socket socket b.queues }
  | none => { b with defQueue := b.defQueue.reset }

/-- The write of `SocketBuffer_queueChar`, if the header is not full. -/
def putChar (c : UInt8) (q : SocketQueue) : SocketQueue :=
  if q.index > 4 then q
  else { q with fixedHeader := q.fixedHeader.set q.index c, index := q.index + 1,
                headerlen := q.index + 1 }

/-- `SocketBuffer_queueChar`. -/
def queueChar (c : UInt8) : SocketBuffer :=
  if (b.queue socket).isSome then b.modify socket (putChar c)
  else if b.defQueue.socket = 0 then
    { b with defQueue := putChar c { b.defQueue with socket := socket, index := 0, datalen := 0 } }
  else if b.defQueue.socket ≠ socket then b
  else { b with defQueue := putChar c b.defQueue }

/-- `SocketBuffer_cleanup`, for what has been read. -/
def cleanup : SocketBuffer :=
  { b with
    queues := Keyed.remove SocketQueue.socket socket b.queues
    defQueue := if b.defQueue.socket = socket then b.defQueue.reset else b.defQueue }

variable {b} {socket} {t : ℤ} {f : SocketQueue → SocketQueue}

/-! ## What the calls do to the queues -/

/-- The queue of a socket is the one that is written to. -/
theorem queue_modify (hf : ∀ q, (f q).socket = q.socket) :
    (b.modify socket f).queue t = if t = socket then (b.queue t).map f else b.queue t := by
  rw [modify]
  split_ifs with hsome ht ht
  · exact (Keyed.find_update fun q => (hf q).trans).trans (if_pos ht)
  · exact (Keyed.find_update fun q => (hf q).trans).trans (if_neg ht)
  · subst ht
    have hnone : b.queue t = none := by simpa using hsome
    change b.queue t = (b.queue t).map f
    rw [hnone, Option.map_none]
  · rfl

theorem current_modify (hf : ∀ q, (f q).socket = q.socket) :
    (b.modify socket f).current socket = f (b.current socket) := by
  rw [current, queue_modify hf, if_pos rfl, current]
  cases h : b.queue socket with
  | some q => rfl
  | none => simp [modify, h]

@[simp]
theorem junk_modify : (b.modify socket f).junk = b.junk := by
  rw [modify]
  split_ifs <;> rfl

theorem map_socket_modify (hf : ∀ q, (f q).socket = q.socket) :
    (b.modify socket f).queues.map SocketQueue.socket = b.queues.map SocketQueue.socket := by
  rw [modify]
  split_ifs
  · exact Keyed.map_update fun q => (hf q).trans
  · rfl

theorem defQueue_modify (h : (b.queue socket).isSome) : (b.modify socket f).defQueue = b.defQueue := by
  rw [modify, if_pos h]

/-! ## Between the calls -/

/-- The buffer between the calls. -/
structure Tidy (b : SocketBuffer) : Prop where
  clean : b.defQueue.Clean
  sized : b.defQueue.Sized
  nodup : (b.queues.map SocketQueue.socket).Nodup
  index : ∀ t q, b.queue t = some q → q.index = 0
  queue_sized : ∀ t q, b.queue t = some q → q.Sized

theorem sized_newDefQ (junk : ℕ → UInt8) : (newDefQ junk).Sized where
  fixedHeader := length_malloc
  headerlen := Nat.zero_le 5
  buflen := Nat.zero_le _
  datalen := Nat.zero_le _

theorem tidy_initial (junk : ℕ → UInt8) : (initial junk).Tidy where
  clean := ⟨rfl, rfl, rfl, rfl⟩
  sized := sized_newDefQ junk
  nodup := List.nodup_nil
  index := nofun
  queue_sized := nofun

/-- The bytes kept of a packet that has not been read to its end. -/
def pending (b : SocketBuffer) (t : ℤ) : List UInt8 :=
  ((b.queue t).map fun q => q.header ++ q.data).getD []

theorem pending_of_some {q : SocketQueue} (h : b.queue t = some q) :
    b.pending t = q.header ++ q.data := by
  simp [pending, h]

theorem pending_of_none (h : b.queue t = none) : b.pending t = [] := by simp [pending, h]

/-- The other sockets keep their queues when a call for one of them ends. -/
theorem pending_congr {b' : SocketBuffer} (h : b'.queue t = b.queue t) :
    b'.pending t = b.pending t := by
  rw [pending, pending, h]

/-! ## In a call -/

/-- A call for `socket` that started with the buffer `b₀`: of the packet, the
    bytes `done` of the header have been taken in this call, `saved` are those
    of the header still saved from an earlier one, and `dt` is the data saved,
    of `len` bytes that it will be. -/
structure Reading (b₀ b : SocketBuffer) (socket : ℤ) (len : ℕ) (done saved dt : List UInt8) :
    Prop where
  others : ∀ t, t ≠ socket → b.queue t = b₀.queue t
  nodup : (b.queues.map SocketQueue.socket).Nodup
  clean : (b.queue socket).isSome → b.defQueue.Clean ∧ b.defQueue.Sized
  sized : (b.current socket).Sized
  header_eq : (b.current socket).header = done ++ saved
  index_eq : (b.current socket).index = done.length
  data_eq : (b.current socket).data = dt
  room : dt ≠ [] → len ≤ (b.current socket).buflen
  fresh : b.queue socket = none → saved = [] ∧ dt = [] ∧
    ((b.current socket).socket = socket ∨ (b.current socket).socket = 0 ∧ done = [])

variable {b₀ : SocketBuffer} {done saved dt done' saved' dt' : List UInt8} {c : UInt8} {n len : ℕ}

theorem Reading.headerlen_eq (h : Reading b₀ b socket len done saved dt) :
    (b.current socket).headerlen = done.length + saved.length := by
  have hlen := congrArg List.length h.header_eq
  rw [SocketQueue.header, List.length_take, h.sized.fixedHeader,
    min_eq_left h.sized.headerlen] at hlen
  simpa using hlen

theorem Reading.datalen_eq (h : Reading b₀ b socket len done saved dt) :
    (b.current socket).datalen = dt.length := by
  rw [← h.data_eq, SocketQueue.data, List.length_take, min_eq_left h.sized.datalen]

/-- A call starts with what was kept. -/
theorem Tidy.reading (h : b.Tidy) (socket : ℤ) (len : ℕ)
    (hroom : (b.current socket).data ≠ [] → len ≤ (b.current socket).buflen) :
    Reading b b socket len [] (b.current socket).header (b.current socket).data := by
  constructor
  · exact fun _ _ => rfl
  · exact h.nodup
  · exact fun _ => ⟨h.clean, h.sized⟩
  · rw [current]
    cases hq : b.queue socket with
    | none => exact h.sized
    | some q => exact h.queue_sized _ _ hq
  · rfl
  · rw [current]
    cases hq : b.queue socket with
    | none => exact h.clean.index
    | some q => exact h.index _ _ hq
  · rfl
  · exact hroom
  · intro hq
    rw [current, hq]
    exact ⟨h.clean.header_eq, h.clean.data_eq, .inr ⟨h.clean.socket, rfl⟩⟩

theorem Tidy.pending_eq (h : b.Tidy) (socket : ℤ) :
    b.pending socket = (b.current socket).header ++ (b.current socket).data := by
  rw [current]
  cases hq : b.queue socket with
  | none =>
    rw [pending_of_none hq, Option.getD_none, h.clean.header_eq, h.clean.data_eq, List.append_nil]
  | some q => exact pending_of_some hq

/-- A write to the queue in use. -/
theorem Reading.modify (h : Reading b₀ b socket len done saved dt)
    (hf : ∀ q, (f q).socket = q.socket) (hsized : (f (b.current socket)).Sized)
    (hheader : (f (b.current socket)).header = done' ++ saved')
    (hindex : (f (b.current socket)).index = done'.length)
    (hdata : (f (b.current socket)).data = dt')
    (hroom : dt' ≠ [] → len ≤ (f (b.current socket)).buflen)
    (hfresh : b.queue socket = none → saved' = [] ∧ dt' = [] ∧
      ((b.current socket).socket = socket ∨ (b.current socket).socket = 0 ∧ done' = [])) :
    Reading b₀ (b.modify socket f) socket len done' saved' dt' := by
  have hcur : (b.modify socket f).current socket = f (b.current socket) := current_modify hf
  constructor
  · intro t ht
    rw [queue_modify hf, if_neg ht, h.others t ht]
  · rw [map_socket_modify hf]
    exact h.nodup
  · intro hsome
    have hsome' : (b.queue socket).isSome := by simpa [queue_modify hf] using hsome
    rw [defQueue_modify hsome']
    exact h.clean hsome'
  · rwa [hcur]
  · rwa [hcur]
  · rwa [hcur]
  · rwa [hcur]
  · rwa [hcur]
  · intro hnone
    rw [hcur, hf]
    exact hfresh (by simpa [queue_modify hf] using hnone)

/-- A saved byte of the header is taken. -/
theorem Reading.getQueuedChar_saved (h : Reading b₀ b socket len done (c :: saved) dt) :
    ∃ b', b.getQueuedChar socket = (.complete c, b') ∧
      Reading b₀ b' socket len (done ++ [c]) saved dt := by
  cases hq : b.queue socket with
  | none => nomatch (h.fresh hq).1
  | some q =>
    have hcur : b.current socket = q := by rw [current, hq, Option.getD_some]
    have hlen := h.headerlen_eq
    have hindex := h.index_eq
    have hheader := h.header_eq
    rw [hcur] at hlen hindex hheader
    rw [List.length_cons] at hlen
    have hlt : q.index < q.headerlen := by omega
    have hget : q.fixedHeader.getD q.index 0 = c := by
      have : q.header[q.index]? = some c := by simp [hheader, hindex]
      rw [SocketQueue.header, List.getElem?_take_of_lt hlt] at this
      rw [List.getD_eq_getElem?_getD, this, Option.getD_some]
    refine ⟨b.modify socket fun q => { q with index := q.index + 1 }, ?_, ?_⟩
    · simp only [getQueuedChar, hq, if_pos hlt, hget]
    · refine h.modify (fun _ => rfl) ⟨h.sized.1, h.sized.2, h.sized.3, h.sized.4⟩ ?_ ?_ h.data_eq
        h.room ?_
      · rw [List.append_assoc, List.singleton_append]
        exact h.header_eq
      · rw [List.length_append, List.length_singleton, h.index_eq]
      · intro hnone
        rw [hq] at hnone
        cases hnone

/-- No saved byte of the header is left. -/
theorem Reading.getQueuedChar_nil (h : Reading b₀ b socket len done [] dt) (hdone : done.length ≤ 4) :
    b.getQueuedChar socket = (.interrupted, b) := by
  rw [getQueuedChar]
  cases hq : b.queue socket with
  | none => rfl
  | some q =>
    have hcur : b.current socket = q := by rw [current, hq, Option.getD_some]
    have hlen := h.headerlen_eq
    have hindex := h.index_eq
    rw [hcur] at hlen hindex
    rw [List.length_nil] at hlen
    simp only
    rw [if_neg (by omega), if_neg (by omega)]

/-- The header with one more byte. -/
theorem header_putChar {q : SocketQueue} (hsized : q.Sized) (hheader : q.header = done)
    (hindex : q.index = done.length) (hdone : done.length ≤ 4) :
    (putChar c q).Sized ∧ (putChar c q).header = done ++ [c] ∧
      (putChar c q).index = (done ++ [c]).length := by
  have hfull := hsized.fixedHeader
  have hlen := congrArg List.length hheader
  rw [SocketQueue.header, List.length_take, hfull, min_eq_left hsized.headerlen] at hlen
  rw [putChar, if_neg (by omega)]
  refine ⟨⟨?_, ?_, hsized.buflen, hsized.datalen⟩, ?_, ?_⟩
  · rw [List.length_set, hfull]
  · simp only
    omega
  · simp only [SocketQueue.header]
    rw [List.take_add_one, List.take_set_of_le le_rfl, List.getElem?_set_self (by omega),
      Option.toList_some, hindex, ← hlen]
    exact congrArg (· ++ [c]) hheader
  · simp [hindex]

/-- A byte of the header that has been read is kept. -/
theorem Reading.queueChar (h : Reading b₀ b socket len done [] []) (hs : socket ≠ 0)
    (hdone : done.length ≤ 4) (c : UInt8) :
    Reading b₀ (b.queueChar socket c) socket len (done ++ [c]) [] [] := by
  have hheader : (b.current socket).header = done := by simpa using h.header_eq
  rw [SocketBuffer.queueChar]
  cases hq : b.queue socket with
  | some q =>
    obtain ⟨hsized, hput, hindex⟩ := header_putChar (c := c) h.sized hheader h.index_eq hdone
    rw [if_pos Option.isSome_some]
    refine h.modify ?_ hsized (by rw [hput, List.append_nil]) hindex ?_ (absurd rfl) ?_
    · intro q
      rw [putChar]
      split_ifs <;> rfl
    · rw [putChar, if_neg (by rw [h.index_eq]; omega)]
      exact h.data_eq
    · intro hnone
      rw [hq] at hnone
      cases hnone
  | none =>
    -- The default queue is in use: it is the socket's from its first byte on.
    have hcur : b.current socket = b.defQueue := by rw [current, hq, Option.getD_none]
    have key : ∀ q : SocketQueue, q.Sized → q.header = done → q.index = done.length →
        q.data = [] → q.socket = socket →
        Reading b₀ { b with defQueue := putChar c q } socket len (done ++ [c]) [] [] := by
      intro q hsized hheader hindex hdata hsocket
      obtain ⟨hsized', hput, hindex'⟩ := header_putChar (c := c) hsized hheader hindex hdone
      have hcur' : SocketBuffer.current { b with defQueue := putChar c q } socket = putChar c q := by
        change (b.queue socket).getD (putChar c q) = _
        rw [hq, Option.getD_none]
      refine ⟨h.others, h.nodup, ?_, ?_, ?_, ?_, ?_, absurd rfl, ?_⟩
      · intro hsome
        change (b.queue socket).isSome at hsome
        rw [hq] at hsome
        cases hsome
      · rwa [hcur']
      · rw [hcur', hput, List.append_nil]
      · rw [hcur', hindex']
      · rw [hcur', putChar, if_neg (by omega)]
        exact hdata
      · intro _
        refine ⟨rfl, rfl, .inl ?_⟩
        rw [hcur', putChar, if_neg (by omega)]
        exact hsocket
    rw [if_neg (by simp)]
    obtain ⟨-, -, hsocket⟩ := h.fresh hq
    have hsized := h.sized
    have hindex := h.index_eq
    have hdata := h.data_eq
    rw [hcur] at hsocket hheader hsized hindex hdata
    by_cases hzero : b.defQueue.socket = 0
    · rw [if_pos hzero]
      refine key _ ⟨hsized.1, hsized.2, hsized.3, Nat.zero_le _⟩ hheader ?_ ?_ rfl
      · rcases hsocket with hs' | ⟨-, rfl⟩
        · exact absurd (hs'.symm.trans hzero) hs
        · rfl
      · rfl
    · rcases hsocket with hs' | ⟨hs', -⟩
      · rw [if_neg hzero, if_neg (not_not.2 hs')]
        exact key _ hsized hheader hindex hdata hs'
      · exact absurd hs' hzero

/-- A queue is made large enough without losing its data. -/
theorem resize_spec {q : SocketQueue} (junk : ℕ → UInt8) (h : q.Sized)
    (hroom : q.datalen > 0 → n ≤ q.buflen) :
    (resize junk n q).Sized ∧ (resize junk n q).data = q.data ∧ n ≤ (resize junk n q).buflen := by
  rw [resize]
  split_ifs with hn hdata
  · exact absurd (hroom hdata) hn.not_ge
  · have hlen : (realloc junk q.buf n).length = n := by
      rw [realloc, List.length_append, List.length_take, length_malloc]
      omega
    have hzero : q.datalen = 0 := by omega
    refine ⟨⟨h.fixedHeader, h.headerlen, hlen.ge, ?_⟩, ?_, le_rfl⟩
    · simp [hzero]
    · simp [SocketQueue.data, hzero]
  · exact ⟨h, rfl, by omega⟩

/-- The memory for the data, with what has been read of it. -/
theorem Reading.getQueuedData (h : Reading b₀ b socket n done [] dt) :
    ∃ b', b.getQueuedData socket n = (dt.length, b') ∧ Reading b₀ b' socket n done [] dt ∧
      n ≤ (b'.current socket).buflen := by
  have hroom : (b.current socket).datalen > 0 → n ≤ (b.current socket).buflen := by
    intro hpos
    rw [h.datalen_eq] at hpos
    exact h.room (List.ne_nil_of_length_pos hpos)
  have hf : ∀ q, (resize b.junk n q).socket = q.socket := by
    intro q
    rw [resize]
    split_ifs <;> rfl
  obtain ⟨hsized, hdata, hbuflen⟩ := resize_spec b.junk h.sized hroom
  refine ⟨b.modify socket (resize b.junk n), ?_, ?_, ?_⟩
  · have hlen := h.datalen_eq
    rw [SocketBuffer.getQueuedData]
    cases hq : b.queue socket with
    | some q =>
      rw [current, hq, Option.getD_some] at hlen
      simp only [hlen]
    | none => rw [(h.fresh hq).2.1, List.length_nil]
  · refine h.modify hf hsized ?_ ?_ (hdata.trans h.data_eq) (fun _ => hbuflen) h.fresh
    · rw [← h.header_eq, resize]
      split_ifs <;> rfl
    · rw [← h.index_eq, resize]
      split_ifs <;> rfl
  · rw [current_modify hf]
    exact hbuflen

/-! ## The end of a call -/

/-- What a call for a socket leaves: the other sockets keep their queues. -/
structure Leaves (b₀ b : SocketBuffer) (socket : ℤ) (q : Option SocketQueue) : Prop where
  tidy : b.Tidy
  queue : b.queue socket = q
  others : ∀ t, t ≠ socket → b.queue t = b₀.queue t

/-- A buffer is tidy again once the queue of the socket is. -/
theorem leaves_of_queue {q : Option SocketQueue} (h₀ : b₀.Tidy) (hclean : b.defQueue.Clean)
    (hsized : b.defQueue.Sized) (hnodup : (b.queues.map SocketQueue.socket).Nodup)
    (hqueue : ∀ t, b.queue t = if t = socket then q else b₀.queue t)
    (hq : ∀ q' ∈ q, q'.index = 0 ∧ q'.Sized) : Leaves b₀ b socket q := by
  refine ⟨⟨hclean, hsized, hnodup, ?_, ?_⟩, ?_, ?_⟩
  · intro t q' hq'
    rw [hqueue] at hq'
    split_ifs at hq'
    · exact (hq q' hq').1
    · exact h₀.index t q' hq'
  · intro t q' hq'
    rw [hqueue] at hq'
    split_ifs at hq'
    · exact (hq q' hq').2
    · exact h₀.queue_sized t q' hq'
  · rw [hqueue, if_pos rfl]
  · intro t ht
    rw [hqueue, if_neg ht]

/-- A read that did not get to the end of the packet. -/
theorem Reading.interrupted (h : Reading b₀ b socket len done saved dt) (h₀ : b₀.Tidy)
    (hn : n ≤ (b.current socket).buf.length) : Leaves b₀ (b.interrupted socket n) socket
      (some { b.current socket with socket := socket, index := 0, datalen := n }) := by
  have hsized : SocketQueue.Sized
      { b.current socket with socket := socket, index := 0, datalen := n } :=
    ⟨h.sized.1, h.sized.2, h.sized.3, hn⟩
  rw [SocketBuffer.interrupted]
  cases hq : b.queue socket with
  | some q =>
    have hcur : b.current socket = q := by rw [current, hq, Option.getD_some]
    have hf : ∀ q : SocketQueue, { q with index := 0, datalen := n }.socket = q.socket := fun _ => rfl
    have hdef : (b.modify socket fun q => { q with index := 0, datalen := n }).defQueue = b.defQueue :=
      defQueue_modify (by rw [hq, Option.isSome_some])
    obtain ⟨hclean, hsized'⟩ := h.clean (by rw [hq, Option.isSome_some])
    refine leaves_of_queue h₀ (hdef ▸ hclean) (hdef ▸ hsized') ?_ ?_ ?_
    · rw [map_socket_modify hf]
      exact h.nodup
    · intro t
      rw [queue_modify hf]
      split_ifs with ht
      · rw [ht, hq, Option.map_some, hcur, ← Keyed.key_of_find hq]
      · exact h.others t ht
    · rintro q' ⟨⟩
      exact ⟨rfl, hsized⟩
  | none =>
    -- The default queue becomes the queue of the socket.
    have hcur : b.current socket = b.defQueue := by rw [current, hq, Option.getD_none]
    rw [hcur] at hsized ⊢
    set q : SocketQueue := { b.defQueue with socket := socket, index := 0, datalen := n }
    have hq' : Keyed.find SocketQueue.socket q.socket b.queues = none := hq
    refine leaves_of_queue h₀ ⟨rfl, rfl, rfl, rfl⟩ (sized_newDefQ _) ?_ ?_ ?_
    · exact Keyed.nodup_snoc hq' h.nodup
    · intro t
      refine (Keyed.find_snoc hq').trans ?_
      split_ifs with ht
      · rfl
      · exact h.others t ht
    · rintro q' ⟨⟩
      exact ⟨rfl, hsized⟩

/-- A read that got to the end of the packet: the memory of its data is the default queue's. -/
theorem Reading.complete (h : Reading b₀ b socket len done saved dt) (h₀ : b₀.Tidy) :
    Leaves b₀ (b.complete socket) socket none ∧
      (b.complete socket).defQueue = (b.current socket).reset := by
  rw [SocketBuffer.complete]
  cases hq : b.queue socket with
  | some q =>
    have hcur : b.current socket = q := by rw [current, hq, Option.getD_some]
    refine ⟨leaves_of_queue h₀ (SocketQueue.clean_reset q) ?_ ?_ ?_ nofun, by rw [hcur]⟩
    · rw [← hcur]
      exact h.sized.reset
    · exact Keyed.nodup_remove h.nodup
    · intro t
      refine (Keyed.find_remove h.nodup).trans ?_
      split_ifs with ht
      · rfl
      · exact h.others t ht
  | none =>
    have hcur : b.current socket = b.defQueue := by rw [current, hq, Option.getD_none]
    refine ⟨leaves_of_queue h₀ (SocketQueue.clean_reset _) ?_ h.nodup ?_ nofun, by rw [hcur]⟩
    · rw [← hcur]
      exact h.sized.reset
    · intro t
      split_ifs with ht
      · rw [ht]
        exact hq
      · exact h.others t ht

/-- A socket that is closed in the middle of a call leaves nothing behind. -/
theorem Reading.cleanup (h : Reading b₀ b socket len done saved dt) (h₀ : b₀.Tidy) :
    Leaves b₀ (b.cleanup socket) socket none := by
  have hqueue : ∀ t, (b.cleanup socket).queue t = if t = socket then none else b₀.queue t := by
    intro t
    refine (Keyed.find_remove h.nodup).trans ?_
    split_ifs with ht
    · rfl
    · exact h.others t ht
  refine leaves_of_queue h₀ ?_ ?_ (Keyed.nodup_remove h.nodup) hqueue (by simp)
  · rw [SocketBuffer.cleanup]
    split_ifs with hs
    · exact SocketQueue.clean_reset _
    · cases hq : b.queue socket with
      | some q => exact (h.clean (by rw [hq, Option.isSome_some])).1
      | none =>
        -- The default queue was not used yet.
        have hcur : b.current socket = b.defQueue := by rw [current, hq, Option.getD_none]
        obtain ⟨rfl, rfl, hsocket⟩ := h.fresh hq
        have hlen := h.headerlen_eq
        have hindex := h.index_eq
        have hdata := h.datalen_eq
        rw [hcur] at hsocket hlen hindex hdata
        obtain hs' | ⟨hs', rfl⟩ := hsocket
        · exact absurd hs' hs
        · exact ⟨hs', hindex, hlen, hdata⟩
  · have hdef : b.defQueue.Sized := by
      cases hq : b.queue socket with
      | some q => exact (h.clean (by rw [hq, Option.isSome_some])).2
      | none =>
        have hsized := h.sized
        rwa [current, hq, Option.getD_none] at hsized
    rw [SocketBuffer.cleanup]
    split_ifs
    · exact hdef.reset
    · exact hdef

/-- A socket that is closed between the calls leaves nothing behind. -/
theorem Tidy.leaves_cleanup (h : b.Tidy) (socket : ℤ) : Leaves b (b.cleanup socket) socket none :=
  (h.reading socket 0 fun _ => Nat.zero_le _).cleanup h

/-- The queues are as they were. -/
theorem Tidy.leaves_self (h : b.Tidy) (socket : ℤ) : Leaves b b socket (b.queue socket) :=
  ⟨h, rfl, fun _ _ => rfl⟩

end SocketBuffer

end Cmqtt
