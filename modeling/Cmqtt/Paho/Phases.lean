import Cmqtt.Paho.Protocol

/-!
# The phases of an exchange

What there is of the exchanges of messages with one identifier, between the end
that publishes them and the other one, on its own: the messages the two ends keep,
and the packets on their way there and back. At any time an exchange is in one of
a few phases (`Phase`), and at most one packet of it is on its way, in either
direction (`Flight`).

For every thing that can happen to an exchange there is a lemma that says which
phase it leads to. What follows from the phases is in `Phase.guarantees` and
`Phase.kept`.
-/

namespace Cmqtt

/-- What a message says, wherever it is. -/
structure Content where
  qos : ℕ
  retain : Bool
  topic : List UInt8
  payload : List UInt8
  deriving DecidableEq, Repr

/-- The content of a message on its way. -/
def Messages.content (m : Messages) : Content := ⟨m.qos, m.retain, m.topic, m.payload⟩

/-- The content of a message in a packet. -/
def Publish.content (p : Publish) : Content := ⟨p.header.qos, p.header.retain, p.topic, p.payload⟩

/-- What a packet is to the exchange of a message. -/
inductive Token
  | publish (c : Content)
  | puback
  | pubrec
  | pubrel
  | pubcomp
  deriving DecidableEq

/-- Whether it goes the way of the message, or comes back. -/
def Token.forward : Token → Bool
  | publish _ => true
  | pubrel => true
  | puback => false
  | pubrec => false
  | pubcomp => false

/-- What there is of the exchanges with one identifier: the messages at the end
    that publishes them and at the other one, the packets on their way there and
    back, and what has become of the messages. -/
@[ext]
structure View where
  out : Option Messages
  inb : Option Messages
  fwd : List Token
  bwd : List Token
  started : List Content
  processed : List Content
  completed : List Content

/-- The exchanges that are over: a message that was acknowledged has been processed,
    and a message of quality 2 not more than once. -/
inductive History (clean : Bool) : List Content → List Content → List Content → Prop
  | nil : History clean [] [] []
  | completed {S P C : List Content} {c : Content} {n : ℕ} : History clean S P C → 0 < n →
      (c.qos = 2 → n = 1) → History clean (S ++ [c]) (P ++ .replicate n c) (C ++ [c])
  /-- The message was forgotten, at both ends. -/
  | forgotten {S P C : List Content} {c : Content} {n : ℕ} : History clean S P C → clean = true →
      (c.qos = 2 → n ≤ 1) → History clean (S ++ [c]) (P ++ .replicate n c) C

/-- At most one packet is on its way: `x` there, or `y` back. -/
inductive Flight (x y : Token) : List Token → List Token → Prop
  | none : Flight x y [] []
  | there : Flight x y [x] []
  | back : Flight x y [] [y]

/-- The phases of an exchange. -/
inductive Phase (clean : Bool) : View → Prop
  | idle {S P C : List Content} : History clean S P C → Phase clean ⟨none, none, [], [], S, P, C⟩
  /-- A message of quality 1: it is processed whenever it arrives. -/
  | once {S P C : List Content} {m : Messages} {f b : List Token} {n : ℕ} : History clean S P C →
      m.qos = 1 → Flight (.publish m.content) .puback f b → (b ≠ [] → 0 < n) →
      Phase clean ⟨some m, none, f, b, S ++ [m.content], P ++ .replicate n m.content, C⟩
  /-- A message of quality 2 that has not arrived. -/
  | sent {S P C : List Content} {m : Messages} {f : List Token} : History clean S P C →
      m.qos = 2 → m.nextMessageType = some .pubrec → Flight (.publish m.content) .pubrec f [] →
      Phase clean ⟨some m, none, f, [], S ++ [m.content], P, C⟩
  /-- It has arrived, and this is not known where it came from. -/
  | stored {S P C : List Content} {m r : Messages} {f b : List Token} : History clean S P C →
      m.qos = 2 → m.nextMessageType = some .pubrec → r.content = m.content →
      r.nextMessageType = some .pubrel → Flight (.publish m.content) .pubrec f b →
      Phase clean ⟨some m, some r, f, b, S ++ [m.content], P, C⟩
  /-- It has not been released yet. -/
  | released {S P C : List Content} {m r : Messages} {f : List Token} : History clean S P C →
      m.qos = 2 → m.nextMessageType = some .pubcomp → r.content = m.content →
      r.nextMessageType = some .pubrel → Flight .pubrel .pubcomp f [] →
      Phase clean ⟨some m, some r, f, [], S ++ [m.content], P, C⟩
  /-- It has been processed, and this is not known where it came from. -/
  | done {S P C : List Content} {m : Messages} {f b : List Token} : History clean S P C →
      m.qos = 2 → m.nextMessageType = some .pubcomp → Flight .pubrel .pubcomp f b →
      Phase clean ⟨some m, none, f, b, S ++ [m.content], P ++ [m.content], C⟩

variable {clean : Bool} {v : View} {m r : Messages} {c : Content} {f b w : List Token} {x y : Token}

theorem Flight.of_mem (h : w = [] ∨ w = [x]) : Flight x y w [] := by
  obtain rfl | rfl := h
  · exact .none
  · exact .there

theorem Flight.of_mem_back (h : w = [] ∨ w = [y]) : Flight x y [] w := by
  obtain rfl | rfl := h
  · exact .none
  · exact .back

theorem Phase.start (h : Phase clean v) (hout : v.out = none) (hw : w = [] ∨ w = [.publish m.content])
    (hm : m.qos = 1 ∨ m.qos = 2 ∧ m.nextMessageType = some .pubrec) :
    Phase clean { v with
      out := some m, fwd := v.fwd ++ w, started := v.started ++ [m.content] } := by
  cases h with
  | idle hist =>
    obtain hqos | ⟨hqos, hnext⟩ := hm
    · have := Phase.once (n := 0) hist hqos (.of_mem hw) (by simp)
      rwa [List.replicate_zero, List.append_nil] at this
    · exact .sent hist hqos hnext (.of_mem hw)
  | _ => cases hout

/-- The packet that is on its way there is the only one. -/
theorem Flight.of_cons {g : List Token} {z : Token} (h : Flight x y g b) (hg : g = z :: f) :
    z = x ∧ f = [] ∧ b = [] := by
  cases h with
  | there =>
    obtain ⟨rfl, rfl⟩ := List.cons.inj hg
    exact ⟨rfl, rfl, rfl⟩
  | none => cases hg
  | back => cases hg

/-- The packet that is on its way back is the only one. -/
theorem Flight.of_cons_back {g : List Token} {z : Token} (h : Flight x y f g) (hg : g = z :: b) :
    z = y ∧ f = [] ∧ b = [] := by
  cases h with
  | back =>
    obtain ⟨rfl, rfl⟩ := List.cons.inj hg
    exact ⟨rfl, rfl, rfl⟩
  | none => cases hg
  | there => cases hg

/-- A packet that was on its way there is not answered. -/
theorem Phase.dropped (h : Phase clean v) (hfwd : v.fwd = x :: f) :
    Phase clean { v with fwd := f } := by
  cases h with
  | idle => cases hfwd
  | once hist hqos hf hn =>
    obtain ⟨-, rfl, rfl⟩ := hf.of_cons hfwd
    exact .once hist hqos .none hn
  | sent hist hqos hnext hf =>
    obtain ⟨-, rfl, -⟩ := hf.of_cons hfwd
    exact .sent hist hqos hnext .none
  | stored hist hqos hnext hr hr' hf =>
    obtain ⟨-, rfl, rfl⟩ := hf.of_cons hfwd
    exact .stored hist hqos hnext hr hr' .none
  | released hist hqos hnext hr hr' hf =>
    obtain ⟨-, rfl, -⟩ := hf.of_cons hfwd
    exact .released hist hqos hnext hr hr' .none
  | done hist hqos hnext hf =>
    obtain ⟨-, rfl, rfl⟩ := hf.of_cons hfwd
    exact .done hist hqos hnext .none

/-- A message of quality 1 is processed. -/
theorem Phase.process (h : Phase clean v) (hfwd : v.fwd = .publish c :: f) (hc : c.qos = 1)
    (hw : w = [] ∨ w = [.puback]) :
    Phase clean { v with fwd := f, bwd := v.bwd ++ w, processed := v.processed ++ [c] } := by
  cases h with
  | idle => cases hfwd
  | @once S P C m _ _ n hist hqos hf hn =>
    obtain ⟨hx, rfl, rfl⟩ := hf.of_cons hfwd
    obtain rfl := Token.publish.inj hx
    have := Phase.once (n := n + 1) hist hqos (.of_mem_back hw) fun _ => Nat.succ_pos n
    rwa [List.replicate_succ', ← List.append_assoc] at this
  | sent hist hqos hnext hf =>
    obtain ⟨hx, -, -⟩ := hf.of_cons hfwd
    obtain rfl := Token.publish.inj hx
    exact absurd (hqos.symm.trans hc) (by decide)
  | stored hist hqos hnext hr hr' hf =>
    obtain ⟨hx, -, -⟩ := hf.of_cons hfwd
    obtain rfl := Token.publish.inj hx
    exact absurd (hqos.symm.trans hc) (by decide)
  | released hist hqos hnext hr hr' hf => cases (hf.of_cons hfwd).1
  | done hist hqos hnext hf => cases (hf.of_cons hfwd).1

/-- A message of quality 2 is stored. -/
theorem Phase.store (h : Phase clean v) (hfwd : v.fwd = .publish c :: f) (hc : c.qos = 2)
    (hr : r.content = c) (hnext : r.nextMessageType = some .pubrel)
    (hw : w = [] ∨ w = [.pubrec]) :
    Phase clean { v with inb := some r, fwd := f, bwd := v.bwd ++ w } := by
  cases h with
  | idle => cases hfwd
  | once hist hqos hf hn =>
    obtain ⟨hx, -, -⟩ := hf.of_cons hfwd
    obtain rfl := Token.publish.inj hx
    exact absurd (hqos.symm.trans hc) (by decide)
  | sent hist hqos hnext' hf =>
    obtain ⟨hx, rfl, -⟩ := hf.of_cons hfwd
    obtain rfl := Token.publish.inj hx
    exact .stored hist hqos hnext' hr hnext (.of_mem_back hw)
  | stored hist hqos hnext' _ _ hf =>
    obtain ⟨hx, rfl, rfl⟩ := hf.of_cons hfwd
    obtain rfl := Token.publish.inj hx
    exact .stored hist hqos hnext' hr hnext (.of_mem_back hw)
  | released hist hqos hnext hr hr' hf => cases (hf.of_cons hfwd).1
  | done hist hqos hnext hf => cases (hf.of_cons hfwd).1

/-- A message is released that has been released before. -/
theorem Phase.again (h : Phase clean v) (hfwd : v.fwd = .pubrel :: f) (hinb : v.inb = none)
    (hw : w = [] ∨ w = [.pubcomp]) : Phase clean { v with fwd := f, bwd := v.bwd ++ w } := by
  cases h with
  | idle => cases hfwd
  | once hist hqos hf hn => cases (hf.of_cons hfwd).1
  | sent hist hqos hnext hf => cases (hf.of_cons hfwd).1
  | stored hist hqos hnext hr hr' hf => cases hinb
  | released hist hqos hnext hr hr' hf => cases hinb
  | done hist hqos hnext hf =>
    obtain ⟨-, rfl, rfl⟩ := hf.of_cons hfwd
    exact .done hist hqos hnext (.of_mem_back hw)

/-- A message of quality 2 is released, and processed. -/
theorem Phase.release (h : Phase clean v) (hfwd : v.fwd = .pubrel :: f) (hinb : v.inb = some r) :
    r.qos = 2 ∧ r.nextMessageType = some .pubrel ∧ ∀ w, w = [] ∨ w = [.pubcomp] →
      Phase clean { v with
        inb := none, fwd := f, bwd := v.bwd ++ w, processed := v.processed ++ [r.content] } := by
  cases h with
  | idle => cases hfwd
  | once hist hqos hf hn => cases hinb
  | sent hist hqos hnext hf => cases hinb
  | stored hist hqos hnext hr hr' hf => cases (hf.of_cons hfwd).1
  | released hist hqos hnext hr hr' hf =>
    obtain ⟨-, rfl, -⟩ := hf.of_cons hfwd
    obtain rfl := Option.some.inj hinb
    refine ⟨(congrArg Content.qos hr).trans hqos, hr', fun w hw => ?_⟩
    rw [hr]
    exact .done hist hqos hnext (.of_mem_back hw)
  | done hist hqos hnext hf => cases hinb

/-- A message of quality 1 is acknowledged. -/
theorem Phase.puback (h : Phase clean v) (hbwd : v.bwd = .puback :: b) :
    ∃ m, v.out = some m ∧ m.qos = 1 ∧
      Phase clean { v with out := none, bwd := b, completed := v.completed ++ [m.content] } := by
  cases h with
  | idle => cases hbwd
  | once hist hqos hf hn =>
    obtain ⟨-, rfl, rfl⟩ := hf.of_cons_back hbwd
    have hpos := hn (ne_of_eq_of_ne hbwd (List.cons_ne_nil _ _))
    refine ⟨_, rfl, hqos, .idle (hist.completed hpos fun hc => ?_)⟩
    exact absurd (hqos.symm.trans hc) (by decide)
  | sent hist hqos hnext hf => cases hbwd
  | stored hist hqos hnext hr hr' hf => cases (hf.of_cons_back hbwd).1
  | released hist hqos hnext hr hr' hf => cases hbwd
  | done hist hqos hnext hf => cases (hf.of_cons_back hbwd).1

/-- A message of quality 2 has arrived. -/
theorem Phase.pubrec (h : Phase clean v) (hbwd : v.bwd = .pubrec :: b) :
    ∃ m, v.out = some m ∧ m.qos = 2 ∧ m.nextMessageType = some .pubrec ∧
      ∀ w, w = [] ∨ w = [.pubrel] → Phase clean { v with
        out := some { m with nextMessageType := some .pubcomp }, fwd := v.fwd ++ w, bwd := b } := by
  cases h with
  | idle => cases hbwd
  | once hist hqos hf hn => cases (hf.of_cons_back hbwd).1
  | sent hist hqos hnext hf => cases hbwd
  | @stored _ _ _ m _ _ _ hist hqos hnext hr hr' hf =>
    obtain ⟨-, rfl, rfl⟩ := hf.of_cons_back hbwd
    exact ⟨_, rfl, hqos, hnext, fun w hw =>
      .released (m := { m with nextMessageType := some .pubcomp }) hist hqos rfl hr hr' (.of_mem hw)⟩
  | released hist hqos hnext hr hr' hf => cases hbwd
  | done hist hqos hnext hf => cases (hf.of_cons_back hbwd).1

/-- A message of quality 2 has been processed. -/
theorem Phase.pubcomp (h : Phase clean v) (hbwd : v.bwd = .pubcomp :: b) :
    ∃ m, v.out = some m ∧ m.qos = 2 ∧ m.nextMessageType = some .pubcomp ∧
      Phase clean { v with out := none, bwd := b, completed := v.completed ++ [m.content] } := by
  cases h with
  | idle => cases hbwd
  | once hist hqos hf hn => cases (hf.of_cons_back hbwd).1
  | sent hist hqos hnext hf => cases hbwd
  | stored hist hqos hnext hr hr' hf => cases (hf.of_cons_back hbwd).1
  | released hist hqos hnext hr hr' hf => cases hbwd
  | done hist hqos hnext hf =>
    obtain ⟨-, rfl, rfl⟩ := hf.of_cons_back hbwd
    exact ⟨_, rfl, hqos, hnext, .idle (hist.completed (n := 1) Nat.one_pos fun _ => rfl)⟩

/-- The packet a message is sent again with. -/
def Messages.retryToken (m : Messages) : Token :=
  if m.qos = 1 ∨ m.nextMessageType = some .pubrec then .publish m.content else .pubrel

/-- The packets on their way are lost, and the message is sent again, or not. -/
theorem Phase.retry (h : Phase clean v)
    (hw : w = [] ∨ ∃ m, v.out = some m ∧ w = [m.retryToken]) :
    Phase clean { v with fwd := w, bwd := [] } := by
  -- Where the message awaits `PUBCOMP`, it is the release that is sent again.
  have hrel : ∀ m, v.out = some m → m.qos = 2 → m.nextMessageType = some .pubcomp →
      w = [] ∨ w = [.pubrel] := by
    intro m hout hqos hnext
    refine hw.imp_right fun ⟨m', hout', hw⟩ => ?_
    obtain rfl := Option.some.inj (hout.symm.trans hout')
    simpa [Messages.retryToken, hqos, hnext] using hw
  have hpub : ∀ m, v.out = some m → m.qos = 1 ∨ m.nextMessageType = some .pubrec →
      w = [] ∨ w = [.publish m.content] := by
    intro m hout hm
    refine hw.imp_right fun ⟨m', hout', hw⟩ => ?_
    obtain rfl := Option.some.inj (hout.symm.trans hout')
    rwa [Messages.retryToken, if_pos hm] at hw
  cases h with
  | idle hist =>
    obtain rfl | ⟨m, hout, -⟩ := hw
    · exact .idle hist
    · cases hout
  | once hist hqos hf hn => exact .once hist hqos (.of_mem (hpub _ rfl (.inl hqos))) (by simp)
  | sent hist hqos hnext hf => exact .sent hist hqos hnext (.of_mem (hpub _ rfl (.inr hnext)))
  | stored hist hqos hnext hr hr' hf =>
    exact .stored hist hqos hnext hr hr' (.of_mem (hpub _ rfl (.inr hnext)))
  | released hist hqos hnext hr hr' hf =>
    exact .released hist hqos hnext hr hr' (.of_mem (hrel _ rfl hqos hnext))
  | done hist hqos hnext hf => exact .done hist hqos hnext (.of_mem (hrel _ rfl hqos hnext))

theorem History.unprocessed {S P C : List Content} (h : History true S P C) (c : Content) :
    History true (S ++ [c]) P C := by
  have := h.forgotten (c := c) (n := 0) rfl fun _ => Nat.zero_le 1
  rwa [List.replicate_zero, List.append_nil] at this

/-- The message is forgotten at both ends. -/
theorem Phase.forget (h : Phase true v) :
    Phase true { v with out := none, inb := none, fwd := [], bwd := [] } := by
  cases h with
  | idle hist => exact .idle hist
  | once hist hqos hf hn =>
    refine .idle (hist.forgotten rfl fun hc => ?_)
    exact absurd (hqos.symm.trans hc) (by decide)
  | sent hist hqos hnext hf => exact .idle (hist.unprocessed _)
  | stored hist hqos hnext hr hr' hf => exact .idle (hist.unprocessed _)
  | released hist hqos hnext hr hr' hf => exact .idle (hist.unprocessed _)
  | done hist hqos hnext hf => exact .idle (hist.forgotten (n := 1) rfl fun _ => le_rfl)

/-! ## What follows from the phases -/

section

variable {S P C : List Content} {n : ℕ}

/-- The messages of quality 2. -/
def twos (cs : List Content) : List Content := cs.filter (·.qos = 2)

theorem twos_append (P C : List Content) : twos (P ++ C) = twos P ++ twos C :=
  List.filter_append P C

theorem twos_replicate (hc : c.qos = 2) : twos (.replicate n c) = .replicate n c :=
  List.filter_replicate_of_pos (by simpa using hc)

theorem twos_replicate_of_ne (hc : c.qos ≠ 2) : twos (.replicate n c) = [] :=
  List.filter_replicate_of_neg (by simpa using hc)

theorem sublist_twos_append (h : (twos P).Sublist (twos S)) (hn : c.qos = 2 → n ≤ 1) :
    (twos (P ++ .replicate n c)).Sublist (twos (S ++ [c])) := by
  rw [twos_append, twos_append]
  refine h.append ?_
  by_cases hc : c.qos = 2
  · have hone : twos [c] = .replicate 1 c := twos_replicate (n := 1) hc
    rw [twos_replicate hc, hone]
    exact (List.replicate_sublist_replicate c).2 (hn hc)
  · rw [twos_replicate_of_ne hc]
    exact List.nil_sublist _

/-- A message of quality 2 has not been processed more than once. -/
theorem History.sublist_started (h : History clean S P C) : (twos P).Sublist (twos S) := by
  induction h with
  | nil => exact List.Sublist.refl _
  | completed _ _ hn ih => exact sublist_twos_append ih fun hc => (hn hc).le
  | forgotten _ _ hn ih => exact sublist_twos_append ih hn

/-- A message that was acknowledged has been processed. -/
theorem History.completed_sublist (h : History clean S P C) : C.Sublist P := by
  induction h with
  | nil => exact List.Sublist.refl _
  | @completed _ _ _ c n _ hpos _ ih =>
    refine ih.append ?_
    rw [List.singleton_sublist]
    exact List.mem_replicate.2 ⟨hpos.ne', rfl⟩
  | forgotten _ _ _ ih => exact ih.trans (List.sublist_append_left _ _)

/-- Nothing has been forgotten, and what is over has been processed. -/
theorem History.of_kept (h : History false S P C) : S = C ∧ twos P = twos C := by
  induction h with
  | nil => exact ⟨rfl, rfl⟩
  | @completed _ _ _ c n _ _ hn ih =>
    refine ⟨by rw [ih.1], ?_⟩
    rw [twos_append, twos_append, ih.2]
    by_cases hc : c.qos = 2
    · rw [hn hc]
      rfl
    · have hone : twos [c] = [] := twos_replicate_of_ne (n := 1) hc
      rw [twos_replicate_of_ne hc, hone]
  | forgotten _ hclean => cases hclean

/-- The exchange that is not over is no exception. -/
theorem Phase.guarantees (h : Phase clean v) :
    (twos v.processed).Sublist (twos v.started) ∧ v.completed.Sublist v.processed := by
  have hlast : ∀ {S P : List Content} {c : Content}, (twos P).Sublist (twos S) →
      (twos P).Sublist (twos (S ++ [c])) := by
    intro S P c hsub
    rw [twos_append]
    exact hsub.trans (List.sublist_append_left _ _)
  cases h with
  | idle hist => exact ⟨hist.sublist_started, hist.completed_sublist⟩
  | once hist hqos hf hn =>
    refine ⟨sublist_twos_append hist.sublist_started fun hc => ?_,
      hist.completed_sublist.trans (List.sublist_append_left _ _)⟩
    exact absurd (hqos.symm.trans hc) (by decide)
  | sent hist hqos hnext hf => exact ⟨hlast hist.sublist_started, hist.completed_sublist⟩
  | stored hist hqos hnext hr hr' hf => exact ⟨hlast hist.sublist_started, hist.completed_sublist⟩
  | released hist hqos hnext hr hr' hf => exact ⟨hlast hist.sublist_started, hist.completed_sublist⟩
  | done hist hqos hnext hf =>
    exact ⟨sublist_twos_append (n := 1) hist.sublist_started fun _ => le_rfl,
      hist.completed_sublist.trans (List.sublist_append_left _ _)⟩

theorem History.kept (h : History false S P C) {Q : List Content} (hQ : twos Q <+: twos [c]) :
    S ++ [c] = C ++ [c] ∧ twos C <+: twos (P ++ Q) ∧ twos (P ++ Q) <+: twos (S ++ [c]) := by
  obtain ⟨rfl, htwos⟩ := h.of_kept
  rw [twos_append, twos_append, htwos]
  exact ⟨rfl, List.prefix_append _ _, (List.prefix_append_right_inj _).2 hQ⟩

/-- Where nothing is forgotten, a message is kept until it has been acknowledged. -/
theorem Phase.kept (h : Phase false v) :
    v.started = v.completed ++ (v.out.map Messages.content).toList ∧
      twos v.completed <+: twos v.processed ∧ twos v.processed <+: twos v.started := by
  have hnil : ∀ {c : Content}, twos [] <+: twos [c] := List.nil_prefix
  cases h with
  | idle hist =>
    obtain ⟨rfl, htwos⟩ := hist.of_kept
    refine ⟨(List.append_nil _).symm, ?_, ?_⟩ <;> rw [htwos]
  | once hist hqos hf hn =>
    refine hist.kept ?_
    rw [twos_replicate_of_ne (ne_of_eq_of_ne hqos (by decide))]
    exact List.nil_prefix
  | sent hist hqos hnext hf => simpa using hist.kept hnil
  | stored hist hqos hnext hr hr' hf => simpa using hist.kept hnil
  | released hist hqos hnext hr hr' hf => simpa using hist.kept hnil
  | done hist hqos hnext hf => exact hist.kept List.prefix_rfl

end

end Cmqtt
