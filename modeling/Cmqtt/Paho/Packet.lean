import Cmqtt.CString
import Cmqtt.Framing

/-!
# MQTT packets

The packets of the MQTT library, as `MQTTPacket.c` reads and writes them (for
the versions 3.1 and 3.1.1 of the protocol): a header byte, the length of the
rest in a number of bytes of its own, and the rest.

* `remainingLength_encode`: the length is read back as it was written, exactly
  for the lengths the protocol has (below `2 ^ 28`); a longer one is refused;
* `framing`: where a packet ends is found in the packet, and never revised;
* `readUTFlen_writeData`, `readInt_writeInt`: what the fields are read back as.
-/

namespace Cmqtt

/-- The types of packets, `enum msgTypes`. -/
inductive MsgType
  | connect | connack | publish | puback | pubrec | pubrel | pubcomp | subscribe
  | suback | unsubscribe | unsuback | pingreq | pingresp | disconnect | auth
  deriving DecidableEq, Repr

namespace MsgType

/-- The number of a type. -/
def code : MsgType → ℕ
  | connect => 1
  | connack => 2
  | publish => 3
  | puback => 4
  | pubrec => 5
  | pubrel => 6
  | pubcomp => 7
  | subscribe => 8
  | suback => 9
  | unsubscribe => 10
  | unsuback => 11
  | pingreq => 12
  | pingresp => 13
  | disconnect => 14
  | auth => 15

/-- The type with a number; `0` is reserved. -/
def ofCode : ℕ → Option MsgType
  | 1 => some connect
  | 2 => some connack
  | 3 => some publish
  | 4 => some puback
  | 5 => some pubrec
  | 6 => some pubrel
  | 7 => some pubcomp
  | 8 => some subscribe
  | 9 => some suback
  | 10 => some unsubscribe
  | 11 => some unsuback
  | 12 => some pingreq
  | 13 => some pingresp
  | 14 => some disconnect
  | 15 => some auth
  | _ => none

@[simp]
theorem ofCode_code (t : MsgType) : ofCode t.code = some t := by cases t <;> rfl

theorem eq_code_of_ofCode {n : ℕ} {t : MsgType} (h : ofCode n = some t) : n = t.code := by
  unfold ofCode at h
  split at h <;> first | (cases h; rfl) | cases h

theorem code_lt (t : MsgType) : t.code < 16 := by cases t <;> decide

end MsgType

/-- The header byte of a packet, with its bit fields. -/
structure Header where
  byte : UInt8
  deriving DecidableEq, Repr

namespace Header

/-- The type, in the upper four bits. -/
def type (h : Header) : ℕ := h.byte.toNat / 16

/-- The flag of a message that is sent again. -/
def dup (h : Header) : Bool := h.byte.toNat / 8 % 2 = 1

/-- The quality of service, in two bits. -/
def qos (h : Header) : ℕ := h.byte.toNat / 2 % 4

/-- The flag of a retained message. -/
def retain (h : Header) : Bool := h.byte.toNat % 2 = 1

/-- A header with its fields set: what does not fit into a field is cut off. -/
def ofBits (type : ℕ) (dup : Bool) (qos : ℕ) (retain : Bool) : Header :=
  ⟨UInt8.ofNat (type % 16 * 16 + dup.toNat * 8 + qos % 4 * 2 + retain.toNat)⟩

variable {t q : ℕ} {d r : Bool}

theorem toNat_ofBits : (ofBits t d q r).byte.toNat =
    t % 16 * 16 + d.toNat * 8 + q % 4 * 2 + r.toNat := by
  have hd := d.toNat_lt
  have hr := r.toNat_lt
  rw [ofBits, UInt8.toNat_ofNat']
  omega

@[simp]
theorem type_ofBits : (ofBits t d q r).type = t % 16 := by
  have hd := d.toNat_lt
  have hr := r.toNat_lt
  rw [type, toNat_ofBits]
  omega

@[simp]
theorem qos_ofBits : (ofBits t d q r).qos = q % 4 := by
  have hd := d.toNat_lt
  have hr := r.toNat_lt
  rw [qos, toNat_ofBits]
  omega

@[simp]
theorem dup_ofBits : (ofBits t d q r).dup = d := by
  have hr := r.toNat_lt
  rw [dup, toNat_ofBits, show (t % 16 * 16 + d.toNat * 8 + q % 4 * 2 + r.toNat) / 8 % 2 = d.toNat by
    cases d <;> simp <;> omega]
  cases d <;> rfl

@[simp]
theorem retain_ofBits : (ofBits t d q r).retain = r := by
  rw [retain, toNat_ofBits, show (t % 16 * 16 + d.toNat * 8 + q % 4 * 2 + r.toNat) % 2 = r.toNat by
    cases r <;> simp <;> omega]
  cases r <;> rfl

end Header

namespace MQTTPacket

/-! ## The remaining length -/

/-- `MQTTPacket_encode`: seven bits a byte, the lowest first, and the top bit
    set where more follow. -/
def encode (length : ℕ) : List UInt8 :=
  if 0 < length / 128 then (UInt8.ofNat (length % 128) ||| 128) :: encode (length / 128)
  else [UInt8.ofNat (length % 128)]

/-- The most bytes the length of a packet may have, `MAX_NO_OF_REMAINING_LENGTH_BYTES`. -/
def maxLengthBytes : ℕ := 4

/-- The length at the front of a stream, of at most `k` more bytes: `value` has
    been read so far, and the next byte counts `multiplier` times. -/
def lengthFrom : ℕ → ℕ → ℕ → List UInt8 → Cut UInt8 ℕ
  | 0, _, _, _ => .bad
  | _ + 1, _, _, [] => .more
  | k + 1, value, multiplier, c :: cs =>
    if c &&& 128 ≠ 0 then
      lengthFrom k (value + (c &&& 127).toNat * multiplier) (multiplier * 128) cs
    else .frame (value + (c &&& 127).toNat * multiplier) cs

/-- The length at the front of a stream. -/
def remainingLength (xs : List UInt8) : Cut UInt8 ℕ := lengthFrom maxLengthBytes 0 1 xs

variable {k v m n : ℕ} {xs ys : List UInt8}

theorem lengthFrom_append (h : lengthFrom k v m xs ≠ .more) :
    lengthFrom k v m (xs ++ ys) = (lengthFrom k v m xs).append ys := by
  induction k generalizing v m xs with
  | zero => rfl
  | succ k ih =>
    cases xs with
    | nil => exact absurd rfl h
    | cons c cs =>
      simp only [List.cons_append, lengthFrom] at h ⊢
      split_ifs with hc
      · rw [if_pos hc] at h
        exact ih h
      · rfl

/-- The bytes of a length are what stands before the rest. -/
theorem exists_of_lengthFrom (h : lengthFrom k v m xs = .frame n ys) :
    ∃ bs, xs = bs ++ ys ∧ bs.length ≤ k ∧ lengthFrom k v m bs = .frame n [] := by
  induction k generalizing v m xs with
  | zero => cases h
  | succ k ih =>
    cases xs with
    | nil => cases h
    | cons c cs =>
      rw [lengthFrom] at h
      split_ifs at h with hc
      · obtain ⟨bs, rfl, hbs, h⟩ := ih h
        refine ⟨c :: bs, rfl, Nat.succ_le_succ hbs, ?_⟩
        rw [lengthFrom, if_pos hc, h]
      · obtain ⟨rfl, rfl⟩ := Cut.frame.inj h
        refine ⟨[c], rfl, Nat.succ_le_succ (Nat.zero_le k), ?_⟩
        rw [lengthFrom, if_neg hc]

theorem digit_last : ∀ d < 128, UInt8.ofNat d &&& 128 = 0 ∧ (UInt8.ofNat d &&& 127).toNat = d := by
  decide +kernel

theorem digit_more : ∀ d < 128, (UInt8.ofNat d ||| 128) &&& 128 ≠ 0 ∧
    ((UInt8.ofNat d ||| 128) &&& 127).toNat = d := by
  decide +kernel

/-- A length is read back if it has few enough digits, and refused otherwise. -/
theorem lengthFrom_encode (k v m n : ℕ) (ys : List UInt8) : lengthFrom k v m (encode n ++ ys) =
    if n < 128 ^ k ∧ 0 < k then .frame (v + n * m) ys else .bad := by
  induction k generalizing v m n with
  | zero => simp [lengthFrom]
  | succ k ih =>
    have hmod : n % 128 < 128 := Nat.mod_lt _ (by decide)
    rw [encode]
    split_ifs with hdiv hlt hlt
    · -- More digits follow: they are those of `n / 128`, each 128 times as much.
      obtain ⟨h128, h127⟩ := digit_more _ hmod
      rw [List.cons_append, lengthFrom, if_pos h128, h127, ih, if_pos]
      · have hn : n % 128 * m + n / 128 * (m * 128) = n * m := by
          conv_rhs => rw [← Nat.mod_add_div n 128]
          ring
        rw [add_assoc, hn]
      · have hlt' : n / 128 < 128 ^ k := Nat.div_lt_of_lt_mul (by simpa [pow_succ'] using hlt.1)
        refine ⟨hlt', Nat.pos_of_ne_zero ?_⟩
        rintro rfl
        simp only [pow_zero] at hlt'
        omega
    · obtain ⟨h128, h127⟩ := digit_more _ hmod
      rw [List.cons_append, lengthFrom, if_pos h128, h127, ih, if_neg]
      rintro ⟨hlt', -⟩
      refine hlt ⟨?_, Nat.succ_pos k⟩
      rw [pow_succ']
      omega
    · obtain ⟨h128, h127⟩ := digit_last _ hmod
      rw [List.singleton_append, lengthFrom, if_neg (by simpa using h128), h127,
        Nat.mod_eq_of_lt (by omega)]
    · exfalso
      refine hlt ⟨?_, Nat.succ_pos k⟩
      rw [pow_succ']
      have := Nat.pos_of_ne_zero (pow_ne_zero k (show (128 : ℕ) ≠ 0 by decide))
      omega

/-- The length does not depend on what follows it. -/
theorem remainingLength_append (h : remainingLength xs = .frame n []) :
    remainingLength (xs ++ ys) = .frame n ys := by
  rw [remainingLength, lengthFrom_append (by rw [← remainingLength, h]; simp), ← remainingLength,
    h, Cut.append, List.nil_append]

theorem remainingLength_encode (n : ℕ) (ys : List UInt8) :
    remainingLength (encode n ++ ys) = if n < 2 ^ 28 then .frame n ys else .bad := by
  rw [remainingLength, lengthFrom_encode]
  simp [maxLengthBytes]

/-! ## The packets of a stream -/

/-- A packet as it stands in a stream: the header byte and what the length counts. -/
structure Frame where
  header : Header
  data : List UInt8
  deriving DecidableEq, Repr

/-- The packet with a header byte, where its length has been found. -/
def afterLength (h : UInt8) : Cut UInt8 ℕ → Cut UInt8 Frame
  | .more => .more
  | .bad => .bad
  | .frame n rest => if rest.length < n then .more else .frame ⟨⟨h⟩, rest.take n⟩ (rest.drop n)

/-- The packet at the front of a stream. -/
def cut : List UInt8 → Cut UInt8 Frame
  | [] => .more
  | h :: cs => afterLength h (remainingLength cs)

theorem afterLength_append {h : UInt8} {c : Cut UInt8 ℕ} (hc : afterLength h c ≠ .more) :
    afterLength h (c.append ys) = (afterLength h c).append ys := by
  cases c with
  | more => exact absurd rfl hc
  | bad => rfl
  | frame n rest =>
    have hle : n ≤ rest.length := by
      by_contra hlt
      exact hc (if_pos (Nat.lt_of_not_le hlt))
    have hle' : n ≤ (rest ++ ys).length := by
      rw [List.length_append]
      omega
    rw [Cut.append, afterLength, afterLength, if_neg hle.not_gt, if_neg hle'.not_gt,
      List.take_append_of_le_length hle, List.drop_append_of_le_length hle]
    rfl

/-- The packets of a stream. -/
def framing : Framing UInt8 Frame where
  cut := cut
  cut_append xs ys hcut := by
    cases xs with
    | nil => exact absurd rfl hcut
    | cons h cs =>
      have hlen : remainingLength cs ≠ .more := by
        intro hmore
        exact hcut (by rw [cut, hmore, afterLength])
      rw [List.cons_append, cut, remainingLength, lengthFrom_append hlen]
      exact afterLength_append hcut
  exists_front xs f rest hcut := by
    match xs, hcut with
    | h :: cs, hcut =>
      rw [cut] at hcut
      cases hlen : remainingLength cs with
      | more => rw [hlen] at hcut; cases hcut
      | bad => rw [hlen] at hcut; cases hcut
      | frame n tl =>
        obtain ⟨bs, rfl, -, hbs⟩ := exists_of_lengthFrom hlen
        rw [hlen, afterLength] at hcut
        split_ifs at hcut with hlt
        obtain ⟨rfl, rfl⟩ := Cut.frame.inj hcut
        refine ⟨h :: (bs ++ tl.take n), by simp, ?_⟩
        have hlength : ¬(tl.take n).length < n := by
          rw [List.length_take]
          omega
        rw [cut, remainingLength_append hbs, afterLength, if_neg hlength, List.take_take, min_self,
          List.drop_take, Nat.sub_self, List.take_zero]

/-- The bytes a packet is written as. -/
def Frame.bytes (f : Frame) : List UInt8 := f.header.byte :: (encode f.data.length ++ f.data)

/-- A packet is found where it was written, if the protocol has its length. -/
theorem cut_bytes (f : Frame) (rest : List UInt8) : cut (f.bytes ++ rest) =
    if f.data.length < 2 ^ 28 then .frame f rest else .bad := by
  rw [Frame.bytes, List.cons_append, List.append_assoc, cut, remainingLength_encode]
  split_ifs
  · rw [afterLength, if_neg (by simp), List.take_left, List.drop_left]
  · rfl

/-! ## Fields -/

/-- What goes wrong when a packet is taken apart. -/
inductive Fault
  /-- Bytes after the end of the packet are read. -/
  | overread
  /-- Memory is used that was freed or never set. -/
  | freed
  deriving DecidableEq, Repr

/-- The low byte of an `int`. -/
def lowByte (z : ℤ) : UInt8 := UInt8.ofNat (z % 256).toNat

/-- `writeInt`: two bytes, of the quotient and the remainder by 256 as C has them. -/
def writeInt (anInt : ℤ) : List UInt8 := [lowByte (anInt.tdiv 256), lowByte (anInt.tmod 256)]

/-- `readInt`. -/
def readInt : List UInt8 → Except Fault (ℕ × List UInt8)
  | b :: c :: rest => .ok (256 * b.toNat + c.toNat, rest)
  | _ => .error .overread

/-- `readChar`. -/
def readChar : List UInt8 → Except Fault (UInt8 × List UInt8)
  | b :: rest => .ok (b, rest)
  | [] => .error .overread

/-- `writeData`, and `writeUTF` for the bytes of a string: the length in two bytes, and the bytes. -/
def writeData (data : List UInt8) : List UInt8 := writeInt data.length ++ data

/-- `writeUTF`. -/
def writeUTF (string : CString) : List UInt8 := writeData string.bytes

/-- `readUTFlen`: nothing, when the bytes do not reach as far as their length says. -/
def readUTFlen : List UInt8 → Option (List UInt8 × List UInt8)
  | b :: c :: rest =>
    if 256 * b.toNat + c.toNat ≤ rest.length then
      some (rest.take (256 * b.toNat + c.toNat), rest.drop (256 * b.toNat + c.toNat))
    else none
  | _ => none

@[simp]
theorem length_writeInt (z : ℤ) : (writeInt z).length = 2 := rfl

@[simp]
theorem length_writeData (data : List UInt8) : (writeData data).length = 2 + data.length := by
  simp [writeData, add_comm]

/-- The two bytes of a small number. -/
theorem writeInt_eq {i : ℕ} (h : i < 65536) :
    ∃ b c : UInt8, writeInt i = [b, c] ∧ 256 * b.toNat + c.toNat = i := by
  refine ⟨_, _, rfl, ?_⟩
  simp only [lowByte, UInt8.toNat_ofNat']
  rw [Int.tdiv_eq_ediv_of_nonneg (by omega), Int.tmod_eq_emod_of_nonneg (by omega)]
  omega

theorem readInt_writeInt {i : ℕ} (h : i < 65536) (rest : List UInt8) :
    readInt (writeInt i ++ rest) = .ok (i, rest) := by
  obtain ⟨b, c, hw, hi⟩ := writeInt_eq h
  rw [hw]
  exact congrArg (fun j => Except.ok (j, rest)) hi

/-- Two bytes are those of the number they are read as. -/
theorem writeInt_of_bytes (b c : UInt8) : writeInt (256 * b.toNat + c.toNat : ℕ) = [b, c] := by
  have hb := b.toNat_lt
  have hc := c.toNat_lt
  obtain ⟨b', c', hw, hi⟩ := writeInt_eq (show 256 * b.toNat + c.toNat < 65536 by omega)
  have hb' := b'.toNat_lt
  have hc' := c'.toNat_lt
  rw [hw, show b' = b from UInt8.toNat.inj (by omega), show c' = c from UInt8.toNat.inj (by omega)]

theorem readInt_eq_ok_iff {data rest : List UInt8} {i : ℕ} :
    readInt data = .ok (i, rest) ↔ i < 65536 ∧ data = writeInt i ++ rest := by
  constructor
  · intro h
    match data, h with
    | b :: c :: tl, h =>
      obtain ⟨rfl, rfl⟩ := Prod.mk.inj (Except.ok.inj h)
      have hb := b.toNat_lt
      have hc := c.toNat_lt
      refine ⟨by omega, ?_⟩
      rw [writeInt_of_bytes]
      rfl
  · rintro ⟨hi, rfl⟩
    exact readInt_writeInt hi rest

theorem readInt_error_iff {data : List UInt8} {e : Fault} :
    readInt data = .error e ↔ data.length < 2 ∧ e = .overread := by
  match data with
  | [] => simp [readInt, eq_comm]
  | [b] => simp [readInt, eq_comm]
  | b :: c :: tl => simp [readInt]

theorem readUTFlen_writeData {data : List UInt8} (h : data.length < 65536) (rest : List UInt8) :
    readUTFlen (writeData data ++ rest) = some (data, rest) := by
  obtain ⟨b, c, hw, hi⟩ := writeInt_eq h
  rw [writeData, hw]
  simp only [List.cons_append, List.nil_append, readUTFlen, hi]
  rw [if_pos (by simp), List.take_left, List.drop_left]

/-- A string is read exactly when it is whole. -/
theorem readUTFlen_eq_some_iff {data string rest : List UInt8} :
    readUTFlen data = some (string, rest) ↔ string.length < 65536 ∧ data = writeData string ++ rest := by
  constructor
  · intro h
    match data, h with
    | b :: c :: tl, h =>
      have hb := b.toNat_lt
      have hc := c.toNat_lt
      rw [readUTFlen] at h
      split_ifs at h with hle
      obtain ⟨rfl, rfl⟩ := Prod.mk.inj (Option.some.inj h)
      rw [List.length_take, min_eq_left hle]
      refine ⟨by omega, ?_⟩
      rw [writeData, List.length_take, min_eq_left hle, writeInt_of_bytes, List.append_assoc,
        List.take_append_drop]
      rfl
  · rintro ⟨hlt, rfl⟩
    exact readUTFlen_writeData hlt rest

end MQTTPacket

end Cmqtt
