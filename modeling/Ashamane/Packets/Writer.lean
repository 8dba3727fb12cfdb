import Ashamane.Lib.BitStream

/-! The packet buffer: whole bytes in storage and one open byte of bits, filled from the top.
A failed assertion of the writer and an exception of the reader are both `none`. -/
namespace Ashamane.Packets

abbrev Byte := BitVec 8

def InitialBitPos : Nat := 8

def maxAppendSize : Nat := 10000000

structure ByteBuffer where
  rpos : Nat := 0
  wpos : Nat := 0
  bitpos : Nat := InitialBitPos
  curbitval : Byte := 0
  storage : List Byte := []
  deriving DecidableEq, Repr

namespace ByteBuffer

def ofStorage (storage : List Byte) : ByteBuffer := { storage }

def size (buf : ByteBuffer) : Nat := buf.storage.length

/-- The body of `append` behind its assertions and its `FlushBits`. -/
def insert (buf : ByteBuffer) (src : List Byte) : ByteBuffer :=
  { buf with
    storage := buf.storage.take buf.wpos ++ src ++ buf.storage.drop buf.wpos
    wpos := buf.wpos + src.length }

def canAppend (buf : ByteBuffer) (src : List Byte) : Bool :=
  src ≠ [] && buf.size < maxAppendSize

/-- The position is reset before the byte is appended, so `append` finds nothing to flush. -/
def flushBits (buf : ByteBuffer) : Option ByteBuffer :=
  if buf.bitpos = 8 then some buf
  else
    let src := [buf.curbitval]
    if buf.canAppend src then
      let buf := buf.insert src
      some { buf with bitpos := 8, curbitval := 0 }
    else none

def append (buf : ByteBuffer) (src : List Byte) : Option ByteBuffer :=
  if buf.canAppend src then buf.flushBits.map fun buf => buf.insert src else none

def resetBitPos (buf : ByteBuffer) : ByteBuffer :=
  if buf.bitpos > 7 then buf else { buf with bitpos := 8, curbitval := 0 }

def writeBit (buf : ByteBuffer) (bit : Bool) : Option ByteBuffer :=
  let bitpos := buf.bitpos - 1
  let curbitval := if bit then buf.curbitval ||| (1 : Byte) <<< bitpos else buf.curbitval
  if bitpos = 0 then
    let buf := { buf with bitpos := 8, curbitval }
    (buf.append [curbitval]).map fun buf => { buf with curbitval := 0 }
  else some { buf with bitpos, curbitval }

/-- The loop of `WriteBits` from bit `n - 1` of the value down. -/
def writeBits (buf : ByteBuffer) (value : BitVec 64) : Nat → Option ByteBuffer
  | 0 => some buf
  | n + 1 => (buf.writeBit (value.getLsbD n)).bind fun buf => buf.writeBits value n

def writeString (buf : ByteBuffer) (str : List Byte) : Option ByteBuffer :=
  if str.length ≠ 0 then buf.append str else some buf

def read (buf : ByteBuffer) (n : Nat) : Option (List Byte × ByteBuffer) :=
  let buf := buf.resetBitPos
  if buf.rpos + n > buf.size then none
  else some ((buf.storage.drop buf.rpos).take n, { buf with rpos := buf.rpos + n })

def bitAt (buf : ByteBuffer) : Bool := (buf.curbitval >>> (7 - buf.bitpos)).getLsbD 0

def readBit (buf : ByteBuffer) : Option (Bool × ByteBuffer) :=
  let buf := { buf with bitpos := buf.bitpos + 1 }
  if buf.bitpos > 7 then
    (buf.read 1).map fun (bytes, buf) =>
      let buf := { buf with curbitval := bytes.headD 0, bitpos := 0 }
      (buf.bitAt, buf)
  else some (buf.bitAt, buf)

/-- The loop of `ReadBits`, with the value read so far. -/
def readBits (buf : ByteBuffer) (value : BitVec 32) : Nat → Option (BitVec 32 × ByteBuffer)
  | 0 => some (value, buf)
  | n + 1 =>
    buf.readBit.bind fun (bit, buf) =>
      buf.readBits (if bit then value ||| (1 : BitVec 32) <<< n else value) n

def readString (buf : ByteBuffer) (length : BitVec 32) : Option (List Byte × ByteBuffer) :=
  if buf.rpos + length.toNat > buf.size then none
  else
    let buf := buf.resetBitPos
    if length = 0 then some ([], buf)
    else some ((buf.storage.drop buf.rpos).take length.toNat,
      { buf with rpos := buf.rpos + length.toNat })

end ByteBuffer

inductive IntType where
  | int8
  | int16
  | int32
  | int64
  deriving DecidableEq, Repr

def IntType.size : IntType → Nat
  | .int8 => 1
  | .int16 => 2
  | .int32 => 4
  | .int64 => 8

def toBytes : Nat → Nat → List Byte
  | 0, _ => []
  | n + 1, v => BitVec.ofNat 8 v :: toBytes n (v / 256)

def ofBytes : List Byte → Nat
  | [] => 0
  | b :: l => b.toNat + 256 * ofBytes l

inductive Write where
  | bit (b : Bool)
  | bits (n : Fin 33) (v : BitVec n)
  | flush
  | int (t : IntType) (v : BitVec (8 * t.size))
  | string (str : List Byte)
  deriving DecidableEq, Repr

inductive Field where
  | bit
  | bits (n : Fin 33)
  | flush
  | int (t : IntType)
  | string (len : Nat)
  deriving DecidableEq, Repr

def Write.field : Write → Field
  | .bit _ => .bit
  | .bits n _ => .bits n
  | .flush => .flush
  | .int t _ => .int t
  | .string str => .string str.length

namespace ByteBuffer

def write (buf : ByteBuffer) : Write → Option ByteBuffer
  | .bit b => buf.writeBit b
  | .bits n v => buf.writeBits (v.setWidth 64) n
  | .flush => buf.flushBits
  | .int t v => buf.append (toBytes t.size v.toNat)
  | .string str => buf.writeString str

def writeAll (buf : ByteBuffer) : List Write → Option ByteBuffer
  | [] => some buf
  | op :: ops => (buf.write op).bind fun buf => buf.writeAll ops

def readField (buf : ByteBuffer) : Field → Option (Write × ByteBuffer)
  | .bit => buf.readBit.map fun (b, buf) => (.bit b, buf)
  | .bits n => (buf.readBits 0 n).map fun (v, buf) => (.bits n (v.setWidth n), buf)
  | .flush => some (.flush, buf.resetBitPos)
  | .int t =>
    (buf.read t.size).map fun (bytes, buf) => (.int t (BitVec.ofNat _ (ofBytes bytes)), buf)
  | .string len =>
    (buf.readString (BitVec.ofNat 32 len)).map fun (str, buf) => (.string str, buf)

def readAll (buf : ByteBuffer) : List Field → Option (List Write × ByteBuffer)
  | [] => some ([], buf)
  | f :: fields =>
    (buf.readField f).bind fun (op, buf) =>
      (buf.readAll fields).map fun (ops, buf) => (op :: ops, buf)

end ByteBuffer

def RoundTrip (ops : List Write) : Prop :=
  ∃ w, ({} : ByteBuffer).writeAll ops = some w ∧
    ∃ r, (ByteBuffer.ofStorage w.storage).readAll (ops.map Write.field) = some (ops, r) ∧
      r.rpos = w.wpos

end Ashamane.Packets

/-! What a run of writes leaves in the buffer, as one list of bits: the stored bytes and then
the bits of the open byte. -/
namespace Ashamane.Packets
open Lib.BitStream

def bitsOf (b : Byte) : List Bool := (List.range 8).map b.getMsbD

def byteBits (l : List Byte) : List Bool := l.flatMap bitsOf

@[simp] theorem length_bitsOf (b : Byte) : (bitsOf b).length = 8 := by simp [bitsOf]

theorem bitsOf_zero : bitsOf 0 = List.replicate 8 false := by decide

theorem getElem?_bitsOf (b : Byte) (i : Nat) (h : i < 8) : (bitsOf b)[i]? = some (b.getMsbD i) := by
  simp [bitsOf, h]

theorem bitsOf_injective {a b : Byte} (h : bitsOf a = bitsOf b) : a = b := by
  refine BitVec.eq_of_getMsbD_eq fun i hi => ?_
  have := congrArg (·[i]?) h
  simpa [getElem?_bitsOf _ _ hi] using this

@[simp] theorem byteBits_nil : byteBits [] = [] := rfl

@[simp] theorem byteBits_cons (b : Byte) (l : List Byte) :
    byteBits (b :: l) = bitsOf b ++ byteBits l := rfl

@[simp] theorem byteBits_append (l m : List Byte) :
    byteBits (l ++ m) = byteBits l ++ byteBits m := by simp [byteBits]

@[simp] theorem length_byteBits (l : List Byte) : (byteBits l).length = 8 * l.length := by
  induction l with
  | nil => rfl
  | cons b l ih => simp [ih]; omega

theorem byteBits_injective {l m : List Byte} (h : byteBits l = byteBits m) : l = m := by
  induction l generalizing m with
  | nil =>
    have := congrArg List.length h
    cases m with
    | nil => rfl
    | cons b m => simp at this; omega
  | cons a l ih =>
    cases m with
    | nil => simpa using congrArg List.length h
    | cons b m =>
      obtain ⟨hb, hm⟩ := List.append_inj h (by simp)
      rw [bitsOf_injective hb, ih hm]

theorem byteBits_inj {l m : List Byte} : byteBits l = byteBits m ↔ l = m :=
  ⟨byteBits_injective, congrArg byteBits⟩

theorem byteBits_drop (l : List Byte) (n : Nat) :
    byteBits (l.drop n) = (byteBits l).drop (8 * n) := by
  induction n generalizing l with
  | zero => rfl
  | succ n ih =>
    cases l with
    | nil => simp
    | cons b l =>
      have hb : (bitsOf b).drop (8 * (n + 1)) = [] := List.drop_eq_nil_of_le (by rw [length_bitsOf]; omega)
      rw [List.drop_succ_cons, ih, byteBits_cons, List.drop_append, hb, length_bitsOf,
        Nat.mul_succ, Nat.add_sub_cancel, List.nil_append]

theorem byteBits_take (l : List Byte) (n : Nat) :
    byteBits (l.take n) = (byteBits l).take (8 * n) := by
  induction n generalizing l with
  | zero => rfl
  | succ n ih =>
    cases l with
    | nil => simp
    | cons b l =>
      have hb : (bitsOf b).take (8 * (n + 1)) = bitsOf b := List.take_of_length_le (by rw [length_bitsOf]; omega)
      rw [List.take_succ_cons, byteBits_cons, ih, byteBits_cons, List.take_append, hb,
        length_bitsOf, Nat.mul_succ, Nat.add_sub_cancel]

theorem getElem?_byteBits (l : List Byte) (n i : Nat) (h : i < 8) :
    (byteBits l)[8 * n + i]? = l[n]?.map fun b => b.getMsbD i := by
  induction l generalizing n with
  | nil => simp
  | cons b l ih =>
    cases n with
    | zero => simpa [List.getElem?_append_left, h] using getElem?_bitsOf b i h
    | succ n =>
      rw [byteBits_cons, List.getElem?_append_right (by simp; omega), length_bitsOf,
        List.getElem?_cons_succ, ← ih]
      congr 1
      omega

theorem getMsbD_set (c : Byte) (k i : Nat) :
    (c ||| (1 : Byte) <<< k).getMsbD i = (c.getMsbD i || decide (i + k = 7)) := by
  rw [BitVec.getMsbD_or, BitVec.getMsbD_shiftLeft]
  congr 1
  by_cases h : i + k = 7 <;> simp [BitVec.getMsbD, h]; omega

theorem bitsOf_set (c : Byte) (p : List Bool) (k : Nat) (b : Bool)
    (h : bitsOf c = p ++ List.replicate (k + 1) false) :
    bitsOf (if b then c ||| (1 : Byte) <<< k else c) = (p ++ [b]) ++ List.replicate k false := by
  have hlen : p.length + (k + 1) = 8 := by simpa using (congrArg List.length h).symm
  cases b with
  | false => simpa [List.replicate_succ] using h
  | true =>
    refine List.ext_getElem? fun i => ?_
    rcases Nat.lt_or_ge i 8 with hi | hi
    · have hc : (p ++ List.replicate (k + 1) false)[i]? = some (c.getMsbD i) := by
        rw [← h, getElem?_bitsOf _ _ hi]
      rw [if_pos rfl, getElem?_bitsOf _ _ hi, getMsbD_set]
      rcases Nat.lt_trichotomy i p.length with hp | rfl | hp
      · rw [List.getElem?_append_left hp] at hc
        rw [List.append_assoc, List.getElem?_append_left hp, hc]
        simp; omega
      · simp [List.append_assoc]; omega
      · rw [List.getElem?_append_right (by omega), List.getElem?_replicate, if_pos (by omega)] at hc
        rw [List.getElem?_append_right (by simp; omega), List.getElem?_replicate,
          if_pos (by simp; omega), ← Option.some.inj hc]
        simp; omega
    · rw [List.getElem?_eq_none (by simp; omega), List.getElem?_eq_none (by simp; omega)]

/-- The bits of a value from bit `n - 1` down. -/
def bitItems {m : Nat} (v : BitVec m) : Nat → List Item
  | 0 => []
  | n + 1 => .bit (v.getLsbD n) :: bitItems v n

/-- A write as the bit stream sees it. The reader aligns for an empty string, the writer
does not. -/
def Write.items : Write → List Item
  | .bit b => [.bit b]
  | .bits n v => bitItems v n
  | .flush => [.align]
  | .int t v => [.block (byteBits (toBytes t.size v.toNat))]
  | .string str => if str = [] then [.skip] else [.block (byteBits str)]

def itemsOf (ops : List Write) : List Item := ops.flatMap Write.items

/-- The append that the item needs after `w` bits, if it needs one, finds room. -/
def Fits (w : Nat) : Item → Prop
  | .bit _ => (w + 1) % 8 = 0 → w / 8 < maxAppendSize
  | .align => w % 8 ≠ 0 → w / 8 < maxAppendSize
  | .block _ => w / 8 < maxAppendSize
  | .skip => True

def next (w : Nat) : Item → Nat
  | .bit _ => w + 1
  | .align => up w
  | .block l => up w + l.length
  | .skip => w

def Room (w : Nat) : List Item → Prop
  | [] => True
  | x :: items => Fits w x ∧ Room (next w x) items

theorem length_put (acc : List Bool) (x : Item) : (put acc x).length = next acc.length x := by
  cases x <;> simp [put, next]

theorem room_append (acc : List Bool) (xs ys : List Item) :
    Room acc.length (xs ++ ys) ↔
      Room acc.length xs ∧ Room (putAll acc xs).length ys := by
  induction xs generalizing acc with
  | nil => simp [Room, putAll]
  | cons x xs ih =>
    simp only [List.cons_append, Room, ← length_put, ih, putAll, and_assoc]

namespace ByteBuffer

structure Wrote (buf : ByteBuffer) (acc : List Bool) : Prop where
  wpos : buf.wpos = buf.storage.length
  bits : ∃ p, acc = byteBits buf.storage ++ p ∧ 0 < buf.bitpos ∧
    bitsOf buf.curbitval = p ++ List.replicate buf.bitpos false

/-- A write that goes through exactly when `ok` and then leaves these bits. -/
def Writes (o : Option ByteBuffer) (ok : Prop) (acc : List Bool) : Prop :=
  (ok → ∃ buf, o = some buf ∧ buf.Wrote acc) ∧ (¬ ok → o = none)

theorem Wrote.length {buf : ByteBuffer} {acc : List Bool} (h : buf.Wrote acc) :
    acc.length + buf.bitpos = 8 * buf.storage.length + 8 ∧ 0 < buf.bitpos ∧ buf.bitpos ≤ 8 := by
  obtain ⟨p, rfl, hpos, hcur⟩ := h.bits
  have := congrArg List.length hcur
  simp at this ⊢
  omega

theorem Wrote.size {buf : ByteBuffer} {acc : List Bool} (h : buf.Wrote acc) :
    buf.size = acc.length / 8 := by
  have := h.length
  unfold ByteBuffer.size
  omega

theorem Wrote.stored {buf : ByteBuffer} {acc : List Bool} (h : buf.Wrote acc) :
    byteBits buf.storage = stored acc := by
  have hsize := h.size
  obtain ⟨p, rfl, -, -⟩ := h.bits
  rw [Lib.BitStream.stored, ← hsize, ByteBuffer.size, Nat.mul_comm, ← length_byteBits,
    List.take_left]

theorem wrote_empty : ({} : ByteBuffer).Wrote [] := ⟨rfl, [], rfl, Nat.succ_pos 7, bitsOf_zero⟩

theorem Writes.bind {o : Option ByteBuffer} {f : ByteBuffer → Option ByteBuffer}
    {ok ok' : Prop} {acc acc' : List Bool} (h : Writes o ok acc)
    (hf : ∀ buf, buf.Wrote acc → Writes (f buf) ok' acc') : Writes (o.bind f) (ok ∧ ok') acc' := by
  by_cases hok : ok
  · obtain ⟨buf, rfl, hw⟩ := h.1 hok
    simpa [Writes, hok] using hf buf hw
  · simp [Writes, hok, h.2 hok]

theorem canAppend_iff {buf : ByteBuffer} {acc : List Bool} {src : List Byte} (h : buf.Wrote acc)
    (hsrc : src ≠ []) : buf.canAppend src = true ↔ acc.length / 8 < maxAppendSize := by
  simp [canAppend, hsrc, h.size]

theorem insert_storage {buf : ByteBuffer} {acc : List Bool} (h : buf.Wrote acc) (src : List Byte) :
    (buf.insert src).storage = buf.storage ++ src := by
  simp [ByteBuffer.insert, h.wpos]

theorem wrote_insert {buf : ByteBuffer} {acc : List Bool} (h : buf.Wrote acc)
    (src : List Byte) :
    { buf.insert src with bitpos := 8, curbitval := 0 }.Wrote
      (byteBits (buf.storage ++ src)) where
  wpos := by simp [ByteBuffer.insert, h.wpos]
  bits := ⟨[], by simp [insert_storage h], Nat.succ_pos 7, bitsOf_zero⟩

theorem Wrote.insert {buf : ByteBuffer} {acc : List Bool} (h : buf.Wrote acc)
    (hpos : buf.bitpos = 8) (src : List Byte) : (buf.insert src).Wrote (acc ++ byteBits src) := by
  obtain ⟨p, rfl, hlt, hcur⟩ := h.bits
  have hp : p = [] := by simpa [hpos] using congrArg List.length hcur
  subst hp
  exact ⟨by simp [ByteBuffer.insert, h.wpos], [], by simp [insert_storage h], hlt, hcur⟩

theorem Wrote.pad {buf : ByteBuffer} {acc : List Bool} (h : buf.Wrote acc) :
    pad acc = if buf.bitpos = 8 then acc else byteBits (buf.storage ++ [buf.curbitval]) := by
  have hlen := h.length
  split
  · have hup : up acc.length = acc.length := up_of_mod _ (by omega)
    simp [Lib.BitStream.pad, hup]
  · have hup : up acc.length - acc.length = buf.bitpos := by unfold up; omega
    obtain ⟨p, hacc, -, hcur⟩ := h.bits
    rw [Lib.BitStream.pad, hup, byteBits_append, byteBits_cons, byteBits_nil, List.append_nil,
      hcur, ← List.append_assoc, ← hacc]

theorem flushBits_spec {buf : ByteBuffer} {acc : List Bool} (h : buf.Wrote acc) :
    (Fits acc.length .align → ∃ buf', buf.flushBits = some buf' ∧ buf'.Wrote (pad acc) ∧
      buf'.bitpos = 8) ∧ (¬ Fits acc.length .align → buf.flushBits = none) := by
  have hlen := h.length
  by_cases hpos : buf.bitpos = 8
  · have hfits : Fits acc.length .align := fun hmod => absurd (by omega) hmod
    refine ⟨fun _ => ⟨buf, if_pos hpos, ?_, hpos⟩, fun hn => absurd hfits hn⟩
    rwa [h.pad, if_pos hpos]
  · have hsrc : [buf.curbitval] ≠ [] := List.cons_ne_nil _ _
    have hcan := canAppend_iff h hsrc
    have hfits : Fits acc.length .align ↔ acc.length / 8 < maxAppendSize :=
      ⟨fun hf => hf (by omega), fun hlt _ => hlt⟩
    rw [hfits, ← hcan, h.pad, if_neg hpos]
    refine ⟨fun hc => ⟨_, ?_, wrote_insert h _, rfl⟩, fun hc => ?_⟩
    · simp [flushBits, hpos, hc]
    · simp [flushBits, hpos, hc]

theorem append_spec {buf : ByteBuffer} {acc : List Bool} (h : buf.Wrote acc) {src : List Byte}
    (hsrc : src ≠ []) :
    Writes (buf.append src) (acc.length / 8 < maxAppendSize) (pad acc ++ byteBits src) := by
  rw [← canAppend_iff h hsrc]
  constructor
  · intro hc
    obtain ⟨buf', hflush, hw, hpos⟩ :=
      (flushBits_spec h).1 fun _ => (canAppend_iff h hsrc).mp hc
    exact ⟨buf'.insert src, by simp [append, hc, hflush], hw.insert hpos src⟩
  · intro hc
    simp [append, hc]

theorem writeBit_spec {buf : ByteBuffer} {acc : List Bool} (h : buf.Wrote acc) (b : Bool) :
    Writes (buf.writeBit b) (Fits acc.length (.bit b)) (put acc (.bit b)) := by
  have hlen := h.length
  obtain ⟨p, hacc, hlt, hcur⟩ := h.bits
  obtain ⟨k, hk⟩ : ∃ k, buf.bitpos = k + 1 := ⟨buf.bitpos - 1, by omega⟩
  rw [hk] at hcur
  have hset := bitsOf_set buf.curbitval p k b hcur
  generalize hc : (if b then buf.curbitval ||| (1 : Byte) <<< k else buf.curbitval) = c at hset
  cases k with
  | zero =>
    have hfits : Fits acc.length (.bit b) ↔ buf.canAppend [c] = true := by
      rw [canAppend_iff h (List.cons_ne_nil _ _)]
      exact ⟨fun hf => hf (by omega), fun hlt _ => hlt⟩
    have hrun : buf.writeBit b = if buf.canAppend [c] then
        some { buf.insert [c] with bitpos := 8, curbitval := 0 } else none := by
      have hsame : { buf with bitpos := 8, curbitval := c }.canAppend [c] = buf.canAppend [c] := rfl
      simp only [writeBit, hk, Nat.zero_add, Nat.sub_self, hc, if_true, append, hsame, flushBits]
      split <;> rfl
    have hacc' : byteBits (buf.storage ++ [c]) = acc ++ [b] := by simp [hset, hacc]
    rw [hfits, hrun]
    refine ⟨fun hcan => ⟨_, if_pos hcan, ?_⟩, fun hcan => if_neg hcan⟩
    rw [put, ← hacc']
    exact wrote_insert h [c]
  | succ k =>
    have hfits : Fits acc.length (.bit b) := fun hmod => absurd hmod (by omega)
    refine ⟨fun _ => ⟨{ buf with bitpos := k + 1, curbitval := c }, ?_, ?_⟩,
      fun hn => absurd hfits hn⟩
    · simp only [writeBit, hk, Nat.add_sub_cancel, hc, Nat.succ_ne_zero, if_false]
    · exact ⟨h.wpos, p ++ [b], by simp [put, hacc], Nat.succ_pos k, hset⟩

theorem writeBits_spec {m : Nat} (v : BitVec m) (value : BitVec 64) (n : Nat)
    (hv : ∀ i < n, value.getLsbD i = v.getLsbD i) {buf : ByteBuffer} {acc : List Bool}
    (h : buf.Wrote acc) :
    Writes (buf.writeBits value n) (Room acc.length (bitItems v n)) (putAll acc (bitItems v n)) := by
  induction n generalizing buf acc with
  | zero => exact ⟨fun _ => ⟨buf, rfl, h⟩, fun hn => absurd trivial hn⟩
  | succ n ih =>
    rw [writeBits, hv n (Nat.lt_succ_self n)]
    refine (writeBit_spec h _).bind fun buf' hw => ?_
    rw [← length_put]
    exact ih (fun i hi => hv i (Nat.lt_succ_of_lt hi)) hw

theorem toBytes_ne_nil (t : IntType) (v : Nat) : toBytes t.size v ≠ [] := by
  cases t <;> simp [IntType.size, toBytes]

theorem write_spec {buf : ByteBuffer} {acc : List Bool} (h : buf.Wrote acc) (op : Write) :
    Writes (buf.write op) (Room acc.length op.items) (putAll acc op.items) := by
  cases op with
  | bit b => simpa [Write.items, Room, putAll, write] using writeBit_spec h b
  | bits n v =>
    refine writeBits_spec v _ n (fun i hi => ?_) h
    rw [BitVec.getLsbD_setWidth, decide_eq_true (by omega), Bool.true_and]
  | flush =>
    have hf := flushBits_spec h
    refine ⟨fun hr => ?_, fun hn => hf.2 fun hfit => hn ⟨hfit, trivial⟩⟩
    obtain ⟨buf', hrun, hw, -⟩ := hf.1 hr.1
    exact ⟨buf', hrun, hw⟩
  | int t v => simpa [Write.items, Room, Fits, putAll, put, write] using append_spec h (toBytes_ne_nil t _)
  | string str =>
    by_cases hs : str = []
    · subst hs
      exact ⟨fun _ => ⟨buf, rfl, h⟩, fun hn => absurd ⟨trivial, trivial⟩ hn⟩
    · simpa [Write.items, hs, Room, Fits, putAll, put, write, writeString] using append_spec h hs

theorem writeAll_spec (ops : List Write) {buf : ByteBuffer} {acc : List Bool}
    (h : buf.Wrote acc) :
    Writes (buf.writeAll ops) (Room acc.length (itemsOf ops)) (putAll acc (itemsOf ops)) := by
  induction ops generalizing buf acc with
  | nil => exact ⟨fun _ => ⟨buf, rfl, h⟩, fun hn => absurd trivial hn⟩
  | cons op ops ih =>
    rw [itemsOf, List.flatMap_cons, putAll_append, room_append]
    exact (write_spec h op).bind fun buf' hw => ih hw

end ByteBuffer

end Ashamane.Packets
