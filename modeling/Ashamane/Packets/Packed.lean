import Ashamane.Packets.RoundTrip

/-! Packed integers: a mask tells which bytes of the value follow, the others are zero. -/
namespace Ashamane.Packets

/-- The loop of `PackUInt64`. A value has eight bytes, so it ends within eight rounds. -/
def packRounds : Nat → Nat → BitVec 64 → Byte × List Byte → Byte × List Byte
  | 0, _, _, packed => packed
  | n + 1, i, value, (mask, result) =>
    if value = 0 then (mask, result)
    else if value &&& 0xFF ≠ 0 then
      packRounds n (i + 1) (value >>> 8) (mask ||| (1 : Byte) <<< i, result ++ [value.setWidth 8])
    else packRounds n (i + 1) (value >>> 8) (mask, result)

def packUInt64 (value : BitVec 64) : Byte × List Byte := packRounds 8 0 value (0, [])

namespace ByteBuffer

def put (buf : ByteBuffer) (pos : Nat) (src : List Byte) : Option ByteBuffer :=
  if pos + src.length ≤ buf.size ∧ src ≠ [] then
    some { buf with storage := buf.storage.take pos ++ src ++ buf.storage.drop (pos + src.length) }
  else none

def appendPacked (buf : ByteBuffer) (packed : List Byte) : Option ByteBuffer :=
  if packed.length ≠ 0 then buf.append packed else some buf

/-- The position of the mask is taken before the append of the mask flushes the open byte. -/
def appendPackedUInt64 (buf : ByteBuffer) (value : BitVec 64) : Option ByteBuffer := do
  let pos := buf.wpos
  let buf ← buf.append [0]
  let (mask, packed) := packUInt64 value
  let buf ← buf.appendPacked packed
  buf.put pos [mask]

def readPackedFrom (mask : Byte) (i : Nat) (value : BitVec 64) (buf : ByteBuffer) :
    Nat → Option (BitVec 64 × ByteBuffer)
  | 0 => some (value, buf)
  | n + 1 =>
    if mask &&& (1 : Byte) <<< i ≠ 0 then do
      let (bytes, buf) ← buf.read 1
      readPackedFrom mask (i + 1) (value ||| ((bytes.headD 0).setWidth 64) <<< (i * 8)) buf n
    else readPackedFrom mask (i + 1) value buf n

/-- `ReadPackedUInt64` with a mask that has been read: the bytes are added to `value`. -/
def readPackedMasked (buf : ByteBuffer) (mask : Byte) (value : BitVec 64) :
    Option (BitVec 64 × ByteBuffer) :=
  readPackedFrom mask 0 value buf 8

def readPackedUInt64 (buf : ByteBuffer) : Option (BitVec 64 × ByteBuffer) := do
  let (bytes, buf) ← buf.read 1
  buf.readPackedMasked (bytes.headD 0) 0

end ByteBuffer

/-! What is packed. -/

def byteAt (value : BitVec 64) (i : Nat) : Byte := (value >>> (8 * i)).setWidth 8

/-- The bytes that are not zero among `n` bytes from byte `i` on. -/
def presentFrom (value : BitVec 64) (i n : Nat) : List Byte :=
  ((List.range' i n).map (byteAt value)).filter (· ≠ 0)

variable {value : BitVec 64} {i n : Nat}

theorem getLsbD_255 : ∀ j < 64, (0xFF : BitVec 64).getLsbD j = decide (j < 8) := by decide

theorem byteAt_and : (value >>> (8 * i)) &&& 0xFF = 0 ↔ byteAt value i = 0 := by
  have hbit : ∀ j < 64, ((value >>> (8 * i)) &&& 0xFF).getLsbD j = (byteAt value i).getLsbD j := by
    intro j hj
    rw [BitVec.getLsbD_and, getLsbD_255 j hj, byteAt, BitVec.getLsbD_setWidth, Bool.and_comm]
  constructor
  · intro h
    refine BitVec.eq_of_getLsbD_eq fun j hj => ?_
    rw [← hbit j (by omega), h]
    simp
  · intro h
    refine BitVec.eq_of_getLsbD_eq fun j hj => ?_
    rw [hbit j hj, h]
    simp

theorem presentFrom_succ : presentFrom value i (n + 1) =
    (if byteAt value i = 0 then [] else [byteAt value i]) ++ presentFrom value (i + 1) n := by
  rw [presentFrom, List.range'_succ, List.map_cons, List.filter_cons]
  by_cases h : byteAt value i = 0
  · rw [if_neg (by simpa using h), if_pos h]
    rfl
  · rw [if_pos (by simpa using h), if_neg h]
    rfl

theorem byteAt_later (h : value >>> (8 * i) = 0) {j : Nat} (hj : i ≤ j) : byteAt value j = 0 := by
  have hsplit : 8 * j = 8 * i + 8 * (j - i) := by omega
  rw [byteAt, hsplit, BitVec.shiftRight_add, h]
  simp

theorem presentFrom_zero (h : value >>> (8 * i) = 0) : presentFrom value i n = [] := by
  rw [presentFrom, List.filter_eq_nil_iff]
  intro b hb
  obtain ⟨j, hj, rfl⟩ := List.mem_map.mp hb
  rw [byteAt_later h (List.mem_range'_1.mp hj).1]
  simp

theorem presentFrom_eq_nil : presentFrom value 0 8 = [] ↔ value = 0 := by
  constructor
  · intro h
    refine BitVec.eq_of_getLsbD_eq fun t ht => ?_
    have hbyte : byteAt value (t / 8) = 0 := by
      have hmem : byteAt value (t / 8) ∈ (List.range' 0 8).map (byteAt value) :=
        List.mem_map_of_mem (List.mem_range'_1.mpr ⟨Nat.zero_le _, by omega⟩)
      have hno := List.filter_eq_nil_iff.mp h _ hmem
      simpa using hno
    have hbit : (byteAt value (t / 8)).getLsbD (t % 8) = value.getLsbD t := by
      rw [byteAt, BitVec.getLsbD_setWidth, BitVec.getLsbD_ushiftRight, Nat.div_add_mod,
        decide_eq_true (Nat.mod_lt t (by decide)), Bool.true_and]
    rw [← hbit, hbyte]
    simp
  · rintro rfl
    exact presentFrom_zero (i := 0) (by simp)

/-- The mask of the bytes from `i` on that are not zero. -/
def IsMask (value : BitVec 64) (i n : Nat) (old mask : Byte) : Prop :=
  ∀ j < 8, mask.getLsbD j = (old.getLsbD j || decide (i ≤ j ∧ j < i + n ∧ byteAt value j ≠ 0))

theorem getLsbD_one_shift : ∀ i < 8, ∀ j < 8, ((1 : Byte) <<< i).getLsbD j = decide (j = i) := by
  decide

theorem and_one_shift {mask : Byte} (hi : i < 8) :
    mask &&& (1 : Byte) <<< i ≠ 0 ↔ mask.getLsbD i = true := by
  constructor
  · intro h
    by_contra hbit
    rw [Bool.not_eq_true] at hbit
    refine h (BitVec.eq_of_getLsbD_eq fun j hj => ?_)
    rw [BitVec.getLsbD_and, getLsbD_one_shift i hi j hj]
    by_cases hji : j = i
    · rw [hji, hbit]
      simp
    · simp [hji]
  · intro h hzero
    have hbit := congrArg (BitVec.getLsbD · i) hzero
    rw [BitVec.getLsbD_and, h, getLsbD_one_shift i hi i hi, decide_eq_true rfl] at hbit
    simp at hbit

theorem packRounds_spec (n : Nat) (hn : i + n = 8) (mask : Byte) (result : List Byte) :
    ∃ mask', packRounds n i (value >>> (8 * i)) (mask, result) =
      (mask', result ++ presentFrom value i n) ∧ IsMask value i n mask mask' := by
  induction n generalizing i mask result with
  | zero =>
    refine ⟨mask, by simp [packRounds, presentFrom], fun j _ => ?_⟩
    have hno : ¬(i ≤ j ∧ j < i + 0 ∧ byteAt value j ≠ 0) := by omega
    rw [decide_eq_false hno, Bool.or_false]
  | succ n ih =>
    rw [packRounds]
    have hshift : value >>> (8 * i) >>> 8 = value >>> (8 * (i + 1)) := by
      rw [← BitVec.shiftRight_add, Nat.mul_succ]
    by_cases hzero : value >>> (8 * i) = 0
    · rw [if_pos hzero, presentFrom_zero hzero, List.append_nil]
      refine ⟨mask, rfl, fun j _ => ?_⟩
      have hno : ¬(i ≤ j ∧ j < i + (n + 1) ∧ byteAt value j ≠ 0) :=
        fun h => h.2.2 (byteAt_later hzero h.1)
      rw [decide_eq_false hno, Bool.or_false]
    · rw [if_neg hzero, hshift, presentFrom_succ]
      by_cases hbyte : byteAt value i = 0
      · obtain ⟨mask', hrun, hmask⟩ := ih (i := i + 1) (by omega) mask result
        rw [if_neg (not_not_intro (byteAt_and.mpr hbyte)), if_pos hbyte, List.nil_append]
        refine ⟨mask', hrun, fun j hj => ?_⟩
        rw [hmask j hj]
        congr 2
        refine propext ⟨fun h => ⟨by omega, by omega, h.2.2⟩, fun h => ?_⟩
        have hne : j ≠ i := by
          rintro rfl
          exact h.2.2 hbyte
        exact ⟨by omega, by omega, h.2.2⟩
      · obtain ⟨mask', hrun, hmask⟩ := ih (i := i + 1) (by omega) (mask ||| (1 : Byte) <<< i)
          (result ++ [byteAt value i])
        rw [if_pos (mt byteAt_and.mp hbyte), if_neg hbyte, ← List.append_assoc]
        refine ⟨mask', hrun, fun j hj => ?_⟩
        rw [hmask j hj, BitVec.getLsbD_or, getLsbD_one_shift i (by omega) j hj, Bool.or_assoc,
          ← Bool.decide_or]
        congr 2
        refine propext ⟨fun h => ?_, fun h => ?_⟩
        · rcases h with rfl | h
          · exact ⟨Nat.le_refl _, by omega, hbyte⟩
          · exact ⟨by omega, by omega, h.2.2⟩
        · rcases Nat.eq_or_lt_of_le h.1 with rfl | hlt
          · exact .inl rfl
          · exact .inr ⟨hlt, by omega, h.2.2⟩

/-- What `PackUInt64` finds. -/
theorem packUInt64_spec (value : BitVec 64) : ∃ mask, packUInt64 value = (mask, presentFrom value 0 8) ∧
    ∀ j < 8, mask.getLsbD j = decide (byteAt value j ≠ 0) := by
  obtain ⟨mask, hrun, hmask⟩ := @packRounds_spec value 0 8 rfl 0 []
  refine ⟨mask, by simpa [packUInt64] using hrun, fun j hj => ?_⟩
  rw [hmask j hj]
  simp [hj]

namespace ByteBuffer

theorem read_one {buf : ByteBuffer} {b : Byte} (h : buf.storage[buf.rpos]? = some b) :
    buf.read 1 = some ([b], { buf.resetBitPos with rpos := buf.rpos + 1 }) := by
  obtain ⟨hlt, hb⟩ := List.getElem?_eq_some_iff.mp h
  have hreset : buf.resetBitPos.rpos = buf.rpos ∧ buf.resetBitPos.storage = buf.storage := by
    unfold resetBitPos
    split <;> exact ⟨rfl, rfl⟩
  have hfits : ¬buf.rpos + 1 > buf.size := by
    unfold ByteBuffer.size
    omega
  simp only [read, ByteBuffer.size, hreset.1, hreset.2]
  rw [ByteBuffer.size] at hfits
  rw [if_neg hfits, List.drop_eq_getElem_cons hlt, hb]
  rfl

def Before (buf : ByteBuffer) (l : List Byte) : Prop := l <+: buf.storage.drop buf.rpos

theorem Before.read {buf : ByteBuffer} {b : Byte} {l : List Byte} (h : buf.Before (b :: l)) :
    ∃ buf', buf.read 1 = some ([b], buf') ∧ buf'.storage = buf.storage ∧
      buf'.rpos = buf.rpos + 1 ∧ buf'.Before l := by
  obtain ⟨t, ht⟩ := h
  have hget : buf.storage[buf.rpos]? = some b := by
    have hzero := congrArg (·[0]?) ht
    simpa using hzero.symm
  have hstorage : buf.resetBitPos.storage = buf.storage := by
    unfold resetBitPos
    split <;> rfl
  refine ⟨_, read_one hget, hstorage, rfl, t, ?_⟩
  have htail := congrArg List.tail ht
  simpa [hstorage] using htail

/-- The reader adds the bits of the bytes from byte `i` on to what it has. -/
theorem readPackedFrom_spec {value : BitVec 64} (old : BitVec 64) {mask : Byte}
    (hmask : ∀ j < 8, mask.getLsbD j = decide (byteAt value j ≠ 0)) (n : Nat) {i : Nat}
    (hn : i + n = 8) {buf : ByteBuffer} (h : buf.Before (presentFrom value i n)) :
    ∃ read buf', readPackedFrom mask i old buf n = some (read, buf') ∧
      buf'.storage = buf.storage ∧ buf'.rpos = buf.rpos + (presentFrom value i n).length ∧
      ∀ t < 64, read.getLsbD t = (old.getLsbD t || (decide (8 * i ≤ t) && value.getLsbD t)) := by
  induction n generalizing i old buf with
  | zero =>
    refine ⟨old, buf, rfl, rfl, by simp [presentFrom], fun t ht => ?_⟩
    have hno : ¬8 * i ≤ t := by omega
    rw [decide_eq_false hno, Bool.false_and, Bool.or_false]
  | succ n ih =>
    have hbit : mask &&& (1 : Byte) <<< i ≠ 0 ↔ byteAt value i ≠ 0 := by
      rw [and_one_shift (by omega), hmask i (by omega), decide_eq_true_eq]
    have hvalue : ∀ t, 8 * i ≤ t → t < 8 * (i + 1) →
        value.getLsbD t = (byteAt value i).getLsbD (t - 8 * i) := by
      intro t hle hlt
      rw [byteAt, BitVec.getLsbD_setWidth, BitVec.getLsbD_ushiftRight, Nat.add_sub_cancel' hle,
        decide_eq_true (by omega), Bool.true_and]
    rw [readPackedFrom]
    rw [presentFrom_succ] at h ⊢
    by_cases hbyte : byteAt value i = 0
    · rw [if_pos hbyte, List.nil_append] at h ⊢
      rw [if_neg (mt hbit.mp (not_not_intro hbyte))]
      obtain ⟨read, buf', hrun, hstorage, hpos, hread⟩ := @ih old (i + 1) (by omega) buf h
      refine ⟨read, buf', hrun, hstorage, hpos, fun t ht => ?_⟩
      rw [hread t ht]
      rcases Nat.lt_or_ge t (8 * i) with hlt | hge
      · rw [decide_eq_false (by omega), decide_eq_false (by omega)]
      · rcases Nat.lt_or_ge t (8 * (i + 1)) with hlt | hge'
        · rw [decide_eq_false (by omega), decide_eq_true hge, hvalue t hge hlt, hbyte]
          simp
        · rw [decide_eq_true (by omega), decide_eq_true hge]
    · rw [if_neg hbyte] at h ⊢
      rw [if_pos (hbit.mpr hbyte)]
      obtain ⟨buf₁, hread₁, hstorage₁, hpos₁, hbefore⟩ := Before.read h
      obtain ⟨read, buf', hrun, hstorage, hpos, hread⟩ := @ih
        (old ||| ((byteAt value i).setWidth 64) <<< (i * 8)) (i + 1) (by omega) buf₁ hbefore
      refine ⟨read, buf', ?_, hstorage.trans hstorage₁, ?_, fun t ht => ?_⟩
      · rw [hread₁]
        exact hrun
      · rw [hpos, hpos₁, List.length_append, List.length_singleton]
        omega
      · rw [hread t ht, BitVec.getLsbD_or, BitVec.getLsbD_shiftLeft, BitVec.getLsbD_setWidth,
          Nat.mul_comm i 8, decide_eq_true ht, Bool.true_and]
        rcases Nat.lt_or_ge t (8 * i) with hlt | hge
        · have hno : ¬8 * i ≤ t ∧ ¬8 * (i + 1) ≤ t := by omega
          rw [decide_eq_true hlt, decide_eq_false hno.1, decide_eq_false hno.2]
          simp
        · have hno : ¬t < 8 * i := by omega
          have hin : t - 8 * i < 64 := by omega
          rw [decide_eq_false hno, decide_eq_true hin, decide_eq_true hge]
          rcases Nat.lt_or_ge t (8 * (i + 1)) with hlt | hge'
          · have hlate : ¬8 * (i + 1) ≤ t := by omega
            rw [decide_eq_false hlate, hvalue t hge hlt]
            simp
          · have hout : (byteAt value i).getLsbD (t - 8 * i) = false :=
              BitVec.getLsbD_of_ge _ _ (by omega)
            rw [hout, decide_eq_true hge']
            simp

/-- The bytes of a value that are not zero are all there is to it. -/
theorem readPackedMasked_spec {value : BitVec 64} (old : BitVec 64) {mask : Byte}
    (hmask : ∀ j < 8, mask.getLsbD j = decide (byteAt value j ≠ 0)) {buf : ByteBuffer}
    (h : buf.Before (presentFrom value 0 8)) :
    ∃ buf', buf.readPackedMasked mask old = some (old ||| value, buf') ∧
      buf'.storage = buf.storage ∧ buf'.rpos = buf.rpos + (presentFrom value 0 8).length := by
  obtain ⟨read, buf', hrun, hstorage, hpos, hread⟩ := readPackedFrom_spec old hmask 8 rfl h
  have hvalue : read = old ||| value := by
    refine BitVec.eq_of_getLsbD_eq fun t ht => ?_
    rw [hread t ht, BitVec.getLsbD_or, decide_eq_true (Nat.zero_le t), Bool.true_and]
  exact ⟨buf', hvalue ▸ hrun, hstorage, hpos⟩

theorem readPackedUInt64_spec {value : BitVec 64} {mask : Byte}
    (hmask : ∀ j < 8, mask.getLsbD j = decide (byteAt value j ≠ 0)) {buf : ByteBuffer}
    (h : buf.Before (mask :: presentFrom value 0 8)) :
    ∃ buf', buf.readPackedUInt64 = some (value, buf') ∧
      buf'.rpos = buf.rpos + 1 + (presentFrom value 0 8).length := by
  obtain ⟨buf₁, hread, -, hpos₁, hbefore⟩ := h.read
  obtain ⟨buf', hrun, -, hpos⟩ := readPackedMasked_spec 0 hmask hbefore
  have hzero : (0 : BitVec 64) ||| value = value := BitVec.zero_or
  rw [hzero] at hrun
  refine ⟨buf', ?_, by rw [hpos, hpos₁]⟩
  rw [readPackedUInt64, hread]
  exact hrun

/-! What the appends leave in the storage. -/

def pending (buf : ByteBuffer) : List Byte := if buf.bitpos = 8 then [] else [buf.curbitval]

/-- The writer stands after `l`, and `r` follows. -/
structure Cut (buf : ByteBuffer) (l r : List Byte) : Prop where
  storage : buf.storage = l ++ r
  wpos : buf.wpos = l.length

theorem cut {buf : ByteBuffer} (h : buf.wpos ≤ buf.size) :
    buf.Cut (buf.storage.take buf.wpos) (buf.storage.drop buf.wpos) :=
  ⟨(List.take_append_drop _ _).symm, (List.length_take_of_le h).symm⟩

theorem Cut.size {buf : ByteBuffer} {l r : List Byte} (h : buf.Cut l r) :
    buf.size = l.length + r.length := by rw [ByteBuffer.size, h.storage, List.length_append]

theorem Cut.insert {buf : ByteBuffer} {l r : List Byte} (h : buf.Cut l r) (src : List Byte) :
    (buf.insert src).Cut (l ++ src) r where
  storage := by
    simp only [ByteBuffer.insert, h.storage, h.wpos, List.take_left', List.drop_left']
  wpos := by simp only [ByteBuffer.insert, h.wpos, List.length_append]

theorem Cut.flushBits {buf : ByteBuffer} {l r : List Byte} (h : buf.Cut l r)
    (hroom : buf.bitpos ≠ 8 → buf.size < maxAppendSize) :
    ∃ buf', buf.flushBits = some buf' ∧ buf'.Cut (l ++ buf.pending) r ∧ buf'.bitpos = 8 := by
  by_cases hpos : buf.bitpos = 8
  · exact ⟨buf, if_pos hpos, by simpa [pending, hpos] using h, hpos⟩
  · have hcan : buf.canAppend [buf.curbitval] = true := by simp [canAppend, hroom hpos]
    have hcut := h.insert [buf.curbitval]
    refine ⟨{ buf.insert [buf.curbitval] with bitpos := 8, curbitval := 0 }, ?_, ?_, rfl⟩
    · simp [ByteBuffer.flushBits, hpos, hcan]
    · rw [pending, if_neg hpos]
      exact ⟨hcut.storage, hcut.wpos⟩

theorem Cut.append {buf : ByteBuffer} {l r : List Byte} (h : buf.Cut l r) {src : List Byte}
    (hsrc : src ≠ []) (hroom : buf.size < maxAppendSize) :
    ∃ buf', buf.append src = some buf' ∧ buf'.Cut (l ++ buf.pending ++ src) r ∧
      buf'.bitpos = 8 := by
  obtain ⟨buf', hflush, hcut, hpos⟩ := h.flushBits fun _ => hroom
  have hcan : buf.canAppend src = true := by simp [canAppend, hsrc, hroom]
  exact ⟨buf'.insert src, by simp [ByteBuffer.append, hcan, hflush], hcut.insert src, hpos⟩

theorem append_full {buf : ByteBuffer} (src : List Byte) (hfull : ¬buf.size < maxAppendSize) :
    buf.append src = none := by
  simp [ByteBuffer.append, canAppend, hfull]

theorem pending_flushed {buf : ByteBuffer} (h : buf.bitpos = 8) : buf.pending = [] := if_pos h

theorem Cut.appendPacked {buf : ByteBuffer} {l r : List Byte} (h : buf.Cut l r)
    (hpos : buf.bitpos = 8) (packed : List Byte) (hroom : packed ≠ [] → buf.size < maxAppendSize) :
    ∃ buf', buf.appendPacked packed = some buf' ∧ buf'.Cut (l ++ packed) r ∧ buf'.bitpos = 8 := by
  by_cases hnil : packed = []
  · exact ⟨buf, by simp [ByteBuffer.appendPacked, hnil], by simpa [hnil] using h, hpos⟩
  · obtain ⟨buf', happend, hcut, hpos'⟩ := h.append hnil (hroom hnil)
    rw [pending_flushed hpos, List.append_nil] at hcut
    exact ⟨buf', by simp [ByteBuffer.appendPacked, hnil, happend], hcut, hpos'⟩

theorem appendPacked_full {buf : ByteBuffer} {packed : List Byte} (hne : packed ≠ [])
    (hfull : ¬buf.size < maxAppendSize) : buf.appendPacked packed = none := by
  simp [ByteBuffer.appendPacked, hne, append_full packed hfull]

theorem Cut.put {buf : ByteBuffer} {l m r : List Byte} {b : Byte} (c : Byte)
    (h : buf.Cut (l ++ b :: m) r) :
    ∃ buf', buf.put l.length [c] = some buf' ∧ buf'.Cut (l ++ c :: m) r := by
  have hfits : l.length + [c].length ≤ buf.size ∧ [c] ≠ [] := by
    rw [h.size]
    simp
    omega
  refine ⟨_, if_pos hfits, ?_, ?_⟩
  · simp [h.storage, List.drop_append]
  · simp [h.wpos]

/-- The appends of `AppendPackedUInt64` find room. -/
def RoomForPacked (buf : ByteBuffer) (value : BitVec 64) : Prop :=
  buf.size < maxAppendSize ∧
    (value ≠ 0 → buf.size + buf.pending.length + 1 < maxAppendSize)

instance (buf : ByteBuffer) (value : BitVec 64) : Decidable (buf.RoomForPacked value) :=
  inferInstanceAs (Decidable (_ ∧ _))

/-- The mask takes the place of the first byte appended, which is the pending one if there is one. -/
theorem appendPackedUInt64_spec {buf : ByteBuffer} {l r : List Byte} (h : buf.Cut l r)
    {value : BitVec 64} {mask : Byte} (hpack : packUInt64 value = (mask, presentFrom value 0 8)) :
    (buf.RoomForPacked value → ∃ buf', buf.appendPackedUInt64 value = some buf' ∧
      buf'.Cut (l ++ mask :: ((buf.pending ++ [0]).tail ++ presentFrom value 0 8)) r) ∧
    (¬buf.RoomForPacked value → buf.appendPackedUInt64 value = none) := by
  by_cases hsize : buf.size < maxAppendSize
  · obtain ⟨buf₁, happend, hcut₁, hpos₁⟩ := h.append (List.cons_ne_nil 0 []) hsize
    have hsize₁ : buf₁.size = buf.size + buf.pending.length + 1 := by
      rw [hcut₁.size, h.size]
      simp
      omega
    by_cases hroom : value ≠ 0 → buf.size + buf.pending.length + 1 < maxAppendSize
    · refine ⟨fun _ => ?_, fun hno => absurd ⟨hsize, hroom⟩ hno⟩
      obtain ⟨buf₂, hpacked, hcut₂, -⟩ := hcut₁.appendPacked hpos₁ (presentFrom value 0 8)
        fun hne => hsize₁ ▸ hroom (mt presentFrom_eq_nil.mpr hne)
      obtain ⟨b, hb⟩ : ∃ b, buf.pending ++ [0] = b :: (buf.pending ++ [0]).tail :=
        ⟨_, (List.cons_head_tail (by simp)).symm⟩
      have hsplit : l ++ buf.pending ++ [0] ++ presentFrom value 0 8 =
          l ++ b :: ((buf.pending ++ [0]).tail ++ presentFrom value 0 8) := by
        rw [← List.cons_append, ← hb]
        simp
      rw [hsplit] at hcut₂
      obtain ⟨buf', hput, hcut⟩ := hcut₂.put mask
      refine ⟨buf', ?_, hcut⟩
      rw [appendPackedUInt64, happend, hpack, h.wpos]
      simp only [Option.bind_eq_bind, Option.bind_some, hpacked]
      exact hput
    · refine ⟨fun hok => absurd hok.2 hroom, fun _ => ?_⟩
      obtain ⟨hne, hfull⟩ := Classical.not_imp.mp hroom
      have hnone := appendPacked_full (mt presentFrom_eq_nil.mp hne) (hsize₁ ▸ hfull)
      rw [appendPackedUInt64, happend, hpack]
      simp only [Option.bind_eq_bind, Option.bind_some, hnone, Option.bind_none]
  · refine ⟨fun hok => absurd hok.1 hsize, fun _ => ?_⟩
    rw [appendPackedUInt64, append_full _ hsize]
    rfl

structure Appended (flushed buf : ByteBuffer) (value : BitVec 64) : Prop where
  before : buf.storage.take flushed.wpos = flushed.storage.take flushed.wpos
  after : buf.storage.drop buf.wpos = flushed.storage.drop flushed.wpos
  readBack : ∀ reader : ByteBuffer, reader.storage = buf.storage → reader.rpos = flushed.wpos →
    ∃ reader', reader.resetBitPos.readPackedUInt64 = some (value, reader') ∧
      reader'.rpos = buf.wpos

/-- `AppendPackedUInt64` goes through and keeps what was written before it. -/
def AppendsPacked (buf : ByteBuffer) (value : BitVec 64) : Prop :=
  ∃ flushed buf', buf.flushBits = some flushed ∧ buf.appendPackedUInt64 value = some buf' ∧
    Appended flushed buf' value

theorem resetBitPos_eq (buf : ByteBuffer) :
    buf.resetBitPos.storage = buf.storage ∧ buf.resetBitPos.rpos = buf.rpos := by
  unfold resetBitPos
  split <;> exact ⟨rfl, rfl⟩

theorem before_reset {reader : ByteBuffer} {l m r : List Byte}
    (hstorage : reader.storage = l ++ m ++ r) (hpos : reader.rpos = l.length) :
    reader.resetBitPos.Before m := by
  rw [Before, (resetBitPos_eq reader).1, (resetBitPos_eq reader).2, hstorage, hpos,
    List.append_assoc, List.drop_left]
  exact List.prefix_append m r

theorem readPacked_zero {reader : ByteBuffer} {l r : List Byte}
    (hstorage : reader.storage = l ++ [0] ++ r) (hpos : reader.rpos = l.length) :
    ∃ reader', reader.resetBitPos.readPackedUInt64 = some (0, reader') ∧
      reader'.rpos = l.length + 1 := by
  have hpresent : presentFrom 0 0 8 = [] := presentFrom_eq_nil.mpr rfl
  have hbefore : reader.resetBitPos.Before (0 :: presentFrom 0 0 8) := by
    rw [hpresent]
    exact before_reset hstorage hpos
  obtain ⟨reader', hread, hend⟩ := readPackedUInt64_spec (by decide) hbefore
  rw [hpresent, (resetBitPos_eq reader).2, hpos] at hend
  exact ⟨reader', hread, hend⟩

/-- A packed value is kept exactly when no bit was pending, or both the pending byte and the
mask are zero. -/
theorem appended_iff {buf flushed buf' : ByteBuffer} {l r : List Byte} {value : BitVec 64}
    {mask : Byte} (hmask : ∀ j < 8, mask.getLsbD j = decide (byteAt value j ≠ 0))
    (hflushed : flushed.Cut (l ++ buf.pending) r)
    (hcut : buf'.Cut (l ++ mask :: ((buf.pending ++ [0]).tail ++ presentFrom value 0 8)) r) :
    Appended flushed buf' value ↔ buf.bitpos = 8 ∨ value = 0 ∧ buf.curbitval = 0 := by
  have hafter : buf'.storage.drop buf'.wpos = flushed.storage.drop flushed.wpos := by
    rw [hcut.storage, hcut.wpos, hflushed.storage, hflushed.wpos, List.drop_left, List.drop_left]
  by_cases hpos : buf.bitpos = 8
  · rw [pending_flushed hpos, List.append_nil] at hflushed
    rw [pending_flushed hpos] at hcut
    refine ⟨fun _ => .inl hpos, fun _ => ⟨?_, hafter, fun reader hstorage hrpos => ?_⟩⟩
    · rw [hcut.storage, hflushed.storage, hflushed.wpos, List.take_left, List.append_assoc,
        List.take_left]
    · rw [hflushed.wpos] at hrpos
      have hbefore := before_reset (hstorage.trans hcut.storage) hrpos
      obtain ⟨reader', hread, hend⟩ := readPackedUInt64_spec hmask hbefore
      refine ⟨reader', hread, ?_⟩
      rw [hend, (resetBitPos_eq reader).2, hrpos, hcut.wpos]
      simp
      omega
  · have hpending : buf.pending = [buf.curbitval] := if_neg hpos
    rw [hpending] at hcut hflushed
    have hstorage : buf'.storage = l ++ [mask] ++ [0] ++ (presentFrom value 0 8 ++ r) := by
      simp [hcut.storage]
    have hwpos : buf'.wpos = l.length + 2 + (presentFrom value 0 8).length := by
      rw [hcut.wpos]
      simp
      omega
    have hstart : flushed.wpos = (l ++ [mask]).length := by simp [hflushed.wpos]
    have hbefore : buf'.storage.take flushed.wpos = flushed.storage.take flushed.wpos ↔
        l ++ [mask] = l ++ [buf.curbitval] := by
      rw [hflushed.storage, hflushed.wpos, List.take_left, ← hflushed.wpos, hstart, hstorage,
        List.append_assoc (l ++ [mask]), List.take_left]
    constructor
    · intro h
      refine .inr ?_
      have hfirst : mask = buf.curbitval := by
        simpa using hbefore.mp h.before
      obtain ⟨_, hread, hend⟩ := h.readBack { rpos := flushed.wpos, storage := buf'.storage } rfl rfl
      obtain ⟨_, hread₀, hend₀⟩ :=
        @readPacked_zero { rpos := flushed.wpos, storage := buf'.storage } _ _ hstorage hstart
      rw [hread₀] at hread
      obtain ⟨rfl, rfl⟩ := Prod.mk.inj (Option.some.inj hread)
      refine ⟨rfl, hfirst ▸ BitVec.eq_of_getLsbD_eq fun j hj => ?_⟩
      rw [hmask j hj]
      exact (show ∀ j < 8, decide (byteAt 0 j ≠ 0) = (0 : Byte).getLsbD j by decide) j hj
    · rintro (h8 | ⟨rfl, hcur⟩)
      · exact absurd h8 hpos
      · have hmask0 : mask = 0 := by
          refine BitVec.eq_of_getLsbD_eq fun j hj => ?_
          rw [hmask j hj]
          exact (show ∀ j < 8, decide (byteAt 0 j ≠ 0) = (0 : Byte).getLsbD j by decide) j hj
        refine ⟨?_, hafter, fun reader hreader hrpos => ?_⟩
        · rw [hbefore, hcur, hmask0]
        · obtain ⟨reader', hread, hend⟩ :=
            readPacked_zero (hreader.trans hstorage) (hrpos.trans hstart)
          refine ⟨reader', hread, ?_⟩
          rw [hend, hwpos, presentFrom_eq_nil.mpr rfl]
          simp

/-- `AppendPackedUInt64` keeps what was written and can be read back exactly when its appends find
room and no bit was pending, unless the pending byte and the value are both zero. -/
theorem appendsPacked_iff (buf : ByteBuffer) (value : BitVec 64) (h : buf.wpos ≤ buf.size) :
    buf.AppendsPacked value ↔ buf.RoomForPacked value ∧
      (buf.bitpos = 8 ∨ value = 0 ∧ buf.curbitval = 0) := by
  obtain ⟨mask, hpack, hmask⟩ := packUInt64_spec value
  have hcut := cut h
  have hrun := appendPackedUInt64_spec hcut hpack
  constructor
  · rintro ⟨flushed, buf', hflush, happend, hkept⟩
    have hroom : buf.RoomForPacked value := by
      by_contra hno
      rw [hrun.2 hno] at happend
      cases happend
    obtain ⟨flushed', hflush', hcut₁, -⟩ := hcut.flushBits fun _ => hroom.1
    obtain ⟨buf'', happend', hcut₂⟩ := hrun.1 hroom
    obtain rfl := Option.some.inj (hflush.symm.trans hflush')
    obtain rfl := Option.some.inj (happend.symm.trans happend')
    exact ⟨hroom, (appended_iff hmask hcut₁ hcut₂).mp hkept⟩
  · rintro ⟨hroom, hwhen⟩
    obtain ⟨flushed, hflush, hcut₁, -⟩ := hcut.flushBits fun _ => hroom.1
    obtain ⟨buf', happend, hcut₂⟩ := hrun.1 hroom
    exact ⟨flushed, buf', hflush, happend, (appended_iff hmask hcut₁ hcut₂).mpr hwhen⟩

def twoWritten : ByteBuffer := { wpos := 2, storage := [7, 0, 9] }

theorem appendsPacked_iff_flushed : twoWritten.AppendsPacked 0x2A00 :=
  (appendsPacked_iff twoWritten 0x2A00 (by decide)).mpr ⟨by decide, .inl rfl⟩

/-- One bit pending: the mask overwrites its byte, and the reader finds a mask without bits. -/
theorem appendsPacked_fails_pendingBit :
    ¬({ bitpos := 7, curbitval := 0x80 } : ByteBuffer).AppendsPacked 1 := by
  rintro ⟨flushed, buf', hflush, happend, hkept⟩
  obtain rfl : buf' = { wpos := 3, storage := [1, 0, 1] } := by
    refine (Option.some.inj (happend.symm.trans ?_))
    decide
  obtain rfl : flushed = { wpos := 1, storage := [0x80] } := by
    refine (Option.some.inj (hflush.symm.trans ?_))
    decide
  exact absurd hkept.before (by decide)

end ByteBuffer

end Ashamane.Packets
