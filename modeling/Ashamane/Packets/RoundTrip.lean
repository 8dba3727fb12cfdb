import Ashamane.Packets.Writer
import Mathlib.Algebra.Ring.Int.Defs
import Mathlib.Algebra.Ring.Nat

/-! The mirrored reads over what a run of writes stored. -/
namespace Ashamane.Packets
open Lib.BitStream
namespace ByteBuffer

/-- The reader stands before bit `r` of `S`. -/
structure Reads (buf : ByteBuffer) (S : List Bool) (r : Nat) : Prop where
  bits : byteBits buf.storage = S
  le : buf.rpos ≤ buf.size
  pos : buf.bitpos = 8 ∧ r = 8 * buf.rpos ∨
    ∃ n, buf.rpos = n + 1 ∧ buf.bitpos ≤ 7 ∧ r = 8 * n + buf.bitpos + 1 ∧
      buf.storage[n]? = some buf.curbitval

theorem Reads.up {buf : ByteBuffer} {S : List Bool} {r : Nat} (h : buf.Reads S r) :
    up r = 8 * buf.rpos := by
  unfold Lib.BitStream.up
  rcases h.pos with ⟨-, hr⟩ | ⟨n, hn, hpos, hr, -⟩ <;> omega

theorem Reads.size {buf : ByteBuffer} {S : List Bool} {r : Nat} (h : buf.Reads S r) :
    S.length = 8 * buf.size := by
  rw [← h.bits, length_byteBits, ByteBuffer.size]

theorem reads_ofStorage (storage : List Byte) :
    (ofStorage storage).Reads (byteBits storage) 0 :=
  ⟨rfl, Nat.zero_le _, .inl ⟨rfl, rfl⟩⟩

theorem resetBitPos_spec {buf : ByteBuffer} {S : List Bool} {r : Nat} (h : buf.Reads S r) :
    buf.resetBitPos.Reads S (up r) ∧ buf.resetBitPos.bitpos = 8 ∧
      buf.resetBitPos.rpos = buf.rpos ∧ buf.resetBitPos.storage = buf.storage := by
  rw [h.up, resetBitPos]
  split
  · rename_i hgt
    have h8 : buf.bitpos = 8 := by
      rcases h.pos with ⟨h8, -⟩ | ⟨n, -, hle, -⟩
      · exact h8
      · omega
    exact ⟨⟨h.bits, h.le, .inl ⟨h8, rfl⟩⟩, h8, rfl, rfl⟩
  · exact ⟨⟨h.bits, h.le, .inl ⟨rfl, rfl⟩⟩, rfl, rfl, rfl⟩

theorem bitAt_eq (buf : ByteBuffer) (h : buf.bitpos ≤ 7) :
    buf.bitAt = buf.curbitval.getMsbD buf.bitpos := by
  have : buf.bitpos < 8 := by omega
  simp [bitAt, BitVec.getMsbD, this]

theorem readBit_fresh (buf : ByteBuffer) (h : 7 ≤ buf.bitpos) :
    match buf.storage[buf.rpos]? with
    | none => buf.readBit = none
    | some c => ∃ buf', buf.readBit = some (c.getMsbD 0, buf') ∧
        buf' = { buf with rpos := buf.rpos + 1, bitpos := 0, curbitval := c } := by
  have hgt : buf.bitpos + 1 > 7 := by omega
  simp only [readBit, if_pos hgt, read, resetBitPos, ByteBuffer.size]
  cases hc : buf.storage[buf.rpos]? with
  | none =>
    have hlen := List.getElem?_eq_none_iff.mp hc
    rw [if_pos (by omega)]
    rfl
  | some c =>
    obtain ⟨hlen, rfl⟩ := List.getElem?_eq_some_iff.mp hc
    have htake : (buf.storage.drop buf.rpos).take 1 = [buf.storage[buf.rpos]] := by
      rw [List.drop_eq_getElem_cons hlen]
      rfl
    rw [if_neg (by omega), htake]
    refine ⟨_, ?_, rfl⟩
    simp [bitAt_eq]

theorem readBit_spec {buf : ByteBuffer} {S : List Bool} {r : Nat} (h : buf.Reads S r) :
    match S[r]? with
    | none => buf.readBit = none
    | some b => ∃ buf', buf.readBit = some (b, buf') ∧ buf'.Reads S (r + 1) := by
  rcases Nat.lt_or_ge buf.bitpos 7 with hlt | hge
  · rcases h.pos with ⟨h8, -⟩ | ⟨n, hn, hle, hr, hcur⟩
    · omega
    · have hget : S[r]? = some (buf.curbitval.getMsbD (buf.bitpos + 1)) := by
        rw [hr, Nat.add_assoc, ← h.bits, getElem?_byteBits _ _ _ (by omega), hcur]
        rfl
      have hle' : ¬ buf.bitpos + 1 > 7 := by omega
      have hbit := bitAt_eq { buf with bitpos := buf.bitpos + 1 } (Nat.succ_le_of_lt hlt)
      rw [hget]
      refine ⟨{ buf with bitpos := buf.bitpos + 1 }, ?_, h.bits, h.le,
        .inr ⟨n, hn, Nat.succ_le_of_lt hlt, by rw [hr]; rfl, hcur⟩⟩
      simp only [readBit, if_neg hle', hbit]
  · have hr : r = 8 * buf.rpos := by
      rcases h.pos with ⟨-, hr⟩ | ⟨n, hn, hle, hr, -⟩ <;> omega
    have hget : S[r]? = buf.storage[buf.rpos]?.map fun c => c.getMsbD 0 := by
      rw [hr, ← h.bits]
      exact getElem?_byteBits _ _ 0 (by decide)
    have hrun := readBit_fresh buf hge
    rw [hget]
    cases hc : buf.storage[buf.rpos]? with
    | none => simpa [hc] using hrun
    | some c =>
      rw [hc] at hrun
      obtain ⟨buf', hrun, rfl⟩ := hrun
      have hlt : buf.rpos < buf.storage.length := (List.getElem?_eq_some_iff.mp hc).1
      exact ⟨_, hrun, h.bits, hlt, .inr ⟨buf.rpos, rfl, by simp, by simpa using hr, hc⟩⟩

theorem bitItems_shape {m : Nat} (v : BitVec m) (n : Nat) :
    (bitItems v n).map Item.shape = List.replicate n .bit := by
  induction n with
  | zero => rfl
  | succ n ih => simp [bitItems, Item.shape, ih, List.replicate_succ]

theorem bitItems_eq_iff {m k : Nat} (v : BitVec m) (u : BitVec k) (n : Nat) :
    bitItems v n = bitItems u n ↔ ∀ i < n, v.getLsbD i = u.getLsbD i := by
  induction n with
  | zero => simp [bitItems]
  | succ n ih =>
    simp only [bitItems, List.cons.injEq, Item.bit.injEq, ih, Nat.forall_lt_succ_right]
    exact and_comm

theorem getLsbD_set (value : BitVec 32) (b : Bool) (n i : Nat) (h : value.getLsbD n = false)
    (hn : n < 32) :
    (if b then value ||| (1 : BitVec 32) <<< n else value).getLsbD i =
      if i = n then b else value.getLsbD i := by
  by_cases hi : i = n
  · subst hi
    rw [if_pos rfl]
    cases b with
    | false => exact h
    | true => simp [hn]
  · cases b with
    | false => simp [hi]
    | true =>
      have : i < n ∨ i - n ≠ 0 := by omega
      simp [hi, BitVec.getLsbD_one]
      omega

/-- The bits of the value under `n` come from the stream, the others stay. -/
theorem readBits_spec (n : Nat) (hn : n ≤ 32) (value : BitVec 32)
    (hvalue : ∀ i < n, value.getLsbD i = false) {buf : ByteBuffer} {S : List Bool} {r : Nat}
    (h : buf.Reads S r) :
    match getAll S r (List.replicate n .bit) with
    | none => buf.readBits value n = none
    | some (items, r') => ∃ v buf', buf.readBits value n = some (v, buf') ∧ buf'.Reads S r' ∧
        items = bitItems v n ∧ ∀ i, n ≤ i → v.getLsbD i = value.getLsbD i := by
  induction n generalizing value buf r with
  | zero => exact ⟨value, buf, rfl, h, rfl, fun _ _ => rfl⟩
  | succ n ih =>
    have hbit := readBit_spec h
    rw [List.replicate_succ, getAll, readBits]
    simp only [Lib.BitStream.get]
    cases hS : S[r]? with
    | none =>
      rw [hS] at hbit
      simp [hbit]
    | some b =>
      rw [hS] at hbit
      obtain ⟨buf₁, hrun, h₁⟩ := hbit
      have hset := fun i => getLsbD_set value b n i (hvalue n (Nat.lt_succ_self n)) (by omega)
      have hrest := ih (by omega) (if b then value ||| (1 : BitVec 32) <<< n else value)
        (fun i hi => by rw [hset, if_neg (Nat.ne_of_lt hi), hvalue i (by omega)]) h₁
      simp only [hrun, Option.map_some, Option.bind_eq_bind, Option.bind_some, Option.pure_def]
      cases hall : getAll S (r + 1) (List.replicate n .bit) with
      | none =>
        rw [hall] at hrest
        exact hrest
      | some x =>
        rw [hall] at hrest
        obtain ⟨v, buf', hrun', h', hitems, hhigh⟩ := hrest
        refine ⟨v, buf', hrun', h', ?_, fun i hi => ?_⟩
        · rw [bitItems, hhigh n (Nat.le_refl n), hset, if_pos rfl, hitems]
        · rw [hhigh i (by omega), hset, if_neg (by omega)]

def Mirrors (S : List Bool) (op : Write) (o : Option (Write × ByteBuffer)) :
    Option (List Item × Nat) → Prop
  | none => o = none
  | some (items, r) => ∃ op' buf, o = some (op', buf) ∧ buf.Reads S r ∧
      (op' = op ↔ items = op.items)

theorem length_toBytes (n v : Nat) : (toBytes n v).length = n := by
  induction n generalizing v with
  | zero => rfl
  | succ n ih => simp [toBytes, ih]

theorem ofBytes_toBytes (n v : Nat) : ofBytes (toBytes n v) = v % 256 ^ n := by
  induction n generalizing v with
  | zero => simp [toBytes, ofBytes, Nat.mod_one]
  | succ n ih =>
    rw [toBytes, ofBytes, ih, BitVec.toNat_ofNat, Nat.pow_succ' (m := 256)]
    exact Nat.mod_mul.symm

theorem toBytes_ofBytes (l : List Byte) : toBytes l.length (ofBytes l) = l := by
  induction l with
  | nil => rfl
  | cons b l ih =>
    have hb : b.toNat < 256 := b.isLt
    have hdiv : (b.toNat + 256 * ofBytes l) / 256 = ofBytes l := by omega
    have hmod : BitVec.ofNat 8 (b.toNat + 256 * ofBytes l) = b := by
      refine BitVec.eq_of_toNat_eq ?_
      rw [BitVec.toNat_ofNat]
      omega
    rw [List.length_cons, ofBytes, toBytes, hdiv, hmod, ih]

theorem ofBytes_lt (l : List Byte) : ofBytes l < 256 ^ l.length := by
  induction l with
  | nil => simp [ofBytes]
  | cons b l ih =>
    have hb : b.toNat < 256 := b.isLt
    rw [ofBytes, List.length_cons, Nat.pow_succ]
    omega

theorem ofBytes_eq_iff (t : IntType) (v : BitVec (8 * t.size)) (l : List Byte)
    (hl : l.length = t.size) :
    BitVec.ofNat (8 * t.size) (ofBytes l) = v ↔ l = toBytes t.size v.toNat := by
  have hpow : 2 ^ (8 * t.size) = 256 ^ t.size := by rw [Nat.pow_mul]
  constructor
  · rintro rfl
    have hlt := ofBytes_lt l
    rw [BitVec.toNat_ofNat, hpow, ← hl, Nat.mod_eq_of_lt hlt, toBytes_ofBytes]
  · rintro rfl
    rw [ofBytes_toBytes, ← hpow, Nat.mod_eq_of_lt v.isLt, BitVec.ofNat_toNat, BitVec.setWidth_eq]

theorem block_spec {buf : ByteBuffer} {S : List Bool} {r : Nat} (h : buf.Reads S r) (n : Nat) :
    get S r (.block (8 * n)) =
      if buf.rpos + n > buf.size then none
      else some (.block (byteBits ((buf.storage.drop buf.rpos).take n)), 8 * (buf.rpos + n)) := by
  rw [Lib.BitStream.get, h.up, h.size, byteBits_take, byteBits_drop, h.bits, ← Nat.mul_add]
  by_cases hle : buf.rpos + n > buf.size
  · rw [if_pos hle, if_neg (by omega)]
  · rw [if_neg hle, if_pos (by omega)]

theorem read_spec {buf : ByteBuffer} {S : List Bool} {r : Nat} (h : buf.Reads S r) (n : Nat) :
    buf.read n = if buf.rpos + n > buf.size then none
      else some ((buf.storage.drop buf.rpos).take n,
        { buf.resetBitPos with rpos := buf.rpos + n }) := by
  obtain ⟨-, -, hr, hs⟩ := resetBitPos_spec h
  simp only [read, ByteBuffer.size, hr, hs]

theorem reads_advance {buf : ByteBuffer} {S : List Bool} {r n : Nat} (h : buf.Reads S r)
    (hn : ¬ n > buf.size) : { buf.resetBitPos with rpos := n }.Reads S (8 * n) := by
  obtain ⟨-, h8, -, hs⟩ := resetBitPos_spec h
  refine ⟨hs ▸ h.bits, ?_, .inl ⟨h8, rfl⟩⟩
  rw [ByteBuffer.size] at hn ⊢
  simpa [hs] using hn

theorem length_slice {buf : ByteBuffer} {n : Nat} (h : ¬ buf.rpos + n > buf.size) :
    ((buf.storage.drop buf.rpos).take n).length = n := by
  unfold ByteBuffer.size at h
  simp; omega

theorem readString_spec {buf : ByteBuffer} {S : List Bool} {r : Nat} (h : buf.Reads S r) {n : Nat}
    (hn : n < 2 ^ 32) :
    buf.readString (BitVec.ofNat 32 n) = if buf.rpos + n > buf.size then none
      else some ((buf.storage.drop buf.rpos).take n,
        { buf.resetBitPos with rpos := buf.rpos + n }) := by
  obtain ⟨-, -, hr, hs⟩ := resetBitPos_spec h
  have htoNat : (BitVec.ofNat 32 n).toNat = n := by
    rw [BitVec.toNat_ofNat, Nat.mod_eq_of_lt hn]
  have hzero : BitVec.ofNat 32 n = 0 ↔ n = 0 := by
    rw [← BitVec.toNat_inj, htoNat]
    rfl
  rw [readString, htoNat]
  by_cases h0 : n = 0
  · have heq : { buf.resetBitPos with rpos := buf.rpos + 0 } = buf.resetBitPos := by
      rw [Nat.add_zero, ← hr]
    subst h0
    rw [heq]
    rfl
  · simp only [hzero, if_neg h0, hr, hs]

theorem readField_spec {buf : ByteBuffer} {S : List Bool} {r : Nat} (h : buf.Reads S r)
    (op : Write) (hop : ∀ str, op = .string str → str.length < 2 ^ 32) :
    Mirrors S op (buf.readField op.field) (getAll S r (op.items.map Item.shape)) := by
  cases op with
  | bit b =>
    have hbit := readBit_spec h
    rw [Write.items, List.map_singleton, getAll_singleton]
    simp only [Item.shape, Lib.BitStream.get, Write.field, readField]
    cases hS : S[r]? with
    | none =>
      rw [hS] at hbit
      simp [Mirrors, hbit]
    | some b' =>
      rw [hS] at hbit
      obtain ⟨buf', hrun, h'⟩ := hbit
      exact ⟨.bit b', buf', by rw [hrun]; rfl, h', by simp [Write.items]⟩
  | bits n v =>
    have hn : (n : Nat) ≤ 32 := by omega
    have hbits := readBits_spec n hn 0 (fun i _ => by simp) h
    rw [Write.items, bitItems_shape]
    simp only [Write.field, readField]
    cases hall : getAll S r (List.replicate n .bit) with
    | none =>
      rw [hall] at hbits
      exact congrArg _ hbits
    | some x =>
      rw [hall] at hbits
      obtain ⟨u, buf', hrun, h', hitems, -⟩ := hbits
      refine ⟨.bits n (u.setWidth n), buf', by rw [hrun]; rfl, h', ?_⟩
      rw [hitems, Write.items, bitItems_eq_iff, Write.bits.injEq, heq_eq_eq]
      constructor
      · rintro ⟨-, rfl⟩ i hi
        rw [BitVec.getLsbD_setWidth, decide_eq_true hi, Bool.true_and]
      · intro hu
        refine ⟨rfl, BitVec.eq_of_getLsbD_eq fun i hi => ?_⟩
        rw [BitVec.getLsbD_setWidth, decide_eq_true hi, Bool.true_and, hu i hi]
  | flush =>
    rw [Write.items, List.map_singleton, getAll_singleton]
    exact ⟨.flush, buf.resetBitPos, rfl, (resetBitPos_spec h).1, by simp [Write.items]⟩
  | int t v =>
    rw [Write.items, List.map_singleton, getAll_singleton, Item.shape, length_byteBits,
      length_toBytes, block_spec h]
    simp only [Write.field, readField, read_spec h]
    split
    · rfl
    · rename_i hle
      refine ⟨_, _, rfl, reads_advance h hle, ?_⟩
      rw [Write.items, Write.int.injEq, heq_eq_eq, ofBytes_eq_iff t v _ (length_slice hle)]
      rw [List.cons.injEq, Item.block.injEq, byteBits_inj, and_iff_left rfl, and_iff_right rfl]
  | string str =>
    have hlen := hop str rfl
    simp only [Write.field, readField, readString_spec h hlen]
    by_cases hs : str = []
    · subst hs
      have hle : ¬ buf.rpos + 0 > buf.size := Nat.not_lt.mpr h.le
      rw [Write.items, if_pos rfl, List.map_singleton, getAll_singleton, List.length_nil, if_neg hle]
      refine ⟨_, _, rfl, ?_, by simp [Write.items]⟩
      rw [h.up]
      exact reads_advance h hle
    · rw [Write.items, if_neg hs, List.map_singleton, getAll_singleton, Item.shape,
        length_byteBits, block_spec h]
      split
      · rfl
      · rename_i hle
        refine ⟨_, _, rfl, reads_advance h hle, ?_⟩
        rw [Write.items, if_neg hs, Write.string.injEq, List.cons.injEq, Item.block.injEq,
          byteBits_inj, and_iff_left rfl]

/-- The mirrored reads of a whole sequence against the reads of the bit stream. -/
theorem readAll_iff (ops : List Write) (hops : ∀ str, .string str ∈ ops → str.length < 2 ^ 32)
    {buf : ByteBuffer} {S : List Bool} {r : Nat} (h : buf.Reads S r) :
    (∃ buf', buf.readAll (ops.map Write.field) = some (ops, buf') ∧ 8 * buf'.rpos = S.length) ↔
      ∃ e, getAll S r ((itemsOf ops).map Item.shape) = some (itemsOf ops, e) ∧
        Lib.BitStream.up e = S.length := by
  induction ops generalizing buf r with
  | nil => simp [readAll, itemsOf, getAll, h.up]
  | cons op ops ih =>
    have hfield := readField_spec h op fun str hs => hops str (hs ▸ List.mem_cons_self)
    have hcons : itemsOf (op :: ops) = op.items ++ itemsOf ops := List.flatMap_cons
    rw [hcons, List.map_append, getAll_append, List.map_cons, readAll]
    cases hget : getAll S r (op.items.map Item.shape) with
    | none =>
      rw [hget] at hfield
      simp [show buf.readField op.field = none from hfield]
    | some x =>
      rw [hget] at hfield
      obtain ⟨op', buf₁, hrun, h₁, hop⟩ := hfield
      have hlen : x.1.length = op.items.length := by simpa using length_of_getAll _ _ _ _ _ hget
      have hrest := ih (fun str hs => hops str (List.mem_cons_of_mem _ hs)) h₁
      have hleft : (∃ buf', ((some (op', buf₁)).bind fun y =>
          (y.2.readAll (ops.map Write.field)).map fun z => (y.1 :: z.1, z.2)) =
            some (op :: ops, buf') ∧ 8 * buf'.rpos = S.length) ↔
          op' = op ∧ ∃ buf', buf₁.readAll (ops.map Write.field) = some (ops, buf') ∧
            8 * buf'.rpos = S.length := by
        simp only [Option.bind_some, Option.map_eq_some_iff, Prod.mk.injEq, List.cons.injEq]
        constructor
        · rintro ⟨buf', ⟨z, hz, ⟨hop', hz₁⟩, hz₂⟩, hend⟩
          exact ⟨hop', buf', by rw [hz, ← hz₁, ← hz₂], hend⟩
        · rintro ⟨hop', buf', hz, hend⟩
          exact ⟨buf', ⟨_, hz, ⟨hop', rfl⟩, rfl⟩, hend⟩
      have hright : (∃ e, ((some x).bind fun y =>
          (getAll S y.2 ((itemsOf ops).map Item.shape)).map fun z => (y.1 ++ z.1, z.2)) =
            some (op.items ++ itemsOf ops, e) ∧ Lib.BitStream.up e = S.length) ↔
          x.1 = op.items ∧ ∃ e, getAll S x.2 ((itemsOf ops).map Item.shape) =
            some (itemsOf ops, e) ∧ Lib.BitStream.up e = S.length := by
        simp only [Option.bind_some, Option.map_eq_some_iff, Prod.mk.injEq]
        constructor
        · rintro ⟨e, ⟨z, hz, hz₁, hz₂⟩, hend⟩
          obtain ⟨hx, hz₁⟩ := List.append_inj hz₁ hlen
          exact ⟨hx, e, by rw [hz, ← hz₁, ← hz₂], hend⟩
        · rintro ⟨hx, e, hz, hend⟩
          exact ⟨e, ⟨_, hz, by rw [hx], rfl⟩, hend⟩
      rw [hrun]
      exact hleft.trans ((and_congr hop hrest).trans hright.symm)

/-- A string that was read is shorter than its length field can tell. -/
theorem length_of_readField {buf buf' : ByteBuffer} {f : Field} {str : List Byte}
    (h : buf.readField f = some (.string str, buf')) : str.length < 2 ^ 32 := by
  cases f with
  | bit => simp [readField] at h
  | bits n => simp [readField] at h
  | flush => simp [readField] at h
  | int t => simp [readField] at h
  | string len =>
    simp only [readField, Option.map_eq_some_iff, Prod.mk.injEq, Write.string.injEq] at h
    obtain ⟨⟨s, b⟩, hread, rfl, -⟩ := h
    have hlt := (BitVec.ofNat 32 len).isLt
    rw [readString] at hread
    split at hread
    · cases hread
    · split at hread
      · cases hread
        simp
      · cases hread
        simp
        omega

theorem length_of_readAll {fields : List Field} {buf buf' : ByteBuffer} {ops : List Write}
    (h : buf.readAll fields = some (ops, buf')) (str : List Byte) (hs : .string str ∈ ops) :
    str.length < 2 ^ 32 := by
  induction fields generalizing buf ops with
  | nil => simp only [readAll, Option.some.injEq, Prod.mk.injEq] at h; simp [← h.1] at hs
  | cons f fields ih =>
    simp only [readAll, Option.bind_eq_some_iff, Option.map_eq_some_iff, Prod.mk.injEq] at h
    obtain ⟨⟨op, buf₁⟩, hf, ⟨ops', buf₂⟩, hall, ⟨rfl, rfl⟩⟩ := h
    rcases List.mem_cons.mp hs with rfl | hs
    · exact length_of_readField hf
    · exact ih hall hs

end ByteBuffer

/-- What a sequence of writes needs to be read back. With `w` bits written and the reader at
bit `r`, both move to the next byte where the writer flushes or appends, but at an empty string
only the reader does; a bit written while they stand apart has to be zero, and they have to
end together with no byte open. -/
structure Mirrored (ops : List Write) : Prop where
  strings : ∀ str, .string str ∈ ops → str.length < 2 ^ 32
  room : Room 0 (itemsOf ops)
  inStep : InStep 0 0 (itemsOf ops)

theorem wholeBytes_bitItems {m : Nat} (v : BitVec m) (n : Nat) : WholeBytes (bitItems v n) := by
  induction n with
  | zero => simp [bitItems, WholeBytes]
  | succ n ih => simpa [bitItems, WholeBytes] using ih

theorem wholeBytes_itemsOf (ops : List Write) : WholeBytes (itemsOf ops) := by
  intro l hl
  obtain ⟨op, -, hl⟩ := List.mem_flatMap.mp hl
  cases op with
  | bit b => simp [Write.items] at hl
  | bits n v => exact wholeBytes_bitItems v n l hl
  | flush => simp [Write.items] at hl
  | int t v =>
    obtain rfl : l = _ := by simpa [Write.items] using hl
    rw [length_byteBits, Nat.mul_mod_right]
  | string str =>
    rw [Write.items] at hl
    split at hl
    · simp at hl
    · obtain rfl : l = _ := by simpa using hl
      rw [length_byteBits, Nat.mul_mod_right]

/-- Reading back returns what was written exactly when the two cursors stay in step, every
append finds room and every string is short enough for its length. -/
theorem roundTrip_iff (ops : List Write) : RoundTrip ops ↔ Mirrored ops := by
  have hwrite := ByteBuffer.writeAll_spec ops ByteBuffer.wrote_empty
  have hget := getAll_iff (itemsOf ops) [] 0 (wholeBytes_itemsOf ops) (Nat.le_refl 0)
  constructor
  · rintro ⟨w, hw, r, hr, hend⟩
    have hroom : Room 0 (itemsOf ops) := by
      by_contra hn
      exact Option.some_ne_none w (hw.symm.trans (hwrite.2 hn))
    obtain ⟨w', hw', hwrote⟩ := hwrite.1 hroom
    obtain rfl : w = w' := Option.some.inj (hw.symm.trans hw')
    have hstrings := ByteBuffer.length_of_readAll hr
    refine ⟨hstrings, hroom, hget.mp ?_⟩
    rw [← hwrote.stored]
    refine (ByteBuffer.readAll_iff ops hstrings (ByteBuffer.reads_ofStorage w.storage)).mp
      ⟨r, hr, ?_⟩
    rw [length_byteBits, hend, hwrote.wpos]
  · intro h
    obtain ⟨w, hw, hwrote⟩ := hwrite.1 h.room
    have hstep := hget.mpr h.inStep
    rw [← hwrote.stored] at hstep
    obtain ⟨r, hr, hend⟩ := (ByteBuffer.readAll_iff ops h.strings
      (ByteBuffer.reads_ofStorage w.storage)).mpr hstep
    refine ⟨w, hw, r, hr, ?_⟩
    rw [length_byteBits] at hend
    rw [hwrote.wpos]
    omega

/-- A bit after an empty string in an open byte: the writer goes on in that byte, the reader
looks for it in the next one. -/
theorem roundTrip_fails_emptyString :
    ¬ ∀ ops : List Write, RoundTrip ops := by
  intro h
  obtain ⟨w, hw, r, hr, -⟩ := h [.bit true, .string [], .bit true, .flush]
  have hbuf : ({} : ByteBuffer).writeAll [.bit true, .string [], .bit true, .flush] =
      some { wpos := 1, storage := [0xC0] } := by decide
  have hread : (ByteBuffer.ofStorage [0xC0]).readAll [.bit, .string 0, .bit, .flush] = none := by
    decide
  obtain rfl := Option.some.inj (hbuf.symm.trans hw)
  exact Option.some_ne_none _ (hr.symm.trans hread)

end Ashamane.Packets
