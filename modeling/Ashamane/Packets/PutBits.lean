import Ashamane.Packets.RoundTrip
import Mathlib.Tactic.Ring

/-! Bits that are put over stored ones. -/
namespace Ashamane.Packets
namespace ByteBuffer
open Lib.BitStream

def putBit (storage : List Byte) (pos : Nat) (bit : Bool) : List Byte :=
  storage.modify (pos / 8) fun c =>
    if bit then c ||| (1 : Byte) <<< (7 - pos % 8) else c &&& ~~~((1 : Byte) <<< (7 - pos % 8))

def putRounds (storage : List Byte) (pos : Nat) (value : BitVec 64) (bitCount : Nat) :
    Nat → List Byte
  | 0 => storage
  | i + 1 => putBit (putRounds storage pos value bitCount i) (pos + i)
      ((value >>> (bitCount - i - 1)).getLsbD 0)

def putBits (buf : ByteBuffer) (pos : Nat) (value : BitVec 64) (bitCount : Nat) :
    Option ByteBuffer :=
  if pos + bitCount ≤ buf.size * 8 ∧ bitCount ≠ 0 then
    some { buf with storage := putRounds buf.storage pos value bitCount bitCount }
  else none

def readEach (buf : ByteBuffer) : Nat → Option (List Bool × ByteBuffer)
  | 0 => some ([], buf)
  | n + 1 => buf.readBit.bind fun (bit, buf) =>
      (buf.readEach n).map fun (bits, buf) => (bit :: bits, buf)

end ByteBuffer
open Lib.BitStream

/-- The lowest `n` bits of a value, from bit `n - 1` down. -/
def valueBits (value : BitVec 64) : Nat → List Bool
  | 0 => []
  | n + 1 => value.getLsbD n :: valueBits value n

theorem length_valueBits (value : BitVec 64) (n : Nat) : (valueBits value n).length = n := by
  induction n with
  | zero => rfl
  | succ n ih => rw [valueBits, List.length_cons, ih]

theorem getElem?_valueBits (value : BitVec 64) {n i : Nat} (h : i < n) :
    (valueBits value n)[i]? = some (value.getLsbD (n - i - 1)) := by
  induction n generalizing i with
  | zero => omega
  | succ n ih =>
    cases i with
    | zero => rfl
    | succ i =>
      rw [valueBits, List.getElem?_cons_succ, ih (by omega), Nat.add_sub_add_right]

theorem foldl_valueBits (value : BitVec 64) (n : Nat) (acc : Nat) :
    (valueBits value n).foldl (fun v bit => 2 * v + bit.toNat) acc =
      acc * 2 ^ n + value.toNat % 2 ^ n := by
  induction n generalizing acc with
  | zero => simp [valueBits, Nat.mod_one]
  | succ n ih =>
    rw [valueBits, List.foldl_cons, ih, Nat.mod_pow_succ, BitVec.getLsbD, Nat.toNat_testBit]
    ring

namespace ByteBuffer

theorem getMsbD_one_shift :
    ∀ k < 8, ∀ i < 8, ((1 : Byte) <<< (7 - k)).getMsbD i = decide (i = k) := by decide

theorem getMsbD_put (c : Byte) (b : Bool) {k i : Nat} (hk : k < 8) (hi : i < 8) :
    (if b then c ||| (1 : Byte) <<< (7 - k) else c &&& ~~~((1 : Byte) <<< (7 - k))).getMsbD i =
      if i = k then b else c.getMsbD i := by
  have hone := getMsbD_one_shift k hk i hi
  cases b with
  | true =>
    rw [if_pos rfl, BitVec.getMsbD_or, hone]
    by_cases h : i = k <;> simp [h]
  | false =>
    rw [if_neg Bool.false_ne_true, BitVec.getMsbD_and, BitVec.getMsbD_not, hone, decide_eq_true hi]
    by_cases h : i = k <;> simp [h]

theorem byteBits_putBit (storage : List Byte) (pos : Nat) (bit : Bool) :
    byteBits (putBit storage pos bit) = (byteBits storage).set pos bit := by
  refine List.ext_getElem? fun j => ?_
  obtain ⟨a, k, hk, rfl⟩ : ∃ a k, k < 8 ∧ j = 8 * a + k :=
    ⟨j / 8, j % 8, Nat.mod_lt j (by decide), (Nat.div_add_mod j 8).symm⟩
  rw [getElem?_byteBits _ _ _ hk, putBit, List.getElem?_modify, List.getElem?_set,
    getElem?_byteBits _ _ _ hk, length_byteBits]
  rcases Nat.lt_or_ge a storage.length with hlt | hge
  · rw [List.getElem?_eq_getElem hlt]
    by_cases ha : pos / 8 = a
    · have hput := getMsbD_put storage[a] bit (Nat.mod_lt pos (by decide)) hk
      simp only [if_pos ha, Option.map_eq_map, Option.map_some, hput]
      by_cases hj : pos = 8 * a + k
      · rw [if_pos hj, if_pos (by omega), if_pos (by omega)]
      · rw [if_neg hj, if_neg (by omega)]
    · have hj : pos ≠ 8 * a + k := by omega
      simp only [if_neg ha, if_neg hj, Option.map_eq_map, Option.map_some]
  · rw [List.getElem?_eq_none hge]
    by_cases hj : pos = 8 * a + k
    · rw [if_pos hj, if_neg (by omega)]
      rfl
    · rw [if_neg hj]
      rfl

theorem byteBits_putRounds {storage : List Byte} {pos bitCount : Nat} (value : BitVec 64)
    (hpos : pos + bitCount ≤ (byteBits storage).length) {i : Nat} (hi : i ≤ bitCount) :
    byteBits (putRounds storage pos value bitCount i) = (byteBits storage).take pos ++
      (valueBits value bitCount).take i ++ (byteBits storage).drop (pos + i) := by
  induction i with
  | zero => simp [putRounds]
  | succ i ih =>
    have hbit : (value >>> (bitCount - i - 1)).getLsbD 0 = value.getLsbD (bitCount - i - 1) := by
      rw [BitVec.getLsbD_ushiftRight, Nat.add_zero]
    have hget := getElem?_valueBits value (Nat.lt_of_succ_le hi)
    have hlen : ((byteBits storage).take pos ++ (valueBits value bitCount).take i).length =
        pos + i := by
      rw [List.length_append, List.length_take_of_le (by omega),
        List.length_take_of_le (by rw [length_valueBits]; omega)]
    have hlt : pos + i < (byteBits storage).length := by omega
    rw [putRounds, byteBits_putBit, ih (Nat.le_of_succ_le hi), hbit,
      List.set_append_right _ _ (Nat.le_of_eq hlen), hlen, Nat.sub_self,
      List.drop_eq_getElem_cons hlt, List.set_cons_zero, List.take_add_one, hget, Nat.add_assoc]
    simp

theorem readEach_spec {bits : List Bool} {S : List Bool} {r : Nat} {buf : ByteBuffer}
    (h : buf.Reads S r) (hbits : bits <+: S.drop r) :
    ∃ buf', buf.readEach bits.length = some (bits, buf') ∧ buf'.Reads S (r + bits.length) := by
  induction bits generalizing r buf with
  | nil => exact ⟨buf, rfl, h⟩
  | cons b bits ih =>
    obtain ⟨t, ht⟩ := hbits
    have hget : S[r]? = some b := by
      have hzero := congrArg (·[0]?) ht
      simpa using hzero.symm
    have hrest : bits <+: S.drop (r + 1) := by
      have htail := congrArg List.tail ht
      exact ⟨t, by simpa using htail⟩
    have hbit := readBit_spec h
    rw [hget] at hbit
    obtain ⟨buf₁, hrun, h₁⟩ := hbit
    obtain ⟨buf', hrun', h'⟩ := ih h₁ hrest
    refine ⟨buf', ?_, ?_⟩
    · simp only [List.length_cons, readEach, hrun, Option.bind_some, hrun']
      rfl
    · rwa [List.length_cons, Nat.add_comm bits.length, ← Nat.add_assoc]

structure Puts (buf : ByteBuffer) (pos : Nat) (value : BitVec 64) (bitCount : Nat)
    (buf' : ByteBuffer) : Prop where
  frame : { buf' with storage := buf.storage } = buf
  bits : byteBits buf'.storage = (byteBits buf.storage).take pos ++ valueBits value bitCount ++
    (byteBits buf.storage).drop (pos + bitCount)
  readBack : ∀ reader : ByteBuffer, reader.Reads (byteBits buf'.storage) pos →
    ∃ reader', reader.readEach bitCount = some (valueBits value bitCount, reader')
  whole : (valueBits value bitCount).foldl (fun v bit => 2 * v + bit.toNat) 0 = value.toNat
  readBits : bitCount ≤ 32 → ∀ reader : ByteBuffer, reader.Reads (byteBits buf'.storage) pos →
    ∃ reader', reader.readBits 0 bitCount = some (value.setWidth 32, reader')

theorem getAll_bits {S : List Bool} {value : BitVec 64} {n r : Nat}
    (h : valueBits value n <+: S.drop r) :
    getAll S r (List.replicate n .bit) = some (bitItems value n, r + n) := by
  induction n generalizing r with
  | zero => rfl
  | succ n ih =>
    obtain ⟨t, ht⟩ := h
    have hget : S[r]? = some (value.getLsbD n) := by
      have hzero := congrArg (·[0]?) ht
      simpa [valueBits] using hzero.symm
    have hrest : valueBits value n <+: S.drop (r + 1) := by
      have htail := congrArg List.tail ht
      exact ⟨t, by simpa [valueBits] using htail⟩
    rw [List.replicate_succ, getAll, Lib.BitStream.get, hget]
    simp only [Option.map_some, Option.bind_eq_bind, Option.bind_some, ih hrest]
    rw [Nat.add_assoc, Nat.add_comm 1 n]
    rfl

/-- One bit or more, all among the stored ones. -/
theorem putBits_spec (buf : ByteBuffer) (pos : Nat) (value : BitVec 64) (bitCount : Nat)
    (hpos : pos + bitCount ≤ 8 * buf.size) (hone : 1 ≤ bitCount) (_ : bitCount ≤ 64)
    (hvalue : value.toNat < 2 ^ bitCount) :
    ∃ buf', buf.putBits pos value bitCount = some buf' ∧ Puts buf pos value bitCount buf' := by
  have hlen : (byteBits buf.storage).length = 8 * buf.size := length_byteBits _
  have hbits := @byteBits_putRounds buf.storage pos bitCount value (hlen ▸ hpos) bitCount
    (Nat.le_refl bitCount)
  rw [List.take_of_length_le (Nat.le_of_eq (length_valueBits value bitCount))] at hbits
  have hprefix : valueBits value bitCount <+:
      (byteBits (putRounds buf.storage pos value bitCount bitCount)).drop pos := by
    rw [hbits, List.append_assoc, List.drop_left' (List.length_take_of_le (by omega))]
    exact List.prefix_append _ _
  refine ⟨_, if_pos ⟨by omega, by omega⟩, rfl, hbits, fun reader hreader => ?_, ?_,
    fun hle reader hreader => ?_⟩
  · obtain ⟨reader', hrun, -⟩ := readEach_spec hreader hprefix
    rw [length_valueBits] at hrun
    exact ⟨reader', hrun⟩
  · rw [foldl_valueBits, Nat.zero_mul, Nat.zero_add, Nat.mod_eq_of_lt hvalue]
  · have hread := readBits_spec bitCount hle 0 (fun i _ => by simp) hreader
    rw [getAll_bits hprefix] at hread
    obtain ⟨v, reader', hrun, -, hitems, hhigh⟩ := hread
    have hv : v = value.setWidth 32 := by
      refine BitVec.eq_of_getLsbD_eq fun i hi => ?_
      rw [BitVec.getLsbD_setWidth, decide_eq_true hi, Bool.true_and]
      rcases Nat.lt_or_ge i bitCount with hlt | hge
      · exact ((bitItems_eq_iff value v bitCount).mp hitems i hlt).symm
      · have hlow : value.toNat < 2 ^ i :=
          Nat.lt_of_lt_of_le hvalue (Nat.pow_le_pow_right (by decide) hge)
        rw [hhigh i hge, BitVec.getLsbD, BitVec.getLsbD, Nat.testBit_lt_two_pow hlow]
        exact Nat.zero_testBit i
    exact ⟨reader', hv ▸ hrun⟩

theorem putBits_spec_acrossBytes : ∃ buf',
    ({ wpos := 2, storage := [0xFF, 0] } : ByteBuffer).putBits 6 5 4 = some buf' ∧
      Puts { wpos := 2, storage := [0xFF, 0] } 6 5 4 buf' :=
  putBits_spec _ 6 5 4 (by decide) (by decide) (by decide) (by decide)

/-- No bit is too few. -/
theorem putBits_fails_noBits : ¬∃ buf',
    ({ wpos := 1, storage := [0xFF] } : ByteBuffer).putBits 0 0 0 = some buf' ∧
      Puts { wpos := 1, storage := [0xFF] } 0 0 0 buf' := by
  rintro ⟨buf', hput, -⟩
  cases hput

end ByteBuffer
end Ashamane.Packets
