import Ashamane.Packets.Packed

/-! Guids on the wire: the masks of both halves, and then their bytes that are not zero. -/
namespace Ashamane.Packets

structure ObjectGuid where
  low : BitVec 64
  high : BitVec 64
  deriving DecidableEq, Repr

namespace ByteBuffer

/-- `operator<<` of a guid. -/
def writeGuid (buf : ByteBuffer) (guid : ObjectGuid) : Option ByteBuffer := do
  let buf ← buf.flushBits
  let pos := buf.wpos
  let buf ← buf.append [0]
  let buf ← buf.append [0]
  let (lowMask, packedLow) := packUInt64 guid.low
  let buf ← buf.appendPacked packedLow
  let (highMask, packedHigh) := packUInt64 guid.high
  let buf ← buf.appendPacked packedHigh
  let buf ← buf.put pos [lowMask]
  buf.put (pos + 1) [highMask]

/-- `operator>>` of a guid, into a variable that holds `guid`. -/
def readGuid (buf : ByteBuffer) (guid : ObjectGuid) : Option (ObjectGuid × ByteBuffer) := do
  let (lowMask, buf) ← buf.read 1
  let (highMask, buf) ← buf.read 1
  let (low, buf) ← buf.readPackedMasked (lowMask.headD 0) guid.low
  let (high, buf) ← buf.readPackedMasked (highMask.headD 0) guid.high
  return (⟨low, high⟩, buf)

/-- The appends of `operator<<` find room: what stands before the last of them is below the limit. -/
def RoomForGuid (buf : ByteBuffer) (guid : ObjectGuid) : Prop :=
  buf.size + buf.pending.length + 1 < maxAppendSize ∧
    (guid.low ≠ 0 → buf.size + buf.pending.length + 2 < maxAppendSize) ∧
    (guid.high ≠ 0 →
      buf.size + buf.pending.length + 2 + (presentFrom guid.low 0 8).length < maxAppendSize)

instance (buf : ByteBuffer) (guid : ObjectGuid) : Decidable (buf.RoomForGuid guid) :=
  inferInstanceAs (Decidable (_ ∧ _ ∧ _))

theorem room_of_flushBits {buf flushed : ByteBuffer} (h : buf.flushBits = some flushed)
    (hpos : buf.bitpos ≠ 8) : buf.size < maxAppendSize := by
  by_contra hfull
  simp [ByteBuffer.flushBits, hpos, canAppend, hfull] at h

theorem writeGuid_spec {buf flushed : ByteBuffer} {l r : List Byte}
    (hflush : buf.flushBits = some flushed) (h : flushed.Cut l r) (hpos : flushed.bitpos = 8)
    (hsize : flushed.size = buf.size + buf.pending.length)
    {guid : ObjectGuid} {lowMask highMask : Byte}
    (hlow : packUInt64 guid.low = (lowMask, presentFrom guid.low 0 8))
    (hhigh : packUInt64 guid.high = (highMask, presentFrom guid.high 0 8)) :
    (buf.RoomForGuid guid → ∃ buf', buf.writeGuid guid = some buf' ∧
      buf'.Cut (l ++ lowMask :: highMask ::
        (presentFrom guid.low 0 8 ++ presentFrom guid.high 0 8)) r) ∧
    (¬buf.RoomForGuid guid → buf.writeGuid guid = none) := by
  unfold RoomForGuid
  rw [← hsize]
  by_cases hroom : flushed.size + 1 < maxAppendSize
  · obtain ⟨buf₁, h₁, hcut₁, hpos₁⟩ := h.append (List.cons_ne_nil 0 [])
      (Nat.lt_of_succ_lt hroom)
    rw [pending_flushed hpos, List.append_nil] at hcut₁
    have hsize₁ : buf₁.size = flushed.size + 1 := by
      rw [hcut₁.size, h.size, List.length_append, List.length_singleton]
      omega
    obtain ⟨buf₂, h₂, hcut₂, hpos₂⟩ := hcut₁.append (List.cons_ne_nil 0 [])
      (hsize₁ ▸ hroom)
    rw [pending_flushed hpos₁, List.append_nil] at hcut₂
    have hsize₂ : buf₂.size = flushed.size + 2 := by
      rw [hcut₂.size, h.size, List.length_append, List.length_append, List.length_singleton]
      omega
    have hstart : buf.writeGuid guid = (buf₂.appendPacked (presentFrom guid.low 0 8)).bind fun buf =>
        (buf.appendPacked (presentFrom guid.high 0 8)).bind fun buf =>
          (buf.put flushed.wpos [lowMask]).bind fun buf => buf.put (flushed.wpos + 1) [highMask] := by
      simp only [writeGuid, hflush, Option.bind_eq_bind, Option.bind_some, h₁, h₂, hlow, hhigh]
    rw [hstart]
    by_cases hroom₂ : guid.low ≠ 0 → flushed.size + 2 < maxAppendSize
    · obtain ⟨buf₃, h₃, hcut₃, hpos₃⟩ := hcut₂.appendPacked hpos₂ (presentFrom guid.low 0 8)
        fun hne => hsize₂ ▸ hroom₂ (mt presentFrom_eq_nil.mpr hne)
      have hsize₃ : buf₃.size = flushed.size + 2 + (presentFrom guid.low 0 8).length := by
        rw [hcut₃.size, ← hsize₂, hcut₂.size, List.length_append]
        omega
      rw [h₃, Option.bind_some]
      by_cases hroom₃ : guid.high ≠ 0 →
          flushed.size + 2 + (presentFrom guid.low 0 8).length < maxAppendSize
      · refine ⟨fun _ => ?_, fun hno => absurd ⟨hroom, hroom₂, hroom₃⟩ hno⟩
        obtain ⟨buf₄, h₄, hcut₄, -⟩ := hcut₃.appendPacked hpos₃ (presentFrom guid.high 0 8)
          fun hne => hsize₃ ▸ hroom₃ (mt presentFrom_eq_nil.mpr hne)
        have hsplit : l ++ [0] ++ [0] ++ presentFrom guid.low 0 8 ++ presentFrom guid.high 0 8 =
            l ++ 0 :: 0 :: (presentFrom guid.low 0 8 ++ presentFrom guid.high 0 8) := by simp
        rw [hsplit] at hcut₄
        obtain ⟨buf₅, h₅, hcut₅⟩ := hcut₄.put lowMask
        rw [List.append_cons] at hcut₅
        obtain ⟨buf₆, h₆, hcut₆⟩ := hcut₅.put highMask
        rw [← List.append_cons] at hcut₆
        rw [List.length_append, List.length_singleton] at h₆
        refine ⟨buf₆, ?_, hcut₆⟩
        rw [h₄, h.wpos, Option.bind_some, h₅, Option.bind_some, h₆]
      · refine ⟨fun hok => absurd hok.2.2 hroom₃, fun _ => ?_⟩
        obtain ⟨hne, hfull⟩ := Classical.not_imp.mp hroom₃
        rw [appendPacked_full (mt presentFrom_eq_nil.mp hne) (hsize₃ ▸ hfull), Option.bind_none]
    · refine ⟨fun hok => absurd hok.2.1 hroom₂, fun _ => ?_⟩
      obtain ⟨hne, hfull⟩ := Classical.not_imp.mp hroom₂
      rw [appendPacked_full (mt presentFrom_eq_nil.mp hne) (hsize₂ ▸ hfull), Option.bind_none]
  · refine ⟨fun hok => absurd hok.1 hroom, fun _ => ?_⟩
    simp only [writeGuid, hflush, Option.bind_eq_bind, Option.bind_some]
    by_cases hfirst : flushed.size < maxAppendSize
    · obtain ⟨buf₁, h₁, hcut₁, hpos₁⟩ := h.append (List.cons_ne_nil 0 []) hfirst
      rw [pending_flushed hpos, List.append_nil] at hcut₁
      have hsize₁ : buf₁.size = flushed.size + 1 := by
        rw [hcut₁.size, h.size, List.length_append, List.length_singleton]
        omega
      rw [h₁, Option.bind_some, append_full _ (hsize₁ ▸ hroom)]
      rfl
    · rw [append_full _ hfirst]
      rfl

def GuidRoundTrip (buf : ByteBuffer) (guid target : ObjectGuid) : Prop :=
  ∃ flushed buf', buf.flushBits = some flushed ∧ buf.writeGuid guid = some buf' ∧
    ∀ reader : ByteBuffer, reader.storage = buf'.storage → reader.rpos = flushed.wpos →
      ∃ reader', reader.readGuid target = some (guid, reader') ∧ reader'.rpos = buf'.wpos

theorem readGuid_spec {guid : ObjectGuid} (target : ObjectGuid) {lowMask highMask : Byte}
    (hlow : ∀ j < 8, lowMask.getLsbD j = decide (byteAt guid.low j ≠ 0))
    (hhigh : ∀ j < 8, highMask.getLsbD j = decide (byteAt guid.high j ≠ 0))
    {reader : ByteBuffer} (h : reader.Before (lowMask :: highMask ::
      (presentFrom guid.low 0 8 ++ presentFrom guid.high 0 8))) :
    ∃ reader', reader.readGuid target =
        some (⟨target.low ||| guid.low, target.high ||| guid.high⟩, reader') ∧
      reader'.rpos = reader.rpos + 2 + (presentFrom guid.low 0 8).length +
        (presentFrom guid.high 0 8).length := by
  obtain ⟨buf₁, h₁, -, hpos₁, hbefore₁⟩ := h.read
  obtain ⟨buf₂, h₂, -, hpos₂, hbefore₂⟩ := hbefore₁.read
  obtain ⟨buf₃, h₃, hstorage₃, hpos₃⟩ := readPackedMasked_spec target.low hlow
    ((List.prefix_append _ _).trans hbefore₂)
  have hbefore₃ : buf₃.Before (presentFrom guid.high 0 8) := by
    rw [Before, hstorage₃, hpos₃, ← List.drop_drop]
    obtain ⟨t, ht⟩ := hbefore₂
    rw [← ht, List.append_assoc, List.drop_left]
    exact List.prefix_append _ t
  obtain ⟨buf₄, h₄, -, hpos₄⟩ := readPackedMasked_spec target.high hhigh hbefore₃
  refine ⟨buf₄, ?_, by omega⟩
  simp only [readGuid, h₁, h₂, Option.bind_eq_bind, Option.bind_some, List.headD_cons, h₃, h₄]
  rfl

theorem guid_readBack_iff {flushed buf' : ByteBuffer} {l r : List Byte} {guid target : ObjectGuid}
    {lowMask highMask : Byte}
    (hlow : ∀ j < 8, lowMask.getLsbD j = decide (byteAt guid.low j ≠ 0))
    (hhigh : ∀ j < 8, highMask.getLsbD j = decide (byteAt guid.high j ≠ 0))
    (hflushed : flushed.Cut l r) (hcut : buf'.Cut (l ++ lowMask :: highMask ::
      (presentFrom guid.low 0 8 ++ presentFrom guid.high 0 8)) r) :
    (∀ reader : ByteBuffer, reader.storage = buf'.storage → reader.rpos = flushed.wpos →
      ∃ reader', reader.readGuid target = some (guid, reader') ∧ reader'.rpos = buf'.wpos) ↔
      target.low ||| guid.low = guid.low ∧ target.high ||| guid.high = guid.high := by
  have hread : ∀ reader : ByteBuffer, reader.storage = buf'.storage → reader.rpos = flushed.wpos →
      ∃ reader', reader.readGuid target =
          some (⟨target.low ||| guid.low, target.high ||| guid.high⟩, reader') ∧
        reader'.rpos = buf'.wpos := by
    intro reader hstorage hrpos
    have hbefore : reader.Before (lowMask :: highMask ::
        (presentFrom guid.low 0 8 ++ presentFrom guid.high 0 8)) := by
      rw [Before, hstorage, hrpos, hflushed.wpos, hcut.storage, List.append_assoc, List.drop_left]
      exact List.prefix_append _ r
    obtain ⟨reader', hrun, hend⟩ := readGuid_spec target hlow hhigh hbefore
    refine ⟨reader', hrun, ?_⟩
    rw [hend, hrpos, hflushed.wpos, hcut.wpos]
    simp
    omega
  constructor
  · intro h
    obtain ⟨_, hrun, -⟩ := h { rpos := flushed.wpos, storage := buf'.storage } rfl rfl
    obtain ⟨_, hrun', -⟩ := hread { rpos := flushed.wpos, storage := buf'.storage } rfl rfl
    rw [hrun'] at hrun
    have hguid := (Prod.mk.inj (Option.some.inj hrun)).1
    exact ⟨congrArg ObjectGuid.low hguid, congrArg ObjectGuid.high hguid⟩
  · rintro ⟨hl, hh⟩ reader hstorage hrpos
    obtain ⟨reader', hrun, hend⟩ := hread reader hstorage hrpos
    rw [hl, hh] at hrun
    exact ⟨reader', hrun, hend⟩

/-- A guid is read back exactly when the appends find room and the variable held no bit that the
guid has not. -/
theorem guidRoundTrip_iff (buf : ByteBuffer) (guid target : ObjectGuid) (h : buf.wpos ≤ buf.size) :
    buf.GuidRoundTrip guid target ↔ buf.RoomForGuid guid ∧
      target.low ||| guid.low = guid.low ∧ target.high ||| guid.high = guid.high := by
  obtain ⟨lowMask, hlow, hlowMask⟩ := packUInt64_spec guid.low
  obtain ⟨highMask, hhigh, hhighMask⟩ := packUInt64_spec guid.high
  have hcut := cut h
  have hsize : ∀ flushed : ByteBuffer, flushed.Cut (buf.storage.take buf.wpos ++ buf.pending)
      (buf.storage.drop buf.wpos) → flushed.size = buf.size + buf.pending.length := by
    intro flushed hcut₁
    rw [hcut₁.size, hcut.size, List.length_append]
    omega
  constructor
  · rintro ⟨flushed, buf', hflush, hwrite, hread⟩
    obtain ⟨_, hflush', hcut₁, hpos⟩ := hcut.flushBits (room_of_flushBits hflush)
    obtain rfl := Option.some.inj (hflush.symm.trans hflush')
    have hrun := writeGuid_spec hflush hcut₁ hpos (hsize flushed hcut₁) hlow hhigh
    have hroom : buf.RoomForGuid guid := by
      by_contra hno
      rw [hrun.2 hno] at hwrite
      cases hwrite
    obtain ⟨_, hwrite', hcut₂⟩ := hrun.1 hroom
    obtain rfl := Option.some.inj (hwrite.symm.trans hwrite')
    exact ⟨hroom, (guid_readBack_iff hlowMask hhighMask hcut₁ hcut₂).mp hread⟩
  · rintro ⟨hroom, hwhen⟩
    have hfirst : buf.size < maxAppendSize := by
      have := hroom.1
      omega
    obtain ⟨flushed, hflush, hcut₁, hpos⟩ := hcut.flushBits fun _ => hfirst
    obtain ⟨buf', hwrite, hcut₂⟩ :=
      (writeGuid_spec hflush hcut₁ hpos (hsize flushed hcut₁) hlow hhigh).1 hroom
    exact ⟨flushed, buf', hflush, hwrite,
      (guid_readBack_iff hlowMask hhighMask hcut₁ hcut₂).mpr hwhen⟩

theorem guidRoundTrip_iff_pendingBits :
    ({ bitpos := 5, curbitval := 0xA0 } : ByteBuffer).GuidRoundTrip ⟨0x2A00, 7⟩ ⟨0, 3⟩ :=
  (guidRoundTrip_iff _ _ _ (by decide)).mpr (by decide)

/-- The bits of the old value stay. -/
theorem guidRoundTrip_fails_oldValue : ¬({} : ByteBuffer).GuidRoundTrip ⟨1, 0⟩ ⟨2, 0⟩ := by
  rintro ⟨flushed, buf', hflush, hwrite, hread⟩
  obtain rfl : flushed = {} := Option.some.inj (hflush.symm.trans (by decide))
  obtain rfl : buf' = { wpos := 3, storage := [1, 0, 1] } :=
    Option.some.inj (hwrite.symm.trans (by decide))
  obtain ⟨reader', hrun, -⟩ := hread (ofStorage [1, 0, 1]) rfl rfl
  have hold : (ofStorage [1, 0, 1]).readGuid ⟨2, 0⟩ =
      some (⟨3, 0⟩, { ofStorage [1, 0, 1] with rpos := 3 }) := by decide
  rw [hold] at hrun
  cases hrun

end ByteBuffer

end Ashamane.Packets
