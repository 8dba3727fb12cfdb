import Ashamane.Sockets.WorldSocket
import Mathlib.Algebra.Ring.Int.Defs
import Mathlib.Algebra.Ring.Nat

/-! The writing side of the world socket: the queued packets are put into buffers, one behind the
other in a shared one while they fit. `none` is a write past the end of a buffer. -/
namespace Ashamane.Sockets

def SizeOfServerHeader : Nat := 6

def MinSizeForCompression : Nat := 0x400

def sizeofCompressedWorldPacket : Nat := 12

def SMSG_COMPRESSED_PACKET : UInt32 := 0x3052

def compressBound (sourceLen : Nat) : Nat :=
  sourceLen + sourceLen / 2 ^ 12 + sourceLen / 2 ^ 14 + sourceLen / 2 ^ 25 + 13

/-- The two sums of `adler32` modulo 65521. -/
def adler32 (adler : UInt32) (data : List UInt8) : UInt32 :=
  let sums := data.foldl (fun (s : Nat × Nat) b =>
    let s1 := (s.1 + b.toNat) % 65521
    (s1, (s.2 + s1) % 65521)) (adler.toNat % 65536, adler.toNat / 65536)
  UInt32.ofNat (sums.2 * 65536 + sums.1)

structure EncryptablePacket where
  opcode : UInt32
  contents : List UInt8
  encrypt : Bool
  deriving DecidableEq, Repr

/-- The cipher of the headers and the compression stream, on one state. `compress` gives what
`CompressPacket` writes. -/
structure Wire (κ : Type) where
  encryptSend : κ → List UInt8 → κ × List UInt8
  compress : κ → UInt32 → List UInt8 → κ × List UInt8
  length_encryptSend : ∀ k data, (encryptSend k data).2.length = data.length
  length_compress : ∀ k opcode data, (compress k opcode data).2.length ≤ compressBound data.length

namespace MessageBuffer

def writeCompleted (buf : MessageBuffer) (bytes : Nat) : MessageBuffer :=
  { buf with wpos := buf.wpos + bytes }

def writeAt (buf : MessageBuffer) (pos : Nat) (data : List UInt8) : Option MessageBuffer :=
  if pos + data.length ≤ buf.storage.length then
    some { buf with
      storage := buf.storage.take pos ++ data ++ buf.storage.drop (pos + data.length) }
  else none

end MessageBuffer

namespace EncryptablePacket

def packetSize (packet : EncryptablePacket) : Nat := packet.contents.length % 2 ^ 32

def compresses (packet : EncryptablePacket) : Bool :=
  packet.packetSize > MinSizeForCompression && packet.encrypt

/-- The room that `Update` asks for, in 32 bits. -/
def space (packet : EncryptablePacket) : Nat :=
  let packetSize := if packet.compresses then
      (compressBound packet.packetSize + sizeofCompressedWorldPacket) % 2 ^ 32
    else packet.packetSize
  (packetSize + SizeOfServerHeader) % 2 ^ 32

def compressedInfo (packet : EncryptablePacket) (compressed : List UInt8) : List UInt8 :=
  let opcodeBytes := [packet.opcode.toUInt8, (packet.opcode >>> 8).toUInt8]
  let uncompressedAdler := adler32 (adler32 0x9827D8F1 opcodeBytes) packet.contents
  PacketHeader.sizeBytes (UInt32.ofNat (packet.packetSize + 2)) ++
    PacketHeader.sizeBytes uncompressedAdler ++
    PacketHeader.sizeBytes (adler32 0x9827D8F1 compressed)

end EncryptablePacket

def commandBytes (opcode : UInt32) : List UInt8 := [opcode.toUInt8, (opcode >>> 8).toUInt8]

variable {κ : Type} (W : Wire κ)

/-- What `WritePacketToBuffer` writes behind the header: the state, the buffer, the size and the
opcode for the header. -/
def writeBody (k : κ) (packet : EncryptablePacket) (buffer : MessageBuffer) :
    Option (κ × MessageBuffer × Nat × UInt32) :=
  if packet.compresses then do
    let compressionInfo := buffer.wpos
    let buffer := buffer.writeCompleted sizeofCompressedWorldPacket
    let (k, compressed) := W.compress k packet.opcode packet.contents
    let buffer ← buffer.writeAt buffer.wpos compressed
    let buffer ← buffer.writeAt compressionInfo (packet.compressedInfo compressed)
    some (k, buffer.writeCompleted compressed.length,
      compressed.length + sizeofCompressedWorldPacket, SMSG_COMPRESSED_PACKET)
  else if packet.contents.isEmpty then some (k, buffer, packet.packetSize, packet.opcode)
  else do
    let buffer ← buffer.write packet.contents
    some (k, buffer, packet.packetSize, packet.opcode)

def writePacketToBuffer (k : κ) (packet : EncryptablePacket) (buffer : MessageBuffer) :
    Option (κ × MessageBuffer) := do
  let headerPos := buffer.wpos
  let buffer := buffer.writeCompleted SizeOfServerHeader
  let (k, buffer, packetSize, opcode) ← writeBody W k packet buffer
  -- only the size is encrypted
  let (k, size) := W.encryptSend k (PacketHeader.sizeBytes (UInt32.ofNat (packetSize + 2)))
  let buffer ← buffer.writeAt headerPos (size ++ commandBytes opcode)
  some (k, buffer)

/-- The state in the loop of `Update`. -/
structure Sender (κ : Type) where
  keys : κ
  buffer : MessageBuffer
  writeQueue : List MessageBuffer

namespace Sender

def flush (s : Sender κ) (sendBufferSize : Nat) : Sender κ :=
  { s with
    buffer := s.buffer.move.2.resize sendBufferSize
    writeQueue := s.writeQueue ++ [s.buffer] }

def send (sendBufferSize : Nat) (s : Sender κ) (queued : EncryptablePacket) :
    Option (Sender κ) :=
  let s := if s.buffer.getRemainingSpace < queued.space then s.flush sendBufferSize else s
  if s.buffer.getRemainingSpace ≥ queued.space then do
    let (keys, buffer) ← writePacketToBuffer W s.keys queued s.buffer
    some { s with keys, buffer }
  else do
    let (keys, packetBuffer) ← writePacketToBuffer W s.keys queued (.ofSize queued.space)
    some { s with keys, writeQueue := s.writeQueue ++ [packetBuffer] }

end Sender

/-- `Update` up to the call of `BaseSocket::Update`, with the packets in the order in which they are
dequeued. -/
def updateSocket (sendBufferSize : Nat) (k : κ) (packets : List EncryptablePacket) :
    Option (κ × List MessageBuffer) := do
  let s ← packets.foldlM (Sender.send W sendBufferSize) ⟨k, .ofSize sendBufferSize, []⟩
  some (s.keys, if s.buffer.getActiveSize > 0 then s.writeQueue ++ [s.buffer] else s.writeQueue)

def serialise (k : κ) (packet : EncryptablePacket) : κ × List UInt8 :=
  let (k, body, opcode) :=
    if packet.compresses then
      let (k, compressed) := W.compress k packet.opcode packet.contents
      (k, packet.compressedInfo compressed ++ compressed, SMSG_COMPRESSED_PACKET)
    else (k, packet.contents, packet.opcode)
  let (k, size) := W.encryptSend k (PacketHeader.sizeBytes (UInt32.ofNat (body.length + 2)))
  (k, size ++ commandBytes opcode ++ body)

def serialiseAll : κ → List EncryptablePacket → κ × List (List UInt8)
  | k, [] => (k, [])
  | k, packet :: packets =>
    let (k, bytes) := serialise W k packet
    let (k, rest) := serialiseAll k packets
    (k, bytes :: rest)

end Ashamane.Sockets

/-! What is sent: each packet lies whole in one buffer, and the buffers hold the packets in order. -/
namespace Ashamane.Sockets

variable {κ : Type} (W : Wire κ)

theorem split_at (l : List UInt8) {n : Nat} (h : n ≤ l.length) :
    ∃ a b, l = a ++ b ∧ a.length = n :=
  ⟨l.take n, l.drop n, (List.take_append_drop n l).symm, List.length_take_of_le h⟩

namespace MessageBuffer

theorem writeAt_middle {buf : MessageBuffer} {pos : Nat} {a x b data : List UInt8}
    (h : buf.storage = a ++ (x ++ b)) (ha : a.length = pos) (hx : x.length = data.length) :
    buf.writeAt pos data = some { buf with storage := a ++ (data ++ b) } := by
  have hlength : buf.storage.length = pos + data.length + b.length := by
    rw [h, List.length_append, List.length_append, ha, hx, Nat.add_assoc]
  have htake : buf.storage.take pos = a := by
    rw [h, List.take_left' ha]
  have hdrop : buf.storage.drop (pos + data.length) = b := by
    rw [h, ← List.append_assoc]
    exact List.drop_left' (by rw [List.length_append, ha, hx])
  rw [writeAt, if_pos (by omega), htake, hdrop, List.append_assoc]

theorem write_middle {buf : MessageBuffer} {a x b data : List UInt8}
    (h : buf.storage = a ++ (x ++ b)) (ha : a.length = buf.wpos) (hx : x.length = data.length) :
    buf.write data = some { buf with
      wpos := buf.wpos + data.length
      storage := a ++ (data ++ b) } := by
  have hlength : buf.storage.length = buf.wpos + data.length + b.length := by
    rw [h, List.length_append, List.length_append, ha, hx, Nat.add_assoc]
  have htake : buf.storage.take buf.wpos = a := by
    rw [h, List.take_left' ha]
  have hdrop : buf.storage.drop (buf.wpos + data.length) = b := by
    rw [h, ← List.append_assoc]
    exact List.drop_left' (by rw [List.length_append, ha, hx])
  rw [write, if_pos (by rw [getRemainingSpace]; omega), htake, hdrop, List.append_assoc]

end MessageBuffer

theorem length_compressedInfo (packet : EncryptablePacket) (compressed : List UInt8) :
    (packet.compressedInfo compressed).length = sizeofCompressedWorldPacket := rfl

def bodyOf (k : κ) (packet : EncryptablePacket) : κ × List UInt8 × UInt32 :=
  if packet.compresses then
    let (k, compressed) := W.compress k packet.opcode packet.contents
    (k, packet.compressedInfo compressed ++ compressed, SMSG_COMPRESSED_PACKET)
  else (k, packet.contents, packet.opcode)

def headerOf (k : κ) (length : Nat) (opcode : UInt32) : κ × List UInt8 :=
  let (k, size) := W.encryptSend k (PacketHeader.sizeBytes (UInt32.ofNat (length + 2)))
  (k, size ++ commandBytes opcode)

theorem length_headerOf (k : κ) (length : Nat) (opcode : UInt32) :
    (headerOf W k length opcode).2.length = SizeOfServerHeader := by
  rw [headerOf]
  simp only [List.length_append, W.length_encryptSend]
  rfl

theorem serialise_eq (k : κ) (packet : EncryptablePacket) :
    serialise W k packet =
      ((headerOf W (bodyOf W k packet).1 (bodyOf W k packet).2.1.length (bodyOf W k packet).2.2).1,
        (headerOf W (bodyOf W k packet).1 (bodyOf W k packet).2.1.length (bodyOf W k packet).2.2).2 ++
          (bodyOf W k packet).2.1) := by
  rw [serialise, bodyOf]
  cases packet.compresses <;> rfl

/-- The body is written behind the header, where there is room for it. -/
theorem writeBody_spec (k : κ) (packet : EncryptablePacket) {buffer : MessageBuffer}
    {a x b : List UInt8} (h : buffer.storage = a ++ (x ++ b)) (ha : a.length = buffer.wpos)
    (hx : x.length = (bodyOf W k packet).2.1.length) :
    ∃ size, writeBody W k packet buffer = some ((bodyOf W k packet).1,
      { buffer with
        wpos := buffer.wpos + (bodyOf W k packet).2.1.length
        storage := a ++ ((bodyOf W k packet).2.1 ++ b) },
      size, (bodyOf W k packet).2.2) ∧
      UInt32.ofNat (size + 2) = UInt32.ofNat ((bodyOf W k packet).2.1.length + 2) := by
  unfold bodyOf at hx ⊢
  rw [writeBody]
  by_cases hc : packet.compresses = true
  · rw [if_pos hc] at hx ⊢
    rw [if_pos hc]
    simp only [List.length_append, length_compressedInfo] at hx ⊢
    obtain ⟨info, rest, rfl, hinfo⟩ := split_at x (n := sizeofCompressedWorldPacket) (by omega)
    have hrest : rest.length = (W.compress k packet.opcode packet.contents).2.length := by
      rw [List.length_append, hinfo] at hx
      exact Nat.add_left_cancel hx
    have hfirst := @MessageBuffer.writeAt_middle
      (buffer.writeCompleted sizeofCompressedWorldPacket) (buffer.wpos + sizeofCompressedWorldPacket)
      (a ++ info) rest b (W.compress k packet.opcode packet.contents).2
      (by rw [MessageBuffer.writeCompleted, h]; simp only [List.append_assoc])
      (by rw [List.length_append, ha, hinfo]) hrest
    simp only [MessageBuffer.writeCompleted] at hfirst ⊢
    rw [hfirst]
    simp only [Option.bind_eq_bind, Option.bind_some]
    rw [@MessageBuffer.writeAt_middle _ buffer.wpos a info
      ((W.compress k packet.opcode packet.contents).2 ++ b)
      (packet.compressedInfo (W.compress k packet.opcode packet.contents).2)
      (by simp only [List.append_assoc]) ha (by rw [hinfo, length_compressedInfo])]
    refine ⟨_, ?_, congrArg UInt32.ofNat (congrArg (· + 2) (Nat.add_comm _ _))⟩
    simp only [Option.bind_some, List.append_assoc, Nat.add_assoc]
  · rw [if_neg hc] at hx ⊢
    rw [if_neg hc]
    have hsize : UInt32.ofNat (packet.packetSize + 2) =
        UInt32.ofNat (packet.contents.length + 2) := by
      apply UInt32.toNat_inj.mp
      rw [UInt32.toNat_ofNat', UInt32.toNat_ofNat', EncryptablePacket.packetSize]
      omega
    cases hempty : packet.contents with
    | nil =>
      rw [hempty] at hx hsize
      obtain rfl := List.eq_nil_of_length_eq_zero hx
      refine ⟨packet.packetSize, ?_, hsize⟩
      simp only [List.isEmpty_nil, if_true, List.length_nil, Nat.add_zero]
      rw [← h]
    | cons byte bytes =>
      rw [hempty] at hx hsize
      refine ⟨packet.packetSize, ?_, hsize⟩
      simp only [List.isEmpty_cons, Bool.false_eq_true, if_false,
        MessageBuffer.write_middle h ha hx, Option.bind_eq_bind, Option.bind_some]

theorem writePacketToBuffer_spec (k : κ) (packet : EncryptablePacket) {buffer : MessageBuffer}
    (h : buffer.Valid) (hroom : (serialise W k packet).2.length ≤ buffer.getRemainingSpace) :
    ∃ buffer', writePacketToBuffer W k packet buffer =
        some ((serialise W k packet).1, buffer') ∧
      buffer'.Valid ∧ buffer'.rpos = buffer.rpos ∧
      buffer'.storage.length = buffer.storage.length ∧
      buffer'.active = buffer.active ++ (serialise W k packet).2 := by
  have hle := h.wpos_le
  rw [serialise_eq, List.length_append, length_headerOf, MessageBuffer.getRemainingSpace] at hroom
  rw [serialise_eq]
  -- the storage: what is written, the place of the header, the place of the body, the rest
  obtain ⟨a, t, ht, ha⟩ := split_at buffer.storage hle
  have htlength : buffer.storage.length = buffer.wpos + t.length := by
    rw [ht, List.length_append, ha]
  obtain ⟨header, u, rfl, hheader⟩ := split_at t (n := SizeOfServerHeader) (by omega)
  rw [List.length_append, hheader] at htlength
  obtain ⟨body, rest, rfl, hbody⟩ := split_at u (n := (bodyOf W k packet).2.1.length) (by omega)
  have hcompleted : (buffer.writeCompleted SizeOfServerHeader).storage =
      (a ++ header) ++ (body ++ rest) := by
    rw [MessageBuffer.writeCompleted, ht, List.append_assoc]
  obtain ⟨size, hwrite, hsize⟩ := writeBody_spec W k packet hcompleted
    (by rw [List.length_append, ha, hheader]; rfl) hbody
  have hhead : (W.encryptSend (bodyOf W k packet).1
      (PacketHeader.sizeBytes (UInt32.ofNat (size + 2)))).2 ++
        commandBytes (bodyOf W k packet).2.2 =
      (headerOf W (bodyOf W k packet).1 (bodyOf W k packet).2.1.length
        (bodyOf W k packet).2.2).2 := by
    rw [headerOf, hsize]
  have hkeys : (W.encryptSend (bodyOf W k packet).1
      (PacketHeader.sizeBytes (UInt32.ofNat (size + 2)))).1 =
      (headerOf W (bodyOf W k packet).1 (bodyOf W k packet).2.1.length
        (bodyOf W k packet).2.2).1 := by
    rw [headerOf, hsize]
  have hlength := length_headerOf W (bodyOf W k packet).1 (bodyOf W k packet).2.1.length
    (bodyOf W k packet).2.2
  generalize headerOf W (bodyOf W k packet).1 (bodyOf W k packet).2.1.length
    (bodyOf W k packet).2.2 = head at hhead hkeys hlength ⊢
  generalize (bodyOf W k packet).2.1 = bytes at hbody hwrite hroom ⊢
  refine ⟨{ buffer with
    wpos := buffer.wpos + SizeOfServerHeader + bytes.length
    storage := a ++ (head.2 ++ (bytes ++ rest)) }, ?_, ⟨?_, ?_⟩, rfl, ?_, ?_⟩
  · rw [writePacketToBuffer]
    simp only [hwrite, Option.bind_eq_bind, Option.bind_some, hhead, hkeys]
    rw [MessageBuffer.writeAt_middle (a := a) (x := header) (b := bytes ++ rest)
      (by simp only [List.append_assoc]) ha (by rw [hheader, hlength])]
    rfl
  · have hr := h.rpos_le
    show buffer.rpos ≤ buffer.wpos + SizeOfServerHeader + bytes.length
    omega
  · simp only [List.length_append, hlength, ha]
    omega
  · simp only [ht, List.length_append, hlength, hheader, hbody]
  · apply MessageBuffer.active_write h
    · rfl
    · have hall : a ++ (head.2 ++ (bytes ++ rest)) = (a ++ (head.2 ++ bytes)) ++ rest := by
        simp only [List.append_assoc]
      rw [ht, List.take_left' ha, hall]
      exact List.take_left' (by simp only [List.length_append, ha, hlength, Nat.add_assoc])

def EncryptablePacket.Fits (packet : EncryptablePacket) : Prop :=
  (if packet.compresses then compressBound packet.contents.length + sizeofCompressedWorldPacket
    else packet.contents.length) + SizeOfServerHeader < 2 ^ 32

instance (packet : EncryptablePacket) : Decidable packet.Fits :=
  inferInstanceAs (Decidable (_ < _))

theorem le_compressBound (n : Nat) : n ≤ compressBound n := by
  rw [compressBound]
  omega

/-- The room that is asked for is enough for what the packet is compressed to. -/
theorem length_serialise_le (k : κ) {packet : EncryptablePacket} (h : packet.Fits) :
    (serialise W k packet).2.length ≤ packet.space := by
  rw [serialise_eq, List.length_append, length_headerOf, EncryptablePacket.space, bodyOf]
  rw [EncryptablePacket.Fits] at h
  by_cases hc : packet.compresses = true
  · rw [if_pos hc] at h
    rw [if_pos hc, if_pos hc]
    have hsize : packet.packetSize = packet.contents.length := by
      have hle := le_compressBound packet.contents.length
      exact Nat.mod_eq_of_lt (by omega)
    have hcompressed := W.length_compress k packet.opcode packet.contents
    rw [hsize, Nat.mod_eq_of_lt (a := compressBound _ + _) (by omega), Nat.mod_eq_of_lt h]
    show SizeOfServerHeader + (packet.compressedInfo _ ++
      (W.compress k packet.opcode packet.contents).2).length ≤ _
    rw [List.length_append, length_compressedInfo]
    omega
  · rw [if_neg hc] at h
    rw [if_neg hc, if_neg hc]
    have hsize : packet.packetSize = packet.contents.length :=
      Nat.mod_eq_of_lt (by omega)
    rw [hsize, Nat.mod_eq_of_lt h]
    exact Nat.le_of_eq (Nat.add_comm _ _)

structure Sender.Sent (sendBufferSize : Nat) (s : Sender κ) (packets : List (List UInt8)) :
    Prop where
  valid : s.buffer.Valid
  room : s.buffer.storage.length = sendBufferSize
  packed : ∃ (groups : List (List (List UInt8))) (last : List (List UInt8)),
    s.writeQueue.map MessageBuffer.active = groups.map List.flatten ∧
    s.buffer.active = last.flatten ∧ groups.flatten ++ last = packets

theorem ofSize_valid (n : Nat) : (MessageBuffer.ofSize n).Valid :=
  ⟨Nat.le_refl 0, Nat.zero_le _⟩

theorem ofSize_active (n : Nat) : (MessageBuffer.ofSize n).active = [] := by
  rw [MessageBuffer.active_eq]
  rfl

theorem serialise_ne_nil (k : κ) (packet : EncryptablePacket) : (serialise W k packet).2 ≠ [] := by
  intro h
  have hlength := congrArg List.length h
  rw [serialise_eq, List.length_append, length_headerOf] at hlength
  exact absurd hlength (by simp only [SizeOfServerHeader, List.length_nil]; omega)

theorem ne_nil_of_mem_serialiseAll (k : κ) (packets : List EncryptablePacket) :
    ∀ bytes ∈ (serialiseAll W k packets).2, bytes ≠ [] := by
  induction packets generalizing k with
  | nil =>
    intro bytes h
    cases h
  | cons packet packets ih =>
    intro bytes h
    rcases List.mem_cons.mp h with rfl | h
    · exact serialise_ne_nil W k packet
    · exact ih _ bytes h

namespace Sender

theorem Sent.flush {n : Nat} {s : Sender κ} {packets : List (List UInt8)} (h : s.Sent n packets) :
    (s.flush n).buffer.Valid ∧ (s.flush n).buffer.storage.length = n ∧
    (s.flush n).buffer.active = [] ∧
    ∃ groups : List (List (List UInt8)),
      (s.flush n).writeQueue.map MessageBuffer.active = groups.map List.flatten ∧
      groups.flatten = packets := by
  obtain ⟨groups, last, hqueue, hactive, hpackets⟩ := h.packed
  refine ⟨⟨Nat.le_refl 0, Nat.zero_le _⟩, MessageBuffer.length_resize _ n, ?_,
    groups ++ [last], ?_, ?_⟩
  · rw [MessageBuffer.active_eq]
    rfl
  · rw [Sender.flush, List.map_append, List.map_append, hqueue, List.map_singleton,
      List.map_singleton, hactive]
  · rw [List.flatten_append, List.flatten_singleton, hpackets]

/-- One packet is put behind the others: into the shared buffer, or into one of its own while the
shared one is empty. -/
theorem Sent.send {n : Nat} {s : Sender κ} {packets : List (List UInt8)} (h : s.Sent n packets)
    {queued : EncryptablePacket} (hfits : queued.Fits) :
    ∃ s', s.send W n queued = some s' ∧ s'.keys = (serialise W s.keys queued).1 ∧
      s'.Sent n (packets ++ [(serialise W s.keys queued).2]) := by
  have hspace := length_serialise_le W s.keys hfits
  by_cases hroom : s.buffer.getRemainingSpace < queued.space
  · obtain ⟨hvalid, hlength, hactive, groups, hqueue, hpackets⟩ := h.flush
    have hkeys : (s.flush n).keys = s.keys := rfl
    rw [Sender.send, if_pos hroom]
    generalize s.flush n = t at hvalid hlength hactive hqueue hkeys ⊢
    by_cases hshared : t.buffer.getRemainingSpace ≥ queued.space
    · obtain ⟨buffer, hwrite, hvalid', -, hlength', hactive'⟩ :=
        writePacketToBuffer_spec W s.keys queued hvalid (Nat.le_trans hspace hshared)
      refine ⟨{ t with keys := (serialise W s.keys queued).1, buffer := buffer }, ?_, rfl,
        hvalid', hlength'.trans hlength, groups, [(serialise W s.keys queued).2], hqueue, ?_, ?_⟩
      · simp only [if_pos hshared, hkeys, hwrite, Option.bind_eq_bind, Option.bind_some]
      · rw [hactive', hactive, List.flatten_singleton, List.nil_append]
      · rw [hpackets]
    · obtain ⟨own, hwrite, -, -, -, hactive'⟩ :=
        writePacketToBuffer_spec W s.keys queued (ofSize_valid queued.space) (by
          rw [MessageBuffer.getRemainingSpace, MessageBuffer.ofSize, List.length_replicate]
          exact hspace)
      refine ⟨{ t with keys := (serialise W s.keys queued).1, writeQueue := t.writeQueue ++ [own] },
        ?_, rfl, hvalid, hlength, groups ++ [[(serialise W s.keys queued).2]], [], ?_, hactive, ?_⟩
      · simp only [if_neg hshared, hkeys, hwrite, Option.bind_eq_bind, Option.bind_some]
      · rw [List.map_append, List.map_append, hqueue, List.map_singleton, List.map_singleton,
          hactive', ofSize_active, List.flatten_singleton, List.nil_append]
      · rw [List.flatten_append, List.flatten_singleton, hpackets, List.append_nil]
  · obtain ⟨groups, last, hqueue, hactive, hpackets⟩ := h.packed
    obtain ⟨buffer, hwrite, hvalid', -, hlength', hactive'⟩ :=
      writePacketToBuffer_spec W s.keys queued h.valid
        (Nat.le_trans hspace (Nat.le_of_not_lt hroom))
    refine ⟨{ s with keys := (serialise W s.keys queued).1, buffer := buffer }, ?_, rfl,
      hvalid', hlength'.trans h.room, groups, last ++ [(serialise W s.keys queued).2], hqueue,
      ?_, ?_⟩
    · rw [Sender.send, if_neg hroom]
      simp only [if_pos (Nat.le_of_not_lt hroom), hwrite, Option.bind_eq_bind, Option.bind_some]
    · rw [hactive', hactive, List.flatten_append, List.flatten_singleton]
    · rw [← List.append_assoc, hpackets]

theorem Sent.run {n : Nat} {s : Sender κ} {done : List (List UInt8)} (h : s.Sent n done)
    {packets : List EncryptablePacket} (hfits : ∀ packet ∈ packets, packet.Fits) :
    ∃ s', packets.foldlM (Sender.send W n) s = some s' ∧
      s'.keys = (serialiseAll W s.keys packets).1 ∧
      s'.Sent n (done ++ (serialiseAll W s.keys packets).2) := by
  induction packets generalizing s done with
  | nil =>
    refine ⟨s, rfl, rfl, ?_⟩
    rw [serialiseAll, List.append_nil]
    exact h
  | cons packet packets ih =>
    obtain ⟨s', hsend, hkeys, hsent⟩ := h.send W (hfits packet List.mem_cons_self)
    obtain ⟨s'', hrun, hkeys', hsent'⟩ :=
      ih hsent fun other hother => hfits other (List.mem_cons_of_mem _ hother)
    rw [hkeys] at hkeys' hsent'
    refine ⟨s'', ?_, hkeys', ?_⟩
    · rw [List.foldlM_cons, hsend]
      exact hrun
    · rw [List.append_assoc] at hsent'
      exact hsent'

end Sender

/-- Every buffer that is queued holds whole packets, and all of them hold every packet, in the order
in which they are dequeued. -/
theorem updateSocket_sends (sendBufferSize : Nat) (k : κ) {packets : List EncryptablePacket}
    (hfits : ∀ packet ∈ packets, packet.Fits) :
    ∃ (queue : List MessageBuffer) (groups : List (List (List UInt8))),
      updateSocket W sendBufferSize k packets = some ((serialiseAll W k packets).1, queue) ∧
      queue.map MessageBuffer.active = groups.map List.flatten ∧
      groups.flatten = (serialiseAll W k packets).2 ∧
      (queue.map MessageBuffer.active).flatten = (serialiseAll W k packets).2.flatten := by
  have hstart : (⟨k, .ofSize sendBufferSize, []⟩ : Sender κ).Sent sendBufferSize [] :=
    ⟨ofSize_valid _, List.length_replicate, [], [], rfl, ofSize_active _, rfl⟩
  obtain ⟨s, hrun, hkeys, hsent⟩ := hstart.run W hfits
  obtain ⟨groups, last, hqueue, hactive, hpackets⟩ := hsent.packed
  rw [List.nil_append] at hpackets
  have hlength := hsent.valid.length_active
  rw [hactive] at hlength
  suffices h : ∃ (queue : List MessageBuffer) (groups : List (List (List UInt8))),
      updateSocket W sendBufferSize k packets = some ((serialiseAll W k packets).1, queue) ∧
      queue.map MessageBuffer.active = groups.map List.flatten ∧
      groups.flatten = (serialiseAll W k packets).2 by
    obtain ⟨queue, groups, hupdate, hqueue, hpackets⟩ := h
    refine ⟨queue, groups, hupdate, hqueue, hpackets, ?_⟩
    rw [hqueue, ← hpackets, List.flatten_flatten]
  rw [updateSocket, hrun]
  simp only [Option.bind_eq_bind, Option.bind_some, hkeys]
  by_cases hsize : s.buffer.getActiveSize > 0
  · rw [if_pos hsize]
    refine ⟨_, groups ++ [last], rfl, ?_, ?_⟩
    · rw [List.map_append, List.map_append, hqueue, List.map_singleton, List.map_singleton, hactive]
    · rw [List.flatten_append, List.flatten_singleton, hpackets]
  · rw [if_neg hsize]
    have hlast : last = [] := by
      cases last with
      | nil => rfl
      | cons bytes rest =>
        have hne := ne_nil_of_mem_serialiseAll W k packets bytes (by
          rw [← hpackets]
          exact List.mem_append_right _ List.mem_cons_self)
        have hpos := List.length_pos_iff.mpr hne
        rw [List.flatten_cons, List.length_append] at hlength
        omega
    refine ⟨_, groups, rfl, hqueue, ?_⟩
    rw [← hpackets, hlast, List.append_nil]

def plainWire : Wire Unit where
  encryptSend _ data := ((), data)
  compress _ _ data := ((), data)
  length_encryptSend _ _ := rfl
  length_compress _ _ data := le_compressBound data.length

theorem updateSocket_sends_three :
    ∃ (queue : List MessageBuffer) (groups : List (List (List UInt8))),
      updateSocket plainWire 16 () [⟨1, [1, 2, 3], false⟩, ⟨2, List.replicate 20 7, false⟩,
        ⟨3, [], false⟩] = some ((serialiseAll plainWire () [⟨1, [1, 2, 3], false⟩,
          ⟨2, List.replicate 20 7, false⟩, ⟨3, [], false⟩]).1, queue) ∧
      queue.map MessageBuffer.active = groups.map List.flatten ∧
      groups.flatten = (serialiseAll plainWire () [⟨1, [1, 2, 3], false⟩,
        ⟨2, List.replicate 20 7, false⟩, ⟨3, [], false⟩]).2 ∧
      (queue.map MessageBuffer.active).flatten = (serialiseAll plainWire () [⟨1, [1, 2, 3], false⟩,
        ⟨2, List.replicate 20 7, false⟩, ⟨3, [], false⟩]).2.flatten :=
  updateSocket_sends plainWire 16 () (by decide)

/-- The room for this packet is zero in 32 bits, so that it is written where it does not fit. -/
theorem updateSocket_overflows {sendBufferSize : Nat} (hsize : sendBufferSize < 2 ^ 32) (k : κ)
    {packet : EncryptablePacket} (hlength : packet.contents.length = 2 ^ 32 - 6)
    (hencrypt : packet.encrypt = false) :
    updateSocket W sendBufferSize k [packet] = none := by
  have hcompresses : packet.compresses = false := by
    rw [EncryptablePacket.compresses, hencrypt, Bool.and_false]
  have hspace : packet.space = 0 := by
    rw [EncryptablePacket.space, hcompresses, EncryptablePacket.packetSize, hlength]
    rfl
  have hempty : packet.contents.isEmpty = false := by
    cases h : packet.contents with
    | nil =>
      rw [h] at hlength
      exact absurd hlength (by decide)
    | cons byte bytes => rfl
  have hwrite : ((MessageBuffer.ofSize sendBufferSize).writeCompleted SizeOfServerHeader).write
      packet.contents = none := by
    rw [MessageBuffer.write, if_neg]
    show ¬ packet.contents.length ≤ (List.replicate sendBufferSize (0 : UInt8)).length - 6
    rw [hlength, List.length_replicate]
    omega
  have hbody : writeBody W k packet
      ((MessageBuffer.ofSize sendBufferSize).writeCompleted SizeOfServerHeader) = none := by
    rw [writeBody, hcompresses, hempty, hwrite]
    rfl
  rw [updateSocket, List.foldlM_cons, Sender.send, hspace, if_neg (Nat.not_lt_zero _)]
  simp only [ge_iff_le, Nat.zero_le, if_true, writePacketToBuffer, hbody]
  rfl

theorem not_updateSocket_sends :
    ¬ ∃ (queue : List MessageBuffer) (groups : List (List (List UInt8))),
      updateSocket plainWire 4096 () [⟨1, List.replicate (2 ^ 32 - 6) 0, false⟩] =
        some ((serialiseAll plainWire () [⟨1, List.replicate (2 ^ 32 - 6) 0, false⟩]).1, queue) ∧
      queue.map MessageBuffer.active = groups.map List.flatten ∧
      groups.flatten =
        (serialiseAll plainWire () [⟨1, List.replicate (2 ^ 32 - 6) 0, false⟩]).2 := by
  rintro ⟨queue, groups, h, -, -⟩
  rw [updateSocket_overflows plainWire (by decide) () List.length_replicate rfl] at h
  cases h

end Ashamane.Sockets
