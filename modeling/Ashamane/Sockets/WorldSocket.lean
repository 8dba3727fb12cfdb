import Ashamane.Lib.Framing
import Mathlib.Data.List.Basic
import Mathlib.Data.List.TakeDrop

/-! The buffer of the sockets: storage of a given size, filled up to `wpos` and read up to
`rpos`. -/
namespace Ashamane.Sockets

structure MessageBuffer where
  wpos : Nat
  rpos : Nat
  storage : List UInt8
  deriving DecidableEq, Repr

namespace MessageBuffer

def ofSize (initialSize : Nat) : MessageBuffer := ⟨0, 0, List.replicate initialSize 0⟩

def reset (buf : MessageBuffer) : MessageBuffer := { buf with wpos := 0, rpos := 0 }

def resize (buf : MessageBuffer) (bytes : Nat) : MessageBuffer :=
  { buf with
    storage := buf.storage.take bytes ++ List.replicate (bytes - buf.storage.length) 0 }

def readCompleted (buf : MessageBuffer) (bytes : Nat) : MessageBuffer :=
  { buf with rpos := buf.rpos + bytes }

def getActiveSize (buf : MessageBuffer) : Nat := buf.wpos - buf.rpos

def getRemainingSpace (buf : MessageBuffer) : Nat := buf.storage.length - buf.wpos

/-- The `n` bytes at the read pointer. -/
def peek (buf : MessageBuffer) (n : Nat) : List UInt8 := (buf.storage.drop buf.rpos).take n

def poke (buf : MessageBuffer) (data : List UInt8) : MessageBuffer :=
  { buf with
    storage := buf.storage.take buf.rpos ++ data ++
      buf.storage.drop (buf.rpos + data.length) }

def normalize (buf : MessageBuffer) : MessageBuffer :=
  if buf.rpos ≠ 0 then
    { wpos := buf.wpos - buf.rpos
      rpos := 0
      storage := buf.peek buf.getActiveSize ++ buf.storage.drop buf.getActiveSize }
  else buf

def ensureFreeSpace (buf : MessageBuffer) : MessageBuffer :=
  if buf.getRemainingSpace = 0 then buf.resize (buf.storage.length * 3 / 2) else buf

/-- `none` is a write past the end of the storage. -/
def write (buf : MessageBuffer) (data : List UInt8) : Option MessageBuffer :=
  if data.length ≤ buf.getRemainingSpace then
    some { buf with
      wpos := buf.wpos + data.length
      storage := buf.storage.take buf.wpos ++ data ++
        buf.storage.drop (buf.wpos + data.length) }
  else none

def move (buf : MessageBuffer) : List UInt8 × MessageBuffer := (buf.storage, ⟨0, 0, []⟩)

def active (buf : MessageBuffer) : List UInt8 := buf.peek buf.getActiveSize

structure Valid (buf : MessageBuffer) : Prop where
  rpos_le : buf.rpos ≤ buf.wpos
  wpos_le : buf.wpos ≤ buf.storage.length

theorem active_eq (buf : MessageBuffer) :
    buf.active = (buf.storage.take buf.wpos).drop buf.rpos := by
  rw [active, peek, getActiveSize, List.drop_take]

theorem Valid.length_active {buf : MessageBuffer} (h : buf.Valid) :
    buf.active.length = buf.getActiveSize := by
  have h1 := h.rpos_le
  have h2 := h.wpos_le
  rw [active_eq, getActiveSize, List.length_drop, List.length_take]
  omega

/-- What is read at the read pointer are the first active bytes. -/
theorem peek_eq_take_active (buf : MessageBuffer) {n : Nat} (hn : n ≤ buf.getActiveSize) :
    buf.peek n = buf.active.take n := by
  rw [active, peek, peek, List.take_take, Nat.min_eq_left hn]

theorem readCompleted_valid {buf : MessageBuffer} (h : buf.Valid) {n : Nat}
    (hn : n ≤ buf.getActiveSize) : (buf.readCompleted n).Valid := by
  have h1 := h.rpos_le
  have h2 := h.wpos_le
  rw [getActiveSize] at hn
  exact ⟨by simp only [readCompleted]; omega, h2⟩

theorem active_readCompleted (buf : MessageBuffer) (n : Nat) :
    (buf.readCompleted n).active = buf.active.drop n := by
  rw [active_eq, active_eq, List.drop_drop]
  rfl

theorem write_spec {buf : MessageBuffer} (h : buf.Valid) {data : List UInt8}
    (hdata : data.length ≤ buf.getRemainingSpace) :
    ∃ buf', buf.write data = some buf' ∧ buf'.Valid ∧ buf'.rpos = buf.rpos ∧
      buf'.wpos = buf.wpos + data.length ∧ buf'.storage.length = buf.storage.length ∧
      buf'.storage.take buf'.wpos = buf.storage.take buf.wpos ++ data := by
  have h1 := h.rpos_le
  have h2 := h.wpos_le
  have hspace := hdata
  rw [getRemainingSpace] at hspace
  have hlen : (buf.storage.take buf.wpos ++ data ++
      buf.storage.drop (buf.wpos + data.length)).length = buf.storage.length := by
    rw [List.length_append, List.length_append, List.length_take, List.length_drop]
    omega
  refine ⟨_, if_pos hdata, ⟨?_, ?_⟩, rfl, rfl, hlen, ?_⟩
  · show buf.rpos ≤ buf.wpos + data.length
    omega
  · show buf.wpos + data.length ≤ _
    rw [hlen]
    omega
  · have htake : (buf.storage.take buf.wpos ++ data).length = buf.wpos + data.length := by
      rw [List.length_append, List.length_take]
      omega
    exact List.take_left' htake

theorem active_write {buf buf' : MessageBuffer} (h : buf.Valid) (hr : buf'.rpos = buf.rpos)
    {data : List UInt8}
    (ht : buf'.storage.take buf'.wpos = buf.storage.take buf.wpos ++ data) :
    buf'.active = buf.active ++ data := by
  have hle : buf.rpos ≤ (buf.storage.take buf.wpos).length := by
    have h1 := h.rpos_le
    have h2 := h.wpos_le
    rw [List.length_take]
    omega
  rw [active_eq, active_eq, ht, hr, List.drop_append_of_le_length hle]

/-- Moving the active bytes to the front and making room keeps them as they are. -/
theorem normalize_valid {buf : MessageBuffer} (h : buf.Valid) :
    buf.normalize.Valid ∧ buf.normalize.active = buf.active := by
  have h1 := h.rpos_le
  have h2 := h.wpos_le
  by_cases hr : buf.rpos = 0
  · rw [normalize, if_neg (not_not.mpr hr)]
    exact ⟨h, rfl⟩
  · have hlen := h.length_active
    rw [normalize, if_pos hr]
    constructor
    · refine ⟨Nat.zero_le _, ?_⟩
      show buf.wpos - buf.rpos ≤ (buf.active ++ _).length
      rw [List.length_append, hlen, getActiveSize]
      omega
    · rw [active_eq]
      show ((buf.active ++ _).take buf.getActiveSize).drop 0 = _
      rw [List.drop_zero, List.take_left' hlen]

theorem length_resize (buf : MessageBuffer) (n : Nat) : (buf.resize n).storage.length = n := by
  show (buf.storage.take n ++ List.replicate (n - buf.storage.length) 0).length = n
  rw [List.length_append, List.length_take, List.length_replicate]
  omega

theorem ensureFreeSpace_valid {buf : MessageBuffer} (h : buf.Valid) :
    buf.ensureFreeSpace.Valid ∧ buf.ensureFreeSpace.active = buf.active := by
  have h2 := h.wpos_le
  by_cases hs : buf.getRemainingSpace = 0
  · rw [ensureFreeSpace, if_pos hs]
    rw [getRemainingSpace] at hs
    have hgrow : buf.storage.length ≤ buf.storage.length * 3 / 2 := by omega
    have htake : (buf.resize (buf.storage.length * 3 / 2)).storage.take buf.wpos =
        buf.storage.take buf.wpos := by
      show (buf.storage.take _ ++ _).take buf.wpos = _
      rw [List.take_of_length_le hgrow, List.take_append_of_le_length h2]
    refine ⟨⟨h.rpos_le, ?_⟩, ?_⟩
    · rw [length_resize]
      exact Nat.le_trans h2 hgrow
    · rw [active_eq, active_eq]
      exact congrArg (List.drop buf.rpos) htake
  · rw [ensureFreeSpace, if_neg hs]
    exact ⟨h, rfl⟩

end MessageBuffer

end Ashamane.Sockets

/-! The reading side of the world socket: header and payload of a packet are gathered in two
buffers from whatever a read has brought. `none` is a failed assertion or a write past the
end of a buffer. -/
namespace Ashamane.Sockets
open Ashamane.Lib.Framing

def SizeOfClientHeader : Nat := 6

def NUM_OPCODE_HANDLERS : UInt16 := 0x4000

structure PacketHeader where
  Size : UInt32
  Command : UInt16
  deriving DecidableEq, Repr

namespace PacketHeader

def isValidSize (header : PacketHeader) : Bool := header.Size < 0x10000

def isValidOpcode (header : PacketHeader) : Bool := header.Command < NUM_OPCODE_HANDLERS

def littleEndian : List UInt8 → Nat
  | [] => 0
  | b :: bytes => b.toNat + 256 * littleEndian bytes

def ofBytes (bytes : List UInt8) : PacketHeader where
  Size := UInt32.ofNat (littleEndian (bytes.take 4))
  Command := UInt16.ofNat (littleEndian ((bytes.drop 4).take 2))

def sizeBytes (size : UInt32) : List UInt8 :=
  [size.toUInt8, (size >>> 8).toUInt8, (size >>> 16).toUInt8, (size >>> 24).toUInt8]

end PacketHeader

structure WorldPacket where
  opcode : UInt16
  storage : List UInt8
  deriving DecidableEq, Repr

/-- `WaitingForQuery` is left out. -/
inductive ReadDataHandlerResult
  | Ok
  | Error
  deriving DecidableEq, Repr

structure Backend (σ : Type) where
  decrypt : σ → UInt8 → σ × UInt8
  dispatch : σ → WorldPacket → σ × ReadDataHandlerResult

/-- `delivered` lists the packets handed on so far. -/
structure WorldSocket (σ : Type) where
  readBuffer : MessageBuffer
  headerBuffer : MessageBuffer
  packetBuffer : MessageBuffer
  world : σ
  closed : Bool := false
  delivered : List WorldPacket := []

variable {σ : Type} (B : Backend σ)

def decryptRecv : σ → List UInt8 → σ × List UInt8
  | world, [] => (world, [])
  | world, b :: data =>
    let (world, c) := B.decrypt world b
    let (world, rest) := decryptRecv world data
    (world, c :: rest)

namespace WorldSocket

def closeSocket (s : WorldSocket σ) : WorldSocket σ := { s with closed := true }

def readHeaderHandler (s : WorldSocket σ) : Option (Bool × WorldSocket σ) :=
  if s.headerBuffer.getActiveSize = SizeOfClientHeader then
    let (world, opened) := decryptRecv B s.world (s.headerBuffer.peek 4)
    let headerBuffer := s.headerBuffer.poke opened
    let header := PacketHeader.ofBytes (headerBuffer.peek SizeOfClientHeader)
    let header := { header with Size := header.Size - 2 }
    let headerBuffer := headerBuffer.poke (PacketHeader.sizeBytes header.Size)
    let s := { s with world, headerBuffer }
    if !header.isValidSize || !header.isValidOpcode then some (false, s)
    else some (true, { s with packetBuffer := s.packetBuffer.resize header.Size.toNat })
  else none

def readDataHandler (s : WorldSocket σ) : ReadDataHandlerResult × WorldSocket σ :=
  let header := PacketHeader.ofBytes (s.headerBuffer.peek SizeOfClientHeader)
  let (storage, packetBuffer) := s.packetBuffer.move
  let packet : WorldPacket := { opcode := header.Command, storage }
  let (world, result) := B.dispatch s.world packet
  (result, { s with packetBuffer, world, delivered := s.delivered ++ [packet] })

/-- How a part of the loop's body is left: to the next part, out of the loop, or out of the
handler. -/
inductive Exit
  | next
  | wait
  | stop
  deriving DecidableEq, Repr

def headerPart (s : WorldSocket σ) : Option (Exit × WorldSocket σ) :=
  if s.headerBuffer.getRemainingSpace > 0 then
    let readHeaderSize := min s.readBuffer.getActiveSize s.headerBuffer.getRemainingSpace
    match s.headerBuffer.write (s.readBuffer.peek readHeaderSize) with
    | none => none
    | some headerBuffer =>
      let s := { s with headerBuffer, readBuffer := s.readBuffer.readCompleted readHeaderSize }
      if s.headerBuffer.getRemainingSpace > 0 then
        if s.readBuffer.getActiveSize = 0 then some (.wait, s) else none
      else
        match s.readHeaderHandler B with
        | none => none
        | some (true, s) => some (.next, s)
        | some (false, s) => some (.stop, s.closeSocket)
  else some (.next, s)

def payloadPart (s : WorldSocket σ) : Option (Exit × WorldSocket σ) :=
  if s.packetBuffer.getRemainingSpace > 0 then
    let readDataSize := min s.readBuffer.getActiveSize s.packetBuffer.getRemainingSpace
    match s.packetBuffer.write (s.readBuffer.peek readDataSize) with
    | none => none
    | some packetBuffer =>
      let s := { s with packetBuffer, readBuffer := s.readBuffer.readCompleted readDataSize }
      if s.packetBuffer.getRemainingSpace > 0 then
        if s.readBuffer.getActiveSize = 0 then some (.wait, s) else none
      else some (.next, s)
  else some (.next, s)

def deliverPart (s : WorldSocket σ) : Exit × WorldSocket σ :=
  let (result, s) := s.readDataHandler B
  let s := { s with headerBuffer := s.headerBuffer.reset }
  match result with
  | .Ok => (.next, s)
  | .Error => (.stop, s.closeSocket)

def readTurn (s : WorldSocket σ) : Option (Exit × WorldSocket σ) :=
  match s.headerPart B with
  | some (.next, s) =>
    match s.payloadPart with
    | some (.next, s) => some (s.deliverPart B)
    | result => result
  | result => result

/-- `while (packet.GetActiveSize() > 0)`; the answer says whether the next read is asked for. -/
def readLoop : Nat → WorldSocket σ → Option (Bool × WorldSocket σ)
  | 0, _ => none
  | fuel + 1, s =>
    if s.readBuffer.getActiveSize > 0 then
      match s.readTurn B with
      | none => none
      | some (.next, s) => readLoop fuel s
      | some (.wait, s) => some (true, s)
      | some (.stop, s) => some (false, s)
    else some (true, s)

def asyncRead (s : WorldSocket σ) : WorldSocket σ :=
  if s.closed then s
  else { s with readBuffer := s.readBuffer.normalize.ensureFreeSpace }

def readHandler (s : WorldSocket σ) : Option (WorldSocket σ) :=
  if s.closed then some s
  else
    match s.readLoop B (s.readBuffer.getActiveSize + 1) with
    | none => none
    | some (true, s) => some s.asyncRead
    | some (false, s) => some s

/-- A read that brings `bytes`. A closed socket asks for none. -/
def receive (s : WorldSocket σ) (bytes : List UInt8) : Option (WorldSocket σ) :=
  if s.closed then some s
  else
    match s.readBuffer.write bytes with
    | none => none
    | some readBuffer => readHandler B { s with readBuffer }

def receiveAll : WorldSocket σ → List (List UInt8) → Option (WorldSocket σ)
  | s, [] => some s
  | s, bytes :: reads => (s.receive B bytes).bind fun s => receiveAll s reads

/-- The socket behind the initializer: `readBuffer` holds what came in one read with it. -/
def afterInitializer (world : σ) (readBuffer : MessageBuffer) : WorldSocket σ where
  readBuffer := readBuffer.normalize.ensureFreeSpace
  headerBuffer := (MessageBuffer.ofSize 4096).resize SizeOfClientHeader
  packetBuffer := (MessageBuffer.ofSize 48).move.2.reset
  world := world

end WorldSocket

def clientProtocol : Protocol σ UInt8 PacketHeader WorldPacket where
  headerSize := SizeOfClientHeader
  decode world bytes :=
    let (world, opened) := decryptRecv B world (bytes.take 4)
    let header := PacketHeader.ofBytes (opened ++ bytes.drop 4)
    (world, { header with Size := header.Size - 2 })
  valid header := header.isValidSize && header.isValidOpcode
  size header := header.Size.toNat
  packet header payload := ⟨header.Command, payload⟩
  deliver world packet :=
    let (world, result) := B.dispatch world packet
    (world, result = .Ok)

end Ashamane.Sockets
