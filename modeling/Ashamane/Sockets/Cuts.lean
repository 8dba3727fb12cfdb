import Ashamane.Sockets.WorldSocket

/-! However the stream is cut into reads, the socket delivers its frames. -/
namespace Ashamane.Sockets
open Ashamane.Lib.Framing

variable {σ : Type} (B : Backend σ)

theorem length_decryptRecv (world : σ) (data : List UInt8) :
    (decryptRecv B world data).2.length = data.length := by
  induction data generalizing world with
  | nil => rfl
  | cons b data ih => exact congrArg (· + 1) (ih _)

structure AtHeader (s : WorldSocket σ) (held : List UInt8) : Prop where
  length_header : s.headerBuffer.storage.length = SizeOfClientHeader
  rpos_header : s.headerBuffer.rpos = 0
  wpos_header : s.headerBuffer.wpos = held.length
  le_header : held.length ≤ SizeOfClientHeader
  take_header : s.headerBuffer.storage.take s.headerBuffer.wpos = held
  packet_empty : s.packetBuffer = ⟨0, 0, []⟩

/-- The payload behind `header` is being received: `held` are its first bytes. -/
structure AtPayload (s : WorldSocket σ) (header : PacketHeader) (held : List UInt8) : Prop where
  length_header : s.headerBuffer.storage.length = SizeOfClientHeader
  rpos_header : s.headerBuffer.rpos = 0
  wpos_header : s.headerBuffer.wpos = SizeOfClientHeader
  command : (PacketHeader.ofBytes s.headerBuffer.storage).Command = header.Command
  length_packet : s.packetBuffer.storage.length = header.Size.toNat
  rpos_packet : s.packetBuffer.rpos = 0
  wpos_packet : s.packetBuffer.wpos = held.length
  le_packet : held.length ≤ header.Size.toNat
  take_packet : s.packetBuffer.storage.take s.packetBuffer.wpos = held

theorem AtHeader.valid {s : WorldSocket σ} {held : List UInt8} (h : AtHeader s held) :
    s.headerBuffer.Valid :=
  ⟨by rw [h.rpos_header]; exact Nat.zero_le _,
    by rw [h.wpos_header, h.length_header]; exact h.le_header⟩

theorem AtPayload.valid {s : WorldSocket σ} {header : PacketHeader} {held : List UInt8}
    (h : AtPayload s header held) : s.packetBuffer.Valid :=
  ⟨by rw [h.rpos_packet]; exact Nat.zero_le _,
    by rw [h.wpos_packet, h.length_packet]; exact h.le_packet⟩

theorem AtHeader.remaining {s : WorldSocket σ} {held : List UInt8} (h : AtHeader s held) :
    s.headerBuffer.getRemainingSpace = SizeOfClientHeader - held.length := by
  rw [MessageBuffer.getRemainingSpace, h.length_header, h.wpos_header]

theorem AtPayload.remaining {s : WorldSocket σ} {header : PacketHeader} {held : List UInt8}
    (h : AtPayload s header held) :
    s.packetBuffer.getRemainingSpace = header.Size.toNat - held.length := by
  rw [MessageBuffer.getRemainingSpace, h.length_packet, h.wpos_packet]

namespace PacketHeader

theorem ofBytes_command {front front' rest : List UInt8} (hfront : front.length = 4)
    (hfront' : front'.length = 4) :
    (ofBytes (front ++ rest)).Command = (ofBytes (front' ++ rest)).Command := by
  simp only [ofBytes, List.drop_left' hfront, List.drop_left' hfront']

end PacketHeader

namespace WorldSocket

/-- A whole header is decrypted once, and accepted or not as on the stream. -/
theorem readHeaderHandler_spec {s : WorldSocket σ} {bytes : List UInt8}
    (h : AtHeader s bytes) (hfull : bytes.length = SizeOfClientHeader) {world : σ}
    {header : PacketHeader} (hdecode : (clientProtocol B).decode s.world bytes = (world, header)) :
    ∃ t, s.readHeaderHandler B = some ((clientProtocol B).valid header, t) ∧
      t.world = world ∧ t.readBuffer = s.readBuffer ∧ t.closed = s.closed ∧
      t.delivered = s.delivered ∧
      ((clientProtocol B).valid header = true → AtPayload t header []) := by
  have hstorage : s.headerBuffer.storage = bytes := by
    have htake := h.take_header
    rw [h.wpos_header, hfull, ← h.length_header, List.take_length] at htake
    exact htake
  have hactive : s.headerBuffer.getActiveSize = SizeOfClientHeader := by
    rw [MessageBuffer.getActiveSize, h.wpos_header, h.rpos_header, hfull]
    rfl
  have hpeek : s.headerBuffer.peek 4 = bytes.take 4 := by
    rw [MessageBuffer.peek, h.rpos_header, hstorage]
    rfl
  generalize hopened : decryptRecv B s.world (bytes.take 4) = d at hdecode
  obtain ⟨world', opened⟩ := d
  have hlen4 : (bytes.take 4).length = 4 := by
    rw [List.length_take, hfull]
    rfl
  have hlen : opened.length = 4 := by
    have hl := length_decryptRecv B s.world (bytes.take 4)
    rw [hopened, hlen4] at hl
    exact hl
  simp only [clientProtocol, hopened, Prod.mk.injEq] at hdecode
  obtain ⟨rfl, hheader⟩ := hdecode
  have hpoke : s.headerBuffer.poke opened =
      { s.headerBuffer with storage := opened ++ bytes.drop 4 } := by
    simp only [MessageBuffer.poke, h.rpos_header, hstorage, List.take_zero, List.nil_append, hlen,
      Nat.zero_add]
  have hrest : (bytes.drop 4).length = 2 := by
    rw [List.length_drop, hfull]
    rfl
  have hpeek6 : (s.headerBuffer.poke opened).peek SizeOfClientHeader = opened ++ bytes.drop 4 := by
    rw [hpoke]
    show ((opened ++ bytes.drop 4).drop s.headerBuffer.rpos).take SizeOfClientHeader = _
    rw [h.rpos_header, List.drop_zero]
    refine List.take_of_length_le ?_
    rw [List.length_append, hlen, hrest]
    exact Nat.le_refl _
  have hpoke2 : (s.headerBuffer.poke opened).poke (PacketHeader.sizeBytes header.Size) =
      { s.headerBuffer with storage := PacketHeader.sizeBytes header.Size ++ bytes.drop 4 } := by
    rw [hpoke, MessageBuffer.poke]
    simp only [h.rpos_header, List.take_zero, List.nil_append, Nat.zero_add]
    have hsize : (PacketHeader.sizeBytes header.Size).length = opened.length := by
      rw [hlen]
      rfl
    rw [hsize, List.drop_left]
  have hsizeLen : (PacketHeader.sizeBytes header.Size).length = 4 := rfl
  have hvalid : (clientProtocol B).valid header =
      (header.isValidSize && header.isValidOpcode) := rfl
  have hsub : (PacketHeader.ofBytes (opened ++ bytes.drop 4)).Size - 2 = header.Size := by
    rw [← hheader]
  have hcommand : (PacketHeader.ofBytes (opened ++ bytes.drop 4)).Command = header.Command := by
    rw [← hheader]
  rw [readHeaderHandler, if_pos hactive]
  simp only [hpeek, hopened, hpeek6, hsub, hcommand, hpoke2]
  rw [hvalid]
  cases hv : header.isValidSize && header.isValidOpcode with
  | false =>
    have hn : (!header.isValidSize || !header.isValidOpcode) = true := by
      rw [← Bool.not_and, hv]
      rfl
    exact ⟨_, if_pos hn, rfl, rfl, rfl, rfl, fun hc => by cases hc⟩
  | true =>
    have hn : ¬(!header.isValidSize || !header.isValidOpcode) = true := by
      rw [← Bool.not_and, hv]
      exact Bool.false_ne_true
    refine ⟨_, if_neg hn, rfl, rfl, rfl, rfl, fun _ => ?_⟩
    constructor
    · show (PacketHeader.sizeBytes header.Size ++ bytes.drop 4).length = _
      rw [List.length_append, hsizeLen, hrest]
      rfl
    · exact h.rpos_header
    · exact h.wpos_header.trans hfull
    · rw [← hcommand]
      exact PacketHeader.ofBytes_command hsizeLen hlen
    · exact MessageBuffer.length_resize _ _
    · show s.packetBuffer.rpos = 0
      rw [h.packet_empty]
    · show s.packetBuffer.wpos = 0
      rw [h.packet_empty]
    · exact Nat.zero_le _
    · show (MessageBuffer.resize _ _).storage.take s.packetBuffer.wpos = []
      rw [h.packet_empty, List.take_zero]

structure SameWorld (s t : WorldSocket σ) : Prop where
  world : t.world = s.world
  closed : t.closed = s.closed
  delivered : t.delivered = s.delivered

/-- Too few bytes for the header: all are kept, and the loop waits for more. -/
theorem headerPart_wait {s : WorldSocket σ} {held : List UInt8} (h : AtHeader s held)
    (hr : s.readBuffer.Valid)
    (hfew : held.length + s.readBuffer.active.length < SizeOfClientHeader) :
    ∃ t, s.headerPart B = some (.wait, t) ∧ SameWorld s t ∧ t.readBuffer.Valid ∧
      t.readBuffer.active = [] ∧ AtHeader t (held ++ s.readBuffer.active) := by
  have hlen := hr.length_active
  have hrem := h.remaining
  have hpos : s.headerBuffer.getRemainingSpace > 0 := by omega
  have hmin : min s.readBuffer.getActiveSize s.headerBuffer.getRemainingSpace =
      s.readBuffer.getActiveSize := by omega
  have hpeek : s.readBuffer.peek s.readBuffer.getActiveSize = s.readBuffer.active := rfl
  have hread := MessageBuffer.readCompleted_valid hr (Nat.le_refl _)
  have hdone : (s.readBuffer.readCompleted s.readBuffer.getActiveSize).active = [] := by
    rw [MessageBuffer.active_readCompleted, ← hlen, List.drop_length]
  have hzero : (s.readBuffer.readCompleted s.readBuffer.getActiveSize).getActiveSize = 0 := by
    rw [← hread.length_active, hdone, List.length_nil]
  obtain ⟨buf, hw, hv, hrpos, hwpos, hstorage, htake⟩ :=
    @MessageBuffer.write_spec _ h.valid s.readBuffer.active (by omega)
  have hat : AtHeader { s with
      headerBuffer := buf
      readBuffer := s.readBuffer.readCompleted s.readBuffer.getActiveSize }
      (held ++ s.readBuffer.active) :=
    { length_header := hstorage.trans h.length_header
      rpos_header := hrpos.trans h.rpos_header
      wpos_header := by rw [hwpos, h.wpos_header, List.length_append]
      le_header := by rw [List.length_append]; omega
      take_header := by rw [htake, h.take_header]
      packet_empty := h.packet_empty }
  have hmore : buf.getRemainingSpace > 0 := by
    have hrem' := hat.remaining
    rw [List.length_append] at hrem'
    have : buf.getRemainingSpace = SizeOfClientHeader -
      (held.length + s.readBuffer.active.length) := hrem'
    omega
  have hpart : s.headerPart B = some (.wait, { s with
      headerBuffer := buf
      readBuffer := s.readBuffer.readCompleted s.readBuffer.getActiveSize }) := by
    rw [headerPart, if_pos hpos]
    simp only [hmin, hpeek, hw]
    rw [if_pos hmore, if_pos hzero]
  exact ⟨_, hpart, ⟨rfl, rfl, rfl⟩, hread, hdone, hat⟩

theorem headerPart_full {s : WorldSocket σ} {held x rest : List UInt8} (h : AtHeader s held)
    (hr : s.readBuffer.Valid) (hlt : held.length < SizeOfClientHeader)
    (hactive : s.readBuffer.active = x ++ rest)
    (hfull : (held ++ x).length = SizeOfClientHeader) {world : σ} {header : PacketHeader}
    (hdecode : (clientProtocol B).decode s.world (held ++ x) = (world, header)) :
    ∃ t, t.world = world ∧ t.delivered = s.delivered ∧ t.readBuffer.Valid ∧
      t.readBuffer.active = rest ∧
      (((clientProtocol B).valid header = true ∧ s.headerPart B = some (.next, t) ∧
          t.closed = s.closed ∧ AtPayload t header []) ∨
        ((clientProtocol B).valid header = false ∧ s.headerPart B = some (.stop, t) ∧
          t.closed = true)) := by
  have hlen := hr.length_active
  have hrem := h.remaining
  rw [hactive, List.length_append] at hlen
  rw [List.length_append] at hfull
  have hpos : s.headerBuffer.getRemainingSpace > 0 := by omega
  have hmin : min s.readBuffer.getActiveSize s.headerBuffer.getRemainingSpace = x.length := by
    omega
  have hpeek : s.readBuffer.peek x.length = x := by
    rw [MessageBuffer.peek_eq_take_active _ (by omega), hactive, List.take_left]
  have hread := MessageBuffer.readCompleted_valid (n := x.length) hr (by omega)
  have hdone : (s.readBuffer.readCompleted x.length).active = rest := by
    rw [MessageBuffer.active_readCompleted, hactive, List.drop_left]
  obtain ⟨buf, hw, hv, hrpos, hwpos, hstorage, htake⟩ :=
    @MessageBuffer.write_spec _ h.valid x (by omega)
  have hat : AtHeader { s with
      headerBuffer := buf, readBuffer := s.readBuffer.readCompleted x.length } (held ++ x) :=
    { length_header := hstorage.trans h.length_header
      rpos_header := hrpos.trans h.rpos_header
      wpos_header := by rw [hwpos, h.wpos_header, List.length_append]
      le_header := by rw [List.length_append]; omega
      take_header := by rw [htake, h.take_header]
      packet_empty := h.packet_empty }
  have hmore : ¬buf.getRemainingSpace > 0 := by
    have hrem' := hat.remaining
    rw [List.length_append] at hrem'
    have : buf.getRemainingSpace = SizeOfClientHeader - (held.length + x.length) := hrem'
    omega
  obtain ⟨t, ht, hworld, hbuf, hclosed, hdel, hnext⟩ := readHeaderHandler_spec B hat
    (by rw [List.length_append]; exact hfull) hdecode
  have hpart : s.headerPart B = some (if (clientProtocol B).valid header then (.next, t)
      else (.stop, t.closeSocket)) := by
    rw [headerPart, if_pos hpos]
    simp only [hmin, hpeek, hw]
    rw [if_neg hmore]
    cases hvalid : (clientProtocol B).valid header with
    | true =>
      rw [hvalid] at ht
      exact ht ▸ rfl
    | false =>
      rw [hvalid] at ht
      exact ht ▸ rfl
  cases hvalid : (clientProtocol B).valid header with
  | true =>
    rw [hvalid] at hpart
    exact ⟨t, hworld, hdel, hbuf ▸ hread, hbuf ▸ hdone, .inl ⟨rfl, hpart, hclosed, hnext hvalid⟩⟩
  | false =>
    rw [hvalid] at hpart
    exact ⟨t.closeSocket, hworld, hdel, hbuf ▸ hread, hbuf ▸ hdone, .inr ⟨rfl, hpart, rfl⟩⟩

theorem payloadPart_wait {s : WorldSocket σ} {header : PacketHeader} {held : List UInt8}
    (h : AtPayload s header held) (hr : s.readBuffer.Valid)
    (hfew : held.length + s.readBuffer.active.length < header.Size.toNat) :
    ∃ t, s.payloadPart = some (.wait, t) ∧ SameWorld s t ∧ t.readBuffer.Valid ∧
      t.readBuffer.active = [] ∧ AtPayload t header (held ++ s.readBuffer.active) := by
  have hlen := hr.length_active
  have hrem := h.remaining
  have hpos : s.packetBuffer.getRemainingSpace > 0 := by omega
  have hmin : min s.readBuffer.getActiveSize s.packetBuffer.getRemainingSpace =
      s.readBuffer.getActiveSize := by omega
  have hpeek : s.readBuffer.peek s.readBuffer.getActiveSize = s.readBuffer.active := rfl
  have hread := MessageBuffer.readCompleted_valid hr (Nat.le_refl _)
  have hdone : (s.readBuffer.readCompleted s.readBuffer.getActiveSize).active = [] := by
    rw [MessageBuffer.active_readCompleted, ← hlen, List.drop_length]
  have hzero : (s.readBuffer.readCompleted s.readBuffer.getActiveSize).getActiveSize = 0 := by
    rw [← hread.length_active, hdone, List.length_nil]
  obtain ⟨buf, hw, hv, hrpos, hwpos, hstorage, htake⟩ :=
    @MessageBuffer.write_spec _ h.valid s.readBuffer.active (by omega)
  have hat : AtPayload { s with
      packetBuffer := buf
      readBuffer := s.readBuffer.readCompleted s.readBuffer.getActiveSize } header
      (held ++ s.readBuffer.active) :=
    { length_header := h.length_header
      rpos_header := h.rpos_header
      wpos_header := h.wpos_header
      command := h.command
      length_packet := hstorage.trans h.length_packet
      rpos_packet := hrpos.trans h.rpos_packet
      wpos_packet := by rw [hwpos, h.wpos_packet, List.length_append]
      le_packet := by rw [List.length_append]; omega
      take_packet := by rw [htake, h.take_packet] }
  have hmore : buf.getRemainingSpace > 0 := by
    have hrem' := hat.remaining
    rw [List.length_append] at hrem'
    have : buf.getRemainingSpace = header.Size.toNat -
      (held.length + s.readBuffer.active.length) := hrem'
    omega
  have hpart : s.payloadPart = some (.wait, { s with
      packetBuffer := buf
      readBuffer := s.readBuffer.readCompleted s.readBuffer.getActiveSize }) := by
    rw [payloadPart, if_pos hpos]
    simp only [hmin, hpeek, hw]
    rw [if_pos hmore, if_pos hzero]
  exact ⟨_, hpart, ⟨rfl, rfl, rfl⟩, hread, hdone, hat⟩

theorem payloadPart_full {s : WorldSocket σ} {header : PacketHeader} {held x rest : List UInt8}
    (h : AtPayload s header held) (hr : s.readBuffer.Valid)
    (hactive : s.readBuffer.active = x ++ rest)
    (hfull : (held ++ x).length = header.Size.toNat) :
    ∃ t, s.payloadPart = some (.next, t) ∧ SameWorld s t ∧ t.readBuffer.Valid ∧
      t.readBuffer.active = rest ∧ AtPayload t header (held ++ x) := by
  have hlen := hr.length_active
  have hrem := h.remaining
  rw [hactive, List.length_append] at hlen
  rw [List.length_append] at hfull
  by_cases hpos : s.packetBuffer.getRemainingSpace > 0
  · have hmin : min s.readBuffer.getActiveSize s.packetBuffer.getRemainingSpace = x.length := by
      omega
    have hpeek : s.readBuffer.peek x.length = x := by
      rw [MessageBuffer.peek_eq_take_active _ (by omega), hactive, List.take_left]
    have hread := MessageBuffer.readCompleted_valid (n := x.length) hr (by omega)
    have hdone : (s.readBuffer.readCompleted x.length).active = rest := by
      rw [MessageBuffer.active_readCompleted, hactive, List.drop_left]
    obtain ⟨buf, hw, hv, hrpos, hwpos, hstorage, htake⟩ :=
      @MessageBuffer.write_spec _ h.valid x (by omega)
    have hat : AtPayload { s with
        packetBuffer := buf, readBuffer := s.readBuffer.readCompleted x.length } header
        (held ++ x) :=
      { length_header := h.length_header
        rpos_header := h.rpos_header
        wpos_header := h.wpos_header
        command := h.command
        length_packet := hstorage.trans h.length_packet
        rpos_packet := hrpos.trans h.rpos_packet
        wpos_packet := by rw [hwpos, h.wpos_packet, List.length_append]
        le_packet := by rw [List.length_append]; omega
        take_packet := by rw [htake, h.take_packet] }
    have hmore : ¬buf.getRemainingSpace > 0 := by
      have hrem' := hat.remaining
      rw [List.length_append] at hrem'
      have : buf.getRemainingSpace = header.Size.toNat - (held.length + x.length) := hrem'
      omega
    have hpart : s.payloadPart = some (.next, { s with
        packetBuffer := buf, readBuffer := s.readBuffer.readCompleted x.length }) := by
      rw [payloadPart, if_pos hpos]
      simp only [hmin, hpeek, hw]
      rw [if_neg hmore]
    exact ⟨_, hpart, ⟨rfl, rfl, rfl⟩, hread, hdone, hat⟩
  · have hx : x = [] := List.length_eq_zero_iff.mp (by omega)
    subst hx
    refine ⟨s, ?_, ⟨rfl, rfl, rfl⟩, hr, hactive, ?_⟩
    · rw [payloadPart, if_neg hpos]
    · rw [List.append_nil]
      exact h

/-- A complete packet is handed on, and the buffers are made ready for the next header. -/
theorem deliverPart_spec {s : WorldSocket σ} {header : PacketHeader} {payload : List UInt8}
    (h : AtPayload s header payload) (hfull : payload.length = header.Size.toNat) {world : σ}
    {on : Bool} (hdeliver : (clientProtocol B).deliver s.world ⟨header.Command, payload⟩ =
      (world, on)) :
    ∃ t, t.world = world ∧ t.delivered = s.delivered ++ [⟨header.Command, payload⟩] ∧
      t.readBuffer = s.readBuffer ∧
      ((on = true ∧ s.deliverPart B = (.next, t) ∧ t.closed = s.closed ∧ AtHeader t []) ∨
        (on = false ∧ s.deliverPart B = (.stop, t) ∧ t.closed = true)) := by
  have hstorage : s.packetBuffer.storage = payload := by
    have htake := h.take_packet
    rw [h.wpos_packet, hfull, ← h.length_packet, List.take_length] at htake
    exact htake
  have hpeek : s.headerBuffer.peek SizeOfClientHeader = s.headerBuffer.storage := by
    rw [MessageBuffer.peek, h.rpos_header, List.drop_zero, ← h.length_header, List.take_length]
  generalize hdispatch : B.dispatch s.world ⟨header.Command, payload⟩ = d at hdeliver
  obtain ⟨world', result⟩ := d
  simp only [clientProtocol, hdispatch, Prod.mk.injEq] at hdeliver
  obtain ⟨rfl, hon⟩ := hdeliver
  have hread : s.readDataHandler B = (result, { s with
      packetBuffer := ⟨0, 0, []⟩, world := world',
      delivered := s.delivered ++ [⟨header.Command, payload⟩] }) := by
    simp only [readDataHandler, hpeek, h.command, MessageBuffer.move, hstorage, hdispatch]
  cases result with
  | Ok =>
    have hpart : s.deliverPart B = (.next, { s with
        packetBuffer := ⟨0, 0, []⟩, world := world', headerBuffer := s.headerBuffer.reset,
        delivered := s.delivered ++ [⟨header.Command, payload⟩] }) := by
      simp only [deliverPart, hread]
    refine ⟨_, ?_, ?_, ?_, .inl ⟨hon.symm, hpart, rfl, ?_⟩⟩
    · rfl
    · rfl
    · rfl
    · exact
      { length_header := h.length_header
        rpos_header := rfl
        wpos_header := rfl
        le_header := Nat.zero_le _
        take_header := List.take_zero
        packet_empty := rfl }
  | Error =>
    have hpart : s.deliverPart B = (.stop, closeSocket { s with
        packetBuffer := ⟨0, 0, []⟩, world := world', headerBuffer := s.headerBuffer.reset,
        delivered := s.delivered ++ [⟨header.Command, payload⟩] }) := by
      simp only [deliverPart, hread]
    exact ⟨_, by rfl, by rfl, by rfl, .inr ⟨hon.symm, hpart, rfl⟩⟩

def Holding (s : WorldSocket σ) : Option PacketHeader → List UInt8 → Prop
  | none, held => AtHeader s held ∧ held.length < SizeOfClientHeader
  | some header, held => AtPayload s header held ∧ held.length < header.Size.toNat

theorem Holding.frames {s : WorldSocket σ} {phase : Option PacketHeader} {held : List UInt8}
    (h : Holding s phase held) :
    Frames (clientProtocol B) s.world phase held [] (.waiting s.world phase held) := by
  cases phase with
  | none => exact .partialHeader h.2
  | some header => exact .partialPayload h.2

/-- What one turn does that begins in `world` with `phase` behind it and the bytes `l` held
or unread. -/
inductive TurnResult (world : σ) (phase : Option PacketHeader) (l : List UInt8)
    (delivered : List WorldPacket) (n : Nat) : Exit → WorldSocket σ → Prop
  | next {t : WorldSocket σ} {packet : WorldPacket} :
      t.closed = false → t.readBuffer.Valid → AtHeader t [] → t.readBuffer.active.length ≤ n →
      t.delivered = delivered ++ [packet] →
      (∀ ps e, Frames (clientProtocol B) t.world none t.readBuffer.active ps e →
        Frames (clientProtocol B) world phase l (packet :: ps) e) →
      TurnResult world phase l delivered n .next t
  | wait {t : WorldSocket σ} {phase' : Option PacketHeader} {held : List UInt8} :
      t.closed = false → t.readBuffer.Valid → t.readBuffer.active = [] →
      t.delivered = delivered → Holding t phase' held →
      Frames (clientProtocol B) world phase l [] (.waiting t.world phase' held) →
      TurnResult world phase l delivered n .wait t
  | stop {t : WorldSocket σ} {ps : List WorldPacket} :
      t.closed = true → t.delivered = delivered ++ ps →
      Frames (clientProtocol B) world phase l ps (.closed t.world) →
      TurnResult world phase l delivered n .stop t

theorem payloadTurn_spec {s : WorldSocket σ} {header : PacketHeader} {held : List UInt8}
    (h : AtPayload s header held) (hr : s.readBuffer.Valid) (hopen : s.closed = false) {n : Nat}
    (hn : s.readBuffer.active.length ≤ n + (header.Size.toNat - held.length)) :
    ∃ exit t, (match s.payloadPart with
        | some (.next, s) => some (s.deliverPart B)
        | result => result) = some (exit, t) ∧
      TurnResult B s.world (some header) (held ++ s.readBuffer.active) s.delivered n exit t := by
  have hle := h.le_packet
  by_cases hfew : held.length + s.readBuffer.active.length < header.Size.toNat
  · obtain ⟨t, ht, hsame, hvalid, hempty, hat⟩ := payloadPart_wait h hr hfew
    refine ⟨.wait, t, by rw [ht], ?_⟩
    have hlt : (held ++ s.readBuffer.active).length < header.Size.toNat := by
      rw [List.length_append]
      exact hfew
    have hholding : Holding t (some header) (held ++ s.readBuffer.active) := ⟨hat, hlt⟩
    refine .wait (hsame.closed.trans hopen) hvalid hempty hsame.delivered hholding ?_
    rw [hsame.world]
    exact .partialPayload hlt
  · -- the payload is complete
    have hsplit := (List.take_append_drop (header.Size.toNat - held.length)
      s.readBuffer.active).symm
    generalize hx : s.readBuffer.active.take (header.Size.toNat - held.length) = x at hsplit
    generalize s.readBuffer.active.drop (header.Size.toNat - held.length) = rest at hsplit
    have hxlen : x.length = header.Size.toNat - held.length := by
      rw [← hx, List.length_take]
      omega
    have hfull : (held ++ x).length = header.Size.toNat := by
      rw [List.length_append]
      omega
    obtain ⟨u, hu, hsame, hvalid, hrest, hat⟩ := payloadPart_full h hr hsplit hfull
    obtain ⟨⟨world, on⟩, hdeliver⟩ : ∃ r, (clientProtocol B).deliver u.world
        ⟨header.Command, held ++ x⟩ = r := ⟨_, rfl⟩
    obtain ⟨t, hworld, hdel, hbuf, hcase⟩ := deliverPart_spec B hat hfull hdeliver
    rw [hsame.delivered] at hdel
    rw [hsame.world] at hdeliver
    have hbytes : held ++ s.readBuffer.active = (held ++ x) ++ rest := by
      rw [hsplit, List.append_assoc]
    rcases hcase with ⟨rfl, hpart, hclosed, hnext⟩ | ⟨rfl, hpart, hclosed⟩
    · refine ⟨.next, t, by rw [hu]; exact congrArg some hpart, ?_⟩
      refine .next (hclosed.trans (hsame.closed.trans hopen)) (hbuf ▸ hvalid) hnext ?_ hdel
        fun ps e hps => ?_
      · rw [hbuf, hrest]
        rw [hsplit, List.length_append] at hn
        omega
      · rw [hbuf, hrest, hworld] at hps
        rw [hbytes]
        exact .delivered hfull hdeliver hps
    · refine ⟨.stop, t, by rw [hu]; exact congrArg some hpart, ?_⟩
      refine .stop hclosed hdel ?_
      rw [hbytes, hworld]
      exact .failed hfull hdeliver

theorem readTurn_spec {s : WorldSocket σ} {phase : Option PacketHeader} {held : List UInt8}
    (h : Holding s phase held) (hr : s.readBuffer.Valid) (hopen : s.closed = false) {n : Nat}
    (hn : s.readBuffer.active.length = n + 1) :
    ∃ exit t, s.readTurn B = some (exit, t) ∧
      TurnResult B s.world phase (held ++ s.readBuffer.active) s.delivered n exit t := by
  cases phase with
  | some header =>
    obtain ⟨hat, hlt⟩ := h
    have hrem : ¬s.headerBuffer.getRemainingSpace > 0 := by
      rw [MessageBuffer.getRemainingSpace, hat.length_header, hat.wpos_header]
      omega
    have hpart : s.headerPart B = some (.next, s) := by rw [headerPart, if_neg hrem]
    rw [readTurn, hpart]
    exact payloadTurn_spec B hat hr hopen (by omega)
  | none =>
    obtain ⟨hat, hlt⟩ := h
    by_cases hfew : held.length + s.readBuffer.active.length < SizeOfClientHeader
    · obtain ⟨t, ht, hsame, hvalid, hempty, hat'⟩ := headerPart_wait B hat hr hfew
      refine ⟨.wait, t, by rw [readTurn, ht], ?_⟩
      have hlt' : (held ++ s.readBuffer.active).length < SizeOfClientHeader := by
        rw [List.length_append]
        exact hfew
      have hholding : Holding t none (held ++ s.readBuffer.active) := ⟨hat', hlt'⟩
      refine .wait (hsame.closed.trans hopen) hvalid hempty hsame.delivered hholding ?_
      rw [hsame.world]
      exact .partialHeader hlt'
    · -- the header is complete
      have hsplit := (List.take_append_drop (SizeOfClientHeader - held.length)
        s.readBuffer.active).symm
      generalize hx : s.readBuffer.active.take (SizeOfClientHeader - held.length) = x at hsplit
      generalize s.readBuffer.active.drop (SizeOfClientHeader - held.length) = rest at hsplit
      have hxlen : x.length = SizeOfClientHeader - held.length := by
        rw [← hx, List.length_take]
        omega
      have hfull : (held ++ x).length = SizeOfClientHeader := by
        rw [List.length_append]
        omega
      obtain ⟨⟨world, header⟩, hdecode⟩ : ∃ r, (clientProtocol B).decode s.world (held ++ x) = r :=
        ⟨_, rfl⟩
      have hbytes : held ++ s.readBuffer.active = (held ++ x) ++ rest := by
        rw [hsplit, List.append_assoc]
      obtain ⟨u, hworld, hdel, hvalid, hrest, hcase⟩ :=
        headerPart_full B hat hr hlt hsplit hfull hdecode
      rcases hcase with ⟨hok, hpart, hclosed, hpay⟩ | ⟨hbad, hpart, hclosed⟩
      · rw [readTurn, hpart]
        have hrestlen : rest.length ≤ n := by
          rw [hsplit, List.length_append] at hn
          omega
        obtain ⟨exit, t, ht, hresult⟩ := payloadTurn_spec B hpay hvalid (hclosed.trans hopen)
          (n := n) (by rw [hrest]; omega)
        refine ⟨exit, t, ht, ?_⟩
        rw [List.nil_append, hrest, hworld, hdel] at hresult
        rw [hbytes]
        cases hresult with
        | next hc hv ha hl hd hf =>
          exact .next hc hv ha hl hd fun ps e hps => .accepted hfull hdecode hok (hf ps e hps)
        | wait hc hv he hd hh hf => exact .wait hc hv he hd hh (.accepted hfull hdecode hok hf)
        | stop hc hd hf => exact .stop hc hd (.accepted hfull hdecode hok hf)
      · refine ⟨.stop, u, by rw [readTurn, hpart], ?_⟩
        refine .stop hclosed (hdel.trans (List.append_nil _).symm) ?_
        rw [hbytes, hworld]
        exact .rejected hfull hdecode hbad

inductive Ended : WorldSocket σ → Ending σ UInt8 PacketHeader → Prop
  | waiting {s : WorldSocket σ} {phase : Option PacketHeader} {held : List UInt8} :
      s.closed = false → s.readBuffer.Valid → s.readBuffer.active = [] → Holding s phase held →
      Ended s (.waiting s.world phase held)
  | closed {s : WorldSocket σ} : s.closed = true → Ended s (.closed s.world)

theorem readLoop_spec {s : WorldSocket σ} {phase : Option PacketHeader} {held : List UInt8}
    (h : Holding s phase held) (hr : s.readBuffer.Valid) (hopen : s.closed = false) {fuel : Nat}
    (hfuel : s.readBuffer.active.length < fuel) :
    ∃ on t ps e, s.readLoop B fuel = some (on, t) ∧ t.closed = !on ∧ Ended t e ∧
      t.delivered = s.delivered ++ ps ∧
      Frames (clientProtocol B) s.world phase (held ++ s.readBuffer.active) ps e := by
  induction fuel generalizing s phase held with
  | zero => omega
  | succ fuel ih =>
    have hlen := hr.length_active
    by_cases hactive : s.readBuffer.getActiveSize > 0
    · obtain ⟨n, hn⟩ : ∃ n, s.readBuffer.active.length = n + 1 :=
        Nat.exists_eq_succ_of_ne_zero (by omega)
      obtain ⟨exit, t, ht, hresult⟩ := readTurn_spec B h hr hopen hn
      cases hresult with
      | @next _ packet hc hv ha hl hd hf =>
        have hholding : Holding t none [] := ⟨ha, Nat.zero_lt_succ _⟩
        obtain ⟨on, u, ps, e, hu, hon, hended, hdel, hframes⟩ := ih hholding hv hc (by omega)
        have hloop : s.readLoop B (fuel + 1) = t.readLoop B fuel := by
          rw [readLoop, if_pos hactive]
          exact ht ▸ rfl
        refine ⟨on, u, packet :: ps, e, hloop.trans hu, hon, hended, ?_, hf ps e hframes⟩
        rw [hdel, hd, List.append_assoc]
        rfl
      | wait hc hv he hd hh hf =>
        have hloop : s.readLoop B (fuel + 1) = some (true, t) := by
          rw [readLoop, if_pos hactive]
          exact ht ▸ rfl
        exact ⟨true, t, [], _, hloop, hc, .waiting hc hv he hh, by rw [hd, List.append_nil], hf⟩
      | stop hc hd hf =>
        have hloop : s.readLoop B (fuel + 1) = some (false, t) := by
          rw [readLoop, if_pos hactive]
          exact ht ▸ rfl
        exact ⟨false, t, _, _, hloop, hc, .closed hc, hd, hf⟩
    · have hnil : s.readBuffer.active = [] := List.length_eq_zero_iff.mp (by omega)
      refine ⟨true, s, [], _, by rw [readLoop, if_neg hactive], hopen,
        .waiting hopen hr hnil h, (List.append_nil _).symm, ?_⟩
      rw [hnil, List.append_nil]
      exact h.frames B

theorem Holding.asyncRead {s : WorldSocket σ} {phase : Option PacketHeader} {held : List UInt8}
    (h : Holding s phase held) : Holding s.asyncRead phase held := by
  unfold WorldSocket.asyncRead
  split
  · exact h
  · cases phase with
    | none =>
      obtain ⟨hat, hlt⟩ := h
      exact ⟨⟨hat.1, hat.2, hat.3, hat.4, hat.5, hat.6⟩, hlt⟩
    | some header =>
      obtain ⟨hat, hlt⟩ := h
      exact ⟨⟨hat.1, hat.2, hat.3, hat.4, hat.5, hat.6, hat.7, hat.8, hat.9⟩, hlt⟩

theorem Ended.asyncRead {s : WorldSocket σ} {e : Ending σ UInt8 PacketHeader} (h : Ended s e) :
    Ended s.asyncRead e ∧ s.asyncRead.delivered = s.delivered := by
  cases h with
  | waiting hc hv he hh =>
    have hs : s.asyncRead =
        { s with readBuffer := s.readBuffer.normalize.ensureFreeSpace } := by
      rw [WorldSocket.asyncRead, if_neg (by rw [hc]; exact Bool.false_ne_true)]
    obtain ⟨hv1, ha1⟩ := MessageBuffer.normalize_valid hv
    obtain ⟨hv2, ha2⟩ := MessageBuffer.ensureFreeSpace_valid hv1
    have hh' := hh.asyncRead
    rw [hs] at hh' ⊢
    exact ⟨.waiting hc hv2 (ha2.trans (ha1.trans he)) hh', rfl⟩
  | closed hc =>
    have hs : s.asyncRead = s := by rw [WorldSocket.asyncRead, if_pos hc]
    rw [hs]
    exact ⟨.closed hc, rfl⟩

theorem receive_spec {s : WorldSocket σ} {phase : Option PacketHeader} {held bytes : List UInt8}
    (h : Holding s phase held) (hr : s.readBuffer.Valid) (hopen : s.closed = false)
    (hfit : bytes.length ≤ s.readBuffer.getRemainingSpace) :
    ∃ t ps e, s.receive B bytes = some t ∧ Ended t e ∧ t.delivered = s.delivered ++ ps ∧
      Frames (clientProtocol B) s.world phase (held ++ (s.readBuffer.active ++ bytes)) ps e := by
  obtain ⟨buf, hw, hv, hrpos, -, -, htake⟩ := MessageBuffer.write_spec hr hfit
  have hactive := MessageBuffer.active_write hr hrpos htake
  have hn : ¬s.closed = true := by rw [hopen]; exact Bool.false_ne_true
  have hholding : Holding { s with readBuffer := buf } phase held := by
    cases phase with
    | none => exact ⟨⟨h.1.1, h.1.2, h.1.3, h.1.4, h.1.5, h.1.6⟩, h.2⟩
    | some header =>
      exact ⟨⟨h.1.1, h.1.2, h.1.3, h.1.4, h.1.5, h.1.6, h.1.7, h.1.8, h.1.9⟩, h.2⟩
  have hfuel : buf.active.length < buf.getActiveSize + 1 := by
    rw [hv.length_active]
    exact Nat.lt_succ_self _
  obtain ⟨on, t, ps, e, ht, hon, hended, hdel, hframes⟩ := readLoop_spec B hholding hv hopen hfuel
  have hreceive : s.receive B bytes = some (if on then t.asyncRead else t) := by
    rw [WorldSocket.receive, if_neg hn]
    simp only [hw]
    rw [readHandler, if_neg hn]
    cases on with
    | true => exact ht ▸ rfl
    | false => exact ht ▸ rfl
  rw [show ({ s with readBuffer := buf } : WorldSocket σ).readBuffer.active =
    s.readBuffer.active ++ bytes from hactive] at hframes
  cases on with
  | true =>
    obtain ⟨hended', hdel'⟩ := hended.asyncRead
    exact ⟨t.asyncRead, ps, e, hreceive, hended', hdel'.trans hdel, hframes⟩
  | false => exact ⟨t, ps, e, hreceive, hended, hdel, hframes⟩

def Fits : WorldSocket σ → List (List UInt8) → Prop
  | _, [] => True
  | s, bytes :: reads =>
    (s.closed = false → 0 < bytes.length ∧ bytes.length ≤ s.readBuffer.getRemainingSpace) ∧
      ∀ t, s.receive B bytes = some t → Fits t reads

/-- A run of reads: the frames read so far are those of the stream so far. -/
theorem receiveAll_spec {world : σ} {l : List UInt8} {s : WorldSocket σ}
    {e : Ending σ UInt8 PacketHeader} (reads : List (List UInt8))
    (hframes : Frames (clientProtocol B) world none l s.delivered e) (hended : Ended s e)
    (hfits : Fits B s reads) :
    ∃ t e', s.receiveAll B reads = some t ∧ Ended t e' ∧
      Frames (clientProtocol B) world none (l ++ reads.flatten) t.delivered e' := by
  induction reads generalizing s e l with
  | nil =>
    refine ⟨s, e, rfl, hended, ?_⟩
    rw [List.flatten_nil, List.append_nil]
    exact hframes
  | cons bytes reads ih =>
    obtain ⟨hfit, hrest⟩ := hfits
    rw [List.flatten_cons, ← List.append_assoc]
    cases hended with
    | waiting hc hv he hh =>
      obtain ⟨t, ps, e', ht, hended', hdel, hnew⟩ := receive_spec B hh hv hc (hfit hc).2
      rw [he, List.nil_append] at hnew
      have hall := hframes.append hnew
      rw [← hdel] at hall
      obtain ⟨u, e'', hu, hended'', hu'⟩ := ih hall hended' (hrest t ht)
      exact ⟨u, e'', by rw [receiveAll, ht]; exact hu, hended'', hu'⟩
    | closed hc =>
      have ht : s.receive B bytes = some s := by rw [WorldSocket.receive, if_pos hc]
      obtain ⟨u, e'', hu, hended'', hu'⟩ :=
        ih (hframes.closed_append bytes) (.closed hc) (hrest s ht)
      exact ⟨u, e'', by rw [receiveAll, ht]; exact hu, hended'', hu'⟩

theorem afterInitializer_holding (world : σ) (readBuffer : MessageBuffer) :
    Holding (afterInitializer world readBuffer) none [] :=
  ⟨{ length_header := MessageBuffer.length_resize _ _
     rpos_header := rfl
     wpos_header := rfl
     le_header := Nat.zero_le _
     take_header := List.take_zero
     packet_empty := rfl }, Nat.zero_lt_succ _⟩

/-- The reads behind the initializer, of which there is at least one. -/
theorem receiveAll_frames {world : σ} {readBuffer : MessageBuffer} (hbuf : readBuffer.Valid)
    {reads : List (List UInt8)} (hreads : reads ≠ [])
    (hfits : Fits B (afterInitializer world readBuffer) reads) :
    ∃ t e, (afterInitializer world readBuffer).receiveAll B reads = some t ∧ Ended t e ∧
      Frames (clientProtocol B) world none (readBuffer.active ++ reads.flatten) t.delivered e := by
  obtain ⟨bytes, reads, rfl⟩ := List.exists_cons_of_ne_nil hreads
  obtain ⟨hfit, hrest⟩ := hfits
  obtain ⟨hv1, ha1⟩ := MessageBuffer.normalize_valid hbuf
  obtain ⟨hv2, ha2⟩ := MessageBuffer.ensureFreeSpace_valid hv1
  obtain ⟨t, ps, e, ht, hended, hdel, hframes⟩ := receive_spec B
    (afterInitializer_holding world readBuffer) hv2 rfl (hfit rfl).2
  have hactive : (afterInitializer world readBuffer).readBuffer.active = readBuffer.active :=
    ha2.trans ha1
  have hfirst : Frames (clientProtocol B) world none (readBuffer.active ++ bytes) t.delivered e := by
    rw [hactive, List.nil_append] at hframes
    rw [hdel]
    exact hframes
  obtain ⟨u, e', hu, hended', hu'⟩ := receiveAll_spec B reads hfirst hended (hrest t ht)
  refine ⟨u, e', by rw [receiveAll, ht]; exact hu, hended', ?_⟩
  rw [List.flatten_cons, ← List.append_assoc]
  exact hu'

theorem Ended.world_eq {s t : WorldSocket σ} {e : Ending σ UInt8 PacketHeader} (hs : Ended s e)
    (ht : Ended t e) : s.world = t.world ∧ s.closed = t.closed := by
  cases hs with
  | waiting hc =>
    generalize he : Ending.waiting s.world _ _ = e at ht
    cases ht with
    | waiting hc' =>
      obtain ⟨hworld, _, _⟩ := Ending.waiting.inj he
      exact ⟨hworld, hc.trans hc'.symm⟩
    | closed => cases he
  | closed hc =>
    generalize he : Ending.closed s.world = e at ht
    cases ht with
    | waiting => cases he
    | closed hc' => exact ⟨Ending.closed.inj he, hc.trans hc'.symm⟩

def unencrypted : Backend Unit where
  decrypt world b := (world, b)
  dispatch world _ := (world, .Ok)

end WorldSocket

end Ashamane.Sockets
