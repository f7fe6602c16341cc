import ReactDpdk.Tcp.HeaderReads

/-! Where `handleTcpRx` looks for the headers of a frame, by the lengths of its
segments, and which bytes of memory the reads of the TCP header take there. -/
namespace Nginz
open Segments RteMbuf

namespace RteMbufIterator

/-- The iterator that `skip` leaves that many bytes behind the start of a chain. -/
def standing (chain : List RteMbuf) (p : Nat) : RteMbufIterator :=
  { m := (land dataLength chain p).1, offset := (land dataLength chain p).2 }

variable (chain : List RteMbuf) (p : Nat)

theorem standing_zero : standing chain 0 = { m := chain } := by
  cases chain with
  | nil => rfl
  | cons a rest =>
      rw [standing, land_stays dataLength (Or.inl rfl)]

theorem standing_offset : ∀ a ∈ (standing chain p).m.head?,
    (standing chain p).offset = 0 ∨ (standing chain p).offset < a.dataLen.toNat :=
  land_offset dataLength chain p

theorem standing_end (h : (standing chain p).m = []) : (standing chain p).offset = 0 :=
  land_end dataLength chain p h

theorem skip_standing (n : UInt32) : (standing chain p).skip n = standing chain (p + n.toNat) := by
  have hLoop := skipLoop_eq_land (standing chain p).m n (standing_end chain p)
    (standing_offset chain p)
  have hWalk : land dataLength (standing chain p).m ((standing chain p).offset + n.toNat) =
      land dataLength chain (p + n.toNat) := land_land dataLength chain p n.toNat
  obtain ⟨hChain, hOffset⟩ := Prod.mk.inj (hLoop.trans hWalk)
  exact ext_position hChain hOffset rfl

/-- The bytes that `operator++` visits from a position on: those of the data, and
one behind the data of each segment. -/
def ahead (self : RteMbufIterator) : List BytePtr := slots self.m self.offset

theorem ahead_next {self : RteMbufIterator} (h : self.Valid) :
    self.next.ahead = self.ahead.drop 1 := by
  rcases h.cases with hEnd | ⟨a, tail, offset, rfl, hOffset⟩
  · simp [ahead, next, hEnd, slots]
  · rcases Nat.lt_or_eq_of_le hOffset with hInside | rfl
    · rw [next_inside hInside, ahead, ahead, slots_inside tail hInside]
      rfl
    · rw [next_behind, ahead, ahead, slots_behind]
      rfl

/-- The address that is read is the first of them. -/
theorem address_eq {self : RteMbufIterator} (h : self.Valid) :
    self.address = self.ahead.head? := by
  rcases h.cases with hEnd | ⟨a, tail, offset, rfl, hOffset⟩
  · simp [ahead, address, hEnd, slots]
  · rcases Nat.lt_or_eq_of_le hOffset with hInside | rfl
    · rw [ahead, slots_inside tail hInside]
      rfl
    · rw [ahead, slots_behind]
      rfl

theorem Valid.next {self : RteMbufIterator} (h : self.Valid) : self.next.Valid := by
  rcases h.cases with hEnd | ⟨a, tail, offset, rfl, hOffset⟩
  · simpa [RteMbufIterator.next, hEnd] using h
  · rcases Nat.lt_or_eq_of_le hOffset with hInside | rfl
    · rw [next_inside hInside]
      exact valid_at hInside
    · rw [next_behind]
      exact ⟨fun _ _ => Nat.zero_le _, rfl⟩

end RteMbufIterator

namespace RteMbufReader
open RteMbufIterator
variable {reader : RteMbufReader} {ptrs : List BytePtr} {count : Nat}

/-- The reader has these bytes ahead, and the segments of the next `count` of them
claim enough for every typed read of a header. -/
structure Ahead (ptrs : List BytePtr) (count : Nat) (reader : RteMbufReader) : Prop where
  valid : reader.itr.Valid
  ahead : reader.itr.ahead = ptrs
  claim : ∀ ptr ∈ ptrs.take count, 4 ≤ ptr.segment.pktLen.toNat

theorem Ahead.size_nil (h : Ahead [] count reader) : reader.size = 0 := by
  have hAddress : reader.itr.address = none := by
    rw [address_eq h.valid, h.ahead, List.head?_nil]
  rw [RteMbufIterator.address, Option.map_eq_none_iff, List.head?_eq_none_iff] at hAddress
  rw [RteMbufReader.size, RteMbufIterator.size, hAddress]

theorem Ahead.size_cons {ptr : BytePtr} (h : Ahead (ptr :: ptrs) count reader) :
    reader.size = ptr.segment.pktLen.toNat := by
  have hAddress : reader.itr.address = some ptr := by
    rw [address_eq h.valid, h.ahead, List.head?_cons]
  rcases h.valid.cases with hEnd | ⟨a, tail, offset, hAt, _⟩
  · simp [RteMbufIterator.address, hEnd] at hAddress
  · rw [hAt] at hAddress
    cases hAddress
    exact size_at hAt

/-- A read of a byte takes the first one ahead, if there is one. -/
theorem Ahead.readU8 (h : Ahead ptrs (count + 1) reader) (outv : UInt8) :
    Ahead (ptrs.drop 1) count (reader.readU8 outv).1 ∧
      (reader.readU8 outv).2 = (ptrs.map BytePtr.read).headD outv := by
  cases ptrs with
  | nil =>
      have hSize := h.size_nil
      rw [isTypedRead_u8.short reader outv (by omega)]
      exact ⟨⟨h.valid, h.ahead, fun _ hMem => by simp at hMem⟩, rfl⟩
  | cons ptr others =>
      have hSize := h.size_cons
      obtain ⟨hHere, hThere⟩ := List.forall_mem_cons.mp (List.take_succ_cons ▸ h.claim)
      have hAddress : reader.itr.address = some ptr := by
        rw [address_eq h.valid, h.ahead, List.head?_cons]
      have hRaw : reader.itr.getRawBuffer = some ptr := by
        have hClaimed : reader.itr.size ≠ 0 := by
          rw [RteMbufReader.size] at hSize
          omega
        rw [RteMbufIterator.getRawBuffer, RteMbufIterator.eof, if_neg (by rwa [beq_iff_eq]),
          hAddress]
      have hNext : reader.itr.next.ahead = others := by
        rw [ahead_next h.valid, h.ahead, List.drop_one, List.tail_cons]
      simp only [RteMbufReader.readU8, hRaw, List.drop_one, List.tail_cons]
      exact ⟨⟨h.valid.next, hNext, hThere⟩, rfl⟩

/-- A read of two bytes takes the first two; the second may be missing. -/
theorem Ahead.readU16 (h : Ahead ptrs (count + 2) reader) (junk : Indeterminate) (outv : UInt16) :
    Ahead (ptrs.drop 2) count (reader.readU16 junk outv).1 ∧
      (ptrs ≠ [] → (reader.readU16 junk outv).2 =
        TcpFrame.half (ptrs.map BytePtr.read ++ [junk.byteLo]) 0) ∧
      (ptrs = [] → (reader.readU16 junk outv).2 = outv) := by
  cases ptrs with
  | nil =>
      have hSize := h.size_nil
      rw [readU16_short (by omega)]
      exact ⟨⟨h.valid, h.ahead, fun _ hMem => by simp at hMem⟩, fun hNe => absurd rfl hNe,
        fun _ => rfl⟩
  | cons ptr others =>
      have hSize := h.size_cons
      obtain ⟨hHere, _⟩ := List.forall_mem_cons.mp (List.take_succ_cons ▸ h.claim)
      have hTwo : Ahead (ptr :: others) (count + 1 + 1) reader := h
      obtain ⟨hMiddle, hHi⟩ := hTwo.readU8 junk.byteHi
      obtain ⟨hEnd, hLo⟩ := hMiddle.readU8 junk.byteLo
      rw [RteMbufReader.readU16, if_neg (by omega)]
      refine ⟨?_, fun _ => ?_, fun hNil => by cases hNil⟩
      · rwa [List.drop_drop] at hEnd
      · dsimp only
        rw [hHi, hLo]
        cases others <;> rfl

/-- A read of four bytes takes the first four. -/
theorem Ahead.readU32 (h : Ahead ptrs (count + 4) reader) (junk : Indeterminate) (outv : UInt32) :
    Ahead (ptrs.drop 4) count (reader.readU32 junk outv).1 := by
  cases ptrs with
  | nil =>
      have hSize := h.size_nil
      rw [readU32_short (by omega)]
      exact ⟨h.valid, h.ahead, fun _ hMem => by simp at hMem⟩
  | cons ptr others =>
      have hSize := h.size_cons
      obtain ⟨hHere, _⟩ := List.forall_mem_cons.mp (List.take_succ_cons ▸ h.claim)
      have hFour : Ahead (ptr :: others) (count + 2 + 2) reader := h
      have hMiddle := (hFour.readU16 junk junk.halfHi).1
      have hEnd := (hMiddle.readU16 junk junk.halfLo).1
      rw [List.drop_drop] at hEnd
      rw [RteMbufReader.readU32, if_neg (by omega)]
      exact hEnd

/-- The word behind the two numbers takes the thirteenth and the fourteenth. -/
theorem Ahead.left (h : Ahead ptrs 14 reader) (locals : Indeterminate) (sport dport : UInt16)
    (seqno ackno : UInt32) :
    Ahead (ptrs.drop 12) 2 ((((reader.readU16 locals sport).1.readU16 locals dport).1.readU32
      locals seqno).1.readU32 locals ackno).1 := by
  have hDport := (h.readU16 locals sport).1
  have hSeqno := (hDport.readU16 locals dport).1
  have hAckno := hSeqno.readU32 locals seqno
  have hLeft := hAckno.readU32 locals ackno
  rwa [List.drop_drop, List.drop_drop, List.drop_drop] at hLeft

/-- The destination port is spelled by the third and the fourth. -/
theorem Ahead.dport (h : Ahead ptrs 14 reader) (hEnough : 4 ≤ ptrs.length)
    (locals : Indeterminate) (header : TcpSegmentHeader) :
    (readTcpFront locals header reader).2.dport = TcpFrame.half (ptrs.map BytePtr.read) 2 := by
  have hLength : (ptrs.drop 2).length = ptrs.length - 2 := List.length_drop
  have hSome : ptrs.drop 2 ≠ [] := by
    intro hNil
    rw [hNil, List.length_nil] at hLength
    omega
  have hRead := ((h.readU16 locals header.sport).1.readU16 locals header.dport).2.1 hSome
  have hInside : 0 + 2 ≤ ((ptrs.drop 2).map BytePtr.read).length := by
    rw [List.length_map]
    omega
  rw [TcpFrame.half_append_left hInside, List.map_drop, TcpFrame.half_drop] at hRead
  exact hRead

/-- The second of these may be what a local of the read held before. -/
theorem Ahead.left_eq (h : Ahead ptrs 14 reader) (hMore : 12 < ptrs.length)
    (locals : Indeterminate) (sport dport : UInt16) (seqno ackno : UInt32) :
    (((((reader.readU16 locals sport).1.readU16 locals dport).1.readU32 locals seqno).1.readU32
      locals ackno).1.readU16 locals 0).2 =
        TcpFrame.half (ptrs.map BytePtr.read ++ [locals.byteLo]) 12 := by
  have hSome : ptrs.drop 12 ≠ [] := by
    intro hNil
    have hLength := List.drop_eq_nil_iff.mp hNil
    omega
  have hRead := ((h.left locals sport dport seqno ackno).readU16 locals 0).2.1 hSome
  have hBehind : 12 ≤ (ptrs.map BytePtr.read).length := by
    rw [List.length_map]
    omega
  rw [hRead, List.map_drop, ← List.drop_append_of_le_length hBehind, TcpFrame.half_drop]

/-- The four bits of the data offset are the upper half of the thirteenth, if there
is one, and otherwise zero. -/
theorem Ahead.dataOffset (h : Ahead ptrs 14 reader) (locals : Indeterminate)
    (header : TcpSegmentHeader) : (readTcpFront locals header reader).2.dataOffset =
      TcpFrame.byte (ptrs.map BytePtr.read) 12 >>> 4 := by
  by_cases hMore : 12 < ptrs.length
  · have hInside : 12 < (ptrs.map BytePtr.read).length := by rwa [List.length_map]
    have hLeft := h.left_eq hMore locals header.sport header.dport header.seqno header.ackno
    simp only [readTcpFront, hLeft, dataOffset_of_half]
    rw [TcpFrame.byte_append_left hInside]
  · have hNone : ptrs.drop 12 = [] := List.drop_eq_nil_iff.mpr (Nat.le_of_not_lt hMore)
    have hAt := h.left locals header.sport header.dport header.seqno header.ackno
    have hLeft := (hAt.readU16 locals 0).2.2 hNone
    have hByte : TcpFrame.byte (ptrs.map BytePtr.read) 12 = 0 := by
      simp [TcpFrame.byte, Nat.le_of_not_lt hMore]
    simp only [readTcpFront, hLeft, hByte]
    rfl

end RteMbufReader

section Frames
variable {junk : RxJunk} {listen : TcpControlBlock} {frame : List RteMbuf} {iphdr : BytePtr}

/-- What the segment claims to hold where a position of the chain lies. -/
def claimAt (frame : List RteMbuf) (p : Nat) : Nat :=
  match (land dataLength frame p).1 with
  | [] => 0
  | a :: _ => a.pktLen.toNat

/-- How much data that segment has from there on. -/
def roomAt (frame : List RteMbuf) (p : Nat) : Nat :=
  match (land dataLength frame p).1 with
  | [] => 0
  | a :: _ => a.dataLen.toNat - (land dataLength frame p).2

/-- Its memory from there on, be it data or not. -/
def memoryAt (frame : List RteMbuf) (p k : Nat) : UInt8 :=
  match (land dataLength frame p).1 with
  | [] => 0
  | a :: _ => a.byteAt ((land dataLength frame p).2 + k)

/-- The bytes that are visited from a position on. -/
def visited (frame : List RteMbuf) (p : Nat) : List BytePtr :=
  (RteMbufIterator.standing frame p).ahead

/-- Where the code looks for the TCP header. -/
def tcpPlace (frame : List RteMbuf) : Nat := 14 + 4 * (memoryAt frame 14 0 &&& 0xF).toNat

section Standing
variable {reader : RteMbufReader} {p : Nat}

theorem size_standing (h : reader.itr = RteMbufIterator.standing frame p) :
    reader.size = claimAt frame p := by
  rw [RteMbufReader.size, RteMbufIterator.size, h, claimAt, RteMbufIterator.standing]
  split <;> simp_all [sizeSub]

theorem room_standing (h : reader.itr = RteMbufIterator.standing frame p) :
    reader.room = roomAt frame p := by
  rw [RteMbufReader.room, h, roomAt]
  rfl

theorem memory_standing (h : reader.itr = RteMbufIterator.standing frame p)
    (hAt : reader.getRawBuffer = some iphdr) (k : Nat) :
    (iphdr.add k).read = memoryAt frame p k := by
  rw [RteMbufReader.getRawBuffer, RteMbufIterator.getRawBuffer] at hAt
  split at hAt
  · cases hAt
  · obtain ⟨a, hHead, rfl⟩ := Option.map_eq_some_iff.mp hAt
    obtain ⟨tail, hChain⟩ := List.head?_eq_some_iff.mp hHead
    have hHere : (land dataLength frame p).1 = a :: tail := by
      rw [h] at hChain
      exact hChain
    have hOffset : reader.itr.offset = (land dataLength frame p).2 := by
      rw [h]
      rfl
    rw [memoryAt, hHere, hOffset]
    rfl

end Standing

theorem new_standing (frame : List RteMbuf) :
    (RteMbufReader.new frame).itr = RteMbufIterator.standing frame 0 :=
  (RteMbufIterator.standing_zero frame).symm

theorem ipReader_standing (frame : List RteMbuf) :
    (ipReader frame).itr = RteMbufIterator.standing frame 14 := by
  have hSkip : (ipReader frame).itr = (RteMbufReader.new frame).itr.skip etherHdrSize := rfl
  rw [hSkip, new_standing, RteMbufIterator.skip_standing]
  rfl

theorem tcpReader_standing (hAt : (ipReader frame).getRawBuffer = some iphdr) :
    (tcpReader frame iphdr).itr = RteMbufIterator.standing frame (tcpPlace frame) := by
  have hSkip : (tcpReader frame iphdr).itr =
      (ipReader frame).itr.skip (ipHeaderLen iphdr).toUInt32 := rfl
  have hFirst : iphdr.read = memoryAt frame 14 0 :=
    memory_standing (ipReader_standing frame) hAt 0
  rw [hSkip, ipReader_standing, RteMbufIterator.skip_standing, ipHeaderLen_toNat, hFirst, tcpPlace]

/-- The bytes that the reads of the TCP header take, in their order. -/
def headerBytes (frame : List RteMbuf) : List UInt8 :=
  (visited frame (tcpPlace frame)).map BytePtr.read

/-- The segments of the first fourteen bytes that are visited from there on claim
enough for every typed read, so none of them is left out. -/
def FrontClaimed (frame : List RteMbuf) : Prop :=
  ∀ ptr ∈ (visited frame (tcpPlace frame)).take 14, 4 ≤ ptr.segment.pktLen.toNat

theorem FrontClaimed.ahead (h : FrontClaimed frame)
    (hAt : (ipReader frame).getRawBuffer = some iphdr) :
    RteMbufReader.Ahead (visited frame (tcpPlace frame)) 14 (tcpReader frame iphdr) := by
  constructor
  case valid => exact tcpReader_valid frame iphdr
  case ahead => rw [tcpReader_standing hAt, visited]
  case claim => exact h

theorem dataOffset_front (hFront : FrontClaimed frame)
    (hAt : (ipReader frame).getRawBuffer = some iphdr) :
    (tcpFront junk frame iphdr).2.dataOffset = TcpFrame.byte (headerBytes frame) 12 >>> 4 :=
  (hFront.ahead hAt).dataOffset junk.locals { junk.header with ipHeader := readIpHeader iphdr }

/-- The upper half of the thirteenth byte is not zero, so there are that many. -/
theorem length_of_dataOffset (h : 5 ≤ (TcpFrame.byte (headerBytes frame) 12 >>> 4).toNat) :
    13 ≤ (visited frame (tcpPlace frame)).length := by
  by_contra hFew
  have hByte : TcpFrame.byte (headerBytes frame) 12 = 0 := by
    have hLength : (headerBytes frame).length ≤ 12 := by
      rw [headerBytes, List.length_map]
      omega
    simp [TcpFrame.byte, hLength]
  rw [hByte] at h
  exact absurd h (by decide)

end Frames

end Nginz
