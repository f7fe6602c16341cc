import Mathlib.Data.Nat.Bitwise
import ReactDpdk.Tcp.HeaderDecoding
import ReactDpdk.Tcp.HeaderPlaces

/-! The flags of a frame in the event mask of its header. Only four of the eight
bits get there, whichever segments the frame is made of. -/
namespace Nginz
open NetworkOrder

/-- The eight flags of `tcp_mask`. -/
def TcpMask.all : List UInt16 := [fin, syn, rst, psh, ack, urg, ece, cwr]

/-- Each flag is in the event mask if and only if it is set in the frame. -/
def FlagsReach (frame : List UInt8) (header : TcpSegmentHeader) : Prop :=
  ∀ flag ∈ TcpMask.all, header.has flag = true ↔ (TcpFrame.flags frame).toUInt16 &&& flag ≠ 0

section Masks
variable {x y : UInt8}

/-- A flag is one bit. -/
theorem and_flag_ne_zero {flag : UInt16} {i : Nat} (hFlag : flag.toNat = 2 ^ i) :
    x.toUInt16 &&& flag ≠ 0 ↔ x.toNat.testBit i = true := by
  have hNat : (x.toUInt16 &&& flag).toNat = (x.toNat.testBit i).toNat * 2 ^ i := by
    rw [UInt16.toNat_and, hFlag, UInt8.toNat_toUInt16, Nat.and_two_pow]
  rw [ne_eq, ← UInt16.toNat_inj, hNat]
  cases x.toNat.testBit i <;> simp

/-- Bytes that agree in all flags are the same. -/
theorem flags_agree_iff :
    (∀ flag ∈ TcpMask.all, x.toUInt16 &&& flag ≠ 0 ↔ y.toUInt16 &&& flag ≠ 0) ↔ x = y := by
  constructor
  · intro hAgree
    apply UInt8.toNat_inj.mp
    apply Nat.eq_of_testBit_eq
    intro i
    by_cases hBit : i < 8
    · have hFlags : ∀ i < 8, ∃ flag ∈ TcpMask.all, flag.toNat = 2 ^ i := by decide
      obtain ⟨flag, hMem, hFlag⟩ := hFlags i hBit
      have hSame := hAgree flag hMem
      rw [and_flag_ne_zero hFlag, and_flag_ne_zero hFlag] at hSame
      exact Bool.eq_iff_iff.mpr hSame
    · have hPow : 2 ^ 8 ≤ 2 ^ i := Nat.pow_le_pow_right (by decide) (Nat.le_of_not_lt hBit)
      rw [Nat.testBit_lt_two_pow (Nat.lt_of_lt_of_le x.toNat_lt hPow),
        Nat.testBit_lt_two_pow (Nat.lt_of_lt_of_le y.toNat_lt hPow)]
  · rintro rfl flag _
    rfl

theorem flagsReach_iff {frame : List UInt8} {header : TcpSegmentHeader} :
    FlagsReach frame header ↔ header.evtmask = TcpFrame.flags frame := by
  rw [← flags_agree_iff]
  simp only [FlagsReach, TcpSegmentHeader.has, bne_iff_ne]

theorem upper_flags_clear_iff : x &&& 0xF0 = 0 ↔ x.toNat < 16 := by
  have hAll : ∀ n < 256, n &&& 240 = 0 ↔ n < 16 := by decide +kernel
  rw [← UInt8.toNat_inj, UInt8.toNat_and]
  exact hAll x.toNat x.toNat_lt

/-- The four bits that are kept of a word are all of a byte if and only if the
others are clear in it. -/
theorem four_bits_eq_iff (left : UInt16) :
    (left &&& 0xF).toUInt8 = x ↔ x &&& 0xF0 = 0 ∧ left &&& 0xF = x.toUInt16 &&& 0xF := by
  have hMask (n : Nat) : n &&& 15 = n % 16 := Nat.and_two_pow_sub_one_eq_mod n 4
  have hFifteen : (0xF : UInt16).toNat = 15 := rfl
  have hKept : (left &&& 0xF).toNat = left.toNat % 16 := by
    rw [UInt16.toNat_and, hFifteen, hMask]
  have hByte : (x.toUInt16 &&& 0xF).toNat = x.toNat % 16 := by
    rw [UInt16.toNat_and, hFifteen, hMask, UInt8.toNat_toUInt16]
  rw [upper_flags_clear_iff, ← UInt8.toNat_inj, ← UInt16.toNat_inj, hByte, UInt16.toNat_toUInt8,
    hKept]
  omega

end Masks

section Reads
open RteMbuf RteMbufReader
variable {junk : RxJunk} {frame : List RteMbuf} {iphdr : BytePtr}

/-- The word of the data offset and the flags, as it is read: what the fifth read
of the TCP header gives. -/
def leftWord (junk : RxJunk) (frame : List RteMbuf) (iphdr : BytePtr) : UInt16 :=
  let sport := (tcpReader frame iphdr).readU16 junk.locals junk.header.sport
  let dport := sport.1.readU16 junk.locals junk.header.dport
  let seqno := dport.1.readU32 junk.locals junk.header.seqno
  let ackno := seqno.1.readU32 junk.locals junk.header.ackno
  (ackno.1.readU16 junk.locals 0).2

theorem evtmask_parsedFrame : (parsedFrame junk frame iphdr).header.evtmask =
    (leftWord junk frame iphdr &&& 0xF).toUInt8 := rfl

/-- The fixed part of the IPv4 header and the TCP header up to the flags lie each
in one segment, and the second of these claims a word at least. -/
structure FlagsInPlace (frame : List RteMbuf) (iphdr : BytePtr) : Prop where
  ip : 20 ≤ (ipReader frame).room
  tcp : 14 ≤ (tcpReader frame iphdr).room
  word : 4 ≤ (tcpReader frame iphdr).size

/-- In place, the word is that of the frame. -/
theorem FlagsInPlace.leftWord_eq (h : FlagsInPlace frame iphdr)
    (hAt : (ipReader frame).getRawBuffer = some iphdr) (junk : RxJunk) :
    leftWord junk frame iphdr = TcpFrame.half (chainBytes frame)
      (TcpFrame.tcpStart (chainBytes frame) + 12) := by
  have hTcp := h.tcp
  obtain ⟨a, tail, offset, hItr, hSum⟩ := at_of_room (tcpReader_valid frame iphdr) (by omega)
  have hStands : StandsAt a tail offset (tcpReader frame iphdr) := ⟨hItr, size_at hItr ▸ h.word⟩
  have hDport := (hStands.readU16 (by omega) junk.locals junk.header.sport).1
  have hSeqno := (hDport.readU16 (by omega) junk.locals junk.header.dport).1
  have hAckno := (hSeqno.readU32 (by omega) junk.locals junk.header.seqno).1
  have hLeft := (hAckno.readU32 (by omega) junk.locals junk.header.ackno).1
  rw [← half_of_rest hItr (rest_tcpReader hAt h.ip) (by omega)]
  exact (hLeft.readU16 (by omega) junk.locals 0).2

/-- The flags are the lower byte of the word. -/
theorem half_low_bits (bytes : List UInt8) (i : Nat) :
    TcpFrame.half bytes i &&& 0xF = (TcpFrame.byte bytes (i + 1)).toUInt16 &&& 0xF := by
  have hMask (n : Nat) : n &&& (0xF : UInt16).toNat = n % 16 := Nat.and_two_pow_sub_one_eq_mod n 4
  apply UInt16.toNat_inj.mp
  rw [UInt16.toNat_and, UInt16.toNat_and, hMask, hMask, TcpFrame.half_toNat, UInt8.toNat_toUInt16]
  omega

theorem low_bits_iff (x y : UInt8) :
    x.toUInt16 &&& 0xF = y.toUInt16 &&& 0xF ↔ x &&& 0xF = y &&& 0xF := by
  have hWord : (0xF : UInt16).toNat = 15 := rfl
  have hByte : (0xF : UInt8).toNat = 15 := rfl
  rw [← UInt16.toNat_inj, ← UInt8.toNat_inj]
  simp only [UInt16.toNat_and, UInt8.toNat_and, UInt8.toNat_toUInt16, hWord, hByte]

/-- Where no read is left out, its lower byte is the fourteenth that is visited, or
what a local of the read held if the chain ends before it. -/
theorem FrontClaimed.leftWord_eq (h : FrontClaimed frame)
    (hAt : (ipReader frame).getRawBuffer = some iphdr)
    (hMore : 13 ≤ (visited frame (tcpPlace frame)).length) (junk : RxJunk) :
    leftWord junk frame iphdr = TcpFrame.half (headerBytes frame ++ [junk.locals.byteLo]) 12 :=
  (h.ahead hAt).left_eq (by omega) junk.locals junk.header.sport junk.header.dport
    junk.header.seqno junk.header.ackno

end Reads

section Flags
variable {frame : List RteMbuf}

/-- A complete frame of one segment has its flags in place. -/
theorem flagsInPlace_complete {a : RteMbuf} (hLen : a.pktLen.toNat = a.dataLen.toNat)
    (hComplete : TcpFrame.Complete a.bytes) : FlagsInPlace [a] (ipAt a) := by
  obtain ⟨hStart, hRoom⟩ := complete_room hComplete
  have hIp := standsAt_ipReader hLen (by omega)
  have hTcp := standsAt_tcpReader hLen hComplete
  constructor
  case ip =>
    rw [hIp.room]
    omega
  case tcp =>
    rw [hTcp.room]
    omega
  case word =>
    rw [hTcp.size]
    omega

namespace TcpImpl
open RteMbuf
variable {ctx : TcpImpl} {junk : RxJunk} {parsed : ParsedFrame}

/-- For every frame, of whatever segments, that `handleTcpRx` passes to a
callback: all flags reach it if and only if the upper four are clear and the word
that was read has the lower four of the frame. It has, where the headers up to the
flags are in place; elsewhere, where no read is left out, the byte that was visited
as the fourteenth must have them. -/
theorem flags_reach_iff (hInvokes : ctx.Invokes junk frame parsed) :
    ∃ iphdr, (ipReader frame).getRawBuffer = some iphdr ∧
      (FlagsReach (chainBytes frame) parsed.header ↔
        TcpFrame.flags (chainBytes frame) &&& 0xF0 = 0 ∧
        leftWord junk frame iphdr &&& 0xF =
          (TcpFrame.flags (chainBytes frame)).toUInt16 &&& 0xF) ∧
      (FlagsInPlace frame iphdr → (FlagsReach (chainBytes frame) parsed.header ↔
        TcpFrame.flags (chainBytes frame) &&& 0xF0 = 0)) ∧
      (FrontClaimed frame → (FlagsReach (chainBytes frame) parsed.header ↔
        TcpFrame.flags (chainBytes frame) &&& 0xF0 = 0 ∧
        TcpFrame.byte (headerBytes frame ++ [junk.locals.byteLo]) 13 &&& 0xF =
          TcpFrame.flags (chainBytes frame) &&& 0xF)) := by
  obtain ⟨iphdr, hPass, rfl⟩ := parseFrame_eq_some_iff.mp hInvokes.1
  have hReach : FlagsReach (chainBytes frame) (parsedFrame junk frame iphdr).header ↔
      TcpFrame.flags (chainBytes frame) &&& 0xF0 = 0 ∧ leftWord junk frame iphdr &&& 0xF =
        (TcpFrame.flags (chainBytes frame)).toUInt16 &&& 0xF := by
    rw [flagsReach_iff, evtmask_parsedFrame, four_bits_eq_iff]
  refine ⟨iphdr, hPass.ipAt, hReach, ?_, ?_⟩
  · intro hPlace
    have hWord : leftWord junk frame iphdr &&& 0xF =
        (TcpFrame.flags (chainBytes frame)).toUInt16 &&& 0xF := by
      rw [hPlace.leftWord_eq hPass.ipAt junk, half_low_bits]
      rfl
    rw [hReach]
    exact and_iff_left hWord
  · intro hFront
    have hOffset := hPass.dataOffset
    rw [dataOffset_front hFront hPass.ipAt, UInt8.le_iff_toNat_le] at hOffset
    rw [hReach, hFront.leftWord_eq hPass.ipAt (length_of_dataOffset hOffset), half_low_bits,
      low_bits_iff]

/-- The SYN of a client reaches its callback. -/
theorem flags_reach_iff_syn : ∃ parsed, init.Invokes .zero (sampleFrame 2 100) parsed ∧
    FlagsReach (chainBytes (sampleFrame 2 100)) parsed.header := by
  have hSome : (parseFrame .zero init.listen (sampleFrame 2 100)).isSome := by decide
  obtain ⟨parsed, hParsed⟩ := Option.isSome_iff_exists.mp hSome
  have hInvokes : init.Invokes .zero (sampleFrame 2 100) parsed :=
    ⟨hParsed, .listen, .listen, rfl, by decide⟩
  obtain ⟨iphdr, hAt, _, hPlace, _⟩ := flags_reach_iff hInvokes
  have hHere : (ipReader (sampleFrame 2 100)).getRawBuffer =
      some (ipAt (.ofBytes (TcpFrame.segment 0x0A000001 7 8000 100 2))) := rfl
  obtain rfl : iphdr = ipAt (.ofBytes (TcpFrame.segment 0x0A000001 7 8000 100 2)) :=
    Option.some.inj (hAt.symm.trans hHere)
  have hClear : TcpFrame.flags (chainBytes (sampleFrame 2 100)) &&& 0xF0 = 0 := by decide
  exact ⟨parsed, hInvokes,
    (hPlace (flagsInPlace_complete (by decide) (by decide))).mpr hClear⟩

/-- The ACK of a handshake does not. -/
theorem ack_does_not_reach :
    ¬ ∀ (ctx : TcpImpl) (junk : RxJunk) (frame : List RteMbuf) (parsed : ParsedFrame),
      TcpFrame.WellFormed (chainBytes frame) → ctx.Invokes junk frame parsed →
      FlagsReach (chainBytes frame) parsed.header := by
  intro hAll
  have hSome : (parseFrame .zero init.listen (sampleFrame 16 100)).isSome := by decide
  obtain ⟨parsed, hParsed⟩ := Option.isSome_iff_exists.mp hSome
  have hInvokes : init.Invokes .zero (sampleFrame 16 100) parsed :=
    ⟨hParsed, .listen, .listen, rfl, by decide⟩
  have hReach := hAll init .zero (sampleFrame 16 100) parsed (by decide) hInvokes
  obtain ⟨iphdr, _, rfl⟩ := parseFrame_eq_some_iff.mp hParsed
  rw [flagsReach_iff, evtmask_parsedFrame, four_bits_eq_iff] at hReach
  exact absurd hReach.1 (by decide)

end TcpImpl
end Flags

end Nginz
