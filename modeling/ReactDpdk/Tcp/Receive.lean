import ReactDpdk.General.TcpFrame
import ReactDpdk.Core.MbufReader
import ReactDpdk.Tcp.StateMachine

/-! `tcp/tcp_rx.cc` and the timer entry of `tcp_control_block.cc`: from a frame
or a timer argument to the callback of a control block. What happens to the
packet buffer itself is in another module. -/
namespace Nginz

def etherHdrSize : UInt32 := 14

def tcpHeaderNumDefaultWord32 : UInt8 := 5

/-- What uninitialised memory holds during one call: the header before its
fields are set, and the locals of the typed reads. -/
structure RxJunk where
  header : TcpSegmentHeader
  locals : Indeterminate

/-- Two bytes in network order behind a pointer. -/
def BytePtr.be16 (self : BytePtr) (offset : Nat) : UInt16 :=
  ((self.add offset).read.toUInt16 <<< 8) ||| (self.add (offset + 1)).read.toUInt16

def BytePtr.be32 (self : BytePtr) (offset : Nat) : UInt32 :=
  ((self.be16 offset).toUInt32 <<< 16) ||| (self.be16 (offset + 2)).toUInt32

/-- The reader behind the Ethernet header. -/
def ipReader (frame : List RteMbuf) : RteMbufReader := (RteMbufReader.new frame).skip etherHdrSize

/-- `rte_ipv4_hdr_len`. -/
def ipHeaderLen (iphdr : BytePtr) : UInt8 := (iphdr.read &&& 0x0F) * 4

def ipNextProtoId (iphdr : BytePtr) : UInt8 := (iphdr.add 9).read

def readIpHeader (iphdr : BytePtr) : IpHeader :=
  { daddr4 := iphdr.be32 16, saddr4 := iphdr.be32 12, packetSize := iphdr.be16 2 }

/-- The bytes that are read through `iphdr`. -/
def ipHeaderReads (iphdr : BytePtr) : List BytePtr :=
  [0, 2, 3, 9, 12, 13, 14, 15, 16, 17, 18, 19].map iphdr.add

/-- The reader at the start of the TCP header. -/
def tcpReader (frame : List RteMbuf) (iphdr : BytePtr) : RteMbufReader :=
  ((ipReader frame).touch (ipHeaderReads iphdr)).skip (ipHeaderLen iphdr).toUInt32

/-- The reads up to the data offset, each a value with the reader behind it.
Only four bits become the event mask. -/
def readTcpFront (junk : Indeterminate) (header : TcpSegmentHeader) (reader : RteMbufReader) :
    RteMbufReader × TcpSegmentHeader :=
  let sport := reader.readU16 junk header.sport
  let dport := sport.1.readU16 junk header.dport
  let seqno := dport.1.readU32 junk header.seqno
  let ackno := seqno.1.readU32 junk header.ackno
  let left := ackno.1.readU16 junk 0
  (left.1, { header with sport := sport.2, dport := dport.2, seqno := seqno.2, ackno := ackno.2
                         evtmask := (left.2 &&& 0xF).toUInt8
                         dataOffset := ((0xF : UInt16) &&& (left.2 >>> 12)).toUInt8 })

/-- The reads behind the data offset, and the two lengths. -/
def readTcpBack (junk : Indeterminate) (headerLen : UInt8) (header : TcpSegmentHeader)
    (reader : RteMbufReader) : RteMbufReader × TcpSegmentHeader :=
  let numOptionBytes := 4 * (header.dataOffset.toUInt32 - tcpHeaderNumDefaultWord32.toUInt32)
  let suppWindowSize := reader.readU16 junk header.suppWindowSize
  let checksum := suppWindowSize.1.readU16 junk header.checksum
  let uptr := checksum.1.readU16 junk header.uptr
  (uptr.1.skip numOptionBytes,
    { header with numOptionBytes := numOptionBytes, suppWindowSize := suppWindowSize.2
                  checksum := checksum.2, uptr := uptr.2
                  totalHeaderBytes := etherHdrSize + headerLen.toUInt32 + numOptionBytes })

/-- The header of an accepted frame, with the reader where the payload starts. -/
structure ParsedFrame where
  header : TcpSegmentHeader
  reader : RteMbufReader

/-- The reader behind the data offset, and the header so far. -/
def tcpFront (junk : RxJunk) (frame : List RteMbuf) (iphdr : BytePtr) :
    RteMbufReader × TcpSegmentHeader :=
  readTcpFront junk.locals { junk.header with ipHeader := readIpHeader iphdr }
    (tcpReader frame iphdr)

/-- What the whole header is read into. -/
def parsedFrame (junk : RxJunk) (frame : List RteMbuf) (iphdr : BytePtr) : ParsedFrame :=
  let front := tcpFront junk frame iphdr
  let back := readTcpBack junk.locals (ipHeaderLen iphdr) front.2 front.1
  { header := back.2, reader := back.1 }

/-- `handleTcpRx` up to the check of the destination port, `none` where it
returns early. A null `iphdr` cannot occur: the size was just checked. -/
def parseFrame (junk : RxJunk) (listen : TcpControlBlock) (frame : List RteMbuf) :
    Option ParsedFrame :=
  if (RteMbufReader.new frame).size < etherHdrSize.toNat then none
  else if (ipReader frame).size < 20 then none
  else
    match (ipReader frame).getRawBuffer with
    | none => none
    | some iphdr =>
        if ipNextProtoId iphdr ≠ 6 then none
        else if (tcpFront junk frame iphdr).2.dataOffset < tcpHeaderNumDefaultWord32 then none
        else if (parsedFrame junk frame iphdr).header.dport.toUInt64 ≠
            listen.clientId &&& 0xFFFF then none
        else some (parsedFrame junk frame iphdr)

def TcpSegmentHeader.clientId (self : TcpSegmentHeader) : UInt64 :=
  makeClientId self.ipHeader.saddr4 self.sport

theorem makeClientId_header (header : TcpSegmentHeader) :
    makeClientId header.ipHeader.saddr4 header.sport = header.clientId := rfl

namespace TcpImpl

/-- The block and the index in `gl_tcpFsm` for a client: the listen block under
LISTEN for an unknown client, else its block under its state. -/
def dispatch (self : TcpImpl) (clientId : UInt64) : Option (TcbRef × TcpState) :=
  match self.tcbTable.find clientId with
  | none => some (.listen, .listen)
  | some p => (self.block (.slot p)).map fun tgt => (.slot p, tgt.state)

/-- `handleTcpRx` once the header is read. -/
def segment (self : TcpImpl) (env : TcpTimerEnv) (header : TcpSegmentHeader) : Option TcpImpl := do
  let (tcb, index) ← self.dispatch header.clientId
  if index = .max then
    let tgt ← self.block tcb
    some (self.setBlock tcb (tgt.changeState env .exceptionHang))
  else
    let callback ← tcpFsm index
    callback.body env self tcb header

/-- The effect of `handleTcpRx` on the context. -/
def handleTcpRx (self : TcpImpl) (env : TcpTimerEnv) (junk : RxJunk) (frame : List RteMbuf) :
    Option TcpImpl :=
  match parseFrame junk self.listen frame with
  | none => some self
  | some parsed => self.segment env parsed.header

/-- A state of `TCP_STATE_MAX` would index past `gl_tcpFsmTmr`. -/
def processTimer (self : TcpImpl) (env : TcpTimerEnv) (tcb : TcbRef) (evtId : UInt8) :
    Option TcpImpl := do
  let block ← self.block tcb
  let callback ← tcpFsmTmr block.state
  callback.body env self tcb evtId

/-- The client id in the argument of a timer callback. -/
def timerClient (cbPtr : UInt64) : UInt64 := ~~~((0xFF : UInt64) <<< 56) &&& cbPtr

/-- The timer id in the argument of a timer callback. -/
def timerEvent (cbPtr : UInt64) : UInt8 := ((cbPtr >>> 56) &&& 0xFF).toUInt8

def onTcpCbTimerExpire (self : TcpImpl) (env : TcpTimerEnv) (cbPtr : UInt64) : Option TcpImpl :=
  match self.tcbTable.find (timerClient cbPtr) with
  | none => some self
  | some p => self.processTimer env (.slot p) (timerEvent cbPtr)

/-- The block and the index in `gl_tcpFsmTmr` for the argument of a timer. -/
def timerDispatch (self : TcpImpl) (cbPtr : UInt64) : Option (TcbRef × TcpState) := do
  let p ← self.tcbTable.find (timerClient cbPtr)
  let tcb ← self.block (.slot p)
  some (.slot p, tcb.state)

/-- The argument of a pending timer of the block stored under a key. -/
def pendingTimer (self : TcpImpl) (key : UInt64) (tmrId : Fin tcpMaxTmr) : Option UInt64 := do
  let tcb ← self.tcbTable.lookup key
  tcb.tmr.pending tmrId

/-- The timer stops being pending because it fires. -/
def clearTimer (self : TcpImpl) (key : UInt64) (tmrId : Fin tcpMaxTmr) : TcpImpl :=
  match self.tcbTable.find key with
  | none => self
  | some p =>
      match self.block (.slot p) with
      | none => self
      | some tcb => self.setBlock (.slot p) { tcb with tmr := tcb.tmr.clear tmrId }

/-- A timer fires; not defined unless it is pending. -/
def expire (self : TcpImpl) (env : TcpTimerEnv) (key : UInt64) (tmrId : Fin tcpMaxTmr) :
    Option TcpImpl := do
  let cbPtr ← self.pendingTimer key tmrId
  (self.clearTimer key tmrId).onTcpCbTimerExpire env cbPtr

end TcpImpl

/-- What drives a context: a segment with any header, or the expiry of a timer
of the block stored under a key. Each brings the outcomes of timer starts. -/
inductive TcpEvent where
  | segment (env : TcpTimerEnv) (header : TcpSegmentHeader)
  | expire (env : TcpTimerEnv) (key : UInt64) (tmrId : Fin tcpMaxTmr)

/-- The same with whole frames in the place of headers. -/
inductive RxEvent where
  | frame (env : TcpTimerEnv) (junk : RxJunk) (frame : List RteMbuf)
  | expire (env : TcpTimerEnv) (key : UInt64) (tmrId : Fin tcpMaxTmr)

namespace TcpImpl

def step (self : TcpImpl) : TcpEvent → Option TcpImpl
  | .segment env header => self.segment env header
  | .expire env key tmrId => self.expire env key tmrId

def rxStep (self : TcpImpl) : RxEvent → Option TcpImpl
  | .frame env junk frame => self.handleTcpRx env junk frame
  | .expire env key tmrId => self.expire env key tmrId

end TcpImpl
/-- A segment of client `10.0.0.1:7` with the given flags and number. -/
def sampleSegment (evtmask : UInt8) (seqno : UInt32) : TcpSegmentHeader :=
  { ipHeader := { daddr4 := 0x0A000002, saddr4 := 0x0A000001, packetSize := 40 }
    sport := 7, dport := 8000, seqno := seqno, ackno := 0, dataOffset := 5, evtmask := evtmask
    suppWindowSize := 0, checksum := 0, uptr := 0 }

/-- The same as a frame of one segment. -/
def sampleFrame (flags : UInt8) (seqno : UInt32) : List RteMbuf :=
  [.ofBytes (TcpFrame.segment 0x0A000001 7 8000 seqno flags)]

/-- Uninitialised memory that happens to be zero. -/
def RxJunk.zero : RxJunk :=
  { header := { sampleSegment 0 0 with sport := 0, dport := 0 }
    locals := { byteHi := 0, byteLo := 0, halfHi := 0, halfLo := 0 } }

end Nginz
