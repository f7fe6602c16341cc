import ReactDpdk.Core.FixedTable
import ReactDpdk.Core.MultiTimer

/-! The data of the TCP service: `tcp_header.hxx`, `tcp_control_block.hxx`,
`tcp_control_block.cc` and `tcp_common.hxx`. Addresses of a block and its
segment queues are left out: nothing reads or writes them. -/
namespace Nginz

namespace TcpMask

def fin : UInt16 := 1
def syn : UInt16 := (1 : UInt16) <<< 1
def rst : UInt16 := (1 : UInt16) <<< 2
def psh : UInt16 := (1 : UInt16) <<< 3
def ack : UInt16 := (1 : UInt16) <<< 4
def urg : UInt16 := (1 : UInt16) <<< 5
def ece : UInt16 := (1 : UInt16) <<< 6
def cwr : UInt16 := (1 : UInt16) <<< 7

end TcpMask

structure IpHeader where
  daddr4 : UInt32
  saddr4 : UInt32
  packetSize : UInt16
deriving DecidableEq

structure TcpSegmentHeader where
  ipHeader : IpHeader
  sport : UInt16
  dport : UInt16
  seqno : UInt32
  ackno : UInt32
  dataOffset : UInt8
  evtmask : UInt8
  suppWindowSize : UInt16
  checksum : UInt16
  uptr : UInt16
  numOptionBytes : UInt32 := 0
  totalHeaderBytes : UInt32 := 0
deriving DecidableEq

/-- `header.evtmask & flag`, as a condition. -/
def TcpSegmentHeader.has (self : TcpSegmentHeader) (flag : UInt16) : Bool :=
  self.evtmask.toUInt16 &&& flag != 0

/-- `max` stands for every value from `TCP_STATE_MAX` on, and is no state. -/
inductive TcpState where
  | closed | listen | synSent | synRcvd | established | closeWait | finWait1 | closing | lastAck
  | finWait2 | timeWait | exceptionHang | max
deriving DecidableEq, Repr

def tcpControlBlockDefaultMs : UInt32 := 100

abbrev tcpMaxTmr : Nat := 5
def tcpConnectionTmr : Fin tcpMaxTmr := 1
def tcpInactivityTmr : Fin tcpMaxTmr := 2
def tcpFinalTmr1 : Fin tcpMaxTmr := 3
def tcpFinalTmr2 : Fin tcpMaxTmr := 4

abbrev TcpTimerEnv := TimerEnv tcpMaxTmr

structure TcpControlBlock where
  state : TcpState := .closed
  clientId : UInt64
  expseq : UInt32 := 0
  tmr : MultiTimer tcpMaxTmr

namespace TcpControlBlock

/-- The constructor from a client id. It leaves `expseq` unset; every reader
comes after a store to it. -/
def new (givenClientId : UInt64) : TcpControlBlock :=
  { clientId := givenClientId, tmr := ({} : MultiTimer tcpMaxTmr).setSrcAddr givenClientId }

/-- `tmr.start<TMR_ID>(givenMs)`. -/
def startTmr (self : TcpControlBlock) (env : TcpTimerEnv) (tmrId : Fin tcpMaxTmr)
    (givenMs : UInt32) : TcpControlBlock × Bool :=
  let (tmr, started) := self.tmr.start env tmrId givenMs
  ({ self with tmr := tmr }, started)

def changeState (self : TcpControlBlock) (env : TcpTimerEnv) (newState : TcpState) :
    TcpControlBlock :=
  if self.state = newState then self
  else
    let changed := { self with state := newState }
    if newState = .exceptionHang then
      (changed.startTmr env tcpFinalTmr2 tcpControlBlockDefaultMs).1
    else changed

end TcpControlBlock

/-- A client by its address and port. -/
def makeClientId (ipv4Addr : UInt32) (port : UInt16) : UInt64 :=
  (ipv4Addr.toUInt64 <<< 16) ||| port.toUInt64

abbrev maxTcpClient : Nat := 64

instance (priority := high) : NeZero maxTcpClient := ⟨by decide⟩

abbrev TcpTable := FixedDict TcpControlBlock maxTcpClient 39

/-- The calls of the transmit side. Their bodies are empty in the source. -/
inductive TcpSend where
  | synAck (clientId : UInt64) (header : TcpSegmentHeader)
  | finAck (clientId : UInt64) (header : TcpSegmentHeader)
  | fin (clientId : UInt64) (seqno : UInt16)
deriving DecidableEq

/-- The context of one thread. The last field only records the calls of
`sendSynAck`, `sendFinAck` and `sendFin`. -/
structure TcpImpl where
  tcbTable : TcpTable
  listen : TcpControlBlock
  sent : List TcpSend

/-- What a `TcpControlBlock&` refers to: the listen block or a slot. -/
inductive TcbRef where
  | listen
  | slot (p : Fin maxTcpClient)
deriving DecidableEq

namespace TcpImpl

/-- `gl_tcpCtxt[t]` before any packet. -/
def init : TcpImpl := { tcbTable := .empty, listen := .new 8000, sent := [] }

/-- The block behind a reference, `none` for a slot that holds no block. -/
def block (self : TcpImpl) : TcbRef → Option TcpControlBlock
  | .listen => some self.listen
  | .slot p => (self.tcbTable.cells p).map Prod.snd

/-- Store through a reference; the key of a slot stays. -/
def setBlock (self : TcpImpl) (tcb : TcbRef) (block : TcpControlBlock) : TcpImpl :=
  match tcb with
  | .listen => { self with listen := block }
  | .slot p => { self with tcbTable := self.tcbTable.write p
                            ((self.tcbTable.cells p).map fun entry => (entry.1, block)) }

def eraseClient (self : TcpImpl) (clientId : UInt64) : TcpImpl :=
  { self with tcbTable := (self.tcbTable.erase clientId).1 }

def send (self : TcpImpl) (call : TcpSend) : TcpImpl := { self with sent := self.sent ++ [call] }

def sendSynAck (self : TcpImpl) (tcb : TcpControlBlock) (header : TcpSegmentHeader) : TcpImpl :=
  self.send (.synAck tcb.clientId header)

def sendFinAck (self : TcpImpl) (tcb : TcpControlBlock) (header : TcpSegmentHeader) : TcpImpl :=
  self.send (.finAck tcb.clientId header)

def sendFin (self : TcpImpl) (tcb : TcpControlBlock) (seqno : UInt16) : TcpImpl :=
  self.send (.fin tcb.clientId seqno)

@[simp]
theorem sent_setBlock (ctx : TcpImpl) (ref : TcbRef) (block : TcpControlBlock) :
    (ctx.setBlock ref block).sent = ctx.sent := by
  cases ref <;> rfl

end TcpImpl
end Nginz
