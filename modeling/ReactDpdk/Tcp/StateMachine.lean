import ReactDpdk.Tcp.ControlBlock

/-! The callbacks under `tcp/fsm/`, one for segments and one for timers in each
state, and the two tables that are indexed by the state. `none` as a result is
undefined behaviour. Log lines are left out. -/
namespace Nginz

/-- A callback for segments, with the state that its first assertion demands. -/
structure TcpFsmCallback where
  asserted : Option TcpState
  body : TcpTimerEnv → TcpImpl → TcbRef → TcpSegmentHeader → Option TcpImpl

/-- A callback for timers, with the state that its first assertion demands. -/
structure TcpFsmTmr where
  asserted : Option TcpState
  body : TcpTimerEnv → TcpImpl → TcbRef → UInt8 → Option TcpImpl

/-- A callback that asserts its state and does nothing else. -/
def assertOnlyCallback (asserted : Option TcpState) : TcpFsmCallback :=
  { asserted := asserted, body := fun _ ctx _ _ => some ctx }

/-- A timer callback that asserts its state and at most writes a log line. -/
def assertOnlyTmr (asserted : Option TcpState) : TcpFsmTmr :=
  { asserted := asserted, body := fun _ ctx _ _ => some ctx }

/-- The condition on an acknowledgement that four states share. -/
def acknowledges (header : TcpSegmentHeader) (tcb : TcpControlBlock) : Bool :=
  header.has TcpMask.ack && header.seqno == tcb.expseq

def makeTcpFsmCallbackClosed : TcpFsmCallback := assertOnlyCallback none

/-- The part of the LISTEN callback after a successful insertion at `q`. -/
def acceptConnection (env : TcpTimerEnv) (ctx : TcpImpl) (q : Fin maxTcpClient)
    (clientId : UInt64) (header : TcpSegmentHeader) : Option TcpImpl := do
  let connCb ← ctx.block (.slot q)
  let connCb := { connCb with expseq := header.seqno + 1 }
  let ctx := ctx.sendSynAck connCb header
  match connCb.startTmr env tcpConnectionTmr tcpControlBlockDefaultMs with
  | (connCb, true) => some (ctx.setBlock (.slot q) (connCb.changeState env .synSent))
  | (connCb, false) => some ((ctx.setBlock (.slot q) connCb).eraseClient clientId)

/-- The listen block it is handed is not used. `ret->second` is undefined when
the pointer that `emplace` returned lies past the table. -/
def makeTcpFsmCallbackListen : TcpFsmCallback where
  asserted := some .listen
  body env ctx _ header :=
    if header.has TcpMask.syn then
      let clientId := makeClientId header.ipHeader.saddr4 header.sport
      match ctx.tcbTable.emplace clientId (.new clientId) with
      | none => none
      | some ret =>
          let ctx := { ctx with tcbTable := ret.table }
          match ret.position with
          | none => some ctx
          | some q =>
              if h : q < maxTcpClient then acceptConnection env ctx ⟨q, h⟩ clientId header
              else none
    else some ctx

def makeTcpFsmCallbackSynSent : TcpFsmCallback where
  asserted := some .synSent
  body env ctx ref header := do
    let tcb ← ctx.block ref
    if acknowledges header tcb then
      some ((ctx.sendSynAck tcb header).setBlock ref (tcb.changeState env .established))
    else some ctx

def makeTcpFsmCallbackSynRcvd : TcpFsmCallback where
  asserted := some .synRcvd
  body env ctx ref header := do
    let tcb ← ctx.block ref
    if acknowledges header tcb then
      let ctx := ctx.sendSynAck tcb header
      match tcb.startTmr env tcpInactivityTmr (tcpControlBlockDefaultMs * 100) with
      | (tcb, true) =>
          let tcb := { tcb with expseq := header.seqno }
          some (ctx.setBlock ref (tcb.changeState env .established))
      | (tcb, false) => some (ctx.setBlock ref tcb)
    else some ctx

def makeTcpFsmCallbackEstablished : TcpFsmCallback where
  asserted := some .established
  body env ctx ref header := do
    let tcb ← ctx.block ref
    if header.has TcpMask.fin then
      let ctx := ctx.sendFinAck tcb header
      match tcb.startTmr env tcpFinalTmr1 tcpControlBlockDefaultMs with
      | (tcb, true) =>
          let tcb := { tcb with expseq := header.seqno }
          some (ctx.setBlock ref (tcb.changeState env .closeWait))
      | (tcb, false) => some (ctx.setBlock ref tcb)
    else some ctx

/-- `sendFin` takes the sequence number as a `uint16_t`. -/
def makeTcpFsmCallbackCloseWait : TcpFsmCallback where
  asserted := some .closeWait
  body env ctx ref header := do
    let tcb ← ctx.block ref
    if acknowledges header tcb then
      let tcb := { tcb with expseq := tcb.expseq + 1 }
      let ctx := ctx.sendFin tcb tcb.expseq.toUInt16
      match tcb.startTmr env tcpFinalTmr2 tcpControlBlockDefaultMs with
      | (tcb, true) => some (ctx.setBlock ref (tcb.changeState env .lastAck))
      | (tcb, false) => some ((ctx.setBlock ref tcb).eraseClient tcb.clientId)
    else some ctx

def makeTcpFsmCallbackFinWait1 : TcpFsmCallback := assertOnlyCallback (some .finWait1)

def makeTcpFsmCallbackClosing : TcpFsmCallback := assertOnlyCallback (some .closing)

def makeTcpFsmCallbackLastAck : TcpFsmCallback where
  asserted := some .lastAck
  body _ ctx ref header := do
    let tcb ← ctx.block ref
    if acknowledges header tcb then some (ctx.eraseClient tcb.clientId) else some ctx

def makeTcpFsmCallbackFinWait2 : TcpFsmCallback := assertOnlyCallback (some .finWait2)

def makeTcpFsmCallbackTimeWait : TcpFsmCallback := assertOnlyCallback (some .timeWait)

/-- This state has no specialisation: the template's own empty body. -/
def makeTcpFsmCallbackExceptionHang : TcpFsmCallback := assertOnlyCallback none

/-- `gl_tcpFsm`, indexed by the state. -/
def tcpFsm : TcpState → Option TcpFsmCallback
  | .closed => some makeTcpFsmCallbackClosed
  | .listen => some makeTcpFsmCallbackListen
  | .synSent => some makeTcpFsmCallbackSynSent
  | .synRcvd => some makeTcpFsmCallbackSynRcvd
  | .established => some makeTcpFsmCallbackEstablished
  | .closeWait => some makeTcpFsmCallbackCloseWait
  | .finWait1 => some makeTcpFsmCallbackFinWait1
  | .closing => some makeTcpFsmCallbackClosing
  | .lastAck => some makeTcpFsmCallbackLastAck
  | .finWait2 => some makeTcpFsmCallbackFinWait2
  | .timeWait => some makeTcpFsmCallbackTimeWait
  | .exceptionHang => some makeTcpFsmCallbackExceptionHang
  | .max => none

/-- The value of a timer index in a `switch` over `uint8_t`. -/
def tmrCase (tmrId : Fin tcpMaxTmr) : UInt8 := UInt8.ofNat tmrId

def makeTcpFsmTmrClosed : TcpFsmTmr := assertOnlyTmr (some .closed)

def makeTcpFsmTmrListen : TcpFsmTmr := assertOnlyTmr (some .listen)

/-- `TCP_CONNECTION_TMR` is only logged. -/
def makeTcpFsmTmrSynSent : TcpFsmTmr := assertOnlyTmr (some .synSent)

/-- `TCP_CONNECTION_TMR` is only logged. -/
def makeTcpFsmTmrSynRcvd : TcpFsmTmr := assertOnlyTmr (some .synRcvd)

/-- `TCP_INACTIVITY_TMR` is only logged. -/
def makeTcpFsmTmrEstablished : TcpFsmTmr := assertOnlyTmr (some .established)

/-- Unlike the callback for segments, this one starts no further timer. -/
def makeTcpFsmTmrCloseWait : TcpFsmTmr where
  asserted := some .closeWait
  body env ctx ref tmrId := do
    let tcb ← ctx.block ref
    if tmrId = tmrCase tcpFinalTmr1 then
      let ctx := ctx.sendFin tcb (tcb.expseq + 1).toUInt16
      let tcb := { tcb with expseq := tcb.expseq + 1 }
      some (ctx.setBlock ref (tcb.changeState env .lastAck))
    else some ctx

def makeTcpFsmTmrFinWait1 : TcpFsmTmr := assertOnlyTmr (some .finWait1)

def makeTcpFsmTmrClosing : TcpFsmTmr := assertOnlyTmr (some .closing)

def makeTcpFsmTmrLastAck : TcpFsmTmr where
  asserted := some .lastAck
  body _ ctx ref tmrId := do
    let tcb ← ctx.block ref
    if tmrId = tmrCase tcpFinalTmr2 then some (ctx.eraseClient tcb.clientId) else some ctx

def makeTcpFsmTmrFinWait2 : TcpFsmTmr := assertOnlyTmr (some .finWait2)

def makeTcpFsmTmrTimeWait : TcpFsmTmr := assertOnlyTmr (some .timeWait)

/-- This state has no specialisation: the template's own empty body. -/
def makeTcpFsmTmrExceptionHang : TcpFsmTmr := assertOnlyTmr none

/-- `gl_tcpFsmTmr`, indexed by the state. -/
def tcpFsmTmr : TcpState → Option TcpFsmTmr
  | .closed => some makeTcpFsmTmrClosed
  | .listen => some makeTcpFsmTmrListen
  | .synSent => some makeTcpFsmTmrSynSent
  | .synRcvd => some makeTcpFsmTmrSynRcvd
  | .established => some makeTcpFsmTmrEstablished
  | .closeWait => some makeTcpFsmTmrCloseWait
  | .finWait1 => some makeTcpFsmTmrFinWait1
  | .closing => some makeTcpFsmTmrClosing
  | .lastAck => some makeTcpFsmTmrLastAck
  | .finWait2 => some makeTcpFsmTmrFinWait2
  | .timeWait => some makeTcpFsmTmrTimeWait
  | .exceptionHang => some makeTcpFsmTmrExceptionHang
  | .max => none

end Nginz
