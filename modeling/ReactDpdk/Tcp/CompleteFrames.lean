import ReactDpdk.Tcp.ContextEdits
import ReactDpdk.Tcp.HeaderFlags

/-! Runs of complete frames. The header of a complete frame depends on its bytes
alone, so what uninitialised memory holds has no part in the run. -/
namespace Nginz
open Transition

/-- A packet of one segment that claims the bytes it has, a complete TCP frame. -/
structure CompleteFrame (a : RteMbuf) : Prop where
  len : a.pktLen.toNat = a.dataLen.toNat
  complete : TcpFrame.Complete a.bytes
  isTcp : TcpFrame.protocol a.bytes = 6

variable {a : RteMbuf} {junk : RxJunk} {listen : TcpControlBlock}

theorem CompleteFrame.header_eq (h : CompleteFrame a) (junk : RxJunk) :
    (parsedFrame junk [a] (ipAt a)).header = frameHeader a.bytes :=
  header_complete h.len h.complete junk

/-- A complete frame is accepted by its destination port alone. -/
theorem CompleteFrame.parseFrame_header (h : CompleteFrame a) (junk : RxJunk)
    (listen : TcpControlBlock) :
    (parseFrame junk listen [a]).map ParsedFrame.header =
      if (TcpFrame.dport a.bytes).toUInt64 = listen.clientId &&& 0xFFFF then
        some (frameHeader a.bytes)
      else none := by
  have hDport : (frameHeader a.bytes).dport = TcpFrame.dport a.bytes := rfl
  rw [parseFrame_complete h.len h.complete h.isTcp, h.header_eq, hDport]
  split
  · rw [Option.map_some, h.header_eq]
  · rfl

/-- The frames of the event are complete. -/
def RxEvent.Complete : RxEvent → Prop
  | .frame _ _ segments => ∃ a, segments = [a] ∧ CompleteFrame a
  | .expire _ _ _ => True

/-- What an event with a complete frame comes to: a segment for the listening port,
or nothing. -/
def RxEvent.decode (listen : TcpControlBlock) : RxEvent → Option TcpEvent
  | .frame env _ segments =>
      if (TcpFrame.dport (RteMbuf.chainBytes segments)).toUInt64 = listen.clientId &&& 0xFFFF then
        some (.segment env (frameHeader (RteMbuf.chainBytes segments)))
      else none
  | .expire env key tmrId => some (.expire env key tmrId)

namespace TcpImpl
variable {ctx : TcpImpl}

theorem rxStep_complete {event : RxEvent} (h : event.Complete) :
    ctx.rxStep event = (event.decode ctx.listen).elim (some ctx) ctx.step := by
  cases event with
  | expire env key tmrId => rfl
  | frame env junk frame =>
      obtain ⟨a, rfl, hComplete⟩ := h
      have hBytes : RteMbuf.chainBytes [a] = a.bytes := by simp
      have hParse := hComplete.parseFrame_header junk ctx.listen
      rw [rxStep, handleTcpRx, RxEvent.decode, hBytes]
      split at hParse
      · rename_i hPort
        obtain ⟨parsed, hParsed, hHeader⟩ := Option.map_eq_some_iff.mp hParse
        rw [hParsed, if_pos hPort, Option.elim_some, ← hHeader]
        rfl
      · rename_i hPort
        rw [Option.map_eq_none_iff.mp hParse, if_neg hPort, Option.elim_none]

/-- For every context and every run of complete frames and timers: the run is that of
the segments for the listening port, defined or not. So neither the other frames nor
uninitialised memory have a part in it. -/
theorem complete_frames_run (ctx : TcpImpl) {events : List RxEvent}
    (hComplete : ∀ event ∈ events, event.Complete) :
    run rxStep ctx events = run step ctx (events.filterMap (RxEvent.decode ctx.listen)) := by
  refine run_eq_filterMap (RxEvent.decode ctx.listen) (fun other => other.listen = ctx.listen)
    ?_ ?_ rfl hComplete
  · intro s event t hListen hStep
    obtain ⟨_, hEdits⟩ := edits_rxStep hStep
    rw [hEdits.listen_eq, hListen]
  · intro s event hListen hEvent
    rw [rxStep_complete hEvent, hListen]

theorem complete_frames_run_sample :
    run rxStep init [.frame (fun _ _ => true) .zero [.ofBytes samplePacket.encode]] =
      run step init [.segment (fun _ _ => true) (frameHeader samplePacket.encode)] := by
  have hBytes : (RteMbuf.ofBytes samplePacket.encode).bytes = samplePacket.encode :=
    RteMbuf.bytes_ofBytes (by decide)
  have hComplete : CompleteFrame (.ofBytes samplePacket.encode) :=
    ⟨by decide, by decide, by decide⟩
  have hDecode : RxEvent.decode init.listen (.frame (fun _ _ => true) .zero
      [.ofBytes samplePacket.encode]) =
        some (.segment (fun _ _ => true) (frameHeader samplePacket.encode)) := by
    have hPort : (TcpFrame.dport samplePacket.encode).toUInt64 =
        init.listen.clientId &&& 0xFFFF := by
      decide
    simp only [RxEvent.decode, RteMbuf.chainBytes_cons, RteMbuf.chainBytes_nil, List.append_nil,
      hBytes, if_pos hPort]
  rw [complete_frames_run init (by simpa [RxEvent.Complete] using hComplete),
    List.filterMap_cons_some hDecode, List.filterMap_nil]

end TcpImpl
end Nginz
