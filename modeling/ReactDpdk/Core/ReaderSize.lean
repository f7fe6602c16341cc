import ReactDpdk.Core.TypedReads

/-! What `size` and `eof` of a reader say after a series of skips and reads. The
field that should count the bytes behind the position is never written, so they
say what the current segment claims. -/
namespace Nginz

namespace ReaderOp
open RteMbuf

/-- The bytes that a series of operations from the start of a chain consumed. -/
def consumed (chain : List RteMbuf) (ops : List ReaderOp) : Nat :=
  (ops.map skipped).sum + (execAll ops (.new chain)).reads.length

variable {reader : RteMbufReader}

/-- Whoever consumed nothing is where he was. -/
theorem exec_idle (h : reader.itr.Valid) {op : ReaderOp} (hSkipped : op.skipped = 0)
    (hReads : (exec reader op).reads.length ≤ reader.reads.length) :
    (exec reader op).itr = reader.itr := by
  cases op with
  | skip numBytes =>
      obtain rfl : numBytes = 0 := UInt32.toNat_inj.mp hSkipped
      obtain ⟨⟨m, offset, pktOffset⟩, reads⟩ := reader
      cases m <;> rfl
  | read kind locals outv =>
      have hRead := kind.isTypedRead locals
      by_cases hSize : reader.size < kind.bytes
      · rw [exec, hRead.short reader outv hSize]
      · have hMore := hRead.reads reader outv h (Nat.le_of_not_lt hSize)
        exact absurd hMore (Nat.not_lt.mpr hReads)

theorem execAll_idle (h : reader.itr.Valid) {ops : List ReaderOp}
    (hSkipped : (ops.map skipped).sum = 0)
    (hReads : (execAll ops reader).reads.length ≤ reader.reads.length) :
    (execAll ops reader).itr = reader.itr := by
  induction ops generalizing reader with
  | nil => rfl
  | cons op ops ih =>
      rw [List.map_cons, List.sum_cons] at hSkipped
      have hStep := exec_later h op
      have hRest := (execAll_later hStep.valid ops).reads_le
      have hSame := exec_idle h (by omega) (Nat.le_trans hRest hReads)
      have hRun := ih hStep.valid (by omega) (Nat.le_trans hReads hStep.reads_le)
      exact hRun.trans hSame

end ReaderOp

namespace RteMbufReader
open RteMbuf ReaderOp

/-- `size` is what is left of the packet, and `eof` says that nothing is. -/
def SizeIsLeft (self : RteMbufReader) (pktLen consumed : Nat) : Prop :=
  self.size = pktLen - consumed ∧ (self.itr.eof = true ↔ consumed = pktLen)

variable {self : RteMbufReader} {pktLen : Nat}

theorem sizeIsLeft_iff {consumed : Nat} (h : consumed ≤ pktLen) :
    self.SizeIsLeft pktLen consumed ↔ self.size = pktLen - consumed := by
  have hEof : self.itr.eof = true ↔ self.size = 0 := beq_iff_eq
  rw [SizeIsLeft, hEof]
  omega

/-- At the end of the chain, the whole packet was consumed. -/
theorem consumed_of_end {chain : List RteMbuf} {ops : List ReaderOp}
    (h : (execAll ops (new chain)).itr.m = []) : chainLength chain ≤ consumed chain ops := by
  have hRun := (execAll_later (new_valid chain) ops).rest_le
  have hStart : (new chain).itr.rest.length = chainLength chain := length_chainBytes chain
  rw [RteMbufIterator.rest_of_end h, hStart, List.length_nil] at hRun
  rw [consumed]
  omega

/-- For every chain whose first segment claims the length of the packet, and all
skips and reads: `size` is what is left exactly when nothing was consumed, or all
segments are behind, or the later segment that the reader is in happens to claim
what is left. -/
theorem size_is_left_iff (a : RteMbuf) (tail : List RteMbuf) (ops : List ReaderOp)
    (hLen : a.pktLen.toNat = chainLength (a :: tail))
    (hConsumed : consumed (a :: tail) ops ≤ a.pktLen.toNat) :
    (execAll ops (new (a :: tail))).SizeIsLeft a.pktLen.toNat (consumed (a :: tail) ops) ↔
      consumed (a :: tail) ops = 0 ∨ (execAll ops (new (a :: tail))).itr.m = [] ∨
      ∃ b rest, (execAll ops (new (a :: tail))).itr.m = b :: rest ∧ rest.length < tail.length ∧
        b.pktLen.toNat = a.pktLen.toNat - consumed (a :: tail) ops := by
  have hValid := new_valid (a :: tail)
  rw [sizeIsLeft_iff hConsumed]
  have hLater := execAll_later hValid ops
  rcases hLater.valid.cases with hEnd | ⟨b, rest, offset, hAt, _⟩
  · have hAll := consumed_of_end hEnd
    have hSize : (execAll ops (new (a :: tail))).size = 0 := by
      rw [size, RteMbufIterator.size, hEnd]
    rw [hSize]
    constructor
    · intro _
      exact Or.inr (Or.inl hEnd)
    · intro _
      omega
  · have hSuffix := hLater.suffix
    rw [size_at hAt]
    rw [hAt] at hSuffix ⊢
    constructor
    · intro hSize
      rcases Nat.lt_or_ge rest.length tail.length with hLater | hFirst
      · exact Or.inr (Or.inr ⟨b, rest, rfl, hLater, hSize⟩)
      · have hSame : b :: rest = a :: tail :=
          hSuffix.eq_of_length_le (Nat.succ_le_succ hFirst)
        obtain ⟨rfl, _⟩ := List.cons.inj hSame
        exact Or.inl (by omega)
    · rintro (hNone | hEnd | ⟨c, later, hHere, _, hClaims⟩)
      · have hIdle : (execAll ops (new (a :: tail))).itr = (new (a :: tail)).itr := by
          rw [consumed] at hNone
          exact execAll_idle hValid (by omega) (by omega)
        obtain ⟨rfl, _⟩ : b = a ∧ rest = tail :=
          List.cons.inj (congrArg RteMbufIterator.m (hAt.symm.trans hIdle))
        omega
      · cases hEnd
      · obtain ⟨rfl, _⟩ := List.cons.inj hHere
        exact hClaims

/-- A packet of four bytes, and the read of its first. -/
def fourBytes : RteMbuf := .ofBytes [1, 2, 3, 4]

def readFirst : List ReaderOp := [.read .u8 .zero (0 : UInt8)]

theorem size_is_left_iff_first_byte :
    ¬ (execAll readFirst (new [fourBytes])).SizeIsLeft 4 1 := by
  have hIff := size_is_left_iff fourBytes [] readFirst (by decide) (by decide)
  have hConsumed : consumed [fourBytes] readFirst = 1 := by decide
  have hChain : (execAll readFirst (new [fourBytes])).itr.m = [fourBytes] := rfl
  rw [hConsumed, hChain] at hIff
  intro hLeft
  rcases hIff.mp hLeft with hNone | hEnd | ⟨_, _, _, hLater, _⟩
  · cases hNone
  · cases hEnd
  · cases hLater

/-- After one byte of four, `size` is still four. -/
theorem size_counts_read_bytes :
    ¬ ∀ (a : RteMbuf) (tail : List RteMbuf) (ops : List ReaderOp),
      a.pktLen.toNat = chainLength (a :: tail) →
      consumed (a :: tail) ops ≤ a.pktLen.toNat →
      (execAll ops (new (a :: tail))).SizeIsLeft a.pktLen.toNat (consumed (a :: tail) ops) := by
  intro hAll
  have hLeft := hAll fourBytes [] readFirst (by decide) (by decide)
  have hSize : (execAll readFirst (new [fourBytes])).size = 4 := by decide
  have hConsumed : consumed [fourBytes] readFirst = 1 := by decide
  rw [SizeIsLeft, hSize, hConsumed] at hLeft
  exact absurd hLeft.1 (by decide)

end RteMbufReader

end Nginz
