import ReactDpdk.General.Segments
import ReactDpdk.Core.MbufReaderBounds

/-! Positions in a chain of packet segments: where `skip` of an iterator lands,
and what a traversal with `operator++` visits. -/
namespace Nginz
open Segments

namespace RteMbuf

/-- `rte_pktmbuf_data_len`. -/
abbrev dataLength (self : RteMbuf) : Nat := self.dataLen.toNat

/-- The number of data bytes of a chain. -/
def chainLength (chain : List RteMbuf) : Nat := total dataLength chain

theorem chainLength_cons (a : RteMbuf) (rest : List RteMbuf) :
    chainLength (a :: rest) = a.dataLen.toNat + chainLength rest := total_cons ..

end RteMbuf

structure RteMbufStream where
  m : List RteMbuf

def RteMbufStream.begin (self : RteMbufStream) : RteMbufIterator := { m := self.m }

namespace RteMbufIterator
open RteMbuf

section Skip

/-- The iterator stands on byte `p` of the chain: in the segment that contains
it, at an offset below its length. Past the last byte it stands at the end. -/
def StandsOn (self : RteMbufIterator) (chain : List RteMbuf) (p : Nat) : Prop :=
  if p < chainLength chain then
    ∃ before a rest, chain = before ++ a :: rest ∧ self.m = a :: rest ∧
      self.offset < a.dataLen.toNat ∧ chainLength before + self.offset = p
  else self.m = []

/-- No subtraction in the loop of `skip` goes below zero: neither the rest of
the segment, nor what is left to skip behind it. -/
def NoUnderflow : List RteMbuf → Nat → UInt32 → Prop
  | [], _, _ => True
  | a :: rest, offset, inc =>
      if inc = 0 ∨ offset + inc.toNat < a.dataLen.toNat then True
      else offset ≤ a.dataLen.toNat ∧ a.dataLen.toNat - offset ≤ inc.toNat ∧
        NoUnderflow rest 0 (inc - UInt32.ofNat (sizeSub a.dataLen.toNat offset))

/-- What is left to skip behind a segment. -/
theorem toNat_left {a : RteMbuf} {offset : Nat} {inc : UInt32} (hOffset : offset ≤ a.dataLen.toNat)
    (hPast : a.dataLen.toNat ≤ offset + inc.toNat) :
    (inc - UInt32.ofNat (sizeSub a.dataLen.toNat offset)).toNat =
      offset + inc.toNat - a.dataLen.toNat := by
  have hLen := a.dataLen.toNat_lt
  have hInc := inc.toNat_lt
  rw [sizeSub, if_pos hOffset, UInt32.toNat_sub, UInt32.toNat_ofNat']
  omega

theorem noUnderflow_of_inBounds (m : List RteMbuf) {offset : Nat} (inc : UInt32)
    (h : ∀ a ∈ m.head?, offset ≤ a.dataLen.toNat) : NoUnderflow m offset inc := by
  induction m generalizing offset inc with
  | nil => trivial
  | cons a rest ih =>
      have hOffset := h a rfl
      unfold NoUnderflow
      split
      · trivial
      · rename_i hGoes
        exact ⟨hOffset, by omega, ih _ fun b _ => Nat.zero_le _⟩

/-- The loop of `skip` walks on from a position that starts a segment or is inside
one. From the second segment on its offset is 0. -/
theorem skipLoop_eq_land (m : List RteMbuf) {offset : Nat} (inc : UInt32)
    (hEnd : m = [] → offset = 0) (hOffset : ∀ a ∈ m.head?, offset = 0 ∨ offset < a.dataLen.toNat) :
    skipLoop m offset inc = land dataLength m (offset + inc.toNat) := by
  induction m generalizing offset inc with
  | nil => rw [skipLoop, hEnd rfl, land]
  | cons a rest ih =>
      have hHere := hOffset a rfl
      unfold skipLoop
      split
      · rename_i hZero
        rw [hZero]
        exact (land_stays dataLength hHere).symm
      · rename_i hMoves
        split
        · rename_i hStays
          exact (land_stays dataLength (Or.inr hStays)).symm
        · rename_i hGoes
          have hPast := Nat.le_of_not_lt hGoes
          have hInc : inc.toNat ≠ 0 := fun hZero => hMoves (UInt32.toNat_inj.mp hZero)
          rw [land_goes dataLength (by omega) hPast, ih _ (fun _ => rfl) fun _ _ => Or.inl rfl,
            toNat_left (by omega) hPast, Nat.zero_add]

/-- Where every segment holds data, it goes where the position behind it lies. -/
theorem skipLoop_eq_seek (m : List RteMbuf) {offset : Nat} (inc : UInt32)
    (hFull : ∀ a ∈ m, 0 < a.dataLen.toNat) (hEnd : m = [] → offset = 0)
    (hOffset : ∀ a ∈ m.head?, offset < a.dataLen.toNat) :
    skipLoop m offset inc = seek dataLength m (offset + inc.toNat) := by
  rw [skipLoop_eq_land m inc hEnd fun a ha => Or.inr (hOffset a ha)]
  exact land_eq_seek dataLength hFull _

variable {self : RteMbufIterator} {chain : List RteMbuf} {p : Nat}

theorem standsOn_of_seek (h : seek dataLength chain p = (self.m, self.offset)) :
    self.StandsOn chain p := by
  unfold StandsOn
  split
  · rename_i hInside
    obtain ⟨before, a, rest, offset, hSplit, hOffset, hSum, hSeek⟩ :=
      seek_inside dataLength hInside
    obtain ⟨hChain, hHere⟩ := Prod.mk.inj (hSeek.symm.trans h)
    exact ⟨before, a, rest, hSplit, hChain.symm, hHere ▸ hOffset, hHere ▸ hSum⟩
  · rename_i hPast
    rw [seek_end dataLength (Nat.le_of_not_lt hPast)] at h
    exact (Prod.mk.inj h).1.symm

theorem ext_position {other : RteMbufIterator} (hChain : self.m = other.m)
    (hOffset : self.offset = other.offset) (hPkt : self.pktOffset = other.pktOffset) :
    self = other := by
  obtain ⟨m, offset, pktOffset⟩ := self
  cases hChain
  cases hOffset
  cases hPkt
  rfl

/-- What a position inside the chain says of the iterator. -/
theorem StandsOn.inside (h : self.StandsOn chain p) (hInside : p < chainLength chain) :
    ∃ before a rest, chain = before ++ a :: rest ∧ self.m = a :: rest ∧
      self.offset < a.dataLen.toNat ∧ chainLength before + self.offset = p := by
  rwa [StandsOn, if_pos hInside] at h

theorem StandsOn.atEnd (h : self.StandsOn chain p) (hPast : chainLength chain ≤ p) :
    self.m = [] := by
  rwa [StandsOn, if_neg (Nat.not_lt.mpr hPast)] at h

/-- A position inside the chain is found by walking from the start. -/
theorem StandsOn.seek_eq (h : self.StandsOn chain p) (hInside : p < chainLength chain) :
    seek dataLength chain p = (self.m, self.offset) := by
  obtain ⟨before, a, rest, hSplit, hRest, hOffset, hSum⟩ := h.inside hInside
  rw [hSplit, hRest, ← hSum]
  exact (seek_append dataLength before (a :: rest) self.offset).trans (seek_of_lt dataLength hOffset)

/-- `skip` inside the chain walks on from where the position lies. -/
theorem StandsOn.seek_skip (h : self.StandsOn chain p) (hFull : ∀ a ∈ chain, 0 < a.dataLen.toNat)
    (hInside : p < chainLength chain) (n : UInt32) :
    seek dataLength chain (p + n.toNat) = ((self.skip n).m, (self.skip n).offset) := by
  obtain ⟨before, a, rest, hSplit, hRest, hOffset, _⟩ := h.inside hInside
  have hSuffix : ∀ b ∈ self.m, 0 < b.dataLen.toNat := by
    intro b hb
    rw [hRest] at hb
    exact hFull b (hSplit ▸ List.mem_append_right before hb)
  have hHead : ∀ b ∈ self.m.head?, self.offset < b.dataLen.toNat := by
    intro b hb
    rw [hRest] at hb
    cases hb
    exact hOffset
  have hLoop := skipLoop_eq_seek self.m n hSuffix (fun hNil => by simp [hRest] at hNil) hHead
  have hWalk := seek_seek dataLength chain p n.toNat
  rw [h.seek_eq hInside] at hWalk
  exact hWalk.symm.trans hLoop.symm

/-- At the end there is nothing left to skip. -/
theorem skip_of_end (h : self.m = []) (n : UInt32) : self.skip n = self := by
  obtain ⟨m, offset, pktOffset⟩ := self
  cases h
  rfl

/-- `skip` lands on the byte that many places further, or at the end. -/
theorem StandsOn.skip (h : self.StandsOn chain p) (hFull : ∀ a ∈ chain, 0 < a.dataLen.toNat)
    (n : UInt32) : (self.skip n).StandsOn chain (p + n.toNat) := by
  by_cases hInside : p < chainLength chain
  · exact standsOn_of_seek (h.seek_skip hFull hInside n)
  · have hPast := Nat.le_of_not_lt hInside
    have hEnd := h.atEnd hPast
    rw [skip_of_end hEnd, StandsOn, if_neg (by omega)]
    exact hEnd

/-- Two skips are one skip of the sum, if the sum is no overflow. -/
theorem StandsOn.skip_skip (h : self.StandsOn chain p)
    (hFull : ∀ a ∈ chain, 0 < a.dataLen.toNat) {i j : UInt32}
    (hSum : i.toNat + j.toNat < UInt32.size) : (self.skip i).skip j = self.skip (i + j) := by
  have hTotal : (i + j).toNat = i.toNat + j.toNat := by
    rw [UInt32.toNat_add]
    exact Nat.mod_eq_of_lt hSum
  have hNext := h.skip hFull i
  by_cases hInside : p < chainLength chain
  · have hOnce := h.seek_skip hFull hInside (i + j)
    rw [hTotal, ← Nat.add_assoc] at hOnce
    by_cases hMiddle : p + i.toNat < chainLength chain
    · have hTwice := hNext.seek_skip hFull hMiddle j
      obtain ⟨hChain, hOffset⟩ := Prod.mk.inj (hTwice.symm.trans hOnce)
      exact ext_position hChain hOffset rfl
    · have hPast := Nat.le_of_not_lt hMiddle
      have hFirst := h.seek_skip hFull hInside i
      rw [skip_of_end (hNext.atEnd hPast)]
      rw [seek_end dataLength hPast] at hFirst
      rw [seek_end dataLength (Nat.le_add_right_of_le hPast)] at hOnce
      obtain ⟨hChain, hOffset⟩ := Prod.mk.inj (hFirst.symm.trans hOnce)
      exact ext_position hChain hOffset rfl
  · have hEnd := h.atEnd (Nat.le_of_not_lt hInside)
    rw [skip_of_end hEnd, skip_of_end hEnd, skip_of_end hEnd]

/-- An offset below the length of its segment, or the end. -/
theorem StandsOn.inBounds (h : self.StandsOn chain p) : self.InBounds := by
  by_cases hInside : p < chainLength chain
  · obtain ⟨before, a, rest, _, hRest, hOffset, _⟩ := h.inside hInside
    intro b hb
    rw [hRest] at hb
    cases hb
    exact Nat.le_of_lt hOffset
  · rw [InBounds, h.atEnd (Nat.le_of_not_lt hInside)]
    exact fun b hb => by cases hb

/-- For every chain of segments that hold data, every position and every
number of bytes: the loop of `skip` subtracts without underflow and lands on the
byte that many places further, or at the end; so two skips are one. -/
theorem skip_lands_on_byte (hFull : ∀ a ∈ chain, 0 < a.dataLen.toNat)
    (hAt : self.StandsOn chain p) :
    (∀ n : UInt32, NoUnderflow self.m self.offset n ∧
      (self.skip n).StandsOn chain (p + n.toNat)) ∧
    ∀ i j : UInt32, i.toNat + j.toNat < UInt32.size → (self.skip i).skip j = self.skip (i + j) :=
  ⟨fun n => ⟨noUnderflow_of_inBounds self.m n hAt.inBounds, hAt.skip hFull n⟩,
    fun _ _ hSum => hAt.skip_skip hFull hSum⟩

/-- From the last byte of the first segment to the first of the second. -/
theorem skip_lands_on_byte_boundary :
    ((⟨[.ofBytes [1, 2], .ofBytes [3]], 1, 0⟩ : RteMbufIterator).skip 1).StandsOn
      [.ofBytes [1, 2], .ofBytes [3]] 2 := by
  have hAt : (⟨[.ofBytes [1, 2], .ofBytes [3]], 1, 0⟩ : RteMbufIterator).StandsOn
      [.ofBytes [1, 2], .ofBytes [3]] 1 :=
    standsOn_of_seek rfl
  exact ((skip_lands_on_byte (by simp [ofBytes]) hAt).1 1).2

end Skip

section Traversal

/-- Read and step until the segment is null: the bytes that are read, `none`
where the steps do not suffice. -/
def traverse : Nat → RteMbufIterator → Option (List BytePtr)
  | 0, _ => none
  | steps + 1, itr =>
      match itr.address with
      | none => some []
      | some ptr => (traverse steps itr.next).map (ptr :: ·)

/-- The traversal ends, having visited the data of the chain in order, each byte
once, and nothing else. -/
def TraversalExact (chain : List RteMbuf) : Prop :=
  ∃ steps visits, traverse steps (RteMbufStream.begin { m := chain }) = some visits ∧
    visits.map BytePtr.read = chainBytes chain ∧ (∀ ptr ∈ visits, ptr.Inside) ∧
    visits.length = chainLength chain

/-- The positions from an offset on: those of the data, and one behind the data
of each segment. -/
def slots : List RteMbuf → Nat → List BytePtr
  | [], _ => []
  | a :: rest, offset =>
      (List.range' offset (a.dataLen.toNat + 1 - offset)).map (fun i => ⟨a, i⟩) ++ slots rest 0

theorem slots_inside {a : RteMbuf} {offset : Nat} (rest : List RteMbuf)
    (h : offset < a.dataLen.toNat) :
    slots (a :: rest) offset = ⟨a, offset⟩ :: slots (a :: rest) (offset + 1) := by
  have hCount : a.dataLen.toNat + 1 - offset = a.dataLen.toNat + 1 - (offset + 1) + 1 := by omega
  rw [slots, hCount, List.range'_succ, List.map_cons, List.cons_append, slots]

theorem slots_behind (a : RteMbuf) (rest : List RteMbuf) :
    slots (a :: rest) a.dataLen.toNat = ⟨a, a.dataLen.toNat⟩ :: slots rest 0 := by
  rw [slots, Nat.add_sub_cancel_left]
  rfl

/-- A traversal takes one step more than there are slots, and visits them. -/
theorem traverse_eq {itr : RteMbufIterator} (h : itr.InBounds) (steps : Nat) :
    traverse steps itr = if (slots itr.m itr.offset).length < steps then
      some (slots itr.m itr.offset) else none := by
  obtain ⟨m, offset, pktOffset⟩ := itr
  induction steps generalizing m offset with
  | zero => rfl
  | succ steps ih =>
      have hCount (n : Nat) : n + 1 < steps + 1 ↔ n < steps := Nat.succ_lt_succ_iff
      cases m with
      | nil => simp [traverse, address, slots]
      | cons a rest =>
          rcases Nat.lt_or_eq_of_le (h a rfl) with hInside | hBehind
          · rw [traverse, next_inside hInside, ih _ _ fun b hb => by cases hb; exact hInside]
            simp only [address, List.head?_cons, Option.map_some, slots_inside rest hInside,
              List.length_cons, hCount]
            split <;> rfl
          · obtain rfl : offset = a.dataLen.toNat := hBehind
            rw [traverse, next_behind, ih _ _ fun b _ => Nat.zero_le _]
            simp only [address, List.head?_cons, Option.map_some, slots_behind,
              List.length_cons, hCount]
            split <;> rfl

/-- One slot more than data bytes in each segment. -/
theorem length_slots (chain : List RteMbuf) :
    (slots chain 0).length = chainLength chain + chain.length := by
  induction chain with
  | nil => rfl
  | cons a rest ih =>
      rw [slots, List.length_append, List.length_map, List.length_range', ih, chainLength_cons,
        List.length_cons]
      omega

theorem traverse_begin (chain : List RteMbuf) {steps : Nat} {visits : List BytePtr}
    (h : traverse steps (RteMbufStream.begin { m := chain }) = some visits) :
    visits = slots chain 0 := by
  have hBounds : (RteMbufStream.begin { m := chain }).InBounds := fun _ _ => Nat.zero_le _
  rw [traverse_eq hBounds] at h
  split at h
  · exact (Option.some.inj h).symm
  · cases h

/-- Each segment costs a byte: its last step reads behind the data, since `operator++`
leaves a segment only from there. So the traversal is exact for no chain that has a
segment, and what is read behind the data is no part of the packet. -/
theorem traversal_exact_iff (chain : List RteMbuf) : TraversalExact chain ↔ chain = [] := by
  constructor
  · rintro ⟨steps, visits, hVisits, _, _, hLength⟩
    rw [traverse_begin chain hVisits, length_slots] at hLength
    exact List.eq_nil_of_length_eq_zero (by omega)
  · rintro rfl
    exact ⟨1, [], rfl, rfl, by simp, rfl⟩

/-- A chain of one byte is read twice, the second time behind its data. -/
theorem one_byte_is_visited_twice :
    ¬ ∀ chain : List RteMbuf, (∀ a ∈ chain, 0 < a.dataLen.toNat) → TraversalExact chain := by
  intro hAll
  have hExact := hAll [.ofBytes [7]] (by simp [ofBytes])
  rw [traversal_exact_iff] at hExact
  cases hExact

end Traversal

end RteMbufIterator
end Nginz
