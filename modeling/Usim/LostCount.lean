import Usim.Uch11Poll

/-!
# The lost packets of the Chaosnet interface

`uch11_lost_count` counts the packets that are tossed while the receive buffer is in use, and
bits 12-9 of the CSR are to show it. The interface keeps the count, but `uch11_get_csr` shifts
it out of the word, so that the processor reads there what it wrote itself.
-/

namespace Usim

open Lib

/-- What happens to the interface. -/
inductive Uch11Event
  | writeCsr (v : HalfWord)
  | readCsr
  | putXmitBuffer (v : HalfWord)
  /-- The read of 0764152 that starts a transmission. -/
  | startTransmit
  | readBuffer
  /-- `chaos_queue`, by the local program. -/
  | arrive (packet : ChaosPacket)
  /-- `uch11_poll`. -/
  | poll (input : PollInput)

/-- The interface and the queue of the local program, with a record of the packets discarded. -/
structure NetworkInterface where
  uch11 : Uch11
  queuehead : List ChaosPacket
  /-- The incoming packets discarded since the last RESET or RECEIVER CLEAR. -/
  discarded : ℕ

namespace Uch11

/-- A poll of the datagram socket discards a packet. -/
def DiscardsDatagram (u : Uch11) : UdpPoll → Prop
  | .nothing => False
  | .datagram _ => u.chaosdOpen ∧ u.bufferInUse

/-- A poll of the daemon discards a packet. -/
def DiscardsPacket (u : Uch11) : ChaosdPoll → Prop
  | .nothing => False
  | .readable _ _ _ => u.chaosdOpen ∧ u.bufferInUse

instance (u : Uch11) (input : UdpPoll) : Decidable (u.DiscardsDatagram input) := by
  cases input <;> unfold DiscardsDatagram <;> infer_instance

instance (u : Uch11) (input : ChaosdPoll) : Decidable (u.DiscardsPacket input) := by
  cases input <;> unfold DiscardsPacket <;> infer_instance

/-- A poll finds a packet while the receive buffer is in use. -/
def Discards (c : Uch11Config) (input : PollInput) (u : Uch11) (queuehead : List ChaosPacket) :
    Prop :=
  match c.backend with
  | .local => False
  | .daemon => (u.reconnected input.reconnect).DiscardsPacket input.chaosd
  | .udp => (u.pollHybrid c queuehead).1.DiscardsDatagram input.udp

instance (c : Uch11Config) (input : PollInput) (u : Uch11) (queuehead : List ChaosPacket) :
    Decidable (u.Discards c input queuehead) := by
  unfold Discards
  cases c.backend <;> infer_instance

end Uch11

namespace NetworkInterface

/-- Nothing has happened yet. -/
def start (interrupts : Interrupts) (chaosdOpen : Bool) : NetworkInterface :=
  ⟨.init interrupts chaosdOpen, [], 0⟩

/-- One event. -/
def step (c : Uch11Config) (e : Uch11Event) (s : NetworkInterface) :
    Except OutOfBounds NetworkInterface :=
  match e with
  | .writeCsr v => .ok { s with
      uch11 := s.uch11.setCsr c v
      discarded := if Reception.clears v then 0 else s.discarded }
  | .readCsr => .ok s
  | .putXmitBuffer v => .ok { s with uch11 := s.uch11.putXmitBuffer v }
  | .startTransmit => (s.uch11.xmitPkt c).map fun r => { s with uch11 := r.1 }
  | .readBuffer => .ok { s with uch11 := s.uch11.getRcvBuffer.2 }
  | .arrive packet => .ok { s with queuehead := s.queuehead ++ [packet] }
  | .poll input => (s.uch11.poll c input s.queuehead).map fun r =>
      { uch11 := r.1
        queuehead := r.2
        discarded := if s.uch11.Discards c input s.queuehead then s.discarded + 1
          else s.discarded }

end NetworkInterface

/-- LOST COUNT of a CSR, the four bits from bit 9 on. -/
def lostCountField (csr : HalfWord) : BitVec 4 := csr.extractLsb' 9 4

/-- The processor reads the number of packets discarded in the CSR, up to 15 or modulo 16, and
the other bits as they are. -/
structure NetworkInterface.LostCountRead (s : NetworkInterface) : Prop where
  count : (lostCountField s.uch11.getCsr).toNat = min 15 s.discarded ∨
    (lostCountField s.uch11.getCsr).toNat = s.discarded % 16
  others : ∀ i, ¬(9 ≤ i ∧ i < 13) → s.uch11.getCsr.getLsbD i = s.uch11.csr.getLsbD i

/-- The event discards no packet, and stores no 1 in bits 12, 10 and 9 of the CSR. -/
def KeepsLostCount (c : Uch11Config) : Uch11Event → NetworkInterface → Prop
  | .writeCsr v, _ => v.getLsbD 9 = false ∧ v.getLsbD 10 = false ∧ v.getLsbD 12 = false
  | .poll input, s => ¬s.uch11.Discards c input s.queuehead
  | _, _ => True

/-! ### What a step does to the count -/

/-- The count, and the bits of the CSR that are to show it. -/
structure SameLost (u u' : Uch11) : Prop where
  field : lostCountField u'.csr = lostCountField u.csr
  count : u'.lostCount = u.lostCount

namespace SameLost

variable {u u' u'' : Uch11}

theorem refl (u : Uch11) : SameLost u u := ⟨rfl, rfl⟩

theorem trans (h : SameLost u u') (h' : SameLost u' u'') : SameLost u u'' :=
  ⟨h'.field.trans h.field, h'.count.trans h.count⟩

end SameLost

/-- The field of a CSR that is changed by a mask. -/
@[simp] theorem lostCountField_or (v w : HalfWord) :
    lostCountField (v ||| w) = lostCountField v ||| lostCountField w :=
  BitVec.extractLsb'_or

@[simp] theorem lostCountField_and (v w : HalfWord) :
    lostCountField (v &&& w) = lostCountField v &&& lostCountField w :=
  BitVec.extractLsb'_and

/-- The lost count is shifted out of the bits that it is masked with. -/
theorem getCsr_eq (u : Uch11) : u.getCsr = u.csr := by
  have hzero : (u.lostCount <<< 9) &&& 0o17 = 0 := by
    rw [show 0o17 = 2 ^ 4 - 1 from rfl, Nat.and_two_pow_sub_one_eq_mod, Nat.shiftLeft_eq]
    omega
  rw [Uch11.getCsr, hzero]
  exact BitVec.or_zero

namespace Uch11

variable {c : Uch11Config} {u u' : Uch11} {n : ℕ}

/-- A packet is presented. -/
theorem sameLost_rxPkt (u : Uch11) : SameLost u u.rxPkt := by
  unfold rxPkt
  simp only
  split
  · refine ⟨?_, rfl⟩
    simp only [lostCountField_or]
    exact BitVec.or_zero
  · exact ⟨rfl, rfl⟩

/-- A transmission is done. -/
theorem sameLost_xmitDoneIntr (u : Uch11) : SameLost u u.xmitDoneIntr := by
  refine ⟨?_, rfl⟩
  simp only [xmitDoneIntr, lostCountField_or]
  exact BitVec.or_zero

/-- A word is read. -/
theorem sameLost_getRcvBuffer (u : Uch11) : SameLost u u.getRcvBuffer.2 := by
  unfold getRcvBuffer
  split
  · exact ⟨rfl, rfl⟩
  · refine ⟨?_, rfl⟩
    simp only [lostCountField_and]
    exact BitVec.and_allOnes

/-- A word is written. -/
theorem sameLost_putXmitBuffer (u : Uch11) (v : HalfWord) : SameLost u (u.putXmitBuffer v) := by
  unfold putXmitBuffer
  simp only
  split
  · refine ⟨?_, rfl⟩
    simp only [lostCountField_and]
    exact BitVec.and_allOnes
  · refine ⟨?_, rfl⟩
    simp only [lostCountField_and]
    exact BitVec.and_allOnes

/-- A packet is copied into the receive buffer and presented. -/
theorem sameLost_receiveCopy (h : u.receiveCopy n = .ok u') : SameLost u u' := by
  obtain ⟨_, -, h⟩ := exists_of_bind_eq_ok h
  obtain ⟨_, -, h⟩ := exists_of_bind_eq_ok h
  cases h
  exact (SameLost.refl u).trans ⟨(sameLost_rxPkt _).field, (sameLost_rxPkt _).count⟩

/-- A packet that is received in one case, before the rest of a transmission. -/
theorem sameLost_receiveCopy_if {p : Prop} [Decidable p] {α : Type} {a : α}
    {f : Uch11 → Except OutOfBounds α}
    (h : (if p then u.receiveCopy n >>= f else pure u >>= f) = .ok a) :
    ∃ u', SameLost u u' ∧ f u' = .ok a := by
  split at h
  · obtain ⟨u', hcopy, h⟩ := exists_of_bind_eq_ok h
    exact ⟨u', sameLost_receiveCopy hcopy, h⟩
  · exact ⟨u, .refl u, h⟩

/-- A packet that is looped back. -/
theorem sameLost_loopBack {r : Uch11 × Option Transmission}
    (h : (do return (← u.receiveCopy n, none)) = Except.ok r) : SameLost u r.1 := by
  obtain ⟨u', hcopy, h⟩ := exists_of_bind_eq_ok h
  cases h
  exact sameLost_receiveCopy hcopy

/-- A packet for the local program. -/
theorem sameLost_sendToLocal {r : Uch11 × Option Transmission} (h : u.sendToLocal c n = .ok r) :
    SameLost u r.1 := by
  unfold sendToLocal at h
  split at h
  · exact sameLost_loopBack h
  · obtain ⟨u', hsame, h⟩ := sameLost_receiveCopy_if h
    split at h
    · cases h
      exact hsame
    · cases h
      exact hsame

/-- A packet for the daemon. -/
theorem sameLost_sendToChaosd {r : Uch11 × Option Transmission}
    (h : u.sendToChaosd c n = .ok r) : SameLost u r.1 := by
  unfold sendToChaosd at h
  split at h
  · exact sameLost_loopBack h
  · obtain ⟨_, -, h⟩ := exists_of_bind_eq_ok h
    obtain ⟨u', hsame, h⟩ := sameLost_receiveCopy_if h
    simp only at h
    split at h
    · cases h
      exact hsame
    · obtain ⟨_, -, h⟩ := exists_of_bind_eq_ok h
      cases h
      exact hsame

/-- A packet for the network. -/
theorem sameLost_sendToUdp {r : Uch11 × Option Transmission} (h : u.sendToUdp c n = .ok r) :
    SameLost u r.1 := by
  unfold sendToUdp at h
  split at h
  · exact sameLost_loopBack h
  split at h
  · exact sameLost_sendToLocal h
  obtain ⟨_, -, h⟩ := exists_of_bind_eq_ok h
  simp only at h
  split at h
  · cases h
    exact .refl u
  obtain ⟨u', hsame, h⟩ := sameLost_receiveCopy_if h
  split at h
  · cases h
    exact hsame
  split at h
  · cases h
    exact hsame
  · obtain ⟨_, -, h⟩ := exists_of_bind_eq_ok h
    cases h
    exact hsame

/-- A packet that the backend sends. -/
theorem sameLost_send {r : Uch11 × Option Transmission} (h : u.send c n = .ok r) :
    SameLost u r.1 := by
  unfold send at h
  cases hbackend : c.backend with
  | «local» =>
    rw [hbackend] at h
    exact sameLost_sendToLocal h
  | daemon =>
    rw [hbackend] at h
    exact sameLost_sendToChaosd h
  | udp =>
    rw [hbackend] at h
    exact sameLost_sendToUdp h

/-- A transmission. -/
theorem sameLost_xmitPkt {r : Uch11 × Option Transmission} (h : u.xmitPkt c = .ok r) :
    SameLost u r.1 := by
  obtain ⟨_, -, h⟩ := exists_of_bind_eq_ok h
  obtain ⟨_, -, h⟩ := exists_of_bind_eq_ok h
  obtain ⟨_, -, h⟩ := exists_of_bind_eq_ok h
  obtain ⟨⟨u', sent⟩, hsend, h⟩ := exists_of_bind_eq_ok h
  cases h
  have hsame := sameLost_send hsend
  have hsent : SameLost u { u' with xmitBufferPtr := 0 } := ⟨hsame.field, hsame.count⟩
  exact hsent.trans (sameLost_xmitDoneIntr _)

/-! ### What a write of the CSR does to it -/

/-- A reconnection. -/
theorem sameLost_forceReconnect (c : Uch11Config) (u : Uch11) :
    SameLost u (u.forceReconnect c) := by
  unfold forceReconnect
  split
  · exact ⟨rfl, rfl⟩
  · exact .refl u

/-- RESET clears the count. -/
theorem reset_lost (c : Uch11Config) (u : Uch11) :
    lostCountField (u.reset c).csr = lostCountField u.csr ∧ (u.reset c).lostCount = 0 := by
  obtain ⟨hfield, hcount⟩ := sameLost_forceReconnect c { u with
    rcvBufferPtr := 0, rcvBufferSize := 0, xmitBufferPtr := 0, lostCount := 0, bitCount := 0
    csr := (u.csr &&& ~~~(0o20000 ||| 0o100000)) ||| 0o200 }
  refine ⟨hfield.trans ?_, hcount⟩
  simp only [lostCountField_or, lostCountField_and]
  exact BitVec.or_zero.trans BitVec.and_allOnes

/-- So does RECEIVER CLEAR. -/
theorem receiverClear_lost (u : Uch11) :
    lostCountField u.receiverClear.csr = lostCountField u.csr ∧ u.receiverClear.lostCount = 0 := by
  refine ⟨?_, rfl⟩
  simp only [receiverClear, lostCountField_and]
  exact BitVec.and_allOnes

theorem sameLost_transmitterClear (u : Uch11) : SameLost u u.transmitterClear := by
  refine ⟨?_, rfl⟩
  simp only [transmitterClear, lostCountField_or, lostCountField_and]
  exact BitVec.or_zero.trans BitVec.and_allOnes

theorem sameLost_receiverEnabled (u : Uch11) : SameLost u u.receiverEnabled := by
  unfold receiverEnabled
  have hempty : SameLost u
      (if u.rcvBufferEmpty then { u with rcvBufferPtr := 0, rcvBufferSize := 0 } else u) := by
    split
    · exact ⟨rfl, rfl⟩
    · exact .refl u
  generalize (if u.rcvBufferEmpty then { u with rcvBufferPtr := 0, rcvBufferSize := 0 } else u) =
    u' at hempty
  simp only
  split
  · exact hempty.trans (sameLost_rxPkt u')
  · exact hempty

/-- A write of the CSR stores the bits of LOST COUNT, but for bit 11. -/
theorem setCsr_lost (c : Uch11Config) (u : Uch11) (v : HalfWord) :
    lostCountField (u.setCsr c v).csr = (lostCountField u.csr &&& 4) ||| (lostCountField v &&& 11) ∧
      (u.setCsr c v).lostCount = if Reception.clears v then 0 else u.lostCount := by
  have hstored : lostCountField ((u.csr &&& csrMask) ||| (v &&& ~~~csrMask)) =
      (lostCountField u.csr &&& 4) ||| (lostCountField v &&& 11) := by
    simp only [lostCountField_or, lostCountField_and]
    rfl
  have hbit : ((u.csr &&& csrMask) ||| (v &&& ~~~csrMask)).getLsbD 13 = v.getLsbD 13 := by
    have hmask : csrMask.getLsbD 13 = false := by decide
    rw [BitVec.getLsbD_or, BitVec.getLsbD_and, BitVec.getLsbD_and, BitVec.getLsbD_not, hmask,
      Bool.and_false, Bool.false_or, Bool.not_false, Bool.and_true]
    exact Bool.and_true _
  unfold setCsr
  simp only [hbit]
  generalize hstate : { u with csr := (u.csr &&& csrMask) ||| (v &&& ~~~csrMask) } = w
  have hw : lostCountField w.csr = (lostCountField u.csr &&& 4) ||| (lostCountField v &&& 11) ∧
      w.lostCount = u.lostCount := by
    rw [← hstate]
    exact ⟨hstored, rfl⟩
  clear hstate hstored hbit
  -- the two clearing commands
  have hcleared : lostCountField (if v.getLsbD 3 then
          (if v.getLsbD 13 then w.reset c else w).receiverClear
        else if v.getLsbD 13 then w.reset c else w).csr = lostCountField w.csr ∧
      (if v.getLsbD 3 then (if v.getLsbD 13 then w.reset c else w).receiverClear
        else if v.getLsbD 13 then w.reset c else w).lostCount =
        if Reception.clears v then 0 else w.lostCount := by
    unfold Reception.clears
    cases v.getLsbD 13 <;> cases v.getLsbD 3
    · exact ⟨rfl, rfl⟩
    · exact receiverClear_lost w
    · exact reset_lost c w
    · exact ⟨(receiverClear_lost _).1.trans (reset_lost c w).1, rfl⟩
  generalize (if v.getLsbD 3 then (if v.getLsbD 13 then w.reset c else w).receiverClear
    else if v.getLsbD 13 then w.reset c else w) = x at hcleared
  have htransmitter : SameLost x
      (if v.getLsbD 8 || v.getLsbD 7 then x.transmitterClear else x) := by
    split
    · exact sameLost_transmitterClear x
    · exact .refl x
  generalize (if v.getLsbD 8 || v.getLsbD 7 then x.transmitterClear else x) = y at htransmitter
  have hreceiver : SameLost y (if y.receiveEnable then y.receiverEnabled else y) := by
    split
    · exact sameLost_receiverEnabled y
    · exact .refl y
  generalize (if y.receiveEnable then y.receiverEnabled else y) = z at hreceiver
  have hdone : SameLost z (if z.transmitEnable then { z with csr := z.csr ||| 0o200 } else z) := by
    split
    · refine ⟨?_, rfl⟩
      simp only [lostCountField_or]
      exact BitVec.or_zero
    · exact .refl z
  have hsame := (htransmitter.trans hreceiver).trans hdone
  exact ⟨hsame.field.trans (hcleared.1.trans hw.1), by rw [hsame.count, hcleared.2, hw.2]⟩

/-! ### What a poll does to it -/

/-- A packet in the receive buffer is presented, or ignored. -/
theorem sameLost_acceptPacket {mine : HalfWord → Bool} (h : u.acceptPacket mine = .ok u') :
    SameLost u u' := by
  obtain ⟨_, -, h⟩ := exists_of_bind_eq_ok h
  split at h
  · cases h
    exact sameLost_rxPkt u
  · cases h
    exact ⟨rfl, rfl⟩

/-- A datagram that is received. -/
theorem sameLost_receiveDatagram {datagram : List Byte}
    (h : u.receiveDatagram c datagram = .ok u') : SameLost u u' := by
  unfold receiveDatagram at h
  simp only at h
  split at h
  · cases h
    exact ⟨rfl, rfl⟩
  split at h
  · cases h
    exact ⟨rfl, rfl⟩
  obtain ⟨_, -, h⟩ := exists_of_bind_eq_ok h
  obtain ⟨_, -, h⟩ := exists_of_bind_eq_ok h
  have hsame := sameLost_acceptPacket h
  exact ⟨hsame.field, hsame.count⟩

/-- A packet from the daemon. -/
theorem sameLost_receiveFromChaosd {len : HalfWord} {packet : Option (List Byte)}
    (h : u.receiveFromChaosd c len packet = .ok u') : SameLost u u' := by
  unfold receiveFromChaosd at h
  split at h
  · cases h
    exact sameLost_forceReconnect c u
  cases packet with
  | none =>
    cases h
    exact sameLost_forceReconnect c u
  | some bytes =>
    simp only at h
    split at h
    · cases h
      exact ⟨rfl, rfl⟩
    · have hsame := sameLost_acceptPacket h
      exact ⟨hsame.field, hsame.count⟩

/-- The local program's packets. -/
theorem sameLost_pollLocal (c : Uch11Config) (u : Uch11) (queuehead : List ChaosPacket) :
    SameLost u (u.pollLocal c queuehead).1 := by
  unfold pollLocal
  split
  · exact .refl u
  · split
    · exact .refl u
    · exact ⟨(sameLost_rxPkt _).field, (sameLost_rxPkt _).count⟩

theorem sameLost_pollHybrid (c : Uch11Config) (u : Uch11) (queuehead : List ChaosPacket) :
    SameLost u (u.pollHybrid c queuehead).1 := by
  unfold pollHybrid
  split
  · exact sameLost_pollLocal c u queuehead
  · exact .refl u

/-- A poll of the datagram socket counts the packet that it discards. -/
theorem pollSocket_lost {input : UdpPoll} (h : u.pollSocket c input = .ok u') :
    lostCountField u'.csr = lostCountField u.csr ∧
      u'.lostCount = if u.DiscardsDatagram input then u.lostCount + 1 else u.lostCount := by
  unfold pollSocket at h
  cases input with
  | nothing =>
    rw [ite_self] at h
    cases h
    exact ⟨rfl, (if_neg id).symm⟩
  | datagram bytes =>
    by_cases hopen : u.chaosdOpen
    · simp only [hopen, Bool.not_true, Bool.false_eq_true, if_false] at h
      by_cases huse : u.bufferInUse
      · rw [if_pos huse] at h
        cases h
        exact ⟨rfl, (if_pos ⟨hopen, huse⟩).symm⟩
      · rw [if_neg huse] at h
        rw [if_neg fun hd => huse hd.2]
        cases bytes with
        | none =>
          cases h
          exact ⟨rfl, rfl⟩
        | some datagram =>
          have hsame := sameLost_receiveDatagram h
          exact ⟨hsame.field, hsame.count⟩
    · rw [if_neg fun hd => hopen hd.1]
      simp only [Bool.eq_false_iff.mpr hopen, Bool.not_false, if_true] at h
      cases h
      exact ⟨rfl, rfl⟩

/-- A poll of the daemon does, too. -/
theorem pollChaosd_lost {reconnect : Option Bool} {input : ChaosdPoll}
    (h : u.pollChaosd c reconnect input = .ok u') :
    lostCountField u'.csr = lostCountField u.csr ∧
      u'.lostCount =
        if (u.reconnected reconnect).DiscardsPacket input then u.lostCount + 1
        else u.lostCount := by
  have hreconnected : SameLost u (u.reconnected reconnect) := by
    cases reconnect with
    | none => exact .refl u
    | some opened => exact ⟨rfl, rfl⟩
  unfold pollChaosd at h
  rw [← hreconnected.field, ← hreconnected.count]
  generalize u.reconnected reconnect = w at h
  simp only at h
  cases input with
  | nothing =>
    rw [ite_self] at h
    cases h
    exact ⟨rfl, (if_neg id).symm⟩
  | readable header len packet =>
    by_cases hopen : w.chaosdOpen
    · simp only [hopen, Bool.not_true, Bool.false_eq_true, if_false] at h
      by_cases huse : w.bufferInUse
      · rw [if_pos huse] at h
        rw [if_pos ⟨hopen, huse⟩]
        cases h
        split
        · exact ⟨(sameLost_forceReconnect c w.toss).field, (sameLost_forceReconnect c w.toss).count⟩
        · exact ⟨rfl, rfl⟩
      · rw [if_neg huse] at h
        rw [if_neg fun hd => huse hd.2]
        split at h
        · cases h
          exact ⟨(sameLost_forceReconnect c w).field, (sameLost_forceReconnect c w).count⟩
        · have hsame := sameLost_receiveFromChaosd h
          exact ⟨hsame.field, hsame.count⟩
    · rw [if_neg fun hd => hopen hd.1]
      simp only [Bool.eq_false_iff.mpr hopen, Bool.not_false, if_true] at h
      cases h
      exact ⟨rfl, rfl⟩

/-- A poll counts the packet that it discards. -/
theorem poll_lost {input : PollInput} {queuehead : List ChaosPacket}
    {r : Uch11 × List ChaosPacket} (h : u.poll c input queuehead = .ok r) :
    lostCountField r.1.csr = lostCountField u.csr ∧
      r.1.lostCount =
        if u.Discards c input queuehead then u.lostCount + 1 else u.lostCount := by
  unfold poll at h
  cases hbackend : c.backend with
  | «local» =>
    have hkeeps : ¬u.Discards c input queuehead := by
      unfold Discards
      rw [hbackend]
      exact id
    rw [hbackend] at h
    rw [if_neg hkeeps]
    cases h
    have hsame := sameLost_pollLocal c u queuehead
    exact ⟨hsame.field, hsame.count⟩
  | daemon =>
    have hdiscards : u.Discards c input queuehead ↔
        (u.reconnected input.reconnect).DiscardsPacket input.chaosd := by
      unfold Discards
      rw [hbackend]
    rw [hbackend] at h
    obtain ⟨u', hpoll, rfl⟩ := exists_of_map_eq_ok h
    simp only [hdiscards]
    exact pollChaosd_lost hpoll
  | udp =>
    have hdiscards : u.Discards c input queuehead ↔
        (u.pollHybrid c queuehead).1.DiscardsDatagram input.udp := by
      unfold Discards
      rw [hbackend]
    rw [hbackend] at h
    obtain ⟨u', hpoll, rfl⟩ := exists_of_map_eq_ok h
    have hsame := sameLost_pollHybrid c u queuehead
    simp only [hdiscards]
    rw [← hsame.field, ← hsame.count]
    exact pollSocket_lost hpoll

end Uch11

namespace NetworkInterface

variable {c : Uch11Config} {s s' : NetworkInterface} {e : Uch11Event}

/-- Nothing of the field is kept in the CSR, and no packet was discarded. -/
structure Blank (s : NetworkInterface) : Prop where
  field : lostCountField s.uch11.csr = 0
  discarded : s.discarded = 0

/-- So it is at the start. -/
theorem blank_start (interrupts : Interrupts) (chaosdOpen : Bool) :
    (start interrupts chaosdOpen).Blank where
  field := show lostCountField 0 = 0 by decide
  discarded := rfl

/-- What an event makes of the bits of the CSR that are to show the count. -/
def fieldAfter : Uch11Event → BitVec 4 → BitVec 4
  | .writeCsr v, field => (field &&& 4) ||| (lostCountField v &&& 11)
  | _, field => field

/-- What an event makes of the number of packets discarded. -/
def discardedAfter (c : Uch11Config) (s : NetworkInterface) : Uch11Event → ℕ
  | .writeCsr v => if Reception.clears v then 0 else s.discarded
  | .poll input =>
    if s.uch11.Discards c input s.queuehead then s.discarded + 1 else s.discarded
  | _ => s.discarded

theorem step_field (h : step c e s = .ok s') :
    lostCountField s'.uch11.csr = fieldAfter e (lostCountField s.uch11.csr) := by
  cases e with
  | writeCsr v =>
    cases h
    exact (Uch11.setCsr_lost c s.uch11 v).1
  | readCsr =>
    cases h
    rfl
  | putXmitBuffer v =>
    cases h
    exact (Uch11.sameLost_putXmitBuffer s.uch11 v).field
  | startTransmit =>
    unfold step at h
    obtain ⟨r, hsend, rfl⟩ := exists_of_map_eq_ok h
    exact (Uch11.sameLost_xmitPkt hsend).field
  | readBuffer =>
    cases h
    exact (Uch11.sameLost_getRcvBuffer s.uch11).field
  | arrive packet =>
    cases h
    rfl
  | poll input =>
    obtain ⟨r, hpoll, rfl⟩ := exists_of_map_eq_ok h
    exact (Uch11.poll_lost hpoll).1

theorem step_discarded (h : step c e s = .ok s') : s'.discarded = s.discardedAfter c e := by
  cases e with
  | startTransmit =>
    unfold step at h
    obtain ⟨r, -, rfl⟩ := exists_of_map_eq_ok h
    rfl
  | poll input =>
    obtain ⟨r, -, rfl⟩ := exists_of_map_eq_ok h
    rfl
  | _ =>
    cases h
    rfl

/-- `uch11_lost_count` itself is right in every state of every run. -/
theorem lostCount_eq (c : Uch11Config) (interrupts : Interrupts) (chaosdOpen : Bool)
    (es : List Uch11Event) :
    Always (step c) (fun s => s.uch11.lostCount = s.discarded) es
      (start interrupts chaosdOpen) := by
  refine always_of_step (fun e s s' hs h => ?_) rfl
  rw [step_discarded h]
  unfold discardedAfter
  rw [← hs]
  cases e with
  | writeCsr v =>
    cases h
    exact (Uch11.setCsr_lost c s.uch11 v).2
  | putXmitBuffer v =>
    cases h
    exact (Uch11.sameLost_putXmitBuffer s.uch11 v).count
  | startTransmit =>
    unfold step at h
    obtain ⟨r, hsend, rfl⟩ := exists_of_map_eq_ok h
    exact (Uch11.sameLost_xmitPkt hsend).count
  | readBuffer =>
    cases h
    exact (Uch11.sameLost_getRcvBuffer s.uch11).count
  | poll input =>
    obtain ⟨r, hpoll, rfl⟩ := exists_of_map_eq_ok h
    exact (Uch11.poll_lost hpoll).2
  | _ =>
    cases h
    rfl

/-- The processor reads the CSR as it is. -/
theorem lostCountRead_iff : s.LostCountRead ↔
    (lostCountField s.uch11.csr).toNat = min 15 s.discarded ∨
      (lostCountField s.uch11.csr).toNat = s.discarded % 16 := by
  rw [← getCsr_eq]
  refine ⟨fun h => h.count, fun h => ⟨h, fun i _ => ?_⟩⟩
  rw [getCsr_eq]

/-- The bits of LOST COUNT that a write of the CSR stores. -/
theorem lostCountField_and_eq_zero (v : HalfWord) : lostCountField v &&& 11 = 0 ↔
    v.getLsbD 9 = false ∧ v.getLsbD 10 = false ∧ v.getLsbD 12 = false := by
  have hbit (i : ℕ) (hi : i < 4) : (lostCountField v).getLsbD i = v.getLsbD (9 + i) := by
    rw [lostCountField, BitVec.getLsbD_extractLsb', decide_eq_true hi, Bool.true_and]
  have h₀ := hbit 0 (by decide)
  have h₁ := hbit 1 (by decide)
  have h₃ := hbit 3 (by decide)
  rw [← h₀, ← h₁, ← h₃]
  clear h₀ h₁ h₃ hbit
  generalize lostCountField v = field
  revert field
  decide

/-- A step from a state without a count shows the right one if and only if it keeps it so. -/
theorem lostCountRead_step_iff (hs : s.Blank) (h : step c e s = .ok s') :
    s'.LostCountRead ↔ KeepsLostCount c e s := by
  rw [lostCountRead_iff, step_field h, step_discarded h, hs.field]
  unfold discardedAfter
  rw [hs.discarded]
  clear h
  cases e with
  | writeCsr v =>
    change _ ↔ v.getLsbD 9 = false ∧ v.getLsbD 10 = false ∧ v.getLsbD 12 = false
    have hnone : (if Reception.clears v then 0 else 0) = 0 := ite_self 0
    simp only [hnone, fieldAfter]
    rw [← lostCountField_and_eq_zero]
    generalize lostCountField v &&& 11 = field
    revert field
    decide
  | poll input =>
    unfold KeepsLostCount
    simp only [fieldAfter]
    split
    · rename_i hdiscards
      exact iff_of_false (by decide) (not_not_intro hdiscards)
    · rename_i hkeeps
      exact iff_of_true (by decide) hkeeps
  | _ => exact iff_of_true (Or.inl rfl) trivial

/-- Such a step leads to a state without a count. -/
theorem Blank.step (hs : s.Blank) (h : step c e s = .ok s') (hkeeps : KeepsLostCount c e s) :
    s'.Blank := by
  refine ⟨?_, ?_⟩
  · rw [step_field h, hs.field]
    cases e with
    | writeCsr v =>
      simp only [fieldAfter, (lostCountField_and_eq_zero v).mpr hkeeps]
      rfl
    | _ => rfl
  · rw [step_discarded h]
    unfold discardedAfter
    rw [hs.discarded]
    cases e with
    | writeCsr v => exact ite_self 0
    | poll input => exact if_neg hkeeps
    | _ => rfl

end NetworkInterface

/-- In a run of the interface, with any backend, the processor reads the number of packets
discarded in every state if and only if no packet is discarded, and the processor itself stores
no 1 in bits 12, 10 and 9 of the CSR. -/
theorem lost_count_read (c : Uch11Config) (interrupts : Interrupts) (chaosdOpen : Bool)
    (es : List Uch11Event) :
    Always (NetworkInterface.step c) NetworkInterface.LostCountRead es
        (.start interrupts chaosdOpen) ↔
      EveryStep (NetworkInterface.step c) (KeepsLostCount c) es
        (.start interrupts chaosdOpen) := by
  refine always_iff_everyStep (I := NetworkInterface.Blank) (fun s hs => ?_)
    (fun e s s' hs h hkeeps => hs.step h hkeeps)
    (fun e s s' hs h hread => (NetworkInterface.lostCountRead_step_iff hs h).mp hread)
    (NetworkInterface.blank_start interrupts chaosdOpen)
  rw [NetworkInterface.lostCountRead_iff, hs.field, hs.discarded]
  exact Or.inl rfl

/-- A broadcast datagram with nothing but its hardware trailer. -/
def emptyBroadcast : PollInput :=
  ⟨.datagram (some [1, 1, 0, 0, 0, 0, 0, 0, 0, 0]), .nothing, none⟩

/-- A second datagram that arrives while the first one is unread is discarded, and the processor
reads a count of 0. -/
theorem not_lost_count_read : ∃ (c : Uch11Config) (interrupts : Interrupts),
    c.backend = .udp ∧ ¬Always (NetworkInterface.step c) NetworkInterface.LostCountRead
      [.poll emptyBroadcast, .poll emptyBroadcast] (.start interrupts true) := by
  refine ⟨⟨.udp, 0o401, 0o404, false, 0o3040⟩, ⟨0, false⟩, rfl, fun hall => ?_⟩
  generalize hc : (⟨.udp, 0o401, 0o404, false, 0o3040⟩ : Uch11Config) = c at hall
  have hrun : (do
      let s₁ ← NetworkInterface.step c (.poll emptyBroadcast) (.start ⟨0, false⟩ true)
      let s₂ ← NetworkInterface.step c (.poll emptyBroadcast) s₁
      pure (s₂.uch11.csr, s₂.discarded)).toOption = some (0o100000, 1) := by
    rw [← hc]
    decide
  cases h₁ : NetworkInterface.step c (.poll emptyBroadcast) (.start ⟨0, false⟩ true) with
  | error e =>
    rw [h₁] at hrun
    cases hrun
  | ok s₁ =>
    rw [h₁] at hrun
    cases h₂ : NetworkInterface.step c (.poll emptyBroadcast) s₁ with
    | error e =>
      change (NetworkInterface.step c (.poll emptyBroadcast) s₁ >>= _).toOption = _ at hrun
      rw [h₂] at hrun
      cases hrun
    | ok s₂ =>
      change (NetworkInterface.step c (.poll emptyBroadcast) s₁ >>= _).toOption = _ at hrun
      rw [h₂] at hrun
      have hread := NetworkInterface.lostCountRead_iff.mp ((hall.2 s₁ h₁).2 s₂ h₂)
      obtain ⟨hcsr, hdiscarded⟩ := Prod.mk.inj (Option.some.inj hrun)
      rw [hcsr, hdiscarded] at hread
      exact absurd hread (by decide)

end Usim
