import Usim.Lib.Runs
import Usim.Uch11

/-!
# Transmission by the Chaosnet interface

`uch11_xmit_pkt` and the three backends up to the point where a packet leaves the
interface. All copies move whole words, so arrays are measured in words. An access
outside an array, which C leaves undefined, ends the computation.
-/

namespace Usim

/-- The arrays that a transmission uses. -/
inductive Uch11Array
  | xmitBuffer | rcvBuffer | transChudpbuf
  deriving DecidableEq, Repr

/-- The sizes of the arrays. `CHUDP_MAXLEN` is 4 + 16 + 488 + 6 bytes. -/
def Uch11Array.words : Uch11Array → ℕ
  | .xmitBuffer => 4096
  | .rcvBuffer => 4096
  | .transChudpbuf => 257

/-- An access outside an array. -/
structure OutOfBounds where
  array : Uch11Array
  index : ℤ
  deriving DecidableEq, Repr

/-- An access to the word with an index. -/
def Uch11Array.access (a : Uch11Array) (index : ℤ) : Except OutOfBounds Unit :=
  if 0 ≤ index ∧ index < a.words then .ok () else .error ⟨a, index⟩

/-- An access to `n` words from an index on. -/
def Uch11Array.accessRange (a : Uch11Array) (index n : ℕ) : Except OutOfBounds Unit :=
  if index + n ≤ a.words then .ok () else .error ⟨a, max index a.words⟩

/-- `ntohs` and `htons`. -/
def ntohs (w : HalfWord) : HalfWord := w.extractLsb' 0 8 ++ w.extractLsb' 8 8

/-- The loop of `uch11_checksum` that folds the sum to 16 bits. -/
def foldSum (sum : ℕ) : ℕ :=
  if sum / 0x10000 = 0 then sum else foldSum (sum % 0x10000 + sum / 0x10000)
termination_by sum

/-- `uch11_checksum` of `n` words. -/
def uch11Checksum (buffer : ℕ → HalfWord) (n : ℕ) : HalfWord :=
  ~~~BitVec.ofNat 16 (foldSum (((List.range n).map fun i => (ntohs (buffer i)).toNat).sum))

/-- What leaves the interface. -/
inductive Transmission
  /-- A packet for the local program. -/
  | server (words : List HalfWord)
  /-- A packet written to the daemon, behind its length. -/
  | daemon (words : List HalfWord)
  /-- A datagram for the bridge. -/
  | datagram (words : List HalfWord)

namespace Uch11

/-- The first `n` words of the transmit buffer. -/
def xmitWords (u : Uch11) (n : ℕ) : List HalfWord := (List.range n).map u.xmitBuffer

/-- Receive the first `n` words of the transmit buffer. -/
def receiveCopy (u : Uch11) (n : ℕ) : Except OutOfBounds Uch11 := do
  Uch11Array.xmitBuffer.accessRange 0 n
  Uch11Array.rcvBuffer.accessRange 0 n
  pure ({ u with
    rcvBuffer := fun i => if i < n then u.xmitBuffer i else u.rcvBuffer i
    rcvBufferSize := n
    rcvBufferEmpty := false }.rxPkt)

/-- `chaos_send_to_local` up to the local program. -/
def sendToLocal (c : Uch11Config) (u : Uch11) (n : ℕ) :
    Except OutOfBounds (Uch11 × Option Transmission) :=
  if u.loopBack then return (← u.receiveCopy n, none)
  else do
    let daddr := u.xmitBuffer 2
    let u ← if daddr = c.myaddr then u.receiveCopy n else pure u
    if daddr ≠ c.serveraddr then pure (u, none) else pure (u, some (.server (u.xmitWords n)))

/-- `chaos_send_to_chaosd`. -/
def sendToChaosd (c : Uch11Config) (u : Uch11) (n : ℕ) :
    Except OutOfBounds (Uch11 × Option Transmission) :=
  if u.loopBack then return (← u.receiveCopy n, none)
  else do
    Uch11Array.xmitBuffer.access (n - 3)
    let destAddr := u.xmitBuffer (n - 3)
    let u ← if destAddr = c.myaddr then u.receiveCopy n else pure u
    if !u.chaosdOpen then pure (u, none)
    else do
      Uch11Array.xmitBuffer.accessRange 0 n
      pure (u, some (.daemon (u.xmitWords n)))

/-- The place of the hardware trailer behind the data of a packet, in words: the header
has 16 bytes, and the length comes from the low 12 bits of word 1. -/
def trailerOffset (word1 : HalfWord) : ℕ :=
  let offs := 16 + (word1 &&& 0o7777).toNat
  (if offs % 2 = 1 then offs + 1 else offs) / 2

/-- The encapsulation of `chaos_send_to_udp`. The packet is copied behind the two words of
the header, its trailer is given the address of the bridge and a checksum, and its
words are swapped. -/
def encapsulate (c : Uch11Config) (u : Uch11) (n : ℕ) : Except OutOfBounds (List HalfWord) := do
  Uch11Array.transChudpbuf.accessRange 2 n
  let op : ℕ → HalfWord := fun i => if i < n then u.xmitBuffer i else 0
  Uch11Array.transChudpbuf.access (2 + 1)
  let offs := trailerOffset (op 1)
  Uch11Array.transChudpbuf.access (2 + offs)
  let hwdest := op offs
  let op := if hwdest ≠ c.udpBridgeChaddr then Function.update op offs c.udpBridgeChaddr else op
  Uch11Array.transChudpbuf.accessRange 2 (n - 1)
  Uch11Array.transChudpbuf.access (2 + offs + 2)
  let op := Function.update op (offs + 2) (ntohs (uch11Checksum op (n - 1)))
  Uch11Array.transChudpbuf.accessRange 2 n
  Uch11Array.transChudpbuf.accessRange 0 (n + 2)
  pure (0x0101 :: 0 :: (List.range n).map fun i => ntohs (op i))

/-- `chaos_send_to_udp`. -/
def sendToUdp (c : Uch11Config) (u : Uch11) (n : ℕ) :
    Except OutOfBounds (Uch11 × Option Transmission) :=
  if u.loopBack then return (← u.receiveCopy n, none)
  else if c.hybridUdpAndLocal ∧ u.xmitBuffer 2 = c.serveraddr then u.sendToLocal c n
  else do
    Uch11Array.xmitBuffer.access (n - 3)
    let destAddr := u.xmitBuffer (n - 3)
    if Uch11Array.transChudpbuf.words < n then pure (u, none)
    else do
      let received := decide (destAddr = c.myaddr) || decide (destAddr = 0)
      let u ← if received then u.receiveCopy n else pure u
      if received && decide (destAddr ≠ 0) then pure (u, none)
      else if !u.chaosdOpen then pure (u, none)
      else return (u, some (.datagram (← u.encapsulate c n)))

/-- `uch11_send`. -/
def send (c : Uch11Config) (u : Uch11) (n : ℕ) :
    Except OutOfBounds (Uch11 × Option Transmission) :=
  match c.backend with
  | .local => u.sendToLocal c n
  | .daemon => u.sendToChaosd c n
  | .udp => u.sendToUdp c n

/-- The source address and the checksum behind the words in the transmit buffer. -/
def appendTrailer (c : Uch11Config) (u : Uch11) : Uch11 :=
  let n := u.xmitBufferPtr
  let xmitBuffer := Function.update u.xmitBuffer n c.myaddr
  { u with
    xmitBuffer := Function.update xmitBuffer (n + 1) (uch11Checksum xmitBuffer (n + 1))
    xmitBufferSize := n + 2 }

/-- `uch11_xmit_pkt`. -/
def xmitPkt (c : Uch11Config) (u : Uch11) : Except OutOfBounds (Uch11 × Option Transmission) := do
  Uch11Array.xmitBuffer.access u.xmitBufferPtr
  Uch11Array.xmitBuffer.accessRange 0 (u.xmitBufferPtr + 1)
  Uch11Array.xmitBuffer.access (u.xmitBufferPtr + 1)
  let u := u.appendTrailer c
  let (u, sent) ← u.send c u.xmitBufferSize
  pure ({ u with xmitBufferPtr := 0 }.xmitDoneIntr, sent)

end Uch11

/-- What the processor does with the transmitter. -/
inductive TransmitEvent
  | writeCsr (v : HalfWord)
  | putXmitBuffer (v : HalfWord)
  /-- The read of 0764152 that starts the transmission. -/
  | startTransmit

namespace Uch11

/-- One access, as a step of a run. -/
def transmitStep (c : Uch11Config) (e : TransmitEvent) (u : Uch11) : Except OutOfBounds Uch11 :=
  match e with
  | .writeCsr v => .ok (u.setCsr c v)
  | .putXmitBuffer v => do
    if u.xmitBufferPtr < 4096 then Uch11Array.xmitBuffer.access u.xmitBufferPtr
    pure (u.putXmitBuffer v)
  | .startTransmit => return (← u.xmitPkt c).1

/-- The packet of a `START` fits: its two last words into the transmit buffer, and what
the backend does with it into the arrays. A packet that is not looped back needs a
destination word, unless it is for the local program. A datagram that is sent, which is
none too long and none for this host only, has room for its words and its trailer. -/
def Fits (c : Uch11Config) (u : Uch11) : Prop :=
  let n := u.xmitBufferPtr
  let packet := (u.appendTrailer c).xmitBuffer
  n + 2 ≤ 4096 ∧
    (u.loopBack ∨
      match c.backend with
      | .local => True
      | .daemon => 1 ≤ n
      | .udp =>
        (c.hybridUdpAndLocal ∧ packet 2 = c.serveraddr) ∨
          (1 ≤ n ∧
            (257 < n + 2 ∨ (u.xmitBuffer (n - 1) = c.myaddr ∧ u.xmitBuffer (n - 1) ≠ 0) ∨
              ¬u.chaosdOpen ∨ (n + 2 ≤ 255 ∧ (packet 1 &&& 0o7777).toNat ≤ 488))))

/-- The packet fits if the access starts a transmission. -/
def TransmitFits (c : Uch11Config) : TransmitEvent → Uch11 → Prop
  | .startTransmit, u => u.Fits c
  | _, _ => True

end Uch11

/-- A computation that returns. -/
def InBounds {α : Type} (x : Except OutOfBounds α) : Prop := ∃ a, x = .ok a

section InBounds

variable {α β : Type}

@[simp] theorem inBounds_ok (a : α) : InBounds (.ok a : Except OutOfBounds α) := ⟨a, rfl⟩

@[simp] theorem inBounds_pure (a : α) : InBounds (pure a : Except OutOfBounds α) := ⟨a, rfl⟩

/-- A check before a computation. -/
theorem inBounds_check {x : Except OutOfBounds Unit} {y : Except OutOfBounds α} :
    InBounds (x >>= fun _ => y) ↔ InBounds x ∧ InBounds y := by
  cases x with
  | ok a => exact ⟨fun h => ⟨⟨(), rfl⟩, h⟩, fun h => h.2⟩
  | error e => exact ⟨fun ⟨_, h⟩ => (nomatch h), fun ⟨⟨_, h⟩, _⟩ => (nomatch h)⟩

/-- A computation that goes on with one that returns. -/
theorem inBounds_bind {x : Except OutOfBounds α} {f : α → Except OutOfBounds β}
    (hf : ∀ a, InBounds (f a)) : InBounds (x >>= f) ↔ InBounds x := by
  cases x with
  | ok a => exact ⟨fun _ => ⟨a, rfl⟩, fun _ => hf a⟩
  | error e => exact ⟨fun ⟨_, h⟩ => (nomatch h), fun ⟨_, h⟩ => (nomatch h)⟩

/-- A word within the array. -/
theorem inBounds_access {a : Uch11Array} {index : ℤ} :
    InBounds (a.access index) ↔ 0 ≤ index ∧ index < a.words := by
  unfold Uch11Array.access
  split
  · exact ⟨fun _ => ‹_›, fun _ => ⟨(), rfl⟩⟩
  · exact ⟨fun ⟨_, h⟩ => (nomatch h), fun h => absurd h ‹_›⟩

/-- Words within the array. -/
theorem inBounds_accessRange {a : Uch11Array} {index n : ℕ} :
    InBounds (a.accessRange index n) ↔ index + n ≤ a.words := by
  unfold Uch11Array.accessRange
  split
  · exact ⟨fun _ => ‹_›, fun _ => ⟨(), rfl⟩⟩
  · exact ⟨fun ⟨_, h⟩ => (nomatch h), fun h => absurd h ‹_›⟩

end InBounds

namespace Uch11

variable {c : Uch11Config} {u : Uch11} {n : ℕ}

/-- The interface after it received its own packet. -/
def received (u : Uch11) (n : ℕ) : Uch11 :=
  { u with
    rcvBuffer := fun i => if i < n then u.xmitBuffer i else u.rcvBuffer i
    rcvBufferSize := n
    rcvBufferEmpty := false }.rxPkt

/-- Receiving touches nothing that a transmission reads. -/
theorem rxPkt_keeps (u : Uch11) :
    u.rxPkt.xmitBuffer = u.xmitBuffer ∧ u.rxPkt.chaosdOpen = u.chaosdOpen := by
  unfold rxPkt
  simp only
  split <;> exact ⟨rfl, rfl⟩

theorem received_keeps (u : Uch11) (n : ℕ) :
    (u.received n).xmitBuffer = u.xmitBuffer ∧ (u.received n).chaosdOpen = u.chaosdOpen :=
  rxPkt_keeps _

/-- A packet is received if it fits into the buffers. -/
theorem receiveCopy_eq (h : n ≤ 4096) : u.receiveCopy n = .ok (u.received n) := by
  have hx : Uch11Array.xmitBuffer.accessRange 0 n = .ok () := by
    simp only [Uch11Array.accessRange, Uch11Array.words, Nat.zero_add, if_pos h]
  have hr : Uch11Array.rcvBuffer.accessRange 0 n = .ok () := by
    simp only [Uch11Array.accessRange, Uch11Array.words, Nat.zero_add, if_pos h]
  unfold receiveCopy
  rw [hx, hr]
  rfl

/-- The packet for the local program is within the buffers. -/
theorem inBounds_sendToLocal (h : n ≤ 4096) : InBounds (u.sendToLocal c n) := by
  unfold sendToLocal
  simp only [receiveCopy_eq h]
  split
  · exact inBounds_ok _
  · split
    · split
      · exact inBounds_ok _
      · exact inBounds_ok _
    · split
      · exact inBounds_ok _
      · exact inBounds_ok _

/-- The packet for the daemon needs a third word from the end. -/
theorem inBounds_sendToChaosd (h : n ≤ 4096) :
    InBounds (u.sendToChaosd c n) ↔ u.loopBack ∨ 3 ≤ n := by
  have hrange : InBounds (Uch11Array.xmitBuffer.accessRange 0 n) := by
    rw [inBounds_accessRange, Nat.zero_add]
    exact h
  have hdest : InBounds (Uch11Array.xmitBuffer.access (n - 3)) ↔ 3 ≤ n := by
    rw [inBounds_access]
    simp only [Uch11Array.words]
    omega
  unfold sendToChaosd
  simp only [receiveCopy_eq h]
  by_cases hl : u.loopBack
  · simp only [if_pos hl]
    exact ⟨fun _ => .inl hl, fun _ => inBounds_ok _⟩
  · simp only [if_neg hl]
    rw [inBounds_check, hdest, or_iff_right hl, and_iff_left]
    split
    · change InBounds (if _ then _ else _)
      split
      · exact inBounds_ok _
      · exact inBounds_check.mpr ⟨hrange, inBounds_ok _⟩
    · change InBounds (if _ then _ else _)
      split
      · exact inBounds_ok _
      · exact inBounds_check.mpr ⟨hrange, inBounds_ok _⟩

/-- The trailer of a datagram is within the array up to the largest packet. -/
theorem trailerOffset_le (w : HalfWord) :
    trailerOffset w ≤ 252 ↔ (w &&& 0o7777).toNat ≤ 488 := by
  unfold trailerOffset
  simp only
  split <;> omega

/-- A packet is encapsulated if it is not too long, and its data neither. -/
theorem inBounds_encapsulate (h : 2 ≤ n) :
    InBounds (u.encapsulate c n) ↔ n ≤ 255 ∧ (u.xmitBuffer 1 &&& 0o7777).toNat ≤ 488 := by
  have h1 : (if 1 < n then u.xmitBuffer 1 else 0) = u.xmitBuffer 1 := if_pos (by omega)
  unfold encapsulate
  simp only [inBounds_check, inBounds_access, inBounds_accessRange, Uch11Array.words, h1]
  rw [← trailerOffset_le]
  generalize trailerOffset (u.xmitBuffer 1) = offs
  simp only [inBounds_pure, and_true]
  omega

/-- The packet for the network is within the arrays, unless it is one for the bridge that is
too long. -/
theorem inBounds_sendToUdp (h2 : 2 ≤ n) (h : n ≤ 4096) :
    InBounds (u.sendToUdp c n) ↔ u.loopBack ∨
      (c.hybridUdpAndLocal ∧ u.xmitBuffer 2 = c.serveraddr) ∨
        (3 ≤ n ∧ (257 < n ∨ (u.xmitBuffer (n - 3) = c.myaddr ∧ u.xmitBuffer (n - 3) ≠ 0) ∨
          ¬u.chaosdOpen ∨ (n ≤ 255 ∧ (u.xmitBuffer 1 &&& 0o7777).toNat ≤ 488))) := by
  have hdest : InBounds (Uch11Array.xmitBuffer.access (n - 3)) ↔ 3 ≤ n := by
    rw [inBounds_access]
    simp only [Uch11Array.words]
    omega
  unfold sendToUdp
  simp only [receiveCopy_eq h]
  by_cases hl : u.loopBack
  · simp only [if_pos hl]
    exact ⟨fun _ => .inl hl, fun _ => inBounds_ok _⟩
  simp only [if_neg hl]
  rw [or_iff_right hl]
  by_cases hs : c.hybridUdpAndLocal ∧ u.xmitBuffer 2 = c.serveraddr
  · simp only [if_pos hs]
    exact ⟨fun _ => .inl hs, fun _ => inBounds_sendToLocal h⟩
  simp only [if_neg hs]
  rw [or_iff_right hs, inBounds_check, hdest]
  apply and_congr_right
  intro _
  by_cases hn : Uch11Array.transChudpbuf.words < n
  · simp only [if_pos hn]
    exact ⟨fun _ => .inl hn, fun _ => inBounds_ok _⟩
  simp only [if_neg hn]
  rw [or_iff_right (show ¬257 < n from hn)]
  -- What is sent does not depend on whether the packet was received here, too.
  have htail : ∀ u' : Uch11, u'.xmitBuffer = u.xmitBuffer → u'.chaosdOpen = u.chaosdOpen →
      (InBounds (if !u'.chaosdOpen then pure (u', none)
          else do return (u', some (Transmission.datagram (← u'.encapsulate c n)))) ↔
        ¬u.chaosdOpen ∨ (n ≤ 255 ∧ (u.xmitBuffer 1 &&& 0o7777).toNat ≤ 488)) := by
    intro u' hx ho
    rw [← hx, ← ho]
    cases u'.chaosdOpen
    · exact ⟨fun _ => .inl (by decide), fun _ => inBounds_ok _⟩
    · simp only [Bool.not_true, Bool.false_eq_true, if_false, not_true, false_or]
      rw [inBounds_bind fun _ => inBounds_pure _, inBounds_encapsulate h2]
  by_cases hd : u.xmitBuffer (n - 3) = 0
  · simp only [hd, decide_true, Bool.or_true, if_true, ne_eq, not_true, and_false, false_or,
      decide_false, Bool.and_false, Bool.false_eq_true, if_false]
    exact htail _ (received_keeps u n).1 (received_keeps u n).2
  by_cases hm : u.xmitBuffer (n - 3) = c.myaddr
  · simp only [hm, decide_true, Bool.true_or, if_true, ne_eq, true_and]
    rw [hm] at hd
    simp only [hd, not_false_eq_true, decide_true, Bool.and_true, if_true, true_or, iff_true]
    exact inBounds_ok _
  · simp only [hm, hd, decide_false, Bool.or_false, Bool.false_eq_true, if_false, Bool.false_and,
      false_and, false_or]
    exact htail u rfl rfl

/-- The packet that is sent is within the arrays, as the backend uses it. -/
theorem inBounds_send (h2 : 2 ≤ n) (h : n ≤ 4096) :
    InBounds (u.send c n) ↔ u.loopBack ∨
      match c.backend with
      | .local => True
      | .daemon => 3 ≤ n
      | .udp =>
        (c.hybridUdpAndLocal ∧ u.xmitBuffer 2 = c.serveraddr) ∨
          (3 ≤ n ∧
            (257 < n ∨ (u.xmitBuffer (n - 3) = c.myaddr ∧ u.xmitBuffer (n - 3) ≠ 0) ∨
              ¬u.chaosdOpen ∨ (n ≤ 255 ∧ (u.xmitBuffer 1 &&& 0o7777).toNat ≤ 488))) := by
  unfold send
  cases c.backend with
  | «local» => exact ⟨fun _ => .inr trivial, fun _ => inBounds_sendToLocal h⟩
  | daemon => exact inBounds_sendToChaosd h
  | udp => exact inBounds_sendToUdp h2 h

/-- A transmission stays within the arrays if and only if the packet fits. -/
theorem inBounds_xmitPkt : InBounds (u.xmitPkt c) ↔ u.Fits c := by
  have hlast : 1 ≤ u.xmitBufferPtr →
      (u.appendTrailer c).xmitBuffer (u.xmitBufferPtr - 1) =
        u.xmitBuffer (u.xmitBufferPtr - 1) := by
    intro h1
    simp only [appendTrailer]
    rw [Function.update_of_ne (by omega), Function.update_of_ne (by omega)]
  unfold xmitPkt Fits
  rw [inBounds_check, inBounds_check, inBounds_check, inBounds_access, inBounds_accessRange,
    inBounds_access]
  simp only
  rw [inBounds_bind fun _ => inBounds_pure _]
  have hsize : (u.appendTrailer c).xmitBufferSize = u.xmitBufferPtr + 2 := rfl
  have hback : (u.appendTrailer c).loopBack = u.loopBack := rfl
  have hopen : (u.appendTrailer c).chaosdOpen = u.chaosdOpen := rfl
  by_cases hn : u.xmitBufferPtr + 2 ≤ 4096
  · rw [hsize, inBounds_send (by omega) hn, hback, hopen]
    have hidx : u.xmitBufferPtr + 2 - 3 = u.xmitBufferPtr - 1 := by omega
    have h3 : 3 ≤ u.xmitBufferPtr + 2 ↔ 1 ≤ u.xmitBufferPtr := by omega
    have hudp : ∀ p : HalfWord → Prop,
        (1 ≤ u.xmitBufferPtr ∧ p ((u.appendTrailer c).xmitBuffer (u.xmitBufferPtr - 1))) ↔
          (1 ≤ u.xmitBufferPtr ∧ p (u.xmitBuffer (u.xmitBufferPtr - 1))) :=
      fun p => and_congr_right fun h1 => by rw [hlast h1]
    simp only [Uch11Array.words, hidx, h3]
    rw [hudp fun w => 257 < u.xmitBufferPtr + 2 ∨ (w = c.myaddr ∧ w ≠ 0) ∨ ¬u.chaosdOpen ∨
      (u.xmitBufferPtr + 2 ≤ 255 ∧ ((u.appendTrailer c).xmitBuffer 1 &&& 0o7777).toNat ≤ 488)]
    exact ⟨fun ⟨_, _, _, h⟩ => ⟨hn, h⟩,
      fun ⟨_, h⟩ => ⟨⟨by omega, by omega⟩, by omega, ⟨by omega, by omega⟩, h⟩⟩
  · refine ⟨fun ⟨_, _, h, _⟩ => ?_, fun h => absurd h.1 hn⟩
    simp only [Uch11Array.words] at h
    omega

/-- A write of the transmit buffer checks its place itself. -/
theorem transmitStep_putXmitBuffer (v : HalfWord) (u : Uch11) :
    transmitStep c (.putXmitBuffer v) u = .ok (u.putXmitBuffer v) := by
  unfold transmitStep
  simp only
  split
  · have hword : Uch11Array.xmitBuffer.access u.xmitBufferPtr = .ok () :=
      if_pos ⟨by omega, Int.ofNat_lt.mpr ‹_›⟩
    rw [hword]
    rfl
  · rfl

/-- An access of the processor stays within the arrays if and only if the packet that it sends
fits. -/
theorem transmitStep_returns (e : TransmitEvent) (u : Uch11) :
    (∃ u', transmitStep c e u = .ok u') ↔ TransmitFits c e u := by
  cases e with
  | writeCsr v => exact ⟨fun _ => trivial, fun _ => ⟨_, rfl⟩⟩
  | putXmitBuffer v => exact ⟨fun _ => trivial, fun _ => ⟨_, transmitStep_putXmitBuffer v u⟩⟩
  | startTransmit => exact (inBounds_bind fun _ => inBounds_pure _).trans inBounds_xmitPkt

/-- In every run of accesses by the processor, each index that the transmission uses is within
its array if and only if every packet that it starts to transmit fits. -/
theorem transmit_in_bounds (c : Uch11Config) (interrupts : Interrupts) (chaosdOpen : Bool)
    (es : List TransmitEvent) :
    Lib.Completes (transmitStep c) es (init interrupts chaosdOpen) ↔
      Lib.EveryAttempt (transmitStep c) (TransmitFits c) es (init interrupts chaosdOpen) :=
  Lib.completes_iff_everyAttempt transmitStep_returns

/-- Two words are written, the second one as a length of 4095, and sent as a datagram: the
trailer is taken from behind the end of the datagram buffer. -/
theorem transmit_out_of_bounds :
    ∃ (c : Uch11Config) (interrupts : Interrupts),
      ¬Lib.Completes (transmitStep c)
        [.putXmitBuffer 0, .putXmitBuffer 0o7777, .startTransmit] (init interrupts true) := by
  refine ⟨⟨.udp, 0o401, 0o404, false, 0o3040⟩, ⟨0, false⟩, ?_⟩
  rintro ⟨u₁, h₁, u₂, h₂, u₃, h₃, -⟩
  rw [transmitStep_putXmitBuffer] at h₁ h₂
  obtain rfl := Except.ok.inj h₁
  obtain rfl := Except.ok.inj h₂
  obtain ⟨-, hback | ⟨hhybrid, -⟩ | ⟨-, hlong | ⟨hme, -⟩ | hclosed | ⟨-, hlength⟩⟩⟩ :=
    (transmitStep_returns _ _).mp ⟨u₃, h₃⟩
  · exact absurd hback (by decide)
  · exact absurd hhybrid (by decide)
  · exact absurd hlong (by decide)
  · exact absurd hme (by decide)
  · exact hclosed rfl
  · exact absurd hlength (by decide)

end Uch11

end Usim
