import Usim.ChaosConnection
import Usim.Lib.Runs
import Usim.Uch11

/-!
# Reception from the local Chaosnet program

`chaos_poll_local` of `uch11-local.c`, and runs in which the local program queues
packets, the interface is polled, and the processor writes the CSR and reads the
receive buffer.
-/

namespace Usim

namespace ChaosPacket

/-- The header of a packet as words. -/
def header (p : ChaosPacket) : List HalfWord :=
  [p.op ++ p.type, p.fc ++ p.len, p.daddr, p.didx, p.saddr, p.sidx, p.pkn, p.ackn]

/-- The length of a packet in words, without the hardware header. -/
def words (p : ChaosPacket) : ℕ := (p.len.toNat + 16 + 1) / 2

/-- The word of a packet at an offset. -/
def word (p : ChaosPacket) (i : ℕ) : HalfWord :=
  if i < 8 then p.header.getD i 0 else p.cdata (i - 8)

/-- What the processor is to read: the words of the packet and the hardware header. -/
def received (p : ChaosPacket) : List HalfWord :=
  (List.range p.words).map p.word ++ [p.daddr, p.saddr, 0]

end ChaosPacket

namespace Uch11

/-- The receive buffer after a packet and its hardware header are copied into it. -/
def copyPacket (u : Uch11) (p : ChaosPacket) : ℕ → HalfWord :=
  let size := p.words
  let rcvBuffer : ℕ → HalfWord := fun i => if i < size then p.word i else u.rcvBuffer i
  let rcvBuffer := Function.update rcvBuffer size p.daddr
  let rcvBuffer := Function.update rcvBuffer (size + 1) p.saddr
  Function.update rcvBuffer (size + 2) 0

/-- The part of `chaos_poll_local` for a packet for this host. -/
def receivePacket (u : Uch11) (p : ChaosPacket) : Uch11 :=
  { u with
    rcvBuffer := u.copyPacket p
    rcvBufferSize := p.words + 3
    rcvBufferEmpty := false }.rxPkt

/-- The packet that `chaos_poll_local` takes from the queue, and the rest of it. -/
def pollTakes (u : Uch11) (queuehead : List ChaosPacket) :
    Option (ChaosPacket × List ChaosPacket) :=
  if !u.rcvBufferEmpty then none
  else match queuehead with
    | [] => none
    | packet :: rest => if u.receiveEnable then some (packet, rest) else none

/-- `chaos_poll_local`. A packet that is not for this host is ignored. -/
def pollLocal (c : Uch11Config) (u : Uch11) (queuehead : List ChaosPacket) :
    Uch11 × List ChaosPacket :=
  match u.pollTakes queuehead with
  | none => (u, queuehead)
  | some (packet, rest) =>
    if packet.daddr ≠ c.myaddr then (u, rest) else (u.receivePacket packet, rest)

end Uch11

/-- What happens to the receiver. -/
inductive ReceiveEvent
  /-- `chaos_queue`. -/
  | arrive (packet : ChaosPacket)
  /-- `chaos_poll_local`. -/
  | poll
  | writeCsr (v : HalfWord)
  | readBuffer

/-- The receiver and the queue of packets for it, with a record of what happened. -/
structure Reception where
  uch11 : Uch11
  queuehead : List ChaosPacket
  /-- The packets so far. -/
  arrived : List ChaosPacket
  /-- How many of them were taken from the queue. -/
  taken : ℕ
  /-- Those presented to the processor, with their numbers. -/
  presented : List (ℕ × ChaosPacket)
  /-- The packet of which some words are unread. -/
  reading : Option ChaosPacket
  /-- How many of its words were read. -/
  wordsRead : ℕ
  /-- The CSR was written with `CHAOS_CSR_RECEIVE_ENABLE` after some of them were read. -/
  rewound : Bool
  /-- The last packet was cleared before its last word was read. -/
  cutOff : Bool

namespace Reception

/-- Nothing has happened yet. -/
def start (interrupts : Interrupts) (chaosdOpen : Bool) : Reception :=
  { uch11 := .init interrupts chaosdOpen, queuehead := [], arrived := [], taken := 0
    presented := [], reading := none, wordsRead := 0, rewound := false, cutOff := false }

/-- A packet is presented. -/
def notePresented (s : Reception) (packet : ChaosPacket) : Reception :=
  { s with
    presented := s.presented ++ [(s.taken, packet)]
    reading := some packet, wordsRead := 0, rewound := false, cutOff := false }

/-- A packet is taken from the queue. -/
def noteTaken (c : Uch11Config) (s : Reception) (packet : ChaosPacket) : Reception :=
  let s := if packet.daddr = c.myaddr then s.notePresented packet else s
  { s with taken := s.taken + 1 }

/-- `CHAOS_CSR_RESET` or `CHAOS_CSR_RECEIVER_CLEAR` is written. -/
def clears (v : HalfWord) : Bool := v.getLsbD 13 || v.getLsbD 3

/-- The CSR is written. -/
def noteCsr (s : Reception) (v : HalfWord) : Reception :=
  if s.reading.isNone then s
  else if clears v then { s with reading := none, cutOff := true }
  else { s with rewound := s.rewound || (v.getLsbD 4 && decide (0 < s.wordsRead)) }

/-- A word is read. -/
def noteRead (s : Reception) : Reception :=
  match s.reading with
  | none => s
  | some packet =>
    { s with
      wordsRead := s.wordsRead + 1
      reading := if s.wordsRead + 1 = packet.received.length then none else s.reading }

/-- One event. -/
def next (c : Uch11Config) (s : Reception) : ReceiveEvent → Reception
  | .arrive packet =>
    { s with queuehead := s.queuehead ++ [packet], arrived := s.arrived ++ [packet] }
  | .poll =>
    let noted := match s.uch11.pollTakes s.queuehead with
      | none => s
      | some (packet, _) => s.noteTaken c packet
    let (uch11, queuehead) := s.uch11.pollLocal c s.queuehead
    { noted with uch11 := uch11, queuehead := queuehead }
  | .writeCsr v => { s.noteCsr v with uch11 := s.uch11.setCsr c v }
  | .readBuffer => { s.noteRead with uch11 := s.uch11.getRcvBuffer.2 }

/-- One event, as a step of a run. -/
def step (c : Uch11Config) (e : ReceiveEvent) (s : Reception) : Except Empty Reception :=
  .ok (s.next c e)

/-- The packets presented are packets for this host, in the order of their arrival, each
once. -/
structure InOrder (c : Uch11Config) (s : Reception) : Prop where
  once : (s.presented.map Prod.fst).Pairwise (· < ·)
  arrived : ∀ p ∈ s.presented, s.arrived[p.1]? = some p.2 ∧ p.2.daddr = c.myaddr

/-- A packet is presented: the receiver is done, and the buffer holds its words. -/
structure Presents (u : Uch11) (packet : ChaosPacket) : Prop where
  done : u.receiveDone
  first : u.rcvBufferPtr = 0
  size : u.rcvBufferSize = packet.received.length
  words : ∀ i < packet.received.length, packet.received[i]? = some (u.rcvBuffer i)

/-- What an event is to do. A poll presents nothing while words are unread, and otherwise, if
the receiver is enabled, it takes the next packet and presents it if it is for this
host. A read returns the next word of the packet. -/
def Receives (c : Uch11Config) : ReceiveEvent → Reception → Prop
  | .poll, s =>
    (s.reading.isSome → s.uch11.pollLocal c s.queuehead = (s.uch11, s.queuehead)) ∧
      (s.reading.isNone → s.uch11.receiveEnable → ∀ packet rest, s.queuehead = packet :: rest →
        (s.uch11.pollLocal c s.queuehead).2 = rest ∧
          (packet.daddr = c.myaddr → Presents (s.uch11.pollLocal c s.queuehead).1 packet))
  | .readBuffer, s => ∀ packet, s.reading = some packet →
      s.uch11.rcvBufferPtr = s.wordsRead ∧
        packet.received[s.wordsRead]? = some s.uch11.getRcvBuffer.1
  | _, _ => True

/-- No enabled receiver is polled with packets waiting after one was cleared before its last
word was read, and no word is read after the CSR was written in the middle of a packet
with the receiver enabled. -/
def Undisturbed : ReceiveEvent → Reception → Prop
  | .poll, s => ¬(s.cutOff ∧ s.uch11.receiveEnable ∧ s.queuehead ≠ [])
  | .readBuffer, s => ¬(s.reading.isSome ∧ s.rewound)
  | _, _ => True

end Reception

namespace Uch11

variable {c : Uch11Config} {u : Uch11} {v : HalfWord}

/-- What the processor reads from. -/
structure SameBuffer (u' u : Uch11) : Prop where
  buffer : u'.rcvBuffer = u.rcvBuffer
  empty : u'.rcvBufferEmpty = u.rcvBufferEmpty

/-- Presenting again starts from the first word. -/
theorem rxPkt_buffer (u : Uch11) : SameBuffer u.rxPkt u ∧
    u.rxPkt.rcvBufferSize = u.rcvBufferSize ∧ u.rxPkt.rcvBufferPtr = 0 := by
  unfold rxPkt
  simp only
  split <;> exact ⟨⟨rfl, rfl⟩, rfl, rfl⟩

/-- A packet that is not empty makes the receiver done. -/
theorem rxPkt_receiveDone (h : 0 < u.rcvBufferSize) : u.rxPkt.receiveDone := by
  unfold rxPkt receiveDone
  simp only [if_pos h, BitVec.getLsbD_or]
  simp

/-- The bit of the CSR that `uch11_set_csr` tests for a reset is the one written. -/
theorem masked_reset (csr v : HalfWord) :
    ((csr &&& csrMask) ||| (v &&& ~~~csrMask)).getLsbD 13 = v.getLsbD 13 := by
  simp [csrMask]

/-- So is the one for the receiver, which no part of `uch11_set_csr` changes. -/
theorem masked_receiveEnable (csr v : HalfWord) :
    ((csr &&& csrMask) ||| (v &&& ~~~csrMask)).getLsbD 4 = v.getLsbD 4 := by
  simp [csrMask]

/-- A reset empties the buffer, without marking it as empty. -/
theorem reset_buffer (c : Uch11Config) (u : Uch11) :
    SameBuffer (u.reset c) u ∧ (u.reset c).rcvBufferSize = 0 ∧ (u.reset c).rcvBufferPtr = 0 ∧
      (u.reset c).receiveEnable = u.receiveEnable := by
  have hcsr : ((u.csr &&& ~~~(0o20000 ||| 0o100000)) ||| 0o200).getLsbD 4 = u.csr.getLsbD 4 := by
    simp
  unfold reset forceReconnect
  split <;> exact ⟨⟨rfl, rfl⟩, rfl, rfl, hcsr⟩

/-- So does clearing the receiver. -/
theorem receiverClear_buffer (u : Uch11) :
    SameBuffer u.receiverClear u ∧ u.receiverClear.rcvBufferSize = 0 ∧
      u.receiverClear.rcvBufferPtr = 0 ∧ u.receiverClear.receiveEnable = u.receiveEnable := by
  refine ⟨⟨rfl, rfl⟩, rfl, rfl, ?_⟩
  simp [receiverClear, receiveEnable]

/-- Clearing the transmitter does not touch the receiver. -/
theorem transmitterClear_receiveEnable (u : Uch11) :
    u.transmitterClear.receiveEnable = u.receiveEnable := by
  simp [transmitterClear, receiveEnable]

/-- The part of `uch11_set_csr` that may clear the receiver. -/
def clearedBy (c : Uch11Config) (u : Uch11) (v : HalfWord) : Uch11 :=
  let u := { u with csr := (u.csr &&& csrMask) ||| (v &&& ~~~csrMask) }
  let u := if u.csr.getLsbD 13 then u.reset c else u
  if v.getLsbD 3 then u.receiverClear else u

/-- The part that enables the receiver. -/
def enabledBy (u : Uch11) (v : HalfWord) : Uch11 :=
  let u := if v.getLsbD 8 || v.getLsbD 7 then u.transmitterClear else u
  if u.receiveEnable then u.receiverEnabled else u

/-- The receiver after `uch11_set_csr` is the one after these parts. -/
theorem setCsr_buffer (c : Uch11Config) (u : Uch11) (v : HalfWord) :
    SameBuffer (u.setCsr c v) ((u.clearedBy c v).enabledBy v) ∧
      (u.setCsr c v).rcvBufferSize = ((u.clearedBy c v).enabledBy v).rcvBufferSize ∧
      (u.setCsr c v).rcvBufferPtr = ((u.clearedBy c v).enabledBy v).rcvBufferPtr := by
  change SameBuffer (if ((u.clearedBy c v).enabledBy v).transmitEnable then _ else _) _ ∧
    (if ((u.clearedBy c v).enabledBy v).transmitEnable then _ else _ : Uch11).rcvBufferSize = _ ∧
    (if ((u.clearedBy c v).enabledBy v).transmitEnable then _ else _ : Uch11).rcvBufferPtr = _
  split <;> exact ⟨⟨rfl, rfl⟩, rfl, rfl⟩

/-- A clearing CSR word leaves the buffer empty. -/
theorem clearedBy_of_clears (h : Reception.clears v) :
    SameBuffer (u.clearedBy c v) u ∧ (u.clearedBy c v).rcvBufferSize = 0 ∧
      (u.clearedBy c v).receiveEnable = v.getLsbD 4 := by
  unfold clearedBy
  simp only [masked_reset]
  have hreset := reset_buffer c { u with csr := (u.csr &&& csrMask) ||| (v &&& ~~~csrMask) }
  have hre : Uch11.receiveEnable { u with csr := (u.csr &&& csrMask) ||| (v &&& ~~~csrMask) } =
      v.getLsbD 4 := masked_receiveEnable u.csr v
  rw [hre] at hreset
  by_cases h13 : v.getLsbD 13
  · simp only [if_pos h13]
    obtain ⟨hsame, hsize, -, henable⟩ := hreset
    split
    · obtain ⟨hsame', hsize', -, henable'⟩ := receiverClear_buffer
        (reset c { u with csr := (u.csr &&& csrMask) ||| (v &&& ~~~csrMask) })
      exact ⟨⟨hsame'.buffer.trans hsame.buffer, hsame'.empty.trans hsame.empty⟩, hsize',
        henable'.trans henable⟩
    · exact ⟨⟨hsame.buffer, hsame.empty⟩, hsize, henable⟩
  · have h3 : v.getLsbD 3 := by
      rw [Reception.clears, Bool.or_eq_true] at h
      exact h.resolve_left h13
    simp only [if_neg h13, if_pos h3]
    obtain ⟨hsame, hsize, -, henable⟩ := receiverClear_buffer
      { u with csr := (u.csr &&& csrMask) ||| (v &&& ~~~csrMask) }
    exact ⟨⟨hsame.buffer, hsame.empty⟩, hsize, henable.trans hre⟩

/-- Any other leaves it. -/
theorem clearedBy_of_not_clears (h : ¬Reception.clears v) :
    u.clearedBy c v = { u with csr := (u.csr &&& csrMask) ||| (v &&& ~~~csrMask) } := by
  rw [Reception.clears, Bool.or_eq_true, not_or] at h
  unfold clearedBy
  simp only [masked_reset, if_neg h.1, if_neg h.2]

/-- Enabling the receiver presents what is in the buffer again. -/
theorem receiverEnabled_buffer (u : Uch11) :
    SameBuffer u.receiverEnabled u ∧
      (u.rcvBufferSize = 0 → u.receiverEnabled.rcvBufferSize = 0) ∧
      (u.rcvBufferEmpty = false → u.receiverEnabled.rcvBufferSize = u.rcvBufferSize ∧
        (0 < u.rcvBufferSize → u.receiverEnabled.rcvBufferPtr = 0)) := by
  unfold receiverEnabled
  simp only
  by_cases hempty : u.rcvBufferEmpty
  · simp only [if_pos hempty, Nat.lt_irrefl, if_false]
    exact ⟨⟨rfl, rfl⟩, fun _ => trivial, fun h => absurd hempty (by rw [h]; decide)⟩
  · simp only [if_neg hempty]
    split
    · obtain ⟨hsame, hsize, hptr⟩ := rxPkt_buffer u
      exact ⟨hsame, fun h => hsize.trans h, fun _ => ⟨hsize, fun _ => hptr⟩⟩
    · exact ⟨⟨rfl, rfl⟩, id, fun _ => ⟨rfl, fun h => absurd h ‹_›⟩⟩

/-- The receiver is enabled by the bit of the CSR. -/
theorem enabledBy_buffer (u : Uch11) (v : HalfWord) :
    SameBuffer (u.enabledBy v) u ∧
      (u.rcvBufferSize = 0 → (u.enabledBy v).rcvBufferSize = 0) ∧
      (u.rcvBufferEmpty = false → (u.enabledBy v).rcvBufferSize = u.rcvBufferSize ∧
        (0 < u.rcvBufferSize →
          (u.enabledBy v).rcvBufferPtr = if u.receiveEnable then 0 else u.rcvBufferPtr)) := by
  have henabled : ∀ w : Uch11, SameBuffer w u → w.rcvBufferSize = u.rcvBufferSize →
      w.rcvBufferPtr = u.rcvBufferPtr → w.receiveEnable = u.receiveEnable →
      SameBuffer (if w.receiveEnable then w.receiverEnabled else w) u ∧
        (u.rcvBufferSize = 0 →
          (if w.receiveEnable then w.receiverEnabled else w).rcvBufferSize = 0) ∧
        (u.rcvBufferEmpty = false →
          (if w.receiveEnable then w.receiverEnabled else w).rcvBufferSize = u.rcvBufferSize ∧
          (0 < u.rcvBufferSize →
            (if w.receiveEnable then w.receiverEnabled else w).rcvBufferPtr =
              if u.receiveEnable then 0 else u.rcvBufferPtr)) := by
    intro w hsame hsize hptr henable
    rw [← hsize, ← hptr, ← hsame.empty, ← henable]
    by_cases hre : w.receiveEnable
    · rw [if_pos hre, if_pos hre]
      obtain ⟨hsame', hzero, hheld⟩ := receiverEnabled_buffer w
      exact ⟨⟨hsame'.buffer.trans hsame.buffer, hsame'.empty.trans hsame.empty⟩, hzero, hheld⟩
    · rw [if_neg hre, if_neg hre]
      exact ⟨hsame, id, fun _ => ⟨rfl, fun _ => rfl⟩⟩
  unfold enabledBy
  simp only
  split
  · exact henabled _ ⟨rfl, rfl⟩ rfl rfl (transmitterClear_receiveEnable u)
  · exact henabled _ ⟨rfl, rfl⟩ rfl rfl rfl

/-- A write of the CSR leaves the words in the buffer, and marks it neither as empty nor as
full. -/
theorem setCsr_sameBuffer (c : Uch11Config) (u : Uch11) (v : HalfWord) :
    SameBuffer (u.setCsr c v) u := by
  have hcsr := (setCsr_buffer c u v).1
  have henabled := (enabledBy_buffer (u.clearedBy c v) v).1
  by_cases hc : Reception.clears v
  · have hcleared := (clearedBy_of_clears (c := c) (u := u) hc).1
    exact ⟨(hcsr.buffer.trans henabled.buffer).trans hcleared.buffer,
      (hcsr.empty.trans henabled.empty).trans hcleared.empty⟩
  · rw [clearedBy_of_not_clears hc] at hcsr henabled
    exact ⟨hcsr.buffer.trans henabled.buffer, hcsr.empty.trans henabled.empty⟩

/-- A clearing CSR word discards the words. -/
theorem setCsr_clears (hc : Reception.clears v) : (u.setCsr c v).rcvBufferSize = 0 := by
  rw [(setCsr_buffer c u v).2.1]
  exact (enabledBy_buffer (u.clearedBy c v) v).2.1 (clearedBy_of_clears hc).2.1

/-- Any other keeps a full buffer, but starts from its first word if it enables the
receiver. -/
theorem setCsr_keeps (hc : ¬Reception.clears v) (hempty : u.rcvBufferEmpty = false) :
    (u.setCsr c v).rcvBufferSize = u.rcvBufferSize ∧
      (0 < u.rcvBufferSize →
        (u.setCsr c v).rcvBufferPtr = if v.getLsbD 4 then 0 else u.rcvBufferPtr) := by
  obtain ⟨-, hsize, hptr⟩ := setCsr_buffer c u v
  rw [hsize, hptr, clearedBy_of_not_clears hc]
  have henable : Uch11.receiveEnable { u with csr := (u.csr &&& csrMask) ||| (v &&& ~~~csrMask) } =
      v.getLsbD 4 := masked_receiveEnable u.csr v
  rw [← henable]
  exact (enabledBy_buffer { u with csr := (u.csr &&& csrMask) ||| (v &&& ~~~csrMask) } v).2.2 hempty

/-- No words are made by a write of the CSR. -/
theorem setCsr_size_zero (hsize : u.rcvBufferSize = 0) : (u.setCsr c v).rcvBufferSize = 0 := by
  by_cases hc : Reception.clears v
  · exact setCsr_clears hc
  · rw [(setCsr_buffer c u v).2.1, clearedBy_of_not_clears hc]
    exact (enabledBy_buffer { u with csr := (u.csr &&& csrMask) ||| (v &&& ~~~csrMask) }
      v).2.1 hsize

/-- A packet has its words and the three of the hardware header. -/
theorem received_length (p : ChaosPacket) : p.received.length = p.words + 3 := by
  simp [ChaosPacket.received]

/-- The words of a packet are copied into the buffer. -/
theorem received_eq_copyPacket (u : Uch11) (p : ChaosPacket) {i : ℕ} (hi : i < p.words + 3) :
    p.received[i]? = some (u.copyPacket p i) := by
  unfold copyPacket
  by_cases hi' : i < p.words
  · have hcopied : (List.map p.word (List.range p.words))[i]? = some (p.word i) := by
      simp [hi']
    rw [ChaosPacket.received, List.getElem?_append_left (by simpa using hi'), hcopied,
      Function.update_of_ne (by omega), Function.update_of_ne (by omega),
      Function.update_of_ne (by omega), if_pos hi']
  · obtain ⟨k, rfl⟩ := Nat.exists_eq_add_of_le (Nat.le_of_not_lt hi')
    rw [ChaosPacket.received, List.getElem?_append_right (by simp)]
    simp only [List.length_map, List.length_range, Nat.add_sub_cancel_left]
    match k, hi with
    | 0, _ => simp [Function.update]
    | 1, _ => simp [Function.update]
    | 2, _ => simp [Function.update]
    | k + 3, hi => omega

/-- A packet that is copied into the buffer is presented. -/
theorem receivePacket_presents (u : Uch11) (p : ChaosPacket) :
    Reception.Presents (u.receivePacket p) p ∧ (u.receivePacket p).rcvBufferEmpty = false := by
  obtain ⟨hsame, hsize, hptr⟩ := rxPkt_buffer { u with
    rcvBuffer := u.copyPacket p, rcvBufferSize := p.words + 3, rcvBufferEmpty := false }
  refine ⟨⟨rxPkt_receiveDone (Nat.succ_pos _), hptr, hsize.trans (received_length p).symm, ?_⟩,
    hsame.empty⟩
  intro i hi
  rw [received_length] at hi
  exact (received_eq_copyPacket u p hi).trans (congrArg some (congrFun hsame.buffer i).symm)

end Uch11

namespace Reception

/-- The buffer holds a packet of which some words are unread. -/
structure Holds (s : Reception) (packet : ChaosPacket) : Prop where
  notEmpty : s.uch11.rcvBufferEmpty = false
  size : s.uch11.rcvBufferSize = packet.received.length
  words : ∀ i < packet.received.length, packet.received[i]? = some (s.uch11.rcvBuffer i)
  unread : s.wordsRead < packet.received.length
  next : s.uch11.rcvBufferPtr = if s.rewound then 0 else s.wordsRead
  begun : s.rewound → 0 < s.wordsRead
  notCutOff : s.cutOff = false

/-- No packet has unread words: the buffer is marked as empty, unless a packet was cut off,
which leaves it neither empty nor full. -/
structure Idle (s : Reception) : Prop where
  empty : s.uch11.rcvBufferEmpty = !s.cutOff
  noWords : s.cutOff → s.uch11.rcvBufferSize = 0

/-- The receiver holds the words that are recorded as unread. -/
structure Tracks (s : Reception) : Prop where
  holds : ∀ packet, s.reading = some packet → s.Holds packet
  idle : s.reading = none → s.Idle

/-- The packets in the queue are the last that arrived, and those presented came before. -/
structure Queued (c : Uch11Config) (s : Reception) : Prop extends InOrder c s where
  before : ∀ p ∈ s.presented, p.1 < s.taken
  taken : s.taken ≤ s.arrived.length
  queue : s.queuehead = s.arrived.drop s.taken

variable {c : Uch11Config} {s : Reception}

/-- Nothing is there at the start. -/
theorem queued_start (c : Uch11Config) (interrupts : Interrupts) (chaosdOpen : Bool) :
    Queued c (start interrupts chaosdOpen) where
  once := List.Pairwise.nil
  arrived := fun _ h => nomatch h
  before := fun _ h => nomatch h
  taken := Nat.le_refl 0
  queue := rfl

/-- Nothing is there to read. -/
theorem tracks_start (interrupts : Interrupts) (chaosdOpen : Bool) :
    Tracks (start interrupts chaosdOpen) where
  holds := fun _ h => nomatch h
  idle := fun _ => ⟨rfl, fun h => nomatch h⟩

/-- A packet that arrives is the last of the queue. -/
theorem Queued.arrive (h : Queued c s) (packet : ChaosPacket) :
    Queued c (s.next c (.arrive packet)) where
  once := h.once
  arrived p hp := by
    obtain ⟨harrived, hours⟩ := h.arrived p hp
    refine ⟨?_, hours⟩
    change (s.arrived ++ [packet])[p.1]? = some p.2
    rw [List.getElem?_append_left (List.getElem?_eq_some_iff.mp harrived).1]
    exact harrived
  before := h.before
  taken := by
    change s.taken ≤ (s.arrived ++ [packet]).length
    rw [List.length_append]
    exact Nat.le_add_right_of_le h.taken
  queue := by
    change s.queuehead ++ [packet] = (s.arrived ++ [packet]).drop s.taken
    rw [List.drop_append_of_le_length h.taken, h.queue]

/-- The same packets arrived, were taken and presented, and are in the queue. -/
structure SamePackets (s' s : Reception) : Prop where
  arrived : s'.arrived = s.arrived
  taken : s'.taken = s.taken
  presented : s'.presented = s.presented
  queue : s'.queuehead = s.queuehead

/-- What is known of the packets depends on nothing else. -/
theorem Queued.of_same {s' : Reception} (h : Queued c s) (hs : SamePackets s' s) :
    Queued c s' where
  once := hs.presented.symm ▸ h.once
  arrived p hp := hs.arrived.symm ▸ h.arrived p (hs.presented ▸ hp)
  before p hp := hs.taken.symm ▸ h.before p (hs.presented ▸ hp)
  taken := by
    rw [hs.taken, hs.arrived]
    exact h.taken
  queue := by
    rw [hs.queue, hs.arrived, hs.taken]
    exact h.queue

/-- A write of the CSR leaves the packets. -/
theorem next_writeCsr_packets (c : Uch11Config) (s : Reception) (v : HalfWord) :
    SamePackets (s.next c (.writeCsr v)) s := by
  unfold next noteCsr
  simp only
  split
  · exact ⟨rfl, rfl, rfl, rfl⟩
  · split <;> exact ⟨rfl, rfl, rfl, rfl⟩

/-- So does a read of the buffer. -/
theorem next_readBuffer_packets (c : Uch11Config) (s : Reception) :
    SamePackets (s.next c .readBuffer) s := by
  unfold next noteRead
  simp only
  split <;> exact ⟨rfl, rfl, rfl, rfl⟩

/-- A packet is taken if the buffer is marked as empty and the receiver enabled. -/
theorem pollTakes_eq_some {u : Uch11} {queuehead rest : List ChaosPacket} {packet : ChaosPacket} :
    u.pollTakes queuehead = some (packet, rest) ↔
      u.rcvBufferEmpty ∧ u.receiveEnable ∧ queuehead = packet :: rest := by
  unfold Uch11.pollTakes
  cases u.rcvBufferEmpty with
  | false => simp
  | true =>
    cases queuehead with
    | nil => simp
    | cons p ps => cases hre : u.receiveEnable <;> simp

/-- A poll that takes no packet does nothing. -/
theorem next_poll_of_none (h : s.uch11.pollTakes s.queuehead = none) :
    s.next c .poll = s ∧ s.uch11.pollLocal c s.queuehead = (s.uch11, s.queuehead) := by
  simp only [next, Uch11.pollLocal, h, and_self]

/-- A packet for another host is only taken from the queue. -/
theorem next_poll_of_other {packet : ChaosPacket} {rest : List ChaosPacket}
    (h : s.uch11.pollTakes s.queuehead = some (packet, rest)) (hother : packet.daddr ≠ c.myaddr) :
    s.next c .poll = { s with queuehead := rest, taken := s.taken + 1 } ∧
      s.uch11.pollLocal c s.queuehead = (s.uch11, rest) := by
  simp only [next, Uch11.pollLocal, h, noteTaken, if_pos hother, if_neg hother, and_self]

/-- A packet for this host is presented. -/
theorem next_poll_of_ours {packet : ChaosPacket} {rest : List ChaosPacket}
    (h : s.uch11.pollTakes s.queuehead = some (packet, rest)) (hours : packet.daddr = c.myaddr) :
    s.next c .poll = { s.notePresented packet with
        uch11 := s.uch11.receivePacket packet, queuehead := rest, taken := s.taken + 1 } ∧
      s.uch11.pollLocal c s.queuehead = (s.uch11.receivePacket packet, rest) := by
  simp only [next, Uch11.pollLocal, h, noteTaken, hours, ne_eq, not_true, if_true, if_false]
  exact ⟨rfl, trivial⟩

/-- A packet taken from the queue is the next in order of arrival. -/
theorem Queued.poll (h : Queued c s) : Queued c (s.next c .poll) := by
  cases htakes : s.uch11.pollTakes s.queuehead with
  | none =>
    rw [(next_poll_of_none htakes).1]
    exact h
  | some taken =>
    obtain ⟨packet, rest⟩ := taken
    have hqueue : s.arrived.drop s.taken = packet :: rest :=
      h.queue.symm.trans (pollTakes_eq_some.mp htakes).2.2
    have hlt : s.taken < s.arrived.length := by
      by_contra hge
      rw [List.drop_eq_nil_of_le (Nat.le_of_not_lt hge)] at hqueue
      cases hqueue
    obtain ⟨hpacket, hrest⟩ :=
      List.cons.inj ((List.drop_eq_getElem_cons hlt).symm.trans hqueue)
    by_cases hours : packet.daddr = c.myaddr
    · rw [(next_poll_of_ours htakes hours).1]
      refine { once := ?once, arrived := ?arrived, before := ?before, taken := hlt
               queue := hrest.symm }
      case once =>
        change ((s.presented ++ [(s.taken, packet)]).map Prod.fst).Pairwise (· < ·)
        rw [List.map_append, List.pairwise_append]
        refine ⟨h.once, List.pairwise_singleton _ _, ?_⟩
        intro i hi j hj
        obtain ⟨p, hp, rfl⟩ := List.mem_map.mp hi
        rw [List.map_singleton, List.mem_singleton] at hj
        exact hj ▸ h.before p hp
      case arrived =>
        intro p hp
        rcases List.mem_append.mp hp with hp | hp
        · exact h.arrived p hp
        · obtain rfl := List.mem_singleton.mp hp
          exact ⟨(List.getElem?_eq_getElem hlt).trans (congrArg some hpacket), hours⟩
      case before =>
        intro p hp
        rcases List.mem_append.mp hp with hp | hp
        · exact Nat.lt_succ_of_lt (h.before p hp)
        · obtain rfl := List.mem_singleton.mp hp
          exact Nat.lt_succ_self _
    · rw [(next_poll_of_other htakes hours).1]
      exact { h with
        before := fun p hp => Nat.lt_succ_of_lt (h.before p hp)
        taken := hlt
        queue := hrest.symm }

/-- Every event keeps the order of the packets. -/
theorem Queued.next (h : Queued c s) (e : ReceiveEvent) : Queued c (s.next c e) := by
  cases e with
  | arrive packet => exact h.arrive packet
  | poll => exact h.poll
  | writeCsr v => exact h.of_same (next_writeCsr_packets c s v)
  | readBuffer => exact h.of_same (next_readBuffer_packets c s)

/-- A packet with unread words stops the polls. -/
theorem Tracks.pollTakes_of_reading (h : Tracks s) {packet : ChaosPacket}
    (hr : s.reading = some packet) : s.uch11.pollTakes s.queuehead = none := by
  unfold Uch11.pollTakes
  rw [(h.holds packet hr).notEmpty]
  rfl

/-- What the receiver holds after a poll. -/
theorem Tracks.poll (h : Tracks s) : Tracks (s.next c .poll) := by
  cases htakes : s.uch11.pollTakes s.queuehead with
  | none =>
    rw [(next_poll_of_none htakes).1]
    exact h
  | some taken =>
    obtain ⟨packet, rest⟩ := taken
    by_cases hours : packet.daddr = c.myaddr
    · rw [(next_poll_of_ours htakes hours).1]
      refine ⟨?_, fun hr => nomatch hr⟩
      rintro packet' ⟨⟩
      obtain ⟨hpresents, hempty⟩ := s.uch11.receivePacket_presents packet
      exact {
        notEmpty := hempty
        size := hpresents.size
        words := hpresents.words
        unread := by
          rw [Uch11.received_length]
          exact Nat.succ_pos _
        next := hpresents.first
        begun := fun hw => nomatch hw
        notCutOff := rfl }
    · rw [(next_poll_of_other htakes hours).1]
      exact ⟨fun p hr => { h.holds p hr with }, fun hr => { h.idle hr with }⟩

/-- What it holds after a write of the CSR. -/
theorem Tracks.writeCsr (h : Tracks s) (v : HalfWord) : Tracks (s.next c (.writeCsr v)) := by
  obtain ⟨hbuffer, hempty⟩ := Uch11.setCsr_sameBuffer c s.uch11 v
  cases hr : s.reading with
  | none =>
    have hnote : s.noteCsr v = s := by rw [noteCsr, if_pos (by rw [hr]; rfl)]
    have hidle := h.idle hr
    rw [next, hnote]
    refine ⟨fun p hp => absurd (hr.symm.trans hp) (by simp), fun _ => ⟨?_, ?_⟩⟩
    · exact hempty.trans hidle.empty
    · exact fun hcut => Uch11.setCsr_size_zero (hidle.noWords hcut)
  | some packet =>
    have hholds := h.holds packet hr
    have hnot : ¬s.reading.isNone := by rw [hr]; simp
    by_cases hc : clears v
    · rw [next, noteCsr, if_neg hnot, if_pos hc]
      refine ⟨fun p hp => (nomatch hp), fun _ => ⟨?_, ?_⟩⟩
      · exact hempty.trans hholds.notEmpty
      · exact fun _ => Uch11.setCsr_clears hc
    · obtain ⟨hsize, hptr⟩ := Uch11.setCsr_keeps (c := c) hc hholds.notEmpty
      rw [next, noteCsr, if_neg hnot, if_neg hc]
      refine ⟨?_, fun hp => (nomatch hr.symm.trans hp)⟩
      intro packet' hp
      obtain rfl : packet = packet' := Option.some.inj (hr.symm.trans hp)
      have hlength := hholds.unread
      constructor
      case notEmpty => exact hempty.trans hholds.notEmpty
      case size => exact hsize.trans hholds.size
      case words => exact fun i hi => (hholds.words i hi).trans (by rw [hbuffer])
      case unread => exact hlength
      case next =>
        refine (hptr (by rw [hholds.size]; omega)).trans ?_
        simp only [hholds.next]
        cases v.getLsbD 4
        · simp
        · by_cases hread : 0 < s.wordsRead
          · simp [hread]
          · simp [Nat.eq_zero_of_not_pos hread]
      case begun =>
        intro hw
        simp only [Bool.or_eq_true, Bool.and_eq_true, decide_eq_true_eq] at hw
        exact hw.elim hholds.begun fun h => h.2
      case notCutOff => exact hholds.notCutOff

/-- What it holds after a read of the buffer, if it was not rewound. -/
theorem Tracks.readBuffer (h : Tracks s) (hu : Undisturbed .readBuffer s) :
    Tracks (s.next c .readBuffer) := by
  cases hr : s.reading with
  | none =>
    have hnote : s.noteRead = s := by
      unfold noteRead
      rw [hr]
    have hidle := h.idle hr
    rw [next, hnote]
    refine ⟨fun p hp => absurd (hr.symm.trans hp) (by simp), fun _ => ?_⟩
    unfold Uch11.getRcvBuffer
    split
    · -- there are words in the buffer, so nothing was cut off
      have hcut : s.cutOff = false := by
        by_contra hcut
        have hsize := hidle.noWords (eq_true_of_ne_false hcut)
        omega
      have hempty := hidle.empty
      rw [hcut] at hempty
      refine ⟨?_, fun hc => absurd (hcut.symm.trans hc) (by decide)⟩
      simp only [hempty, hcut, Bool.not_false, Bool.or_true]
    · exact ⟨hidle.empty, fun _ => rfl⟩
  | some packet =>
    have hholds := h.holds packet hr
    have hrewound : s.rewound = false :=
      Bool.eq_false_iff.mpr fun hw => hu ⟨by rw [hr]; rfl, hw⟩
    have hptr : s.uch11.rcvBufferPtr = s.wordsRead := by
      rw [hholds.next, hrewound]
      rfl
    have hlt : s.uch11.rcvBufferPtr < s.uch11.rcvBufferSize := by
      rw [hptr, hholds.size]
      exact hholds.unread
    have hnext : s.next c .readBuffer = { s with
        uch11 := { s.uch11 with
          rcvBufferPtr := s.uch11.rcvBufferPtr + 1
          rcvBufferEmpty := s.uch11.rcvBufferPtr + 1 = s.uch11.rcvBufferSize ||
            s.uch11.rcvBufferEmpty }
        wordsRead := s.wordsRead + 1
        reading := if s.wordsRead + 1 = packet.received.length then none else s.reading } := by
      simp only [next, noteRead, hr, Uch11.getRcvBuffer, if_pos hlt]
    rw [hnext, hptr, hholds.size, hholds.notEmpty, Bool.or_false]
    by_cases hlast : s.wordsRead + 1 = packet.received.length
    · -- the last word was read
      rw [if_pos hlast]
      refine ⟨fun p hp => (nomatch hp), fun _ => ⟨?_, ?_⟩⟩
      · simp only [hlast, decide_true, hholds.notCutOff, Bool.not_false]
      · exact fun hc => absurd (hholds.notCutOff.symm.trans hc) (by decide)
    · rw [if_neg hlast]
      refine ⟨?_, fun hp => (nomatch hr.symm.trans hp)⟩
      intro packet' hp
      obtain rfl : packet = packet' := Option.some.inj (hr.symm.trans hp)
      have hunread := hholds.unread
      constructor
      case notEmpty => exact decide_eq_false hlast
      case size => exact hholds.size
      case words => exact hholds.words
      case unread =>
        simp only
        omega
      case next =>
        simp only [hrewound]
        rfl
      case begun => exact fun _ => Nat.succ_pos _
      case notCutOff => exact hholds.notCutOff

/-- Every undisturbed event keeps the record of what the receiver holds. -/
theorem Tracks.next (h : Tracks s) {e : ReceiveEvent} (hu : Undisturbed e s) :
    Tracks (s.next c e) := by
  cases e with
  | arrive packet => exact ⟨fun p hr => { h.holds p hr with }, fun hr => { h.idle hr with }⟩
  | poll => exact h.poll
  | writeCsr v => exact h.writeCsr v
  | readBuffer => exact h.readBuffer hu

/-- A poll does what it is to do unless a packet was cut off. -/
theorem Tracks.receives_poll (h : Tracks s) : Receives c .poll s ↔ Undisturbed .poll s := by
  cases hr : s.reading with
  | some packet =>
    have hidle := next_poll_of_none (c := c) (h.pollTakes_of_reading hr)
    have hcut : ¬(s.cutOff ∧ s.uch11.receiveEnable ∧ s.queuehead ≠ []) := by
      rw [(h.holds packet hr).notCutOff]
      exact fun hc => nomatch hc.1
    exact ⟨fun _ => hcut, fun _ => ⟨fun _ => hidle.2, fun hn => by rw [hr] at hn; cases hn⟩⟩
  | none =>
    have hidle := h.idle hr
    constructor
    · rintro ⟨-, hnext⟩ ⟨hcut, henable, hqueue⟩
      obtain ⟨packet, rest, hqueue⟩ := List.exists_cons_of_ne_nil hqueue
      have htaken := (hnext (by rw [hr]; rfl) henable packet rest hqueue).1
      -- the buffer is not marked as empty, so that nothing is taken
      have htakes : s.uch11.pollTakes s.queuehead = none := by
        unfold Uch11.pollTakes
        rw [hidle.empty, hcut]
        rfl
      rw [(next_poll_of_none htakes).2, hqueue] at htaken
      exact List.cons_ne_self _ _ htaken
    · intro hu
      refine ⟨fun hs => absurd hs (by rw [hr]; decide), ?_⟩
      intro _ henable packet rest hqueue
      have hcut : s.cutOff = false := by
        by_contra hcut
        exact hu ⟨eq_true_of_ne_false hcut, henable, by rw [hqueue]; exact List.cons_ne_nil _ _⟩
      have htakes : s.uch11.pollTakes s.queuehead = some (packet, rest) :=
        pollTakes_eq_some.mpr ⟨by rw [hidle.empty, hcut]; rfl, henable, hqueue⟩
      by_cases hours : packet.daddr = c.myaddr
      · rw [(next_poll_of_ours htakes hours).2]
        exact ⟨rfl, fun _ => (s.uch11.receivePacket_presents packet).1⟩
      · rw [(next_poll_of_other htakes hours).2]
        exact ⟨rfl, fun h => absurd h hours⟩

/-- A read returns the next word unless the receiver was enabled again in the middle of the
packet. -/
theorem Tracks.receives_readBuffer (h : Tracks s) :
    Receives c .readBuffer s ↔ Undisturbed .readBuffer s := by
  constructor
  · rintro hread ⟨hsome, hrewound⟩
    obtain ⟨packet, hr⟩ := Option.isSome_iff_exists.mp hsome
    have hholds := h.holds packet hr
    have hptr := hholds.next
    rw [if_pos hrewound, (hread packet hr).1] at hptr
    exact (hholds.begun hrewound).ne' hptr
  · intro hu packet hr
    have hholds := h.holds packet hr
    have hrewound : ¬s.rewound := fun hw => hu ⟨by rw [hr]; rfl, hw⟩
    have hptr : s.uch11.rcvBufferPtr = s.wordsRead := hholds.next.trans (if_neg hrewound)
    have hlt : s.uch11.rcvBufferPtr < s.uch11.rcvBufferSize := by
      rw [hptr, hholds.size]
      exact hholds.unread
    have hword : s.uch11.getRcvBuffer.1 = s.uch11.rcvBuffer s.wordsRead := by
      unfold Uch11.getRcvBuffer
      rw [if_pos hlt, hptr]
    exact ⟨hptr, (hholds.words _ hholds.unread).trans (congrArg some hword.symm)⟩

/-- In every run of arrivals, polls, CSR writes and reads of the receive buffer, the packets for
this host are presented in order, each once, and every poll and read does what it is to
do, if and only if the run is undisturbed. -/
theorem packets_received (c : Uch11Config) (interrupts : Interrupts) (chaosdOpen : Bool)
    (es : List ReceiveEvent) :
    (Lib.Always (step c) (InOrder c) es (start interrupts chaosdOpen) ∧
        Lib.EveryStep (step c) (Receives c) es (start interrupts chaosdOpen)) ↔
      Lib.EveryStep (step c) Undisturbed es (start interrupts chaosdOpen) := by
  have horder : Lib.Always (step c) (InOrder c) es (start interrupts chaosdOpen) := by
    refine (Lib.always_of_step ?_ (queued_start c interrupts chaosdOpen)).mono
      fun _ h => h.toInOrder
    rintro e s s' h ⟨⟩
    exact h.next e
  have hsteps : Lib.EveryStep (step c) (Receives c) es (start interrupts chaosdOpen) ↔
      Lib.EveryStep (step c) Undisturbed es (start interrupts chaosdOpen) := by
    refine Lib.everyStep_iff ?_ ?_ (tracks_start interrupts chaosdOpen)
    · intro e s s' h _
      cases e with
      | arrive packet => exact Iff.rfl
      | poll => exact h.receives_poll
      | writeCsr v => exact Iff.rfl
      | readBuffer => exact h.receives_readBuffer
    · rintro e s s' h ⟨⟩ hu
      exact h.next hu
  rw [hsteps]
  exact and_iff_right horder

/-- A packet for the host with the address 0401. -/
def packet401 : ChaosPacket := { pkalloc with daddr := 0o401 }

/-- The host with the address 0401, and the local program. -/
def local401 : Uch11Config := ⟨.local, 0o401, 0o404, false, 0⟩

/-- A packet is cleared before it is read, and the next one is never presented. Or the CSR is
written after a word was read, and the word is read again. -/
theorem packets_not_received :
    (¬Lib.EveryStep (step local401) (Receives local401)
      [.arrive packet401, .writeCsr 0o20, .poll, .writeCsr 0o30, .arrive packet401, .poll]
      (start (setInterruptStatusReg 0) true)) ∧
    ¬Lib.EveryStep (step local401) (Receives local401)
      [.arrive packet401, .writeCsr 0o20, .poll, .readBuffer, .writeCsr 0o20, .readBuffer]
      (start (setInterruptStatusReg 0) true) := by
  constructor
  · intro h
    have hpoll := ((((((h _ rfl).2 _ rfl).2 _ rfl).2 _ rfl).2 _ rfl).2 _ rfl).1
    have hrest := (hpoll.2 rfl rfl packet401 [] rfl).1
    exact List.cons_ne_nil _ _ hrest
  · intro h
    have hread := ((((((h _ rfl).2 _ rfl).2 _ rfl).2 _ rfl).2 _ rfl).2 _ rfl).1
    exact absurd (hread packet401 rfl).1 (by decide)

end Reception

end Usim
