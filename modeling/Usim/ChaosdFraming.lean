import Usim.UdpReceive
import Mathlib.Data.PNat.Basic

/-!
# The frames of the Chaos daemon

The daemon writes packets on a stream, each behind its length and two bytes more. A poll of
`chaos_poll_chaosd` reads the four bytes and the packet with one `read` each, and a `read` may
return less than it is asked for. What is left is read by the next poll, as if it were the start
of a frame.
-/

namespace Usim

open Lib

/-- A packet on the stream. -/
structure Frame where
  /-- The two bytes behind the length. -/
  flags : Byte × Byte
  data : List Byte
  length_lt : data.length < 0x10000

namespace Frame

/-- The high byte of the length. -/
def high (f : Frame) : Byte := BitVec.ofNat 8 (f.data.length / 256)

/-- The low byte of the length. -/
def low (f : Frame) : Byte := BitVec.ofNat 8 f.data.length

/-- The four bytes in front of a packet. -/
def header (f : Frame) : List Byte := [f.high, f.low, f.flags.1, f.flags.2]

/-- What the daemon writes. -/
def bytes (f : Frame) : List Byte := f.header ++ f.data

/-- The hardware destination, the third word from the end. -/
def destAddr (f : Frame) : HalfWord :=
  halfWords (fun k => f.data.getD k 0) ((f.data.length + 1) / 2 - 3)

end Frame

/-- How many bytes the two calls of `read` return at most. -/
structure Reads where
  header : ℕ+
  packet : ℕ+

/-- The number of bytes of a header that are read. -/
def Reads.headerSize (reads : Reads) : ℕ := min 4 reads.header.val

/-- The number of bytes of a packet that are read. -/
def Reads.packetSize (reads : Reads) (len : HalfWord) : ℕ := min len.toNat reads.packet.val

/-- The two bytes of a length that were in memory before `read`. -/
abbrev Garbage := Byte × Byte

/-- The length in the bytes of a header that were read. -/
def declaredLength (garbage : Garbage) (lenbytes : List Byte) : HalfWord :=
  lenbytes.getD 0 garbage.1 ++ lenbytes.getD 1 garbage.2

/-- The interface and the connection to the daemon. -/
structure ChaosdLink where
  uch11 : Uch11
  /-- The bytes of the connection that are not read yet. -/
  stream : List Byte
  /-- The frames whose reading has not begun. -/
  frames : List Frame

/-- What happens to them. -/
inductive LinkEvent
  | transmit (e : TransmitEvent)
  | readBuffer
  /-- `uch11_init` by `uch11_reconnect`, with what the daemon writes on the new connection. -/
  | reconnect (frames : Option (List Frame))
  /-- `uch11_poll`, with nothing there yet or with two calls of `read`. -/
  | poll (reads : Option Reads)

/-- The configuration with the daemon as the backend. -/
def Uch11Config.daemon (c : Uch11Config) : Uch11Config := { c with backend := .daemon }

namespace ChaosdLink

/-- `close` discards what was not read. -/
def hold (u : Uch11) (stream : List Byte) (frames : List Frame) : ChaosdLink :=
  if u.chaosdOpen then ⟨u, stream, frames⟩ else ⟨u, [], []⟩

/-- A connection on which the daemon writes frames. -/
def connected (u : Uch11) (frames : List Frame) : ChaosdLink :=
  hold u (frames.flatMap Frame.bytes) frames

/-- The interface after `uch11_init`. -/
def start (interrupts : Interrupts) (frames : List Frame) : ChaosdLink :=
  connected (.init interrupts true) frames

/-- `chaos_poll_chaosd` when bytes are there. -/
def receive (c : Uch11Config) (garbage : Garbage) (reads : Reads) (s : ChaosdLink) :
    Except OutOfBounds ChaosdLink :=
  let lenbytes := s.stream.take reads.headerSize
  let rest := s.stream.drop reads.headerSize
  let len := declaredLength garbage lenbytes
  let size := reads.packetSize len
  (s.uch11.pollChaosd c none (.readable (lenbytes ≠ []) len (some (rest.take size)))).map
    fun u => hold u (rest.drop size) s.frames.tail

/-- `chaos_poll_chaosd`. -/
def poll (c : Uch11Config) (garbage : Garbage) (reads : Option Reads) (s : ChaosdLink) :
    Except OutOfBounds ChaosdLink :=
  match reads, s.stream with
  | some reads, _ :: _ => s.receive c garbage reads
  | _, _ => (s.uch11.pollChaosd c none .nothing).map fun u => hold u s.stream s.frames

/-- One event. -/
def step (c : Uch11Config) (garbage : Garbage) (e : LinkEvent) (s : ChaosdLink) :
    Except OutOfBounds ChaosdLink :=
  match e with
  | .transmit e => (s.uch11.transmitStep c.daemon e).map fun u => hold u s.stream s.frames
  | .readBuffer => .ok { s with uch11 := s.uch11.getRcvBuffer.2 }
  | .reconnect frames =>
    .ok (connected (s.uch11.reconnected (some frames.isSome)) (frames.getD []))
  | .poll reads => s.poll c.daemon garbage reads

end ChaosdLink

namespace Uch11

/-- The packet of a frame is presented: the receiver is done, with an interrupt if it is
enabled, and what the processor reads begins with the packet, the low byte of a word first. -/
structure PresentsFrame (u u' : Uch11) (f : Frame) : Prop where
  csr : u'.csr = u.csr ||| 0o100000
  interrupts : u'.interrupts =
    if u.receiveEnable then assertUnibusInterrupt 0o270 u.interrupts else u.interrupts
  size : u'.rcvBufferSize = (f.data.length + 1) / 2
  first : u'.rcvBufferPtr = 0
  unread : u'.rcvBufferEmpty = false
  words : f.data <+: (u'.readWords ((f.data.length + 1) / 2)).flatMap le16

/-- The packet of a frame is ignored. -/
structure IgnoresFrame (u u' : Uch11) : Prop where
  csr : u'.csr = u.csr
  interrupts : u'.interrupts = u.interrupts
  size : u'.rcvBufferSize = 0
  empty : u'.rcvBufferEmpty = true

/-- A frame is presented if it is for this host, ignored if it is not, or lost. -/
def Handles (c : Uch11Config) (u u' : Uch11) (f : Frame) : Prop :=
  (f.destAddr = c.myaddr ∧ u.PresentsFrame u' f) ∨
    (f.destAddr ≠ c.myaddr ∧ u.IgnoresFrame u') ∨ u'.lostCount = u.lostCount + 1

end Uch11

namespace ChaosdLink

/-- A poll stays within the receive buffer. If a frame begins there, it is handled when it has
six bytes and fits, and the stream is at the next frame unless the connection is closed. -/
def TakesFrame (c : Uch11Config) (garbage : Garbage) (reads : Option Reads) (s : ChaosdLink) :
    Prop :=
  ∃ s', s.poll c garbage reads = .ok s' ∧
    (reads.isSome → s.uch11.chaosdOpen → ∀ f rest, s.frames = f :: rest →
      (6 ≤ f.data.length → f.data.length ≤ 8192 → s.uch11.Handles c s'.uch11 f) ∧
        (s'.uch11.chaosdOpen → s'.stream = rest.flatMap Frame.bytes))

/-- Every poll takes a frame. -/
def Framed (c : Uch11Config) (garbage : Garbage) : LinkEvent → ChaosdLink → Prop
  | .poll reads, s => s.TakesFrame c.daemon garbage reads
  | _, _ => True

end ChaosdLink

/-- The frame is too long by the bytes of its length that are read, or its header and its packet
are read whole, and it is empty, or has the three words of a trailer, or is tossed. -/
def Reads.Suffice (reads : Reads) (u : Uch11) (f : Frame) : Prop :=
  0x2100 ≤ f.data.length ∨ (2 ≤ reads.header.val ∧ 8192 < f.data.length) ∨
    (4 ≤ reads.header.val ∧ f.data.length ≤ reads.packet.val ∧
      (u.bufferInUse ∨ f.data = [] ∨ 5 ≤ f.data.length))

/-- The reads of a poll suffice for the frame that begins there. -/
def ReadsSuffice : LinkEvent → ChaosdLink → Prop
  | .poll (some reads), s =>
    s.uch11.chaosdOpen → ∀ f ∈ s.frames.head?, reads.Suffice s.uch11 f
  | _, _ => True

/-! ### The bytes of a frame -/

theorem Reads.headerSize_pos (reads : Reads) : 0 < reads.headerSize := by
  have hpos := reads.header.pos
  unfold headerSize
  omega

namespace Frame

variable {n : ℕ}

@[simp] theorem length_header (f : Frame) : f.header.length = 4 := rfl

@[simp] theorem length_bytes (f : Frame) : f.bytes.length = 4 + f.data.length := by
  rw [bytes, List.length_append, length_header]

theorem toNat_high (f : Frame) : f.high.toNat = f.data.length / 256 := by
  have hlength := f.length_lt
  rw [high, BitVec.toNat_ofNat, Nat.mod_eq_of_lt (by omega)]

theorem toNat_low (f : Frame) : f.low.toNat = f.data.length % 256 := by
  rw [low, BitVec.toNat_ofNat]

/-- The first byte of the length is always read. -/
theorem toNat_declaredLength (f : Frame) (garbage : Garbage) (tail : List Byte) (h : 0 < n) :
    (declaredLength garbage ((f.bytes ++ tail).take n)).toNat =
      f.data.length / 256 * 256 +
        (if 2 ≤ n then f.data.length % 256 else garbage.2.toNat) := by
  have hfirst : ((f.bytes ++ tail).take n).getD 0 garbage.1 = f.high := by
    cases n with
    | zero => omega
    | succ n => rfl
  have hsecond : ((f.bytes ++ tail).take n).getD 1 garbage.2 =
      if 2 ≤ n then f.low else garbage.2 := by
    match n with
    | 0 => omega
    | 1 => rfl
    | n + 2 =>
      rw [if_pos (by omega)]
      rfl
  have hplace : (2 : ℕ) ^ 8 = 256 := rfl
  rw [declaredLength, hfirst, hsecond, toNat_append_eq, hplace, toNat_high,
    apply_ite BitVec.toNat, toNat_low]

end Frame

/-! ### The bytes of a packet that is presented -/

/-- Words that are put together from bytes, with the low byte first again. -/
theorem flatMap_le16_halfWords (bytes : ℕ → Byte) (n : ℕ) :
    ((List.range n).map (halfWords bytes)).flatMap le16 = (List.range (2 * n)).map bytes := by
  induction n with
  | zero => rfl
  | succ n ih =>
    have hword : le16 (halfWords bytes n) = [bytes (2 * n), bytes (2 * n + 1)] := by
      rw [halfWords, le16_append]
    rw [List.range_succ, List.map_append, List.flatMap_append, ih, Nat.mul_succ,
      List.range_succ, List.range_succ]
    simp [hword]

/-- The bytes of a list, with others behind them. -/
theorem prefix_map_getD (data : List Byte) (others : ℕ → Byte) {n : ℕ} (h : data.length ≤ n) :
    data <+: (List.range n).map fun k => data.getD k (others k) := by
  rw [List.prefix_iff_eq_take]
  apply List.ext_getElem
  · rw [List.length_take, List.length_map, List.length_range]
    omega
  · intro k hk _
    rw [List.getElem_take, List.getElem_map, List.getElem_range, List.getD_eq_getElem _ _ hk]

namespace Uch11

variable {c : Uch11Config} {u u' : Uch11} {f : Frame} {len : HalfWord} {packet : List Byte}

/-- The packet is in the receive buffer. -/
def holding (u : Uch11) (data : List Byte) : Uch11 :=
  { u with
    rcvBuffer := recvBytes u.rcvBuffer data
    rcvBufferSize := (data.length + 1) / 2
    rcvBufferEmpty := false }

/-- A packet with a trailer is presented. -/
theorem presentsFrame_holding (h : f.data ≠ []) :
    u.PresentsFrame (u.holding f.data).rxPkt f := by
  have hpos := List.length_pos_iff.mpr h
  have hsize : 0 < (u.holding f.data).rcvBufferSize := by
    simp only [holding]
    omega
  have hrx : (u.holding f.data).rxPkt =
      { u.holding f.data with
        rcvBufferPtr := 0
        bitCount := ((u.holding f.data).rcvBufferSize * 2 * 8 : ℤ) - 1
        csr := u.csr ||| 0o100000
        interrupts := if u.receiveEnable then assertUnibusInterrupt 0o270 u.interrupts
          else u.interrupts } := by
    unfold rxPkt
    exact if_pos hsize
  have hwords : (u.holding f.data).rcvBuffer =
      halfWords fun k => f.data.getD k (byteAt u.rcvBuffer k) := rfl
  rw [hrx]
  refine ⟨rfl, rfl, rfl, rfl, rfl, ?_⟩
  rw [readWords_eq (by simp [holding])]
  simp only [Nat.zero_add, hwords]
  rw [flatMap_le16_halfWords]
  apply prefix_map_getD
  omega

/-- The destination of a packet in the receive buffer. -/
theorem destAddr_holding (h : 5 ≤ f.data.length) :
    (u.holding f.data).rcvBuffer ((f.data.length + 1) / 2 - 3) = f.destAddr := by
  have hlow : 2 * ((f.data.length + 1) / 2 - 3) < f.data.length := by omega
  have hhigh : 2 * ((f.data.length + 1) / 2 - 3) + 1 < f.data.length := by omega
  unfold Frame.destAddr holding recvBytes
  simp only
  generalize (f.data.length + 1) / 2 - 3 = i at hlow hhigh
  simp only [halfWords]
  rw [List.getD_eq_getElem _ _ hlow, List.getD_eq_getElem _ _ hhigh, List.getD_eq_getElem _ _ hlow,
    List.getD_eq_getElem _ _ hhigh]

/-- A packet of three words is accepted. -/
theorem acceptPacket_holding (c : Uch11Config) (u : Uch11) (h5 : 5 ≤ f.data.length)
    (h : f.data.length ≤ 8192) :
    (u.holding f.data).acceptPacket (fun destAddr => destAddr = c.myaddr) =
      .ok (if f.destAddr = c.myaddr then (u.holding f.data).rxPkt
        else { u.holding f.data with rcvBufferSize := 0, rcvBufferEmpty := true }) := by
  have haccess : Uch11Array.rcvBuffer.access (((u.holding f.data).rcvBufferSize : ℤ) - 3) =
      .ok () := by
    apply if_pos
    simp only [holding, Uch11Array.words]
    omega
  have hdest : (u.holding f.data).rcvBuffer ((u.holding f.data).rcvBufferSize - 3) = f.destAddr :=
    destAddr_holding h5
  unfold acceptPacket
  rw [haccess, hdest]
  by_cases hmine : f.destAddr = c.myaddr
  · rw [if_pos hmine]
    exact if_pos (decide_eq_true hmine)
  · rw [if_neg hmine]
    exact if_neg (by simpa using hmine)

/-- Two words are too few. -/
theorem not_acceptPacket_holding {data : List Byte} {mine : HalfWord → Bool}
    (h : data.length < 5) : (u.holding data).acceptPacket mine ≠ .ok u' := by
  intro haccept
  obtain ⟨_, haccess, -⟩ := exists_of_bind_eq_ok haccept
  have hplace := (inBounds_access.mp ⟨_, haccess⟩).1
  simp only [holding] at hplace
  omega

/-- Accepting a packet keeps the connection. -/
theorem chaosdOpen_acceptPacket {mine : HalfWord → Bool} (h : u.acceptPacket mine = .ok u') :
    u'.chaosdOpen = u.chaosdOpen := by
  obtain ⟨_, -, h⟩ := exists_of_bind_eq_ok h
  split at h
  · cases h
    exact (rxPkt_keeps u).2
  · cases h
    rfl

/-! ### What a poll of the daemon does -/

/-- Bytes are there on an open connection. -/
theorem pollChaosd_readable (hopen : u.chaosdOpen) :
    u.pollChaosd c none (.readable true len (some packet)) =
      if u.bufferInUse then .ok (if 8192 < len then u.toss.forceReconnect c else u.toss)
      else u.receiveFromChaosd c len (some packet) := by
  unfold pollChaosd
  simp only [reconnected, hopen, Bool.not_true, Bool.false_eq_true, if_false]
  rfl

/-- A length that is too large closes the connection. -/
theorem pollChaosd_of_lt (c : Uch11Config) (hopen : u.chaosdOpen) (hlen : 8192 < len.toNat)
    (packet : List Byte) :
    ∃ u', u.pollChaosd c.daemon none (.readable true len (some packet)) = .ok u' ∧
      u'.chaosdOpen = false := by
  have hlarge : 8192 < len := by
    rw [BitVec.lt_def]
    exact hlen
  rw [pollChaosd_readable hopen]
  by_cases huse : u.bufferInUse
  · rw [if_pos huse, if_pos hlarge]
    exact ⟨_, rfl, rfl⟩
  · rw [if_neg huse, receiveFromChaosd, if_pos hlarge]
    exact ⟨_, rfl, rfl⟩

/-- A packet that fits is tossed, or found empty, or accepted. -/
theorem pollChaosd_of_le (hopen : u.chaosdOpen) (hlen : len.toNat ≤ 8192)
    (hpacket : packet.length ≤ len.toNat) :
    u.pollChaosd c none (.readable true len (some packet)) =
      if u.bufferInUse then .ok u.toss
      else if packet = [] then .ok { u with rcvBuffer := recvBytes u.rcvBuffer [] }
      else (u.holding packet).acceptPacket fun destAddr => destAddr = c.myaddr := by
  have hfits : ¬8192 < len := by
    rw [BitVec.lt_def]
    change ¬8192 < len.toNat
    omega
  rw [pollChaosd_readable hopen]
  by_cases huse : u.bufferInUse
  · rw [if_pos huse, if_pos huse, if_neg hfits]
  · rw [if_neg huse, if_neg huse, receiveFromChaosd, if_neg hfits]
    simp only [List.take_of_length_le hpacket]
    cases packet with
    | nil => rfl
    | cons b bs => rfl

/-- So the connection stays. -/
theorem chaosdOpen_pollChaosd (hopen : u.chaosdOpen) (hlen : len.toNat ≤ 8192)
    (hpacket : packet.length ≤ len.toNat)
    (h : u.pollChaosd c none (.readable true len (some packet)) = .ok u') : u'.chaosdOpen := by
  rw [pollChaosd_of_le hopen hlen hpacket] at h
  split at h
  · cases h
    exact hopen
  split at h
  · cases h
    exact hopen
  · rw [chaosdOpen_acceptPacket h]
    exact hopen

/-- A whole packet is handled. -/
theorem handles_pollChaosd (c : Uch11Config) (hopen : u.chaosdOpen)
    (hlen : len.toNat = f.data.length) (hfits : f.data.length ≤ 8192)
    (hplace : u.bufferInUse ∨ f.data = [] ∨ 5 ≤ f.data.length) :
    ∃ u', u.pollChaosd c none (.readable true len (some f.data)) = .ok u' ∧
      (6 ≤ f.data.length → u.Handles c u' f) := by
  rw [pollChaosd_of_le hopen (by omega) (by omega)]
  by_cases huse : u.bufferInUse
  · exact ⟨u.toss, if_pos huse, fun _ => .inr (.inr rfl)⟩
  rw [if_neg huse]
  by_cases hempty : f.data = []
  · rw [if_pos hempty]
    refine ⟨_, rfl, fun h6 => ?_⟩
    rw [hempty] at h6
    exact absurd h6 (by decide)
  rw [if_neg hempty, acceptPacket_holding c u (by tauto) hfits]
  refine ⟨_, rfl, fun _ => ?_⟩
  by_cases hmine : f.destAddr = c.myaddr
  · rw [if_pos hmine]
    exact .inl ⟨hmine, presentsFrame_holding hempty⟩
  · rw [if_neg hmine]
    exact .inr (.inl ⟨hmine, rfl, rfl, rfl, rfl⟩)

end Uch11

/-! ### What a poll does to the stream -/

namespace ChaosdLink

variable {c : Uch11Config} {garbage : Garbage} {reads : Reads} {s s' : ChaosdLink} {e : LinkEvent}
  {f : Frame} {rest : List Frame}

/-- What is not read of the stream are the frames. -/
def Aligned (s : ChaosdLink) : Prop := s.stream = s.frames.flatMap Frame.bytes

/-- The connection holds what it is given, or nothing. -/
theorem aligned_hold {u : Uch11} {stream : List Byte} {frames : List Frame}
    (h : u.chaosdOpen → stream = frames.flatMap Frame.bytes) :
    (hold u stream frames).Aligned := by
  unfold hold
  split
  · exact h ‹_›
  · rfl

theorem aligned_connected (u : Uch11) (frames : List Frame) : (connected u frames).Aligned :=
  aligned_hold fun _ => rfl

/-- Held bytes are there while the connection is open. -/
theorem stream_hold {u : Uch11} {stream : List Byte} {frames : List Frame}
    (h : (hold u stream frames).uch11.chaosdOpen) :
    u.chaosdOpen ∧ (hold u stream frames).stream = stream := by
  unfold hold at h ⊢
  split at h
  · rename_i hopen
    rw [if_pos hopen]
    exact ⟨hopen, rfl⟩
  · rename_i hclosed
    exact absurd h hclosed

@[simp] theorem uch11_hold (u : Uch11) (stream : List Byte) (frames : List Frame) :
    (hold u stream frames).uch11 = u := by
  unfold hold
  split
  · rfl
  · rfl

/-- A frame begins on the stream. -/
theorem poll_cons (hs : s.Aligned) (hframes : s.frames = f :: rest) :
    s.poll c garbage (some reads) = s.receive c garbage reads := by
  unfold Aligned at hs
  rw [hframes, List.flatMap_cons] at hs
  unfold poll
  rw [hs]
  rfl

/-- Nothing is there to be read. -/
theorem pollChaosd_nothing (u : Uch11) : u.pollChaosd c none .nothing = .ok u := by
  unfold Uch11.pollChaosd
  exact ite_self _

/-- A closed connection is not read. -/
theorem pollChaosd_closed {u : Uch11} (h : ¬u.chaosdOpen) (input : ChaosdPoll) :
    u.pollChaosd c none input = .ok u := by
  unfold Uch11.pollChaosd
  simp only [Uch11.reconnected, Bool.eq_false_iff.mpr h, Bool.not_false, if_true]
  rfl

/-- The bytes that are left by the two reads of a frame. -/
theorem receive_cons (hs : s.Aligned) (hframes : s.frames = f :: rest) {len : HalfWord}
    (hlen : declaredLength garbage (s.stream.take reads.headerSize) = len) :
    s.receive c garbage reads =
      (s.uch11.pollChaosd c none (.readable true len
        (some ((s.stream.drop reads.headerSize).take (reads.packetSize len))))).map
        fun u => hold u (s.stream.drop (reads.headerSize + reads.packetSize len)) rest := by
  have hnonempty : s.stream.take reads.headerSize ≠ [] := by
    have hpos := reads.headerSize_pos
    unfold Aligned at hs
    rw [hframes, List.flatMap_cons] at hs
    rw [hs, Ne, List.take_eq_nil_iff]
    rintro (hzero | hnil)
    · omega
    · exact absurd hnil (List.cons_ne_nil _ _)
  unfold receive
  simp only [hlen, hnonempty, ne_eq, not_false_eq_true, decide_true, hframes, List.tail_cons,
    List.drop_drop]

/-- What is behind the header of a frame. -/
theorem drop_bytes_append (f : Frame) (tail : List Byte) :
    (f.bytes ++ tail).drop 4 = f.data ++ tail := rfl

/-- What is behind a frame. -/
theorem drop_frame (f : Frame) (tail : List Byte) :
    (f.bytes ++ tail).drop (4 + f.data.length) = tail := by
  rw [← List.drop_drop, drop_bytes_append, List.drop_left]

/-- Reads that suffice for the frame that begins take it from an open connection. -/
theorem receive_of_suffice (c : Uch11Config) (garbage : Garbage) (hs : s.Aligned)
    (hopen : s.uch11.chaosdOpen) (hframes : s.frames = f :: rest) (h : reads.Suffice s.uch11 f) :
    ∃ s', s.receive c.daemon garbage reads = .ok s' ∧
      (6 ≤ f.data.length → f.data.length ≤ 8192 → s.uch11.Handles c.daemon s'.uch11 f) ∧
        (s'.uch11.chaosdOpen → s'.stream = rest.flatMap Frame.bytes) := by
  have hstream : s.stream = f.bytes ++ rest.flatMap Frame.bytes := by
    rw [hs, hframes, List.flatMap_cons]
  have hheader : reads.headerSize = min 4 reads.header.val := rfl
  have hlen := f.toNat_declaredLength garbage (rest.flatMap Frame.bytes) reads.headerSize_pos
  rw [← hstream] at hlen
  rw [receive_cons hs hframes rfl]
  generalize declaredLength garbage (s.stream.take reads.headerSize) = len at hlen
  have hpacket : reads.packetSize len = min len.toNat reads.packet.val := rfl
  by_cases hlong : 8192 < len.toNat
  · obtain ⟨u', hu', hclosed⟩ := Uch11.pollChaosd_of_lt c hopen hlong
      ((s.stream.drop reads.headerSize).take (reads.packetSize len))
    have hlarge : 8192 < f.data.length := by
      obtain hhuge | ⟨-, hlarge⟩ | ⟨hfour, -⟩ := h
      · omega
      · exact hlarge
      · rw [if_pos (by omega)] at hlen
        omega
    rw [hu']
    refine ⟨_, rfl, fun _ h8192 => by omega, fun hopen' => ?_⟩
    rw [(stream_hold hopen').1] at hclosed
    cases hclosed
  · obtain hhuge | ⟨htwo, hlarge⟩ | ⟨hfour, hwhole, hplace⟩ := h
    · omega
    · rw [if_pos (by omega)] at hlen
      omega
    rw [if_pos (by omega)] at hlen
    have hfour : reads.headerSize = 4 := by omega
    have hsize : reads.packetSize len = f.data.length := by omega
    obtain ⟨u', hu', hhandles⟩ := Uch11.handles_pollChaosd c.daemon hopen
      (show len.toNat = f.data.length by omega) (by omega) hplace
    rw [hfour, hsize, hstream, drop_bytes_append, List.take_left, drop_frame, hu']
    refine ⟨_, rfl, fun h6 _ => ?_, fun hopen' => ?_⟩
    · rw [uch11_hold]
      exact hhandles h6
    · exact (stream_hold hopen').2

/-- Reads that suffice take a frame. -/
theorem takesFrame_of_suffice (hs : s.Aligned)
    (h : s.uch11.chaosdOpen → ∀ f ∈ s.frames.head?, reads.Suffice s.uch11 f) :
    s.TakesFrame c.daemon garbage (some reads) := by
  cases hframes : s.frames with
  | nil =>
    have hstream : s.stream = [] := by
      rw [hs, hframes]
      rfl
    refine ⟨hold s.uch11 s.stream s.frames, ?_, fun _ _ f rest hcons => ?_⟩
    · unfold poll
      rw [hstream, pollChaosd_nothing]
      rfl
    · rw [hframes] at hcons
      cases hcons
  | cons f rest =>
    rw [hframes] at h
    by_cases hopen : s.uch11.chaosdOpen
    · obtain ⟨s', hpoll, htaken⟩ := receive_of_suffice c garbage hs hopen
        hframes (h hopen f rfl)
      refine ⟨s', (poll_cons hs hframes).trans hpoll, fun _ _ f' rest' hcons => ?_⟩
      rw [hframes] at hcons
      cases hcons
      exact htaken
    · refine ⟨⟨s.uch11, [], []⟩, ?_, fun _ hopen' => absurd hopen' hopen⟩
      rw [poll_cons hs hframes, receive_cons hs hframes rfl, pollChaosd_closed hopen]
      exact congrArg Except.ok (if_neg hopen)

/-- A frame is taken by reads that suffice only. -/
theorem suffice_of_takesFrame (hs : s.Aligned) (hopen : s.uch11.chaosdOpen)
    (hframes : s.frames = f :: rest) (h : s.TakesFrame c.daemon (0, 0) (some reads)) :
    reads.Suffice s.uch11 f := by
  have hstream : s.stream = f.bytes ++ rest.flatMap Frame.bytes := by
    rw [hs, hframes, List.flatMap_cons]
  have hheader : reads.headerSize = min 4 reads.header.val := rfl
  have hpos := reads.headerSize_pos
  have hlen := f.toNat_declaredLength (0, 0) (rest.flatMap Frame.bytes) hpos
  have hgarbage : ((0, 0) : Garbage).2.toNat = 0 := rfl
  rw [← hstream, hgarbage] at hlen
  obtain ⟨s', hpoll, htaken⟩ := h
  rw [poll_cons hs hframes, receive_cons hs hframes rfl] at hpoll
  generalize declaredLength (0, 0) (s.stream.take reads.headerSize) = len at hlen hpoll
  have hpacket : reads.packetSize len = min len.toNat reads.packet.val := rfl
  obtain ⟨u', hu', rfl⟩ := exists_of_map_eq_ok hpoll
  unfold Reads.Suffice
  by_cases hhuge : 0x2100 ≤ f.data.length
  · exact .inl hhuge
  by_cases hlong : 8192 < len.toNat
  · -- the high byte alone is not enough for this
    split at hlen
    · exact .inr (.inl ⟨by omega, by omega⟩)
    · omega
  have hle : len.toNat ≤ f.data.length := by
    split at hlen
    · omega
    · omega
  have hopen' : u'.chaosdOpen :=
    Uch11.chaosdOpen_pollChaosd hopen (by omega) (by rw [List.length_take]; omega) hu'
  have hrest := (htaken rfl hopen f rest hframes).2
  rw [uch11_hold] at hrest
  have hleft := (stream_hold (u := u') (by rw [uch11_hold]; exact hopen')).2.symm.trans
    (hrest hopen')
  have hlengths := congrArg List.length hleft
  rw [hstream, List.length_drop, List.length_append, Frame.length_bytes] at hlengths
  refine .inr (.inr ⟨by omega, by omega, ?_⟩)
  by_contra hplace
  rw [not_or, not_or] at hplace
  obtain ⟨huse, hnonempty, hshort⟩ := hplace
  have hpos' := List.length_pos_iff.mpr hnonempty
  have hlength : ((s.stream.drop reads.headerSize).take (reads.packetSize len)).length =
      f.data.length := by
    rw [List.length_take, List.length_drop, hstream, List.length_append, Frame.length_bytes]
    omega
  rw [Uch11.pollChaosd_of_le hopen (by omega) (by omega), if_neg huse, if_neg] at hu'
  · exact Uch11.not_acceptPacket_holding (by omega) hu'
  · intro hnil
    rw [hnil, List.length_nil] at hlength
    omega

/-- The polls that take the frame, whatever was in memory. -/
theorem framed_iff (e : LinkEvent) (hs : s.Aligned) :
    (∀ garbage, Framed c garbage e s) ↔ ReadsSuffice e s := by
  match e with
  | .transmit _ => exact ⟨fun _ => trivial, fun _ _ => trivial⟩
  | .readBuffer => exact ⟨fun _ => trivial, fun _ _ => trivial⟩
  | .reconnect _ => exact ⟨fun _ => trivial, fun _ _ => trivial⟩
  | .poll none =>
    refine ⟨fun _ => trivial, fun _ garbage => ⟨hold s.uch11 s.stream s.frames, ?_, nofun⟩⟩
    unfold poll
    rw [pollChaosd_nothing]
    rfl
  | .poll (some reads) =>
    constructor
    · intro h hopen f hf
      obtain ⟨rest, hframes⟩ := List.head?_eq_some_iff.mp hf
      exact suffice_of_takesFrame hs hopen hframes (h (0, 0))
    · intro h garbage
      exact takesFrame_of_suffice hs h

/-- A step with reads that suffice ends between two frames. -/
theorem aligned_step (hs : s.Aligned) (h : s.step c garbage e = .ok s')
    (hreads : ReadsSuffice e s) : s'.Aligned := by
  match e with
  | .transmit e =>
    obtain ⟨u', -, rfl⟩ := exists_of_map_eq_ok h
    exact aligned_hold fun _ => hs
  | .readBuffer =>
    cases h
    exact hs
  | .reconnect frames =>
    cases h
    exact aligned_connected _ _
  | .poll none =>
    obtain ⟨u', -, rfl⟩ := exists_of_map_eq_ok h
    exact aligned_hold fun _ => hs
  | .poll (some reads) =>
    change s.poll c.daemon garbage (some reads) = .ok s' at h
    cases hframes : s.frames with
    | nil =>
      have hstream : s.stream = [] := by
        rw [hs, hframes]
        rfl
      unfold poll at h
      rw [hstream] at h
      obtain ⟨u', -, rfl⟩ := exists_of_map_eq_ok h
      exact aligned_hold fun _ => by rw [hframes]; rfl
    | cons f rest =>
      rw [poll_cons hs hframes] at h
      by_cases hopen : s.uch11.chaosdOpen
      · obtain ⟨s'', hs'', -, hstream⟩ := receive_of_suffice c garbage hs hopen
          hframes (hreads hopen f (by rw [hframes]; rfl))
        obtain rfl := Except.ok.inj (h.symm.trans hs'')
        rw [receive_cons hs hframes rfl] at h
        obtain ⟨u', -, rfl⟩ := exists_of_map_eq_ok h
        rw [uch11_hold] at hstream
        refine aligned_hold fun hopen' => ?_
        rw [← hstream hopen']
        exact (stream_hold (by rw [uch11_hold]; exact hopen')).2.symm
      · rw [receive_cons hs hframes rfl, pollChaosd_closed hopen] at h
        cases h
        exact aligned_hold fun hopen' => absurd hopen' hopen

/-- In every run, with whatever was in memory where a length is read short, every poll takes the
frame that begins on the stream, if and only if the reads of each suffice for it. -/
theorem frames_taken_iff (c : Uch11Config) (interrupts : Interrupts) (frames : List Frame)
    (es : List LinkEvent) :
    Lib.EveryOutcome (step c) (Framed c) es (start interrupts frames) ↔
      Lib.EveryOutcome (step c) (fun _ => ReadsSuffice) es (start interrupts frames) :=
  Lib.everyOutcome_iff (fun e _ => framed_iff e) (fun _ _ _ _ => aligned_step)
    (aligned_connected _ frames)

/-- A packet of eight bytes, of which six are read at first. -/
theorem not_frame_taken :
    ∃ (c : Uch11Config) (interrupts : Interrupts) (f : Frame) (reads : Reads),
      ¬Lib.EveryOutcome (step c) (Framed c) [.poll (some reads)] (start interrupts [f]) := by
  refine ⟨⟨.daemon, 0o401, 0o404, false, 0⟩, ⟨0, false⟩,
    ⟨(1, 0), [0, 0, 1, 1, 4, 1, 0, 0], by decide⟩, ⟨4, 6⟩, fun h => ?_⟩
  have hsuffice := (framed_iff _ (aligned_connected _ _)).mp fun garbage => (h garbage).1
  have hreads := hsuffice rfl _ rfl
  revert hreads
  unfold Reads.Suffice
  decide

end ChaosdLink

end Usim
