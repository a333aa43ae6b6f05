import Usim.Uch11Poll

/-!
# What a datagram does to the receiver

A datagram of `chaos_poll_udp` is a packet behind a header of four bytes. Its length and its
bytes are those of the network, and the bytes of the receive buffer behind it are those of the
packet before.
-/

namespace Usim

open Lib

/-- A word of the packet in a datagram, which has network order. -/
def wireWord (datagram : List Byte) (i : ℕ) : HalfWord :=
  datagram.getD (2 * i + 4) 0 ++ datagram.getD (2 * i + 5) 0

/-- The words of the packet in a datagram. -/
def wireWords (datagram : List Byte) : ℕ := (datagram.length - 4) / 2

/-- The datagram has the version and the function, and words up to a complete trailer. -/
structure CarriesPacket (datagram : List Byte) : Prop where
  version : datagram[0]? = some 1
  function : datagram[1]? = some 1
  trailer : 10 ≤ datagram.length
  even : datagram.length % 2 = 0

/-- The hardware destination is this host, or it is a broadcast. -/
def IsForHost (c : Uch11Config) (datagram : List Byte) : Prop :=
  wireWord datagram (wireWords datagram - 3) = c.myaddr ∨
    wireWord datagram (wireWords datagram - 3) = 0

namespace Uch11

/-- What the processor reads with some accesses to the receive buffer. -/
def readWords : ℕ → Uch11 → List HalfWord
  | 0, _ => []
  | n + 1, u => u.getRcvBuffer.1 :: readWords n u.getRcvBuffer.2

/-- The packet of the datagram is presented: the receiver is done, with an interrupt if it is
enabled, and the words that can be read are those of the packet. -/
structure PresentsDatagram (u u' : Uch11) (datagram : List Byte) : Prop where
  csr : u'.csr = u.csr ||| 0o100000
  interrupts : u'.interrupts =
    if u.receiveEnable then assertUnibusInterrupt 0o270 u.interrupts else u.interrupts
  size : u'.rcvBufferSize = wireWords datagram
  first : u'.rcvBufferPtr = 0
  unread : u'.rcvBufferEmpty = false
  bitCount : u'.bitCount = wireWords datagram * 16 - 1
  words : u'.readWords (wireWords datagram) = (List.range (wireWords datagram)).map
    (wireWord datagram)

/-- The receiver is as it was. -/
structure SameReceiver (u u' : Uch11) : Prop where
  size : u'.rcvBufferSize = u.rcvBufferSize
  ptr : u'.rcvBufferPtr = u.rcvBufferPtr
  empty : u'.rcvBufferEmpty = u.rcvBufferEmpty
  csr : u'.csr = u.csr

/-- A datagram in an open socket is presented, or leaves the receiver as it was, whatever the
receive buffer holds. -/
def ReceivesOrKeeps (c : Uch11Config) (u : Uch11) (queuehead : List ChaosPacket)
    (datagram : List Byte) : Prop :=
  ∃ u' queue', u.pollUdp c (.datagram (some datagram)) queuehead = .ok (u', queue') ∧
    (CarriesPacket datagram ∧ IsForHost c datagram → u.PresentsDatagram u' datagram) ∧
    (¬(CarriesPacket datagram ∧ IsForHost c datagram) → u.SameReceiver u')

/-- The datagram is read, and the buffer has the version and the function at its start. -/
def FindsHeader (u : Uch11) (datagram : List Byte) : Prop :=
  u.chaosdOpen ∧ ¬u.bufferInUse ∧ datagram ≠ [] ∧ datagram.length ≤ 514 ∧
    datagram.getD 0 (byteAt u.rcvBuffer 0) = 1 ∧ datagram.getD 1 (byteAt u.rcvBuffer 1) = 1

/-- What a datagram does: it is tossed while the receive buffer is in use. Otherwise, one of
no more than 514 bytes with a packet for this host is presented, one for another host
empties the buffer, and none else does anything to the receiver. -/
structure Received (c : Uch11Config) (u u' : Uch11) (datagram : List Byte) : Prop where
  tossed : u.chaosdOpen → u.bufferInUse → u' = u.toss
  presented : u.FindsHeader datagram → IsForHost c datagram → u.PresentsDatagram u' datagram
  foreign : u.FindsHeader datagram → ¬IsForHost c datagram →
    u'.rcvBufferSize = 0 ∧ u'.rcvBufferEmpty = true ∧ u'.rcvBufferPtr = u.rcvBufferPtr ∧
      u'.csr = u.csr
  kept : ¬u.FindsHeader datagram → u.SameReceiver u'

end Uch11

/-! ### Bytes of half words -/

/-- An array of bytes, read as half words and then as bytes. -/
theorem byteAt_halfWords (bytes : ℕ → Byte) (k : ℕ) : byteAt (halfWords bytes) k = bytes k := by
  unfold byteAt halfWords
  obtain heven | hodd := Nat.mod_two_eq_zero_or_one k
  · rw [heven]
    have hk : 2 * (k / 2) = k := by omega
    ext i hi
    rw [BitVec.getElem_extractLsb', BitVec.getLsbD_append, if_pos (by omega), hk,
      Nat.mul_zero, Nat.zero_add, BitVec.getLsbD_eq_getElem]
  · rw [hodd]
    have hk : 2 * (k / 2) + 1 = k := by omega
    ext i hi
    rw [BitVec.getElem_extractLsb', BitVec.getLsbD_append, if_neg (by omega), hk,
      Nat.mul_one, Nat.add_sub_cancel_left, BitVec.getLsbD_eq_getElem]

/-- A swap exchanges the two bytes. -/
theorem ntohs_append (a b : Byte) : ntohs (a ++ b) = b ++ a := by
  unfold ntohs
  congr 1
  · ext i hi
    rw [BitVec.getElem_extractLsb', BitVec.getLsbD_append, if_pos (by omega), Nat.zero_add,
      BitVec.getLsbD_eq_getElem]
  · ext i hi
    rw [BitVec.getElem_extractLsb', BitVec.getLsbD_append, if_neg (by omega),
      Nat.add_sub_cancel_left, BitVec.getLsbD_eq_getElem]
/-- The bytes of a datagram are in front of the bytes that were there. -/
theorem byteAt_recvBytes (buffer : ℕ → HalfWord) (bs : List Byte) (k : ℕ) :
    byteAt (recvBytes buffer bs) k = bs.getD k (byteAt buffer k) :=
  byteAt_halfWords _ k

/-- A word behind the header, moved to the start and swapped. -/
theorem ntohsBuf_moveDown (buffer : ℕ → HalfWord) {len i : ℕ} (h : 2 * i + 1 < len) :
    ntohsBuf (moveDown buffer len) len i =
      byteAt buffer (2 * i + 4) ++ byteAt buffer (2 * i + 5) := by
  have hfirst : 2 * i < len := by omega
  unfold ntohsBuf moveDown halfWords
  simp only [if_pos hfirst, if_pos h, ntohs_append]

/-- The words of the packet, as they are in the receive buffer in the end. -/
theorem ntohsBuf_recvBytes (buffer : ℕ → HalfWord) {datagram : List Byte} {i : ℕ}
    (hi : i < wireWords datagram) :
    ntohsBuf (moveDown (recvBytes buffer datagram) (datagram.length - 4)) (datagram.length - 4) i =
      wireWord datagram i := by
  have hplace : 2 * i + 1 < datagram.length - 4 := by
    unfold wireWords at hi
    omega
  rw [ntohsBuf_moveDown _ hplace, byteAt_recvBytes, byteAt_recvBytes, wireWord,
    List.getD_eq_getElem _ _ (show 2 * i + 4 < datagram.length by omega),
    List.getD_eq_getElem _ _ (show 2 * i + 5 < datagram.length by omega),
    List.getD_eq_getElem _ _ (show 2 * i + 4 < datagram.length by omega),
    List.getD_eq_getElem _ _ (show 2 * i + 5 < datagram.length by omega)]

namespace Uch11

variable {c : Uch11Config} {u : Uch11} {datagram : List Byte}

/-- Reads return the words from the place of the buffer on. -/
theorem readWords_eq {n : ℕ} (h : u.rcvBufferPtr + n ≤ u.rcvBufferSize) :
    u.readWords n = (List.range n).map fun i => u.rcvBuffer (u.rcvBufferPtr + i) := by
  induction n generalizing u with
  | zero => rfl
  | succ n ih =>
    have hunread : u.rcvBufferPtr < u.rcvBufferSize := by omega
    have hrest : u.getRcvBuffer.2.rcvBufferPtr + n ≤ u.getRcvBuffer.2.rcvBufferSize := by
      unfold getRcvBuffer
      rw [if_pos hunread]
      simp only
      omega
    rw [readWords, ih hrest, List.range_succ_eq_map, List.map_cons, List.map_map]
    unfold getRcvBuffer
    rw [if_pos hunread]
    congr 1
    apply List.map_congr_left
    intro i _
    simp only [Function.comp_apply]
    congr 1
    omega

/-- A datagram without the header is only stored. -/
theorem receiveDatagram_of_not (hopen : u.chaosdOpen) (hfree : ¬u.bufferInUse)
    (h : ¬u.FindsHeader datagram) :
    ∃ u', u.receiveDatagram c datagram = .ok u' ∧ u.SameReceiver u' := by
  unfold receiveDatagram
  simp only
  refine ⟨{ u with rcvBuffer := recvBytes u.rcvBuffer (datagram.take 8192) }, ?_, rfl, rfl, rfl,
    rfl⟩
  by_cases hlength : (datagram.take 8192).length = 0 ∨ 514 < (datagram.take 8192).length
  · rw [if_pos hlength]
    rfl
  · rw [if_neg hlength, if_pos]
    · rfl
    · by_contra hheader
      rw [List.length_take] at hlength
      rw [byteAt_recvBytes, byteAt_recvBytes, List.take_of_length_le (by omega)] at hheader
      refine h ⟨hopen, hfree, ?_, by omega, by tauto, by tauto⟩
      rintro rfl
      exact hlength (.inl rfl)

/-- The datagram is behind the checks of the length and of the header. -/
theorem receiveDatagram_of_findsHeader (h : u.FindsHeader datagram) :
    u.receiveDatagram c datagram = (do
      Uch11Array.rcvBuffer.accessBytes 4 (BitVec.ofNat 64 datagram.length - 4).toNat
      Uch11Array.rcvBuffer.accessRange 0 ((datagram.length - 4 + 1) / 2)
      { u with
        rcvBuffer := ntohsBuf (moveDown (recvBytes u.rcvBuffer datagram) (datagram.length - 4))
          (datagram.length - 4)
        rcvBufferSize := (datagram.length - 4 + 1) / 2
        rcvBufferEmpty := false }.acceptPacket fun destAddr =>
          destAddr = c.myaddr || destAddr = 0) := by
  obtain ⟨-, -, hnonempty, hlength, hversion, hfunction⟩ := h
  have htake : datagram.take 8192 = datagram := List.take_of_length_le (by omega)
  have hpos := List.length_pos_iff.mpr hnonempty
  unfold receiveDatagram
  simp only [htake]
  rw [if_neg (by omega), if_neg]
  rw [byteAt_recvBytes, byteAt_recvBytes]
  tauto

/-- The packet is in the buffer. -/
def stored (u : Uch11) (datagram : List Byte) : Uch11 :=
  { u with
    rcvBuffer := ntohsBuf (moveDown (recvBytes u.rcvBuffer datagram) (datagram.length - 4))
      (datagram.length - 4)
    rcvBufferSize := wireWords datagram
    rcvBufferEmpty := false }

/-- The bytes behind the header. -/
theorem toNat_ofNat_sub_four (n : ℕ) (hlow : 4 ≤ n) (hhigh : n < 2 ^ 64) :
    (BitVec.ofNat 64 n - 4).toNat = n - 4 := by
  rw [BitVec.toNat_sub, BitVec.toNat_ofNat]
  change (2 ^ 64 - 4 + n % 2 ^ 64) % 2 ^ 64 = _
  omega

/-- A complete packet is presented if it is for this host. -/
theorem receiveDatagram_of_carriesPacket (h : u.FindsHeader datagram)
    (hcarries : CarriesPacket datagram) :
    (IsForHost c datagram → u.receiveDatagram c datagram = .ok (u.stored datagram).rxPkt) ∧
      (¬IsForHost c datagram → u.receiveDatagram c datagram =
        .ok { u.stored datagram with rcvBufferSize := 0, rcvBufferEmpty := true }) := by
  have htrailer := hcarries.trailer
  have heven := hcarries.even
  have hlength := h.2.2.2.1
  have hwords : (datagram.length - 4 + 1) / 2 = wireWords datagram := by
    unfold wireWords
    omega
  have hplace : 3 ≤ wireWords datagram ∧ wireWords datagram ≤ 255 := by
    unfold wireWords
    omega
  have hcopy := toNat_ofNat_sub_four datagram.length (by omega) (by omega)
  have hbytes : Uch11Array.rcvBuffer.accessBytes 4 (datagram.length - 4) = .ok () :=
    if_pos (by simp only [Uch11Array.words]; omega)
  have hrange : Uch11Array.rcvBuffer.accessRange 0 (wireWords datagram) = .ok () :=
    if_pos (by simp only [Uch11Array.words]; omega)
  have haccess : Uch11Array.rcvBuffer.access ((wireWords datagram : ℤ) - 3) = .ok () :=
    if_pos (by simp only [Uch11Array.words]; omega)
  have hdest : (u.stored datagram).rcvBuffer (wireWords datagram - 3) =
      wireWord datagram (wireWords datagram - 3) := ntohsBuf_recvBytes _ (by omega)
  have haccept : u.receiveDatagram c datagram = (u.stored datagram).acceptPacket fun destAddr =>
      destAddr = c.myaddr || destAddr = 0 := by
    rw [receiveDatagram_of_findsHeader h, hcopy, hwords, hbytes, hrange]
    rfl
  rw [haccept]
  unfold acceptPacket
  rw [show (u.stored datagram).rcvBufferSize = wireWords datagram from rfl, haccess, hdest]
  constructor
  · intro hhost
    exact if_pos (by simpa [IsForHost] using hhost)
  · intro hforeign
    exact if_neg (by simpa [IsForHost] using hforeign)

/-- The packet that is in the buffer is presented. -/
theorem presentsDatagram_stored (hcarries : CarriesPacket datagram) :
    u.PresentsDatagram (u.stored datagram).rxPkt datagram := by
  have htrailer := hcarries.trailer
  have hpos : 0 < wireWords datagram := by
    unfold wireWords
    omega
  have hrx : (u.stored datagram).rxPkt =
      { u.stored datagram with
        rcvBufferPtr := 0
        bitCount := (wireWords datagram * 2 * 8 : ℤ) - 1
        csr := u.csr ||| 0o100000
        interrupts := if u.receiveEnable then assertUnibusInterrupt 0o270 u.interrupts
          else u.interrupts } := by
    unfold rxPkt
    exact if_pos hpos
  rw [hrx]
  refine ⟨rfl, rfl, rfl, rfl, rfl, ?_, ?_⟩
  · change (wireWords datagram * 2 * 8 : ℤ) - 1 = _
    omega
  · rw [readWords_eq (by simp [stored])]
    apply List.map_congr_left
    intro i hi
    rw [Nat.zero_add]
    exact ntohsBuf_recvBytes _ (List.mem_range.mp hi)

/-- A datagram that does not end before its trailer is received within the receive buffer. -/
theorem inBounds_receiveDatagram (h : u.FindsHeader datagram) (hlength : 9 ≤ datagram.length) :
    InBounds (u.receiveDatagram c datagram) := by
  have hmax := h.2.2.2.1
  have hcopy := toNat_ofNat_sub_four datagram.length (by omega) (by omega)
  have hbytes : InBounds (Uch11Array.rcvBuffer.accessBytes 4 (datagram.length - 4)) :=
    ⟨(), if_pos (by simp only [Uch11Array.words]; omega)⟩
  rw [receiveDatagram_of_findsHeader h, hcopy]
  unfold acceptPacket
  refine inBounds_check.mpr ⟨hbytes, inBounds_check.mpr ⟨inBounds_accessRange.mpr ?_,
    inBounds_check.mpr ⟨inBounds_access.mpr ?_, ?_⟩⟩⟩
  · simp only [Uch11Array.words]
    omega
  · simp only [Uch11Array.words]
    omega
  · split
    · exact inBounds_pure _
    · exact inBounds_pure _

/-- What is read from the socket. -/
theorem pollSocket_eq (hopen : u.chaosdOpen) (hfree : ¬u.bufferInUse) :
    u.pollSocket c (.datagram (some datagram)) = u.receiveDatagram c datagram := by
  unfold pollSocket
  rw [hopen]
  simp only [Bool.not_true, Bool.false_eq_true, if_false]
  rw [if_neg hfree]

/-- The socket is polled, with a datagram in it that is complete if it has the header. -/
theorem pollSocket_received (c : Uch11Config)
    (hcomplete : u.FindsHeader datagram → CarriesPacket datagram) :
    ∃ u', u.pollSocket c (.datagram (some datagram)) = .ok u' ∧ u.Received c u' datagram := by
  by_cases hopen : u.chaosdOpen
  · by_cases huse : u.bufferInUse
    · refine ⟨u.toss, ?_, ⟨fun _ _ => rfl, fun h => absurd huse h.2.1, fun h => absurd huse h.2.1,
        fun _ => ⟨rfl, rfl, rfl, rfl⟩⟩⟩
      unfold pollSocket
      rw [hopen]
      simp only [Bool.not_true, Bool.false_eq_true, if_false]
      rw [if_pos huse]
      rfl
    · rw [pollSocket_eq hopen huse]
      by_cases hheader : u.FindsHeader datagram
      · have hcarries := hcomplete hheader
        obtain ⟨hours, hforeign⟩ := receiveDatagram_of_carriesPacket (c := c) hheader hcarries
        by_cases hhost : IsForHost c datagram
        · exact ⟨_, hours hhost, fun _ h => absurd h huse,
            fun _ _ => presentsDatagram_stored hcarries, fun _ h => absurd hhost h,
            fun h => absurd hheader h⟩
        · exact ⟨_, hforeign hhost, fun _ h => absurd h huse, fun _ h => absurd h hhost,
            fun _ _ => ⟨rfl, rfl, rfl, rfl⟩, fun h => absurd hheader h⟩
      · obtain ⟨u', hreceive, hsame⟩ := receiveDatagram_of_not (c := c) hopen huse hheader
        exact ⟨u', hreceive, fun _ h => absurd h huse, fun h => absurd h hheader,
          fun h => absurd h hheader, fun _ => hsame⟩
  · refine ⟨u, ?_, fun h => absurd h hopen, fun h => absurd h.1 hopen, fun h => absurd h.1 hopen,
      fun _ => ⟨rfl, rfl, rfl, rfl⟩⟩
    unfold pollSocket
    rw [Bool.eq_false_iff.mpr hopen]
    rfl

/-- For every datagram and every state of the receiver, a poll stays within the receive buffer
unless the datagram has the header and ends before its trailer, and does to the receiver
what it should unless the datagram has the header and no complete packet. -/
theorem pollUdp_received (c : Uch11Config) (u : Uch11) (queuehead : List ChaosPacket)
    (datagram : List Byte) :
    (¬((u.pollHybrid c queuehead).1.FindsHeader datagram ∧ datagram.length < 9) →
      InBounds (u.pollUdp c (.datagram (some datagram)) queuehead)) ∧
    (((u.pollHybrid c queuehead).1.FindsHeader datagram → CarriesPacket datagram) →
      ∃ u', u.pollUdp c (.datagram (some datagram)) queuehead =
          .ok (u', (u.pollHybrid c queuehead).2) ∧
        (u.pollHybrid c queuehead).1.Received c u' datagram) := by
  unfold pollUdp
  simp only
  generalize u.pollHybrid c queuehead = r
  constructor
  · intro hlong
    by_cases hheader : r.1.FindsHeader datagram
    · have hlength : 9 ≤ datagram.length := by
        by_contra hshort
        exact hlong ⟨hheader, by omega⟩
      rw [pollSocket_eq hheader.1 hheader.2.1]
      obtain ⟨u', hreceive⟩ := inBounds_receiveDatagram (c := c) hheader hlength
      rw [hreceive]
      exact inBounds_ok _
    · obtain ⟨u', hpoll, -⟩ :=
        pollSocket_received c fun h : r.1.FindsHeader datagram => absurd h hheader
      rw [hpoll]
      exact inBounds_ok _
  · intro hcomplete
    obtain ⟨u', hpoll, hreceived⟩ := pollSocket_received c hcomplete
    rw [hpoll]
    exact ⟨u', rfl, hreceived⟩

/-- Five words of a packet are in the buffer, which are unread or are read to the end. -/
def readUp (unread : Bool) : Uch11 :=
  { init ⟨0, false⟩ true with
    csr := if unread then 0o100000 else 0, rcvBufferSize := 5, rcvBufferEmpty := !unread }

/-- The host 401. -/
def udp401 : Uch11Config := ⟨.udp, 0o401, 0o404, false, 0o3040⟩

/-- Without local traffic, a poll is one of the socket. -/
theorem pollUdp_udp401 (u : Uch11) (input : UdpPoll) :
    u.pollUdp udp401 input [] = (u.pollSocket udp401 input).map fun u => (u, []) := rfl

/-- A packet for this host is tossed while words are unread, and is not accepted with 512 bytes.
One for another host empties the buffer. -/
theorem not_receivesOrKeeps :
    ¬(readUp true).ReceivesOrKeeps udp401 [] [1, 1, 0, 0, 1, 1, 0, 0, 0, 0] ∧
      ¬(readUp false).ReceivesOrKeeps udp401 [] (List.replicate 516 1) ∧
      ¬(readUp false).ReceivesOrKeeps udp401 [] [1, 1, 0, 0, 2, 2, 0, 0, 0, 0] := by
  refine ⟨?_, ?_, ?_⟩
  · rintro ⟨u', queue', hpoll, hpresents, -⟩
    change Except.ok ((readUp true).toss, []) = _ at hpoll
    obtain ⟨rfl, -⟩ := Prod.mk.inj (Except.ok.inj hpoll)
    have hsize := (hpresents ⟨⟨rfl, rfl, by decide, rfl⟩, .inl rfl⟩).size
    exact absurd hsize (by decide)
  · rintro ⟨u', queue', hpoll, hpresents, -⟩
    have hheader : ¬(readUp false).FindsHeader (List.replicate 516 1) := fun h => by
      have hlength := h.2.2.2.1
      rw [List.length_replicate] at hlength
      omega
    obtain ⟨u'', hreceive, hsame⟩ :=
      receiveDatagram_of_not (c := udp401) (u := readUp false) rfl (by decide) hheader
    rw [pollUdp_udp401, pollSocket_eq rfl (by decide), hreceive] at hpoll
    obtain ⟨rfl, -⟩ := Prod.mk.inj (Except.ok.inj hpoll)
    have hcarries : CarriesPacket (List.replicate 516 1) := by
      refine ⟨rfl, rfl, ?_, ?_⟩
      · rw [List.length_replicate]
        omega
      · rw [List.length_replicate]
    have hhost : IsForHost udp401 (List.replicate 516 1) := by
      left
      simp only [wireWord, wireWords, List.length_replicate, List.getD_eq_getElem?_getD,
        List.getElem?_replicate]
      rfl
    have hsize := (hpresents ⟨hcarries, hhost⟩).size
    rw [hsame.size, wireWords, List.length_replicate] at hsize
    exact absurd hsize (by decide)
  · rintro ⟨u', queue', hpoll, -, hkeeps⟩
    have hheader : (readUp false).FindsHeader [1, 1, 0, 0, 2, 2, 0, 0, 0, 0] :=
      ⟨rfl, by decide, by decide, by decide, rfl, rfl⟩
    have hforeign : ¬IsForHost udp401 [1, 1, 0, 0, 2, 2, 0, 0, 0, 0] := fun h => h.elim
      (fun hours => absurd hours (by decide)) fun hbroadcast => absurd hbroadcast (by decide)
    have hreceive := (receiveDatagram_of_carriesPacket (c := udp401) hheader
      ⟨rfl, rfl, by decide, rfl⟩).2 hforeign
    rw [pollUdp_udp401, pollSocket_eq rfl (by decide), hreceive] at hpoll
    obtain ⟨rfl, -⟩ := Prod.mk.inj (Except.ok.inj hpoll)
    have hsize := (hkeeps fun h => hforeign h.2).size
    exact absurd hsize (by decide)

end Uch11

end Usim
