import Mathlib.Algebra.BigOperators.Group.List.Basic
import Mathlib.Data.Nat.ModEq
import Usim.Uch11Transmit
import Usim.Lib.Bytes

/-!
# The checksum of a datagram

`chaos_send_to_udp` computes the checksum over the words of the packet in the byte order of
the guest, and swaps the words before they leave. A swap multiplies a word by 256 modulo
65535, so the sum that the receiver computes is that of the sender multiplied by 256.
-/

namespace Usim

open Lib

/-- The sum of RFC 1071: the words of a string in network order. A last byte that is left over
is the high byte of a word. -/
def rfc1071Sum : List Byte → ℕ
  | a :: b :: bs => a.toNat * 256 + b.toNat + rfc1071Sum bs
  | [a] => a.toNat * 256
  | [] => 0

/-- The checksum of RFC 1071, with which a string that contains its checksum verifies if it
is 0. -/
def rfc1071Checksum (bs : List Byte) : HalfWord := ~~~BitVec.ofNat 16 (foldSum (rfc1071Sum bs))

/-- The bytes of words as they lie in memory, and on the wire. -/
def wordBytes (words : List HalfWord) : List Byte :=
  words.flatMap fun (w : HalfWord) => [w.setWidth 8, (w >>> 8).setWidth 8]

/-! ### The sum modulo 65535 -/

/-- Folding keeps a sum modulo 65535. -/
theorem foldSum_modEq (sum : ℕ) : foldSum sum ≡ sum [MOD 65535] := by
  induction sum using foldSum.induct with
  | case1 sum hsmall =>
    rw [foldSum, if_pos hsmall]
  | case2 sum hlarge ih =>
    rw [foldSum, if_neg hlarge]
    have hfold : sum % 0x10000 + sum / 0x10000 ≡ sum [MOD 65535] := by
      unfold Nat.ModEq
      omega
    exact ih.trans hfold

/-- A folded sum is one of 16 bits. -/
theorem foldSum_lt (sum : ℕ) : foldSum sum < 0x10000 := by
  induction sum using foldSum.induct with
  | case1 sum hsmall =>
    rw [foldSum, if_pos hsmall]
    omega
  | case2 sum hlarge ih =>
    rw [foldSum, if_neg hlarge]
    exact ih

/-- Only an empty sum is folded to 0. -/
theorem foldSum_pos {sum : ℕ} (h : 0 < sum) : 0 < foldSum sum := by
  induction sum using foldSum.induct with
  | case1 sum hsmall =>
    rw [foldSum, if_pos hsmall]
    exact h
  | case2 sum hlarge ih =>
    rw [foldSum, if_neg hlarge]
    exact ih (by omega)

/-- A sum verifies if it is positive and a multiple of 65535. -/
theorem foldSum_eq_of_modEq {sum : ℕ} (hpos : 0 < sum) (h : sum ≡ 0 [MOD 65535]) :
    foldSum sum = 0xFFFF := by
  have hfolded : foldSum sum % 65535 = 0 := (foldSum_modEq sum).trans h
  have hpos' := foldSum_pos hpos
  have hlt := foldSum_lt sum
  omega

/-- A swapped word, as a number. -/
theorem toNat_ntohs (w : HalfWord) : (ntohs w).toNat = w.toNat % 256 * 256 + w.toNat / 256 := by
  have hlt := w.isLt
  rw [ntohs, BitVec.toNat_append, BitVec.extractLsb'_toNat, BitVec.extractLsb'_toNat,
    Nat.shiftRight_zero, Nat.shiftRight_eq_div_pow, ← Nat.shiftLeft_add_eq_or_of_lt (by omega),
    Nat.shiftLeft_eq]
  omega

/-- A swap multiplies by 256. -/
theorem toNat_ntohs_modEq (w : HalfWord) : (ntohs w).toNat ≡ 256 * w.toNat [MOD 65535] := by
  have hlt := w.isLt
  rw [toNat_ntohs]
  unfold Nat.ModEq
  omega

/-- A word is the swap of its swap. -/
theorem ntohs_ntohs (w : HalfWord) : ntohs (ntohs w) = w := by
  apply BitVec.eq_of_toNat_eq
  have hlt := w.isLt
  rw [toNat_ntohs, toNat_ntohs]
  omega

/-- The sum of swapped words. -/
theorem sum_ntohs_modEq (words : List HalfWord) :
    (words.map fun w => w.toNat).sum ≡
      256 * (words.map fun w => (ntohs w).toNat).sum [MOD 65535] := by
  induction words with
  | nil => rfl
  | cons w words ih =>
    rw [List.map_cons, List.map_cons, List.sum_cons, List.sum_cons, Nat.mul_add]
    have hw := toNat_ntohs_modEq (ntohs w)
    rw [ntohs_ntohs] at hw
    exact hw.add ih

/-- What the receiver adds up for the words on the wire. -/
theorem rfc1071Sum_wordBytes (words : List HalfWord) :
    rfc1071Sum (wordBytes words) = (words.map fun w => (ntohs w).toNat).sum := by
  induction words with
  | nil => rfl
  | cons w words ih =>
    have hlt := w.isLt
    have hlow : (w.setWidth 8).toNat = w.toNat % 256 := BitVec.toNat_setWidth 8 w
    have hhigh : ((w >>> 8).setWidth 8).toNat = w.toNat / 256 := by
      rw [BitVec.toNat_setWidth, BitVec.toNat_ushiftRight, Nat.shiftRight_eq_div_pow]
      omega
    rw [wordBytes, List.flatMap_cons]
    change (w.setWidth 8).toNat * 256 + ((w >>> 8).setWidth 8).toNat +
      rfc1071Sum (wordBytes words) = _
    rw [ih, hlow, hhigh, List.map_cons, List.sum_cons, toNat_ntohs]

/-- Words followed by their swapped checksum verify once they are swapped. -/
theorem rfc1071Checksum_eq_zero {words : List HalfWord} {checksum : HalfWord}
    (h : checksum =
      ~~~BitVec.ofNat 16 (foldSum ((words.map fun w => (ntohs w).toNat).sum))) :
    rfc1071Checksum (wordBytes ((words ++ [ntohs checksum]).map ntohs)) = 0 := by
  have hsum : rfc1071Sum (wordBytes ((words ++ [ntohs checksum]).map ntohs)) =
      (words.map fun w => w.toNat).sum + (ntohs checksum).toNat := by
    rw [rfc1071Sum_wordBytes, List.map_map, List.map_append, List.sum_append]
    simp only [Function.comp_def, ntohs_ntohs, List.map_cons, List.map_nil, List.sum_cons,
      List.sum_nil, Nat.add_zero]
  have hwords := sum_ntohs_modEq words
  have hchecksum := toNat_ntohs_modEq checksum
  have hfold := foldSum_modEq ((words.map fun w => (ntohs w).toNat).sum)
  have hlt := foldSum_lt ((words.map fun w => (ntohs w).toNat).sum)
  have hvalue : checksum.toNat + foldSum ((words.map fun w => (ntohs w).toNat).sum) = 65535 := by
    rw [h, BitVec.toNat_not, BitVec.toNat_ofNat, Nat.mod_eq_of_lt hlt]
    omega
  have htotal : (words.map fun w => w.toNat).sum + (ntohs checksum).toNat ≡ 0 [MOD 65535] := by
    calc (words.map fun w => w.toNat).sum + (ntohs checksum).toNat
        ≡ 256 * (words.map fun w => (ntohs w).toNat).sum + 256 * checksum.toNat [MOD 65535] :=
          hwords.add hchecksum
      _ ≡ 256 * foldSum ((words.map fun w => (ntohs w).toNat).sum) + 256 * checksum.toNat
          [MOD 65535] := (hfold.symm.mul_left 256).add_right _
      _ ≡ 0 [MOD 65535] := by
          rw [← Nat.mul_add, Nat.add_comm, hvalue]
          rfl
  have hpos : 0 < (words.map fun w => w.toNat).sum + (ntohs checksum).toNat := by
    by_contra hzero
    have hnone : (words.map fun w => w.toNat).sum = 0 := by omega
    have hlast : (ntohs checksum).toNat = 0 := by omega
    have hswapped : (words.map fun w => (ntohs w).toNat).sum = 0 := by
      rw [List.sum_eq_zero_iff_forall_eq_nat] at hnone ⊢
      intro n hn
      obtain ⟨w, hw, rfl⟩ := List.mem_map.mp hn
      have hw' := hnone _ (List.mem_map_of_mem hw)
      rw [toNat_ntohs, hw']
    rw [hswapped, foldSum, if_pos rfl] at hvalue
    rw [toNat_ntohs] at hlast
    omega
  rw [rfc1071Checksum, hsum, foldSum_eq_of_modEq hpos htotal]
  rfl

/-! ### What is put on the wire -/

/-- An access that is within the array. -/
theorem Uch11Array.access_eq {a : Uch11Array} {index : ℤ} (h : 0 ≤ index ∧ index < a.words) :
    a.access index = .ok () := if_pos h

theorem Uch11Array.accessRange_eq {a : Uch11Array} {index n : ℕ} (h : index + n ≤ a.words) :
    a.accessRange index n = .ok () := if_pos h

namespace Uch11

variable {c : Uch11Config} {u : Uch11} {n : ℕ}

/-- The words of a packet with the address of the bridge in its trailer, but for the checksum. -/
def bridgeWords (c : Uch11Config) (u : Uch11) (offs : ℕ) : List HalfWord :=
  (List.range (offs + 2)).map (Function.update u.xmitBuffer offs c.udpBridgeChaddr)

/-- The words of an array up to the one stored last. -/
theorem map_range_update (words : ℕ → HalfWord) (m : ℕ) (w : HalfWord) (f : HalfWord → HalfWord) :
    (List.range (m + 1)).map (fun i => f (Function.update words m w i)) =
      ((List.range m).map words ++ [w]).map f := by
  rw [List.range_succ, List.map_append, List.map_append, List.map_map, List.map_cons,
    List.map_cons, List.map_nil, List.map_nil, Function.update_self]
  refine congrArg (· ++ _) (List.map_congr_left fun i hi => ?_)
  have hlt := List.mem_range.mp hi
  rw [Function.update_of_ne (by omega)]
  rfl

/-- The words that are encapsulated. -/
theorem encapsulate_eq (hlength : (u.xmitBuffer 1 &&& 0o7777).toNat ≤ 488)
    (hn : n = trailerOffset (u.xmitBuffer 1) + 3) :
    ∃ checksum, checksum = ~~~BitVec.ofNat 16 (foldSum
        (((u.bridgeWords c (n - 3)).map fun w => (ntohs w).toNat).sum)) ∧
      u.encapsulate c n =
        .ok (0x0101 :: 0 :: (u.bridgeWords c (n - 3) ++ [ntohs checksum]).map ntohs) := by
  have hoffs := (trailerOffset_le (u.xmitBuffer 1)).mpr hlength
  have h1 : (if 1 < n then u.xmitBuffer 1 else 0) = u.xmitBuffer 1 := if_pos (by omega)
  unfold encapsulate
  simp only [h1]
  generalize hoff : trailerOffset (u.xmitBuffer 1) = offs at hn hoffs
  have hr0 : Uch11Array.transChudpbuf.accessRange 2 n = .ok () :=
    Uch11Array.accessRange_eq (by simp only [Uch11Array.words]; omega)
  have ha1 : Uch11Array.transChudpbuf.access (2 + 1) = .ok () :=
    Uch11Array.access_eq (by simp only [Uch11Array.words]; omega)
  have ha2 : Uch11Array.transChudpbuf.access (2 + (offs : ℤ)) = .ok () :=
    Uch11Array.access_eq (by simp only [Uch11Array.words]; omega)
  have hr1 : Uch11Array.transChudpbuf.accessRange 2 (n - 1) = .ok () :=
    Uch11Array.accessRange_eq (by simp only [Uch11Array.words]; omega)
  have ha3 : Uch11Array.transChudpbuf.access (2 + (offs : ℤ) + 2) = .ok () :=
    Uch11Array.access_eq (by simp only [Uch11Array.words]; omega)
  have hr2 : Uch11Array.transChudpbuf.accessRange 0 (n + 2) = .ok () :=
    Uch11Array.accessRange_eq (by simp only [Uch11Array.words]; omega)
  rw [hr0, ha1, ha2, hr1, ha3, hr2]
  -- the address of the bridge is stored unless it is there
  have hbridge : (if (if offs < n then u.xmitBuffer offs else 0) ≠ c.udpBridgeChaddr then
        Function.update (fun i => if i < n then u.xmitBuffer i else 0) offs c.udpBridgeChaddr
      else fun i => if i < n then u.xmitBuffer i else 0) =
      Function.update (fun i => if i < n then u.xmitBuffer i else 0) offs c.udpBridgeChaddr := by
    by_cases hthere : (if offs < n then u.xmitBuffer offs else 0) = c.udpBridgeChaddr
    · rw [if_neg (not_not_intro hthere), Function.update_eq_self_iff.mpr hthere.symm]
    · rw [if_pos hthere]
  rw [hbridge]
  have hwords : (List.range (n - 1)).map
      (Function.update (fun i => if i < n then u.xmitBuffer i else 0) offs c.udpBridgeChaddr) =
      u.bridgeWords c (n - 3) := by
    rw [bridgeWords, show n - 3 = offs by omega, show n - 1 = offs + 2 by omega]
    refine List.map_congr_left fun i hi => ?_
    have hlt := List.mem_range.mp hi
    unfold Function.update
    split
    · rfl
    · exact if_pos (by omega)
  generalize hop : Function.update (fun i => if i < n then u.xmitBuffer i else 0) offs
    c.udpBridgeChaddr = op at hwords
  have hchecksum : uch11Checksum op (n - 1) = ~~~BitVec.ofNat 16 (foldSum
      (((u.bridgeWords c (n - 3)).map fun w => (ntohs w).toNat).sum)) := by
    rw [uch11Checksum, ← hwords, List.map_map]
    rfl
  refine ⟨_, hchecksum, ?_⟩
  have hplace : n = (offs + 2) + 1 ∧ n - 1 = offs + 2 := by omega
  rw [← hwords, hplace.2, ← map_range_update, ← hplace.1]
  rfl

/-- The words in the transmit buffer are a packet, with its data as long as the header says, and
the hardware destination. -/
structure WellFormedPacket (u : Uch11) : Prop where
  length : (u.xmitBuffer 1 &&& 0o7777).toNat ≤ 488
  words : u.xmitBufferPtr = trailerOffset (u.xmitBuffer 1) + 1

/-- The packet goes to the bridge: it is not looped back, not for the local program, and not
for this host alone, and the socket is open. -/
def GoesToBridge (c : Uch11Config) (u : Uch11) : Prop :=
  ¬u.loopBack ∧ ¬(c.hybridUdpAndLocal ∧ u.xmitBuffer 2 = c.serveraddr) ∧
    (u.xmitBuffer (u.xmitBufferPtr - 1) ≠ c.myaddr ∨ u.xmitBuffer (u.xmitBufferPtr - 1) = 0) ∧
    u.chaosdOpen

/-- The words of the packet on the wire are swapped, its trailer has the addresses of the bridge
and of this host, and the receiver finds that it verifies. -/
structure OnWire (c : Uch11Config) (u : Uch11) (words : List HalfWord) : Prop where
  length : words.length = u.xmitBufferPtr + 2
  packet : ∀ i < u.xmitBufferPtr - 1, words[i]? = some (ntohs (u.xmitBuffer i))
  destination : words[u.xmitBufferPtr - 1]? = some (ntohs c.udpBridgeChaddr)
  source : words[u.xmitBufferPtr]? = some (ntohs c.myaddr)
  verifies : rfc1071Checksum (wordBytes words) = 0

/-- The packet with its trailer. -/
theorem appendTrailer_xmitBuffer (c : Uch11Config) {i : ℕ} (hi : i < u.xmitBufferPtr) :
    (u.appendTrailer c).xmitBuffer i = u.xmitBuffer i := by
  simp only [appendTrailer]
  rw [Function.update_of_ne (by omega), Function.update_of_ne (by omega)]

theorem appendTrailer_source (c : Uch11Config) (u : Uch11) :
    (u.appendTrailer c).xmitBuffer u.xmitBufferPtr = c.myaddr := by
  simp only [appendTrailer]
  rw [Function.update_of_ne (by omega), Function.update_self]

/-- The place of the trailer is behind the header. -/
theorem le_trailerOffset (w : HalfWord) : 8 ≤ trailerOffset w := by
  unfold trailerOffset
  simp only
  split <;> omega

/-- The encapsulated packet is the one that is to be on the wire. -/
theorem WellFormedPacket.onWire (h : u.WellFormedPacket) {u' : Uch11}
    (hbuffer : u'.xmitBuffer = (u.appendTrailer c).xmitBuffer) :
    ∃ words, u'.encapsulate c (u.xmitBufferPtr + 2) = .ok (0x0101 :: 0 :: words) ∧
      OnWire c u words := by
  have hplace := le_trailerOffset (u.xmitBuffer 1)
  have hwords := h.words
  have hfirst : u'.xmitBuffer 1 = u.xmitBuffer 1 := by
    rw [hbuffer]
    exact appendTrailer_xmitBuffer c (by omega)
  obtain ⟨checksum, hchecksum, hencapsulate⟩ := encapsulate_eq (c := c) (u := u')
    (n := u.xmitBufferPtr + 2) (hfirst ▸ h.length) (by rw [hfirst, hwords])
  have hoffs : u.xmitBufferPtr + 2 - 3 = u.xmitBufferPtr - 1 := by omega
  have hlength : (u'.bridgeWords c (u.xmitBufferPtr - 1)).length = u.xmitBufferPtr + 1 := by
    rw [bridgeWords, List.length_map, List.length_range]
    omega
  have hget : ∀ i < u.xmitBufferPtr + 1,
      ((u'.bridgeWords c (u.xmitBufferPtr - 1) ++ [ntohs checksum]).map ntohs)[i]? =
        some (ntohs (Function.update u'.xmitBuffer (u.xmitBufferPtr - 1) c.udpBridgeChaddr i)) := by
    intro i hi
    rw [List.getElem?_map, List.getElem?_append_left (by omega), bridgeWords, List.getElem?_map,
      List.getElem?_range (by omega)]
    rfl
  rw [hoffs] at hencapsulate hchecksum
  refine ⟨_, hencapsulate, ?_, fun i hi => ?_, ?_, ?_, rfc1071Checksum_eq_zero hchecksum⟩
  · rw [List.length_map, List.length_append, hlength]
    rfl
  · rw [hget i (by omega), Function.update_of_ne (by omega), hbuffer,
      appendTrailer_xmitBuffer c (by omega)]
  · rw [hget _ (by omega), Function.update_self]
  · rw [hget _ (by omega), Function.update_of_ne (by omega), hbuffer, appendTrailer_source]

/-- Nothing is no datagram. -/
theorem none_ne_datagram (d : List HalfWord) : none ≠ some (Transmission.datagram d) :=
  (Option.some_ne_none _).symm

/-- The local program is not behind the bridge. -/
theorem sendToLocal_eq (h : n ≤ 4096) :
    ∃ u' sent, u.sendToLocal c n = .ok (u', sent) ∧ ∀ d, sent ≠ some (.datagram d) := by
  unfold sendToLocal
  rw [receiveCopy_eq h]
  split
  · exact ⟨_, none, rfl, none_ne_datagram⟩
  · by_cases hmine : u.xmitBuffer 2 = c.myaddr
    · rw [if_pos hmine]
      by_cases hserver : u.xmitBuffer 2 ≠ c.serveraddr
      · exact ⟨_, none, if_pos hserver, none_ne_datagram⟩
      · exact ⟨_, _, if_neg hserver, fun d hd => Transmission.noConfusion (Option.some.inj hd)⟩
    · rw [if_neg hmine]
      by_cases hserver : u.xmitBuffer 2 ≠ c.serveraddr
      · exact ⟨_, none, if_pos hserver, none_ne_datagram⟩
      · exact ⟨_, _, if_neg hserver, fun d hd => Transmission.noConfusion (Option.some.inj hd)⟩

/-- What the UDP backend does with a packet: a datagram leaves if it is for the bridge, and
nothing else is called a datagram. -/
theorem WellFormedPacket.sendToUdp (h : u.WellFormedPacket) :
    ∃ u' sent, (u.appendTrailer c).sendToUdp c (u.xmitBufferPtr + 2) = .ok (u', sent) ∧
      ((∃ d, sent = some (.datagram d)) ↔ u.GoesToBridge c) ∧
      ∀ d, sent = some (.datagram d) → ∃ words, d = 0x0101 :: 0 :: words ∧ OnWire c u words := by
  have hplace := le_trailerOffset (u.xmitBuffer 1)
  have hfits := (trailerOffset_le (u.xmitBuffer 1)).mpr h.length
  have hwords := h.words
  have hdaddr : (u.appendTrailer c).xmitBuffer 2 = u.xmitBuffer 2 :=
    appendTrailer_xmitBuffer c (by omega)
  have hdest : (u.appendTrailer c).xmitBuffer (u.xmitBufferPtr + 2 - 3) =
      u.xmitBuffer (u.xmitBufferPtr - 1) := by
    rw [show u.xmitBufferPtr + 2 - 3 = u.xmitBufferPtr - 1 by omega]
    exact appendTrailer_xmitBuffer c (by omega)
  have haccess : Uch11Array.xmitBuffer.access (((u.xmitBufferPtr + 2 : ℕ) : ℤ) - 3) = .ok () :=
    Uch11Array.access_eq (by simp only [Uch11Array.words]; omega)
  have hback : (u.appendTrailer c).loopBack = u.loopBack := rfl
  have hroom : u.xmitBufferPtr + 2 ≤ 4096 := by omega
  unfold Uch11.sendToUdp GoesToBridge
  rw [receiveCopy_eq hroom]
  by_cases hl : u.loopBack
  · rw [if_pos (hback.trans hl)]
    exact ⟨_, none, rfl, iff_of_false (not_exists.mpr none_ne_datagram) fun hg => hg.1 hl,
      fun d hd => absurd hd (none_ne_datagram d)⟩
  rw [if_neg (hback ▸ hl)]
  by_cases hs : c.hybridUdpAndLocal ∧ u.xmitBuffer 2 = c.serveraddr
  · rw [if_pos (by rwa [hdaddr])]
    obtain ⟨u', sent, hsent, hnone⟩ := sendToLocal_eq (c := c) (u := u.appendTrailer c) hroom
    exact ⟨u', sent, hsent, iff_of_false (not_exists.mpr hnone) fun hg => hg.2.1 hs,
      fun d hd => absurd hd (hnone d)⟩
  rw [if_neg (by rwa [hdaddr]), haccess]
  have hshort : ¬Uch11Array.transChudpbuf.words < u.xmitBufferPtr + 2 := by
    simp only [Uch11Array.words]
    omega
  change ∃ u' sent, (if Uch11Array.transChudpbuf.words < u.xmitBufferPtr + 2 then _ else _) =
    Except.ok (u', sent) ∧ _
  rw [if_neg hshort, hdest]
  -- what is sent does not depend on whether the packet was received here, too
  have htail : ∀ u' : Uch11, u'.xmitBuffer = (u.appendTrailer c).xmitBuffer →
      u'.chaosdOpen = u.chaosdOpen →
      ∃ sent, (if !u'.chaosdOpen then pure (u', none)
          else do return (u', some (Transmission.datagram
            (← u'.encapsulate c (u.xmitBufferPtr + 2))))) = Except.ok (u', sent) ∧
        ((∃ d, sent = some (.datagram d)) ↔ u.chaosdOpen) ∧
        ∀ d, sent = some (.datagram d) → ∃ words, d = 0x0101 :: 0 :: words ∧ OnWire c u words := by
    intro u' hbuffer hopen
    rw [hopen]
    cases u.chaosdOpen with
    | false =>
      exact ⟨none, rfl, iff_of_false (not_exists.mpr none_ne_datagram) (by decide),
        fun d hd => absurd hd (none_ne_datagram d)⟩
    | true =>
      obtain ⟨words, hwire, honwire⟩ := h.onWire hbuffer
      rw [hwire]
      exact ⟨_, rfl, iff_of_true ⟨_, rfl⟩ rfl,
        fun d hd => ⟨words, (Transmission.datagram.inj (Option.some.inj hd)).symm, honwire⟩⟩
  by_cases hbroadcast : u.xmitBuffer (u.xmitBufferPtr - 1) = 0
  · obtain ⟨hbuffer, hopen⟩ := received_keeps (u.appendTrailer c) (u.xmitBufferPtr + 2)
    obtain ⟨sent, hsent, hiff, hwire⟩ := htail _ hbuffer hopen
    have hgoes : u.chaosdOpen ↔ u.GoesToBridge c :=
      ⟨fun ho => ⟨hl, hs, .inr hbroadcast, ho⟩, fun hg => hg.2.2.2⟩
    refine ⟨(u.appendTrailer c).received (u.xmitBufferPtr + 2), sent, ?_, hiff.trans hgoes, hwire⟩
    simp only [hbroadcast, decide_true, Bool.or_true, if_true, ne_eq, not_true, decide_false,
      Bool.and_false, Bool.false_eq_true, if_false]
    exact hsent
  by_cases hmine : u.xmitBuffer (u.xmitBufferPtr - 1) = c.myaddr
  · refine ⟨(u.appendTrailer c).received (u.xmitBufferPtr + 2), none, ?_,
      iff_of_false (not_exists.mpr none_ne_datagram) fun hg => ?_,
      fun d hd => absurd hd (none_ne_datagram d)⟩
    · simp only [hmine, decide_true, Bool.true_or, if_true, ne_eq, Bool.true_and]
      rw [hmine] at hbroadcast
      simp only [hbroadcast, not_false_eq_true, decide_true, if_true]
      rfl
    · exact hg.2.2.1.elim (fun hne => hne hmine) hbroadcast
  · obtain ⟨sent, hsent, hiff, hwire⟩ := htail (u.appendTrailer c) rfl rfl
    have hgoes : u.chaosdOpen ↔ u.GoesToBridge c :=
      ⟨fun ho => ⟨hl, hs, .inl hmine, ho⟩, fun hg => hg.2.2.2⟩
    refine ⟨u.appendTrailer c, sent, ?_, hiff.trans hgoes, hwire⟩
    simp only [hbroadcast, hmine, decide_false, Bool.or_false, Bool.false_eq_true, if_false,
      Bool.false_and]
    exact hsent

/-- For every outgoing packet, with any header and any data of up to 488 bytes, what is put
on the wire verifies at the receiver, and one for the bridge is put there. -/
theorem udp_checksum_verifies (c : Uch11Config) (hbackend : c.backend = .udp) (u : Uch11)
    (h : u.WellFormedPacket) :
    ∃ u' sent, u.xmitPkt c = .ok (u', sent) ∧
      ((∃ d, sent = some (.datagram d)) ↔ u.GoesToBridge c) ∧
      ∀ d, sent = some (.datagram d) → ∃ words, d = 0x0101 :: 0 :: words ∧ OnWire c u words := by
  have hfits := (trailerOffset_le (u.xmitBuffer 1)).mpr h.length
  have hwords := h.words
  have hlast : Uch11Array.xmitBuffer.access u.xmitBufferPtr = .ok () :=
    Uch11Array.access_eq (by simp only [Uch11Array.words]; omega)
  have hrange : Uch11Array.xmitBuffer.accessRange 0 (u.xmitBufferPtr + 1) = .ok () :=
    Uch11Array.accessRange_eq (by simp only [Uch11Array.words]; omega)
  have hchecksum : Uch11Array.xmitBuffer.access ((u.xmitBufferPtr : ℤ) + 1) = .ok () :=
    Uch11Array.access_eq (by simp only [Uch11Array.words]; omega)
  obtain ⟨u', sent, hsent, hgoes, hwire⟩ := h.sendToUdp (c := c)
  have hsend : (u.appendTrailer c).send c (u.appendTrailer c).xmitBufferSize = .ok (u', sent) := by
    unfold Uch11.send
    rw [hbackend]
    exact hsent
  refine ⟨{ u' with xmitBufferPtr := 0 }.xmitDoneIntr, sent, ?_, hgoes, hwire⟩
  unfold xmitPkt
  rw [hlast, hrange, hchecksum]
  change (Uch11.send c (u.appendTrailer c) (u.appendTrailer c).xmitBufferSize >>= _) = _
  rw [hsend]
  rfl

/-- A packet with three bytes of data. -/
def oddPacket : Uch11 :=
  { init ⟨0, false⟩ true with
    xmitBuffer := fun i => if i = 1 then 3 else BitVec.ofNat 16 (0o401 * i)
    xmitBufferPtr := 11 }

/-- It goes to the bridge, with 13 words that verify. -/
theorem udp_checksum_verifies_odd :
    ∃ u' words, oddPacket.xmitPkt ⟨.udp, 0o401, 0o404, false, 0o3040⟩ =
        .ok (u', some (.datagram (0x0101 :: 0 :: words))) ∧
      words.length = 13 ∧ rfc1071Checksum (wordBytes words) = 0 := by
  have hformed : oddPacket.WellFormedPacket := ⟨by decide, by decide⟩
  obtain ⟨u', sent, hsent, hgoes, hwire⟩ :=
    udp_checksum_verifies ⟨.udp, 0o401, 0o404, false, 0o3040⟩ rfl oddPacket hformed
  obtain ⟨d, hd⟩ := hgoes.mpr ⟨by decide, by decide, by decide, rfl⟩
  obtain ⟨words, rfl, honwire⟩ := hwire d hd
  exact ⟨u', words, hd ▸ hsent, honwire.length, honwire.verifies⟩

end Uch11

end Usim
