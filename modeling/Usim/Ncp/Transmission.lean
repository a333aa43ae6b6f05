import Usim.Ncp.TwoHosts

/-!
# The sending end of a connection

What holds of the numbers and the packets of a connection that sends, with numbers that
never wrap. A packet that is numbered and not receipted is either on its way to the
interface, where it is in the queue or handed to `senddata`, or on the list for
retransmission, and it is there once.
-/

namespace Usim.Ncp

open Lib

/-! ### Opcodes -/

theorem contpkt_of_isData {op : Byte} (h : isData op = true) : contpkt op = true := by
  simp only [isData, contpkt, Bool.or_eq_true, decide_eq_true_eq] at h ⊢
  tauto

theorem isData_ne {op op' : Byte} (h : isData op = true) (h' : isData op' = false) : op ≠ op' := by
  rintro rfl
  rw [h] at h'
  cases h'

/-! ### Packets of one end -/

/-- The fixed data of one end. -/
structure Ends where
  me : HalfWord
  peer : HalfWord
  /-- The index of the connection at this end. -/
  lidx : HalfWord
  /-- The index at the other end. -/
  fidx : HalfWord
  /-- The receive window of this end. -/
  window : HalfWord
  /-- The receive window of the other end. -/
  peerWindow : HalfWord
  /-- The opcode of the first packet. -/
  first : Byte
  first_eq : first = rfcop ∨ first = opnop
  peer_ne : peer ≠ me
  peer_ne_zero : peer ≠ 0
  me_ne_zero : me ≠ 0
  lidx_slot : lidx.toNat % 256 = 0
  fidx_slot : fidx.toNat % 256 = 0

/-- The fixed data of the other end. -/
def Ends.flip (e : Ends) : Ends where
  me := e.peer
  peer := e.me
  lidx := e.fidx
  fidx := e.lidx
  window := e.peerWindow
  peerWindow := e.window
  first := if e.first = rfcop then opnop else rfcop
  first_eq := by split <;> simp
  peer_ne := e.peer_ne.symm
  peer_ne_zero := e.me_ne_zero
  me_ne_zero := e.peer_ne_zero
  lidx_slot := e.fidx_slot
  fidx_slot := e.lidx_slot

/-- What is true of a packet that this end has sent, when it has read and received up to these
numbers and has written these messages. -/
structure Own (e : Ends) (rread rlast : ℤ) (written : List Message) (p : Packet ℤ) : Prop where
  saddr : p.saddr = e.me
  daddr : p.daddr = e.peer
  fc : p.fc = 0
  kind : contpkt p.op = true ∨ p.op = stsop ∨ p.op = losop ∨ p.op = clsop ∨ p.op = ansop
  sidx : contpkt p.op = true → p.sidx = e.lidx
  number : contpkt p.op = true → 1 ≤ p.pkn ∧ written[(p.pkn - 1).toNat]? = some p.message
  ackn : contpkt p.op = true ∨ p.op = stsop → p.ackn ≤ rread
  receipt : p.op = stsop → p.ackn ≤ p.receipt ∧ p.receipt ≤ rlast
  rwsize : p.op = stsop ∨ p.op = opnop → p.rwsize = e.window
  len : isData p.op = true → p.len = p.cdata.length

variable {e : Ends} {c c' : Connection ℤ} {written : List Message} {p q : Packet ℤ}
  {rread rlast rread' rlast' : ℤ}

/-- What is true of a packet stays true. -/
theorem Own.mono (h : Own e rread rlast written p) (hread : rread ≤ rread')
    (hlast : rlast ≤ rlast') (more : List Message) :
    Own e rread' rlast' (written ++ more) p where
  saddr := h.saddr
  daddr := h.daddr
  fc := h.fc
  kind := h.kind
  sidx := h.sidx
  number hcont := by
    obtain ⟨hpos, hmessage⟩ := h.number hcont
    obtain ⟨hlt, -⟩ := List.getElem?_eq_some_iff.mp hmessage
    exact ⟨hpos, by rw [List.getElem?_append_left hlt, hmessage]⟩
  ackn hop := (h.ackn hop).trans hread
  receipt hop := ⟨(h.receipt hop).1, (h.receipt hop).2.trans hlast⟩
  rwsize := h.rwsize
  len := h.len

/-- The times and the next hop of a packet do not matter. -/
theorem Own.stamp (h : Own e rread rlast written p) (time xdest : HalfWord) :
    Own e rread rlast written { p with time := time, xdest := xdest } :=
  ⟨h.saddr, h.daddr, h.fc, h.kind, h.sidx, h.number, h.ackn, h.receipt, h.rwsize, h.len⟩

/-- The number of a packet is one of those given. -/
theorem Own.pkn_le (h : Own e rread rlast written p) (hcont : contpkt p.op = true) :
    p.pkn ≤ written.length := by
  obtain ⟨hpos, hmessage⟩ := h.number hcont
  obtain ⟨hlt, -⟩ := List.getElem?_eq_some_iff.mp hmessage
  omega

/-- A status packet. -/
theorem Own.status (hsaddr : p.saddr = e.me) (hdaddr : p.daddr = e.peer) (hfc : p.fc = 0)
    (hop : p.op = stsop) (hackn : p.ackn ≤ rread) (hle : p.ackn ≤ p.receipt)
    (hreceipt : p.receipt ≤ rlast) (hrwsize : p.rwsize = e.window) :
    Own e rread rlast written p := by
  have hcont : contpkt p.op ≠ true := by rw [hop]; decide
  exact ⟨hsaddr, hdaddr, hfc, Or.inr (Or.inl hop), fun h => absurd h hcont,
    fun h => absurd h hcont, fun _ => hackn, fun _ => ⟨hle, hreceipt⟩, fun _ => hrwsize,
    fun h => absurd (contpkt_of_isData h) hcont⟩

/-- A packet without numbers. -/
theorem Own.unnumbered (hsaddr : p.saddr = e.me) (hdaddr : p.daddr = e.peer) (hfc : p.fc = 0)
    (hop : p.op = losop ∨ p.op = clsop ∨ p.op = ansop) : Own e rread rlast written p := by
  have hcont : contpkt p.op ≠ true := by rcases hop with hop | hop | hop <;> rw [hop] <;> decide
  have hsts : p.op ≠ stsop := by rcases hop with hop | hop | hop <;> rw [hop] <;> decide
  have hopn : p.op ≠ opnop := by rcases hop with hop | hop | hop <;> rw [hop] <;> decide
  exact ⟨hsaddr, hdaddr, hfc, Or.inr (Or.inr hop), fun h => absurd h hcont,
    fun h => absurd h hcont, fun h => h.elim (absurd · hcont) (absurd · hsts),
    fun h => absurd h hsts, fun h => h.elim (absurd · hsts) (absurd · hopn),
    fun h => absurd (contpkt_of_isData h) hcont⟩

/-- The connection still sends what is not receipted. -/
def Connection.Alive {S : Type} (c : Connection S) : Prop :=
  c.state = .opened ∨ c.state = .rfcsent

/-- The numbers of the packets that are numbered. -/
def numbers (ps : List (Packet ℤ)) : List ℤ := (ps.filter fun p => contpkt p.op).map Packet.pkn

@[simp] theorem numbers_nil : numbers [] = [] := rfl

theorem numbers_append (ps qs : List (Packet ℤ)) :
    numbers (ps ++ qs) = numbers ps ++ numbers qs := by
  rw [numbers, List.filter_append, List.map_append]
  rfl

theorem numbers_cons_of_cont {ps : List (Packet ℤ)} (h : contpkt p.op = true) :
    numbers (p :: ps) = p.pkn :: numbers ps := by
  rw [numbers, List.filter_cons_of_pos (p := fun p : Packet ℤ => contpkt p.op) h]
  rfl

theorem numbers_cons_of_not {ps : List (Packet ℤ)} (h : contpkt p.op = false) :
    numbers (p :: ps) = numbers ps := by
  rw [numbers, List.filter_cons_of_neg (p := fun p : Packet ℤ => contpkt p.op) (by simp [h])]
  rfl

theorem numbers_eq_map {ps : List (Packet ℤ)} (h : ∀ p ∈ ps, contpkt p.op = true) :
    numbers ps = ps.map Packet.pkn := by
  rw [numbers, List.filter_eq_self.mpr h]

theorem mem_numbers {ps : List (Packet ℤ)} {n : ℤ} :
    n ∈ numbers ps ↔ ∃ p ∈ ps, contpkt p.op = true ∧ p.pkn = n := by
  simp only [numbers, List.mem_map, List.mem_filter, and_assoc]

/-- Packets but for what their transmission changes. -/
def Packet.plain (p : Packet ℤ) : Packet ℤ := { p with time := 0, xdest := 0 }

/-- What holds of the sending end, with the packets on their way to the interface. -/
structure Transmit (e : Ends) (c : Connection ℤ) (bag : List (Packet ℤ))
    (written : List Message) : Prop where
  tlast : c.tlast = written.length
  tacked_nonneg : 0 ≤ c.tacked
  tacked_le : c.tacked ≤ c.trecvd
  trecvd_le : c.trecvd ≤ c.tlast
  twsize : c.twsize.toNat ≤ e.peerWindow.toNat
  within : c.tlast ≤ c.tacked + max 1 e.peerWindow.toNat
  ops : ∀ i m, written[i]? = some m → if i = 0 then m.op = e.first else isData m.op = true
  own : ∀ p ∈ bag ++ c.thead, Own e c.rread c.rlast written p
  once : (numbers bag ++ c.thead.map Packet.pkn).Nodup
  thead_asc : Ascending Packet.pkn c.thead
  thead : ∀ p ∈ c.thead, contpkt p.op = true ∧ c.trecvd < p.pkn
  custody : c.Alive → ∀ n, c.trecvd < n → n ≤ c.tlast → n ∈ numbers bag ++ c.thead.map Packet.pkn

variable {bag bag' : List (Packet ℤ)}

/-- Nothing else of the connection matters but the acknowledgements that were sent. -/
theorem Transmit.congr (h : Transmit e c bag written) (htlast : c'.tlast = c.tlast)
    (htrecvd : c'.trecvd = c.trecvd) (htacked : c'.tacked = c.tacked)
    (hthead : c'.thead = c.thead) (htwsize : c'.twsize.toNat ≤ e.peerWindow.toNat)
    (halive : c'.Alive → c.Alive) (hread : c.rread ≤ c'.rread) (hlast : c.rlast ≤ c'.rlast) :
    Transmit e c' bag written where
  tlast := htlast ▸ h.tlast
  tacked_nonneg := htacked ▸ h.tacked_nonneg
  tacked_le := by rw [htacked, htrecvd]; exact h.tacked_le
  trecvd_le := by rw [htrecvd, htlast]; exact h.trecvd_le
  twsize := htwsize
  within := by rw [htacked, htlast]; exact h.within
  ops := h.ops
  own p hp := by
    rw [hthead] at hp
    have := (h.own p hp).mono hread hlast []
    rwa [List.append_nil] at this
  once := hthead ▸ h.once
  thead_asc := hthead ▸ h.thead_asc
  thead := by rw [hthead, htrecvd]; exact h.thead
  custody ha := by rw [hthead, htrecvd, htlast]; exact h.custody (halive ha)

/-- Only which packets are on their way matters. -/
theorem Transmit.rearrange (h : Transmit e c bag written)
    (hbag : (bag'.map Packet.plain).Perm (bag.map Packet.plain)) :
    Transmit e c bag' written := by
  have hnumbers : ∀ ps : List (Packet ℤ), numbers (ps.map Packet.plain) = numbers ps := by
    intro ps
    rw [numbers, List.filter_map, List.map_map]
    rfl
  have hperm : (numbers bag').Perm (numbers bag) := by
    rw [← hnumbers bag', ← hnumbers bag]
    exact (hbag.filter _).map _
  refine { h with own := ?_, once := ?_, custody := ?_ }
  · intro p hp
    rcases List.mem_append.mp hp with hp | hp
    · have hmem : p.plain ∈ bag.map Packet.plain :=
        hbag.mem_iff.mp (List.mem_map_of_mem hp)
      obtain ⟨q, hq, hqp⟩ := List.mem_map.mp hmem
      have hown := (h.own q (List.mem_append_left _ hq)).stamp 0 0
      rw [show ({ q with time := 0, xdest := 0 } : Packet ℤ) = p.plain from hqp] at hown
      exact hown.stamp p.time p.xdest
    · exact h.own p (List.mem_append_right _ hp)
  · exact ((hperm.append_right _).nodup_iff).mpr h.once
  · intro ha n hn hle
    exact (hperm.append_right _).mem_iff.mpr (h.custody ha n hn hle)

/-- A packet that is not needed is freed. -/
theorem Transmit.free (h : Transmit e c (p :: bag) written)
    (hp : c.Alive → contpkt p.op = true → p.pkn ≤ c.trecvd) : Transmit e c bag written := by
  refine { h with own := ?_, once := ?_, custody := ?_ }
  · exact fun q hq => h.own q (List.mem_cons_of_mem p hq)
  · have := h.once
    cases hcont : contpkt p.op with
    | true =>
      rw [numbers_cons_of_cont hcont, List.cons_append, List.nodup_cons] at this
      exact this.2
    | false => rwa [numbers_cons_of_not hcont] at this
  · intro ha n hn hle
    have := h.custody ha n hn hle
    cases hcont : contpkt p.op with
    | true =>
      rw [numbers_cons_of_cont hcont, List.cons_append, List.mem_cons] at this
      have hle := hp ha hcont
      exact this.resolve_left (by omega)
    | false => rwa [numbers_cons_of_not hcont] at this

/-- A packet of ours that is not numbered is sent. -/
theorem Transmit.control (h : Transmit e c bag written) (hp : Own e c.rread c.rlast written p)
    (hcont : contpkt p.op = false) : Transmit e c (p :: bag) written := by
  refine { h with own := ?_, once := ?_, custody := ?_ }
  · intro q hq
    rcases List.mem_cons.mp hq with rfl | hq
    · exact hp
    · exact h.own q hq
  · rw [numbers_cons_of_not hcont]
    exact h.once
  · rw [numbers_cons_of_not hcont]
    exact h.custody

/-- `xmitdone`: a transmitted packet is kept for retransmission. -/
theorem Transmit.keep (h : Transmit e c (p :: bag) written) (hcont : contpkt p.op = true)
    (hp : c.trecvd < p.pkn) (time : HalfWord) :
    Transmit e { c with thead := insertByNumber Packet.pkn { p with time := time } c.thead } bag
      written := by
  have honce := h.once
  rw [numbers_cons_of_cont hcont] at honce
  have hperm : (insertByNumber Packet.pkn { p with time := time } c.thead).Perm
      ({ p with time := time } :: c.thead) := insertByNumber_perm _ _
  have hnumbers : (numbers bag ++ (insertByNumber Packet.pkn { p with time := time }
      c.thead).map Packet.pkn).Perm (p.pkn :: numbers bag ++ c.thead.map Packet.pkn) :=
    ((hperm.map Packet.pkn).append_left _).trans List.perm_middle
  have hfresh : ∀ q ∈ c.thead, q.pkn ≠ p.pkn := by
    intro q hq heq
    rw [List.cons_append, List.nodup_cons] at honce
    exact honce.1 (List.mem_append_right _ (heq ▸ List.mem_map_of_mem hq))
  refine { h with own := ?_, once := ?_, thead_asc := ?_, thead := ?_, custody := ?_ }
  · intro q hq
    rcases List.mem_append.mp hq with hq | hq
    · exact h.own q (List.mem_cons_of_mem p (List.mem_append_left _ hq))
    · rcases List.mem_cons.mp (hperm.mem_iff.mp hq) with rfl | hq
      · exact (h.own p List.mem_cons_self).stamp time p.xdest
      · exact h.own q (List.mem_cons_of_mem p (List.mem_append_right _ hq))
  · exact hnumbers.nodup_iff.mpr honce
  · exact h.thead_asc.insertByNumber hfresh
  · intro q hq
    rcases List.mem_cons.mp (hperm.mem_iff.mp hq) with rfl | hq
    · exact ⟨hcont, hp⟩
    · exact h.thead q hq
  · intro ha n hn hle
    have := h.custody ha n hn hle
    rw [numbers_cons_of_cont hcont] at this
    exact hnumbers.mem_iff.mpr this

/-! ### Receipts, new packets and retransmission -/

/-- What `receipt` changes. -/
theorem Connection.receipt_eq (c : Connection ℤ) (acknum recnum : ℤ) :
    c.receipt acknum recnum =
      { c with
        thead := if c.trecvd < recnum then dropThrough Packet.pkn recnum c.thead else c.thead
        trecvd := max c.trecvd recnum
        tacked := if c.tacked < acknum ∧ acknum ≤ c.tlast then acknum else c.tacked } := by
  by_cases hrec : c.trecvd < recnum <;> by_cases hack : c.tacked < acknum ∧ acknum ≤ c.tlast <;>
    simp [Connection.receipt, hrec, hack, max_eq_right_of_lt, Int.not_lt.mp]

/-- A receipt of what was sent keeps what holds of the sending end. -/
theorem Transmit.receipt {acknum recnum : ℤ} (h : Transmit e c bag written)
    (hack : acknum ≤ recnum) (hrec : recnum ≤ c.tlast) :
    Transmit e (c.receipt acknum recnum) bag written := by
  have hrest : (if c.trecvd < recnum then dropThrough Packet.pkn recnum c.thead else c.thead) =
      c.thead.filter fun p => max c.trecvd recnum < p.pkn := by
    split
    · rw [dropThrough_eq_filter h.thead_asc, max_eq_right_of_lt (by assumption)]
    · rw [max_eq_left (by omega)]
      exact (List.filter_eq_self.mpr fun p hp => decide_eq_true (h.thead p hp).2).symm
  rw [Connection.receipt_eq, hrest]
  have hsub := List.filter_sublist (p := fun p : Packet ℤ => max c.trecvd recnum < p.pkn)
    (l := c.thead)
  have htacked := h.tacked_le
  refine
    { h with
      tacked_nonneg := ?_, tacked_le := ?_, trecvd_le := ?_, within := ?_, own := ?_, once := ?_
      thead_asc := h.thead_asc.sublist hsub, thead := ?_, custody := ?_ }
  · have := h.tacked_nonneg
    dsimp only
    split <;> omega
  · dsimp only
    split <;> omega
  · exact max_le h.trecvd_le hrec
  · have := h.within
    dsimp only
    split <;> omega
  · intro p hp
    rcases List.mem_append.mp hp with hp | hp
    · exact h.own p (List.mem_append_left _ hp)
    · exact h.own p (List.mem_append_right _ (hsub.subset hp))
  · exact h.once.sublist ((hsub.map Packet.pkn).append_left _)
  · intro p hp
    obtain ⟨hp, hlt⟩ := List.mem_filter.mp hp
    exact ⟨(h.thead p hp).1, of_decide_eq_true hlt⟩
  · intro ha n hn hle
    rcases List.mem_append.mp (h.custody ha n (lt_of_le_of_lt (le_max_left _ _) hn) hle) with
      hmem | hmem
    · exact List.mem_append_left _ hmem
    · obtain ⟨p, hp, rfl⟩ := List.mem_map.mp hmem
      exact List.mem_append_right _
        (List.mem_map_of_mem (List.mem_filter.mpr ⟨hp, decide_eq_true hn⟩))

/-- A new packet takes the next number. -/
theorem Transmit.number (h : Transmit e c bag written)
    (hop : if written = [] then p.op = e.first else isData p.op = true)
    (hroom : c.tlast + 1 ≤ c.tacked + max 1 e.peerWindow.toNat) (hackn : p.ackn ≤ c.rread)
    (hrwsize : p.op = opnop → p.rwsize = e.window)
    (hlen : isData p.op = true → p.len = p.cdata.length) (hladdr : c.laddr = e.me)
    (hfaddr : c.faddr = e.peer) (hlidx : c.lidx = e.lidx) :
    Transmit e (c.number p).1 ({ c.setpkt p with pkn := advance c.tlast 1 } :: bag)
      (written ++ [p.message]) := by
  have htlast := h.tlast
  have hcont : contpkt p.op = true := by
    split at hop
    · rcases e.first_eq with hfirst | hfirst <;> rw [hop, hfirst] <;> decide
    · exact contpkt_of_isData hop
  have hsts : p.op ≠ stsop := by
    intro heq
    rw [heq] at hcont
    exact absurd hcont (by decide)
  have hnew : Own e c.rread c.rlast (written ++ [p.message])
      { c.setpkt p with pkn := advance c.tlast 1 } :=
    { saddr := hladdr, daddr := hfaddr, fc := rfl, kind := Or.inl hcont
      sidx := fun _ => hlidx
      number := fun _ => by
        rw [advance_int, htlast]
        refine ⟨Int.le_add_of_nonneg_left (Int.natCast_nonneg _), ?_⟩
        rw [show ((written.length : ℤ) + (1 : ℕ) - 1).toNat = written.length by omega,
          List.getElem?_append_right (Nat.le_refl _), Nat.sub_self]
        rfl
      ackn := fun _ => hackn
      receipt := fun heq => absurd heq hsts
      rwsize := fun heq => heq.elim (fun heq => absurd heq hsts) hrwsize
      len := hlen }
  have hfresh : c.tlast + 1 ∉ numbers bag ++ c.thead.map Packet.pkn := by
    intro hmem
    have hle : ∀ q ∈ bag ++ c.thead, contpkt q.op = true → q.pkn ≤ written.length :=
      fun q hq => (h.own q hq).pkn_le
    rcases List.mem_append.mp hmem with hmem | hmem
    · obtain ⟨q, hq, hqcont, hqpkn⟩ := mem_numbers.mp hmem
      have := hle q (List.mem_append_left _ hq) hqcont
      omega
    · obtain ⟨q, hq, hqpkn⟩ := List.mem_map.mp hmem
      have := hle q (List.mem_append_right _ hq) (h.thead q hq).1
      omega
  have hcontnew : contpkt ({ c.setpkt p with pkn := advance c.tlast 1 } : Packet ℤ).op = true :=
    hcont
  refine
    { h with
      tlast := ?_, trecvd_le := ?_, within := hroom, ops := ?_, own := ?_, once := ?_
      custody := ?_ }
  · rw [List.length_append, List.length_singleton]
    simp [Connection.number, htlast]
  · exact h.trecvd_le.trans (Int.le_add_one le_rfl)
  · intro i m hm
    rcases Nat.lt_trichotomy i written.length with hi | rfl | hi
    · rw [List.getElem?_append_left hi] at hm
      exact h.ops i m hm
    · rw [List.getElem?_append_right (Nat.le_refl _), Nat.sub_self] at hm
      cases hm
      simpa only [List.length_eq_zero_iff, Packet.message] using hop
    · rw [List.getElem?_eq_none (by rw [List.length_append, List.length_singleton]; exact hi)] at hm
      cases hm
  · intro q hq
    rcases List.mem_cons.mp hq with rfl | hq
    · exact hnew
    · exact (h.own q hq).mono le_rfl le_rfl _
  · rw [numbers_cons_of_cont hcontnew]
    exact List.nodup_cons.mpr ⟨hfresh, h.once⟩
  · intro ha n hn hle
    rw [numbers_cons_of_cont hcontnew]
    rcases (show n ≤ c.tlast + 1 from hle).lt_or_eq with hlt | heq
    · exact List.mem_cons_of_mem _ (h.custody ha n hn (Int.lt_add_one_iff.mp hlt))
    · rw [heq]
      exact List.mem_cons_self

/-- The packets that are handed to `sendctl` and `senddata`. -/
def sending {S : Type} (es : List (Effect S)) : List (Packet S) :=
  es.flatMap fun
    | .ctl p => [p]
    | .write p => [p]
    | .data ps => ps
    | _ => []

/-- What is sent again leaves the list for retransmission. -/
theorem Transmit.chretran (h : Transmit e c bag written) (clock : HalfWord) (age : ℕ) :
    Transmit e (c.chretran clock age).1 (sending (c.chretran clock age).2 ++ bag) written := by
  rw [Connection.chretran]
  cases hdue : c.thead.filter (Connection.due clock age) with
  | nil => exact h
  | cons p ps =>
    have hsub : (p :: ps).Sublist c.thead := hdue ▸ List.filter_sublist
    have hrest := List.filter_sublist (p := fun q => !Connection.due clock age q) (l := c.thead)
    have hcont : ∀ q ∈ (p :: ps).map (fun q : Packet ℤ => { q with ackn := c.rread }),
        contpkt q.op = true := by
      intro q hq
      obtain ⟨q', hq', rfl⟩ := List.mem_map.mp hq
      exact (h.thead q' (hsub.subset hq')).1
    have hperm : (numbers ((p :: ps).map (fun q : Packet ℤ => { q with ackn := c.rread }) ++ bag) ++
        (c.thead.filter fun q => !Connection.due clock age q).map Packet.pkn).Perm
        (numbers bag ++ c.thead.map Packet.pkn) := by
      have hsplit := (List.filter_append_perm (Connection.due clock age) c.thead).map Packet.pkn
      rw [hdue, List.map_append] at hsplit
      rw [numbers_append, numbers_eq_map hcont, List.map_map]
      refine (List.perm_append_comm.append_right _).trans ?_
      rw [List.append_assoc]
      exact hsplit.append_left _
    have hsending : sending [Effect.data ((p :: ps).map fun q => { q with ackn := c.rread })] =
        (p :: ps).map fun q => { q with ackn := c.rread } := List.append_nil _
    rw [hsending]
    refine
      { h with
        own := ?_, once := hperm.nodup_iff.mpr h.once, thead_asc := h.thead_asc.sublist hrest
        thead := fun q hq => h.thead q (hrest.subset hq)
        custody := fun ha n hn hle => hperm.mem_iff.mpr (h.custody ha n hn hle) }
    intro q hq
    rcases List.mem_append.mp hq with hq | hq
    · rcases List.mem_append.mp hq with hq | hq
      · obtain ⟨q', hq', rfl⟩ := List.mem_map.mp hq
        have hown := h.own q' (List.mem_append_right _ (hsub.subset hq'))
        have hsts : q'.op ≠ stsop := by
          intro heq
          have := (h.thead q' (hsub.subset hq')).1
          rw [heq] at this
          exact absurd this (by decide)
        exact
          { hown with
            ackn := fun _ => le_rfl, receipt := fun heq => absurd heq hsts }
      · exact h.own q (List.mem_append_left _ hq)
    · exact h.own q (List.mem_append_right _ (hrest.subset hq))

end Usim.Ncp
