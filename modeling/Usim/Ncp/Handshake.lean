import Usim.Ncp.ByteStreams

/-!
# The lost status

The opener answers the OPN with a status packet, the first from which the acceptor learns the
window. A duplicate of the OPN is ignored, and `sendsns` does nothing. So if this one packet is
lost, the opener never transmits another, and the acceptor never writes anything.
-/

namespace Usim.Ncp

open Lib

variable {v : View} {c : Connection ℤ} {bag bag' : List (Packet ℤ)} {log : Log}
  {r : Connection ℤ × List (Effect ℤ)} {p : Packet ℤ}

/-! ### The opener -/

/-- As long as the acceptor has written its OPN at most, only that is numbered. -/
theorem View.Peer.op_of_numbered (hpeer : v.Peer log) (hsent : v.sent.length ≤ 1)
    (hp : Carried v.ends v.sent p) (hcont : contpkt p.op = true) : p.op = v.ends.flip.first := by
  obtain ⟨hpos, hmessage⟩ := hp.number hcont
  obtain ⟨hlt, -⟩ := List.getElem?_eq_some_iff.mp hmessage
  have hop := hpeer.ops _ _ hmessage
  rwa [if_pos (by omega)] at hop

theorem Ends.flip_first {e : Ends} (hfirst : e.first = rfcop) : e.flip.first = opnop :=
  if_pos hfirst

/-- As long as the acceptor has written its OPN at most, the opener has no numbered packet to be
read. -/
theorem View.Sound.rhead_unnumbered (hsound : v.Sound ⟨c, bag, log⟩) (hpeer : v.Peer log)
    (hfirst : v.ends.first = rfcop) (hsent : v.sent.length ≤ 1) :
    ∀ p ∈ c.rhead, contpkt p.op = false := by
  intro p hp
  have hreceive : Receive v.ends c v.sent log.taken := hsound.receive
  cases hcont : contpkt p.op with
  | false => rfl
  | true =>
    have hop := hpeer.op_of_numbered hsent (hreceive.carried p (List.mem_append_left _ hp)) hcont
    rw [Ends.flip_first hfirst] at hop
    rcases hreceive.holds with ⟨q, hrhead, hqop, -, -⟩ | ⟨hdata, -⟩
    · rw [hrhead, List.mem_singleton] at hp
      rw [← hp, hop] at hqop
      exact absurd hqop (by decide)
    · have hisData := hdata p hp hcont
      rw [hop] at hisData
      exact absurd hisData (by decide)

/-- Where nothing numbered is to be read, reading answers with no status. -/
theorem sending_chRead (hrhead : ∀ p ∈ c.rhead, contpkt p.op = false) :
    c.chRead.1.state = c.state ∧ sending c.chRead.2 = [] := by
  rw [Connection.chRead]
  cases hcons : c.rhead with
  | nil => exact ⟨rfl, rfl⟩
  | cons p ps =>
    have hp := hrhead p (hcons ▸ List.mem_cons_self)
    simp only [hp]
    exact ⟨rfl, rfl⟩

/-- What `ch_write` sends is the packet. -/
theorem sending_chWrite (c : Connection ℤ) (hdata : isData p.op = true) :
    ∀ q ∈ sending ((c.chWrite p).getD (c, [])).2, q.op ≠ stsop := by
  rw [c.chWrite_getD (Or.inl hdata)]
  split_ifs
  · intro q hq
    rw [List.mem_singleton.mp hq]
    exact isData_ne hdata (by decide)
  · exact fun q hq => absurd hq List.not_mem_nil

/-- What is sent again is numbered. -/
theorem sending_chretran (hthead : ∀ p ∈ c.thead, contpkt p.op = true) (clock : HalfWord)
    (age : ℕ) : ∀ q ∈ sending (c.chretran clock age).2, q.op ≠ stsop := by
  rw [Connection.chretran]
  cases hdue : c.thead.filter (Connection.due clock age) with
  | nil => exact fun q hq => absurd hq List.not_mem_nil
  | cons p ps =>
    intro q hq
    rw [show sending [Effect.data ((p :: ps).map fun q => { q with ackn := c.rread })] =
      (p :: ps).map fun q => { q with ackn := c.rread } from List.append_nil _] at hq
    obtain ⟨q', hq', rfl⟩ := List.mem_map.mp hq
    rw [← hdue] at hq'
    have hcont := hthead q' (List.mem_of_mem_filter hq')
    intro hop
    rw [show q'.op = stsop from hop] at hcont
    exact absurd hcont (by decide)

theorem sending_sendlos (p : Packet ℤ) (myname text : List Byte) :
    ∀ q ∈ sending (p.sendlos myname text), q.op ≠ stsop := by
  intro q hq
  rw [Packet.sendlos] at hq
  split at hq
  · exact absurd hq List.not_mem_nil
  · rw [List.mem_singleton.mp hq]
    exact (by decide : losop ≠ stsop)

/-- The packets kept for retransmission are numbered, also after a receipt. -/
theorem thead_receipt (hthead : ∀ p ∈ c.thead, contpkt p.op = true) (acknum recnum : ℤ) :
    ∀ p ∈ (c.receipt acknum recnum).thead, contpkt p.op = true := by
  rw [Connection.receipt_eq]
  simp only
  split_ifs
  · exact fun p hp => hthead p ((dropThrough_sublist _ _).subset hp)
  · exact hthead

/-- A packet that arrives at the opener, which has had its OPN, is not answered with a status. -/
theorem sending_rcvpkt (hsound : v.Sound ⟨c, bag, log⟩) (hpeer : v.Peer log)
    (hfirst : v.ends.first = rfcop) (hsent : v.sent.length ≤ 1) (hstate : c.state ≠ .rfcsent)
    (harrives : v.arrives p) (clock : HalfWord) (shorttime : ℕ) (myname : List Byte) :
    (c.rcvpkt clock shorttime myname p).1.state ≠ .rfcsent ∧
      ∀ q ∈ sending (c.rcvpkt clock shorttime myname p).2, q.op ≠ stsop := by
  have hp := v.own p harrives
  have hlos : ∀ text, ∀ q ∈ sending (p.sendlos myname text), q.op ≠ stsop :=
    sending_sendlos p myname
  have hnone : ∀ q ∈ sending ([] : List (Effect ℤ)), q.op ≠ stsop :=
    fun q hq => absurd hq List.not_mem_nil
  have hthead : ∀ p ∈ c.thead, contpkt p.op = true := fun p hp => (hsound.transmit.thead p hp).1
  rw [Connection.rcvpkt]
  split
  · contradiction
  · have hopened : c.state = .opened := by assumption
    rw [Connection.rcvopened]
    split_ifs with hdata hopn hsns hclose hcls hunc hsts
    · have hisData : isData p.op = true := by simpa [isData] using hdata
      have hop := hpeer.op_of_numbered hsent hp.carried (contpkt_of_isData hisData)
      rw [hop, Ends.flip_first hfirst] at hisData
      exact absurd hisData (by decide)
    · exact ⟨hstate, hnone⟩
    · have hkind := hp.kind
      rw [hsns] at hkind
      exact absurd hkind (by decide)
    · exact ⟨fun heq => (by cases heq), hnone⟩
    · exact ⟨fun heq => (by cases heq), hnone⟩
    · have hkind := hp.kind
      rw [hunc] at hkind
      exact absurd hkind (by decide)
    · obtain ⟨-, hreceipt⟩ := receipt_output
        { c with active := clock, twsize := p.rwsize } p.ackn p.receipt
      have hsame := (state_chretran (Connection.receipt
        { c with active := clock, twsize := p.rwsize } p.ackn p.receipt) clock shorttime).trans
          hreceipt
      exact ⟨fun heq => hstate (hsame.symm.trans heq),
        sending_chretran (thead_receipt (c := { c with active := clock, twsize := p.rwsize })
          hthead _ _) _ _⟩
    · exact ⟨hstate, hlos _⟩
  · exact ⟨hstate, hlos _⟩

/-- What the opener calls, once its RFC is answered, sends no status, as long as the acceptor has
written its OPN at most. -/
theorem Call.noStatus (hcall : Call v c r) (hsound : v.Sound ⟨c, bag, log⟩) (hpeer : v.Peer log)
    (hfirst : v.ends.first = rfcop) (hsent : v.sent.length ≤ 1) (hstate : c.state ≠ .rfcsent) :
    r.1.state ≠ .rfcsent ∧ ∀ q ∈ sending r.2, q.op ≠ stsop := by
  have hrhead := hsound.rhead_unnumbered hpeer hfirst hsent
  have hnone : ∀ q ∈ sending ([] : List (Effect ℤ)), q.op ≠ stsop :=
    fun q hq => absurd hq List.not_mem_nil
  have hphase : c.state ≠ .listen ∧ c.state ≠ .rfcrcvd := by
    have hphase := hsound.phase
    rwa [if_pos hfirst] at hphase
  have hwrite : ∀ {d : Connection ℤ} {p : Packet ℤ}, d.state = c.state → isData p.op = true →
      ((d.chWrite p).getD (d, [])).1.state ≠ .rfcsent ∧
        ∀ q ∈ sending ((d.chWrite p).getD (d, [])).2, q.op ≠ stsop := by
    intro d p hd hdata
    refine ⟨?_, sending_chWrite d hdata⟩
    rw [state_chWrite_getD d p hdata, hd]
    exact hstate
  have houtput : ∀ p ∈ c.toutput, isData p.op = true := fun p hp => by
    rw [isData, (hsound.toutput p hp).1, Bool.true_or]
  cases hcall with
  | write p _ hdata => exact hwrite rfl hdata
  | read =>
    obtain ⟨hsame, hsending⟩ := sending_chRead hrhead
    rw [hsame, hsending]
    exact ⟨hstate, hnone⟩
  | sendsts hread =>
    have hlast := hsound.receive.rread_le
    have hlength := hsound.receive.rlast_le
    dsimp only at hlast hlength
    omega
  | eofSeen => exact ⟨hstate, hnone⟩
  | swriteTurn clock bs =>
    rw [Connection.swriteTurn]
    have hdata : isData (c.toutput.getD { Packet.cleared with
        op := if c.answer then ansop else datop }).op = true := by
      cases hout : c.toutput with
      | none =>
        rw [show c.answer = false from hsound.answer]
        decide
      | some p => exact houtput p hout
    generalize c.toutput.getD { Packet.cleared with
      op := if c.answer then ansop else datop } = p at hdata
    simp only
    split_ifs
    · exact hwrite (d := { c with
        toutput := none, troom := c.outputRoom - min bs.length c.outputRoom })
        (p := { p with
          cdata := p.cdata ++ bs.take (min bs.length c.outputRoom)
          len := p.len + min bs.length c.outputRoom }) rfl hdata
    · exact ⟨hstate, hnone⟩
  | sflush =>
    rw [Connection.chSflush]
    cases hout : c.toutput with
    | none => exact ⟨hstate, hnone⟩
    | some p =>
      simp only
      split_ifs
      · exact ⟨hstate, hnone⟩
      · exact hwrite rfl (houtput p hout)
  | sreadTurn ntodo =>
    rw [Connection.sreadTurn]
    cases hcons : c.rhead with
    | nil => exact ⟨hstate, hnone⟩
    | cons p ps =>
      simp only
      split_ifs
      · obtain ⟨hsame, hsending⟩ := sending_chRead (c := { c with
            eofseen := false, rhead := { p with len := p.len - min p.len ntodo } :: ps })
          (fun q hq => by
            rcases List.mem_cons.mp hq with rfl | hq
            · exact hrhead p (hcons ▸ List.mem_cons_self)
            · exact hrhead q (hcons ▸ List.mem_cons_of_mem p hq))
        refine ⟨fun heq => hstate (hsame.symm.trans heq), fun q hq => ?_⟩
        exact hnone q (hsending.subst (motive := fun l => q ∈ l) hq)
      · exact ⟨hstate, hnone⟩
  | accept =>
    rw [Connection.chAccept, if_neg hphase.2]
    exact ⟨hstate, hnone⟩
  | close p hop =>
    rw [Connection.chClose]
    split_ifs
    · refine ⟨fun heq => (by cases heq), fun q hq => ?_⟩
      rw [List.mem_singleton.mp hq, show ∀ q : Packet ℤ, ({ c.setpkt q with
        ackn := SerialNumber.start, pkn := SerialNumber.start } : Packet ℤ).op = q.op from
          fun q => rfl, hop]
      decide
    · exact ⟨hstate, hnone⟩
  | lsnmatch clock p harrives hop hlisten => exact absurd hlisten hphase.1
  | flushOutput clock hz =>
    rw [Host.flushOutput]
    cases hout : c.toutput with
    | none => exact ⟨hstate, hnone⟩
    | some p =>
      simp only
      split_ifs
      · exact hwrite rfl (houtput p hout)
      · exact ⟨hstate, hnone⟩
  | chretran clock age =>
    refine ⟨by rw [state_chretran]; exact hstate, ?_⟩
    exact sending_chretran (fun p hp => (hsound.transmit.thead p hp).1) clock age
  | probe clock hz =>
    rw [Host.probe]
    generalize (if c.state = .opened then 3 * (hz * 45) else hz * 15) = limit
    split
    · exact ⟨fun heq => (by cases heq), hnone⟩
    · exact ⟨hstate, hnone⟩
  | rcvpkt clock shorttime myname p harrives =>
    exact sending_rcvpkt hsound hpeer hfirst hsent hstate harrives clock shorttime myname
  | sendlos myname text p => exact ⟨hstate, sending_sendlos p myname text⟩
  | answer data p =>
    refine ⟨hstate, fun q hq => ?_⟩
    rw [List.mem_singleton.mp hq]
    exact (by decide : ansop ≠ stsop)

/-! ### The acceptor -/

/-- Without a window an open connection is full. -/
theorem chtfull_of_twsize {e : Ends} {written : List Message} (h : Transmit e c bag written)
    (htwsize : c.twsize = 0) (hopened : c.state = .opened) : c.chtfull = true := by
  have htacked := h.tacked_le
  have htrecvd := h.trecvd_le
  simp only [Connection.chtfull, hopened, htwsize, decide_true, Bool.true_and, diff_int,
    decide_eq_true_eq]
  exact sub_nonneg.mpr (htacked.trans htrecvd)

/-- A packet is written only if the connection is open, and leaves the window alone. -/
theorem chWrite_window (c : Connection ℤ) (hdata : isData p.op = true) :
    ((c.chWrite p).getD (c, [])).1.twsize = c.twsize ∧
      (c.state ≠ .opened → writtenOf ((c.chWrite p).getD (c, [])).2 = []) := by
  rw [c.chWrite_getD (Or.inl hdata)]
  split_ifs with hopened
  · exact ⟨rfl, fun hnot => absurd hopened hnot⟩
  · exact ⟨rfl, fun _ => rfl⟩

theorem twsize_chRead (c : Connection ℤ) : c.chRead.1.twsize = c.twsize := by
  rw [Connection.chRead]
  cases c.rhead with
  | nil => rfl
  | cons p ps =>
    simp only
    split_ifs <;> rfl

theorem twsize_receipt (c : Connection ℤ) (acknum recnum : ℤ) :
    (c.receipt acknum recnum).twsize = c.twsize := by
  rw [Connection.receipt_eq]

theorem twsize_chretran (c : Connection ℤ) (clock : HalfWord) (age : ℕ) :
    (c.chretran clock age).1.twsize = c.twsize := by
  rw [Connection.chretran]
  split <;> rfl

theorem twsize_rcvdata (c : Connection ℤ) (p : Packet ℤ) :
    (c.rcvdata p).1.twsize = c.twsize := by
  have henqueue : ∀ c : Connection ℤ, (c.enqueue p).1.twsize = c.twsize := by
    intro c
    rw [Connection.enqueue]
    split
    · rfl
    · split
      · split <;> rfl
      · rfl
  rw [Connection.rcvdata]
  split
  · rfl
  · exact (henqueue _).trans (twsize_receipt c _ _)

/-- Once an RFC is answered, the window comes with a status only. -/
theorem twsize_rcvpkt (c : Connection ℤ) (clock : HalfWord) (shorttime : ℕ)
    (myname : List Byte) (p : Packet ℤ) (hstate : c.state ≠ .rfcsent) :
    (c.rcvpkt clock shorttime myname p).1.twsize = c.twsize ∨
      p.op = stsop ∧ (c.rcvpkt clock shorttime myname p).1.twsize = p.rwsize := by
  rw [Connection.rcvpkt]
  split
  · contradiction
  · rw [Connection.rcvopened]
    split_ifs with hdata hopn hsns hclose hcls hunc hsts
    · exact Or.inl (twsize_rcvdata { c with active := clock } p)
    · exact Or.inl rfl
    · exact Or.inl (twsize_receipt { c with active := clock } _ _)
    · exact Or.inl rfl
    · exact Or.inl rfl
    · exact Or.inl (twsize_receipt { c with active := clock, rhead := p :: c.rhead } _ _)
    · exact Or.inr ⟨hsts, (twsize_chretran _ _ _).trans
        (twsize_receipt { c with active := clock, twsize := p.rwsize } _ _)⟩
    · exact Or.inl rfl
  · exact Or.inl rfl

/-- The window of the acceptor comes with a status only, and without one nothing but the OPN is
written. -/
theorem Call.window (hcall : Call v c r) (hsound : v.Sound ⟨c, bag, log⟩)
    (hfirst : v.ends.first = opnop) :
    (r.1.twsize = c.twsize ∨
        ∃ p, v.arrives p ∧ p.op = stsop ∧ r.1.twsize = v.ends.peerWindow) ∧
      (c.twsize = 0 →
        writtenOf r.2 = [] ∨ log.written = [] ∧ (writtenOf r.2).length = 1) := by
  have hphase : c.state ≠ .rfcsent := by
    have hphase := hsound.phase
    rwa [if_neg (by rw [hfirst]; decide)] at hphase
  have hfull : c.twsize = 0 → c.chtfull = false → c.state ≠ .opened := by
    intro htwsize hnot hopened
    rw [chtfull_of_twsize hsound.transmit htwsize hopened] at hnot
    cases hnot
  have houtput : ∀ p ∈ c.toutput, isData p.op = true := fun p hp => by
    rw [isData, (hsound.toutput p hp).1, Bool.true_or]
  have hsilent : ∀ {d : Connection ℤ} {es : List (Effect ℤ)}, d.twsize = c.twsize →
      writtenOf es = [] →
      (d.twsize = c.twsize ∨
          ∃ p, v.arrives p ∧ p.op = stsop ∧ d.twsize = v.ends.peerWindow) ∧
        (c.twsize = 0 → writtenOf es = [] ∨ log.written = [] ∧ (writtenOf es).length = 1) :=
    fun hsame hwritten => ⟨Or.inl hsame, fun _ => Or.inl hwritten⟩
  have hwrite : ∀ {d : Connection ℤ} {p : Packet ℤ}, d.twsize = c.twsize →
      d.state = c.state → c.chtfull = false → isData p.op = true →
      (((d.chWrite p).getD (d, [])).1.twsize = c.twsize ∨
          ∃ q, v.arrives q ∧ q.op = stsop ∧
            ((d.chWrite p).getD (d, [])).1.twsize = v.ends.peerWindow) ∧
        (c.twsize = 0 → writtenOf ((d.chWrite p).getD (d, [])).2 = [] ∨
          log.written = [] ∧ (writtenOf ((d.chWrite p).getD (d, [])).2).length = 1) := by
    intro d p hsame hstate hnot hdata
    obtain ⟨htwsize, hclosed⟩ := chWrite_window d hdata
    exact ⟨Or.inl (htwsize.trans hsame),
      fun hzero => Or.inl (hclosed (hstate ▸ hfull hzero hnot))⟩
  cases hcall with
  | write p _ hdata hlen hnot => exact hwrite rfl rfl hnot hdata
  | read => exact hsilent (twsize_chRead c) (chRead_output c).2.2.1
  | sendsts => exact hsilent rfl rfl
  | eofSeen => exact hsilent rfl rfl
  | swriteTurn clock bs hwritable hnot =>
    refine ⟨Or.inl ?_, fun hzero => ?_⟩
    · rw [Connection.swriteTurn]
      have hdata : isData (c.toutput.getD { Packet.cleared with
          op := if c.answer then ansop else datop }).op = true := by
        cases hout : c.toutput with
        | none =>
          rw [show c.answer = false from hsound.answer]
          decide
        | some p => exact houtput p hout
      generalize c.toutput.getD { Packet.cleared with
        op := if c.answer then ansop else datop } = p at hdata
      simp only
      split_ifs
      · exact (chWrite_window { c with
          toutput := none, troom := c.outputRoom - min bs.length c.outputRoom }
          (p := { p with
            cdata := p.cdata ++ bs.take (min bs.length c.outputRoom)
            len := p.len + min bs.length c.outputRoom }) hdata).1
      · rfl
    · have hopened : c.state = .opened := by
        simpa [Connection.writable, show c.answer = false from hsound.answer] using hwritable
      exact absurd hopened (hfull hzero hnot)
  | sflush =>
    rw [Connection.chSflush]
    cases hout : c.toutput with
    | none => exact hsilent rfl rfl
    | some p =>
      simp only
      split_ifs with hnot
      · exact hsilent rfl rfl
      · exact hwrite rfl rfl (Bool.not_eq_true _ ▸ hnot) (houtput p hout)
  | sreadTurn ntodo =>
    rw [Connection.sreadTurn]
    cases c.rhead with
    | nil => exact hsilent rfl rfl
    | cons p ps =>
      simp only
      split_ifs
      · exact hsilent (twsize_chRead { c with
          eofseen := false, rhead := { p with len := p.len - min p.len ntodo } :: ps })
          (chRead_output { c with
            eofseen := false, rhead := { p with len := p.len - min p.len ntodo } :: ps }).2.2.1
      · exact hsilent rfl rfl
  | accept =>
    rw [Connection.chAccept]
    have hopn : ∀ {d : Connection ℤ} {opn : Packet ℤ}, d.state = .opened → opn.op = opnop →
        (d.chWrite opn).getD (d, []) =
          Connection.number { d with racked := d.rread } { opn with ackn := d.rread } :=
      fun hstate hop => by rw [Connection.chWrite_getD _ (Or.inr hop), if_pos hstate]
    split_ifs with hstate hrfc
    · have hwritten : log.written = [] := hsound.unbegun (Or.inr hstate)
      simp only
      rw [hopn rfl rfl]
      refine ⟨Or.inl (twsize_chRead c), fun _ => Or.inr ⟨hwritten, ?_⟩⟩
      rw [writtenOf_append, (chRead_output c).2.2.1]
      rfl
    · have hwritten : log.written = [] := hsound.unbegun (Or.inr hstate)
      simp only
      rw [hopn rfl rfl]
      exact ⟨Or.inl rfl, fun _ => Or.inr ⟨hwritten, rfl⟩⟩
    · exact hsilent rfl rfl
  | close p hop =>
    rw [Connection.chClose]
    split_ifs
    · exact hsilent rfl rfl
    · exact hsilent rfl rfl
  | lsnmatch clock p harrives hop hstate => exact hsilent rfl rfl
  | flushOutput clock hz =>
    rw [Host.flushOutput]
    cases hout : c.toutput with
    | none => exact hsilent rfl rfl
    | some p =>
      simp only
      split_ifs with hnot
      · exact hwrite rfl rfl (Bool.not_eq_true _ ▸ hnot.2) (houtput p hout)
      · exact hsilent rfl rfl
  | chretran clock age =>
    exact hsilent (twsize_chretran c clock age) (silent_chretran c clock age).writtenOf
  | probe clock hz =>
    rw [Host.probe]
    generalize (if c.state = .opened then 3 * (hz * 45) else hz * 15) = limit
    split <;> exact hsilent rfl rfl
  | rcvpkt clock shorttime myname p harrives =>
    refine ⟨?_, fun _ => Or.inl (silent_rcvpkt c clock shorttime myname p).writtenOf⟩
    rcases twsize_rcvpkt c clock shorttime myname p hphase with hsame | ⟨hop, hwindow⟩
    · exact Or.inl hsame
    · exact Or.inr ⟨p, harrives, hop, hwindow.trans ((v.own p harrives).rwsize (Or.inl hop))⟩
  | sendlos myname text p => exact hsilent rfl (silent_sendlos p myname text).writtenOf
  | answer data p => exact hsilent rfl rfl

/-- Without a window the acceptor has written its OPN at most. -/
def Unopened (s : EndState) : Prop := s.conn.twsize = 0 → s.log.written.length ≤ 1

/-- Each step of the acceptor keeps this. -/
theorem Step.unopened {s s' : EndState} (h : Step v s s') (hsound : v.Sound s)
    (hfirst : v.ends.first = opnop) (hs : Unopened s) : Unopened s' := by
  cases h with
  | @call c bag log r hcall =>
    obtain ⟨htwsize, hwritten⟩ := hcall.window hsound hfirst
    intro hzero
    have hclosed : c.twsize = 0 := by
      rcases htwsize with hsame | ⟨p, -, -, hwindow⟩
      · exact hsame.symm.trans hzero
      · have hle : c.twsize.toNat ≤ v.ends.peerWindow.toNat := hsound.transmit.twsize
        rw [← hwindow, show r.1.twsize = 0 from hzero] at hle
        exact BitVec.eq_of_toNat_eq (Nat.le_zero.mp hle)
    have hlength := hs hclosed
    change (log.written ++ writtenOf r.2).length ≤ 1
    rw [List.length_append]
    rcases hwritten hclosed with hnone | ⟨hnone, hone⟩
    · rw [hnone]
      exact hlength
    · rw [hnone, hone]
      decide
  | rearrange => exact hs
  | free => exact hs
  | keep => exact hs

/-! ### Two hosts -/

/-- The opener has had the OPN and has no status on its way. -/
def Answered (v : View) (s : EndState) : Prop :=
  v.Peer s.log ∧ s.conn.state ≠ .rfcsent ∧ ∀ p ∈ s.bag, p.op ≠ stsop

/-- Each step of the opener keeps this. -/
theorem Step.answered {s s' : EndState} (h : Step v s s') (hsound : v.Sound s)
    (hfirst : v.ends.first = rfcop) (hsent : v.sent.length ≤ 1) (hs : Answered v s) :
    Answered v s' := by
  obtain ⟨hpeer, hstate, hbag⟩ := hs
  cases h with
  | @call c bag log r hcall =>
    obtain ⟨hstate', hsending⟩ := hcall.noStatus hsound hpeer hfirst hsent hstate
    refine ⟨hpeer.note _, hstate', fun p hp => ?_⟩
    exact (List.mem_append.mp hp).elim (hsending p) (hbag p)
  | @rearrange c bag bag' log hperm =>
    refine ⟨hpeer, hstate, fun p hp hop => ?_⟩
    obtain ⟨q, hq, hplain⟩ := List.mem_map.mp (hperm.mem_iff.mp (List.mem_map_of_mem hp))
    have hsame : q.plain.op = p.plain.op := congrArg Packet.op hplain
    exact hbag q hq (hsame.trans hop)
  | free p => exact ⟨hpeer, hstate, fun q hq => hbag q (List.mem_cons_of_mem p hq)⟩
  | keep p => exact ⟨hpeer, hstate, fun q hq => hbag q (List.mem_cons_of_mem p hq)⟩

/-- The acceptor has no window and has written something. -/
def Windowless (written : List Message) (s : EndState) : Prop :=
  s.conn.twsize = 0 ∧ s.log.written = written

/-- Each step of the acceptor keeps this, as long as no status arrives. -/
theorem Step.windowless {s s' : EndState} (h : Step v s s') (hsound : v.Sound s)
    (hfirst : v.ends.first = opnop) (harrives : ∀ p, v.arrives p → p.op ≠ stsop)
    {written : List Message} (hne : written ≠ []) (hs : Windowless written s) :
    Windowless written s' := by
  obtain ⟨hzero, hlog⟩ := hs
  cases h with
  | @call c bag log r hcall =>
    obtain ⟨htwsize, hwritten⟩ := hcall.window hsound hfirst
    refine ⟨?_, ?_⟩
    · rcases htwsize with hsame | ⟨p, hp, hop, -⟩
      · exact hsame.trans hzero
      · exact absurd hop (harrives p hp)
    · change log.written ++ writtenOf r.2 = written
      rcases hwritten hzero with hnone | ⟨hnone, -⟩
      · rw [hnone, List.append_nil]
        exact hlog
      · exact absurd (hlog.symm.trans hnone) hne
  | rearrange => exact ⟨hzero, hlog⟩
  | free => exact ⟨hzero, hlog⟩
  | keep => exact ⟨hzero, hlog⟩

/-- The status is lost: all that the opener has transmitted, from a packet on, and is going to
transmit, is no status, and the acceptor has no window. -/
structure Lost (net : Net ℤ) (conn : Side → Connection ℤ) (sent : List (Packet ℤ))
    (written : List Message) : Prop where
  state : (conn .opener).state ≠ .rfcsent
  queue : ∀ p ∈ net.opener.host.queue, p.op ≠ stsop
  wire : ∃ ps, net.opener.wire = sent ++ ps ∧ ∀ p ∈ ps, p.op ≠ stsop
  acceptor : Windowless written (net.acceptor.endState (conn .acceptor))

variable {u : Setup} {net : Net ℤ} {conn : Side → Connection ℤ} {sent : List (Packet ℤ)}
  {written : List Message}

/-- A step in which no status is delivered that was transmitted before. -/
theorem Lost.step (hs : Lost net conn sent written) (h : NetSound u net conn)
    (hne : written ≠ []) (hlength : written.length ≤ 1) (e : Event)
    (hlost : ∀ n p, e = ⟨.acceptor, .deliver n⟩ → sent[n]? = some p → p.op ≠ stsop) :
    ∃ conn', NetSound u (net.step e) conn' ∧ Lost (net.step e) conn' sent written := by
  obtain ⟨conn', h', hadv, hget, hconn⟩ := h.step e
  obtain ⟨ps, hwire, hps⟩ := hs.wire
  refine ⟨conn', h', ?_⟩
  obtain ⟨i, a⟩ := e
  cases i with
  | opener =>
    have hsent : (h.view ⟨.opener, a⟩).sent.length ≤ 1 := by
      refine (List.length_take_le' _ _).trans ?_
      rw [show (net.get Side.opener.other).log.written = written from hs.acceptor.2]
      exact hlength
    obtain ⟨-, hstate, hqueue⟩ := hadv.path.keeps
      (fun _ _ hsound _ hstep => hstep.answered hsound rfl hsent)
      ⟨h.peer .opener, hs.state, hs.queue⟩
    obtain ⟨qs, hmore, hqs⟩ := hadv.wire
    refine ⟨hstate, hqueue, ⟨ps ++ qs, ?_, fun p hp => ?_⟩, ?_⟩
    · rw [← List.append_assoc, ← hwire]
      exact hmore
    · exact (List.mem_append.mp hp).elim (hps p) fun hp => hs.queue p (hqs p hp)
    · rw [show (net.step ⟨.opener, a⟩).acceptor = net.acceptor from hget,
        show conn' .acceptor = conn .acceptor from hconn]
      exact hs.acceptor
  | acceptor =>
    have harrives : ∀ p, (h.view ⟨.acceptor, a⟩).arrives p → p.op ≠ stsop := by
      rintro p ⟨n, ha, hp⟩
      rw [show (net.get Side.acceptor.other).wire = sent ++ ps from hwire] at hp
      by_cases hn : n < sent.length
      · rw [List.getElem?_append_left hn] at hp
        exact hlost n p (congrArg (Event.mk .acceptor) ha) hp
      · rw [List.getElem?_append_right (Nat.not_lt.mp hn)] at hp
        exact hps p (List.mem_of_getElem? hp)
    have hacceptor := hadv.path.keeps
      (fun _ _ hsound _ hstep => hstep.windowless hsound rfl harrives hne) hs.acceptor
    have hopener : (net.step ⟨.acceptor, a⟩).opener = net.opener := hget
    refine ⟨?_, ?_, ⟨ps, ?_, hps⟩, hacceptor⟩
    · rw [show conn' .opener = conn .opener from hconn]
      exact hs.state
    · rw [hopener]
      exact hs.queue
    · rw [hopener]
      exact hwire

/-- A run in which no status is delivered that was transmitted before. -/
theorem Lost.run (hs : Lost net conn sent written) (h : NetSound u net conn)
    (hne : written ≠ []) (hlength : written.length ≤ 1) (es : List Event)
    (hlost : ∀ n p, Event.mk .acceptor (.deliver n) ∈ es → sent[n]? = some p → p.op ≠ stsop) :
    ∃ conn', Lost (net.run es) conn' sent written := by
  induction es generalizing net conn with
  | nil => exact ⟨conn, hs⟩
  | cons e es ih =>
    obtain ⟨conn', h', hs'⟩ := hs.step h hne hlength e fun n p he =>
      hlost n p (he ▸ List.mem_cons_self)
    exact ih hs' h' fun n p hn => hlost n p (List.mem_cons_of_mem e hn)

/-- The first part of a run is timely. -/
theorem Net.timelyRun_append (net : Net ℤ) (es es' : List Event) :
    net.timelyRun (es ++ es') = (net.timelyRun es && (net.run es).timelyRun es') := by
  induction es generalizing net with
  | nil => rfl
  | cons e es ih =>
    rw [List.cons_append, Net.timelyRun, Net.timelyRun, ih, Bool.and_assoc]
    rfl

namespace Setup

variable (u : Setup)

/-- If the opener is open and has transmitted its status, and that is lost, then the opener never
transmits another, and the acceptor never writes anything besides its OPN, whatever the users do
and the hosts send again. -/
theorem lost_status (hu : u.Narrow) (es es' : List Event)
    (htime : (u.start : Net ℤ).timelyRun (es ++ es') = true)
    {c c' : Connection HalfWord}
    (hc : ((u.start : Net HalfWord).run es).opener.host.conntab 0 = some c)
    (hopened : c.state = .opened)
    (hqueue : ∀ p ∈ ((u.start : Net HalfWord).run es).opener.host.queue, p.op ≠ stsop)
    (hc' : ((u.start : Net HalfWord).run es).acceptor.host.conntab 0 = some c')
    (htwsize : c'.twsize = 0)
    (hlost : ∀ n p, Event.mk .acceptor (.deliver n) ∈ es' →
      ((u.start : Net HalfWord).run es).opener.wire[n]? = some p → p.op ≠ stsop) :
    (((u.start : Net HalfWord).run (es ++ es')).acceptor.log.written.map Message.op = [opnop]) ∧
      ∀ p ∈ ((u.start : Net HalfWord).run (es ++ es')).opener.wire.drop
        ((u.start : Net HalfWord).run es).opener.wire.length, p.op ≠ stsop := by
  obtain ⟨c₀, h, -⟩ := u.sound
  rw [Net.timelyRun_append] at htime
  have hfirst := (Bool.and_eq_true_iff.mp htime).1
  have hwords : (u.start : Net HalfWord).run es = ((u.start : Net ℤ).run es).toWords := by
    rw [← u.start_toWords hu, h.toWords_run hu es hfirst]
  have hboth : (u.start : Net HalfWord).run (es ++ es') =
      (((u.start : Net ℤ).run es).run es').toWords := by
    rw [← u.start_toWords hu, h.toWords_run hu _ (by rw [Net.timelyRun_append]; exact htime),
      Net.run, List.foldl_append]
    rfl
  have hstart : Unopened ((u.start : Net ℤ).acceptor.endState (u.listener ℤ)) := by
    intro _
    rw [u.start_acceptor ℤ]
    exact Nat.zero_le 1
  obtain ⟨conn, h', hunopened⟩ := h.run_keeps es (i := .acceptor) hstart
    fun v s s' hends hsound _ hstep => hstep.unopened hsound (by rw [hends]; rfl)
  rw [hwords] at hc hc' hqueue hlost
  rw [hwords, hboth]
  generalize (u.start : Net ℤ).run es = net at *
  -- the state of the two connections
  have hstate : (conn .opener).state = .opened := by
    rw [Option.some.inj (hc.symm.trans (h' .opener).holds.conn_toWords)] at hopened
    exact hopened
  have hzero : (conn .acceptor).twsize = 0 := by
    rw [Option.some.inj (hc'.symm.trans (h' .acceptor).holds.conn_toWords)] at htwsize
    exact htwsize
  have hlength : net.acceptor.log.written.length ≤ 1 := hunopened hzero
  have hne : net.acceptor.log.written ≠ [] := by
    intro hnil
    have hreceive := (h' .opener).sound.receive
    have hbegun := hreceive.begun (Or.inl hstate)
    have hread := hreceive.rread_le
    have hlast := (h'.peer .acceptor).last_le
    rw [show (net.get .acceptor).log.written = [] from hnil] at hlast
    have hread' : (conn .opener).rread ≤ (conn .opener).rlast := hread
    have hlast' : (conn .opener).rlast ≤ 0 := hlast
    omega
  have hlostHere : Lost net conn net.opener.wire net.acceptor.log.written := by
    refine ⟨by rw [hstate]; decide, fun p hp => ?_,
      ⟨[], (List.append_nil _).symm, fun p hp => absurd hp List.not_mem_nil⟩, hzero, rfl⟩
    refine hqueue p.toWords ?_
    rw [show net.toWords.opener.host.queue = net.opener.host.queue.map Packet.toWords from
      net.opener.host.queue_toWords]
    exact List.mem_map_of_mem hp
  obtain ⟨conn', hend⟩ := hlostHere.run h' hne hlength es' fun n p hn hp =>
    hlost n p.toWords hn (by
      rw [show net.toWords.opener.wire = net.opener.wire.map Packet.toWords from rfl,
        List.getElem?_map, hp]
      rfl)
  obtain ⟨ps, hwire, hps⟩ := hend.wire
  refine ⟨?_, fun p hp => ?_⟩
  · rw [show (net.run es').toWords.acceptor.log.written = net.acceptor.log.written from
      hend.acceptor.2]
    obtain ⟨m, hm⟩ : ∃ m, net.acceptor.log.written = [m] := by
      rw [← List.length_eq_one_iff]
      have := List.length_pos_iff.mpr hne
      omega
    have hop := (h' .acceptor).sound.transmit.ops 0 m (by
      rw [show (net.get .acceptor).log.written = [m] from hm]
      rfl)
    rw [hm, List.map_singleton]
    exact congrArg (fun op => [op]) hop
  · have hdrop : (net.run es').toWords.opener.wire.drop net.toWords.opener.wire.length =
        ps.map Packet.toWords := by
      rw [show (net.run es').toWords.opener.wire =
        (net.run es').opener.wire.map Packet.toWords from rfl, hwire, List.map_append]
      exact List.drop_left
    rw [hdrop] at hp
    obtain ⟨q, hq, rfl⟩ := List.mem_map.mp hp
    exact hps q hq

/-- The OPN is delivered again, and ignored. -/
theorem lost_status_neighbours :
    (((neighbours.start : Net HalfWord).run (handshake ++
        [⟨.acceptor, .swrite [1]⟩, ⟨.acceptor, .tick⟩,
          ⟨.opener, .deliver 0⟩])).acceptor.log.written.map Message.op = [opnop]) ∧
      ∀ p ∈ ((neighbours.start : Net HalfWord).run (handshake ++
          [⟨.acceptor, .swrite [1]⟩, ⟨.acceptor, .tick⟩, ⟨.opener, .deliver 0⟩])).opener.wire.drop
        ((neighbours.start : Net HalfWord).run handshake).opener.wire.length, p.op ≠ stsop :=
  neighbours.lost_status neighbours_narrow handshake _ (by decide) rfl rfl (by decide) rfl rfl
    fun n p hn => by simp at hn

end Setup

end Usim.Ncp
