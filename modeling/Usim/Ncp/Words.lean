import Usim.Ncp.Delivery

/-!
# Connections with 16-bit numbers

The source keeps the numbers of packets in words of 16 bits. Each function on a connection does
the same with such words as with numbers that never wrap, as long as the windows are less
than half the range of a word, and no packet arrives that is older than that.
-/

namespace Usim.Ncp

open Lib

/-! ### Packets, connections and effects -/

/-- A packet whose numbers are kept in words. -/
def Packet.toWords (p : Packet ℤ) : Packet HalfWord :=
  { p with pkn := wrap 16 p.pkn, ackn := wrap 16 p.ackn, receipt := wrap 16 p.receipt }

/-- A connection whose numbers are kept in words. -/
def Connection.toWords (c : Connection ℤ) : Connection HalfWord :=
  { c with
    tlast := wrap 16 c.tlast, trecvd := wrap 16 c.trecvd, tacked := wrap 16 c.tacked
    thead := c.thead.map Packet.toWords, toutput := c.toutput.map Packet.toWords
    rlast := wrap 16 c.rlast, racked := wrap 16 c.racked, rread := wrap 16 c.rread
    rhead := c.rhead.map Packet.toWords, routorder := c.routorder.map Packet.toWords }

/-- An effect whose numbers are kept in words. -/
def Effect.toWords : Effect ℤ → Effect HalfWord
  | .ctl p => .ctl p.toWords
  | .write p => .write p.toWords
  | .data ps => .data (ps.map Packet.toWords)
  | .read p => .read p.toWords
  | .accept bs => .accept bs
  | .stream bs => .stream bs

/-- What a function returns, with numbers in words. -/
def bothToWords (r : Connection ℤ × List (Effect ℤ)) :
    Connection HalfWord × List (Effect HalfWord) :=
  (r.1.toWords, r.2.map Effect.toWords)

@[simp] theorem Packet.toWords_cleared : (Packet.cleared : Packet ℤ).toWords = Packet.cleared := by
  rw [Packet.toWords, Packet.cleared, start_int, wrap_start]
  rfl

@[simp] theorem Connection.toWords_cleared (lidx : HalfWord) :
    (Connection.cleared lidx : Connection ℤ).toWords = Connection.cleared lidx := by
  rw [Connection.toWords, Connection.cleared, start_int, wrap_start]
  rfl

/-- The windows of both ends are less than half the range of a word. -/
structure Ends.Narrow (e : Ends) : Prop where
  window : e.window.toNat < 2 ^ 15
  peerWindow : e.peerWindow.toNat < 2 ^ 15

/-- A packet is not so old that its numbers could be taken for others: less than half the range
of a word has been sent after what it acknowledges, and the window has not moved so far
beyond it. -/
def Connection.timely (c : Connection ℤ) (p : Packet ℤ) : Bool :=
  (!(contpkt p.op || p.op = stsop) || decide (c.tlast < p.ackn + 2 ^ 15)) &&
    (!isData p.op || decide (c.rread + max 1 c.rwsize.toNat < p.pkn + 2 ^ 15))

variable {e : Ends} {sent written taken : List Message} {peerRead peerLast : ℤ}
  {c : Connection ℤ} {bag : List (Packet ℤ)} {p : Packet ℤ}

/-! ### Functions of the sending end -/

/-- The numbers of the sending end lie within half the range of a word. -/
structure Connection.Compact (c : Connection ℤ) : Prop where
  lt_tacked : c.tlast < c.tacked + 2 ^ 15
  tacked_le : c.tacked ≤ c.trecvd
  trecvd_le : c.trecvd ≤ c.tlast
  thead : ∀ p ∈ c.thead, c.trecvd < p.pkn ∧ p.pkn ≤ c.tlast

theorem Transmit.compact (h : Transmit e c bag written) (hw : e.Narrow) : c.Compact where
  lt_tacked := by
    have h₁ := h.within
    have h₂ := hw.peerWindow
    omega
  tacked_le := h.tacked_le
  trecvd_le := h.trecvd_le
  thead p hp := by
    obtain ⟨hcont, hlater⟩ := h.thead p hp
    exact ⟨hlater, h.tlast ▸ (h.own p (List.mem_append_right _ hp)).pkn_le hcont⟩

theorem Connection.Compact.chtfull_toWords (h : c.Compact) : c.toWords.chtfull = c.chtfull := by
  obtain ⟨hlt, htacked, htrecvd, -⟩ := h
  have hdiff : diff (wrap 16 c.tlast) (wrap 16 c.tacked) = c.tlast - c.tacked :=
    diff_wrap ⟨by omega, by omega⟩
  rw [Connection.chtfull, Connection.chtfull, diff_int, ← hdiff]
  rfl

/-- A receipt of numbers that are not older than half the range of a word. -/
theorem Connection.Compact.receipt_toWords (h : c.Compact) {acknum recnum : ℤ}
    (hack : acknum ≤ recnum) (hrec : recnum ≤ c.tlast) (htime : c.tlast < acknum + 2 ^ 15) :
    c.toWords.receipt (wrap 16 acknum) (wrap 16 recnum) = (c.receipt acknum recnum).toWords := by
  obtain ⟨hlt, htacked, htrecvd, hthead⟩ := h
  have hdrop : dropThrough Packet.pkn (wrap 16 recnum) (c.thead.map Packet.toWords) =
      (dropThrough Packet.pkn recnum c.thead).map Packet.toWords := by
    refine dropThrough_map (fun _ => rfl) fun q hq => ?_
    have := hthead q hq
    exact ⟨by omega, by omega⟩
  have hlater : Later (wrap 16 recnum) (wrap 16 c.trecvd) ↔ Later recnum c.trecvd := by
    rw [later_int]
    exact later_wrap ⟨by omega, by omega⟩
  have hnew : Later (wrap 16 acknum) (wrap 16 c.tacked) ↔ Later acknum c.tacked := by
    rw [later_int]
    exact later_wrap ⟨by omega, by omega⟩
  have hsent : Later (wrap 16 acknum) (wrap 16 c.tlast) ↔ Later acknum c.tlast := by
    rw [later_int]
    exact later_wrap ⟨by omega, by omega⟩
  have hnew' : ∀ c' : Connection HalfWord, c'.tacked = wrap 16 c.tacked →
      c'.tlast = wrap 16 c.tlast →
      (if Later (wrap 16 acknum) c'.tacked ∧ ¬ Later (wrap 16 acknum) c'.tlast then
        { c' with tacked := wrap 16 acknum } else c') =
      if Later acknum c.tacked ∧ ¬ Later acknum c.tlast then
        { c' with tacked := wrap 16 acknum } else c' := by
    intro c' h₁ h₂
    simp only [h₁, h₂, hnew, hsent]
  simp only [Connection.receipt]
  by_cases hl : Later recnum c.trecvd
  · rw [if_pos hl, if_pos (show Later _ c.toWords.trecvd from hlater.mpr hl), hnew' _ rfl rfl]
    simp only
    split
    · simp only [Connection.toWords, hdrop]
    · simp only [Connection.toWords, hdrop]
  · rw [if_neg hl, if_neg (show ¬ Later _ c.toWords.trecvd from mt hlater.mp hl), hnew' _ rfl rfl]
    split <;> rfl

theorem Connection.chretran_toWords (c : Connection ℤ) (clock : HalfWord) (age : ℕ) :
    c.toWords.chretran clock age = bothToWords (c.chretran clock age) := by
  have hfilter : ∀ f : HalfWord → Bool,
      (c.thead.map Packet.toWords).filter (fun q => f q.time) =
        (c.thead.filter fun q => f q.time).map Packet.toWords :=
    fun f => List.filter_map
  have hdue := hfilter fun time => decide (Later clock (time + BitVec.ofNat 16 age))
  have hkept := hfilter fun time => !decide (Later clock (time + BitVec.ofNat 16 age))
  rw [Connection.chretran, Connection.chretran]
  rw [show c.toWords.thead.filter (Connection.due clock age) =
    (c.thead.filter (Connection.due clock age)).map Packet.toWords from hdue,
    show (c.toWords.thead.filter fun q => !Connection.due clock age q) =
    (c.thead.filter fun q => !Connection.due clock age q).map Packet.toWords from hkept]
  cases c.thead.filter (Connection.due clock age) with
  | nil => rfl
  | cons q qs =>
    simp only [List.map_cons]
    rw [bothToWords, List.map_singleton, Effect.toWords, List.map_cons, List.map_map, List.map_map]
    rfl

/-- A new packet is given the next number. -/
theorem Connection.number_toWords (c : Connection ℤ) (p : Packet ℤ) :
    c.toWords.number p.toWords = bothToWords (c.number p) := by
  have hnext : wrap 16 (advance c.tlast 1) = advance (wrap 16 c.tlast) 1 := wrap_advance c.tlast 1
  simp only [Connection.number, bothToWords, Connection.toWords, List.map_cons, List.map_nil,
    Effect.toWords, Packet.toWords, hnext]
  rfl

theorem Connection.chClose_toWords (c : Connection ℤ) (p : Option (Packet ℤ)) :
    c.toWords.chClose (p.map Packet.toWords) = bothToWords (c.chClose p) := by
  have hclosed : c.toWords.clsconn .closed none = (c.clsconn .closed none).toWords := by
    simp only [Connection.clsconn, Connection.toWords, Option.toList_none, List.append_nil,
      List.map_nil]
  simp only [Connection.chClose]
  rw [show c.toWords.state = c.state from rfl]
  split_ifs
  · rw [hclosed, bothToWords, List.map_map]
    cases p with
    | none => rfl
    | some p =>
      simp only [Option.map_some, Option.toList_some, List.map_cons, List.map_nil,
        Function.comp_apply, Effect.toWords, Packet.toWords, start_int, wrap_start]
      rfl
  · rw [hclosed]
    rfl
  · rfl

theorem Connection.chWrite_toWords (c : Connection ℤ) (p : Packet ℤ) :
    c.toWords.chWrite p.toWords = (c.chWrite p).map bothToWords := by
  have hstate : c.toWords.state = c.state := rfl
  have hanswer : c.toWords.answer = c.answer := rfl
  have hop : p.toWords.op = p.op := rfl
  have hclose := c.chClose_toWords (some p)
  have hnumber := Connection.number_toWords { c with racked := c.rread } { p with ackn := c.rread }
  simp only [Connection.chWrite, hstate, hanswer, hop]
  split_ifs
  · exact congrArg some hclose
  · rfl
  · exact congrArg some (c.number_toWords p)
  · rfl
  · simp only [Option.map_some, bothToWords, List.map_cons, List.map_nil, Effect.toWords]
    simp only [Connection.setpkt, Packet.toWords, start_int, wrap_start]
    rfl
  · exact congrArg some hnumber
  · rfl
  · rfl

/-- `ch_write`, where an error leaves everything as it was. -/
theorem Connection.chWrite_getD_toWords (c : Connection ℤ) (p : Packet ℤ) :
    (c.toWords.chWrite p.toWords).getD (c.toWords, []) =
      bothToWords ((c.chWrite p).getD (c, [])) := by
  rw [c.chWrite_toWords p]
  cases c.chWrite p <;> rfl

/-! ### Functions of the receiving end -/

theorem Packet.sendlos_toWords (myname text : List Byte) (p : Packet ℤ) :
    p.toWords.sendlos myname text = (p.sendlos myname text).map Effect.toWords := by
  rw [Packet.sendlos, Packet.sendlos]
  rw [show p.toWords.op = p.op from rfl]
  split <;> rfl

theorem Connection.sendsts_toWords (c : Connection ℤ) :
    c.toWords.sendsts = bothToWords c.sendsts := by
  have hcleared : c.toWords.setpkt Packet.cleared = (c.setpkt Packet.cleared).toWords := by
    rw [← Packet.toWords_cleared]
    rfl
  rw [Connection.sendsts, hcleared]
  rfl

theorem Connection.clsconn_toWords (c : Connection ℤ) (state : ConnState)
    (p : Option (Packet ℤ)) :
    c.toWords.clsconn state (p.map Packet.toWords) = (c.clsconn state p).toWords := by
  cases p <;> simp [Connection.clsconn, Connection.toWords]

/-- Data are not older than half the range of a word. -/
theorem Connection.timely_of_isData (htime : c.timely p = true) (hdata : isData p.op = true) :
    c.tlast < p.ackn + 2 ^ 15 ∧ c.rread + max 1 c.rwsize.toNat < p.pkn + 2 ^ 15 := by
  simpa [Connection.timely, hdata, contpkt_of_isData hdata] using htime

/-- What an acknowledgement says is not older than half the range of a word. -/
theorem Connection.timely_ackn (htime : c.timely p = true)
    (hop : contpkt p.op = true ∨ p.op = stsop) : c.tlast < p.ackn + 2 ^ 15 := by
  simp only [Connection.timely, Bool.and_eq_true, Bool.or_eq_true, Bool.not_eq_true',
    Bool.or_eq_false_iff, decide_eq_true_eq] at htime
  rcases htime.1 with ⟨hcont, hsts⟩ | hlt
  · rcases hop with hop | hop
    · rw [hop] at hcont
      cases hcont
    · exact absurd hop (of_decide_eq_false hsts)
  · exact hlt

/-- `rcvdata`, from the receipt on. -/
theorem Connection.enqueue_toWords (c : Connection ℤ)
    (hlater : Later (wrap 16 p.pkn) (wrap 16 c.rlast) ↔ Later p.pkn c.rlast)
    (horder : c.rlast < p.pkn →
      inOrder Packet.pkn (wrap 16 c.rlast) (p.toWords :: c.routorder.map Packet.toWords) =
        ((inOrder Packet.pkn c.rlast (p :: c.routorder)).1.map Packet.toWords,
          (inOrder Packet.pkn c.rlast (p :: c.routorder)).2.map Packet.toWords))
    (hinsert : c.rlast < p.pkn →
      insertNew Packet.pkn p.toWords (c.routorder.map Packet.toWords) =
        (insertNew Packet.pkn p c.routorder).map (List.map Packet.toWords)) :
    c.toWords.enqueue p.toWords = bothToWords (c.enqueue p) := by
  have hadvance : ∀ n : ℕ, wrap 16 (advance c.rlast n) = advance (wrap 16 c.rlast) n :=
    fun n => wrap_advance c.rlast n
  have hlater' : Later p.toWords.pkn c.toWords.rlast ↔ Later p.pkn c.rlast := hlater
  rw [Connection.enqueue, Connection.enqueue]
  by_cases hl : Later p.pkn c.rlast
  · have hlt := later_int.mp hl
    rw [if_neg (not_not.mpr hl), if_neg (not_not.mpr (hlater'.mpr hl)),
      show inOrder Packet.pkn c.toWords.rlast (p.toWords :: c.toWords.routorder) = _
        from horder hlt,
      show insertNew Packet.pkn p.toWords c.toWords.routorder = _ from hinsert hlt]
    simp only [List.map_eq_nil_iff]
    split
    · cases insertNew Packet.pkn p c.routorder <;> rfl
    · simp only [bothToWords, Connection.toWords, List.map_append, hadvance, List.length_map,
        List.map_nil]
  · rw [if_pos hl, if_pos (mt hlater'.mp hl)]
    rfl

/-- A packet of data that is not older than half the range of a word. -/
theorem Sound.rcvdata_toWords (h : Sound e sent peerRead peerLast c bag written taken)
    (hw : e.Narrow) (hpeer : Peer e sent written peerRead peerLast)
    (hp : Own e.flip peerRead peerLast sent p) (hdata : isData p.op = true)
    (hopened : c.state = .opened) (hsent : (sent.length : ℤ) ≤ c.rread + max 1 e.window.toNat)
    (htime : c.timely p = true) : c.toWords.rcvdata p.toWords = bothToWords (c.rcvdata p) := by
  obtain ⟨htlast, hrread⟩ := Connection.timely_of_isData htime hdata
  have hcont := contpkt_of_isData hdata
  have hpkn := hp.pkn_le hcont
  have hread := h.receive.rread_le
  have hlast := h.receive.rlast_le
  have hsize : c.rwsize = e.window := (h.addr (by rw [hopened]; decide)).2.2
  have hwindow := hw.window
  have hack := hp.ackn (Or.inl hcont)
  have hle : p.ackn ≤ c.tlast := by
    have h₁ := hpeer.read_le
    have h₂ := hpeer.last_le
    have h₃ := h.transmit.tlast
    omega
  have hreceipt := (h.transmit.compact hw).receipt_toWords le_rfl hle htlast
  rw [hsize] at hrread
  -- the number of the packet is within half the range of those that it is compared with
  have hbeyond : Later p.toWords.pkn (advance c.toWords.rread c.toWords.rwsize.toNat) ↔
      Later p.pkn (advance c.rread c.rwsize.toNat) := by
    rw [show c.toWords.rwsize = e.window from hsize, hsize,
      show c.toWords.rread = wrap 16 c.rread from rfl, ← wrap_advance, later_int, advance_int]
    exact later_wrap ⟨by omega, by omega⟩
  have hlater : Later (wrap 16 p.pkn) (wrap 16 c.rlast) ↔ Later p.pkn c.rlast := by
    rw [later_int]
    exact later_wrap ⟨by omega, by omega⟩
  have hout : ∀ q ∈ c.routorder, c.rlast + 1 < q.pkn ∧ q.pkn ≤ sent.length := by
    intro q hq
    obtain ⟨hqdata, hlt⟩ := h.receive.outorder q hq
    exact ⟨hlt, (h.receive.carried q (List.mem_append_right _ hq)).pkn_le
      (contpkt_of_isData hqdata)⟩
  have hlength : (c.routorder.length : ℤ) ≤ sent.length - c.rlast :=
    h.receive.outorder_asc.length_le hlast fun q hq => by have := hout q hq; omega
  have horder : c.rlast < p.pkn →
      inOrder Packet.pkn (wrap 16 c.rlast) (p.toWords :: c.routorder.map Packet.toWords) =
        ((inOrder Packet.pkn c.rlast (p :: c.routorder)).1.map Packet.toWords,
          (inOrder Packet.pkn c.rlast (p :: c.routorder)).2.map Packet.toWords) := by
    intro hlt
    have hmem : ∀ q ∈ p :: c.routorder, c.rlast < q.pkn ∧ q.pkn ≤ sent.length := by
      intro q hq
      rcases List.mem_cons.mp hq with rfl | hq
      · exact ⟨hlt, hpkn⟩
      · have := hout q hq
        omega
    rw [← List.map_cons]
    refine inOrder_map (fun _ => rfl) (fun q hq => ?_) fun q hq => ?_
    · have := hmem q hq
      rw [List.length_cons]
      push_cast
      omega
    · have := hmem q hq
      omega
  have hinsert : c.rlast < p.pkn →
      insertNew Packet.pkn p.toWords (c.routorder.map Packet.toWords) =
        (insertNew Packet.pkn p c.routorder).map (List.map Packet.toWords) := by
    intro hlt
    refine insertNew_map (fun _ => rfl) fun q hq => ?_
    have := hout q hq
    exact ⟨by omega, by omega⟩
  obtain ⟨hrlast, hroutorder⟩ : (c.receipt p.ackn p.ackn).rlast = c.rlast ∧
      (c.receipt p.ackn p.ackn).routorder = c.routorder := by
    rw [Connection.receipt_eq]
    exact ⟨rfl, rfl⟩
  rw [Connection.rcvdata, Connection.rcvdata,
    show c.toWords.receipt p.toWords.ackn p.toWords.ackn = (c.receipt p.ackn p.ackn).toWords
      from hreceipt]
  simp only [hbeyond]
  rw [← hrlast] at hlater horder hinsert
  rw [← hroutorder] at horder hinsert
  generalize c.receipt p.ackn p.ackn = c₁ at *
  split
  · rfl
  · exact c₁.enqueue_toWords hlater horder hinsert

/-- What is known of the numbers of a packet of the other end when it arrives. -/
theorem Sound.ackn_le (h : Sound e sent peerRead peerLast c bag written taken)
    (hpeer : Peer e sent written peerRead peerLast) {n : ℤ} (hn : n ≤ peerLast) : n ≤ c.tlast := by
  have h₁ := hpeer.last_le
  have h₂ := h.transmit.tlast
  omega

theorem Sound.rcvopn_toWords (h : Sound e sent peerRead peerLast c bag written taken)
    (hw : e.Narrow) (hpeer : Peer e sent written peerRead peerLast)
    (hp : Own e.flip peerRead peerLast sent p) (hop : p.op = opnop) (htime : c.timely p = true)
    (clock : HalfWord) : c.toWords.rcvopn clock p.toWords = bothToWords (c.rcvopn clock p) := by
  have hcont : contpkt p.op = true := by rw [hop]; decide
  obtain ⟨hlt, htacked, htrecvd, hthead⟩ := h.transmit.compact hw
  have hcompact : Connection.Compact { c with
      state := .opened, fidx := p.sidx, active := clock, rread := p.pkn, rlast := p.pkn
      twsize := p.rwsize } := ⟨hlt, htacked, htrecvd, hthead⟩
  have htlast := Connection.timely_ackn htime (Or.inl hcont)
  have hreceipt := hcompact.receipt_toWords le_rfl
    (h.ackn_le hpeer ((hp.ackn (Or.inl hcont)).trans hpeer.read_le)) htlast
  rw [Connection.rcvopn, Connection.rcvopn]
  exact (congrArg (fun c' => c'.replySts p.toWords) hreceipt).trans rfl

/-- A packet of the other end for an open connection. -/
theorem Sound.rcvopened_toWords (h : Sound e sent peerRead peerLast c bag written taken)
    (hw : e.Narrow) (hpeer : Peer e sent written peerRead peerLast)
    (hp : Own e.flip peerRead peerLast sent p) (hopened : c.state = .opened)
    (hsent : (sent.length : ℤ) ≤ c.rread + max 1 e.window.toNat) (htime : c.timely p = true)
    (clock : HalfWord) (shorttime : ℕ) (myname : List Byte) :
    c.toWords.rcvopened clock shorttime myname p.toWords =
      bothToWords (c.rcvopened clock shorttime myname p) := by
  have hkind : p.op ≠ snsop ∧ p.op ≠ uncop := by
    rcases hp.kind with hcont | hop | hop | hop | hop
    · constructor <;> rintro heq <;> rw [heq] at hcont <;> exact absurd hcont (by decide)
    all_goals rw [hop]; decide
  rw [Connection.rcvopened, Connection.rcvopened, show p.toWords.op = p.op from rfl]
  split_ifs with hdata hopn hsns hclose hcls hunc hsts
  · exact h.rcvdata_toWords hw hpeer hp (by simpa [isData] using hdata) hopened hsent htime
  · rfl
  · exact absurd hsns hkind.1
  · exact Prod.ext (c.clsconn_toWords .closed (some p)) rfl
  · exact Prod.ext (c.clsconn_toWords .lost (some p)) rfl
  · exact absurd hunc hkind.2
  · obtain ⟨hlt, htacked, htrecvd, hthead⟩ := h.transmit.compact hw
    have hcompact : Connection.Compact { c with twsize := p.rwsize } :=
      ⟨hlt, htacked, htrecvd, hthead⟩
    obtain ⟨hle, hrec⟩ := hp.receipt hsts
    have htlast := Connection.timely_ackn htime (Or.inr hsts)
    have hreceipt := hcompact.receipt_toWords hle (h.ackn_le hpeer hrec) htlast
    rw [← Connection.chretran_toWords]
    exact congrArg (fun c' => c'.chretran clock shorttime) hreceipt
  · exact Prod.ext rfl (p.sendlos_toWords _ _)

/-- A packet of the other end with the index of the connection. -/
theorem Sound.rcvpkt_toWords (h : Sound e sent peerRead peerLast c bag written taken)
    (hw : e.Narrow) (hpeer : Peer e sent written peerRead peerLast)
    (hp : Own e.flip peerRead peerLast sent p)
    (hsent : (sent.length : ℤ) ≤ c.rread + max 1 e.window.toNat) (htime : c.timely p = true)
    (clock : HalfWord) (shorttime : ℕ) (myname : List Byte) :
    c.toWords.rcvpkt clock shorttime myname p.toWords =
      bothToWords (c.rcvpkt clock shorttime myname p) := by
  have hlos : ∀ text, (c.toWords, p.toWords.sendlos myname text) =
      bothToWords (c, p.sendlos myname text) :=
    fun text => Prod.ext rfl (p.sendlos_toWords _ _)
  rw [Connection.rcvpkt, Connection.rcvpkt, show c.toWords.state = c.state from rfl,
    show p.toWords.op = p.op from rfl]
  split
  · split_ifs with hopn
    · exact h.rcvopn_toWords hw hpeer hp hopn htime clock
    · exact Prod.ext (c.clsconn_toWords .closed (some p)) rfl
    · exact hlos _
  · have hopened : c.state = .opened := by assumption
    have htouch : Sound e sent peerRead peerLast { c with active := clock } bag written taken :=
      h.congr rfl rfl rfl rfl h.transmit.twsize rfl rfl rfl rfl rfl rfl rfl rfl rfl rfl rfl rfl
        h.toutput
    have htime' : Connection.timely { c with active := clock } p = true := htime
    exact htouch.rcvopened_toWords hw hpeer hp hopened hsent htime' clock shorttime myname
  · exact hlos _

/-! ### Calls of the user and the clock -/

/-- The first packet received is less than half the range of a word beyond the last
acknowledgement. -/
def Connection.HeadNear (c : Connection ℤ) : Prop :=
  ∀ p ∈ c.rhead.head?, contpkt p.op = true → c.racked ≤ p.pkn ∧ p.pkn < c.racked + 2 ^ 15

theorem Sound.headNear (h : Sound e sent peerRead peerLast c bag written taken) (hw : e.Narrow) :
    c.HeadNear := by
  intro p hp hcont
  obtain ⟨ps, hrhead⟩ := List.head?_eq_some_iff.mp hp
  have hlisten : c.state ≠ .listen := by
    intro heq
    have hnil := (h.receive.fresh (Or.inl heq)).2.1
    rw [hrhead] at hnil
    cases hnil
  have hnext : c.rread ≤ p.pkn ∧ p.pkn ≤ c.rread + 1 := by
    rcases h.receive.holds with ⟨q, hq, -, hpkn, -⟩ | ⟨hheld, -⟩
    · rw [hrhead] at hq
      cases hq
      omega
    · have hdata := hheld p (hrhead ▸ List.mem_cons_self) hcont
      have hordered := h.receive.ordered
      rw [hrhead, dataPackets,
        List.filter_cons_of_pos (p := fun q : Packet ℤ => isData q.op) hdata] at hordered
      have hpkn := hordered.1
      omega
  have hracked := h.receive.racked_le
  have hlag := h.receive.lag
  have hwindow := hw.window
  rw [(h.addr hlisten).2.2] at hlag
  omega

theorem Connection.HeadNear.chRead_toWords (h : c.HeadNear) :
    c.toWords.chRead = bothToWords c.chRead := by
  rw [Connection.chRead, Connection.chRead]
  cases hrhead : c.rhead with
  | nil =>
    rw [show c.toWords.rhead = [] by rw [Connection.toWords, hrhead]; rfl]
    rfl
  | cons p ps =>
    rw [show c.toWords.rhead = p.toWords :: ps.map Packet.toWords by
      rw [Connection.toWords, hrhead]; rfl]
    simp only
    rw [show p.toWords.op = p.op from rfl]
    cases hcont : contpkt p.op with
    | false => rfl
    | true =>
      obtain ⟨hle, hlt⟩ := h p (by rw [hrhead]; rfl) hcont
      have hdiff : diff p.toWords.pkn c.toWords.racked = diff p.pkn c.racked :=
        diff_wrap ⟨by omega, by omega⟩
      rw [if_pos rfl, if_pos rfl, hdiff, show c.toWords.rwsize = c.rwsize from rfl]
      split <;> rfl

theorem Connection.HeadNear.chAccept_toWords (h : c.HeadNear) :
    c.toWords.chAccept = bothToWords c.chAccept := by
  have hopn : ∀ c : Connection ℤ,
      ({ Packet.cleared with
        op := opnop, len := 4, receipt := c.toWords.rlast, rwsize := c.rwsize } :
        Packet HalfWord) =
      Packet.toWords { Packet.cleared with
        op := opnop, len := 4, receipt := c.rlast, rwsize := c.rwsize } := by
    intro c
    rw [← Packet.toWords_cleared]
    rfl
  have hopened : ∀ c : Connection ℤ,
      ({ c.toWords with
        state := .opened, tlast := SerialNumber.start, rsts := c.rwsize >>> 1 } :
        Connection HalfWord) =
      Connection.toWords { c with
        state := .opened, tlast := SerialNumber.start, rsts := c.rwsize >>> 1 } := by
    intro c
    rw [← wrap_start]
    rfl
  have hread : (if (c.toWords.rhead.head?.map Packet.op) = some rfcop then c.toWords.chRead
      else (c.toWords, [])) =
      bothToWords (if (c.rhead.head?.map Packet.op) = some rfcop then c.chRead else (c, [])) := by
    have hhead : c.toWords.rhead.head?.map Packet.op = c.rhead.head?.map Packet.op := by
      cases c with | mk _ _ _ _ _ _ _ _ _ _ _ _ _ _ _ _ _ _ _ _ _ rhead _ =>
      cases rhead <;> rfl
    rw [hhead]
    split
    · exact h.chRead_toWords
    · rfl
  rw [Connection.chAccept, Connection.chAccept, show c.toWords.state = c.state from rfl]
  split
  · rw [hread]
    generalize (if (c.rhead.head?.map Packet.op) = some rfcop then c.chRead else (c, [])) = r
    obtain ⟨c₁, es⟩ := r
    have hwrite := Connection.chWrite_getD_toWords
      { c₁ with state := .opened, tlast := SerialNumber.start, rsts := c₁.rwsize >>> 1 }
      { Packet.cleared with op := opnop, len := 4, receipt := c₁.rlast, rwsize := c₁.rwsize }
    rw [← hopn, ← hopened] at hwrite
    have hconn := congrArg Prod.fst hwrite
    have heffects := congrArg (es.map Effect.toWords ++ ·) (congrArg Prod.snd hwrite)
    exact Prod.ext hconn (heffects.trans List.map_append.symm)
  · rfl

/-- The packet being filled is sent. -/
theorem Connection.flush_toWords (c : Connection ℤ) (p : Packet ℤ) (troom : ℕ) :
    ({ c.toWords with toutput := none, troom := troom }.chWrite p.toWords).getD
        ({ c.toWords with toutput := none, troom := troom }, []) =
      bothToWords (({ c with toutput := none, troom := troom }.chWrite p).getD
        ({ c with toutput := none, troom := troom }, [])) :=
  Connection.chWrite_getD_toWords { c with toutput := none, troom := troom } p

theorem Connection.Compact.chSflush_toWords (h : c.Compact) :
    c.toWords.chSflush = bothToWords c.chSflush := by
  rw [Connection.chSflush, Connection.chSflush, h.chtfull_toWords]
  cases hout : c.toutput with
  | none =>
    rw [show c.toWords.toutput = none by rw [Connection.toWords, hout]; rfl]
    rfl
  | some p =>
    rw [show c.toWords.toutput = some p.toWords by rw [Connection.toWords, hout]; rfl]
    simp only
    split
    · rfl
    · exact c.flush_toWords p c.troom

theorem Connection.Compact.flushOutput_toWords (h : c.Compact) (clock : HalfWord) (hz : ℕ) :
    Host.flushOutput clock hz c.toWords = bothToWords (Host.flushOutput clock hz c) := by
  rw [Host.flushOutput, Host.flushOutput, h.chtfull_toWords]
  cases hout : c.toutput with
  | none =>
    rw [show c.toWords.toutput = none by rw [Connection.toWords, hout]; rfl]
    rfl
  | some p =>
    rw [show c.toWords.toutput = some p.toWords by rw [Connection.toWords, hout]; rfl]
    simp only
    rw [show p.toWords.time = p.time from rfl]
    split
    · exact c.flush_toWords p c.troom
    · rfl

theorem Connection.outputRoom_toWords (c : Connection ℤ) :
    c.toWords.outputRoom = c.outputRoom := by
  rw [Connection.outputRoom, Connection.outputRoom,
    show c.toWords.toutput = c.toutput.map Packet.toWords from rfl, Option.isSome_map]
  rfl

theorem Connection.swriteTurn_toWords (c : Connection ℤ) (clock : HalfWord) (bs : List Byte) :
    c.toWords.swriteTurn clock bs = bothToWords (c.swriteTurn clock bs) := by
  have hout : c.toWords.toutput.getD { Packet.cleared with
      op := if c.toWords.answer then ansop else datop } =
      (c.toutput.getD { Packet.cleared with op := if c.answer then ansop else datop }).toWords := by
    rw [show c.toWords.toutput = c.toutput.map Packet.toWords from rfl]
    cases c.toutput with
    | none =>
      rw [← Packet.toWords_cleared]
      rfl
    | some p => rfl
  rw [Connection.swriteTurn, Connection.swriteTurn, c.outputRoom_toWords, hout]
  generalize c.toutput.getD { Packet.cleared with op := if c.answer then ansop else datop } = p
  simp only
  split
  · exact congrArg (fun r : Connection HalfWord × List (Effect HalfWord) =>
      (r.1, Effect.accept (bs.take (min bs.length c.outputRoom)) :: r.2))
      (c.flush_toWords { p with
        cdata := p.cdata ++ bs.take (min bs.length c.outputRoom)
        len := p.len + min bs.length c.outputRoom } _)
  · rfl

theorem Connection.HeadNear.sreadTurn_toWords (h : c.HeadNear) (ntodo : ℕ) :
    c.toWords.sreadTurn ntodo = bothToWords (c.sreadTurn ntodo) := by
  rw [Connection.sreadTurn, Connection.sreadTurn]
  cases hrhead : c.rhead with
  | nil =>
    rw [show c.toWords.rhead = [] by rw [Connection.toWords, hrhead]; rfl]
    rfl
  | cons p ps =>
    rw [show c.toWords.rhead = p.toWords :: ps.map Packet.toWords by
      rw [Connection.toWords, hrhead]; rfl]
    have htrim : Connection.HeadNear { c with
        eofseen := false, rhead := { p with len := p.len - min p.len ntodo } :: ps } := by
      intro q hq hcont
      cases hq
      exact h p (by rw [hrhead]; rfl) hcont
    have hread := htrim.chRead_toWords
    simp only
    rw [show p.toWords.len = p.len from rfl]
    split
    · exact congrArg (fun r : Connection HalfWord × List (Effect HalfWord) =>
        ({ r.1 with roffset := 0, eofseen := p.op = ansop },
          Effect.stream ((p.cdata.drop c.roffset).take (min p.len ntodo)) :: r.2)) hread
    · rfl

end Usim.Ncp
