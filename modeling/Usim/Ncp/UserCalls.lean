import Usim.Ncp.Soundness

/-!
# What the calls of the user keep

The calls of `chuser.c` and `chstream.c`, and what `ch_clock` does to a connection, keep
what holds of its two ends.
-/

namespace Usim.Ncp

open Lib

variable {e : Ends} {sent written taken : List Message} {peerRead peerLast : ℤ}
  {c c' : Connection ℤ} {bag : List (Packet ℤ)} {p : Packet ℤ}

/-- The user reads the first packet. -/
theorem Sound.chRead (h : Sound e sent peerRead peerLast c bag written taken) :
    Outcome e sent peerRead peerLast c bag written taken c.chRead := by
  rw [Connection.chRead]
  cases hrhead : c.rhead with
  | nil => exact h.unchanged
  | cons p ps =>
    have hp := h.receive.carried p (List.mem_append_left _ (hrhead ▸ List.mem_cons_self))
    have hlisten : c.state ≠ .listen := by
      intro heq
      have hnil := (h.receive.fresh (Or.inl heq)).2.1
      rw [hrhead] at hnil
      cases hnil
    simp only
    cases hcont : contpkt p.op with
    | false =>
      obtain ⟨hreceive, hread⟩ := h.receive.read (d := { c with rhead := ps }) hrhead rfl
        (by rw [hcont]; rfl) rfl rfl rfl rfl (Or.inr ⟨rfl, h.receive.lag⟩)
      refine ⟨?_, hread, le_rfl, controls_nil.cons_read p⟩
      rw [if_neg (by decide), takenOf_read]
      have htransmit : Transmit e { c with rhead := ps } bag written :=
        h.transmit.congr rfl rfl rfl rfl h.transmit.twsize id le_rfl le_rfl
      simpa [sending, writtenOf] using { h with transmit := htransmit, receive := hreceive }
    | true =>
      rw [if_pos rfl]
      split_ifs with hsts
      · obtain ⟨hreceive, hread⟩ := h.receive.read
          (d := { c with rhead := ps, rread := p.pkn, racked := p.pkn }) hrhead rfl
          (by rw [hcont]; rfl) rfl rfl rfl rfl (Or.inl rfl)
        have htransmit : Transmit e { c with rhead := ps, rread := p.pkn, racked := p.pkn } bag
            written :=
          h.transmit.congr rfl rfl rfl rfl h.transmit.twsize id hread le_rfl
        have hsound := { h with transmit := htransmit, receive := hreceive }
        have hreply := Sound.replySts hsound ⟨hp.saddr, hp.daddr, hp.fc⟩ hlisten
        refine ⟨?_, hread, le_rfl, hreply.controls.cons_read p⟩
        rw [takenOf_read, ← List.append_assoc]
        exact hreply.sound
      · obtain ⟨hreceive, hread⟩ := h.receive.read
          (d := { c with rhead := ps, rread := p.pkn }) hrhead rfl
          (by rw [hcont]; rfl) rfl rfl rfl rfl (Or.inr ⟨rfl, by
            have := (not_or.mp hsts).2
            rw [diff_int] at this
            dsimp only at this ⊢
            omega⟩)
        have htransmit : Transmit e { c with rhead := ps, rread := p.pkn } bag written :=
          h.transmit.congr rfl rfl rfl rfl h.transmit.twsize id hread le_rfl
        refine ⟨?_, hread, le_rfl, controls_nil.cons_read p⟩
        rw [takenOf_read]
        simpa [sending, writtenOf] using { h with transmit := htransmit, receive := hreceive }

/-- The connection is broken off, or closed by the user with a CLS. -/
theorem Sound.chClose (h : Sound e sent peerRead peerLast c bag written taken)
    (hop : p.op = clsop) :
    Outcome e sent peerRead peerLast c bag written taken (c.chClose p) := by
  rw [Connection.chClose]
  split_ifs with hopened hrfcsent
  · have hlisten : c.state ≠ .listen := by rcases hopened with heq | heq <;> rw [heq] <;> decide
    obtain ⟨hladdr, hfaddr, -⟩ := h.addr hlisten
    have hsound := h.clsconn (Or.inl rfl) (q := none) (fun q hq => by cases hq) (Or.inl rfl)
      hlisten
    have hcont : contpkt p.op = false := by rw [hop]; decide
    have hown : Own e c.rread c.rlast written { c.setpkt p with
        ackn := SerialNumber.start, pkn := SerialNumber.start } :=
      Own.unnumbered hladdr hfaddr rfl (Or.inr (Or.inl hop))
    exact (hsound.control hown hcont).of_le le_rfl le_rfl
  · have hsound := h.clsconn (Or.inl rfl) (q := none) (fun q hq => by cases hq) (Or.inl rfl)
      (by rw [hrfcsent]; decide)
    exact hsound.unchanged.of_le le_rfl le_rfl
  · exact h.unchanged

/-- A new packet of data takes the next number. -/
theorem Sound.number (h : Sound e sent peerRead peerLast c bag written taken)
    (hopened : c.state = .opened) (hdata : isData p.op = true)
    (hlen : p.len = p.cdata.length) (hackn : p.ackn ≤ c.rread)
    (hroom : c.tlast + 1 ≤ c.tacked + max 1 e.peerWindow.toNat) :
    Outcome e sent peerRead peerLast c bag written taken (c.number p) := by
  obtain ⟨hladdr, hfaddr, -⟩ := h.addr (by rw [hopened]; decide)
  have hwritten : written ≠ [] := h.begun (Or.inl hopened)
  have htransmit := h.transmit.number (by rw [if_neg hwritten]; exact hdata) hroom hackn
    (fun hopn => absurd hopn (isData_ne hdata (by decide))) (fun _ => hlen) hladdr hfaddr h.lidx
  refine ⟨?_, le_rfl, le_rfl,
    controls_write (Int.lt_add_one_iff.mpr h.transmit.trecvd_le)⟩
  rw [show takenOf (c.number p).2 = [] from rfl, List.append_nil]
  exact
    { h with
      transmit := htransmit
      receive := h.receive.congr (Or.inl rfl) rfl rfl rfl rfl rfl rfl
      begun := fun _ => List.append_ne_nil_of_right_ne_nil _ (List.cons_ne_nil _ _)
      unbegun := fun hstate => by
        rw [show (c.number p).1.state = .opened from hopened] at hstate
        rcases hstate with hstate | hstate <;> cases hstate }

/-- `ch_write`, of data or an OPN. -/
theorem Connection.chWrite_getD {S : Type} [SerialNumber S] (c : Connection S) {p : Packet S}
    (hop : isData p.op = true ∨ p.op = opnop) :
    (c.chWrite p).getD (c, []) = if c.state = .opened then
      Connection.number { c with racked := c.rread } { p with ackn := c.rread } else (c, []) := by
  have hne : ∀ {op : Byte}, isData op = false → opnop ≠ op → p.op ≠ op := by
    intro op hdata hopn
    rcases hop with hop | hop
    · exact isData_ne hop hdata
    · exact hop ▸ hopn
  rw [Connection.chWrite,
    if_neg (not_or.mpr ⟨hne (by decide) (by decide), hne (by decide) (by decide)⟩),
    if_neg (not_or.mpr ⟨hne (by decide) (by decide), hne (by decide) (by decide)⟩),
    if_neg (hne (by decide) (by decide)), if_pos (by
      simp only [isData, Bool.or_eq_true, decide_eq_true_eq] at hop
      tauto)]
  split_ifs <;> rfl

/-- A packet of data is written. -/
theorem Sound.chWrite (h : Sound e sent peerRead peerLast c bag written taken)
    (hdata : isData p.op = true) (hlen : p.len = p.cdata.length) (hfull : c.chtfull = false) :
    Outcome e sent peerRead peerLast c bag written taken ((c.chWrite p).getD (c, [])) := by
  rw [c.chWrite_getD (Or.inl hdata)]
  split_ifs with hopened
  · have hroom : c.tlast + 1 ≤ c.tacked + max 1 e.peerWindow.toNat := by
      have htwsize := h.transmit.twsize
      simp only [Connection.chtfull, hopened, decide_true, Bool.true_and, diff_int,
        decide_eq_false_iff_not] at hfull
      omega
    exact (h.ack.number (p := { p with ackn := c.rread }) hopened hdata hlen le_rfl hroom).of_le
      le_rfl le_rfl
  · exact h.unchanged

/-- After the RFC is read, an RFC that has come in leaves nothing to be read. -/
theorem Sound.rfcrcvd (h : Sound e sent peerRead peerLast c bag written taken)
    (hstate : c.state = .rfcrcvd) :
    c.rhead = [] ∨ ∃ p, c.rhead = [p] ∧ p.op = rfcop := by
  rcases h.receive.holds with ⟨p, hp, hop, -, -⟩ | ⟨-, hnil⟩
  · exact Or.inr ⟨p, hp, hop⟩
  · exact Or.inl (hnil hstate)

/-- The OPN is the first packet written. -/
theorem Sound.sendOpn (h : Sound e sent peerRead peerLast c bag written taken)
    (hstate : c.state = .rfcrcvd) (hrhead : c.rhead = []) {c' : Connection ℤ}
    (hc' : c' = { c with
      state := .opened, tlast := SerialNumber.start, rsts := c.rwsize >>> 1 })
    {opn : Packet ℤ} (hop : opn.op = opnop) (hrwsize : opn.rwsize = c.rwsize) :
    Outcome e sent peerRead peerLast c bag written taken ((c'.chWrite opn).getD (c', [])) := by
  obtain ⟨hladdr, hfaddr, hwindow⟩ := h.addr (by rw [hstate]; decide)
  have hwritten := h.unbegun (Or.inr hstate)
  have htlast : c.tlast = 0 := by
    rw [h.transmit.tlast, hwritten]
    rfl
  have hfirst : e.first = opnop := by
    rcases e.first_eq with hfirst | hfirst
    · have hphase := h.phase
      rw [if_pos hfirst] at hphase
      exact absurd hstate hphase.2
    · exact hfirst
  rw [c'.chWrite_getD (Or.inr hop), if_pos (show c'.state = .opened by rw [hc'])]
  have hnone : ∀ n : ℤ, 0 ≤ c.trecvd → c.trecvd < n → n ≤ 0 → False := by omega
  have htrecvd := h.transmit.tacked_nonneg.trans h.transmit.tacked_le
  have htransmit : Transmit e { c' with racked := c'.rread } bag written := by
    rw [hc']
    exact
      { h.transmit with
        tlast := by rw [hwritten]; rfl
        trecvd_le := (h.transmit.trecvd_le.trans htlast.le : c.trecvd ≤ 0)
        within := (htlast.ge.trans h.transmit.within : 0 ≤ c.tacked + max 1 e.peerWindow.toNat)
        custody := fun _ n hn hle => (hnone n htrecvd hn hle).elim }
  have hnumber := htransmit.number (p := { opn with ackn := c'.rread })
    (by rw [if_pos hwritten, hfirst]; exact hop)
    (by
      have := h.transmit.tacked_nonneg
      rw [hc']
      dsimp only [start_int]
      omega)
    le_rfl (fun _ => by rw [← hwindow, ← hrwsize])
    (fun hdata => absurd hop (isData_ne hdata (by decide))) (by rw [hc']; exact hladdr)
    (by rw [hc']; exact hfaddr) (by rw [hc']; exact h.lidx)
  have hreceive : Receive e (Connection.number { c' with racked := c'.rread }
      { opn with ackn := c'.rread }).1 sent taken := by
    have hack := h.receive.congr (d := { c with racked := c.rread }) (Or.inr rfl) rfl rfl rfl
      rfl rfl rfl
    have hheld : ∀ q ∈ c.rhead, contpkt q.op = true → isData q.op = true := by
      rw [hrhead]
      exact fun q hq => absurd hq List.not_mem_nil
    rw [hc']
    exact
      { hack with
        holds := Or.inr ⟨hheld, fun hcontra => by cases hcontra⟩
        begun := fun _ => h.receive.begun (Or.inr hstate)
        fresh := fun hcontra => by rcases hcontra with hcontra | hcontra <;> cases hcontra }
  refine ⟨?_, by rw [hc']; exact le_rfl, by rw [hc']; exact le_rfl,
    controls_write (Int.lt_add_one_iff.mpr htransmit.trecvd_le)⟩
  rw [show takenOf (Connection.number { c' with racked := c'.rread }
    { opn with ackn := c'.rread }).2 = [] from rfl, List.append_nil]
  have hlisten : c.state ≠ .listen := by rw [hstate]; decide
  rw [hc'] at hnumber hreceive ⊢
  exact
    { h with
      transmit := hnumber
      receive := hreceive
      addr := fun _ => h.addr hlisten
      fidx := fun hfirst _ => h.fidx hfirst hlisten
      listening := fun hcontra => by cases hcontra
      phase := by
        rw [if_neg (by rw [hfirst]; decide)]
        exact fun hcontra => by cases hcontra
      begun := fun _ => List.append_ne_nil_of_right_ne_nil _ (List.cons_ne_nil _ _)
      unbegun := fun hcontra => by rcases hcontra with hcontra | hcontra <;> cases hcontra }

/-- `ch_write` receipts nothing. -/
theorem trecvd_chWrite_getD {S : Type} [SerialNumber S] (c : Connection S) (p : Packet S) :
    ((c.chWrite p).getD (c, [])).1.trecvd = c.trecvd := by
  rw [Connection.chWrite]
  split_ifs
  · rw [Connection.chClose]
    split_ifs <;> rfl
  all_goals rfl

/-- An RFC is accepted. -/
theorem Sound.chAccept (h : Sound e sent peerRead peerLast c bag written taken) :
    Outcome e sent peerRead peerLast c bag written taken c.chAccept := by
  rw [Connection.chAccept]
  split_ifs with hstate hrfc
  · obtain ⟨p, hrhead, hop⟩ : ∃ p, c.rhead = [p] ∧ p.op = rfcop := by
      rcases h.rfcrcvd hstate with hnil | hp
      · rw [hnil] at hrfc
        cases hrfc
      · exact hp
    have hread := h.chRead
    have hstate' : c.chRead.1.state = .rfcrcvd ∧ c.chRead.1.rhead = [] := by
      rw [Connection.chRead, hrhead]
      simp only
      split_ifs <;> exact ⟨hstate, rfl⟩
    generalize c.chRead = r at *
    obtain ⟨c₁, es⟩ := r
    exact hread.trans (hread.sound.sendOpn hstate'.1 hstate'.2 rfl rfl rfl)
      (trecvd_chWrite_getD _ _)
  · have hrhead : c.rhead = [] := by
      rcases h.rfcrcvd hstate with hnil | ⟨p, hp, hop⟩
      · exact hnil
      · rw [hp] at hrfc
        exact absurd (congrArg some hop) hrfc
    exact h.sendOpn hstate hrhead rfl rfl rfl
  · exact h.unchanged

/-- A listener is given the RFC of the other end. -/
theorem Sound.lsnmatch (h : Sound e sent peerRead peerLast c bag written taken)
    (hpeer : Peer e sent written peerRead peerLast) (hp : Own e.flip peerRead peerLast sent p)
    (hop : p.op = rfcop) (hstate : c.state = .listen) (clock : HalfWord) :
    Outcome e sent peerRead peerLast c bag written taken (c.lsnmatch clock e.me p, []) := by
  obtain ⟨hreceive, hread, hlast⟩ :=
    h.receive.lsnmatch hstate hpeer.opening hp.carried hop clock e.me
  have hfirst : e.first ≠ rfcop := by
    intro hfirst
    have hphase := h.phase
    rw [if_pos hfirst] at hphase
    exact hphase.1 hstate
  have halive : ¬ (c.lsnmatch clock e.me p).Alive := fun ha => ha.elim (by rintro ⟨⟩) (by rintro ⟨⟩)
  refine ⟨?_, hread, hlast, controls_nil⟩
  simp only [sending_nil, writtenOf_nil, takenOf_nil, List.nil_append, List.append_nil]
  exact
    { h with
      transmit := h.transmit.congr rfl rfl rfl rfl h.transmit.twsize
        (fun ha => absurd ha halive) hread hlast
      receive := hreceive
      addr := fun _ => ⟨if_neg (by rw [hp.daddr]; exact e.me_ne_zero), hp.saddr,
        (h.listening hstate).2⟩
      fidx := fun _ _ => hp.sidx (by rw [hop]; decide)
      listening := fun heq => by cases heq
      phase := by
        rw [if_neg hfirst]
        exact fun heq => by cases heq
      begun := fun ha => absurd ha halive
      unbegun := fun _ => h.unbegun (Or.inl hstate) }

/-! ### Streams and the clock -/

/-- The packet being filled may change. -/
theorem Sound.output (h : Sound e sent peerRead peerLast c bag written taken)
    {toutput : Option (Packet ℤ)} {troom : ℕ}
    (hout : ∀ p ∈ toutput, isdatop p.op = true ∧ p.len = p.cdata.length) :
    Sound e sent peerRead peerLast { c with toutput := toutput, troom := troom } bag written
      taken :=
  h.congr rfl rfl rfl rfl h.transmit.twsize rfl rfl rfl rfl rfl rfl rfl rfl rfl rfl rfl rfl hout

/-- The packet being filled is sent. -/
theorem Sound.flush (h : Sound e sent peerRead peerLast c bag written taken)
    (hdata : isdatop p.op = true) (hlen : p.len = p.cdata.length) (hfull : c.chtfull = false)
    (troom : ℕ) :
    Outcome e sent peerRead peerLast c bag written taken
      (({ c with toutput := none, troom := troom }.chWrite p).getD
        ({ c with toutput := none, troom := troom }, [])) := by
  have hout : ∀ q ∈ (none : Option (Packet ℤ)), isdatop q.op = true ∧ q.len = q.cdata.length :=
    fun q hq => by cases hq
  have hdata' : isData p.op = true := by rw [isData, hdata, Bool.true_or]
  exact ((h.output hout).chWrite hdata' hlen hfull).of_le le_rfl le_rfl

theorem Sound.chSflush (h : Sound e sent peerRead peerLast c bag written taken) :
    Outcome e sent peerRead peerLast c bag written taken c.chSflush := by
  rw [Connection.chSflush]
  cases hout : c.toutput with
  | none => exact h.unchanged
  | some p =>
    simp only
    split_ifs with hfull
    · exact h.unchanged
    · exact h.flush (h.toutput p hout).1 (h.toutput p hout).2 (Bool.eq_false_iff.mpr hfull) c.troom

theorem Sound.flushOutput (h : Sound e sent peerRead peerLast c bag written taken)
    (clock : HalfWord) (hz : ℕ) :
    Outcome e sent peerRead peerLast c bag written taken (Host.flushOutput clock hz c) := by
  rw [Host.flushOutput]
  cases hout : c.toutput with
  | none => exact h.unchanged
  | some p =>
    simp only
    split_ifs with hfull
    · exact h.flush (h.toutput p hout).1 (h.toutput p hout).2 (Bool.eq_false_iff.mpr hfull.2)
        c.troom
    · exact h.unchanged

/-- Bytes of the user are taken besides. -/
theorem Outcome.accept {r : Connection ℤ × List (Effect ℤ)}
    (h : Outcome e sent peerRead peerLast c bag written taken r) (bs : List Byte) :
    Outcome e sent peerRead peerLast c bag written taken (r.1, .accept bs :: r.2) where
  sound := h.sound
  rread_le := h.rread_le
  rlast_le := h.rlast_le
  controls := by
    refine ⟨fun q hq => h.controls.1 q ?_, h.controls.2⟩
    exact (List.mem_cons.mp hq).resolve_left fun heq => by cases heq

/-- Bytes are handed to the user besides. -/
theorem Outcome.stream {r : Connection ℤ × List (Effect ℤ)}
    (h : Outcome e sent peerRead peerLast c bag written taken r) (bs : List Byte) :
    Outcome e sent peerRead peerLast c bag written taken (r.1, .stream bs :: r.2) where
  sound := h.sound
  rread_le := h.rread_le
  rlast_le := h.rlast_le
  controls := by
    refine ⟨fun q hq => h.controls.1 q ?_, h.controls.2⟩
    exact (List.mem_cons.mp hq).resolve_left fun heq => by cases heq

/-- A turn of the loop of `ch_swrite`. -/
theorem Sound.swriteTurn (h : Sound e sent peerRead peerLast c bag written taken)
    (hfull : c.chtfull = false) (clock : HalfWord) (bs : List Byte) :
    Outcome e sent peerRead peerLast c bag written taken (c.swriteTurn clock bs) := by
  obtain ⟨hout, hlen⟩ : isdatop (c.toutput.getD { Packet.cleared with
        op := if c.answer then ansop else datop }).op = true ∧
      (c.toutput.getD { Packet.cleared with op := if c.answer then ansop else datop }).len =
        (c.toutput.getD { Packet.cleared with
          op := if c.answer then ansop else datop }).cdata.length := by
    cases htoutput : c.toutput with
    | none =>
      rw [h.answer]
      exact ⟨by decide, rfl⟩
    | some p => exact h.toutput p htoutput
  rw [Connection.swriteTurn]
  generalize c.toutput.getD { Packet.cleared with
      op := if c.answer then ansop else datop } = p at hout hlen
  simp only
  have hlen' : p.len + min bs.length c.outputRoom =
      (p.cdata ++ bs.take (min bs.length c.outputRoom)).length := by
    rw [List.length_append, List.length_take, hlen]
    omega
  refine Outcome.accept ?_ _
  split_ifs
  · exact h.flush (p := { p with
        cdata := p.cdata ++ bs.take (min bs.length c.outputRoom)
        len := p.len + min bs.length c.outputRoom }) hout hlen' hfull _
  · refine (Sound.unchanged (h.output ?_)).of_le le_rfl le_rfl
    rintro q ⟨⟩
    exact ⟨hout, hlen'⟩

/-- A turn of the loop of `ch_sread`. -/
theorem Sound.sreadTurn (h : Sound e sent peerRead peerLast c bag written taken) (ntodo : ℕ) :
    Outcome e sent peerRead peerLast c bag written taken (c.sreadTurn ntodo) := by
  rw [Connection.sreadTurn]
  cases hrhead : c.rhead with
  | nil => exact h.unchanged
  | cons p ps =>
    simp only
    have htrim : Sound e sent peerRead peerLast { c with
        eofseen := false, rhead := { p with len := p.len - min p.len ntodo } :: ps } bag written
        taken :=
      { h with
        transmit := h.transmit.congr rfl rfl rfl rfl h.transmit.twsize id le_rfl le_rfl
        receive := (h.receive.trim hrhead).congr (Or.inl rfl) rfl rfl rfl rfl rfl rfl }
    split_ifs
    · have hread := htrim.chRead.of_le (c := c) le_rfl le_rfl
      generalize Connection.chRead { c with
        eofseen := false, rhead := { p with len := p.len - min p.len ntodo } :: ps } = r at *
      have hreset : Outcome e sent peerRead peerLast c bag written taken
          ({ r.1 with roffset := 0, eofseen := p.op = ansop }, r.2) :=
        ⟨hread.sound.congr rfl rfl rfl rfl hread.sound.transmit.twsize rfl rfl rfl rfl rfl rfl
          rfl rfl rfl rfl rfl rfl hread.sound.toutput, hread.rread_le, hread.rlast_le,
          hread.controls⟩
      exact hreset.stream _
    · have hoffset : Sound e sent peerRead peerLast { c with
          eofseen := false, rhead := { p with len := p.len - min p.len ntodo } :: ps
          roffset := c.roffset + min p.len ntodo } bag written taken :=
        htrim.congr rfl rfl rfl rfl h.transmit.twsize rfl rfl rfl rfl rfl rfl rfl rfl rfl rfl rfl
          rfl h.toutput
      exact (hoffset.unchanged.of_le (c := c) le_rfl le_rfl).stream _

/-- A connection that was not active for long is broken. -/
theorem Sound.probe (h : Sound e sent peerRead peerLast c bag written taken)
    (hstate : c.state ≠ .listen) (clock : HalfWord) (hz : ℕ) :
    Outcome e sent peerRead peerLast c bag written taken (Host.probe clock hz c) := by
  rw [Host.probe]
  generalize (if c.state = .opened then 3 * (hz * 45) else hz * 15) = limit
  split
  · have hsound := h.clsconn (Or.inr (Or.inr rfl)) (q := none) (fun q hq => by cases hq)
      (Or.inl rfl) hstate
    exact hsound.unchanged.of_le le_rfl le_rfl
  · exact h.unchanged

end Usim.Ncp
