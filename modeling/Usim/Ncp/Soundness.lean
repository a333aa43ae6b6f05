import Usim.Ncp.Reception

/-!
# What the functions of the NCP keep

Each function on a connection keeps what holds of its two ends, with numbers that never
wrap, whatever packet of the other end it is given.
-/

namespace Usim.Ncp

open Lib

/-! ### Effects -/

section Effects

variable {S : Type} (es es' : List (Effect S))

@[simp] theorem sending_nil : sending ([] : List (Effect S)) = [] := rfl

@[simp] theorem writtenOf_nil : writtenOf ([] : List (Effect S)) = [] := rfl

@[simp] theorem takenOf_nil : takenOf ([] : List (Effect S)) = [] := rfl

@[simp] theorem sending_append : sending (es ++ es') = sending es ++ sending es' :=
  List.flatMap_append

@[simp] theorem writtenOf_append : writtenOf (es ++ es') = writtenOf es ++ writtenOf es' :=
  List.filterMap_append

@[simp] theorem takenOf_append : takenOf (es ++ es') = takenOf es ++ takenOf es' :=
  List.filterMap_append

/-- A packet is read. -/
theorem takenOf_read (p : Packet S) :
    takenOf (.read p :: es) = (if isData p.op then [p.message] else []) ++ takenOf es := by
  cases hdata : isData p.op <;> simp [takenOf, hdata]

end Effects

section Controls

variable {es es' : List (Effect ℤ)} {last : ℤ}

/-- The packets handed to `sendctl` are not numbered, and those handed to `senddata` come after
a number. -/
def Controls (last : ℤ) (es : List (Effect ℤ)) : Prop :=
  (∀ p, Effect.ctl p ∈ es → contpkt p.op = false) ∧
    ∀ p ∈ sending es, contpkt p.op = true → last < p.pkn

@[simp] theorem controls_nil : Controls last [] :=
  ⟨fun _ hp => absurd hp List.not_mem_nil, fun _ hp => absurd hp List.not_mem_nil⟩

theorem Controls.append (h : Controls last es) (h' : Controls last es') :
    Controls last (es ++ es') := by
  refine ⟨fun p hp => (List.mem_append.mp hp).elim (h.1 p) (h'.1 p), fun p hp => ?_⟩
  rw [sending_append] at hp
  exact (List.mem_append.mp hp).elim (h.2 p) (h'.2 p)

theorem controls_ctl {p : Packet ℤ} (h : contpkt p.op = false) : Controls last [.ctl p] := by
  refine ⟨fun q hq => ?_, fun q hq hcont => ?_⟩
  · cases List.mem_singleton.mp hq
    exact h
  · rw [List.mem_singleton.mp hq, h] at hcont
    cases hcont

theorem controls_write {p : Packet ℤ} (h : last < p.pkn) : Controls last [.write p] := by
  refine ⟨fun q hq => ?_, fun q hq _ => ?_⟩
  · cases List.mem_singleton.mp hq
  · rw [List.mem_singleton.mp hq]
    exact h

theorem Controls.cons_read (h : Controls last es) (p : Packet ℤ) :
    Controls last (.read p :: es) := by
  refine ⟨fun q hq => ?_, h.2⟩
  rcases List.mem_cons.mp hq with hq | hq
  · cases hq
  · exact h.1 q hq

end Controls

/-- What holds of a connection with the packets on their way to the interface, and of what its
user has written and read, when the other end has sent these messages and has read and
received up to these numbers. -/
structure Sound (e : Ends) (sent : List Message) (peerRead peerLast : ℤ) (c : Connection ℤ)
    (bag : List (Packet ℤ)) (written taken : List Message) : Prop where
  transmit : Transmit e c bag written
  receive : Receive e c sent taken
  tacked_le : c.tacked ≤ peerRead
  trecvd_le : c.trecvd ≤ peerLast
  lidx : c.lidx = e.lidx
  addr : c.state ≠ .listen → c.laddr = e.me ∧ c.faddr = e.peer ∧ c.rwsize = e.window
  fidx : e.first = opnop → c.state ≠ .listen → c.fidx = e.fidx
  listening : c.state = .listen →
    c.faddr = 0 ∧ (if c.rwsize = 0 then chdrwsize else c.rwsize) = e.window
  answer : c.answer = false
  toutput : ∀ p ∈ c.toutput, isdatop p.op = true ∧ p.len = p.cdata.length
  phase : if e.first = rfcop then c.state ≠ .listen ∧ c.state ≠ .rfcrcvd else c.state ≠ .rfcsent
  begun : c.Alive → written ≠ []
  unbegun : c.state = .listen ∨ c.state = .rfcrcvd → written = []

/-- What is known of the other end when a function is called. -/
structure Peer (e : Ends) (sent written : List Message) (peerRead peerLast : ℤ) : Prop where
  read_le : peerRead ≤ peerLast
  last_le : peerLast ≤ written.length
  ops : ∀ i m, sent[i]? = some m → if i = 0 then m.op = e.flip.first else isData m.op = true

/-- What a function that returns a connection and effects does: what holds before holds after,
and no number goes back. -/
structure Outcome (e : Ends) (sent : List Message) (peerRead peerLast : ℤ) (c : Connection ℤ)
    (bag : List (Packet ℤ)) (written taken : List Message)
    (r : Connection ℤ × List (Effect ℤ)) : Prop where
  sound : Sound e sent peerRead peerLast r.1 (sending r.2 ++ bag) (written ++ writtenOf r.2)
    (taken ++ takenOf r.2)
  rread_le : c.rread ≤ r.1.rread
  rlast_le : c.rlast ≤ r.1.rlast
  controls : Controls r.1.trecvd r.2

variable {e : Ends} {sent written taken : List Message} {peerRead peerLast : ℤ}
  {c c' : Connection ℤ} {bag bag' : List (Packet ℤ)} {p : Packet ℤ}
  {es es' : List (Effect ℤ)}

/-- Only which packets are on their way matters. -/
theorem Sound.rearrange (h : Sound e sent peerRead peerLast c bag written taken)
    (hbag : (bag'.map Packet.plain).Perm (bag.map Packet.plain)) :
    Sound e sent peerRead peerLast c bag' written taken :=
  { h with transmit := h.transmit.rearrange hbag }

/-- The connection is as before, and nothing is sent. -/
theorem Sound.unchanged (h : Sound e sent peerRead peerLast c bag written taken) :
    Outcome e sent peerRead peerLast c bag written taken (c, []) where
  sound := by simpa using h
  rread_le := le_rfl
  rlast_le := le_rfl
  controls := controls_nil

/-- One function after another. -/
theorem Outcome.trans (h : Outcome e sent peerRead peerLast c bag written taken (c', es))
    {c'' : Connection ℤ}
    (h' : Outcome e sent peerRead peerLast c' (sending es ++ bag) (written ++ writtenOf es)
      (taken ++ takenOf es) (c'', es')) (htrecvd : c''.trecvd = c'.trecvd) :
    Outcome e sent peerRead peerLast c bag written taken (c'', es ++ es') where
  sound := by
    rw [writtenOf_append, takenOf_append, ← List.append_assoc, ← List.append_assoc]
    refine h'.sound.rearrange ?_
    rw [sending_append, List.append_assoc]
    simp only [List.map_append]
    rw [← List.append_assoc, ← List.append_assoc]
    exact List.perm_append_comm.append_right _
  rread_le := h.rread_le.trans h'.rread_le
  rlast_le := h.rlast_le.trans h'.rlast_le
  controls := by
    have hcontrols := h.controls
    rw [show c'.trecvd = c''.trecvd from htrecvd.symm] at hcontrols
    exact hcontrols.append h'.controls

/-- A packet of ours that is not numbered is handed to `sendctl`. -/
theorem Sound.control (h : Sound e sent peerRead peerLast c bag written taken)
    (hp : Own e c.rread c.rlast written p) (hcont : contpkt p.op = false) :
    Outcome e sent peerRead peerLast c bag written taken (c, [.ctl p]) where
  sound := by
    have := { h with transmit := h.transmit.control hp hcont }
    simpa [sending, writtenOf, takenOf] using this
  rread_le := le_rfl
  rlast_le := le_rfl
  controls := controls_ctl hcont

/-- The last acknowledgement moves up to the last packet read. -/
theorem Sound.ack (h : Sound e sent peerRead peerLast c bag written taken) :
    Sound e sent peerRead peerLast { c with racked := c.rread } bag written taken :=
  { h with
    transmit := h.transmit.congr rfl rfl rfl rfl h.transmit.twsize id le_rfl le_rfl
    receive := h.receive.congr (Or.inr rfl) rfl rfl rfl rfl rfl rfl }

/-- The packet comes from the other end. -/
def FromPeer (e : Ends) (p : Packet ℤ) : Prop := p.saddr = e.peer ∧ p.daddr = e.me ∧ p.fc = 0

/-- A packet is answered with our status. -/
theorem Sound.replySts (h : Sound e sent peerRead peerLast c bag written taken)
    (hp : FromPeer e p) (hstate : c.state ≠ .listen) :
    Outcome e sent peerRead peerLast c bag written taken (c.replySts p) := by
  have hown : Own e c.rread c.rlast written (c.makests p).reflect :=
    Own.status hp.2.1 hp.1 hp.2.2 rfl le_rfl h.receive.rread_le le_rfl (h.addr hstate).2.2
  have hsent := h.ack.control hown (by decide : contpkt stsop = false)
  exact ⟨hsent.sound, le_rfl, le_rfl, hsent.controls⟩

/-- Our status is sent. -/
theorem Sound.sendsts (h : Sound e sent peerRead peerLast c bag written taken)
    (hstate : c.state ≠ .listen) :
    Outcome e sent peerRead peerLast c bag written taken c.sendsts := by
  obtain ⟨hladdr, hfaddr, hrwsize⟩ := h.addr hstate
  have hown : Own e c.rread c.rlast written (c.makests (c.setpkt Packet.cleared)) :=
    Own.status hladdr hfaddr rfl rfl le_rfl h.receive.rread_le le_rfl hrwsize
  have hsent := h.ack.control hown (by decide : contpkt stsop = false)
  exact ⟨hsent.sound, le_rfl, le_rfl, hsent.controls⟩

/-- A packet is answered with a LOS, if at all. -/
theorem Sound.sendlos (h : Sound e sent peerRead peerLast c bag written taken)
    (hp : FromPeer e p) (myname text : List Byte) :
    Outcome e sent peerRead peerLast c bag written taken (c, p.sendlos myname text) := by
  rw [Packet.sendlos]
  split
  · exact h.unchanged
  · exact h.control (Own.unnumbered hp.2.1 hp.1 hp.2.2 (Or.inl rfl))
      (by decide : contpkt losop = false)

/-- What is due is sent again. -/
theorem Sound.chretran (h : Sound e sent peerRead peerLast c bag written taken)
    (clock : HalfWord) (age : ℕ) :
    Outcome e sent peerRead peerLast c bag written taken (c.chretran clock age) := by
  have htransmit := h.transmit.chretran clock age
  rw [Connection.chretran] at htransmit ⊢
  cases hdue : c.thead.filter (Connection.due clock age) with
  | nil => exact h.unchanged
  | cons q qs =>
    rw [hdue] at htransmit
    refine ⟨?_, le_rfl, le_rfl, fun r hr => ?_, fun r hr _ => ?_⟩
    rotate_left
    · cases List.mem_singleton.mp hr
    · rw [show sending [Effect.data ((q :: qs).map fun q => { q with ackn := c.rread })] =
        (q :: qs).map fun q => { q with ackn := c.rread } from List.append_nil _] at hr
      obtain ⟨r', hr', rfl⟩ := List.mem_map.mp hr
      rw [← hdue] at hr'
      exact (h.transmit.thead r' (List.mem_of_mem_filter hr')).2
    simp only [writtenOf, takenOf, List.filterMap_cons, List.filterMap_nil, List.append_nil]
    exact
      { h with
        transmit := htransmit
        receive := h.receive.congr (Or.inr rfl) rfl rfl rfl rfl rfl rfl }

/-! ### Packets that arrive -/

/-- Only the first message of the other end is no data. -/
theorem Peer.opening (h : Peer e sent written peerRead peerLast) : Opening sent := by
  intro i m hm
  have hop := h.ops i m hm
  split at hop
  · have hfirst : isData e.flip.first = false := by
      rcases e.flip.first_eq with heq | heq <;> rw [heq] <;> decide
    rw [hop, hfirst]
    simpa
  · rw [hop]
    simpa

/-- A packet of the other end comes from there. -/
theorem Own.fromPeer (hp : Own e.flip peerRead peerLast sent p) : FromPeer e p :=
  ⟨hp.saddr, hp.daddr, hp.fc⟩

/-- A packet of the other end may be kept. -/
theorem Own.carried (hp : Own e.flip peerRead peerLast sent p) : Carried e sent p :=
  ⟨hp.saddr, hp.daddr, hp.fc, hp.number⟩

/-- A receipt and an acknowledgement of the other end are noted. -/
theorem Sound.receipt (h : Sound e sent peerRead peerLast c bag written taken)
    (hpeer : Peer e sent written peerRead peerLast) {acknum recnum : ℤ} (hle : acknum ≤ recnum)
    (hack : acknum ≤ peerRead) (hrec : recnum ≤ peerLast) :
    Sound e sent peerRead peerLast (c.receipt acknum recnum) bag written taken := by
  have htlast := h.transmit.tlast
  have hlast := hpeer.last_le
  have htransmit := h.transmit.receipt hle (by omega)
  rw [Connection.receipt_eq] at htransmit ⊢
  refine
    { h with
      transmit := htransmit
      receive := h.receive.congr (Or.inl rfl) rfl rfl rfl rfl rfl rfl
      tacked_le := ?_, trecvd_le := max_le h.trecvd_le hrec }
  have := h.tacked_le
  dsimp only
  split <;> omega

/-- An outcome from a later connection is one from an earlier one. -/
theorem Outcome.of_le {r : Connection ℤ × List (Effect ℤ)}
    (h : Outcome e sent peerRead peerLast c' bag written taken r) (hread : c.rread ≤ c'.rread)
    (hlast : c.rlast ≤ c'.rlast) : Outcome e sent peerRead peerLast c bag written taken r :=
  ⟨h.sound, hread.trans h.rread_le, hlast.trans h.rlast_le, h.controls⟩

/-- A packet of data is queued. -/
theorem Sound.enqueue (h : Sound e sent peerRead peerLast c bag written taken)
    (hp : Own e.flip peerRead peerLast sent p) (hdata : isData p.op = true)
    (hopened : c.state = .opened) :
    Outcome e sent peerRead peerLast c bag written taken (c.enqueue p) := by
  have hreply := h.replySts hp.fromPeer (by rw [hopened]; decide)
  simp only [Connection.enqueue, later_int]
  split
  · exact hreply
  · have hlater : c.rlast < p.pkn := by
      by_contra hnot
      exact absurd hnot (by assumption)
    by_cases hnext : p.pkn = c.rlast + 1
    · rw [if_neg (by rw [inOrder_of_eq (show p.pkn = advance c.rlast 1 from hnext)]; simp)]
      have hreceive := h.receive.enqueue hopened hp.carried hdata hnext
      refine ⟨?_, le_rfl, Int.le_add_of_nonneg_right (Int.natCast_nonneg _), controls_nil⟩
      simp only [sending_nil, writtenOf_nil, takenOf_nil, List.nil_append, List.append_nil]
      exact
        { h with
          receive := hreceive
          transmit := h.transmit.congr rfl rfl rfl rfl h.transmit.twsize id le_rfl
            (Int.le_add_of_nonneg_right (Int.natCast_nonneg _)) }
    · rw [if_pos (by rw [inOrder_of_ne (show p.pkn ≠ advance c.rlast 1 from hnext)])]
      cases hins : insertNew Packet.pkn p c.routorder with
      | none => exact hreply
      | some routorder =>
        refine ⟨?_, le_rfl, le_rfl, controls_nil⟩
        simp only [sending_nil, writtenOf_nil, takenOf_nil, List.nil_append, List.append_nil]
        exact
          { h with
            receive := h.receive.insert hopened hp.carried hdata hlater hnext hins
            transmit := h.transmit.congr rfl rfl rfl rfl h.transmit.twsize id le_rfl le_rfl }

/-- A packet of data. -/
theorem Sound.rcvdata (h : Sound e sent peerRead peerLast c bag written taken)
    (hpeer : Peer e sent written peerRead peerLast) (hp : Own e.flip peerRead peerLast sent p)
    (hdata : isData p.op = true) (hopened : c.state = .opened) :
    Outcome e sent peerRead peerLast c bag written taken (c.rcvdata p) := by
  rw [Connection.rcvdata]
  split
  · exact h.unchanged
  · have hack := hp.ackn (Or.inl (contpkt_of_isData hdata))
    have hsound := h.receipt hpeer le_rfl hack (hack.trans hpeer.read_le)
    refine (hsound.enqueue hp hdata ?_).of_le ?_ ?_ <;> rw [Connection.receipt_eq]
    exact hopened

/-- A connection is closed. -/
theorem Sound.clsconn (h : Sound e sent peerRead peerLast c bag written taken)
    {state : ConnState} (hstate : state = .closed ∨ state = .lost ∨ state = .inct)
    {q : Option (Packet ℤ)} (hcarried : ∀ p ∈ q, Carried e sent p ∧ contpkt p.op = false)
    (hq : q = none ∨ c.state = .opened ∨ c.state = .rfcsent) (hlisten : c.state ≠ .listen) :
    Sound e sent peerRead peerLast (c.clsconn state q) bag written taken := by
  have hdead : state ≠ .opened ∧ state ≠ .rfcsent ∧ state ≠ .listen ∧ state ≠ .rfcrcvd := by
    rcases hstate with rfl | rfl | rfl <;> decide
  obtain ⟨hopened, hrfcsent, hnotlisten, hrfcrcvd⟩ := hdead
  have halive : ¬ (c.clsconn state q).Alive := fun ha => ha.elim hopened hrfcsent
  have hsub : (numbers bag).Sublist (numbers bag ++ c.thead.map Packet.pkn) :=
    List.sublist_append_left _ _
  have ht := h.transmit
  refine
    { h with
      receive := h.receive.close hstate hcarried hq
      transmit :=
        { ht with
          own := fun p hp => ht.own p (List.mem_append_left _ ?_)
          once := ?_, thead_asc := List.Pairwise.nil
          thead := fun p hp => absurd hp List.not_mem_nil
          custody := fun ha => absurd ha halive }
      addr := fun _ => h.addr hlisten
      fidx := fun hfirst _ => h.fidx hfirst hlisten
      listening := fun heq => absurd heq hnotlisten
      phase := ?_
      begun := fun ha => absurd ha halive
      unbegun := fun heq => heq.elim (absurd · hnotlisten) (absurd · hrfcrcvd) }
  · simpa [Connection.clsconn] using hp
  · simpa [Connection.clsconn] using ht.once.sublist hsub
  · split
    · exact ⟨hnotlisten, hrfcrcvd⟩
    · exact hrfcsent

/-- What neither end depends on may change. -/
theorem Sound.congr (h : Sound e sent peerRead peerLast c bag written taken)
    (htlast : c'.tlast = c.tlast) (htrecvd : c'.trecvd = c.trecvd)
    (htacked : c'.tacked = c.tacked) (hthead : c'.thead = c.thead)
    (htwsize : c'.twsize.toNat ≤ e.peerWindow.toNat) (hracked : c'.racked = c.racked)
    (hrread : c'.rread = c.rread) (hrlast : c'.rlast = c.rlast) (hrhead : c'.rhead = c.rhead)
    (hroutorder : c'.routorder = c.routorder) (hrwsize : c'.rwsize = c.rwsize)
    (hstate : c'.state = c.state) (hlidx : c'.lidx = c.lidx) (hfidx : c'.fidx = c.fidx)
    (hladdr : c'.laddr = c.laddr) (hfaddr : c'.faddr = c.faddr) (hanswer : c'.answer = c.answer)
    (htoutput : ∀ p ∈ c'.toutput, isdatop p.op = true ∧ p.len = p.cdata.length) :
    Sound e sent peerRead peerLast c' bag written taken where
  transmit := h.transmit.congr htlast htrecvd htacked hthead htwsize
    (fun ha => by rwa [Connection.Alive, hstate] at ha) hrread.ge hrlast.ge
  receive := h.receive.congr (Or.inl hracked) hrread hrlast hrhead hroutorder hrwsize hstate
  tacked_le := htacked ▸ h.tacked_le
  trecvd_le := htrecvd ▸ h.trecvd_le
  lidx := hlidx ▸ h.lidx
  addr := by rw [hstate, hladdr, hfaddr, hrwsize]; exact h.addr
  fidx := by rw [hstate, hfidx]; exact h.fidx
  listening := by rw [hstate, hfaddr, hrwsize]; exact h.listening
  answer := hanswer ▸ h.answer
  toutput := htoutput
  phase := by rw [hstate]; exact h.phase
  begun := by rw [Connection.Alive, hstate]; exact h.begun
  unbegun := by rw [hstate]; exact h.unbegun

/-- The OPN that answers our RFC. -/
theorem Sound.rcvopn (h : Sound e sent peerRead peerLast c bag written taken)
    (hpeer : Peer e sent written peerRead peerLast) (hp : Own e.flip peerRead peerLast sent p)
    (hop : p.op = opnop) (hstate : c.state = .rfcsent) (clock : HalfWord) :
    Outcome e sent peerRead peerLast c bag written taken (c.rcvopn clock p) := by
  rw [Connection.rcvopn]
  have hcont : contpkt p.op = true := by rw [hop]; decide
  have hack := hp.ackn (Or.inl hcont)
  have hwindow : p.rwsize = e.peerWindow := hp.rwsize (Or.inr hop)
  have hopener : e.first ≠ opnop := by
    intro hfirst
    have hphase := h.phase
    rw [if_neg (by rw [hfirst]; decide)] at hphase
    exact hphase hstate
  have hnotlisten : c.state ≠ .listen := by rw [hstate]; decide
  set c₁ : Connection ℤ := { c with
    state := .opened, fidx := p.sidx, active := clock, rread := p.pkn, rlast := p.pkn
    twsize := p.rwsize } with hc₁
  obtain ⟨hreceive, hread, hlast⟩ := h.receive.opn (d := c₁) hstate hpeer.opening hp.carried
    hcont (by rw [hop]; decide) rfl rfl rfl rfl rfl rfl
  have hsound : Sound e sent peerRead peerLast c₁ bag written taken :=
    { h with
      transmit := h.transmit.congr rfl rfl rfl rfl (by rw [hc₁, hwindow])
        (fun _ => Or.inr hstate) hread hlast
      receive := hreceive
      addr := fun _ => h.addr hnotlisten
      fidx := fun hfirst => absurd hfirst hopener
      listening := fun heq => by cases heq
      phase := by split <;> simp [hc₁]
      begun := fun _ => h.begun (Or.inr hstate)
      unbegun := fun heq => by rcases heq with heq | heq <;> cases heq }
  have hreceipt := hsound.receipt hpeer le_rfl hack (hack.trans hpeer.read_le)
  refine (hreceipt.replySts hp.fromPeer ?_).of_le ?_ ?_
  · rw [Connection.receipt_eq]
    exact fun heq => by cases heq
  · rw [Connection.receipt_eq]
    exact hread
  · rw [Connection.receipt_eq]
    exact hlast

/-- A packet of the other end for an open connection. -/
theorem Sound.rcvopened (h : Sound e sent peerRead peerLast c bag written taken)
    (hpeer : Peer e sent written peerRead peerLast) (hp : Own e.flip peerRead peerLast sent p)
    (hopened : c.state = .opened) (clock : HalfWord) (shorttime : ℕ) (myname : List Byte) :
    Outcome e sent peerRead peerLast c bag written taken
      (c.rcvopened clock shorttime myname p) := by
  have hnotlisten : c.state ≠ .listen := by rw [hopened]; decide
  have hkind : p.op ≠ snsop ∧ p.op ≠ uncop := by
    rcases hp.kind with hcont | hop | hop | hop | hop
    · constructor <;> rintro heq <;> rw [heq] at hcont <;> exact absurd hcont (by decide)
    all_goals rw [hop]; decide
  rw [Connection.rcvopened]
  split_ifs with hdata hopn hsns hclose hcls hunc hsts
  · exact h.rcvdata hpeer hp (by simpa [isData] using hdata) hopened
  · exact h.unchanged
  · exact absurd hsns hkind.1
  · have hnot : contpkt p.op = false := by rw [hcls]; decide
    refine ⟨?_, le_rfl, le_rfl, controls_nil⟩
    simpa using h.clsconn (Or.inl rfl) (q := p) (by simpa using ⟨hp.carried, hnot⟩)
      (Or.inr (Or.inl hopened)) hnotlisten
  · have hnot : contpkt p.op = false := by rw [hclose.resolve_right hcls]; decide
    refine ⟨?_, le_rfl, le_rfl, controls_nil⟩
    simpa using h.clsconn (Or.inr (Or.inl rfl)) (q := p) (by simpa using ⟨hp.carried, hnot⟩)
      (Or.inr (Or.inl hopened)) hnotlisten
  · exact absurd hunc hkind.2
  · have hwindow : p.rwsize = e.peerWindow := hp.rwsize (Or.inl hsts)
    have hack := hp.ackn (Or.inr hsts)
    obtain ⟨hle, hrec⟩ := hp.receipt hsts
    have hsound : Sound e sent peerRead peerLast { c with twsize := p.rwsize } bag written taken :=
      h.congr rfl rfl rfl rfl (by rw [hwindow]) rfl rfl rfl rfl rfl rfl rfl rfl rfl rfl rfl rfl
        h.toutput
    refine ((hsound.receipt hpeer hle hack hrec).chretran clock shorttime).of_le ?_ ?_
    all_goals rw [Connection.receipt_eq]
  · exact h.sendlos hp.fromPeer _ _

/-- A packet of the other end with the index of the connection. -/
theorem Sound.rcvpkt (h : Sound e sent peerRead peerLast c bag written taken)
    (hpeer : Peer e sent written peerRead peerLast) (hp : Own e.flip peerRead peerLast sent p)
    (clock : HalfWord) (shorttime : ℕ) (myname : List Byte) :
    Outcome e sent peerRead peerLast c bag written taken
      (c.rcvpkt clock shorttime myname p) := by
  cases hstate : c.state with
  | rfcsent =>
    simp only [Connection.rcvpkt, hstate]
    split_ifs with hopn hclose
    · exact h.rcvopn hpeer hp hopn hstate clock
    · have hnot : contpkt p.op = false := by
        rcases hclose with hop | hop | hop <;> rw [hop] <;> decide
      refine ⟨?_, le_rfl, le_rfl, controls_nil⟩
      simpa using h.clsconn (Or.inl rfl) (q := p) (by simpa using ⟨hp.carried, hnot⟩)
        (Or.inr (Or.inr hstate)) (by rw [hstate]; decide)
    · exact h.sendlos hp.fromPeer _ _
  | opened =>
    have htouch : Sound e sent peerRead peerLast { c with active := clock } bag written taken :=
      h.congr rfl rfl rfl rfl h.transmit.twsize rfl rfl rfl rfl rfl rfl rfl rfl rfl rfl rfl rfl
        h.toutput
    have heq : c.rcvpkt clock shorttime myname p =
        Connection.rcvopened { c with active := clock } clock shorttime myname p := by
      simp only [Connection.rcvpkt, hstate]
    rw [heq]
    exact (htouch.rcvopened hpeer hp hstate clock shorttime myname).of_le le_rfl le_rfl
  | closed =>
    simp only [Connection.rcvpkt, hstate]
    exact h.sendlos hp.fromPeer _ _
  | listen =>
    simp only [Connection.rcvpkt, hstate]
    exact h.sendlos hp.fromPeer _ _
  | rfcrcvd =>
    simp only [Connection.rcvpkt, hstate]
    exact h.sendlos hp.fromPeer _ _
  | lost =>
    simp only [Connection.rcvpkt, hstate]
    exact h.sendlos hp.fromPeer _ _
  | inct =>
    simp only [Connection.rcvpkt, hstate]
    exact h.sendlos hp.fromPeer _ _

end Usim.Ncp
