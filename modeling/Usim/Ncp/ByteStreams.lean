import Usim.Ncp.WordRuns

/-!
# Bytes from end to end

If the users of the two hosts read and write bytes, then the bytes that the one has been
handed are those that the other has written first, however the bytes were put in packets, and
whatever was lost, repeated or reordered between the hosts.
-/

namespace Usim.Ncp

open Lib

/-- The bytes of the data packets. -/
def bytesOf (ms : List Message) : List Byte :=
  (ms.filter fun m => isdatop m.op).flatMap Message.data

@[simp] theorem bytesOf_nil : bytesOf [] = [] := rfl

@[simp] theorem bytesOf_append (ms ms' : List Message) :
    bytesOf (ms ++ ms') = bytesOf ms ++ bytesOf ms' := by
  rw [bytesOf, List.filter_append, List.flatMap_append]
  rfl

theorem bytesOf_singleton (m : Message) : bytesOf [m] = if isdatop m.op then m.data else [] := by
  cases hdata : isdatop m.op <;> simp [bytesOf, hdata]

theorem bytesOf_of_not {m : Message} (hm : isdatop m.op = false) : bytesOf [m] = [] := by
  rw [bytesOf_singleton, hm, if_neg (by decide)]

/-- Only data carry bytes. -/
theorem bytesOf_dataOf (ms : List Message) : bytesOf (dataOf ms) = bytesOf ms := by
  rw [bytesOf, dataOf, List.filter_filter, bytesOf]
  congr 2
  funext m
  cases hdata : isdatop m.op <;> simp [isData, hdata]

theorem bytesOf_isPrefix {ms ms' : List Message} (h : ms <+: ms') : bytesOf ms <+: bytesOf ms' := by
  obtain ⟨more, rfl⟩ := h
  exact ⟨bytesOf more, (bytesOf_append ms more).symm⟩

variable {v : View} {c d : Connection ℤ} {bag bag' : List (Packet ℤ)} {log : Log}
  {es : List (Effect ℤ)} {r : Connection ℤ × List (Effect ℤ)} {p : Packet ℤ}

/-! ### Bytes on their way out -/

/-- The connection has not been open yet. -/
def ConnState.Fresh (state : ConnState) : Prop :=
  state = .listen ∨ state = .rfcsent ∨ state = .rfcrcvd

/-- The bytes taken from the user are those of the packets written, and of the packet being
filled while the connection is open. -/
structure Outgoing (s : EndState) : Prop where
  written : bytesOf s.log.written <+: s.log.accepted
  opened : s.conn.state = .opened →
    s.log.accepted = bytesOf s.log.written ++ s.conn.toutput.elim [] Packet.cdata
  fresh : s.conn.state.Fresh → s.log.accepted = [] ∧ s.conn.toutput = none

/-- A call that neither takes bytes from the user nor writes data. -/
theorem Outgoing.call (h : Outgoing ⟨c, bag, log⟩) (htoutput : d.toutput = c.toutput)
    (hopened : d.state = .opened → c.state = .opened ∨ c.state.Fresh)
    (hfresh : d.state.Fresh → c.state.Fresh) (hwritten : bytesOf (writtenOf es) = [])
    (haccepted : acceptedOf es = []) : Outgoing ⟨d, bag', log.note es⟩ := by
  have hbytes : bytesOf (log.note es).written = bytesOf log.written := by
    rw [show (log.note es).written = log.written ++ writtenOf es from rfl, bytesOf_append,
      hwritten, List.append_nil]
  have hsame : (log.note es).accepted = log.accepted := by
    rw [show (log.note es).accepted = log.accepted ++ acceptedOf es from rfl, haccepted,
      List.append_nil]
  refine ⟨?_, fun hstate => ?_, fun hstate => ?_⟩
  · rw [hbytes, hsame]
    exact h.written
  · rw [hbytes, hsame, htoutput]
    rcases hopened hstate with hstate | hstate
    · exact h.opened hstate
    · obtain ⟨hnil, hnone⟩ := h.fresh hstate
      have hsub := h.written
      rw [show log.accepted = [] from hnil, List.prefix_nil] at hsub
      rw [show log.accepted = [] from hnil, hsub, show c.toutput = none from hnone]
      rfl
  · rw [hsame, htoutput]
    exact h.fresh (hfresh hstate)

/-- The packet being filled is sent, or thrown away if the connection is not open. -/
theorem Outgoing.flush (hsub : bytesOf log.written <+: log.accepted)
    (hopened : c.state = .opened → log.accepted = bytesOf log.written ++ p.cdata)
    (hfresh : ¬ c.state.Fresh) (hdata : isdatop p.op = true) (troom : ℕ) :
    Outgoing
      ⟨(({ c with toutput := none, troom := troom }.chWrite p).getD
          ({ c with toutput := none, troom := troom }, [])).1, bag,
        log.note (({ c with toutput := none, troom := troom }.chWrite p).getD
          ({ c with toutput := none, troom := troom }, [])).2⟩ := by
  have hisData : isData p.op = true := by rw [isData, hdata, Bool.true_or]
  rw [Connection.chWrite_getD _ (Or.inl hisData)]
  split_ifs with hstate
  · have hwritten : bytesOf (log.written ++ [p.message]) = bytesOf log.written ++ p.cdata := by
      rw [bytesOf_append, bytesOf_singleton, if_pos (show isdatop p.message.op = true from hdata)]
      rfl
    have haccepted : log.accepted ++ [] = bytesOf (log.written ++ [p.message]) ++ [] := by
      rw [hwritten, List.append_nil, List.append_nil]
      exact hopened hstate
    refine ⟨?_, fun _ => haccepted, fun hcontra => absurd hcontra hfresh⟩
    exact ⟨[], haccepted.symm⟩
  · rw [Log.note_nil]
    exact ⟨hsub, fun hcontra => absurd hcontra hstate, fun hcontra => absurd hcontra hfresh⟩

/-- The user reads no packet that bytes are taken from. -/
theorem chRead_output (c : Connection ℤ) :
    c.chRead.1.toutput = c.toutput ∧ c.chRead.1.state = c.state ∧ writtenOf c.chRead.2 = [] ∧
      acceptedOf c.chRead.2 = [] := by
  rw [Connection.chRead]
  cases c.rhead with
  | nil => exact ⟨rfl, rfl, rfl, rfl⟩
  | cons p ps =>
    simp only
    split_ifs <;> exact ⟨rfl, rfl, rfl, rfl⟩

theorem receipt_output (c : Connection ℤ) (acknum recnum : ℤ) :
    (c.receipt acknum recnum).toutput = c.toutput ∧
      (c.receipt acknum recnum).state = c.state := by
  rw [Connection.receipt_eq]
  exact ⟨rfl, rfl⟩

theorem chretran_output (c : Connection ℤ) (clock : HalfWord) (age : ℕ) :
    (c.chretran clock age).1.toutput = c.toutput ∧ (c.chretran clock age).1.state = c.state := by
  rw [Connection.chretran]
  split <;> exact ⟨rfl, rfl⟩

theorem rcvdata_output (c : Connection ℤ) (p : Packet ℤ) :
    (c.rcvdata p).1.toutput = c.toutput ∧ (c.rcvdata p).1.state = c.state := by
  have henqueue : ∀ c : Connection ℤ, (c.enqueue p).1.toutput = c.toutput ∧
      (c.enqueue p).1.state = c.state := by
    intro c
    rw [Connection.enqueue]
    split
    · exact ⟨rfl, rfl⟩
    · split
      · split <;> exact ⟨rfl, rfl⟩
      · exact ⟨rfl, rfl⟩
  rw [Connection.rcvdata]
  split
  · exact ⟨rfl, rfl⟩
  · obtain ⟨htoutput, hstate⟩ := receipt_output c p.ackn p.ackn
    exact ⟨(henqueue _).1.trans htoutput, (henqueue _).2.trans hstate⟩

/-- A packet that arrives leaves the packet being filled alone. It opens the connection only
with an OPN that answers our RFC. -/
theorem rcvpkt_output (c : Connection ℤ) (clock : HalfWord) (shorttime : ℕ)
    (myname : List Byte) (p : Packet ℤ) :
    (c.rcvpkt clock shorttime myname p).1.toutput = c.toutput ∧
      ((c.rcvpkt clock shorttime myname p).1.state = c.state ∨
        ¬ (c.rcvpkt clock shorttime myname p).1.state.Fresh ∧
          ((c.rcvpkt clock shorttime myname p).1.state = .opened → c.state.Fresh)) := by
  have hdead : ∀ {state : ConnState} {P : Prop}, state = .closed ∨ state = .lost →
      ¬ state.Fresh ∧ (state = .opened → P) := by
    rintro state P (rfl | rfl)
    · exact ⟨by simp [ConnState.Fresh], fun heq => by cases heq⟩
    · exact ⟨by simp [ConnState.Fresh], fun heq => by cases heq⟩
  rw [Connection.rcvpkt]
  split
  · have hstate : c.state = .rfcsent := by assumption
    split_ifs
    · rw [Connection.rcvopn]
      obtain ⟨htoutput, hopened⟩ := receipt_output { c with
        state := .opened, fidx := p.sidx, active := clock, rread := p.pkn, rlast := p.pkn
        twsize := p.rwsize } p.ackn p.ackn
      have hopened' : (Connection.receipt { c with
          state := .opened, fidx := p.sidx, active := clock, rread := p.pkn, rlast := p.pkn
          twsize := p.rwsize } p.ackn p.ackn).state = .opened := hopened
      exact ⟨htoutput, Or.inr ⟨fun hfresh => by
        rw [Connection.replySts, hopened'] at hfresh
        simp [ConnState.Fresh] at hfresh, fun _ => Or.inr (Or.inl hstate)⟩⟩
    · exact ⟨rfl, Or.inr (hdead (Or.inl rfl))⟩
    · exact ⟨rfl, Or.inl rfl⟩
  · rw [Connection.rcvopened]
    split_ifs
    · obtain ⟨htoutput, hstate⟩ := rcvdata_output { c with active := clock } p
      exact ⟨htoutput, Or.inl hstate⟩
    · exact ⟨rfl, Or.inl rfl⟩
    · obtain ⟨htoutput, hstate⟩ := receipt_output { c with active := clock } p.ackn p.ackn
      exact ⟨htoutput, Or.inl hstate⟩
    · exact ⟨rfl, Or.inr (hdead (Or.inl rfl))⟩
    · exact ⟨rfl, Or.inr (hdead (Or.inr rfl))⟩
    · obtain ⟨htoutput, hstate⟩ := receipt_output
        { c with active := clock, rhead := p :: c.rhead } p.ackn p.ackn
      exact ⟨htoutput, Or.inl hstate⟩
    · obtain ⟨htoutput, hstate⟩ := receipt_output
        { c with active := clock, twsize := p.rwsize } p.ackn p.receipt
      obtain ⟨htoutput', hstate'⟩ := chretran_output (Connection.receipt
        { c with active := clock, twsize := p.rwsize } p.ackn p.receipt) clock shorttime
      exact ⟨htoutput'.trans htoutput, Or.inl (hstate'.trans hstate)⟩
    · exact ⟨rfl, Or.inl rfl⟩
  · exact ⟨rfl, Or.inl rfl⟩

theorem Silent.writtenOf (h : Silent es) : Ncp.writtenOf es = [] :=
  congrArg Log.written (h ⟨[], [], [], []⟩)

theorem Silent.acceptedOf (h : Silent es) : Ncp.acceptedOf es = [] :=
  congrArg Log.accepted (h ⟨[], [], [], []⟩)

theorem Silent.takenOf (h : Silent es) : Ncp.takenOf es = [] :=
  congrArg Log.taken (h ⟨[], [], [], []⟩)

theorem Silent.streamedOf (h : Silent es) : Ncp.streamedOf es = [] :=
  congrArg Log.streamed (h ⟨[], [], [], []⟩)

/-- A call that neither takes bytes from the user nor writes data, in the state of the
connection as it is. -/
theorem Outgoing.same (h : Outgoing ⟨c, bag, log⟩) (htoutput : d.toutput = c.toutput)
    (hstate : d.state = c.state) (hwritten : bytesOf (writtenOf es) = [])
    (haccepted : acceptedOf es = []) : Outgoing ⟨d, bag', log.note es⟩ :=
  h.call htoutput (fun heq => Or.inl (hstate ▸ heq)) (fun hfresh => hstate ▸ hfresh) hwritten
    haccepted

/-- A call that may close the connection. -/
theorem Outgoing.ended (h : Outgoing ⟨c, bag, log⟩) (htoutput : d.toutput = c.toutput)
    (hstate : d.state = c.state ∨ d.state = .closed ∨ d.state = .inct) (hsilent : Silent es) :
    Outgoing ⟨d, bag', log.note es⟩ := by
  have hwritten : bytesOf (Ncp.writtenOf es) = [] := by rw [hsilent.writtenOf, bytesOf_nil]
  rcases hstate with hstate | hstate
  · exact h.same htoutput hstate hwritten hsilent.acceptedOf
  · refine h.call htoutput (fun heq => ?_) (fun hfresh => ?_) hwritten hsilent.acceptedOf
    · rcases hstate with hstate | hstate <;> rw [hstate] at heq <;> cases heq
    · rcases hstate with hstate | hstate <;> rw [hstate] at hfresh <;>
        simp [ConnState.Fresh] at hfresh

/-- What `ch_sflush` and `ch_clock` do with the packet being filled. -/
theorem Outgoing.flushed (h : Outgoing ⟨c, bag, log⟩) (hp : c.toutput = some p)
    (hdata : isdatop p.op = true) :
    Outgoing
      ⟨(({ c with toutput := none }.chWrite p).getD ({ c with toutput := none }, [])).1, bag',
        log.note (({ c with toutput := none }.chWrite p).getD
          ({ c with toutput := none }, [])).2⟩ := by
  refine Outgoing.flush (c := c) h.written (fun hstate => ?_) (fun hfresh => ?_) hdata c.troom
  · have hopened := h.opened hstate
    rwa [show c.toutput = some p from hp] at hopened
  · have hnone := (h.fresh hfresh).2
    rw [show c.toutput = some p from hp] at hnone
    cases hnone

/-- Bytes are taken from the user. -/
theorem Outgoing.swriteTurn (h : Outgoing ⟨c, bag, log⟩) (hanswer : c.answer = false)
    (hwritable : c.writable = true) (htoutput : ∀ p ∈ c.toutput, isdatop p.op = true)
    (clock : HalfWord) (bs : List Byte) :
    Outgoing ⟨(c.swriteTurn clock bs).1, bag', log.note (c.swriteTurn clock bs).2⟩ := by
  have hstate : c.state = .opened := by simpa [Connection.writable, hanswer] using hwritable
  have hopened := h.opened hstate
  have hnot : ¬ c.state.Fresh := by
    rw [hstate]
    simp [ConnState.Fresh]
  -- the packet being filled, or a new one
  obtain ⟨hdata, hcdata⟩ : isdatop (c.toutput.getD { Packet.cleared with
        op := if c.answer then ansop else datop }).op = true ∧
      c.toutput.elim [] Packet.cdata = (c.toutput.getD { Packet.cleared with
        op := if c.answer then ansop else datop }).cdata := by
    cases hout : c.toutput with
    | none =>
      rw [hanswer]
      exact ⟨by decide, rfl⟩
    | some p => exact ⟨htoutput p hout, rfl⟩
  rw [Connection.swriteTurn]
  generalize c.toutput.getD { Packet.cleared with
      op := if c.answer then ansop else datop } = p at hdata hcdata
  have haccepted :
      (log.note [Effect.accept (S := ℤ) (bs.take (min bs.length c.outputRoom))]).accepted =
        bytesOf log.written ++ (p.cdata ++ bs.take (min bs.length c.outputRoom)) := by
    rw [← hcdata, ← List.append_assoc, ← hopened]
    exact congrArg (log.accepted ++ ·) (List.append_nil _)
  have hsame : (log.note [Effect.accept (S := ℤ) (bs.take (min bs.length c.outputRoom))]).written =
      log.written := List.append_nil _
  simp only
  rw [← List.singleton_append, Log.note_append]
  split_ifs
  · exact Outgoing.flush (p := { p with
        cdata := p.cdata ++ bs.take (min bs.length c.outputRoom)
        len := p.len + min bs.length c.outputRoom })
      ⟨_, by rw [hsame]; exact haccepted.symm⟩ (fun _ => by rw [hsame]; exact haccepted) hnot
      hdata _
  · rw [Log.note_nil]
    exact ⟨⟨_, by rw [hsame]; exact haccepted.symm⟩, fun _ => by rw [hsame]; exact haccepted,
      fun hcontra => absurd hcontra hnot⟩

/-- The OPN carries no bytes. -/
theorem Outgoing.sendOpn (h : Outgoing ⟨c, bag, log⟩) (hstate : c.state = .rfcrcvd)
    {opn : Packet ℤ} (hop : opn.op = opnop) :
    Outgoing
      ⟨(({ c with state := .opened, tlast := SerialNumber.start, rsts := c.rwsize >>> 1 }.chWrite
          opn).getD ({ c with
            state := .opened, tlast := SerialNumber.start, rsts := c.rwsize >>> 1 }, [])).1, bag',
        log.note (({ c with
            state := .opened, tlast := SerialNumber.start, rsts := c.rwsize >>> 1 }.chWrite
          opn).getD ({ c with
            state := .opened, tlast := SerialNumber.start, rsts := c.rwsize >>> 1 }, [])).2⟩ := by
  have hfresh : c.state.Fresh := Or.inr (Or.inr hstate)
  have hbytes : bytesOf [opn.message] = [] :=
    bytesOf_of_not (by rw [show opn.message.op = opnop from hop]; decide)
  rw [Connection.chWrite_getD _ (Or.inr hop), if_pos rfl]
  exact h.call rfl (fun _ => Or.inr hfresh) (fun _ => hfresh) hbytes rfl

/-- Each call of users who write bytes keeps what holds of them. -/
theorem Call.outgoing (hcall : Call v c r) (h : Outgoing ⟨c, bag, log⟩)
    (hsound : v.Sound ⟨c, bag, log⟩) (hrecord : v.record = false) :
    Outgoing ⟨r.1, bag', log.note r.2⟩ := by
  cases hcall with
  | write p hmode hdata hlen hfull =>
    have hop : p.op = eofop := by simpa [hrecord] using hmode
    have hbytes : bytesOf [p.message] = [] :=
      bytesOf_of_not (by rw [show p.message.op = eofop from hop]; decide)
    rw [c.chWrite_getD (Or.inl hdata)]
    split_ifs
    · exact h.same rfl rfl hbytes rfl
    · exact h.same rfl rfl rfl rfl
  | read =>
    obtain ⟨htoutput, hstate, hwritten, haccepted⟩ := chRead_output c
    exact h.same htoutput hstate (by rw [hwritten, bytesOf_nil]) haccepted
  | sendsts => exact h.same rfl rfl rfl rfl
  | eofSeen => exact h.same rfl rfl rfl rfl
  | swriteTurn clock bs hwritable =>
    exact h.swriteTurn hsound.answer hwritable (fun p hp => (hsound.toutput p hp).1) clock bs
  | sflush =>
    rw [Connection.chSflush]
    cases hout : c.toutput with
    | none => exact h.same rfl rfl rfl rfl
    | some p =>
      simp only
      split_ifs
      · exact h.same rfl rfl rfl rfl
      · exact h.flushed hout (hsound.toutput p hout).1
  | sreadTurn ntodo =>
    rw [Connection.sreadTurn]
    cases c.rhead with
    | nil => exact h.same rfl rfl rfl rfl
    | cons p ps =>
      simp only
      split_ifs
      · obtain ⟨htoutput, hstate, hwritten, haccepted⟩ := chRead_output { c with
          eofseen := false, rhead := { p with len := p.len - min p.len ntodo } :: ps }
        exact h.same htoutput hstate (congrArg bytesOf hwritten) haccepted
      · exact h.same rfl rfl rfl rfl
  | accept =>
    rw [Connection.chAccept]
    split_ifs with hstate
    · obtain ⟨htoutput, hread, hwritten, haccepted⟩ := chRead_output c
      rw [Log.note_append]
      have hsame : Outgoing ⟨c.chRead.1, bag, log.note c.chRead.2⟩ :=
        h.same htoutput hread (congrArg bytesOf hwritten) haccepted
      exact hsame.sendOpn (hread.trans hstate) rfl
    · exact h.sendOpn hstate rfl
    · exact h.same rfl rfl rfl rfl
  | close p hop =>
    rw [Connection.chClose]
    split_ifs
    · exact h.ended rfl (Or.inr (Or.inl rfl)) (silent_ctl _)
    · exact h.ended rfl (Or.inr (Or.inl rfl)) silent_nil
    · exact h.same rfl rfl rfl rfl
  | lsnmatch clock p harrives hop hstate =>
    exact h.call rfl (fun heq => by cases heq) (fun _ => Or.inl hstate) rfl rfl
  | flushOutput clock hz =>
    rw [Host.flushOutput]
    cases hout : c.toutput with
    | none => exact h.same rfl rfl rfl rfl
    | some p =>
      simp only
      split_ifs
      · exact h.flushed hout (hsound.toutput p hout).1
      · exact h.same rfl rfl rfl rfl
  | chretran clock age =>
    obtain ⟨htoutput, hstate⟩ := chretran_output c clock age
    exact h.ended htoutput (Or.inl hstate) (silent_chretran c clock age)
  | probe clock hz hstate =>
    rw [Host.probe]
    generalize (if c.state = .opened then 3 * (hz * 45) else hz * 15) = limit
    split
    · exact h.ended rfl (Or.inr (Or.inr rfl)) silent_nil
    · exact h.same rfl rfl rfl rfl
  | rcvpkt clock shorttime myname p harrives =>
    have hsilent := silent_rcvpkt c clock shorttime myname p
    obtain ⟨htoutput, hstate | ⟨hfresh, hopened⟩⟩ := rcvpkt_output c clock shorttime myname p
    · exact h.ended htoutput (Or.inl hstate) hsilent
    · exact h.call htoutput (fun heq => Or.inr (hopened heq)) (fun heq => absurd heq hfresh)
        (by rw [hsilent.writtenOf, bytesOf_nil]) hsilent.acceptedOf
  | sendlos myname text p harrives =>
    exact h.ended rfl (Or.inl rfl) (silent_sendlos p myname text)
  | answer data p harrives => exact h.ended rfl (Or.inl rfl) (silent_ctl _)

/-! ### Bytes on their way in -/

/-- The packet is no answer and no uncontrolled data, and as long as its data. -/
structure Packet.Whole (p : Packet ℤ) : Prop where
  answer : p.op ≠ ansop
  controlled : p.op ≠ uncop
  len : isdatop p.op = true → p.len = p.cdata.length

/-- The first packet is read up to an offset, by which the user has been handed these bytes. -/
def PartlyRead : List (Packet ℤ) → ℕ → List Byte → Prop
  | [], roffset, bs => roffset = 0 ∧ bs = []
  | p :: ps, roffset, bs =>
    p.op ≠ ansop ∧ p.op ≠ uncop ∧ bs = p.cdata.take roffset ∧
      (if isdatop p.op then p.len + roffset = p.cdata.length else roffset = 0) ∧
        ∀ q ∈ ps, q.Whole

theorem PartlyRead.whole {ps : List (Packet ℤ)} (hps : ∀ p ∈ ps, p.Whole) :
    PartlyRead ps 0 [] := by
  cases ps with
  | nil => exact ⟨rfl, rfl⟩
  | cons p ps =>
    have hp := hps p List.mem_cons_self
    refine ⟨hp.answer, hp.controlled, rfl, ?_, fun q hq => hps q (List.mem_cons_of_mem p hq)⟩
    split_ifs with hdata
    · exact hp.len hdata
    · rfl

theorem PartlyRead.append {ps qs : List (Packet ℤ)} {roffset : ℕ} {bs : List Byte}
    (h : PartlyRead ps roffset bs) (hqs : ∀ q ∈ qs, q.Whole) :
    PartlyRead (ps ++ qs) roffset bs := by
  cases ps with
  | nil =>
    obtain ⟨rfl, rfl⟩ := h
    exact PartlyRead.whole hqs
  | cons p ps =>
    obtain ⟨hanswer, hcontrolled, hbs, hlen, hps⟩ := h
    refine ⟨hanswer, hcontrolled, hbs, hlen, fun q hq => ?_⟩
    exact (List.mem_append.mp hq).elim (hps q) (hqs q)

/-- The bytes handed to the user are those of the packets read, and of the first one up to the
offset. -/
structure Incoming (s : EndState) : Prop where
  streamed : ∃ bs, s.log.streamed = bytesOf s.log.taken ++ bs ∧
    PartlyRead s.conn.rhead s.conn.roffset bs
  outorder : ∀ p ∈ s.conn.routorder, p.Whole

/-- A call that hands over no bytes and reads no data. -/
theorem Incoming.call (h : Incoming ⟨c, bag, log⟩) {qs : List (Packet ℤ)}
    (hrhead : d.rhead = c.rhead ++ qs)
    (hqs : ∀ q ∈ qs ++ d.routorder, q ∈ c.routorder ∨ q.Whole) (hroffset : d.roffset = c.roffset)
    (htaken : bytesOf (takenOf es) = []) (hstreamed : streamedOf es = []) :
    Incoming ⟨d, bag', log.note es⟩ := by
  have hwhole : ∀ q ∈ qs ++ d.routorder, q.Whole := fun q hq => (hqs q hq).elim (h.outorder q) id
  obtain ⟨bs, hbs, hpart⟩ := h.streamed
  refine ⟨⟨bs, ?_, ?_⟩, fun q hq => hwhole q (List.mem_append_right qs hq)⟩
  · rw [show (log.note es).streamed = log.streamed ++ streamedOf es from rfl, hstreamed,
      List.append_nil, show (log.note es).taken = log.taken ++ takenOf es from rfl,
      bytesOf_append, htaken, List.append_nil]
    exact hbs
  · rw [hrhead, hroffset]
    exact hpart.append fun q hq => hwhole q (List.mem_append_left _ hq)

/-- A call that leaves what was received alone. -/
theorem Incoming.same (h : Incoming ⟨c, bag, log⟩) (hrhead : d.rhead = c.rhead)
    (hroutorder : d.routorder = c.routorder) (hroffset : d.roffset = c.roffset)
    (htaken : takenOf es = []) (hstreamed : streamedOf es = []) :
    Incoming ⟨d, bag', log.note es⟩ := by
  have hfront : d.rhead = c.rhead ++ [] := by rw [hrhead, List.append_nil]
  refine h.call hfront (fun q hq => Or.inl ?_) hroffset
    (by rw [htaken, bytesOf_nil]) hstreamed
  rwa [List.nil_append, hroutorder] at hq

/-- The first packet is read. -/
theorem chRead_cons {ps : List (Packet ℤ)} (hrhead : c.rhead = p :: ps) :
    c.chRead.1.rhead = ps ∧ c.chRead.1.routorder = c.routorder ∧
      c.chRead.1.roffset = c.roffset ∧ ∃ es, c.chRead.2 = .read p :: es ∧ Silent es := by
  rw [Connection.chRead, hrhead]
  simp only
  split_ifs
  · exact ⟨rfl, rfl, rfl, _, rfl, silent_ctl _⟩
  · exact ⟨rfl, rfl, rfl, _, rfl, silent_nil⟩
  · exact ⟨rfl, rfl, rfl, _, rfl, silent_nil⟩

/-- A packet is read that bytes are not taken from. -/
theorem Incoming.chRead (h : Incoming ⟨c, bag, log⟩)
    (hhead : ∀ p ∈ c.rhead.head?, streamop p.op = false) :
    Incoming ⟨c.chRead.1, bag', log.note c.chRead.2⟩ := by
  cases hrhead : c.rhead with
  | nil =>
    rw [Connection.chRead, hrhead]
    exact h.same rfl rfl rfl rfl rfl
  | cons p ps =>
    have hop := hhead p (by rw [hrhead]; rfl)
    have hdata : isdatop p.op = false := by
      rw [streamop, Bool.or_eq_false_iff, Bool.or_eq_false_iff] at hop
      exact hop.1.1
    obtain ⟨bs, hbs, hpart⟩ := h.streamed
    rw [show (EndState.conn ⟨c, bag, log⟩).rhead = p :: ps from hrhead] at hpart
    obtain ⟨-, -, rfl, hroffset, hps⟩ := hpart
    rw [hdata, if_neg (by decide)] at hroffset
    replace hroffset : c.roffset = 0 := hroffset
    obtain ⟨hrest, hroutorder, hoffset, es, hes, hsilent⟩ := chRead_cons hrhead
    have htaken : bytesOf (takenOf [Effect.read p]) = [] := by
      rw [takenOf_read, takenOf_nil, List.append_nil]
      split_ifs
      · exact bytesOf_of_not hdata
      · rfl
    refine ⟨⟨[], ?_, ?_⟩, hroutorder ▸ h.outorder⟩
    · rw [hes, ← List.singleton_append, Log.note_append, hsilent,
        show (log.note [Effect.read p]).taken = log.taken ++ takenOf [.read p] from rfl,
        bytesOf_append, htaken]
      rw [hroffset] at hbs
      simpa [Log.note, streamedOf] using hbs
    · rw [hrest, hoffset, hroffset]
      exact PartlyRead.whole hps

/-- `ch_write` leaves what was received alone. -/
theorem chWrite_input (c : Connection ℤ) (p : Packet ℤ) :
    ((c.chWrite p).getD (c, [])).1.rhead = c.rhead ∧
      ((c.chWrite p).getD (c, [])).1.routorder = c.routorder ∧
      ((c.chWrite p).getD (c, [])).1.roffset = c.roffset ∧
      takenOf ((c.chWrite p).getD (c, [])).2 = [] ∧
      streamedOf ((c.chWrite p).getD (c, [])).2 = [] := by
  have hnil : c.rhead ++ [] = c.rhead := List.append_nil _
  rw [Connection.chWrite]
  split_ifs
  · rw [Connection.chClose]
    split_ifs
    · exact ⟨hnil, rfl, rfl, rfl, rfl⟩
    · exact ⟨hnil, rfl, rfl, rfl, rfl⟩
    · exact ⟨rfl, rfl, rfl, rfl, rfl⟩
  all_goals exact ⟨rfl, rfl, rfl, rfl, rfl⟩

/-- Bytes are handed to the user. -/
theorem Incoming.sreadTurn (h : Incoming ⟨c, bag, log⟩)
    (hhead : ∀ p ∈ c.rhead.head?, streamop p.op = true) (ntodo : ℕ) :
    Incoming ⟨(c.sreadTurn ntodo).1, bag', log.note (c.sreadTurn ntodo).2⟩ := by
  rw [Connection.sreadTurn]
  cases hrhead : c.rhead with
  | nil => exact h.same rfl rfl rfl rfl rfl
  | cons p ps =>
    obtain ⟨bs, hbs, hpart⟩ := h.streamed
    rw [show (EndState.conn ⟨c, bag, log⟩).rhead = p :: ps from hrhead] at hpart
    obtain ⟨hanswer, hcontrolled, rfl, hlen, hps⟩ := hpart
    have hdata : isdatop p.op = true := by
      have hop := hhead p (by rw [hrhead]; rfl)
      simpa [streamop, hanswer, hcontrolled] using hop
    rw [if_pos hdata] at hlen
    replace hlen : p.len + c.roffset = p.cdata.length := hlen
    replace hbs : log.streamed = bytesOf log.taken ++ p.cdata.take c.roffset := hbs
    simp only
    split_ifs with hzero
    · -- the packet is used up
      obtain ⟨hrest, hroutorder, -, es, hes, hsilent⟩ := chRead_cons (c := { c with
        eofseen := false, rhead := { p with len := p.len - min p.len ntodo } :: ps }) rfl
      have hall : (p.cdata.drop c.roffset).take (min p.len ntodo) = p.cdata.drop c.roffset :=
        List.take_of_length_le (by rw [List.length_drop]; omega)
      have htaken : bytesOf (takenOf [Effect.read { p with len := p.len - min p.len ntodo }]) =
          p.cdata := by
        rw [takenOf_read, takenOf_nil, List.append_nil,
          if_pos (by rw [isData, hdata, Bool.true_or])]
        exact (bytesOf_singleton _).trans (if_pos hdata)
      refine ⟨⟨[], ?_, ?_⟩, ?_⟩
      · simp only [hes, hall]
        rw [← List.singleton_append, Log.note_append, ← List.singleton_append (l := es),
          Log.note_append, hsilent]
        simp only [Log.note, bytesOf_append, htaken]
        rw [hbs]
        simp [streamedOf, takenOf, List.append_assoc]
      · simp only [hrest]
        exact PartlyRead.whole hps
      · simp only [hroutorder]
        exact h.outorder
    · refine ⟨⟨_, ?_, hanswer, hcontrolled, rfl, ?_, hps⟩, h.outorder⟩
      · rw [List.take_add, ← List.append_assoc]
        simp only [Log.note]
        rw [hbs]
        simp [streamedOf, takenOf]
      · rw [if_pos hdata]
        simp only
        omega

theorem receipt_input (c : Connection ℤ) (acknum recnum : ℤ) :
    (c.receipt acknum recnum).rhead = c.rhead ∧
      (c.receipt acknum recnum).routorder = c.routorder ∧
      (c.receipt acknum recnum).roffset = c.roffset := by
  rw [Connection.receipt_eq]
  exact ⟨rfl, rfl, rfl⟩

theorem chretran_input (c : Connection ℤ) (clock : HalfWord) (age : ℕ) :
    (c.chretran clock age).1.rhead = c.rhead ∧
      (c.chretran clock age).1.routorder = c.routorder ∧
      (c.chretran clock age).1.roffset = c.roffset := by
  rw [Connection.chretran]
  split <;> exact ⟨rfl, rfl, rfl⟩

/-- Packets are queued behind those received. -/
structure Queued (p : Packet ℤ) (c d : Connection ℤ) : Prop where
  rhead : ∃ qs, d.rhead = c.rhead ++ qs ∧ ∀ q ∈ qs, q ∈ c.routorder ∨ q = p
  routorder : ∀ q ∈ d.routorder, q ∈ c.routorder ∨ q = p
  roffset : d.roffset = c.roffset

theorem Queued.same (hrhead : d.rhead = c.rhead) (hroutorder : d.routorder = c.routorder)
    (hroffset : d.roffset = c.roffset) : Queued p c d where
  rhead := ⟨[], by rw [hrhead, List.append_nil], fun _ hq => absurd hq List.not_mem_nil⟩
  routorder _ hq := Or.inl (hroutorder ▸ hq)
  roffset := hroffset

/-- The packet is queued last. -/
theorem Queued.last (hrhead : d.rhead = c.rhead ++ [p]) (hroutorder : d.routorder = c.routorder)
    (hroffset : d.roffset = c.roffset) : Queued p c d where
  rhead := ⟨[p], hrhead, fun _ hq => Or.inr (List.mem_singleton.mp hq)⟩
  routorder _ hq := Or.inl (hroutorder ▸ hq)
  roffset := hroffset

theorem Queued.congr (h : Queued p c d) {c' : Connection ℤ} (hrhead : c.rhead = c'.rhead)
    (hroutorder : c.routorder = c'.routorder) (hroffset : c.roffset = c'.roffset) :
    Queued p c' d where
  rhead := hroutorder ▸ hrhead ▸ h.rhead
  routorder := hroutorder ▸ h.routorder
  roffset := h.roffset.trans hroffset

/-- A packet of data is queued. -/
theorem queued_enqueue (c : Connection ℤ) (p : Packet ℤ) : Queued p c (c.enqueue p).1 := by
  have hmem : ∀ q ∈ p :: c.routorder, q ∈ c.routorder ∨ q = p := fun q hq =>
    (List.mem_cons.mp hq).symm
  rw [Connection.enqueue]
  split
  · exact .same rfl rfl rfl
  · split
    · cases hins : insertNew Packet.pkn p c.routorder with
      | none => exact .same rfl rfl rfl
      | some routorder =>
        refine ⟨⟨[], (List.append_nil _).symm, fun q hq => absurd hq List.not_mem_nil⟩,
          fun q hq => hmem q ?_, rfl⟩
        exact (perm_of_insertNew hins).mem_iff.mp hq
    · have hsplit : (inOrder Packet.pkn c.rlast (p :: c.routorder)).1 ++
          (inOrder Packet.pkn c.rlast (p :: c.routorder)).2 = p :: c.routorder :=
        inOrder_append _ _
      exact ⟨⟨_, rfl, fun q hq => hmem q (hsplit ▸ List.mem_append_left _ hq)⟩,
        fun q hq => hmem q (hsplit ▸ List.mem_append_right _ hq), rfl⟩

/-- A packet that arrives is queued behind the others, if at all, unless it is uncontrolled. -/
theorem queued_rcvpkt (c : Connection ℤ) (clock : HalfWord) (shorttime : ℕ)
    (myname : List Byte) (hop : p.op ≠ uncop) :
    Queued p c (c.rcvpkt clock shorttime myname p).1 := by
  rw [Connection.rcvpkt]
  split
  · split_ifs
    · obtain ⟨hrhead, hroutorder, hroffset⟩ := receipt_input { c with
        state := .opened, fidx := p.sidx, active := clock, rread := p.pkn, rlast := p.pkn
        twsize := p.rwsize } p.ackn p.ackn
      exact .same hrhead hroutorder hroffset
    · exact .last rfl rfl rfl
    · exact .same rfl rfl rfl
  · rw [Connection.rcvopened]
    split_ifs
    · rw [Connection.rcvdata]
      split
      · exact .same rfl rfl rfl
      · obtain ⟨hrhead, hroutorder, hroffset⟩ :=
          receipt_input { c with active := clock } p.ackn p.ackn
        exact (queued_enqueue _ p).congr hrhead hroutorder hroffset
    · exact .same rfl rfl rfl
    · obtain ⟨hrhead, hroutorder, hroffset⟩ :=
        receipt_input { c with active := clock } p.ackn p.ackn
      exact .same hrhead hroutorder hroffset
    · exact .last rfl rfl rfl
    · exact .last rfl rfl rfl
    · obtain ⟨hrhead, hroutorder, hroffset⟩ := receipt_input
        { c with active := clock, twsize := p.rwsize } p.ackn p.receipt
      obtain ⟨hrhead', hroutorder', hroffset'⟩ := chretran_input (Connection.receipt
        { c with active := clock, twsize := p.rwsize } p.ackn p.receipt) clock shorttime
      exact .same (hrhead'.trans hrhead) (hroutorder'.trans hroutorder)
        (hroffset'.trans hroffset)
    · exact .same rfl rfl rfl
  · exact .same rfl rfl rfl

/-- A packet of the other end that is no answer. -/
theorem View.whole (harrives : v.arrives p) (hanswer : p.op ≠ ansop) : p.Whole where
  answer := hanswer
  controlled := by
    have hp := v.own p harrives
    intro hop
    have hkind := hp.kind
    rw [hop] at hkind
    exact absurd hkind (by decide)
  len hdata := (v.own p harrives).len (by rw [isData, hdata, Bool.true_or])

/-- Each call of users who read bytes keeps what holds of them, unless an RFC was answered with
an ANS. -/
theorem Call.incoming (hcall : Call v c r) (h : Incoming ⟨c, bag, log⟩)
    (hsound : v.Sound ⟨c, bag, log⟩) (hrecord : v.record = false)
    (hanswer : ∀ p, v.arrives p → p.op ≠ ansop) :
    Incoming ⟨r.1, bag', log.note r.2⟩ := by
  have hwrite : ∀ p, Incoming ⟨((c.chWrite p).getD (c, [])).1, bag',
      log.note ((c.chWrite p).getD (c, [])).2⟩ := by
    intro p
    obtain ⟨hrhead, hroutorder, hroffset, htaken, hstreamed⟩ := chWrite_input c p
    exact h.same hrhead hroutorder hroffset htaken hstreamed
  have hflush : ∀ p troom, Incoming
      ⟨(({ c with toutput := none, troom := troom }.chWrite p).getD
          ({ c with toutput := none, troom := troom }, [])).1, bag',
        log.note (({ c with toutput := none, troom := troom }.chWrite p).getD
          ({ c with toutput := none, troom := troom }, [])).2⟩ := by
    intro p troom
    obtain ⟨hrhead, hroutorder, hroffset, htaken, hstreamed⟩ :=
      chWrite_input { c with toutput := none, troom := troom } p
    exact h.same hrhead hroutorder hroffset htaken hstreamed
  have hended : ∀ {state : ConnState} {es : List (Effect ℤ)}, Silent es →
      Incoming ⟨c.clsconn state none, bag', log.note es⟩ := fun hsilent =>
    h.same (List.append_nil _) rfl rfl hsilent.takenOf hsilent.streamedOf
  cases hcall with
  | write p => exact hwrite p
  | read hmode =>
    exact h.chRead (hmode.resolve_left (by rw [hrecord]; decide))
  | sendsts => exact h.same rfl rfl rfl rfl rfl
  | eofSeen => exact h.same rfl rfl rfl rfl rfl
  | swriteTurn clock bs =>
    rw [Connection.swriteTurn]
    generalize c.toutput.getD { Packet.cleared with
      op := if c.answer then ansop else datop } = p
    simp only
    split_ifs
    · obtain ⟨hrhead, hroutorder, hroffset, htaken, hstreamed⟩ := chWrite_input
        { c with toutput := none, troom := c.outputRoom - min bs.length c.outputRoom }
        { p with
          cdata := p.cdata ++ bs.take (min bs.length c.outputRoom)
          len := p.len + min bs.length c.outputRoom }
      exact h.same hrhead hroutorder hroffset htaken hstreamed
    · exact h.same rfl rfl rfl rfl rfl
  | sflush =>
    rw [Connection.chSflush]
    cases c.toutput with
    | none => exact h.same rfl rfl rfl rfl rfl
    | some p =>
      simp only
      split_ifs
      · exact h.same rfl rfl rfl rfl rfl
      · exact hflush p c.troom
  | sreadTurn ntodo hhead => exact h.sreadTurn hhead ntodo
  | accept =>
    rw [Connection.chAccept]
    split_ifs with hstate hrfc
    · have hread : Incoming ⟨c.chRead.1, bag, log.note c.chRead.2⟩ := h.chRead fun p hp => by
        rw [Option.mem_def.mp hp] at hrfc
        rw [Option.some.inj hrfc]
        decide
      obtain ⟨hrhead, hroutorder, hroffset, htaken, hstreamed⟩ := chWrite_input
        { c.chRead.1 with
          state := .opened, tlast := SerialNumber.start, rsts := c.chRead.1.rwsize >>> 1 }
        { Packet.cleared with
          op := opnop, len := 4, receipt := c.chRead.1.rlast, rwsize := c.chRead.1.rwsize }
      rw [Log.note_append]
      exact hread.same hrhead hroutorder hroffset htaken hstreamed
    · obtain ⟨hrhead, hroutorder, hroffset, htaken, hstreamed⟩ := chWrite_input
        { c with state := .opened, tlast := SerialNumber.start, rsts := c.rwsize >>> 1 }
        { Packet.cleared with op := opnop, len := 4, receipt := c.rlast, rwsize := c.rwsize }
      exact h.same hrhead hroutorder hroffset htaken hstreamed
    · exact h.same rfl rfl rfl rfl rfl
  | close p hop =>
    rw [Connection.chClose]
    split_ifs
    · exact hended (silent_ctl _)
    · exact hended silent_nil
    · exact h.same rfl rfl rfl rfl rfl
  | lsnmatch clock p harrives hop hstate =>
    have hnil : c.rhead = [] := (hsound.receive.fresh (Or.inl hstate)).2.1
    have hrhead : (c.lsnmatch clock v.ends.me p).rhead = c.rhead ++ [p] := by
      rw [hnil]
      rfl
    have hp := View.whole harrives (hanswer p harrives)
    refine h.call hrhead (fun q hq => ?_) rfl rfl rfl
    rcases List.mem_append.mp hq with hq | hq
    · exact Or.inr (List.mem_singleton.mp hq ▸ hp)
    · exact Or.inl hq
  | flushOutput clock hz =>
    rw [Host.flushOutput]
    cases c.toutput with
    | none => exact h.same rfl rfl rfl rfl rfl
    | some p =>
      simp only
      split_ifs
      · exact hflush p c.troom
      · exact h.same rfl rfl rfl rfl rfl
  | chretran clock age =>
    have hsilent := silent_chretran c clock age
    rw [Connection.chretran] at hsilent ⊢
    split
    · exact h.same rfl rfl rfl rfl rfl
    · exact h.same rfl rfl rfl rfl rfl
  | probe clock hz hstate =>
    rw [Host.probe]
    generalize (if c.state = .opened then 3 * (hz * 45) else hz * 15) = limit
    split
    · exact hended silent_nil
    · exact h.same rfl rfl rfl rfl rfl
  | rcvpkt clock shorttime myname p harrives =>
    have hsilent := silent_rcvpkt c clock shorttime myname p
    have hp := View.whole harrives (hanswer p harrives)
    obtain ⟨⟨qs, hrhead, hqs⟩, hroutorder, hroffset⟩ :=
      queued_rcvpkt c clock shorttime myname hp.controlled
    have hwhole : ∀ q, q ∈ c.routorder ∨ q = p → q ∈ c.routorder ∨ q.Whole :=
      fun q hq => hq.imp_right fun heq => by rw [heq]; exact hp
    refine h.call hrhead (fun q hq => hwhole q ?_) hroffset
      (by rw [hsilent.takenOf, bytesOf_nil]) hsilent.streamedOf
    exact (List.mem_append.mp hq).elim (hqs q) (hroutorder q)
  | sendlos myname text p harrives =>
    have hsilent := silent_sendlos p myname text
    exact h.same rfl rfl rfl hsilent.takenOf hsilent.streamedOf
  | answer data p harrives => exact h.same rfl rfl rfl rfl rfl

/-! ### Paths and runs -/

/-- Each step of an end keeps what holds of the bytes on their way out. -/
theorem Step.outgoing {s s' : EndState} (h : Step v s s') (hsound : v.Sound s)
    (hrecord : v.record = false) (hs : Outgoing s) : Outgoing s' := by
  cases h with
  | call hcall => exact hcall.outgoing hs hsound hrecord
  | rearrange => exact ⟨hs.written, hs.opened, hs.fresh⟩
  | free => exact ⟨hs.written, hs.opened, hs.fresh⟩
  | keep => exact ⟨hs.written, hs.opened, hs.fresh⟩

/-- Each step of an end keeps what holds of the bytes on their way in. -/
theorem Step.incoming {s s' : EndState} (h : Step v s s') (hsound : v.Sound s)
    (hrecord : v.record = false) (hanswer : ∀ p, v.arrives p → p.op ≠ ansop)
    (hs : Incoming s) : Incoming s' := by
  cases h with
  | call hcall => exact hcall.incoming hs hsound hrecord hanswer
  | rearrange => exact ⟨hs.streamed, hs.outorder⟩
  | free => exact ⟨hs.streamed, hs.outorder⟩
  | keep => exact ⟨hs.streamed, hs.outorder⟩

/-- What holds of the bytes at both ends, as long as no RFC is answered with an ANS. -/
structure Streaming (net : Net ℤ) (conn : Side → Connection ℤ) : Prop where
  outgoing : ∀ i, Outgoing ((net.get i).endState (conn i))
  incoming : ∀ i, (∀ p ∈ (net.get i.other).wire, p.op ≠ ansop) →
    Incoming ((net.get i).endState (conn i))

variable {u : Setup} {net : Net ℤ} {conn : Side → Connection ℤ}

/-- A step of users who read and write bytes. -/
theorem Streaming.step (hs : Streaming net conn) (h : NetSound u net conn) {e : Event}
    (hrecord : e.action.record = false) :
    ∃ conn', NetSound u (net.step e) conn' ∧ Streaming (net.step e) conn' := by
  obtain ⟨conn', h', hadv, hget, hconn⟩ := h.step e
  obtain ⟨ps, hwire, -⟩ := hadv.wire
  refine ⟨conn', h', fun i => ?_, fun i hanswer => ?_⟩
  · rcases i.eq_or_other e.side with rfl | rfl
    · exact hadv.path.keeps (fun _ _ hsound _ hstep => hstep.outgoing hsound hrecord)
        (hs.outgoing _)
    · rw [hget, hconn]
      exact hs.outgoing _
  · rcases i.eq_or_other e.side with rfl | rfl
    · rw [hget] at hanswer
      refine hadv.path.keeps (fun _ _ hsound _ hstep => hstep.incoming hsound hrecord ?_)
        (hs.incoming _ hanswer)
      rintro p ⟨n, -, hp⟩
      exact hanswer p (List.mem_of_getElem? hp)
    · rw [Side.other_other, hwire] at hanswer
      rw [hget, hconn]
      refine hs.incoming _ fun p hp => hanswer p ?_
      rw [Side.other_other] at hp
      exact List.mem_append_left _ hp

/-- A run of users who read and write bytes. -/
theorem Streaming.run (hs : Streaming net conn) (h : NetSound u net conn) (es : List Event)
    (hrecord : ∀ e ∈ es, e.action.record = false) :
    ∃ conn', NetSound u (net.run es) conn' ∧ Streaming (net.run es) conn' := by
  induction es generalizing net conn with
  | nil => exact ⟨conn, h, hs⟩
  | cons e es ih =>
    obtain ⟨conn', h', hs'⟩ := hs.step h (hrecord e List.mem_cons_self)
    exact ih hs' h' fun e' he' => hrecord e' (List.mem_cons_of_mem e he')

/-- The bytes of what was read, and of the first packet up to an offset, were sent first. -/
theorem Receive.partlyRead {e : Ends} {sent taken : List Message} (h : Receive e c sent taken)
    {bs : List Byte} (hpart : PartlyRead c.rhead c.roffset bs) :
    bytesOf taken ++ bs <+: bytesOf sent := by
  have hrread := h.rread_nonneg
  have htaken : bytesOf taken = bytesOf (sent.take c.rread.toNat) := by
    rw [h.taken, bytesOf_dataOf]
  have hnone : bs = [] → bytesOf taken ++ bs <+: bytesOf sent := by
    rintro rfl
    rw [List.append_nil, htaken]
    exact bytesOf_isPrefix (List.take_prefix _ _)
  cases hrhead : c.rhead with
  | nil =>
    rw [hrhead] at hpart
    exact hnone hpart.2
  | cons p ps =>
    rw [hrhead] at hpart
    obtain ⟨-, -, hbs, hlen, -⟩ := hpart
    cases hdata : isdatop p.op with
    | false =>
      rw [hdata, if_neg (by decide)] at hlen
      exact hnone (by rw [hbs, hlen, List.take_zero])
    | true =>
      have hisData : isData p.op = true := by rw [isData, hdata, Bool.true_or]
      have hordered := h.ordered
      rw [hrhead, show dataPackets (p :: ps) = p :: dataPackets ps from
        List.filter_cons_of_pos hisData] at hordered
      have hpkn : p.pkn = c.rread + 1 := hordered.1
      obtain ⟨-, hmessage⟩ := (h.carried p (List.mem_append_left _
        (hrhead ▸ List.mem_cons_self))).number (contpkt_of_isData hisData)
      have hindex : (p.pkn - 1).toNat = c.rread.toNat := by omega
      rw [hindex] at hmessage
      have hnext : sent.take (c.rread.toNat + 1) = sent.take c.rread.toNat ++ [p.message] := by
        rw [List.take_add_one, hmessage]
        rfl
      have hbytes : bytesOf (sent.take (c.rread.toNat + 1)) = bytesOf taken ++ p.cdata := by
        rw [hnext, bytesOf_append, htaken, bytesOf_singleton,
          if_pos (show isdatop p.message.op = true from hdata)]
        rfl
      refine List.IsPrefix.trans ?_ (hbytes ▸ bytesOf_isPrefix (List.take_prefix _ _))
      rw [List.prefix_append_right_inj, hbs]
      exact List.take_prefix _ _

/-- What one user has been handed, the other has written first. -/
theorem Streaming.isPrefix (hs : Streaming net conn) (h : NetSound u net conn) (i : Side)
    (hanswer : ∀ p ∈ (net.get i.other).wire, p.op ≠ ansop) :
    (net.get i).log.streamed <+: (net.get i.other).log.accepted := by
  obtain ⟨bs, hbs, hpart⟩ := (hs.incoming i hanswer).streamed
  have hsent : (net.get i.other).sent <+: (net.get i.other).log.written := List.take_prefix _ _
  rw [show (net.get i).log.streamed = _ from hbs]
  exact ((h i).sound.receive.partlyRead hpart).trans
    ((bytesOf_isPrefix hsent).trans (hs.outgoing i.other).written)

namespace Setup

variable (u : Setup)

/-- No bytes are on their way at the start. -/
theorem streaming : ∃ conn, NetSound u (u.start : Net ℤ) conn ∧
    Streaming (u.start : Net ℤ) conn := by
  obtain ⟨c, h, hpath⟩ := u.sound
  have hbytes : bytesOf u.calling.log.written = [] :=
    bytesOf_of_not (by decide : isdatop rfcop = false)
  have hout : Outgoing u.calling :=
    ⟨hbytes ▸ List.prefix_rfl, fun hstate => (by cases hstate), fun _ => ⟨rfl, rfl⟩⟩
  have hin : Incoming u.calling := ⟨⟨[], rfl, rfl, rfl⟩, fun p hp => by cases hp⟩
  refine ⟨_, h, fun i => ?_, fun i _ => ?_⟩
  · cases i with
    | opener => exact hpath.keeps (fun _ _ hsound _ hstep => hstep.outgoing hsound rfl) hout
    | acceptor =>
      rw [show (u.start : Net ℤ).get .acceptor = u.start.acceptor from rfl, u.start_acceptor ℤ]
      exact ⟨List.prefix_rfl, fun hstate => (by cases hstate), fun _ => ⟨rfl, rfl⟩⟩
  · cases i with
    | opener =>
      exact hpath.keeps
        (fun _ _ hsound _ hstep => hstep.incoming hsound rfl fun p hp => hp.elim) hin
    | acceptor =>
      rw [show (u.start : Net ℤ).get .acceptor = u.start.acceptor from rfl, u.start_acceptor ℤ]
      exact ⟨⟨[], rfl, rfl, rfl⟩, fun p hp => by cases hp⟩

/-- If the users read and write bytes, then what the one has been handed is what the other has
written first, unless the NCP of the other has answered the RFC by itself. -/
theorem streamed_isPrefix (hu : u.Narrow) (es : List Event)
    (htime : (u.start : Net ℤ).timelyRun es = true)
    (hrecord : ∀ e ∈ es, e.action.record = false) (i : Side) :
    (((u.start : Net HalfWord).run es).get i).log.streamed <+:
        (((u.start : Net HalfWord).run es).get i.other).log.accepted ∨
      ∃ p ∈ (((u.start : Net HalfWord).run es).get i.other).wire, p.op = ansop := by
  obtain ⟨conn, h, hs⟩ := u.streaming
  obtain ⟨conn', h', hs'⟩ := hs.run h es hrecord
  rw [← u.start_toWords hu, h.toWords_run hu es htime, Net.get_toWords, Net.get_toWords]
  by_cases hanswer : ∃ p ∈ (((u.start : Net ℤ).run es).get i.other).wire, p.op = ansop
  · obtain ⟨p, hp, hop⟩ := hanswer
    exact Or.inr ⟨p.toWords, List.mem_map_of_mem hp, hop⟩
  · refine Or.inl (hs'.isPrefix h' i fun p hp hop => hanswer ⟨p, hp, hop⟩)

theorem streamed_isPrefix_neighbours :
    (((neighbours.start : Net HalfWord).run conversation).get .acceptor).log.streamed <+:
        (((neighbours.start : Net HalfWord).run conversation).get .opener).log.accepted ∨
      ∃ p ∈ (((neighbours.start : Net HalfWord).run conversation).get .opener).wire, p.op = ansop :=
  neighbours.streamed_isPrefix neighbours_narrow conversation (by decide) (by decide) .acceptor

end Setup

end Usim.Ncp
