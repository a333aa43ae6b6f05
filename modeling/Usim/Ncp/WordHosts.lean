import Usim.Ncp.Words

/-!
# Hosts with 16-bit numbers

A host whose numbers are kept in words does the same as one with numbers that never wrap, in
every call of the user, for every packet that arrives, and at each tick of the clock.
-/

namespace Usim.Ncp

open Lib

/-- A host whose numbers are kept in words. -/
def Host.toWords (h : Host ℤ) : Host HalfWord :=
  { h with
    conntab := fun k => (h.conntab k).map Connection.toWords
    lsnlist := h.lsnlist.map Packet.toWords, rfclist := h.rfclist.map Packet.toWords
    xcList := h.xcList.map Packet.toWords, xcTpkt := h.xcTpkt.map Packet.toWords }

/-- What a call at a host returns, with numbers in words. -/
def callToWords (r : Host ℤ × List (Effect ℤ)) : Host HalfWord × List (Effect HalfWord) :=
  (r.1.toWords, r.2.map Effect.toWords)

variable {v : View} {start : EndState} {log : Log} {wire pending : List (Packet ℤ)} {h : Host ℤ}
  {c : Connection ℤ} {p : Packet ℤ} {es : List (Effect ℤ)}

/-! ### The tables and the queue -/

theorem Holds.conn_toWords {e : Ends} (hh : Holds e h c) :
    h.toWords.conntab 0 = some c.toWords := by
  rw [show h.toWords.conntab 0 = (h.conntab 0).map Connection.toWords from rfl, hh.conn]
  rfl

theorem Host.setConn_toWords (h : Host ℤ) (k : ℕ) (c : Connection ℤ) :
    h.toWords.setConn k c.toWords = (h.setConn k c).toWords := by
  have hconntab : Function.update (fun k => (h.conntab k).map Connection.toWords) k
      (some c.toWords) = fun i => (Function.update h.conntab k (some c) i).map
        Connection.toWords := by
    funext i
    by_cases hi : i = k
    · subst hi
      rw [Function.update_self, Function.update_self]
      rfl
    · rw [Function.update_of_ne hi, Function.update_of_ne hi]
  exact congrArg (fun conntab => { h.toWords with conntab := conntab }) hconntab

theorem Host.queue_toWords (h : Host ℤ) : h.toWords.queue = h.queue.map Packet.toWords := by
  rw [Host.queue, Host.queue, List.map_append]
  cases h with | mk _ _ _ _ _ _ _ _ _ _ _ _ _ _ xcTpkt _ _ _ =>
  cases xcTpkt <;> rfl

theorem Host.lookup_toWords (h : Host ℤ) (idx : HalfWord) :
    h.toWords.lookup idx = (h.lookup idx).map fun kc => (kc.1, kc.2.toWords) := by
  rw [Host.lookup, Host.lookup]
  split
  · rw [show h.toWords.conntab (idx.toNat % 256) =
      (h.conntab (idx.toNat % 256)).map Connection.toWords from rfl]
    cases h.conntab (idx.toNat % 256) with
    | none => rfl
    | some c =>
      have hlidx : c.toWords.lidx = c.lidx := rfl
      by_cases hidx : c.lidx = idx <;> simp [Option.filter, hlidx, hidx]
  · rfl

theorem Host.sendctl_toWords (h : Host ℤ) (p : Packet ℤ) :
    h.toWords.sendctl p.toWords = (h.sendctl p).toWords := by
  rw [Host.sendctl, Host.sendctl, show p.toWords.daddr = p.daddr from rfl,
    show h.toWords.isMe p.daddr = h.isMe p.daddr from rfl,
    show h.toWords.route p.daddr = h.route p.daddr from rfl]
  split
  · rfl
  · cases h.route p.daddr <;> rfl

theorem Host.xmitnext_toWords (h : Host ℤ) : h.toWords.xmitnext = h.xmitnext.toWords := by
  have hhead : (h.xcList.map Packet.toWords).head? = h.xcList.head?.map Packet.toWords :=
    List.head?_map
  have htail : (h.xcList.map Packet.toWords).tail = h.xcList.tail.map Packet.toWords :=
    List.map_tail.symm
  rw [Host.xmitnext, show h.toWords.xcList = h.xcList.map Packet.toWords from rfl, hhead, htail]
  rfl

/-- `xmitdone`, for a packet that is not older than half the range of a word. -/
theorem HostSound.xmitdone_toWords
    (hs : HostSound v start wire h (p :: pending) log c)
    (hw : v.ends.Narrow) (hp : contpkt p.op = true → c.trecvd < p.pkn + 2 ^ 15) :
    h.toWords.xmitdone p.toWords = (h.xmitdone p).toWords := by
  have hown := hs.sound.transmit.own p List.mem_cons_self
  obtain ⟨hlt, htacked, htrecvd, hthead⟩ := hs.sound.transmit.compact hw
  rw [Host.xmitdone, Host.xmitdone, show p.toWords.sidx = p.sidx from rfl, h.lookup_toWords,
    hs.holds.lookup hs.sound.lidx]
  by_cases hidx : p.sidx = v.ends.lidx
  · rw [if_pos hidx, Option.map_some]
    simp only
    rw [show p.toWords.fc = p.fc from rfl, show p.toWords.op = p.op from rfl,
      show c.toWords.state = c.state from rfl]
    cases hcont : contpkt p.op with
    | false => rw [if_neg (by simp), if_neg (by simp)]
    | true =>
      have hold := hp hcont
      have hnew : p.pkn ≤ c.tlast := hs.sound.transmit.tlast ▸ hown.pkn_le hcont
      have hlater : Later p.toWords.pkn c.toWords.trecvd ↔ Later p.pkn c.trecvd := by
        rw [later_int]
        exact later_wrap ⟨by omega, by omega⟩
      simp only [hlater]
      split
      · have hlate : c.trecvd < p.pkn := later_int.mp (by tauto)
        have hins : insertByNumber Packet.pkn (Packet.toWords { p with time := h.clock })
            (c.thead.map Packet.toWords) =
            (insertByNumber Packet.pkn { p with time := h.clock } c.thead).map Packet.toWords := by
          refine insertByNumber_map (fun _ => rfl) fun q hq => ?_
          have := hthead q hq
          exact ⟨by dsimp only; omega, by dsimp only; omega⟩
        rw [← Host.setConn_toWords]
        exact congrArg (fun thead => h.toWords.setConn 0 { c.toWords with thead := thead }) hins
      · rfl
  · rw [if_neg hidx]
    rfl

/-- Packets that are not receipted are handed to `xmitdone`. -/
theorem HostSound.xmitdones_toWords (ps : List (Packet ℤ))
    (hs : HostSound v start wire h (ps ++ pending) log c) (hw : v.ends.Narrow)
    (hps : ∀ p ∈ ps, contpkt p.op = true → c.trecvd < p.pkn) :
    (ps.map Packet.toWords).foldl Host.xmitdone h.toWords =
      (ps.foldl Host.xmitdone h).toWords := by
  induction ps generalizing h c with
  | nil => rfl
  | cons p ps ih =>
    have hp := hps p List.mem_cons_self
    obtain ⟨thead, hs₁⟩ := HostSound.xmitdone hs
    rw [List.map_cons, List.foldl_cons, List.foldl_cons,
      HostSound.xmitdone_toWords hs hw fun hcont => by have := hp hcont; omega]
    exact ih hs₁ fun q hq => hps q (List.mem_cons_of_mem p hq)

/-- `senddata`, for packets that are not receipted. -/
theorem HostSound.senddata_toWords (ps : List (Packet ℤ))
    (hs : HostSound v start wire h (ps ++ pending) log c) (hw : v.ends.Narrow)
    (hps : ∀ p ∈ ps, contpkt p.op = true → c.trecvd < p.pkn) :
    h.toWords.senddata (ps.map Packet.toWords) = (h.senddata ps).toWords := by
  cases ps with
  | nil => rfl
  | cons p ps =>
    have hdone := HostSound.xmitdones_toWords (p :: ps) hs hw hps
    simp only [List.map_cons] at hdone ⊢
    simp only [Host.senddata]
    rw [show p.toWords.daddr = p.daddr from rfl,
      show h.toWords.isMe p.daddr = h.isMe p.daddr from rfl,
      show h.toWords.route p.daddr = h.route p.daddr from rfl]
    split
    · rfl
    · cases h.route p.daddr with
      | none => exact hdone
      | some dest => simp [Host.toWords, Packet.toWords]

/-- The effects of a function are carried out. -/
theorem HostSound.perform_toWords
    (hs : HostSound v start wire h (sending es) log c)
    (hw : v.ends.Narrow) (hes : Controls c.trecvd es) :
    (es.map Effect.toWords).foldl Host.perform h.toWords =
      (es.foldl Host.perform h).toWords := by
  induction es generalizing h c with
  | nil => rfl
  | cons x es ih =>
    rw [← List.singleton_append] at hes
    have htail : Controls c.trecvd es :=
      ⟨fun q hq => hes.1 q (List.mem_append_right [x] hq),
        fun q hq => hes.2 q (sending_append [x] es ▸ List.mem_append_right _ hq)⟩
    have hx : ∀ q ∈ sending [x], contpkt q.op = true → c.trecvd < q.pkn :=
      fun q hq => hes.2 q (sending_append [x] es ▸ List.mem_append_left _ hq)
    rw [List.map_cons, List.foldl_cons, List.foldl_cons]
    cases x with
    | ctl p =>
      have hs₁ := HostSound.sendctl hs (hes.1 p List.mem_cons_self)
      rw [show h.perform (.ctl p) = h.sendctl p from rfl, ← ih hs₁ htail]
      exact congrArg (fun h => (es.map Effect.toWords).foldl Host.perform h) (h.sendctl_toWords p)
    | write p =>
      obtain ⟨thead, hs₁⟩ := HostSound.senddata [p] hs hx
      rw [show h.perform (.write p) = h.senddata [p] from rfl, ← ih hs₁ htail]
      exact congrArg (fun h => (es.map Effect.toWords).foldl Host.perform h)
        (HostSound.senddata_toWords [p] hs hw hx)
    | data ps =>
      have hps : ∀ q ∈ ps, contpkt q.op = true → c.trecvd < q.pkn :=
        fun q hq => hx q (List.mem_append_left _ hq)
      obtain ⟨thead, hs₁⟩ := HostSound.senddata ps hs hps
      rw [show h.perform (.data ps) = h.senddata ps from rfl, ← ih hs₁ htail]
      exact congrArg (fun h => (es.map Effect.toWords).foldl Host.perform h)
        (HostSound.senddata_toWords ps hs hw hps)
    | read p => exact ih hs htail
    | accept bs => exact ih hs htail
    | stream bs => exact ih hs htail

/-- A function is called on the connection. -/
theorem HostSound.onConn_toWords
    (hs : HostSound v start wire h [] log c)
    (hw : v.ends.Narrow) {f : Connection ℤ → Connection ℤ × List (Effect ℤ)}
    {g : Connection HalfWord → Connection HalfWord × List (Effect HalfWord)}
    (hcall : Call v c (f c)) (hg : g c.toWords = bothToWords (f c)) :
    h.toWords.onConn 0 g = callToWords (h.onConn 0 f) := by
  have hconn := hs.holds.conn_toWords
  have hperform := (hs.called hcall).perform_toWords hw (hcall.outcome hs.sound hs.peer).controls
  simp only [Host.onConn, hconn, hs.holds.conn, hg]
  rw [← Host.setConn_toWords] at hperform
  exact Prod.ext hperform rfl

/-! ### Packets that arrive -/

theorem Host.sendlos_toWords (h : Host ℤ) (p : Packet ℤ) (myname text : List Byte) :
    (p.toWords.sendlos myname text).foldl Host.perform h.toWords =
      ((p.sendlos myname text).foldl Host.perform h).toWords := by
  rw [p.sendlos_toWords, Packet.sendlos]
  split
  · rfl
  · exact h.sendctl_toWords _

theorem Host.heard_toWords (h : Host ℤ) : h.toWords.heard = h.heard.toWords := by
  rw [Host.heard, Host.heard, show h.toWords.xcAddr = h.xcAddr from rfl]
  split <;> rfl

theorem Host.rfcConn_toWords (h : Host ℤ) (p : Packet ℤ) :
    h.toWords.rfcConn p.toWords = (h.rfcConn p).map fun kc => (kc.1, kc.2.toWords) := by
  rw [Host.rfcConn, Host.rfcConn, List.map_findSome?]
  congr 1
  funext k
  rw [Function.comp_apply, show h.toWords.conntab k = (h.conntab k).map Connection.toWords from rfl]
  cases h.conntab k with
  | none => rfl
  | some c =>
    have hfidx : c.toWords.fidx = c.fidx := rfl
    have hfaddr : c.toWords.faddr = c.faddr := rfl
    have hsidx : p.toWords.sidx = p.sidx := rfl
    have hsaddr : p.toWords.saddr = p.saddr := rfl
    by_cases hfound : c.fidx = p.sidx ∧ c.faddr = p.saddr <;>
      simp [Option.filter, hfidx, hfaddr, hsidx, hsaddr, hfound]

/-- The listener for a contact name. -/
theorem Host.find_lsnlist_toWords (h : Host ℤ) (cdata : List Byte) :
    h.toWords.lsnlist.find? (fun l => concmp cdata l.cdata) =
      (h.lsnlist.find? fun l => concmp cdata l.cdata).map Packet.toWords :=
  List.find?_map

/-- An RFC of the other end. -/
theorem HostSound.rcvrfc_toWords
    (hs : HostSound v start wire h [] log c)
    (hw : v.ends.Narrow) (harrives : v.arrives p) (hop : p.op = rfcop) :
    h.toWords.rcvrfc p.toWords = (h.rcvrfc p).toWords := by
  have hp := v.own p harrives
  have hfirst := Peer.first_of_rfc hs.peer hp hop
  rw [Host.rcvrfc, Host.rcvrfc, h.rfcConn_toWords, hs.holds.rfcConn,
    show p.toWords.cdata = p.cdata from rfl, h.find_lsnlist_toWords,
    show h.toWords.services = h.services from rfl]
  by_cases hfound : c.fidx = p.sidx ∧ c.faddr = p.saddr
  · rw [if_pos hfound, Option.map_some]
    simp only
    rw [show c.toWords.state = c.state from rfl]
    split
    · have hretran := hs.onConn_toWords (f := fun c => c.chretran h.clock (h.hz >>> 4))
        (g := fun c => c.chretran h.clock (h.hz >>> 4)) hw
        (.chretran _ _) (c.chretran_toWords h.clock (h.hz >>> 4))
      exact congrArg Prod.fst hretran
    · rfl
  · rw [if_neg hfound, Option.map_none]
    simp only
    have hlisten : c.state = .listen := by
      by_contra hne
      exact hfound ⟨(hs.sound.fidx hfirst hne).trans (hp.sidx (by rw [hop]; decide)).symm,
        (hs.sound.addr hne).2.1.trans hp.saddr.symm⟩
    cases hfind : h.lsnlist.find? fun l => concmp p.cdata l.cdata with
    | some l =>
      have hslot := hs.holds.listeners l (List.mem_of_find?_eq_some hfind)
      have hs₁ : HostSound v start wire
          { h with lsnlist := h.lsnlist.eraseP fun l => concmp p.cdata l.cdata } [] log c :=
        hs.congr rfl rfl rfl (fun l hl => List.mem_of_mem_eraseP hl) rfl rfl
      have hmatch := Call.lsnmatch h.clock p harrives hop hlisten
      rw [← hs.holds.myaddr] at hmatch
      have hconn := hs₁.onConn_toWords hw (f := fun c => (c.lsnmatch h.clock h.myaddr p, []))
        (g := fun c => (c.lsnmatch h.clock h.myaddr p.toWords, [])) hmatch rfl
      have herase : (h.lsnlist.map Packet.toWords).eraseP (fun l => concmp p.cdata l.cdata) =
          (h.lsnlist.eraseP fun l => concmp p.cdata l.cdata).map Packet.toWords :=
        List.eraseP_map
      simp only [Option.map_some]
      rw [show l.toWords.sidx = l.sidx from rfl, hslot]
      rw [show h.toWords.lsnlist = h.lsnlist.map Packet.toWords from rfl, herase]
      exact congrArg Prod.fst hconn
    | none =>
      simp only [Option.map_none]
      cases h.services.find? fun s => concmp p.cdata s.1 with
      | some s =>
        have hans : ({ p.toWords with
            op := ansop, pkn := SerialNumber.start, ackn := SerialNumber.start
            cdata := s.2, len := s.2.length } : Packet HalfWord).reflect =
            Packet.toWords ({ p with
              op := ansop, pkn := SerialNumber.start, ackn := SerialNumber.start
              cdata := s.2, len := s.2.length } : Packet ℤ).reflect := by
          rw [← wrap_start]
          rfl
        simp only [hans]
        exact h.sendctl_toWords _
      | none =>
        simp only
        rw [show h.toWords.rfcrcv = h.rfcrcv from rfl,
          show h.toWords.myname = h.myname from rfl,
          show h.toWords.rfclist = h.rfclist.map Packet.toWords from rfl, List.any_map]
        split
        · exact h.sendlos_toWords p _ _
        · rw [show h.rfclist.any ((fun q : Packet HalfWord =>
            decide (q.sidx = p.toWords.sidx) && decide (q.saddr = p.toWords.saddr)) ∘
              Packet.toWords) =
            h.rfclist.any fun q => decide (q.sidx = p.sidx) && decide (q.saddr = p.saddr) from rfl]
          have hqueued : h.rfclist.map Packet.toWords ++
              [{ p.toWords with ackn := SerialNumber.start }] =
              (h.rfclist ++ [{ p with ackn := SerialNumber.start }]).map Packet.toWords := by
            rw [List.map_append, ← wrap_start]
            rfl
          split
          · rfl
          · exact congrArg (fun rfclist => { h.toWords with rfclist := rfclist }) hqueued

/-- A packet of the other end that is not older than half the range of a word. -/
theorem HostSound.rcvpkt_toWords
    (hs : HostSound v start wire h [] log c)
    (hw : v.ends.Narrow) (harrives : v.arrives p)
    (hsent : (v.sent.length : ℤ) ≤ c.rread + max 1 v.ends.window.toNat)
    (htime : c.timely p = true) : h.toWords.rcvpkt p.toWords = (h.rcvpkt p).toWords := by
  have hp := v.own p harrives
  have hheard : HostSound v start wire h.heard [] log c := by
    rw [Host.heard]
    split
    · exact hs
    · exact hs.congr rfl rfl rfl (fun l hl => hl) rfl rfl
  have hkind : p.op ≠ rutop ∧ p.op ≠ mntop := by
    rcases hp.kind with hcont | hop | hop | hop | hop
    · constructor <;> rintro heq <;> rw [heq] at hcont <;> exact absurd hcont (by decide)
    all_goals rw [hop]; decide
  rw [Host.rcvpkt, Host.rcvpkt, h.heard_toWords]
  generalize h.heard = h₁ at hheard
  rw [show p.toWords.daddr = p.daddr from rfl, show p.toWords.op = p.op from rfl,
    show p.toWords.didx = p.didx from rfl]
  have hhere : ¬ (¬ h₁.isMe p.daddr ∧ p.daddr ≠ h₁.xcAddr ∧ p.daddr ≠ 0) :=
    fun hforward => hforward.2.1 (hp.daddr.trans hheard.holds.xcAddr.symm)
  have hhere' : ¬ (¬ h₁.toWords.isMe p.daddr ∧ p.daddr ≠ h₁.toWords.xcAddr ∧ p.daddr ≠ 0) := hhere
  rw [if_neg hhere', if_neg hhere, if_neg hkind.1, if_neg hkind.1, if_neg hkind.2,
    if_neg hkind.2]
  split_ifs with hrfc
  · exact hheard.rcvrfc_toWords hw harrives hrfc
  · rfl
  · rw [h₁.lookup_toWords, hheard.holds.lookup hheard.sound.lidx]
    by_cases hidx : p.didx = v.ends.lidx
    · rw [if_pos hidx]
      have hconn := hheard.onConn_toWords
        (f := fun c => c.rcvpkt h₁.clock (h₁.hz >>> 4) h₁.myname p)
        (g := fun c => c.rcvpkt h₁.clock (h₁.hz >>> 4) h₁.myname p.toWords) hw
        (.rcvpkt _ _ _ p harrives)
        (hheard.sound.rcvpkt_toWords hw hheard.peer hp hsent htime h₁.clock (h₁.hz >>> 4) h₁.myname)
      exact congrArg Prod.fst hconn
    · rw [if_neg hidx]
      exact h₁.sendlos_toWords p _ _

/-! ### Calls of the user and the clock -/

/-- A listener is removed, or the connection closed. -/
theorem HostSound.chClose_toWords
    (hs : HostSound v start wire h [] log c)
    (hw : v.ends.Narrow) (hop : p.op = clsop) :
    h.toWords.chClose 0 (some p.toWords) = callToWords (h.chClose 0 (some p)) := by
  have hconn := hs.holds.conn_toWords
  rw [Host.chClose, Host.chClose, hconn, hs.holds.conn]
  simp only
  rw [show c.toWords.state = c.state from rfl]
  split
  · have herase : (h.lsnlist.map Packet.toWords).eraseP (fun l => l.sidx.toNat % 256 = 0) =
        (h.lsnlist.eraseP fun l => l.sidx.toNat % 256 = 0).map Packet.toWords := List.eraseP_map
    rw [show h.toWords.lsnlist = h.lsnlist.map Packet.toWords from rfl, herase]
    rfl
  · exact hs.onConn_toWords (f := fun c => c.chClose (some p))
      (g := fun c => c.chClose (some p.toWords)) hw (.close p hop)
      (c.chClose_toWords (some p))

theorem Host.probe_toWords (clock : HalfWord) (hz : ℕ) (c : Connection ℤ) :
    Host.probe clock hz c.toWords = bothToWords (Host.probe clock hz c) := by
  rw [Host.probe, Host.probe, show c.toWords.state = c.state from rfl,
    show c.toWords.active = c.active from rfl]
  generalize (if c.state = .opened then 3 * (hz * 45) else hz * 15) = limit
  split
  · exact Prod.ext (c.clsconn_toWords .inct none) rfl
  · rfl

/-- `ch_clock`, for one entry of the table. -/
theorem HostSound.clockConn_toWords
    (hs : HostSound v start wire h [] log c)
    (hw : v.ends.Narrow) (probing : Bool) (k : ℕ) :
    Host.clockConn probing h.toWords k = callToWords (Host.clockConn probing h k) := by
  by_cases hk : k = 0
  · subst hk
    have hconn := hs.holds.conn_toWords
    simp only [Host.clockConn, hconn, hs.holds.conn]
    rw [show c.toWords.state = c.state from rfl]
    split
    · have halive : c.state = .opened ∨ c.state = .rfcsent := by assumption
      rw [← hs.sound.state_flushOutput h.clock h.hz] at halive
      have hwords₁ := hs.onConn_toWords (f := Host.flushOutput h.clock h.hz)
        (g := Host.flushOutput h.clock h.hz) hw (.flushOutput _ _)
        ((hs.sound.transmit.compact hw).flushOutput_toWords _ _)
      obtain ⟨thead₁, hs₁⟩ := hs.onConn (f := Host.flushOutput h.clock h.hz) (.flushOutput _ _)
      rw [show h.toWords.clock = h.clock from rfl, show h.toWords.hz = h.hz from rfl, hwords₁]
      generalize (Host.flushOutput h.clock h.hz c).1 = c₁ at *
      generalize h.onConn 0 (Host.flushOutput h.clock h.hz) = r₁ at *
      obtain ⟨h₁, es₁⟩ := r₁
      rw [show c₁.state = ({ c₁ with thead := thead₁ } : Connection ℤ).state from rfl] at halive
      generalize ({ c₁ with thead := thead₁ } : Connection ℤ) = c₁ at *
      rw [← state_chretran c₁ h₁.clock h₁.hz] at halive
      have hwords₂ := hs₁.onConn_toWords (f := fun c => c.chretran h₁.clock h₁.hz)
        (g := fun c => c.chretran h₁.clock h₁.hz) hw (.chretran _ _) (c₁.chretran_toWords _ _)
      obtain ⟨thead₂, hs₂⟩ := hs₁.onConn (f := fun c => c.chretran h₁.clock h₁.hz) (.chretran _ _)
      simp only [callToWords]
      rw [show h₁.toWords.clock = h₁.clock from rfl, show h₁.toWords.hz = h₁.hz from rfl, hwords₂]
      generalize (c₁.chretran h₁.clock h₁.hz).1 = c₂ at *
      generalize h₁.onConn 0 (fun c => c.chretran h₁.clock h₁.hz) = r₂ at *
      obtain ⟨h₂, es₂⟩ := r₂
      simp only [callToWords]
      cases probing with
      | false => simp
      | true =>
        have hlisten : c₂.state ≠ .listen := by rcases halive with heq | heq <;> rw [heq] <;> decide
        have hwords₃ := hs₂.onConn_toWords (f := Host.probe h₂.clock h₂.hz)
          (g := Host.probe h₂.clock h₂.hz) hw (.probe _ _ hlisten)
          (Host.probe_toWords h₂.clock h₂.hz _)
        rw [if_pos rfl, if_pos rfl, show h₂.toWords.clock = h₂.clock from rfl,
          show h₂.toWords.hz = h₂.hz from rfl, hwords₃]
        simp [callToWords]
    · rfl
  · have hconn : h.toWords.conntab k = none := by
      rw [show h.toWords.conntab k = (h.conntab k).map Connection.toWords from rfl,
        hs.holds.conn_of_ne hk]
      rfl
    simp only [Host.clockConn, hconn, hs.holds.conn_of_ne hk]
    rfl

/-- `ch_clock`, over entries of the table. -/
theorem HostSound.clockConns_toWords (hw : v.ends.Narrow) (probing : Bool) (ks : List ℕ)
    (es : List (Effect ℤ))
    (hs : Ran v start wire log (h, es)) :
    ks.foldl (fun (h, es) k =>
        ((Host.clockConn probing h k).1, es ++ (Host.clockConn probing h k).2))
        (callToWords (h, es)) =
      callToWords (ks.foldl (fun (h, es) k =>
        ((Host.clockConn probing h k).1, es ++ (Host.clockConn probing h k).2)) (h, es)) := by
  induction ks generalizing h es with
  | nil => rfl
  | cons k ks ih =>
    obtain ⟨c, hs⟩ := hs
    have hnext : Ran v start wire log
        ((Host.clockConn probing h k).1, es ++ (Host.clockConn probing h k).2) :=
      Ran.trans (hs.clockConn probing k)
    have hwords : ((Host.clockConn probing h.toWords k).1,
        es.map Effect.toWords ++ (Host.clockConn probing h.toWords k).2) =
        callToWords ((Host.clockConn probing h k).1, es ++ (Host.clockConn probing h k).2) := by
      rw [hs.clockConn_toWords hw probing k, callToWords, callToWords, List.map_append]
    rw [List.foldl_cons, List.foldl_cons]
    exact (congrArg (fun r => ks.foldl (fun (h, es) k =>
      ((Host.clockConn probing h k).1, es ++ (Host.clockConn probing h k).2)) r) hwords).trans
      (ih _ hnext)

theorem Host.nextTimes_toWords (h : Host ℤ) :
    h.toWords.nextTimes = (h.nextTimes.1, h.nextTimes.2.toWords) := by
  simp only [Host.nextTimes]
  rw [show h.toWords.clock = h.clock from rfl, show h.toWords.nextprobe = h.nextprobe from rfl,
    show h.toWords.nextroute = h.nextroute from rfl]
  by_cases hprobe : Later h.clock h.nextprobe
  · simp only [hprobe, decide_true, if_true]
    split_ifs <;> rfl
  · simp only [hprobe, decide_false, Bool.false_eq_true, if_false]
    split_ifs <;> rfl

/-- A tick of the clock. -/
theorem HostSound.chClock_toWords
    (hs : HostSound v start wire h [] log c)
    (hw : v.ends.Narrow) : h.toWords.chClock = callToWords h.chClock := by
  have htick : HostSound v start wire h.tick [] log c :=
    hs.congr rfl rfl rfl (fun l hl => hl) rfl rfl
  rw [Host.chClock, Host.chClock, show h.toWords.tick = h.tick.toWords from rfl,
    Host.nextTimes_toWords, show h.tick.toWords.nextclk = h.tick.nextclk from rfl,
    show h.tick.toWords.clock = h.tick.clock from rfl]
  split
  · rfl
  · exact HostSound.clockConns_toWords hw _ _ [] htick.nextTimes.ran

/-- `ch_swrite`, its loop. -/
theorem HostSound.swriteLoop_toWords (n : ℕ)
    (hs : HostSound v start wire h [] log c)
    (hw : v.ends.Narrow) (bs : List Byte) :
    h.toWords.swriteLoop 0 n bs =
      ((h.swriteLoop 0 n bs).1.toWords, (h.swriteLoop 0 n bs).2.1.map Effect.toWords,
        (h.swriteLoop 0 n bs).2.2) := by
  induction n generalizing h log c bs with
  | zero => rfl
  | succ n ih =>
    simp only [Host.swriteLoop, hs.holds.conn_toWords, hs.holds.conn]
    rw [(hs.sound.transmit.compact hw).chtfull_toWords, c.outputRoom_toWords,
      show c.toWords.writable = c.writable from rfl]
    split
    · rfl
    · have hcan : ¬ (c.writable = false ∨ bs = [] ∨ c.chtfull = true) := by assumption
      rw [not_or, not_or, Bool.not_eq_false, Bool.not_eq_true] at hcan
      have hturn : Call v c (c.swriteTurn h.clock bs) := .swriteTurn _ _ hcan.1 hcan.2.2
      have hwords := hs.onConn_toWords (f := Connection.swriteTurn h.clock bs)
        (g := Connection.swriteTurn h.clock bs) hw hturn (c.swriteTurn_toWords h.clock bs)
      obtain ⟨thead, hs₁⟩ := hs.onConn (f := Connection.swriteTurn h.clock bs) hturn
      rw [show h.toWords.clock = h.clock from rfl, hwords]
      simp only [callToWords, ih hs₁, List.map_append]

/-- `ch_sread`, its loop. -/
theorem HostSound.sreadLoop_toWords (nchars n : ℕ)
    (hs : HostSound v start wire h [] log c) (hw : v.ends.Narrow) (done : ℕ) :
    h.toWords.sreadLoop 0 nchars n done =
      ((h.sreadLoop 0 nchars n done).1.toWords,
        (h.sreadLoop 0 nchars n done).2.1.map Effect.toWords,
        (h.sreadLoop 0 nchars n done).2.2) := by
  have hend : ∀ h : Host ℤ, ∀ m, h.toWords.sreadEnd 0 m = h.sreadEnd 0 m := by
    intro h m
    rw [Host.sreadEnd, Host.sreadEnd,
      show h.toWords.conntab 0 = (h.conntab 0).map Connection.toWords from rfl]
    cases h.conntab 0 <;> rfl
  induction n generalizing h log c done with
  | zero => rw [Host.sreadLoop, Host.sreadLoop, hend]; rfl
  | succ n ih =>
    simp only [Host.sreadLoop, hs.holds.conn_toWords, hs.holds.conn, Option.bind_some]
    cases hrhead : c.rhead with
    | nil =>
      rw [show c.toWords.rhead = [] by rw [Connection.toWords, hrhead]; rfl]
      simp only [List.head?_nil, hend]
      rfl
    | cons p ps =>
      rw [show c.toWords.rhead = p.toWords :: ps.map Packet.toWords by
        rw [Connection.toWords, hrhead]; rfl]
      simp only [List.head?_cons]
      rw [show p.toWords.op = p.op from rfl, show p.toWords.len = p.len from rfl, hend]
      have hnear := hs.sound.headNear hw
      have hhead : ∀ {b : Bool}, streamop p.op = b → ∀ q ∈ c.rhead.head?, streamop q.op = b := by
        intro b hb q hq
        rw [hrhead] at hq
        cases hq
        exact hb
      have hread (hop : streamop p.op = false) : Call v c c.chRead := .read (Or.inr (hhead hop))
      split_ifs with hdone heof hpart hstream
      · rfl
      · rfl
      · -- the end of the file
        have hcall := hread (by rw [heof]; decide)
        have hwords := hs.onConn_toWords (f := Connection.chRead) (g := Connection.chRead) hw
          hcall hnear.chRead_toWords
        obtain ⟨thead₁, hs₁⟩ := hs.onConn (f := Connection.chRead) hcall
        have hread := hs.rread_chRead_eof hrhead heof
        have hwords₁ := hs₁.onConn_toWords (f := Connection.sendsts)
          (g := Connection.sendsts) hw (.sendsts hread) (Connection.sendsts_toWords _)
        obtain ⟨thead₂, hs₂⟩ := hs₁.onConn (f := Connection.sendsts) (.sendsts hread)
        have hwords₂ := hs₂.onConn_toWords (f := fun c => ({ c with eofseen := true }, []))
          (g := fun c => ({ c with eofseen := true }, [])) hw .eofSeen rfl
        rw [hwords]
        simp only [callToWords]
        rw [hwords₁]
        simp only [callToWords]
        rw [hwords₂]
        simp only [callToWords, List.map_append]
      · have hop : streamop p.op = true := by simpa [streamop, or_assoc] using hstream
        have hturn : Call v c (c.sreadTurn (nchars - done)) := .sreadTurn _ (hhead hop)
        have hwords := hs.onConn_toWords (f := Connection.sreadTurn (nchars - done))
          (g := Connection.sreadTurn (nchars - done)) hw hturn (hnear.sreadTurn_toWords _)
        obtain ⟨thead, hs₁⟩ := hs.onConn (f := Connection.sreadTurn (nchars - done)) hturn
        rw [hwords]
        simp only [callToWords, ih hs₁, List.map_append]
      · have hcall := hread (by simpa [streamop, and_assoc] using hstream)
        have hwords := hs.onConn_toWords (f := Connection.chRead) (g := Connection.chRead) hw
          hcall hnear.chRead_toWords
        obtain ⟨thead, hs₁⟩ := hs.onConn (f := Connection.chRead) hcall
        rw [hwords]
        simp only [callToWords, ih hs₁, List.map_append]

end Usim.Ncp
