import Usim.Ncp.Transmission

/-!
# The receiving end of a connection

What holds of the packets that a connection has received, with numbers that never wrap. The
packets in order carry on from the last packet read without a gap, the packets out of order
come after a gap, and what the user has read is what the other end has written.
-/

namespace Usim.Ncp

open Lib

/-- What is true of a packet received from the other end, which has sent these messages. -/
structure Carried (e : Ends) (sent : List Message) (p : Packet ℤ) : Prop where
  saddr : p.saddr = e.peer
  daddr : p.daddr = e.me
  fc : p.fc = 0
  number : contpkt p.op = true → 1 ≤ p.pkn ∧ sent[(p.pkn - 1).toNat]? = some p.message

variable {e : Ends} {c d : Connection ℤ} {sent taken : List Message} {p : Packet ℤ}

/-- A message that was sent stays so. -/
theorem Carried.mono (h : Carried e sent p) (more : List Message) : Carried e (sent ++ more) p where
  saddr := h.saddr
  daddr := h.daddr
  fc := h.fc
  number hcont := by
    obtain ⟨hpos, hmessage⟩ := h.number hcont
    obtain ⟨hlt, -⟩ := List.getElem?_eq_some_iff.mp hmessage
    exact ⟨hpos, by rw [List.getElem?_append_left hlt, hmessage]⟩

/-- The number of a packet is one of those given. -/
theorem Carried.pkn_le (h : Carried e sent p) (hcont : contpkt p.op = true) :
    p.pkn ≤ sent.length := by
  obtain ⟨hpos, hmessage⟩ := h.number hcont
  obtain ⟨hlt, -⟩ := List.getElem?_eq_some_iff.mp hmessage
  omega

/-- The packets of data. -/
def dataPackets (ps : List (Packet ℤ)) : List (Packet ℤ) := ps.filter fun p => isData p.op

/-- The messages that are data. -/
def dataOf (ms : List Message) : List Message := ms.filter fun m => isData m.op

/-- The user has not read an RFC that is the only packet received. -/
def Connection.HoldsRfc (c : Connection ℤ) : Prop :=
  ∃ p, c.rhead = [p] ∧ p.op = rfcop ∧ p.pkn = c.rread ∧ c.state ≠ .opened

/-- The numbered packets received are data. -/
def Connection.HoldsData (c : Connection ℤ) : Prop :=
  (∀ p ∈ c.rhead, contpkt p.op = true → isData p.op = true) ∧ (c.state = .rfcrcvd → c.rhead = [])

/-- What holds of the receiving end. -/
structure Receive (e : Ends) (c : Connection ℤ) (sent taken : List Message) : Prop where
  racked_nonneg : 0 ≤ c.racked
  racked_le : c.racked ≤ c.rread
  lag : 3 * (c.rread - c.racked) ≤ max 3 c.rwsize.toNat
  rlast_le : c.rlast ≤ sent.length
  carried : ∀ p ∈ c.rhead ++ c.routorder, Carried e sent p
  ordered : Follows Packet.pkn c.rread (dataPackets c.rhead)
  count : c.rread + (dataPackets c.rhead).length = c.rlast
  holds : c.HoldsRfc ∨ c.HoldsData
  outorder_asc : Ascending Packet.pkn c.routorder
  outorder : ∀ p ∈ c.routorder, isData p.op = true ∧ c.rlast + 1 < p.pkn
  taken : taken = dataOf (sent.take c.rread.toNat)
  begun : c.state = .opened ∨ c.state = .rfcrcvd → 1 ≤ c.rread
  fresh : c.state = .listen ∨ c.state = .rfcsent →
    c.rlast = 0 ∧ c.rhead = [] ∧ c.routorder = []

/-- The numbers are read up to the last one received. -/
theorem Receive.rread_le (h : Receive e c sent taken) : c.rread ≤ c.rlast := by
  have := h.count
  omega

theorem Receive.rread_nonneg (h : Receive e c sent taken) : 0 ≤ c.rread :=
  h.racked_nonneg.trans h.racked_le

/-- The other end goes on sending. -/
theorem Receive.mono (h : Receive e c sent taken) (more : List Message) :
    Receive e c (sent ++ more) taken where
  racked_nonneg := h.racked_nonneg
  racked_le := h.racked_le
  lag := h.lag
  rlast_le := by
    have := h.rlast_le
    rw [List.length_append]
    omega
  carried p hp := (h.carried p hp).mono more
  ordered := h.ordered
  count := h.count
  holds := h.holds
  outorder_asc := h.outorder_asc
  outorder := h.outorder
  taken := by
    have h₁ := h.rlast_le
    have h₂ := h.rread_le
    rw [List.take_append_of_le_length (by omega)]
    exact h.taken
  begun := h.begun
  fresh := h.fresh

/-- Nothing else of the connection matters but the last acknowledgement. -/
theorem Receive.congr (h : Receive e c sent taken) (hracked : d.racked = c.racked ∨
    d.racked = c.rread) (hrread : d.rread = c.rread) (hrlast : d.rlast = c.rlast)
    (hrhead : d.rhead = c.rhead) (hroutorder : d.routorder = c.routorder)
    (hrwsize : d.rwsize = c.rwsize) (hstate : d.state = c.state) :
    Receive e d sent taken where
  racked_nonneg := by
    have h₁ := h.racked_nonneg
    have h₂ := h.racked_le
    omega
  racked_le := by
    have h₂ := h.racked_le
    omega
  lag := by
    have := h.lag
    rw [hrwsize]
    omega
  rlast_le := hrlast ▸ h.rlast_le
  carried := by rw [hrhead, hroutorder]; exact h.carried
  ordered := by rw [hrread, hrhead]; exact h.ordered
  count := by rw [hrread, hrhead, hrlast]; exact h.count
  holds := by
    rw [Connection.HoldsRfc, Connection.HoldsData, hrhead, hrread, hstate]
    exact h.holds
  outorder_asc := hroutorder ▸ h.outorder_asc
  outorder := by rw [hroutorder, hrlast]; exact h.outorder
  taken := hrread ▸ h.taken
  begun := by rw [hrread, hstate]; exact h.begun
  fresh := by rw [hrhead, hroutorder, hrlast, hstate]; exact h.fresh

/-- A connection that is closed keeps what it has received, with another packet behind that is
not numbered. -/
theorem Receive.close (h : Receive e c sent taken) {state : ConnState} {p : Option (Packet ℤ)}
    (hstate : state = .closed ∨ state = .lost ∨ state = .inct)
    (hcarried : ∀ q ∈ p, Carried e sent q ∧ contpkt q.op = false)
    (hp : p = none ∨ c.state = .opened ∨ c.state = .rfcsent) :
    Receive e (c.clsconn state p) sent taken := by
  have hnot : dataPackets (c.rhead ++ p.toList) = dataPackets c.rhead := by
    have hnil : p.toList.filter (fun q : Packet ℤ => isData q.op) = [] := by
      refine List.filter_eq_nil_iff.mpr fun q hq hdata => ?_
      have := (hcarried q (Option.mem_toList.mp hq)).2
      rw [contpkt_of_isData hdata] at this
      cases this
    rw [dataPackets, List.filter_append, hnil, List.append_nil]
    rfl
  have hdead : ∀ st, st = .opened ∨ st = .listen ∨ st = .rfcsent ∨ st = .rfcrcvd → state ≠ st := by
    rintro st hst rfl
    rcases hstate with rfl | rfl | rfl <;> simp at hst
  refine
    { h with
      carried := ?_, ordered := ?_, count := ?_, holds := ?_
      begun := fun heq => heq.elim (absurd · (hdead _ (by simp))) (absurd · (hdead _ (by simp)))
      fresh := fun heq => ?_ }
  · intro q hq
    rcases List.mem_append.mp hq with hq | hq
    · rcases List.mem_append.mp hq with hq | hq
      · exact h.carried q (List.mem_append_left _ hq)
      · exact (hcarried q (Option.mem_toList.mp hq)).1
    · exact h.carried q (List.mem_append_right _ hq)
  · change Follows _ _ (dataPackets (c.rhead ++ p.toList))
    rw [hnot]
    exact h.ordered
  · change c.rread + ((dataPackets (c.rhead ++ p.toList)).length : ℤ) = c.rlast
    rw [hnot]
    exact h.count
  · rcases h.holds with ⟨q, hq, hrfc, hpkn, hnot⟩ | ⟨hdata, -⟩
    · rcases hp with rfl | hp | hp
      · refine Or.inl ⟨q, ?_, hrfc, hpkn, hdead _ (Or.inl rfl)⟩
        change c.rhead ++ [] = [q]
        rw [List.append_nil, hq]
      · exact absurd hp hnot
      · have hnil := (h.fresh (Or.inr hp)).2.1
        rw [hnil] at hq
        cases hq
    · refine Or.inr ⟨fun q hq hcont => ?_, fun heq => absurd heq (hdead _ (by simp))⟩
      rcases List.mem_append.mp hq with hq | hq
      · exact hdata q hq hcont
      · have := (hcarried q (Option.mem_toList.mp hq)).2
        rw [hcont] at this
        cases this
  · rcases heq with heq | heq
    · exact absurd heq (hdead _ (Or.inr (Or.inl rfl)))
    · exact absurd heq (hdead _ (Or.inr (Or.inr (Or.inl rfl))))

/-! ### Packets that arrive -/

/-- Data that carry on from the last packet are queued, with what was waiting behind them. -/
theorem Receive.enqueue (h : Receive e c sent taken) (hopened : c.state = .opened)
    (hp : Carried e sent p) (hdata : isData p.op = true) (hnext : p.pkn = c.rlast + 1) :
    Receive e
      { c with
        rhead := c.rhead ++ (inOrder Packet.pkn c.rlast (p :: c.routorder)).1
        rlast := advance c.rlast (inOrder Packet.pkn c.rlast (p :: c.routorder)).1.length
        routorder := (inOrder Packet.pkn c.rlast (p :: c.routorder)).2 } sent taken := by
  have hall : ∀ q ∈ p :: c.routorder, isData q.op = true ∧ Carried e sent q := by
    intro q hq
    rcases List.mem_cons.mp hq with rfl | hq
    · exact ⟨hdata, hp⟩
    · exact ⟨(h.outorder q hq).1, h.carried q (List.mem_append_right _ hq)⟩
  have hasc : Ascending Packet.pkn (p :: c.routorder) :=
    List.pairwise_cons.mpr
      ⟨fun q hq => by have := (h.outorder q hq).2; omega, h.outorder_asc⟩
  have hlast : ∀ q ∈ p :: c.routorder, c.rlast < q.pkn := by
    intro q hq
    rcases List.mem_cons.mp hq with rfl | hq
    · omega
    · have := (h.outorder q hq).2
      omega
  have hsplit : (inOrder Packet.pkn c.rlast (p :: c.routorder)).1 ++
      (inOrder Packet.pkn c.rlast (p :: c.routorder)).2 = p :: c.routorder := inOrder_append _ _
  have hfollows : Follows Packet.pkn c.rlast (inOrder Packet.pkn c.rlast (p :: c.routorder)).1 :=
    follows_inOrder _ _
  have hgap : ∀ q ∈ (inOrder Packet.pkn c.rlast (p :: c.routorder)).2, _ :=
    fun q hq => gap_of_mem_inOrder hasc hlast hq
  have hrest : Ascending Packet.pkn (inOrder Packet.pkn c.rlast (p :: c.routorder)).2 :=
    hasc.inOrder
  generalize (inOrder Packet.pkn c.rlast (p :: c.routorder)).1 = ordered at *
  generalize (inOrder Packet.pkn c.rlast (p :: c.routorder)).2 = rest at *
  have hordered : ∀ q ∈ ordered, isData q.op = true ∧ Carried e sent q :=
    fun q hq => hall q (hsplit ▸ List.mem_append_left _ hq)
  have hfilter : dataPackets (c.rhead ++ ordered) = dataPackets c.rhead ++ ordered := by
    rw [dataPackets, List.filter_append, List.filter_eq_self.mpr fun q hq => (hordered q hq).1]
    rfl
  have hcount := h.count
  refine
    { h with
      rlast_le := ?_, carried := ?_, ordered := ?_, count := ?_, holds := Or.inr ⟨?_, ?_⟩
      outorder_asc := hrest, outorder := ?_, fresh := ?_ }
  · change c.rlast + (ordered.length : ℤ) ≤ sent.length
    by_cases hnil : ordered = []
    · rw [hnil]
      simpa using h.rlast_le
    · obtain ⟨q, hq, hpkn⟩ := hfollows.exists_last hnil
      have := (hordered q hq).2.pkn_le (contpkt_of_isData (hordered q hq).1)
      omega
  · intro q hq
    rcases List.mem_append.mp hq with hq | hq
    · rcases List.mem_append.mp hq with hq | hq
      · exact h.carried q (List.mem_append_left _ hq)
      · exact (hordered q hq).2
    · exact (hall q (hsplit ▸ List.mem_append_right _ hq)).2
  · dsimp only
    rw [hfilter, follows_append, hcount]
    exact ⟨h.ordered, hfollows⟩
  · dsimp only
    rw [hfilter, List.length_append, advance_int]
    omega
  · intro q hq hcont
    rcases List.mem_append.mp hq with hq | hq
    · rcases h.holds with ⟨-, -, -, -, hnot⟩ | ⟨hheld, -⟩
      · exact absurd hopened hnot
      · exact hheld q hq hcont
    · exact (hordered q hq).1
  · intro heq
    rw [hopened] at heq
    cases heq
  · exact fun q hq => ⟨(hall q (hsplit ▸ List.mem_append_right _ hq)).1, hgap q hq⟩
  · intro heq
    rw [hopened] at heq
    rcases heq with heq | heq <;> cases heq

/-- Data behind a gap wait in their place. -/
theorem Receive.insert (h : Receive e c sent taken) (hopened : c.state = .opened)
    (hp : Carried e sent p) (hdata : isData p.op = true) (hlast : c.rlast < p.pkn)
    (hnext : p.pkn ≠ c.rlast + 1) {routorder : List (Packet ℤ)}
    (hins : insertNew Packet.pkn p c.routorder = some routorder) :
    Receive e { c with routorder := routorder } sent taken := by
  have hperm := perm_of_insertNew hins
  refine
    { h with
      carried := ?_, holds := ?_, outorder_asc := h.outorder_asc.insertNew hins, outorder := ?_
      fresh := ?_ }
  · intro q hq
    rcases List.mem_append.mp hq with hq | hq
    · exact h.carried q (List.mem_append_left _ hq)
    · rcases List.mem_cons.mp (hperm.mem_iff.mp hq) with rfl | hq
      · exact hp
      · exact h.carried q (List.mem_append_right _ hq)
  · exact h.holds
  · intro q hq
    rcases List.mem_cons.mp (hperm.mem_iff.mp hq) with rfl | hq
    · exact ⟨hdata, show c.rlast + 1 < q.pkn by omega⟩
    · exact h.outorder q hq
  · intro heq
    rw [hopened] at heq
    rcases heq with heq | heq <;> cases heq

/-- The first message and no other one is no data. -/
def Opening (sent : List Message) : Prop :=
  ∀ i m, sent[i]? = some m → (isData m.op = false ↔ i = 0)

/-- A numbered packet that is no data has the number 1. -/
theorem Carried.pkn_eq_one (h : Carried e sent p) (hopening : Opening sent)
    (hcont : contpkt p.op = true) (hdata : isData p.op = false) : p.pkn = 1 := by
  obtain ⟨hpos, hmessage⟩ := h.number hcont
  have := (hopening _ _ hmessage).mp hdata
  omega

/-- The first message is nothing that the user reads. -/
theorem Opening.dataOf_take_one (h : Opening sent) : dataOf (sent.take 1) = [] := by
  cases sent with
  | nil => rfl
  | cons m sent =>
    have hm := (h 0 m rfl).mpr rfl
    simp [dataOf, hm]

/-- The OPN that answers our RFC counts as read. -/
theorem Receive.opn (h : Receive e c sent taken) (hstate : c.state = .rfcsent)
    (hopening : Opening sent) (hp : Carried e sent p) (hcont : contpkt p.op = true)
    (hdata : isData p.op = false) {d : Connection ℤ} (hracked : d.racked = c.racked)
    (hread : d.rread = p.pkn) (hlast : d.rlast = p.pkn) (hrhead : d.rhead = c.rhead)
    (hroutorder : d.routorder = c.routorder) (hopened : d.state = .opened) :
    Receive e d sent taken ∧ c.rread ≤ d.rread ∧ c.rlast ≤ d.rlast := by
  have hone := hp.pkn_eq_one hopening hcont hdata
  obtain ⟨hrlast, hnil, hout⟩ := h.fresh (Or.inr hstate)
  have h₁ := h.rread_le
  have h₂ := h.racked_nonneg
  have h₃ := h.racked_le
  have hle := hp.pkn_le hcont
  refine ⟨?_, by omega, by omega⟩
  refine ⟨by omega, by omega, by omega, by omega, ?_, ?_, ?_, Or.inr ?_, ?_, ?_, ?_, ?_, ?_⟩
  · rw [hrhead, hroutorder]
    exact h.carried
  · rw [hrhead, hnil]
    trivial
  · rw [hrhead, hnil, hread, hlast]
    exact add_zero _
  · rw [Connection.HoldsData, hrhead, hnil]
    exact ⟨fun q hq => absurd hq List.not_mem_nil, fun _ => rfl⟩
  · rw [hroutorder]
    exact h.outorder_asc
  · rw [hroutorder, hout]
    exact fun q hq => absurd hq List.not_mem_nil
  · rw [hread, hone, h.taken]
    have hzero : c.rread = 0 := by omega
    rw [hzero]
    exact (hopening.dataOf_take_one).symm
  · intro _
    omega
  · intro heq
    rw [hopened] at heq
    rcases heq with heq | heq <;> cases heq

/-- The RFC that a listener waits for. -/
theorem Receive.lsnmatch (h : Receive e c sent taken) (hstate : c.state = .listen)
    (hopening : Opening sent) (hp : Carried e sent p) (hop : p.op = rfcop)
    (clock myaddr : HalfWord) :
    Receive e (c.lsnmatch clock myaddr p) sent taken ∧
      c.rread ≤ (c.lsnmatch clock myaddr p).rread ∧
      c.rlast ≤ (c.lsnmatch clock myaddr p).rlast := by
  have hcont : contpkt p.op = true := by rw [hop]; decide
  have hdata : isData p.op = false := by rw [hop]; decide
  have hone := hp.pkn_eq_one hopening hcont hdata
  obtain ⟨hrlast, hnil, hout⟩ := h.fresh (Or.inl hstate)
  have h₁ := h.rread_le
  have h₂ := h.racked_nonneg
  have h₃ := h.racked_le
  have hle := hp.pkn_le hcont
  have hfilter : dataPackets [p] = [] := by simp [dataPackets, hdata]
  refine ⟨?_, by change c.rread ≤ p.pkn; omega, by change c.rlast ≤ p.pkn; omega⟩
  refine
    { h with
      racked_le := by change c.racked ≤ p.pkn; omega
      lag := by change 3 * (p.pkn - c.racked) ≤ _; omega
      rlast_le := hle, carried := ?_, ordered := ?_, count := ?_
      holds := Or.inl ⟨p, rfl, hop, rfl, by simp [Connection.lsnmatch]⟩
      outorder := ?_, taken := ?_, begun := ?_, fresh := ?_ }
  · intro q hq
    rcases List.mem_append.mp hq with hq | hq
    · rw [List.mem_singleton.mp hq]
      exact hp
    · exact h.carried q (List.mem_append_right _ hq)
  · change Follows Packet.pkn p.pkn (dataPackets [p])
    rw [hfilter]
    trivial
  · change p.pkn + ((dataPackets [p]).length : ℤ) = p.pkn
    rw [hfilter]
    exact add_zero _
  · change ∀ q ∈ c.routorder, _
    rw [hout]
    exact fun q hq => absurd hq List.not_mem_nil
  · change taken = dataOf (sent.take p.pkn.toNat)
    have hzero : c.rread = 0 := by omega
    rw [hone, h.taken, hzero]
    exact (hopening.dataOf_take_one).symm
  · exact fun _ => hone.ge
  · intro heq
    rcases heq with heq | heq <;> cases heq

/-- The user reads the first packet. -/
theorem Receive.read (h : Receive e c sent taken) {ps : List (Packet ℤ)}
    (hrhead : c.rhead = p :: ps) (hps : d.rhead = ps)
    (hrread : d.rread = if contpkt p.op then p.pkn else c.rread) (hrlast : d.rlast = c.rlast)
    (hroutorder : d.routorder = c.routorder) (hrwsize : d.rwsize = c.rwsize)
    (hstate : d.state = c.state)
    (hracked : d.racked = d.rread ∨
      d.racked = c.racked ∧ 3 * (d.rread - d.racked) ≤ max 3 c.rwsize.toNat) :
    Receive e d sent (taken ++ if isData p.op then [p.message] else []) ∧
      c.rread ≤ d.rread := by
  have hp := h.carried p (List.mem_append_left _ (hrhead ▸ List.mem_cons_self))
  have hordered := h.ordered
  have hcount := h.count
  rw [hrhead] at hordered hcount
  have hnonneg := h.rread_nonneg
  have hfresh : ¬ (c.state = .listen ∨ c.state = .rfcsent) := by
    intro heq
    have hnil := (h.fresh heq).2.1
    rw [hrhead] at hnil
    cases hnil
  -- the numbers after the packet is read
  obtain ⟨hle, hordered', hcount', htaken'⟩ : c.rread ≤ d.rread ∧
      Follows Packet.pkn d.rread (dataPackets ps) ∧
      d.rread + ((dataPackets ps).length : ℤ) = c.rlast ∧
      (taken ++ if isData p.op then [p.message] else []) =
        dataOf (sent.take d.rread.toNat) := by
    cases hdata : isData p.op with
    | true =>
      have hsplit : dataPackets (p :: ps) = p :: dataPackets ps :=
        List.filter_cons_of_pos (p := fun q : Packet ℤ => isData q.op) hdata
      have hcont := contpkt_of_isData hdata
      rw [hsplit] at hordered hcount
      obtain ⟨hpkn, hrest⟩ := hordered
      have hread' : d.rread = c.rread + 1 := by
        rw [hrread, if_pos hcont, hpkn]
      have hmessage := (hp.number hcont).2
      rw [List.length_cons] at hcount
      push_cast at hcount
      refine ⟨by omega, hread' ▸ hrest, by omega, ?_⟩
      have hnat : d.rread.toNat = c.rread.toNat + 1 := by omega
      have hindex : (p.pkn - 1).toNat = c.rread.toNat := by omega
      rw [hindex] at hmessage
      have hkept : [p.message].filter (fun m => isData m.op) = [p.message] :=
        List.filter_eq_self.mpr fun m hm => by rw [List.mem_singleton.mp hm]; exact hdata
      rw [hnat, List.take_add_one, hmessage, h.taken, dataOf, dataOf, List.filter_append,
        if_pos rfl, Option.toList_some, hkept]
    | false =>
      have hsplit : dataPackets (p :: ps) = dataPackets ps :=
        List.filter_cons_of_neg (p := fun q : Packet ℤ => isData q.op) (by simp [hdata])
      have hread' : d.rread = c.rread := by
        rw [hrread]
        split
        · rcases h.holds with ⟨q, hq, -, hpkn, -⟩ | ⟨hheld, -⟩
          · rw [hrhead] at hq
            cases hq
            exact hpkn
          · have := hheld p (hrhead ▸ List.mem_cons_self) (by assumption)
            rw [hdata] at this
            cases this
        · rfl
      rw [hsplit] at hordered hcount
      refine ⟨hread'.ge, hread' ▸ hordered, hread' ▸ hcount, ?_⟩
      rw [hread', ← h.taken]
      exact List.append_nil _
  refine ⟨⟨?_, ?_, ?_, ?_, ?_, ?_, ?_, ?_, ?_, ?_, htaken', ?_, ?_⟩, hle⟩
  · have h₁ := h.racked_nonneg
    omega
  · have h₁ := h.racked_le
    omega
  · rw [hrwsize]
    omega
  · exact hrlast ▸ h.rlast_le
  · rw [hps, hroutorder]
    intro q hq
    refine h.carried q ?_
    rw [hrhead]
    exact List.mem_cons_of_mem p hq
  · rw [hps]
    exact hordered'
  · rw [hps, hrlast]
    exact hcount'
  · refine Or.inr ⟨?_, ?_⟩
    · intro q hq hcont
      rw [hps] at hq
      rcases h.holds with ⟨q', hq', -⟩ | ⟨hheld, -⟩
      · rw [hrhead] at hq'
        cases hq'
        cases hq
      · exact hheld q (hrhead ▸ List.mem_cons_of_mem p hq) hcont
    · intro heq
      rw [hstate] at heq
      rcases h.holds with ⟨q', hq', -⟩ | ⟨-, hheld⟩
      · rw [hrhead] at hq'
        cases hq'
        exact hps
      · have hnil := hheld heq
        rw [hrhead] at hnil
        cases hnil
  · exact hroutorder ▸ h.outorder_asc
  · rw [hroutorder, hrlast]
    exact h.outorder
  · intro heq
    rw [hstate] at heq
    exact (h.begun heq).trans hle
  · intro heq
    rw [hstate] at heq
    exact absurd heq hfresh

/-- The length of the first packet does not matter. -/
theorem Receive.trim (h : Receive e c sent taken) {ps : List (Packet ℤ)} {len : ℕ}
    (hrhead : c.rhead = p :: ps) :
    Receive e { c with rhead := { p with len := len } :: ps } sent taken := by
  have hdata : isData ({ p with len := len } : Packet ℤ).op = isData p.op := rfl
  have hsplit : (dataPackets ({ p with len := len } :: ps)).map Packet.pkn =
      (dataPackets c.rhead).map Packet.pkn := by
    rw [hrhead, dataPackets, dataPackets, List.filter_cons, List.filter_cons, hdata]
    split <;> rfl
  have hlength := congrArg List.length hsplit
  rw [List.length_map, List.length_map] at hlength
  refine { h with carried := ?_, ordered := ?_, count := ?_, holds := ?_, fresh := ?_ }
  · intro q hq
    rcases List.mem_cons.mp hq with rfl | hq
    · have hp := h.carried p (List.mem_append_left _ (hrhead ▸ List.mem_cons_self))
      exact ⟨hp.saddr, hp.daddr, hp.fc, hp.number⟩
    · exact h.carried q (hrhead ▸ List.mem_cons_of_mem p hq)
  · exact (follows_congr hsplit).mpr h.ordered
  · change c.rread + ((dataPackets ({ p with len := len } :: ps)).length : ℤ) = c.rlast
    rw [hlength]
    exact h.count
  · rcases h.holds with ⟨q, hq, hrfc, hpkn, hnot⟩ | ⟨hheld, hnil⟩
    · rw [hrhead] at hq
      cases hq
      exact Or.inl ⟨_, rfl, hrfc, hpkn, hnot⟩
    · refine Or.inr ⟨fun q hq hcont => ?_, fun heq => ?_⟩
      · rcases List.mem_cons.mp hq with rfl | hq
        · exact hheld p (hrhead ▸ List.mem_cons_self) hcont
        · exact hheld q (hrhead ▸ List.mem_cons_of_mem p hq) hcont
      · have := hnil heq
        rw [hrhead] at this
        cases this
  · intro heq
    have := (h.fresh heq).2.1
    rw [hrhead] at this
    cases this

end Usim.Ncp
