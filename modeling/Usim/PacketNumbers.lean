import Usim.ChaosConnection

/-!
# Numbers of outgoing packets

Between two calls of `chaos_allocate_packet` the receive side may move `cn_rlast`
to any value. The numbering that the receivers of the source expect counts the
packets other than `STSOP` modulo 2^16.
-/

namespace Usim

/-- What happens to the numbers of a connection. -/
inductive NumberingEvent
  /-- `chaos_allocate_packet` is called. -/
  | allocate (opcode : Word) (len : ℕ)
  /-- The receive side moves `cn_rlast`. -/
  | receive (rlast : HalfWord)

/-- One call of `chaos_allocate_packet`, with the connection before and after it. -/
structure Allocation where
  opcode : Word
  before : ChaosConnection
  packet : ChaosPacket
  after : ChaosConnection

/-- The packet is no status packet, so it takes a number of its own. -/
def Allocation.Counts (a : Allocation) : Prop := a.opcode ≠ stsop

instance : DecidablePred Allocation.Counts :=
  fun a => inferInstanceAs (Decidable (a.opcode ≠ stsop))

/-- How many of the packets take a number. -/
def counted (as : List Allocation) : ℕ := as.countP (·.Counts)

namespace ChaosConnection

/-- One call, recorded. -/
def allocation (c : ChaosConnection) (opcode : Word) (len : ℕ) : Allocation :=
  { opcode := opcode, before := c, packet := (c.allocatePacket opcode len).1
    after := (c.allocatePacket opcode len).2 }

/-- The calls of a run. -/
def allocations (c : ChaosConnection) : List NumberingEvent → List Allocation
  | [] => []
  | .allocate opcode len :: es =>
    c.allocation opcode len :: (c.allocatePacket opcode len).2.allocations es
  | .receive rlast :: es => { c with rlast := rlast }.allocations es

/-- The number given is never 0. -/
theorem nextNumber_ne_zero (c : ChaosConnection) (opcode : Word) : c.nextNumber opcode ≠ 0 := by
  unfold nextNumber
  generalize (if opcode = stsop then c.packetnumber else c.packetnumber + 1) = number
  simp only
  split
  · decide
  · assumption

/-- A status packet repeats the connection's number, unless that is 0. -/
theorem nextNumber_sts {c : ChaosConnection} (h : c.packetnumber ≠ 0) :
    c.nextNumber stsop = c.packetnumber := by
  simp only [nextNumber, if_true, if_neg h]

/-- Any other packet takes the successor, unless that is 0. -/
theorem nextNumber_of_ne {c : ChaosConnection} {opcode : Word} (hop : opcode ≠ stsop)
    (h : c.packetnumber + 1 ≠ 0) : c.nextNumber opcode = c.packetnumber + 1 := by
  simp only [nextNumber, if_neg hop, if_neg h]

/-- Up to the first call the number of the connection does not change. -/
theorem allocations_cons {c : ChaosConnection} {es : List NumberingEvent} {a : Allocation}
    {as : List Allocation} (h : c.allocations es = a :: as) :
    ∃ (c' : ChaosConnection) (opcode : Word) (len : ℕ) (es' : List NumberingEvent),
      c'.packetnumber = c.packetnumber ∧ a = c'.allocation opcode len ∧
        as = (c'.allocatePacket opcode len).2.allocations es' := by
  induction es generalizing c with
  | nil => cases h
  | cons e es ih =>
    cases e with
    | allocate opcode len =>
      obtain ⟨ha, has⟩ := List.cons_eq_cons.mp h
      exact ⟨c, opcode, len, es, rfl, ha.symm, has.symm⟩
    | receive rlast => exact ih (c := { c with rlast := rlast }) h

end ChaosConnection

/-- The opcodes of the calls. -/
def opcodes : List NumberingEvent → List Word
  | [] => []
  | .allocate opcode _ :: es => opcode :: opcodes es
  | .receive _ :: es => opcodes es

/-- The calls of a run are those of its events. -/
theorem map_opcode_allocations (c : ChaosConnection) (es : List NumberingEvent) :
    (c.allocations es).map (·.opcode) = opcodes es := by
  induction es generalizing c with
  | nil => rfl
  | cons e es ih =>
    cases e with
    | allocate opcode len => exact congrArg (opcode :: ·) (ih _)
    | receive rlast => exact ih _

/-- The packets that count, by the opcodes. -/
theorem counted_allocations (c : ChaosConnection) (es : List NumberingEvent) :
    counted (c.allocations es) = (opcodes es).countP (· ≠ stsop) := by
  rw [← map_opcode_allocations c, List.countP_map]
  rfl

/-- One more packet that counts. -/
theorem counted_cons_of_counts {a : Allocation} (h : a.Counts) (as : List Allocation) :
    counted (a :: as) = counted as + 1 :=
  List.countP_cons_of_pos (decide_eq_true h)

/-- A status packet does not count. -/
theorem counted_cons_of_not {a : Allocation} (h : ¬a.Counts) (as : List Allocation) :
    counted (a :: as) = counted as :=
  List.countP_cons_of_neg (by simpa using h)

/-- Two parts of a run are counted apart. -/
theorem counted_append (as bs : List Allocation) :
    counted (as ++ bs) = counted as + counted bs :=
  List.countP_append

/-- Status packets only. -/
theorem counted_eq_zero {as : List Allocation} (h : ∀ a ∈ as, ¬a.Counts) : counted as = 0 :=
  List.countP_eq_zero.mpr fun a ha => by simpa using h a ha

/-- Every count below the last is reached just before a packet that counts. -/
theorem exists_counted {as : List Allocation} {m : ℕ} (h : m < counted as) :
    ∃ before a after, as = before ++ a :: after ∧ a.Counts ∧ counted before = m := by
  induction as generalizing m with
  | nil => exact absurd h (Nat.not_lt_zero m)
  | cons a as ih =>
    by_cases ha : a.Counts
    · cases m with
      | zero => exact ⟨[], a, as, rfl, ha, rfl⟩
      | succ m =>
        rw [counted_cons_of_counts ha] at h
        obtain ⟨before, b, after, rfl, hb, hm⟩ := ih (Nat.lt_of_succ_lt_succ h)
        exact ⟨a :: before, b, after, rfl, hb, by rw [counted_cons_of_counts ha, hm]⟩
    · rw [counted_cons_of_not ha] at h
      obtain ⟨before, b, after, rfl, hb, hm⟩ := ih h
      exact ⟨a :: before, b, after, rfl, hb, by rw [counted_cons_of_not ha, hm]⟩

/-- The numbering of the packets of a run: the `k`-th packet that counts carries `k`
modulo 2^16, a status packet carries the number of the latest one that counts and
leaves the connection's number, and each acknowledges the last packet received. -/
structure Numbered (as : List Allocation) : Prop where
  counts : ∀ before a after, as = before ++ a :: after → a.Counts →
    a.packet.pkn = BitVec.ofNat 16 (counted before + 1)
  consecutive : ∀ before a between b after, as = before ++ a :: (between ++ b :: after) →
    a.Counts → (∀ s ∈ between, ¬s.Counts) → b.Counts → b.packet.pkn = a.packet.pkn + 1
  status : ∀ before a between b after, as = before ++ a :: (between ++ b :: after) →
    a.Counts → (∀ s ∈ between, ¬s.Counts) → ¬b.Counts → b.packet.pkn = a.packet.pkn
  unconsumed : ∀ a ∈ as, ¬a.Counts → a.after.packetnumber = a.before.packetnumber
  acknowledges : ∀ a ∈ as, a.packet.ackn = a.before.rlast

/-- The calls do not begin with a status packet, and at most 65535 packets count. -/
def NumbersLast (es : List NumberingEvent) : Prop :=
  (opcodes es).head? ≠ some stsop ∧ (opcodes es).countP (· ≠ stsop) < 65536

/-- A number below 65536 that is not 0 does not wrap. -/
theorem ofNat_ne_zero {n : ℕ} (hn : n ≠ 0) (h : n < 65536) : BitVec.ofNat 16 n ≠ 0 := by
  intro h0
  have := congrArg BitVec.toNat h0
  simp only [BitVec.toNat_ofNat, BitVec.ofNat_eq_ofNat] at this
  omega

/-- Below 65536, and unless a status packet comes first, the number given is the count
of the packets so far. -/
theorem nextNumber_eq {c : ChaosConnection} {opcode : Word} {len n : ℕ}
    (hc : c.packetnumber = BitVec.ofNat 16 n) (hfirst : n = 0 → opcode ≠ stsop)
    (hlast : n + counted [c.allocation opcode len] < 65536) :
    c.nextNumber opcode = BitVec.ofNat 16 (n + counted [c.allocation opcode len]) := by
  by_cases hop : opcode = stsop
  · have hone : counted [c.allocation opcode len] = 0 :=
      counted_cons_of_not (not_not.mpr hop) []
    have hn : n ≠ 0 := fun h0 => hfirst h0 hop
    rw [hone, Nat.add_zero] at hlast ⊢
    rw [hop, ChaosConnection.nextNumber_sts (hc ▸ ofNat_ne_zero hn hlast), hc]
  · have hone : counted [c.allocation opcode len] = 1 :=
      counted_cons_of_counts (a := c.allocation opcode len) hop []
    rw [hone] at hlast ⊢
    have hsucc : c.packetnumber + 1 = BitVec.ofNat 16 (n + 1) := by
      rw [hc, BitVec.ofNat_add]
      rfl
    rw [ChaosConnection.nextNumber_of_ne hop
      (hsucc ▸ ofNat_ne_zero (Nat.succ_ne_zero n) hlast), hsucc]

/-- The number of each packet of a run, and of the connection before it, from the
number `n` of packets that counted before the run. -/
theorem allocations_number {c : ChaosConnection} {es : List NumberingEvent} {n : ℕ}
    {before : List Allocation} {a : Allocation} {after : List Allocation}
    (hc : c.packetnumber = BitVec.ofNat 16 n) (h : c.allocations es = before ++ a :: after)
    (hfirst : n = 0 → ∀ b ∈ (c.allocations es).head?, b.Counts)
    (hlast : n + counted (before ++ [a]) < 65536) :
    a.before.packetnumber = BitVec.ofNat 16 (n + counted before) ∧
      a.packet.pkn = BitVec.ofNat 16 (n + counted (before ++ [a])) := by
  induction before generalizing c es n with
  | nil =>
    obtain ⟨c', opcode, len, es', hnumber, rfl, -⟩ := ChaosConnection.allocations_cons h
    rw [h] at hfirst
    have hc' : c'.packetnumber = BitVec.ofNat 16 n := hnumber.trans hc
    exact ⟨hc', nextNumber_eq hc' (fun h0 => hfirst h0 _ rfl) hlast⟩
  | cons b before ih =>
    obtain ⟨c', opcode, len, es', hnumber, hb, htail⟩ := ChaosConnection.allocations_cons h
    rw [h] at hfirst
    have hc' : c'.packetnumber = BitVec.ofNat 16 n := hnumber.trans hc
    have hsplit (as : List Allocation) : counted (b :: as) = counted [b] + counted as :=
      counted_append [b] as
    rw [List.cons_append, hsplit (before ++ [a]), ← Nat.add_assoc] at hlast ⊢
    rw [hsplit before, ← Nat.add_assoc]
    have hcounts : n = 0 → b.Counts := fun h0 => hfirst h0 b rfl
    have hnext : (c'.allocatePacket opcode len).2.packetnumber =
        BitVec.ofNat 16 (n + counted [b]) := by
      subst hb
      exact nextNumber_eq hc' hcounts (by omega)
    refine ih hnext htail.symm (fun h0 => ?_) hlast
    -- a first packet counts, so the count is not 0 after it
    have hone : counted [b] = 1 := counted_cons_of_counts (hcounts (by omega)) []
    omega

/-- Every record of a run is a call on some connection. -/
theorem exists_eq_allocation {c : ChaosConnection} {es : List NumberingEvent} {a : Allocation}
    (h : a ∈ c.allocations es) :
    ∃ (c' : ChaosConnection) (opcode : Word) (len : ℕ), a = c'.allocation opcode len := by
  induction es generalizing c with
  | nil => cases h
  | cons e es ih =>
    cases e with
    | allocate opcode len =>
      rcases List.mem_cons.mp h with rfl | h
      · exact ⟨c, opcode, len, rfl⟩
      · exact ih h
    | receive rlast => exact ih (c := { c with rlast := rlast }) h

/-- Under the condition, the calls on a new connection are numbered. -/
theorem numbered_of_numbersLast {serveraddr index : HalfWord} {es : List NumberingEvent}
    (h : NumbersLast es) : Numbered ((allconn serveraddr index).allocations es) := by
  set c := allconn serveraddr index with hc
  have hzero : c.packetnumber = BitVec.ofNat 16 0 := rfl
  have hfirst : ∀ b ∈ (c.allocations es).head?, b.Counts := by
    intro b hb hsts
    have hhead := congrArg List.head? (map_opcode_allocations c es)
    rw [List.head?_map, Option.mem_def.mp hb, Option.map_some, hsts] at hhead
    exact h.1 hhead.symm
  have hlast : counted (c.allocations es) < 65536 := (counted_allocations c es).trans_lt h.2
  have hnumber {before : List Allocation} {a : Allocation} {after : List Allocation}
      (hsplit : c.allocations es = before ++ a :: after) :
      a.before.packetnumber = BitVec.ofNat 16 (counted before) ∧
        a.packet.pkn = BitVec.ofNat 16 (counted (before ++ [a])) := by
    have hle : counted (before ++ [a]) ≤ counted (c.allocations es) := by
      rw [hsplit, List.append_cons before a after, counted_append _ after]
      exact Nat.le_add_right _ _
    simpa using allocations_number hzero hsplit (fun _ => hfirst) (by omega)
  have hone {a : Allocation} (ha : a.Counts) : counted [a] = 1 := counted_cons_of_counts ha []
  have hnone {a : Allocation} (ha : ¬a.Counts) : counted [a] = 0 := counted_cons_of_not ha []
  have hrun {before : List Allocation} {a : Allocation} {between : List Allocation}
      (ha : a.Counts) (hsts : ∀ s ∈ between, ¬s.Counts) :
      counted (before ++ a :: between) = counted (before ++ [a]) := by
    rw [List.append_cons before a between, counted_append _ between, counted_eq_zero hsts,
      Nat.add_zero]
  constructor
  case counts =>
    intro before a after hsplit ha
    rw [(hnumber hsplit).2, counted_append, hone ha]
  case consecutive =>
    intro before a between b after hsplit ha hsts hb
    have hsplit' : c.allocations es = (before ++ a :: between) ++ b :: after := by
      rw [hsplit, List.append_assoc, List.cons_append]
    rw [(hnumber hsplit).2, (hnumber hsplit').2, counted_append, hone hb, hrun ha hsts,
      BitVec.ofNat_add]
    rfl
  case status =>
    intro before a between b after hsplit ha hsts hb
    have hsplit' : c.allocations es = (before ++ a :: between) ++ b :: after := by
      rw [hsplit, List.append_assoc, List.cons_append]
    rw [(hnumber hsplit).2, (hnumber hsplit').2, counted_append, hnone hb, hrun ha hsts,
      Nat.add_zero]
  case unconsumed =>
    intro a ha hsts
    obtain ⟨before, after, hsplit⟩ := List.append_of_mem ha
    obtain ⟨c', opcode, len, rfl⟩ := exists_eq_allocation ha
    refine ((hnumber hsplit).2.trans ?_).trans (hnumber hsplit).1.symm
    rw [counted_append, hnone hsts, Nat.add_zero]
  case acknowledges =>
    intro a ha
    obtain ⟨c', opcode, len, rfl⟩ := exists_eq_allocation ha
    rfl

/-- Numbered calls meet the condition: no packet carries 0, which both the 65536th packet
that counts and a status packet before all others would have to. -/
theorem numbersLast_of_numbered {serveraddr index : HalfWord} {es : List NumberingEvent}
    (h : Numbered ((allconn serveraddr index).allocations es)) : NumbersLast es := by
  set c := allconn serveraddr index with hc
  constructor
  · intro hhead
    rw [← map_opcode_allocations c, List.head?_map] at hhead
    obtain ⟨a, ha, hsts⟩ := Option.map_eq_some_iff.mp hhead
    obtain ⟨as, has⟩ := List.head?_eq_some_iff.mp ha
    obtain ⟨c', opcode, len, es', hnumber, rfl, -⟩ := ChaosConnection.allocations_cons has
    -- the connection's number is 0 before the status packet and not after it
    have hkept := h.unconsumed _ (List.mem_of_mem_head? ha) (not_not.mpr hsts)
    exact c'.nextNumber_ne_zero opcode (hkept.trans hnumber)
  · rw [← counted_allocations c]
    by_contra hmany
    obtain ⟨before, a, after, hsplit, ha, hcount⟩ :=
      exists_counted (m := 65535) (by omega : 65535 < counted (c.allocations es))
    have hmem : a ∈ c.allocations es := by rw [hsplit]; simp
    obtain ⟨c', opcode, len, rfl⟩ := exists_eq_allocation hmem
    have hzero := h.counts before _ after hsplit ha
    rw [hcount] at hzero
    exact c'.nextNumber_ne_zero opcode hzero

/-- The packets of a connection are numbered in exactly those runs in which no status
packet comes first and at most 65535 packets take a number. -/
theorem packets_numbered (serveraddr index : HalfWord) (es : List NumberingEvent) :
    Numbered ((allconn serveraddr index).allocations es) ↔ NumbersLast es :=
  ⟨numbersLast_of_numbered, numbered_of_numbersLast⟩

/-- The opcodes of a repeated call. -/
theorem opcodes_replicate (n : ℕ) (opcode : Word) (len : ℕ) :
    opcodes (List.replicate n (.allocate opcode len)) = List.replicate n opcode := by
  induction n with
  | zero => rfl
  | succ n ih => exact congrArg (opcode :: ·) ih

/-- The last of 65536 data packets carries 1 where 0 is due. -/
theorem packets_numbered_wrap : ¬Numbered ((allconn 0o177001 0o401).allocations
    (List.replicate 65536 (.allocate 0o300 488))) := by
  intro h
  have hlast := (numbersLast_of_numbered h).2
  rw [opcodes_replicate, List.countP_replicate, if_pos (by decide)] at hlast
  exact Nat.lt_irrefl _ hlast

/-- A status packet before the `OPNOP` of a new connection consumes number 1. -/
example : ((allconn 0o177001 0o401).allocations [.allocate stsop 4, .allocate 0o2 4]).map
    (·.packet.pkn) = [1, 2] := by decide

end Usim
