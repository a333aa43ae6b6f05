import Mathlib.Data.List.FinRange
import Mathlib.Logic.Function.Basic
import Usim.ChaosConnection
import Usim.Lib.Runs

/-!
# The connection table

`allconn` and `rlsconn` of `chutil.c`, with `SELECT`, and the search for a connection by
its local index. The record numbers the allocations, and keeps for every slot which of
them its connection is from.
-/

namespace Usim

/-- `CHNCONNS`. -/
abbrev chnconns : ℕ := 20

/-- `Chconntab`, and the static variable of `allconn`. -/
structure ConnectionTable where
  chconntab : Fin chnconns → Option ChaosConnection
  index : HalfWord

namespace ConnectionTable

variable {t : ConnectionTable} {i j : Fin chnconns}

def start : ConnectionTable := { chconntab := fun _ => none, index := 0x0101 }

/-- The slot that the loop of `allconn` stops at. -/
def freeSlot (t : ConnectionTable) : Option (Fin chnconns) :=
  (List.finRange chnconns).find? fun i => (t.chconntab i).isNone

/-- The next connection is put into a slot. -/
def allocate (serveraddr : HalfWord) (i : Fin chnconns) (t : ConnectionTable) : ConnectionTable :=
  { chconntab := Function.update t.chconntab i (some (Usim.allconn serveraddr t.index))
    index := t.index + 0x0100 }

/-- `allconn`, for which `connalloc` returns memory or does not. -/
def allconn (serveraddr : HalfWord) (memory : Bool) (t : ConnectionTable) : ConnectionTable :=
  match t.freeSlot with
  | none => t
  | some i => if memory then t.allocate serveraddr i else t

/-- `rlsconn`, of the connection in slot `i`. -/
def rlsconn (i : Fin chnconns) (t : ConnectionTable) : ConnectionTable :=
  { t with chconntab := Function.update t.chconntab i none }

/-- `chaos_find_connection`, with the slot of the connection that it returns. -/
def chaosFindConnection (index : HalfWord) (t : ConnectionTable) : Option (Fin chnconns) :=
  (List.finRange chnconns).find? fun i => (t.chconntab i).any fun conn => conn.lidx = index

/-- The local indices tell the connections apart. -/
structure Identifies (t : ConnectionTable) : Prop where
  nonzero : ∀ i conn, t.chconntab i = some conn → conn.lidx ≠ 0
  distinct : ∀ i j conn conn', t.chconntab i = some conn → t.chconntab j = some conn' →
    conn.lidx = conn'.lidx → i = j
  found : ∀ i conn, t.chconntab i = some conn → t.chaosFindConnection conn.lidx = some i

theorem eq_none_of_freeSlot (h : t.freeSlot = some i) : t.chconntab i = none := by
  have hi := List.find?_some (p := fun i => (t.chconntab i).isNone) h
  exact Option.isNone_iff_eq_none.mp hi

theorem chconntab_allocate_self (serveraddr : HalfWord) :
    (t.allocate serveraddr i).chconntab i = some (Usim.allconn serveraddr t.index) :=
  Function.update_self _ _ _

theorem chconntab_allocate_of_ne (serveraddr : HalfWord) (h : j ≠ i) :
    (t.allocate serveraddr i).chconntab j = t.chconntab j := Function.update_of_ne h _ _

theorem chconntab_rlsconn {conn : ChaosConnection} (h : (t.rlsconn i).chconntab j = some conn) :
    t.chconntab j = some conn := by
  change Function.update t.chconntab i none j = _ at h
  by_cases hj : j = i
  · rw [hj, Function.update_self] at h
    cases h
  · rwa [Function.update_of_ne hj] at h

/-- If the indices are distinct, the search finds the connection itself. -/
theorem chaosFindConnection_eq
    (hdistinct : ∀ i j conn conn', t.chconntab i = some conn → t.chconntab j = some conn' →
      conn.lidx = conn'.lidx → i = j) {conn : ChaosConnection} (h : t.chconntab i = some conn) :
    t.chaosFindConnection conn.lidx = some i := by
  unfold chaosFindConnection
  cases hfind : (List.finRange chnconns).find?
      (fun j => (t.chconntab j).any fun conn' => conn'.lidx = conn.lidx) with
  | none =>
    have hnone := List.find?_eq_none.mp hfind i (List.mem_finRange i)
    rw [h] at hnone
    exact absurd (decide_eq_true rfl) hnone
  | some j =>
    have hj := List.find?_some hfind
    cases hconn : t.chconntab j with
    | none =>
      rw [hconn] at hj
      cases hj
    | some conn' =>
      rw [hconn] at hj
      exact congrArg some (hdistinct j i conn' conn hconn h (of_decide_eq_true hj))

end ConnectionTable

/-- The local index of allocation `n`. -/
def allocatedIndex (n : ℕ) : HalfWord := 0x0101 + 0x0100 * BitVec.ofNat 16 n

theorem toNat_allocatedIndex (n : ℕ) : (allocatedIndex n).toNat = (257 + 256 * n) % 65536 := by
  unfold allocatedIndex
  rw [BitVec.toNat_add, BitVec.toNat_mul, BitVec.toNat_ofNat]
  simp only [BitVec.reduceToNat]
  omega

theorem allocatedIndex_ne_zero (n : ℕ) : allocatedIndex n ≠ 0 := by
  intro h
  have hn := toNat_allocatedIndex n
  rw [h] at hn
  change 0 = (257 + 256 * n) % 65536 at hn
  omega

/-- The index comes again after 256 allocations. -/
theorem allocatedIndex_inj {m n : ℕ} : allocatedIndex m = allocatedIndex n ↔ m % 256 = n % 256 := by
  rw [← BitVec.toNat_inj, toNat_allocatedIndex, toNat_allocatedIndex]
  omega

theorem allocatedIndex_succ (n : ℕ) : allocatedIndex (n + 1) = allocatedIndex n + 0x0100 := by
  apply BitVec.eq_of_toNat_eq
  rw [BitVec.toNat_add, toNat_allocatedIndex, toNat_allocatedIndex]
  simp only [BitVec.reduceToNat]
  omega

/-- What happens to the table. -/
inductive TableEvent
  | allconn (memory : Bool)
  | rlsconn (i : Fin chnconns)

/-- The table, the number of allocations so far, and the one that each slot is from. -/
structure TableRun where
  table : ConnectionTable
  allocations : ℕ
  allocation : Fin chnconns → ℕ

namespace TableRun

variable {s : TableRun} {e : TableEvent} {es : List TableEvent} {serveraddr : HalfWord}

def start : TableRun := { table := .start, allocations := 0, allocation := fun _ => 0 }

/-- One event. -/
def next (serveraddr : HalfWord) (e : TableEvent) (s : TableRun) : TableRun :=
  match e with
  | .allconn memory =>
    match memory, s.table.freeSlot with
    | true, some i =>
      { table := s.table.allconn serveraddr memory
        allocations := s.allocations + 1
        allocation := Function.update s.allocation i s.allocations }
    | _, _ => { s with table := s.table.allconn serveraddr memory }
  | .rlsconn i => { s with table := s.table.rlsconn i }

/-- One event, as a step of a run. -/
def step (serveraddr : HalfWord) (e : TableEvent) (s : TableRun) : Except Empty TableRun :=
  .ok (s.next serveraddr e)

/-- No connection in the table is from an allocation that many times 256 before. -/
def Unwrapped : TableEvent → TableRun → Prop
  | .allconn memory, s => memory = true → s.table.freeSlot.isSome →
    ∀ i, (s.table.chconntab i).isSome → ¬256 ∣ s.allocations - s.allocation i
  | .rlsconn _, _ => True

/-- The record and the table belong together. -/
structure Numbered (s : TableRun) : Prop where
  index : s.table.index = allocatedIndex s.allocations
  lidx : ∀ i conn, s.table.chconntab i = some conn →
    conn.lidx = allocatedIndex (s.allocation i) ∧ s.allocation i < s.allocations

/-- The indices in the table are distinct. -/
def Distinct (s : TableRun) : Prop :=
  ∀ i j, (s.table.chconntab i).isSome → (s.table.chconntab j).isSome →
    s.allocation i % 256 = s.allocation j % 256 → i = j

theorem Numbered.identifies_iff (h : Numbered s) : s.table.Identifies ↔ s.Distinct := by
  constructor
  · intro hid i j hi hj hmod
    obtain ⟨conn, hi⟩ := Option.isSome_iff_exists.mp hi
    obtain ⟨conn', hj⟩ := Option.isSome_iff_exists.mp hj
    refine hid.distinct i j conn conn' hi hj ?_
    rw [(h.lidx i conn hi).1, (h.lidx j conn' hj).1]
    exact allocatedIndex_inj.mpr hmod
  · intro hdistinct
    have hne : ∀ i j conn conn', s.table.chconntab i = some conn →
        s.table.chconntab j = some conn' → conn.lidx = conn'.lidx → i = j := by
      intro i j conn conn' hi hj heq
      rw [(h.lidx i conn hi).1, (h.lidx j conn' hj).1] at heq
      exact hdistinct i j (Option.isSome_iff_exists.mpr ⟨conn, hi⟩)
        (Option.isSome_iff_exists.mpr ⟨conn', hj⟩) (allocatedIndex_inj.mp heq)
    refine ⟨fun i conn hi => ?_, hne, fun i conn hi =>
      ConnectionTable.chaosFindConnection_eq hne hi⟩
    rw [(h.lidx i conn hi).1]
    exact allocatedIndex_ne_zero _

theorem numbered_start : Numbered start :=
  ⟨by decide, fun _ _ hi => nomatch hi⟩

theorem distinct_start : Distinct start := fun _ _ hi => nomatch hi

/-- The event allocates a connection in slot `i`, or leaves the table, or frees a slot. -/
theorem next_cases (e : TableEvent) (s : TableRun) :
    (∃ i, e = .allconn true ∧ s.table.freeSlot = some i ∧ s.next serveraddr e =
      { table := s.table.allocate serveraddr i
        allocations := s.allocations + 1
        allocation := Function.update s.allocation i s.allocations }) ∨
    (∃ memory, e = .allconn memory ∧ (memory = false ∨ s.table.freeSlot = none) ∧
      s.next serveraddr e = s) ∨
    ∃ i, e = .rlsconn i ∧ s.next serveraddr e = { s with table := s.table.rlsconn i } := by
  cases e with
  | rlsconn i => exact Or.inr (Or.inr ⟨i, rfl, rfl⟩)
  | allconn memory =>
    cases hfree : s.table.freeSlot with
    | none =>
      refine Or.inr (Or.inl ⟨memory, rfl, Or.inr rfl, ?_⟩)
      cases memory <;> simp only [next, ConnectionTable.allconn, hfree]
    | some i =>
      cases memory with
      | true =>
        refine Or.inl ⟨i, rfl, rfl, ?_⟩
        simp only [next, ConnectionTable.allconn, hfree, if_true]
      | false =>
        refine Or.inr (Or.inl ⟨false, rfl, Or.inl rfl, ?_⟩)
        simp only [next, ConnectionTable.allconn, hfree, Bool.false_eq_true, if_false]

/-- Every event keeps the record. -/
theorem Numbered.next (h : Numbered s) (e : TableEvent) : Numbered (s.next serveraddr e) := by
  obtain ⟨i, -, -, hnext⟩ | ⟨_, -, -, hnext⟩ | ⟨i, -, hnext⟩ :=
    @next_cases serveraddr e s
  · rw [hnext]
    refine ⟨?_, fun j conn hj => ?_⟩
    · change s.table.index + 0x0100 = _
      rw [h.index, allocatedIndex_succ]
    · dsimp only at hj ⊢
      by_cases hji : j = i
      · subst hji
        rw [ConnectionTable.chconntab_allocate_self] at hj
        cases hj
        rw [Function.update_self]
        exact ⟨h.index, Nat.lt_succ_self _⟩
      · rw [ConnectionTable.chconntab_allocate_of_ne _ hji] at hj
        obtain ⟨hlidx, hlt⟩ := h.lidx j conn hj
        rw [Function.update_of_ne hji]
        exact ⟨hlidx, Nat.lt_succ_of_lt hlt⟩
  · rw [hnext]
    exact h
  · rw [hnext]
    exact ⟨h.index, fun j conn hj => h.lidx j conn (ConnectionTable.chconntab_rlsconn hj)⟩

/-- The allocation of slot `i` leaves the indices distinct exactly if none in the table comes
again. -/
theorem Numbered.distinct_allocate (h : Numbered s) (hdistinct : Distinct s) {i : Fin chnconns}
    (hfree : s.table.chconntab i = none) :
    Distinct { table := s.table.allocate serveraddr i
               allocations := s.allocations + 1
               allocation := Function.update s.allocation i s.allocations } ↔
      ∀ j, (s.table.chconntab j).isSome → ¬256 ∣ s.allocations - s.allocation j := by
  have hlive : ∀ j, j ≠ i → (s.table.allocate serveraddr i).chconntab j =
      s.table.chconntab j := fun j hj => ConnectionTable.chconntab_allocate_of_ne serveraddr hj
  have hnew : ((s.table.allocate serveraddr i).chconntab i).isSome := by
    rw [ConnectionTable.chconntab_allocate_self]
    rfl
  have hne : ∀ j, (s.table.chconntab j).isSome → j ≠ i := by
    rintro j hj rfl
    rw [hfree] at hj
    cases hj
  have hlt : ∀ j, (s.table.chconntab j).isSome → s.allocation j < s.allocations := by
    intro j hj
    obtain ⟨conn, hj⟩ := Option.isSome_iff_exists.mp hj
    exact (h.lidx j conn hj).2
  constructor
  · intro hall j hj hdvd
    have hji := hne j hj
    have hlt := hlt j hj
    refine hji (hall j i (by rw [hlive j hji]; exact hj) hnew ?_)
    dsimp only
    rw [Function.update_of_ne hji, Function.update_self]
    omega
  · intro hcond j k hj hk hmod
    dsimp only at hj hk hmod
    by_cases hji : j = i
    · by_cases hki : k = i
      · rw [hji, hki]
      · rw [hlive k hki] at hk
        rw [hji, Function.update_self, Function.update_of_ne hki] at hmod
        have hlt := hlt k hk
        exact absurd ((Nat.modEq_iff_dvd' hlt.le).mp hmod.symm) (hcond k hk)
    · rw [hlive j hji] at hj
      have hlt := hlt j hj
      by_cases hki : k = i
      · rw [hki, Function.update_self, Function.update_of_ne hji] at hmod
        exact absurd ((Nat.modEq_iff_dvd' hlt.le).mp hmod) (hcond j hj)
      · rw [hlive k hki] at hk
        rw [Function.update_of_ne hji, Function.update_of_ne hki] at hmod
        exact hdistinct j k hj hk hmod

/-- One event leaves the indices distinct exactly if it meets the condition. -/
theorem Numbered.distinct_iff (h : Numbered s) (hdistinct : Distinct s) (e : TableEvent) :
    (s.next serveraddr e).Distinct ↔ Unwrapped e s := by
  obtain ⟨i, rfl, hfree, hnext⟩ | ⟨memory, rfl, hnone, hnext⟩ | ⟨i, rfl, hnext⟩ :=
    @next_cases serveraddr e s
  · rw [hnext, h.distinct_allocate hdistinct (ConnectionTable.eq_none_of_freeSlot hfree)]
    simp only [Unwrapped, hfree, Option.isSome_some, true_imp_iff]
  · rw [hnext]
    refine ⟨fun _ hmemory hsome => ?_, fun _ => hdistinct⟩
    obtain hnone | hnone := hnone
    · rw [hnone] at hmemory
      cases hmemory
    · rw [hnone] at hsome
      cases hsome
  · rw [hnext]
    have hlive : ∀ j, ((s.table.rlsconn i).chconntab j).isSome → (s.table.chconntab j).isSome := by
      intro j hj
      obtain ⟨conn, hj⟩ := Option.isSome_iff_exists.mp hj
      exact Option.isSome_iff_exists.mpr ⟨conn, ConnectionTable.chconntab_rlsconn hj⟩
    exact ⟨fun _ => trivial, fun _ j k hj hk => hdistinct j k (hlive j hj) (hlive k hk)⟩

/-- In every run of the table the indices tell the connections apart in every state if and
only if no allocation gives out the index of a connection in the table again. -/
theorem always_identifies : Lib.Always (step serveraddr) (fun s => s.table.Identifies) es start ↔
    Lib.EveryStep (step serveraddr) Unwrapped es start := by
  refine Lib.always_iff_everyStep (I := fun s => Numbered s ∧ Distinct s)
    (fun s hs => hs.1.identifies_iff.mpr hs.2) ?_ ?_ ⟨numbered_start, distinct_start⟩
  · rintro e s s' ⟨hs, hdistinct⟩ hstep hc
    cases hstep
    exact ⟨hs.next e, (hs.distinct_iff hdistinct e).mpr hc⟩
  · rintro e s s' ⟨hs, hdistinct⟩ hstep hid
    cases hstep
    exact (hs.distinct_iff hdistinct e).mp ((hs.next e).identifies_iff.mp hid)

end TableRun

end Usim
