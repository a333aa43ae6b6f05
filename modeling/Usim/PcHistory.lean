import Usim.StateFile

/-!
# The history of micro PCs

`record_pc_history` and `show_pc_history` of `dump.c`. Of a line that is printed its entry is kept
and whether the instruction is disassembled.
-/

namespace Usim

/-- An entry of `pc_history`. -/
structure PcEntry where
  pc : Word
  pcImem : Bool
  deriving DecidableEq

/-- A subscript of `pc_history` at or beyond `MAX_PC_HISTORY`. -/
inductive PcHistoryFault
  | subscript (i : BitVec 64)
  deriving DecidableEq

/-- `pc_history` and `pc_history_head`. -/
abbrev PcHistory := RingHistory PcEntry 4096

/-- A line of `show_pc_history`. -/
structure PcLine where
  entry : PcEntry
  /-- The line is followed by `disassemble_pc2`. -/
  disassembled : Bool

namespace PcHistory

/-- The history at the start. -/
def empty : PcHistory := ⟨fun _ => ⟨0, false⟩, 0⟩

/-- `record_pc_history`. -/
def record (h : PcHistory) (e : PcEntry) : Except PcHistoryFault PcHistory :=
  if hlt : h.head.toNat < 4096 then
    .ok ⟨Function.update h.entries ⟨h.head.toNat, hlt⟩ e, (h.head + 1) % 4096⟩
  else .error (.subscript h.head)

/-- The history after a number of calls. -/
def recorded (calls : List PcEntry) : Except PcHistoryFault PcHistory :=
  calls.foldlM record empty

/-- Where the loop of `show_pc_history` begins. -/
def start (h : PcHistory) (length : BitVec 64) : BitVec 64 :=
  if 0 < length then
    let head := h.head - length
    -- a `size_t` is never negative
    if head < 0 then head + 4096 else head
  else h.head

/-- The loop of `show_pc_history` at turn `i`, with `n` turns to go: the entries that it reads. -/
def visit (h : PcHistory) (length : BitVec 64) :
    ℕ → BitVec 64 → BitVec 64 → Except PcHistoryFault (List PcEntry)
  | 0, _, _ => .ok []
  | n + 1, i, head =>
    if 0 < length ∧ i = length then .ok []
    else if hlt : head.toNat < 4096 then
      (h.visit length n (i + 1) ((head + 1) % 4096)).map (h.entries ⟨head.toNat, hlt⟩ :: ·)
    else .error (.subscript head)

/-- The entries that `show_pc_history` reads. -/
def visited (h : PcHistory) (length : BitVec 64) : Except PcHistoryFault (List PcEntry) :=
  h.visit length 4096 0 (h.start length)

/-- The line of an entry; one with `pc` 0 is taken to be empty. -/
def line (verbose : Bool) (length : BitVec 64) (e : PcEntry) : Option PcLine :=
  if e.pc = 0 then none else some ⟨e, verbose || decide (0 < length)⟩

/-- `show_pc_history`. -/
def showPcHistory (verbose : Bool) (length : BitVec 64) (h : PcHistory) :
    Except PcHistoryFault (List PcLine) :=
  (h.visited length).map (List.filterMap (line verbose length))

/-- `show_pc_history` reads the entries of the last calls, the oldest one first, and no subscript
is out of bounds. -/
def ShowsWindow (calls : List PcEntry) (length : BitVec 64) : Prop :=
  ∃ h, recorded calls = .ok h ∧
    h.visited length = .ok (calls.drop (calls.length - min length.toNat calls.length))

/-- The history holds the last calls: each at its number modulo the size of the ring. -/
structure Holds (h : PcHistory) (calls : List PcEntry) : Prop where
  head : h.head.toNat = calls.length % 4096
  entry : ∀ j < calls.length, calls.length ≤ j + 4096 →
    calls[j]? = some (h.entries ⟨j % 4096, Nat.mod_lt j (Nat.zero_lt_succ _)⟩)

variable {h h' : PcHistory} {calls : List PcEntry} {e : PcEntry} {length : BitVec 64}

/-- The next subscript. -/
theorem toNat_next (head : BitVec 64) : ((head + 1) % 4096).toNat = (head.toNat + 1) % 4096 := by
  have hone : (1 : BitVec 64).toNat = 1 := rfl
  have hmax : (4096 : BitVec 64).toNat = 4096 := rfl
  rw [BitVec.toNat_umod, BitVec.toNat_add, hone, hmax]
  omega

/-- Another call is recorded. -/
theorem Holds.record (hold : Holds h calls) :
    ∃ h', PcHistory.record h e = .ok h' ∧ Holds h' (calls ++ [e]) := by
  have hhead := hold.head
  have hlt : h.head.toNat < 4096 := by omega
  refine ⟨_, dif_pos hlt, ?_, ?_⟩
  · rw [toNat_next, List.length_append, List.length_singleton]
    omega
  · intro j hj hnew
    rw [List.length_append, List.length_singleton] at hj hnew
    dsimp only
    by_cases hlast : j = calls.length
    · have hcell : (⟨j % 4096, Nat.mod_lt j (Nat.zero_lt_succ _)⟩ : Fin 4096) =
          ⟨h.head.toNat, hlt⟩ := by
        apply Fin.ext
        dsimp only
        omega
      rw [hcell, Function.update_self, hlast, List.getElem?_append_right (Nat.le_refl _),
        Nat.sub_self]
      rfl
    · have hcell : (⟨j % 4096, Nat.mod_lt j (Nat.zero_lt_succ _)⟩ : Fin 4096) ≠
          ⟨h.head.toNat, hlt⟩ := by
        intro heq
        have hval := congrArg Fin.val heq
        dsimp only at hval
        omega
      rw [Function.update_of_ne hcell, List.getElem?_append_left (by omega)]
      exact hold.entry j (by omega) (by omega)

/-- Any number of calls is recorded. -/
theorem exists_recorded (calls : List PcEntry) :
    ∃ h, recorded calls = .ok h ∧ Holds h calls := by
  induction calls using List.reverseRecOn with
  | nil => exact ⟨empty, rfl, rfl, fun j hj => absurd hj (Nat.not_lt_zero j)⟩
  | append_singleton calls e ih =>
    obtain ⟨h, hrun, hold⟩ := ih
    obtain ⟨h', hstep, hold'⟩ := hold.record (e := e)
    refine ⟨h', ?_, hold'⟩
    unfold recorded at hrun ⊢
    rw [List.foldlM_append, hrun]
    exact (bind_pure _).trans hstep

/-- The loop with `r` entries to go reads the last `r` entries, if the ring does not wrap around
in them. -/
theorem visit_eq (hold : Holds h calls) (hlength : 0 < length) {r n : ℕ} {i head : BitVec 64}
    (hn : r ≤ n) (hi : i.toNat + r = length.toNat)
    (hhead : head.toNat + r = calls.length % 4096) :
    h.visit length n i head = .ok (calls.drop (calls.length - r)) := by
  induction r generalizing n i head with
  | zero =>
    rw [Nat.sub_zero, List.drop_length]
    cases n with
    | zero => rfl
    | succ n => exact if_pos ⟨hlength, BitVec.eq_of_toNat_eq hi⟩
  | succ r ih =>
    obtain ⟨n, rfl⟩ : ∃ n', n = n' + 1 := ⟨n - 1, by omega⟩
    have hmore : ¬(0 < length ∧ i = length) := by
      rintro ⟨-, rfl⟩
      omega
    have hlt : head.toNat < 4096 := by omega
    have hone : (1 : BitVec 64).toNat = 1 := rfl
    have hnexti : (i + 1).toNat + r = length.toNat := by
      have hmax := length.isLt
      rw [BitVec.toNat_add, hone]
      omega
    have hnext : ((head + 1) % 4096).toNat + r = calls.length % 4096 := by
      rw [toNat_next]
      omega
    have hdrop : calls.drop (calls.length - (r + 1)) =
        h.entries ⟨head.toNat, hlt⟩ :: calls.drop (calls.length - r) := by
      have hj : calls.length - (r + 1) < calls.length := by omega
      have hsucc : calls.length - (r + 1) + 1 = calls.length - r := by omega
      have hcell : (calls.length - (r + 1)) % 4096 = head.toNat := by omega
      have hentry := hold.entry (calls.length - (r + 1)) hj (by omega)
      rw [List.getElem?_eq_getElem hj, Option.some.injEq] at hentry
      simp only [hcell] at hentry
      rw [List.drop_eq_getElem_cons hj, hsucc, hentry]
    rw [visit, if_neg hmore, dif_pos hlt, ih (Nat.le_of_succ_le_succ hn) hnexti hnext, hdrop]
    rfl

/-- The window does not reach back over the start of the ring. -/
theorem visited_eq (hold : Holds h calls) (hlength : 0 < length)
    (hle : length.toNat ≤ calls.length % 4096) :
    h.visited length = .ok (calls.drop (calls.length - length.toNat)) := by
  have hhead := hold.head
  have hstart : h.start length = h.head - length := by
    rw [start, if_pos hlength]
    exact if_neg (BitVec.not_lt_zero)
  have hsub : (h.head - length).toNat + length.toNat = calls.length % 4096 := by
    rw [BitVec.toNat_sub_of_le (BitVec.le_def.mpr (by omega))]
    omega
  rw [visited, hstart]
  exact visit_eq hold hlength (by omega) (Nat.zero_add _) hsub

/-- The window reaches back over the start of the ring: the first subscript is far out of bounds. -/
theorem visited_eq_error (hold : Holds h calls) (hmax : length.toNat ≤ 4096)
    (hlt : calls.length % 4096 < length.toNat) :
    h.visited length = .error (.subscript (h.head - length)) := by
  have hhead := hold.head
  have hlength : 0 < length := BitVec.lt_def.mpr (Nat.zero_lt_of_lt hlt)
  have hstart : h.start length = h.head - length := by
    rw [start, if_pos hlength]
    exact if_neg (BitVec.not_lt_zero)
  have hwrap : ¬(h.head - length).toNat < 4096 := by
    rw [BitVec.toNat_sub]
    omega
  have hmore : ¬(0 < length ∧ (0 : BitVec 64) = length) := by
    rintro ⟨hpos, rfl⟩
    exact absurd hpos BitVec.not_lt_zero
  rw [visited, hstart, visit, if_neg hmore, dif_neg hwrap]

/-- The window is shown just when it does not reach back over the start of the ring. -/
theorem showsWindow_iff (calls : List PcEntry) (length : BitVec 64) (hlength : 1 ≤ length.toNat)
    (hmax : length.toNat ≤ 4096) :
    ShowsWindow calls length ↔ length.toNat ≤ calls.length % 4096 := by
  obtain ⟨h, hrun, hold⟩ := exists_recorded calls
  constructor
  · rintro ⟨h', hrun', hvisited⟩
    cases hrun.symm.trans hrun'
    by_contra hlt
    rw [visited_eq_error hold hmax (by omega)] at hvisited
    cases hvisited
  · intro hle
    refine ⟨h, hrun, ?_⟩
    rw [visited_eq hold (BitVec.lt_def.mpr hlength) hle, Nat.min_eq_left (by omega)]

/-- One call, and its entry is asked for. -/
theorem showsWindow_one : ShowsWindow [⟨0o100, true⟩] 1 :=
  (showsWindow_iff [⟨0o100, true⟩] 1 (by decide) (by decide)).mpr (by decide)

/-- One call, and two entries are asked for. -/
theorem not_showsWindow : ¬ShowsWindow [⟨0o100, true⟩] 2 := by
  obtain ⟨h, hrun, hold⟩ := exists_recorded [⟨0o100, true⟩]
  rintro ⟨h', hrun', hvisited⟩
  cases hrun.symm.trans hrun'
  rw [visited_eq_error hold (by decide) (by decide)] at hvisited
  cases hvisited

end PcHistory

end Usim
