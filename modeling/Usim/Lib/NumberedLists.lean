import Mathlib.Data.List.Perm.Basic
import Usim.Lib.SerialNumbers

/-!
# Lists of numbered items

Items carry a serial number. A list of them is kept in the order of the numbers: the items
that come next are taken off its front, an item is entered at its place, and the items up
to a number are dropped. On the integers each operation is told by the numbers alone, and
on words it does the same as long as the numbers lie close together.
-/

namespace Lib

section Operations

variable {S α : Type*} [SerialNumber S] (num : α → S)

/-- The items at the front that are numbered on from the last number, and the others. -/
def inOrder [DecidableEq S] : S → List α → List α × List α
  | _, [] => ([], [])
  | last, x :: xs =>
    if num x = advance last 1 then
      (x :: (inOrder (advance last 1) xs).1, (inOrder (advance last 1) xs).2)
    else ([], x :: xs)

/-- Enters an item before the first that it does not come after. Nothing is returned if that
one has its number. -/
def insertNew [DecidableEq S] (x : α) : List α → Option (List α)
  | [] => some [x]
  | y :: ys =>
    if Later (num x) (num y) then (insertNew x ys).map (y :: ·)
    else if num x = num y then none
    else some (x :: y :: ys)

/-- Enters an item before the first that comes after it. -/
def insertByNumber (x : α) : List α → List α
  | [] => [x]
  | y :: ys => if Later (num y) (num x) then x :: y :: ys else y :: insertByNumber x ys

/-- Drops the items at the front up to a number. -/
def dropThrough (r : S) (xs : List α) : List α := xs.dropWhile fun x => ¬ Later (num x) r

variable {num} {x : α} {xs ys : List α} {last r : S}

/-- The items taken and the others are the list. -/
theorem inOrder_append [DecidableEq S] (last : S) (xs : List α) :
    (inOrder num last xs).1 ++ (inOrder num last xs).2 = xs := by
  induction xs generalizing last with
  | nil => rfl
  | cons x xs ih =>
    rw [inOrder]
    split
    · rw [List.cons_append, ih]
    · rfl

/-- An item with another number than the next one holds up the list. -/
theorem inOrder_of_ne [DecidableEq S] (h : num x ≠ advance last 1) :
    inOrder num last (x :: xs) = ([], x :: xs) :=
  if_neg h

/-- The next item is taken. -/
theorem inOrder_of_eq [DecidableEq S] (h : num x = advance last 1) :
    inOrder num last (x :: xs) =
      (x :: (inOrder num (advance last 1) xs).1, (inOrder num (advance last 1) xs).2) :=
  if_pos h

/-- Nothing is lost when an item is entered. -/
theorem insertByNumber_perm (x : α) (xs : List α) : (insertByNumber num x xs).Perm (x :: xs) := by
  induction xs with
  | nil => exact List.Perm.refl _
  | cons y ys ih =>
    rw [insertByNumber]
    split
    · exact List.Perm.refl _
    · exact (ih.cons y).trans (List.Perm.swap x y ys)

/-- Nothing is lost when a new item is entered. -/
theorem perm_of_insertNew [DecidableEq S] (h : insertNew num x xs = some ys) :
    ys.Perm (x :: xs) := by
  induction xs generalizing ys with
  | nil =>
    cases h
    exact List.Perm.refl _
  | cons y xs ih =>
    rw [insertNew] at h
    split at h
    · obtain ⟨zs, hzs, rfl⟩ := Option.map_eq_some_iff.mp h
      exact ((ih hzs).cons y).trans (List.Perm.swap x y xs)
    · split at h
      · cases h
      · cases h
        exact List.Perm.refl _

/-- What is left is part of the list. -/
theorem dropThrough_sublist (r : S) (xs : List α) : (dropThrough num r xs).Sublist xs :=
  List.dropWhile_sublist _

end Operations

/-! ### Numbers that never wrap -/

section Integers

variable {α : Type*} {num : α → ℤ} {x : α} {xs ys : List α} {last r : ℤ}

/-- The items are numbered on from the last number, without a gap. -/
def Follows (num : α → ℤ) : ℤ → List α → Prop
  | _, [] => True
  | last, x :: xs => num x = last + 1 ∧ Follows num (last + 1) xs

/-- The items are in the order of their numbers. -/
def Ascending (num : α → ℤ) (xs : List α) : Prop := xs.Pairwise fun x y => num x < num y

/-- A list behind another. -/
theorem follows_append :
    Follows num last (xs ++ ys) ↔ Follows num last xs ∧ Follows num (last + xs.length) ys := by
  induction xs generalizing last with
  | nil => simp [Follows]
  | cons x xs ih =>
    have hlength : last + 1 + (xs.length : ℤ) = last + ((x :: xs).length : ℤ) := by
      rw [List.length_cons]
      omega
    rw [List.cons_append, Follows, Follows, ih, and_assoc, hlength]

/-- Only the numbers matter. -/
theorem follows_congr (h : xs.map num = ys.map num) :
    Follows num last xs ↔ Follows num last ys := by
  induction xs generalizing last ys with
  | nil =>
    rw [List.map_nil] at h
    rw [List.map_eq_nil_iff.mp h.symm]
  | cons x xs ih =>
    cases ys with
    | nil => cases h
    | cons y ys =>
      obtain ⟨hhead, htail⟩ := List.cons_eq_cons.mp h
      rw [Follows, Follows, hhead, ih htail]

/-- The numbers of a list without a gap. -/
theorem Follows.mem (h : Follows num last xs) (hx : x ∈ xs) :
    last < num x ∧ num x ≤ last + xs.length := by
  induction xs generalizing last with
  | nil => cases hx
  | cons y xs ih =>
    rw [List.length_cons]
    push_cast
    rcases List.mem_cons.mp hx with rfl | hx
    · have := h.1
      omega
    · have := ih h.2 hx
      omega

/-- The last number of a list without a gap. -/
theorem Follows.exists_last (h : Follows num last xs) (hxs : xs ≠ []) :
    ∃ x ∈ xs, num x = last + xs.length := by
  induction xs generalizing last with
  | nil => exact absurd rfl hxs
  | cons y xs ih =>
    rw [List.length_cons]
    push_cast
    by_cases hnil : xs = []
    · refine ⟨y, List.mem_cons_self, ?_⟩
      rw [hnil, h.1]
      simp
    · obtain ⟨x, hx, hnum⟩ := ih h.2 hnil
      exact ⟨x, List.mem_cons_of_mem y hx, by omega⟩

/-- The items that are taken have no gap. -/
theorem follows_inOrder (last : ℤ) (xs : List α) : Follows num last (inOrder num last xs).1 := by
  induction xs generalizing last with
  | nil => trivial
  | cons x xs ih =>
    rw [inOrder]
    split
    · exact ⟨by assumption, ih _⟩
    · trivial

/-- The items that are left come after a gap. -/
theorem gap_of_mem_inOrder (hasc : Ascending num xs) (hlast : ∀ x ∈ xs, last < num x)
    (hx : x ∈ (inOrder num last xs).2) : last + (inOrder num last xs).1.length + 1 < num x := by
  induction xs generalizing last with
  | nil => cases hx
  | cons y xs ih =>
    obtain ⟨hy, hasc⟩ := List.pairwise_cons.mp hasc
    by_cases hnext : num y = advance last 1
    · rw [inOrder_of_eq hnext] at hx ⊢
      have htail : ∀ z ∈ xs, advance last 1 < num z := fun z hz => hnext ▸ hy z hz
      have := ih hasc htail hx
      rw [List.length_cons]
      simp only [advance_int] at this ⊢
      omega
    · rw [inOrder_of_ne hnext] at hx ⊢
      have hfirst := hlast y List.mem_cons_self
      rw [advance_int] at hnext
      rcases List.mem_cons.mp hx with rfl | hx
      · simp only [List.length_nil]
        omega
      · have := hy x hx
        simp only [List.length_nil]
        omega

/-- The items that are left stay in order. -/
theorem Ascending.inOrder (h : Ascending num xs) : Ascending num (Lib.inOrder num last xs).2 :=
  List.Pairwise.sublist (List.sublist_append_right _ _) ((inOrder_append last xs).symm ▸ h)

/-- A new item is entered in order. -/
theorem Ascending.insertNew (h : Ascending num xs) (hys : Lib.insertNew num x xs = some ys) :
    Ascending num ys := by
  induction xs generalizing ys with
  | nil =>
    cases hys
    exact List.pairwise_singleton _ _
  | cons y xs ih =>
    obtain ⟨hy, hasc⟩ := List.pairwise_cons.mp h
    simp only [Lib.insertNew, later_int] at hys
    split at hys
    · obtain ⟨zs, hzs, rfl⟩ := Option.map_eq_some_iff.mp hys
      refine List.pairwise_cons.mpr ⟨fun z hz => ?_, ih hasc hzs⟩
      rcases List.mem_cons.mp ((perm_of_insertNew hzs).mem_iff.mp hz) with rfl | hz
      · assumption
      · exact hy z hz
    · split at hys
      · cases hys
      · cases hys
        refine List.pairwise_cons.mpr ⟨fun z hz => ?_, h⟩
        rcases List.mem_cons.mp hz with rfl | hz
        · omega
        · have := hy z hz
          omega

/-- An item is entered in order if no other one has its number. -/
theorem Ascending.insertByNumber (h : Ascending num xs) (hx : ∀ y ∈ xs, num y ≠ num x) :
    Ascending num (Lib.insertByNumber num x xs) := by
  induction xs with
  | nil => exact List.pairwise_singleton _ _
  | cons y xs ih =>
    obtain ⟨hy, hasc⟩ := List.pairwise_cons.mp h
    have hne := hx y List.mem_cons_self
    simp only [Lib.insertByNumber, later_int]
    split
    · refine List.pairwise_cons.mpr ⟨fun z hz => ?_, h⟩
      rcases List.mem_cons.mp hz with rfl | hz
      · assumption
      · have := hy z hz
        omega
    · refine List.pairwise_cons.mpr
        ⟨fun z hz => ?_, ih hasc fun z hz => hx z (List.mem_cons_of_mem y hz)⟩
      rcases List.mem_cons.mp ((insertByNumber_perm x xs).mem_iff.mp hz) with rfl | hz
      · omega
      · exact hy z hz

/-- What is left are the items with later numbers. -/
theorem dropThrough_eq_filter (h : Ascending num xs) :
    dropThrough num r xs = xs.filter fun x => r < num x := by
  induction xs with
  | nil => rfl
  | cons y xs ih =>
    obtain ⟨hy, hasc⟩ := List.pairwise_cons.mp h
    rw [dropThrough, List.dropWhile_cons, List.filter_cons]
    by_cases hr : r < num y
    · have hall : xs.filter (fun x => decide (r < num x)) = xs :=
        List.filter_eq_self.mpr fun z hz => decide_eq_true (hr.trans (hy z hz))
      simp [hr, hall]
    · have := ih hasc
      rw [dropThrough] at this
      simpa [hr] using this

/-- Items in order between two numbers are no more than there are numbers. -/
theorem Ascending.length_le {first : ℤ} (h : Ascending num xs) (hle : first ≤ last)
    (hxs : ∀ x ∈ xs, first < num x ∧ num x ≤ last) : (xs.length : ℤ) ≤ last - first := by
  induction xs generalizing first with
  | nil => simpa using hle
  | cons y xs ih =>
    obtain ⟨hy, hasc⟩ := List.pairwise_cons.mp h
    have hfirst := hxs y List.mem_cons_self
    have := ih hasc hfirst.2 fun x hx => ⟨hy x hx, (hxs x (List.mem_cons_of_mem y hx)).2⟩
    rw [List.length_cons]
    push_cast
    omega

end Integers

/-! ### Numbers that wrap -/

section Wrap

variable {α β : Type*} {w : ℕ} {num : α → ℤ} {num' : β → BitVec w} {g : α → β} {x : α}
  {xs : List α} {last r : ℤ}

/-- The same items are taken if the numbers are told apart. -/
theorem inOrder_map (hnum : ∀ x, num' (g x) = wrap w (num x))
    (hge : ∀ x ∈ xs, last < num x + 2 ^ w - xs.length) (hlt : ∀ x ∈ xs, num x < last + 2 ^ w) :
    inOrder num' (wrap w last) (xs.map g) =
      ((inOrder num last xs).1.map g, (inOrder num last xs).2.map g) := by
  induction xs generalizing last with
  | nil => rfl
  | cons y xs ih =>
    have hy₁ := hge y List.mem_cons_self
    have hy₂ := hlt y List.mem_cons_self
    have hlength : ((y :: xs).length : ℤ) = xs.length + 1 := by
      rw [List.length_cons]
      push_cast
      rfl
    rw [hlength] at hge hy₁
    have hnext : num' (g y) = advance (wrap w last) 1 ↔ num y = last + 1 := by
      rw [hnum, ← wrap_advance, Int.natCast_one, wrap_eq_iff (by omega) (by omega)]
    rw [List.map_cons]
    by_cases h : num y = last + 1
    · rw [inOrder_of_eq (hnext.mpr h), inOrder_of_eq (show num y = advance last 1 from h),
        ← wrap_advance, advance_int, Int.natCast_one,
        ih (fun z hz => by have := hge z (List.mem_cons_of_mem y hz); omega)
          (fun z hz => by have := hlt z (List.mem_cons_of_mem y hz); omega)]
      rfl
    · rw [inOrder_of_ne (mt hnext.mp h), inOrder_of_ne (show num y ≠ advance last 1 from h)]
      rfl

/-- A new item is entered at the same place. -/
theorem insertNew_map (hnum : ∀ x, num' (g x) = wrap w (num x))
    (h : ∀ y ∈ xs, Close w (num y) (num x)) :
    insertNew num' (g x) (xs.map g) = (insertNew num x xs).map (List.map g) := by
  induction xs with
  | nil => rfl
  | cons y xs ih =>
    have hy := h y List.mem_cons_self
    have heq : num' (g x) = num' (g y) ↔ num x = num y := by
      obtain ⟨hge, hlt⟩ := hy
      rw [hnum, hnum, wrap_eq_iff (by omega) (by omega)]
    have hlater : Later (num' (g x)) (num' (g y)) ↔ Later (num x) (num y) := by
      rw [hnum, hnum, later_wrap hy, later_int]
    rw [List.map_cons, insertNew, insertNew, ih fun z hz => h z (List.mem_cons_of_mem y hz)]
    simp only [hlater, heq]
    split
    · rw [Option.map_map, Option.map_map]
      rfl
    · split <;> rfl

/-- An item is entered at the same place. -/
theorem insertByNumber_map (hnum : ∀ x, num' (g x) = wrap w (num x))
    (h : ∀ y ∈ xs, Close w (num x) (num y)) :
    insertByNumber num' (g x) (xs.map g) = (insertByNumber num x xs).map g := by
  induction xs with
  | nil => rfl
  | cons y xs ih =>
    have hlater : Later (num' (g y)) (num' (g x)) ↔ Later (num y) (num x) := by
      rw [hnum, hnum, later_wrap (h y List.mem_cons_self), later_int]
    rw [List.map_cons, insertByNumber, insertByNumber,
      ih fun z hz => h z (List.mem_cons_of_mem y hz)]
    simp only [hlater]
    split <;> rfl

/-- The same items are dropped. -/
theorem dropThrough_map (hnum : ∀ x, num' (g x) = wrap w (num x))
    (h : ∀ y ∈ xs, Close w r (num y)) :
    dropThrough num' (wrap w r) (xs.map g) = (dropThrough num r xs).map g := by
  induction xs with
  | nil => rfl
  | cons y xs ih =>
    have hlater : Later (num' (g y)) (wrap w r) ↔ Later (num y) r := by
      rw [hnum, later_wrap (h y List.mem_cons_self), later_int]
    have htail := ih fun z hz => h z (List.mem_cons_of_mem y hz)
    rw [dropThrough, dropThrough] at htail ⊢
    rw [List.map_cons, List.dropWhile_cons, List.dropWhile_cons, htail]
    simp only [hlater]
    split <;> rfl

end Wrap

end Lib
