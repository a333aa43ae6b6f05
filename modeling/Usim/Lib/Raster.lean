import Usim.Lib.Updates

/-!
# Raster order

A picture is written pixel by pixel, row after row, where the rows are stored at a distance
from one another. The loops over rows and columns count upwards.
-/

namespace Lib

section Loops

variable {σ ε : Type*} {P : ℕ → σ → Prop} {s : σ} {n : ℕ}

/-- What holds before a loop over the numbers below `n`, and is carried from each of them to the
next, holds after the loop. -/
theorem foldl_range_of_step {f : σ → ℕ → σ} (hs : P 0 s)
    (hstep : ∀ i < n, ∀ s, P i s → P (i + 1) (f s i)) : P n ((List.range n).foldl f s) := by
  induction n with
  | zero => exact hs
  | succ n ih =>
    rw [List.range_succ, List.foldl_append]
    apply hstep n (Nat.lt_succ_self n)
    exact ih fun i hi => hstep i (by omega)

/-- A loop that could fail, with an invariant under which no turn does. -/
theorem exists_foldlM_range_of_step {f : σ → ℕ → Except ε σ} (hs : P 0 s)
    (hstep : ∀ i < n, ∀ s, P i s → ∃ s', f s i = .ok s' ∧ P (i + 1) s') :
    ∃ s', (List.range n).foldlM f s = .ok s' ∧ P n s' := by
  induction n with
  | zero => exact ⟨s, rfl, hs⟩
  | succ n ih =>
    obtain ⟨t, ht, hPt⟩ := ih fun i hi => hstep i (by omega)
    obtain ⟨t', ht', hPt'⟩ := hstep n (Nat.lt_succ_self n) t hPt
    refine ⟨t', ?_, hPt'⟩
    rw [List.range_succ, List.foldlM_append, ht]
    show List.foldlM f t [n] = _
    rw [List.foldlM_cons, ht']
    rfl

end Loops

/-- Where pixel `n` of a picture is stored, whose rows begin `stride` words apart. -/
def rasterIndex (width stride n : ℕ) : ℕ := n / width * stride + n % width

variable {width stride x y : ℕ}

/-- The column `x` of the row `y`. -/
theorem rasterIndex_mul_add (hx : x < width) :
    rasterIndex width stride (y * width + x) = y * stride + x := by
  have hdiv : (y * width + x) / width = y := by
    rw [Nat.add_comm, Nat.add_mul_div_right _ _ (by omega), Nat.div_eq_of_lt hx, Nat.zero_add]
  have hmod : (y * width + x) % width = x := by
    rw [Nat.add_comm, Nat.add_mul_mod_self_right, Nat.mod_eq_of_lt hx]
  rw [rasterIndex, hdiv, hmod]

/-- Rows that do not overlap keep the pixels apart. -/
theorem rasterIndex_injective (hwidth : 0 < width) (hstride : width ≤ stride) :
    Function.Injective (rasterIndex width stride) := by
  intro n m h
  have hn := Nat.mod_lt n hwidth
  have hm := Nat.mod_lt m hwidth
  -- the row is the quotient by the distance of the rows, and the column the remainder
  have hrow (k : ℕ) (hk : k % width < width) : rasterIndex width stride k / stride = k / width := by
    rw [rasterIndex, Nat.add_comm, Nat.add_mul_div_right _ _ (by omega),
      Nat.div_eq_of_lt (by omega), Nat.zero_add]
  have hcolumn (k : ℕ) (hk : k % width < width) :
      rasterIndex width stride k % stride = k % width := by
    rw [rasterIndex, Nat.add_comm, Nat.add_mul_mod_self_right, Nat.mod_eq_of_lt (by omega)]
  have hdiv : n / width = m / width := by rw [← hrow n hn, ← hrow m hm, h]
  have hmod : n % width = m % width := by rw [← hcolumn n hn, ← hcolumn m hm, h]
  rw [← Nat.div_add_mod n width, ← Nat.div_add_mod m width, hdiv, hmod]

end Lib
