import Usim.UinstStrip

/-!
# The buffer of the disassembler

All that is printed comes into the buffer, one piece behind the other, if there is room for it,
and `uinst_strip` leaves the stripped text in its place.
-/

namespace Usim

open Lib

namespace Udiss

/-! ### The buffer -/

/-- A text is in the buffer, with its end, and the cursor behind it. -/
structure Printed (d : Udiss) (t : List Byte) : Prop where
  bytes : BytesAt d.uinstbuf 0 (t ++ [0])
  bufp : d.uinstbufp = t.length

/-- One more piece. -/
theorem Printed.prin1 {d : Udiss} {t : List Byte} (h : Printed d t) (p : List Byte)
    (hfits : t.length + p.length + 1 ≤ ubufsz) :
    ∃ d', d.prin1 p = .ok d' ∧ Printed d' (t ++ p) := by
  have hcursor : d.uinstbufp + p.length + 1 ≤ ubufsz := by
    rw [h.bufp]
    exact hfits
  refine ⟨_, if_pos hcursor, ?_, ?_⟩
  · rw [List.append_assoc, bytesAt_append, Nat.zero_add, ← h.bufp]
    constructor
    · have hfront := (bytesAt_append.mp h.bytes).1
      refine hfront.congr fun i _ hi => store_of_notMem (.inl ?_)
      rw [h.bufp]
      omega
    · exact bytesAt_store _
  · change d.uinstbufp + p.length = _
    rw [h.bufp, List.length_append]

/-- All pieces are printed if they fit. -/
theorem Printed.foldlM {d : Udiss} {t : List Byte} (h : Printed d t) (ps : List (List Byte))
    (hfits : t.length + ps.flatten.length + 1 ≤ ubufsz) :
    ∃ d', ps.foldlM Udiss.prin1 d = .ok d' ∧ Printed d' (t ++ ps.flatten) := by
  induction ps generalizing d t with
  | nil =>
    refine ⟨d, rfl, ?_⟩
    rwa [List.flatten_nil, List.append_nil]
  | cons p ps ih =>
    rw [List.flatten_cons, List.length_append] at hfits
    obtain ⟨d₁, hd₁, h₁⟩ := h.prin1 p (by omega)
    obtain ⟨d', hd', h'⟩ := ih h₁ (by rw [List.length_append]; omega)
    refine ⟨d', ?_, ?_⟩
    · rw [List.foldlM_cons, hd₁]
      exact hd'
    · rwa [List.flatten_cons, ← List.append_assoc]

/-- Pieces that do not fit are written behind the buffer. -/
theorem foldlM_prin1_overflow {d : Udiss} (ps : List (List Byte)) (hd : d.uinstbufp + 1 ≤ ubufsz)
    (hfits : ¬d.uinstbufp + ps.flatten.length + 1 ≤ ubufsz) :
    ps.foldlM Udiss.prin1 d = .error .overflow := by
  induction ps generalizing d with
  | nil => exact absurd hd hfits
  | cons p ps ih =>
    rw [List.flatten_cons, List.length_append] at hfits
    rw [List.foldlM_cons, Udiss.prin1]
    by_cases hp : d.uinstbufp + p.length + 1 ≤ ubufsz
    · rw [if_pos hp]
      refine ih hp ?_
      change ¬d.uinstbufp + p.length + ps.flatten.length + 1 ≤ ubufsz
      omega
    · rw [if_neg hp]
      rfl

/-! ### Stripping in place -/

/-- One character is copied to a place that is not behind it. -/
theorem bytesAt_copy {s : Medium} {i j : ℕ} {c : Byte} {rest out : List Byte}
    (hrest : BytesAt s i (c :: rest)) (hout : BytesAt s 0 out) (hj : out.length = j)
    (hji : j ≤ i) :
    BytesAt (Function.update s j (s i)) (i + 1) rest ∧
      BytesAt (Function.update s j (s i)) 0 (out ++ [c]) := by
  constructor
  · exact hrest.2.congr fun k hk _ => Function.update_of_ne (by omega) _ _
  · rw [bytesAt_append, Nat.zero_add, hj]
    constructor
    · exact hout.congr fun k _ hk => Function.update_of_ne (by omega) _ _
    · exact ⟨(Function.update_self ..).trans hrest.1, trivial⟩

/-- The loop strips what is left of a text and appends it to what has been kept. -/
theorem stripLoop_eq {fuel : ℕ} {s : Medium} {i j : ℕ} {rest out : List Byte}
    (hrest : BytesAt s i (rest ++ [0])) (hne : ∀ b ∈ rest, b ≠ 0) (hout : BytesAt s 0 out)
    (hj : out.length = j) (hji : j ≤ i) (hfuel : rest.length < fuel) :
    ∃ s', stripLoop fuel s i j = .ok s' ∧ BytesAt s' 0 (out ++ strip rest ++ [0]) := by
  induction fuel generalizing s i j rest out with
  | zero => exact absurd hfuel (Nat.not_lt_zero _)
  | succ fuel ih =>
    cases rest with
    | nil =>
      have hend : s i = 0 := hrest.1
      refine ⟨Function.update s j 0, by rw [stripLoop, if_pos hend], ?_⟩
      rw [strip, List.append_nil, bytesAt_append, Nat.zero_add, hj]
      constructor
      · exact hout.congr fun k _ hk => Function.update_of_ne (by omega) _ _
      · exact ⟨Function.update_self .., trivial⟩
    | cons c rest =>
      have hc : s i = c := hrest.1
      have hzero : ¬s i = 0 := by
        rw [hc]
        exact hne c List.mem_cons_self
      obtain ⟨hrest', hout'⟩ := bytesAt_copy hrest hout hj hji
      have hne' : ∀ b ∈ rest, b ≠ 0 := fun b hb => hne b (List.mem_cons_of_mem c hb)
      have hj' : (out ++ [c]).length = j + 1 := by
        rw [List.length_append, hj]
        rfl
      rw [List.length_cons] at hfuel
      rw [stripLoop, if_neg hzero]
      -- the character is kept and the rest is stripped
      have hkeep (hstrip : strip (c :: rest) = c :: strip rest) :
          ∃ s', stripLoop fuel (Function.update s j (s i)) (i + 1) (j + 1) = .ok s' ∧
            BytesAt s' 0 (out ++ strip (c :: rest) ++ [0]) := by
        obtain ⟨s', hs', hbytes⟩ := ih hrest' hne' hout' hj' (by omega) (by omega)
        refine ⟨s', hs', ?_⟩
        rw [List.append_assoc out [c]] at hbytes
        rw [hstrip]
        exact hbytes
      by_cases hskip : c = openParen ∨ c = blank
      · have hcond : (s i = openParen || s i = blank) = true := by
          rw [hc]
          simpa using hskip
        cases rest with
        | nil =>
          have hend : Function.update s j (s i) (i + 1) = 0 := hrest'.1
          have hb : (0 : Byte) ≠ blank := by decide
          have hclose : (0 : Byte) ≠ closeParen := by decide
          simp only [hcond, if_true, hend, if_neg hb, if_neg hclose]
          exact hkeep rfl
        | cons d rest =>
          have hd : Function.update s j (s i) (i + 1) = d := hrest'.1
          simp only [hcond, if_true, hd]
          by_cases hb : d = blank
          · subst hb
            have hj'' : j + 1 ≤ i + 1 + 1 := by omega
            rw [List.length_cons] at hfuel
            obtain ⟨s', hs', hbytes⟩ := ih hrest'.2
              (fun b hb => hne' b (List.mem_cons_of_mem _ hb)) hout' hj' hj'' (by omega)
            refine ⟨s', hs', ?_⟩
            rw [List.append_assoc out [c]] at hbytes
            rw [strip_blank hskip]
            exact hbytes
          · rw [if_neg hb]
            by_cases hclose : d = closeParen
            · subst hclose
              obtain ⟨s', hs', hbytes⟩ := ih hrest' hne' (bytesAt_append.mp hout').1 hj (by omega)
                (by omega)
              refine ⟨s', ?_, ?_⟩
              · rw [if_pos rfl]
                exact hs'
              · rwa [strip_close hskip]
            · rw [if_neg hclose]
              exact hkeep (strip_other hskip hb hclose)
      · have hcond : (s i = openParen || s i = blank) = false := by
          rw [hc]
          simpa using hskip
        simp only [hcond, Bool.false_eq_true, if_false]
        exact hkeep (strip_cons (fun h => hskip (.inl h)) fun h => hskip (.inr h))

/-- Stripping leaves some of the characters. -/
theorem strip_sublist (t : List Byte) : (strip t).Sublist t := by
  induction t using strip.induct with
  | case1 => exact List.Sublist.refl _
  | case2 c => exact List.Sublist.refl _
  | case3 c rest hskip ih =>
    rw [strip_blank hskip]
    exact (ih.cons _).cons_cons _
  | case4 c rest hskip hb ih =>
    rw [strip_close hskip]
    exact ih.cons _
  | case5 c d rest hskip hb hc ih =>
    rw [strip_other hskip hb hc]
    exact ih.cons_cons _
  | case6 c d rest hskip ih =>
    rw [strip_cons (fun h => hskip (.inl h)) fun h => hskip (.inr h)]
    exact ih.cons_cons _

/-- The string that is read from a medium. -/
theorem cString_of_bytesAt {s : Medium} {w : List Byte} (h : BytesAt s 0 (w ++ [0]))
    (hne : ∀ b ∈ w, b ≠ 0) {n : ℕ} (hn : w.length + 1 ≤ n) :
    cString ((List.range n).map s) = w := by
  have hbytes (bs : List Byte) (pos : ℕ) (hbs : BytesAt s pos bs) :
      (List.range' pos bs.length).map s = bs := by
    induction bs generalizing pos with
    | nil => rfl
    | cons b bs ih =>
      rw [List.length_cons, List.range'_succ, List.map_cons, hbs.1, ih _ hbs.2]
  have hsplit : List.range n = List.range' 0 (w ++ [0]).length ++
      List.range' (0 + (w ++ [0]).length) (n - (w ++ [0]).length) := by
    rw [List.range'_append_1, List.range_eq_range', List.length_append]
    congr 1
    exact (Nat.add_sub_cancel' hn).symm
  rw [hsplit, List.map_append, hbytes _ _ h, List.append_assoc]
  change cString (w ++ 0 :: _) = w
  rw [cString_append_zero, cString_of_forall hne]

/-- Nothing is in the buffer at first. -/
theorem printed_start (d : Udiss) (symtab : Option Symtab) : Printed (d.start symtab) [] := by
  constructor
  · refine ⟨?_, trivial⟩
    change Function.update d.uinstbuf 0 0 0 = 0
    rw [Function.update_self]
  · rfl

/-- The instruction is described if what is printed fits into the buffer. -/
theorem uinstDesc_of_fits (d : Udiss) {u : BitVec 64} {tab : Symtab}
    (hne : ∀ b ∈ (pieces tab u).flatten, b ≠ 0)
    (hfits : (pieces tab u).flatten.length + 1 ≤ ubufsz) :
    ∃ d', d.uinstDesc u (some tab) = .ok (strip (pieces tab u).flatten, d') := by
  obtain ⟨d₁, hd₁, hprinted⟩ := (printed_start d (some tab)).foldlM (pieces tab u) (by
    rw [List.length_nil, Nat.zero_add]
    exact hfits)
  rw [List.nil_append] at hprinted
  have hout : BytesAt d₁.uinstbuf 0 [] := trivial
  obtain ⟨s, hs, hbytes⟩ :=
    stripLoop_eq hprinted.bytes hne hout List.length_nil (Nat.le_refl 0) hfits
  refine ⟨{ d₁ with uinstbuf := s }, ?_⟩
  have hsub := strip_sublist (pieces tab u).flatten
  have hstring := cString_of_bytesAt hbytes (fun b hb => hne b (hsub.subset hb))
    (Nat.le_trans (Nat.succ_le_succ hsub.length_le) hfits)
  unfold uinstDesc uinstStrip
  change ((pieces tab u).foldlM Udiss.prin1 (d.start (some tab)) >>= _) = _
  rw [hd₁]
  change (stripLoop ubufsz d₁.uinstbuf 0 0 >>= _) = _
  rw [hs]
  change Except.ok (cString ((List.range ubufsz).map s), _) = _
  rw [hstring]
  rfl

/-- What does not fit is written behind the buffer. -/
theorem uinstDesc_of_not_fits (d : Udiss) {u : BitVec 64} {tab : Symtab}
    (hfits : ¬(pieces tab u).flatten.length + 1 ≤ ubufsz) :
    d.uinstDesc u (some tab) = .error .overflow := by
  have hoverflow : (pieces tab u).foldlM Udiss.prin1 (d.start (some tab)) = .error .overflow := by
    apply foldlM_prin1_overflow
    · exact (by decide : 0 + 1 ≤ ubufsz)
    · change ¬0 + _ + 1 ≤ ubufsz
      rw [Nat.zero_add]
      exact hfits
  unfold uinstDesc
  change ((pieces tab u).foldlM Udiss.prin1 (d.start (some tab)) >>= _) = _
  rw [hoverflow]
  rfl

end Udiss

end Usim
