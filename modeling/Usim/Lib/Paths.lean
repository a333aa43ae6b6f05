import Mathlib.Data.List.DropRight
import Mathlib.Data.List.Infix

/-!
# Paths

Paths with `/` between their parts, resolved by their text alone: empty parts and `.` go, and `..`
takes the part before it along.
-/

namespace Lib

namespace Paths

/-- A part that stays when a path is resolved. -/
structure IsPart (part : List Char) : Prop where
  ne_nil : part ≠ []
  ne_dot : part ≠ ['.']
  ne_dots : part ≠ ['.', '.']
  slash : '/' ∉ part

/-- What a part does to those in front of it. -/
def resolvePart (resolved : List (List Char)) (part : List Char) : List (List Char) :=
  if part = [] ∨ part = ['.'] then resolved
  else if part = ['.', '.'] then resolved.dropLast
  else resolved ++ [part]

/-- The parts of a path once it is resolved. -/
def parts (path : List Char) : List (List Char) := (path.splitOn '/').foldl resolvePart []

/-- The parts, each with a slash in front of it. -/
def joined (ps : List (List Char)) : List Char := ps.flatMap ('/' :: ·)

/-- The path of some parts, which may have a slash at its end. -/
def render (ps : List (List Char)) (trailing : Bool) : List Char :=
  if ps = [] then ['/'] else joined ps ++ if trailing then ['/'] else []

/-- A path that is resolved. -/
def Resolved (path : List Char) : Prop :=
  ∃ ps, (∀ part ∈ ps, IsPart part) ∧ ∃ trailing, path = render ps trailing

/-- A path without the slash at its end. -/
def folder (path : List Char) : List Char :=
  if path.getLast? = some '/' then path.dropLast else path

/-- A path is a directory or has the directory and a slash in front. -/
def Inside (directory path : List Char) : Prop :=
  path = folder directory ∨ folder directory ++ ['/'] <+: path

variable {ps qs : List (List Char)} {part path : List Char} {trailing trailing' : Bool}

/-! ### Splitting -/

/-- The characters of the parts of a path are those of the path but for the slashes. -/
theorem mem_of_mem_splitOn {c : Char} (h : part ∈ path.splitOn '/') (hc : c ∈ part) :
    c ≠ '/' ∧ c ∈ path := by
  induction path generalizing part with
  | nil =>
    rw [List.splitOn_nil, List.mem_singleton] at h
    subst h
    exact absurd hc List.not_mem_nil
  | cons d path ih =>
    rw [List.splitOn_cons_eq_if_modifyHead] at h
    by_cases hd : d = '/'
    · rw [if_pos (beq_iff_eq.mpr hd)] at h
      obtain rfl | h := List.mem_cons.mp h
      · exact absurd hc List.not_mem_nil
      · exact ⟨(ih h hc).1, List.mem_cons_of_mem d (ih h hc).2⟩
    · rw [if_neg (fun heq => hd (beq_iff_eq.mp heq))] at h
      cases hsplit : path.splitOn '/' with
      | nil => exact absurd hsplit (List.splitOn_ne_nil _ _)
      | cons head rest =>
        rw [hsplit] at h ih
        obtain rfl | h := List.mem_cons.mp h
        · obtain rfl | hc := List.mem_cons.mp hc
          · exact ⟨hd, List.mem_cons_self⟩
          · have hhead := ih List.mem_cons_self hc
            exact ⟨hhead.1, List.mem_cons_of_mem d hhead.2⟩
        · have hrest := ih (List.mem_cons_of_mem head h) hc
          exact ⟨hrest.1, List.mem_cons_of_mem d hrest.2⟩

/-- Resolving keeps what holds of all parts, if it holds of a part that is added. -/
theorem forall_mem_resolvePart {P : List Char → Prop} (hps : ∀ p ∈ ps, P p)
    (hpart : part ≠ [] → part ≠ ['.'] → part ≠ ['.', '.'] → P part) :
    ∀ p ∈ resolvePart ps part, P p := by
  intro p hp
  unfold resolvePart at hp
  split_ifs at hp with hempty hdots
  · exact hps p hp
  · exact hps p (List.mem_of_mem_dropLast hp)
  · obtain hp | hp := List.mem_append.mp hp
    · exact hps p hp
    · rw [List.mem_singleton.mp hp]
      exact hpart (fun h => hempty (.inl h)) (fun h => hempty (.inr h)) hdots

/-- What a step keeps of the parts holds of them in the end. -/
theorem forall_mem_foldl {segs : List (List Char)} {P : List Char → Prop} (hps : ∀ p ∈ ps, P p)
    (hstep : ∀ ps, (∀ p ∈ ps, P p) → ∀ seg ∈ segs, ∀ p ∈ resolvePart ps seg, P p) :
    ∀ p ∈ segs.foldl resolvePart ps, P p := by
  induction segs generalizing ps with
  | nil => exact hps
  | cons seg segs ih =>
    apply ih (hstep ps hps seg List.mem_cons_self)
    intro ps hps seg' hseg'
    exact hstep ps hps seg' (List.mem_cons_of_mem seg hseg')

/-- The parts of a path stay when they are resolved. -/
theorem isPart_parts (path : List Char) : ∀ part ∈ parts path, IsPart part := by
  unfold parts
  apply forall_mem_foldl (P := IsPart)
  · exact List.forall_mem_nil _
  · intro ps hps seg hseg
    apply forall_mem_resolvePart hps
    intro hempty hdot hdots
    exact ⟨hempty, hdot, hdots, fun hslash => (mem_of_mem_splitOn hseg hslash).1 rfl⟩

/-- The characters of the resolved parts are those of the path. -/
theorem mem_of_mem_parts {c : Char} : ∀ part ∈ parts path, c ∈ part → c ∈ path := by
  unfold parts
  apply forall_mem_foldl (P := fun part => c ∈ part → c ∈ path)
  · exact List.forall_mem_nil _
  · intro ps hps seg hseg
    apply forall_mem_resolvePart hps
    exact fun _ _ _ hc => (mem_of_mem_splitOn hseg hc).2

/-- The characters of a rendered path are those of its parts and slashes. -/
theorem mem_render {c : Char} (hc : c ∈ render ps trailing) (hslash : c ≠ '/') :
    ∃ part ∈ ps, c ∈ part := by
  have hjoined (h : c ∈ joined ps) : ∃ part ∈ ps, c ∈ part := by
    obtain ⟨part, hpart, hc⟩ := List.mem_flatMap.mp h
    exact ⟨part, hpart, (List.mem_cons.mp hc).resolve_left hslash⟩
  unfold render at hc
  split at hc
  · exact absurd (List.mem_singleton.mp hc) hslash
  · cases trailing with
    | false =>
      rw [if_neg Bool.false_ne_true, List.append_nil] at hc
      exact hjoined hc
    | true =>
      obtain hc | hc := List.mem_append.mp hc
      · exact hjoined hc
      · exact absurd (List.mem_singleton.mp hc) hslash

theorem resolvePart_of_isPart (h : IsPart part) (ps : List (List Char)) :
    resolvePart ps part = ps ++ [part] := by
  rw [resolvePart, if_neg (by rintro (h' | h'); exacts [h.ne_nil h', h.ne_dot h']),
    if_neg h.ne_dots]

/-- Parts that stay are resolved one after the other. -/
theorem foldl_resolvePart (h : ∀ part ∈ ps, IsPart part) (acc : List (List Char)) :
    ps.foldl resolvePart acc = acc ++ ps := by
  induction ps generalizing acc with
  | nil => rw [List.foldl_nil, List.append_nil]
  | cons part ps ih =>
    rw [List.foldl_cons, resolvePart_of_isPart (h part List.mem_cons_self),
      ih fun p hp => h p (List.mem_cons_of_mem _ hp), List.append_assoc, List.singleton_append]

theorem joined_append (ps qs : List (List Char)) : joined (ps ++ qs) = joined ps ++ joined qs :=
  List.flatMap_append

theorem joined_singleton (part : List Char) : joined [part] = '/' :: part := by
  rw [joined, List.flatMap_cons, List.flatMap_nil, List.append_nil]

/-- Joined parts are split again. -/
theorem splitOn_joined (h : ∀ part ∈ ps, '/' ∉ part) : (joined ps).splitOn '/' = [] :: ps := by
  induction ps using List.reverseRecOn with
  | nil => rfl
  | append_singleton ps part ih =>
    rw [joined_append, joined_singleton, List.splitOn_append_cons_self,
      ih fun p hp => h p (List.mem_append_left _ hp),
      List.splitOn_eq_singleton (h part (List.mem_append_right _ (List.mem_singleton_self _))),
      List.cons_append]

/-- A rendered path is split into its parts. -/
theorem splitOn_render (h : ∀ part ∈ ps, '/' ∉ part) (trailing : Bool) :
    ∃ rest, (render ps trailing).splitOn '/' = [] :: ps ++ rest ∧ (rest = [] ∨ rest = [[]]) := by
  unfold render
  split
  · subst ps
    exact ⟨[[]], rfl, .inr rfl⟩
  · cases trailing with
    | false =>
      refine ⟨[], ?_, .inl rfl⟩
      rw [if_neg Bool.false_ne_true, List.append_nil, splitOn_joined h, List.append_nil]
    | true =>
      refine ⟨[[]], ?_, .inr rfl⟩
      rw [if_pos rfl, List.splitOn_append_cons_self, splitOn_joined h, List.splitOn_nil]

/-- The parts of a rendered path. -/
theorem parts_render (h : ∀ part ∈ ps, IsPart part) : parts (render ps trailing) = ps := by
  obtain ⟨rest, hsplit, hrest⟩ := splitOn_render (fun part hp => (h part hp).slash) trailing
  have hempty : resolvePart [] [] = [] := rfl
  rw [parts, hsplit, List.cons_append, List.foldl_cons, hempty, List.foldl_append,
    foldl_resolvePart h, List.nil_append]
  obtain rfl | rfl := hrest
  · rfl
  · rfl

/-! ### Directories -/

/-- The last character of joined parts is one of the last part. -/
theorem getLast?_joined_ne (h : ∀ part ∈ ps, IsPart part) : (joined ps).getLast? ≠ some '/' := by
  induction ps using List.reverseRecOn with
  | nil => exact fun h => nomatch h
  | append_singleton ps part =>
    have hpart := h part (List.mem_append_right _ (List.mem_singleton_self _))
    rw [joined_append, joined_singleton, List.getLast?_append_of_ne_nil _ (List.cons_ne_nil _ _),
      List.getLast?_cons_of_ne_nil hpart.ne_nil]
    exact fun hlast => hpart.slash (List.mem_of_getLast? hlast)

/-- A rendered path has a slash at its end if it is asked for. -/
theorem render_getLast? (h : ∀ part ∈ ps, IsPart part) :
    render ps ((render ps trailing).getLast? = some '/') = render ps trailing := by
  unfold render
  split
  · rfl
  · cases trailing with
    | false =>
      rw [if_neg Bool.false_ne_true, List.append_nil,
        if_neg (fun hlast => getLast?_joined_ne h (decide_eq_true_iff.mp hlast)), List.append_nil]
    | true => rw [if_pos rfl, List.getLast?_concat, if_pos (decide_eq_true rfl)]

/-- A directory without a slash at its end is its joined parts. -/
theorem folder_render (h : ∀ part ∈ ps, IsPart part) : folder (render ps trailing) = joined ps := by
  unfold render
  split
  · subst ps
    rfl
  · cases trailing with
    | false =>
      rw [if_neg Bool.false_ne_true, List.append_nil, folder, if_neg (getLast?_joined_ne h)]
    | true =>
      rw [if_pos rfl, folder, if_pos List.getLast?_concat, List.dropLast_concat]

/-- A resolved path is inside of a resolved directory exactly if its parts begin with those of the
directory. -/
theorem inside_iff (hps : ∀ part ∈ ps, IsPart part) (hqs : ∀ part ∈ qs, IsPart part) :
    Inside (render ps trailing) (render qs trailing') ↔ ps <+: qs := by
  rw [Inside, folder_render hps]
  have hsplit := splitOn_joined fun part hp => (hps part hp).slash
  obtain ⟨end', hsplit', hend⟩ := splitOn_render (fun part hp => (hqs part hp).slash) trailing'
  constructor
  · rintro (heq | ⟨rest, hrest⟩)
    · rw [heq, hsplit, List.cons_append, List.cons.injEq] at hsplit'
      obtain rfl | rfl := hend
      · rw [hsplit'.2, List.append_nil]
      · have hempty : [] ∈ ps := by
          rw [hsplit'.2]
          exact List.mem_append_right _ (List.mem_singleton_self _)
        exact absurd rfl (hps _ hempty).ne_nil
    · rw [← hrest, List.append_assoc, List.singleton_append, List.splitOn_append_cons_self, hsplit,
        List.cons_append, List.cons_append, List.cons.injEq] at hsplit'
      have hparts := hsplit'.2
      obtain rfl | rfl := hend
      · exact ⟨_, hparts.trans (List.append_nil qs)⟩
      · have hlength := congrArg List.length hparts
        have hpos := List.length_pos_of_ne_nil (List.splitOn_ne_nil '/' rest)
        rw [List.length_append, List.length_append, List.length_singleton] at hlength
        exact List.prefix_of_prefix_length_le ⟨_, hparts⟩ (List.prefix_append _ _) (by omega)
  · rintro ⟨rest, rfl⟩
    cases rest with
    | nil =>
      rw [List.append_nil, render]
      split
      · subst ps
        exact .inr List.prefix_rfl
      · cases trailing' with
        | false => exact .inl (List.append_nil _)
        | true => exact .inr List.prefix_rfl
    | cons part rest =>
      right
      have hne : ps ++ part :: rest ≠ [] :=
        List.append_ne_nil_of_right_ne_nil _ (List.cons_ne_nil _ _)
      have hjoined : joined (part :: rest) = ['/'] ++ (part ++ joined rest) := rfl
      rw [render, if_neg hne, joined_append, hjoined, ← List.append_assoc, List.append_assoc]
      exact List.prefix_append _ _

end Paths

end Lib
