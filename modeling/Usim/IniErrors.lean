import Mathlib.Data.Fintype.Order
import Mathlib.Order.Filter.AtTopBot.Basic
import Mathlib.Order.Filter.Finite
import Usim.Ini

/-!
# Errors in configuration files

What it means that all lines of a file and of the files that it includes are accepted, and when
`ini_parse` tells so: an error in an included file is not passed on.
-/

namespace Usim

open Lib

namespace Ini

/-! ### Files that do not include each other in a circle -/

/-- The files that can be opened. -/
structure FileSet where
  file : List Byte → Option (List Byte)
  finite : {f | file f ≠ none}.Finite
  acyclic : ∀ f, ¬Relation.TransGen (Includes file) f f

/-- A handler, with what it keeps. -/
abbrev Handler (σ : Type) := σ → List Byte → List Byte → List Byte → Bool × σ

/-! ### What is accepted -/

/-- The lines of a file are gone through, and with them the files that they include: whether the
lines of the file itself are accepted, and whether those of the included files are, too. -/
inductive Run {σ : Type} (files : List Byte → Option (List Byte)) (handler : Handler σ) :
    List Entry → σ → Bool → Bool → σ → Prop
  | nil (user : σ) : Run files handler [] user true true user
  | skip {es user user' own all} : Run files handler es user own all user' →
      Run files handler (.skip :: es) user own all user'
  | bad {es user user' own all} : Run files handler es user own all user' →
      Run files handler (.bad :: es) user false false user'
  | call {es user user' own all s n v} :
      Run files handler es (handler user s n v).2 own all user' →
      Run files handler (.call s n v :: es) user ((handler user s n v).1 && own)
        ((handler user s n v).1 && all) user'
  | missing {es user user' own all f} : files f = none → Run files handler es user own all user' →
      Run files handler (.includes f :: es) user false false user'
  | includes {es user user₁ user' own₁ all₁ own all f file} : files f = some file →
      Run files handler (entries file) user own₁ all₁ user₁ →
      Run files handler es user₁ own all user' →
      Run files handler (.includes f :: es) user own (all₁ && all) user'

section Accepted

variable {σ : Type} (files : List Byte → Option (List Byte)) (handler : Handler σ)
  (root : List Byte) (user : σ)

/-- The root can be opened and all of its own lines are accepted. -/
def OwnAccepted : Prop :=
  ∃ file all user', files root = some file ∧ Run files handler (entries file) user true all user'

/-- The root can be opened and all lines are accepted, with those of all included files. -/
def Accepted : Prop :=
  ∃ file own user', files root = some file ∧ Run files handler (entries file) user own true user'

/-- `ini_parse` returns, and it returns zero if and only if all lines are accepted. -/
def ErrorsKept : Prop :=
  ∃ depth, ∀ depth' ≥ depth, ∃ code user', iniParse files handler depth' root user =
    .ok (code, user') ∧ (code = 0 ↔ Accepted files handler root user)

/-- A file has fewer than 2 ^ 31 lines, no directive of more than 32 characters, and no `%include`
at the very end of a line. -/
structure Clean (file : List Byte) : Prop where
  lines : (readLines [] file).length < 2 ^ 31
  entries : ∀ e ∈ entries file, e ≠ .overflow ∧ e ≠ .stale

/-- The root and all files that it includes are clean. -/
def AllClean : Prop :=
  ∀ f file, Relation.ReflTransGen (Includes files) root f → files f = some file → Clean file

end Accepted

/-! ### Runs -/

section Runs

variable {σ : Type} {files : List Byte → Option (List Byte)} {handler : Handler σ}
  {es : List Entry} {user user' user'' : σ} {own all own' all' : Bool}

/-- There is one way to go through the lines. -/
theorem Run.unique (h : Run files handler es user own all user')
    (h' : Run files handler es user own' all' user'') :
    own = own' ∧ all = all' ∧ user' = user'' := by
  induction h generalizing own' all' user'' with
  | nil user =>
    cases h'
    exact ⟨rfl, rfl, rfl⟩
  | skip _ ih =>
    cases h' with
    | skip h' => exact ih h'
  | bad _ ih =>
    cases h' with
    | bad h' => exact ⟨rfl, rfl, (ih h').2.2⟩
  | call _ ih =>
    cases h' with
    | call h' =>
      obtain ⟨rfl, rfl, rfl⟩ := ih h'
      exact ⟨rfl, rfl, rfl⟩
  | missing hfile _ ih =>
    cases h' with
    | missing _ h' => exact ⟨rfl, rfl, (ih h').2.2⟩
    | includes hfile' =>
      rw [hfile] at hfile'
      cases hfile'
  | includes hfile _ _ ih₁ ih =>
    cases h' with
    | missing hfile' =>
      rw [hfile] at hfile'
      cases hfile'
    | includes hfile' h₁' h' =>
      rw [hfile] at hfile'
      cases hfile'
      obtain ⟨-, rfl, rfl⟩ := ih₁ h₁'
      obtain ⟨rfl, rfl, rfl⟩ := ih h'
      exact ⟨rfl, rfl, rfl⟩

/-- If all lines are accepted, then those of the file itself are. -/
theorem Run.own_of_all (h : Run files handler es user own true user') : own = true := by
  generalize hall : true = all at h
  induction h with
  | nil => rfl
  | skip _ ih => exact ih hall
  | bad => rfl
  | call _ ih =>
    obtain ⟨haccepted, hall⟩ := Bool.and_eq_true_iff.mp hall.symm
    rw [haccepted, ih hall.symm]
  | missing => rfl
  | includes _ _ _ _ ih =>
    obtain ⟨hall₁, hall⟩ := Bool.and_eq_true_iff.mp hall.symm
    rw [ih hall.symm, hall₁, Bool.true_and]

end Runs

/-! ### The loop -/

section Loop

variable {σ : Type} {files : List Byte → Option (List Byte)} {handler : Handler σ}
  {parse : List Byte → σ → Except Fault (ℤ × σ)} {st : Stream σ} {line : List Byte}

/-- An included file is parsed: it cannot be opened, or its lines are gone through. -/
def Parsed (files : List Byte → Option (List Byte)) (handler : Handler σ)
    (parse : List Byte → σ → Except Fault (ℤ × σ)) (f : List Byte) : Prop :=
  ∀ user, ∃ code user', parse f user = .ok (code, user') ∧
    (files f = none ∧ code < 0 ∧ user' = user ∨
      ∃ file own all, files f = some file ∧ Run files handler (entries file) user own all user' ∧
        0 ≤ code ∧ (code = 0 ↔ own = true))

/-- The error of a stream after a line. -/
structure Follows (st st' : Stream σ) (own : Bool) : Prop where
  nonneg : 0 ≤ st.error → 0 ≤ st'.error
  error : st'.error = 0 ↔ st.error = 0 ∧ own = true

/-- A line without an error. -/
theorem Follows.keep {st st' : Stream σ} (h : st'.error = st.error) : Follows st st' true := by
  constructor
  · rw [h]
    exact id
  · rw [h]
    exact (and_iff_left rfl).symm

theorem Follows.trans {st st₁ st' : Stream σ} {own₁ own : Bool} (h₁ : Follows st st₁ own₁)
    (h : Follows st₁ st' own) : Follows st st' (own₁ && own) := by
  constructor
  · exact fun hnonneg => h.nonneg (h₁.nonneg hnonneg)
  · rw [h.error, h₁.error, Bool.and_eq_true_iff, and_assoc]

/-- A line with an error. -/
theorem Follows.fail {st st' : Stream σ} (h : st'.error = st.error) (hlineno : 0 < st'.lineno) :
    Follows st st'.fail false := by
  have herror : st'.fail.error = if st.error = 0 then (st'.lineno : ℤ) else st.error := by
    rw [← h]
    rfl
  constructor
  · intro hnonneg
    rw [herror]
    split <;> omega
  · rw [herror]
    split <;> simp <;> omega

/-- One line of a clean file. -/
theorem streamStep_ok {entry : Entry} {ctx : Context} (hlineno : st.lineno + 1 < 2 ^ 31)
    (hline : parseLine (st.lineno + 1) st.ctx line = (entry, ctx))
    (hclean : entry ≠ .overflow ∧ entry ≠ .stale)
    (hparsed : ∀ f, entry = .includes f → Parsed files handler parse f) :
    ∃ st' own₁ all₁, streamStep handler parse st line = .ok st' ∧
      st'.lineno = st.lineno + 1 ∧ st'.ctx = ctx ∧ Follows st st' own₁ ∧
      ∀ es own all user', Run files handler es st'.user own all user' →
        Run files handler (entry :: es) st.user (own₁ && own) (all₁ && all) user' := by
  have hne : ¬st.lineno + 1 = 2 ^ 31 := Nat.ne_of_lt hlineno
  unfold streamStep
  rw [if_neg hne, hline]
  cases entry with
  | skip => exact ⟨_, true, true, rfl, rfl, rfl, .keep rfl, fun _ _ _ _ h => .skip h⟩
  | bad =>
    exact ⟨_, false, false, rfl, rfl, rfl, .fail rfl (Nat.succ_pos _), fun _ _ _ _ h => .bad h⟩
  | call sectionName name value =>
    cases haccepted : (handler st.user sectionName name value).1 with
    | true =>
      refine ⟨{ st with
        lineno := st.lineno + 1, ctx := ctx, user := (handler st.user sectionName name value).2 },
        true, true, ?_, rfl, rfl, .keep rfl, ?_⟩
      · simp only [haccepted, if_true]
        rfl
      · intro es own all user' hrun
        have hcall := Run.call hrun
        rwa [haccepted] at hcall
    | false =>
      refine ⟨Stream.fail { st with
        lineno := st.lineno + 1, ctx := ctx, user := (handler st.user sectionName name value).2 },
        false, false, ?_, rfl, rfl, .fail rfl (Nat.succ_pos _), ?_⟩
      · simp only [haccepted]
        rfl
      · intro es own all user' hrun
        have hcall := Run.call hrun
        rwa [haccepted] at hcall
  | includes filename =>
    obtain ⟨code, user, hparse, hfile⟩ := hparsed filename rfl st.user
    obtain ⟨hnone, hcode, rfl⟩ | ⟨file, own₁, all₁, hsome, hrun₁, hcode, -⟩ := hfile
    · refine ⟨Stream.fail { st with lineno := st.lineno + 1, ctx := ctx, user := st.user },
        false, false, ?_, rfl, rfl, .fail rfl (Nat.succ_pos _), fun _ _ _ _ h => .missing hnone h⟩
      change (parse filename st.user >>= _) = _
      rw [hparse]
      change Except.ok (if code < 0 then _ else _) = _
      rw [if_pos hcode]
    · refine ⟨{ st with lineno := st.lineno + 1, ctx := ctx, user := user }, true, all₁, ?_, rfl,
        rfl, .keep rfl, fun _ _ _ _ h => .includes hsome hrun₁ h⟩
      change (parse filename st.user >>= _) = _
      rw [hparse]
      change Except.ok (if code < 0 then _ else _) = _
      rw [if_neg (Int.not_lt.mpr hcode)]
  | overflow => exact absurd rfl hclean.1
  | stale => exact absurd rfl hclean.2

/-- The lines of a clean file. -/
theorem foldlM_streamStep_ok {lines : List (List Byte)}
    (hlength : st.lineno + lines.length < 2 ^ 31)
    (hclean : ∀ e ∈ entriesFrom st.lineno st.ctx lines, e ≠ .overflow ∧ e ≠ .stale)
    (hparsed : ∀ f, .includes f ∈ entriesFrom st.lineno st.ctx lines →
      Parsed files handler parse f) :
    ∃ st' own all, lines.foldlM (streamStep handler parse) st = .ok st' ∧ Follows st st' own ∧
      Run files handler (entriesFrom st.lineno st.ctx lines) st.user own all st'.user := by
  induction lines generalizing st with
  | nil => exact ⟨st, true, true, rfl, .keep rfl, .nil st.user⟩
  | cons line lines ih =>
    obtain ⟨entry, ctx, hline⟩ : ∃ entry ctx,
        parseLine (st.lineno + 1) st.ctx line = (entry, ctx) := ⟨_, _, rfl⟩
    have htail : entriesFrom st.lineno st.ctx (line :: lines) =
        entry :: entriesFrom (st.lineno + 1) ctx lines := by
      rw [entriesFrom, hline]
    rw [List.length_cons] at hlength
    rw [htail] at hclean hparsed ⊢
    obtain ⟨st₁, own₁, all₁, hstep, hlineno, rfl, hfollows₁, hrun₁⟩ :=
      streamStep_ok (by omega) hline (hclean _ List.mem_cons_self)
        fun f hf => hparsed f (hf ▸ List.mem_cons_self)
    rw [← hlineno] at hclean hparsed ⊢
    obtain ⟨st', own, all, hfold, hfollows, hrun⟩ :=
      ih (by omega) (fun e he => hclean e (List.mem_cons_of_mem _ he))
        fun f hf => hparsed f (List.mem_cons_of_mem _ hf)
    refine ⟨st', own₁ && own, all₁ && all, ?_, hfollows₁.trans hfollows, hrun₁ _ _ _ _ hrun⟩
    rw [List.foldlM_cons, hstep]
    exact hfold

/-- What a line must be if the loop does not stop at it. -/
theorem clean_of_streamStep {st' : Stream σ} {entry : Entry} {ctx : Context}
    (hline : parseLine (st.lineno + 1) st.ctx line = (entry, ctx))
    (h : streamStep handler parse st line = .ok st') :
    st.lineno + 1 ≠ 2 ^ 31 ∧ st'.lineno = st.lineno + 1 ∧ st'.ctx = ctx ∧
      entry ≠ .overflow ∧ entry ≠ .stale ∧
      ∀ f, entry = .includes f → ∃ r, parse f st.user = .ok r := by
  unfold streamStep at h
  by_cases hlineno : st.lineno + 1 = 2 ^ 31
  · rw [if_pos hlineno] at h
    cases h
  · rw [if_neg hlineno, hline] at h
    have hfail (st₁ : Stream σ) (c : Prop) [Decidable c] :
        (if c then st₁ else st₁.fail).lineno = st₁.lineno ∧
          (if c then st₁ else st₁.fail).ctx = st₁.ctx := by
      split <;> exact ⟨rfl, rfl⟩
    cases entry with
    | skip =>
      cases h
      exact ⟨hlineno, rfl, rfl, nofun, nofun, nofun⟩
    | bad =>
      cases h
      exact ⟨hlineno, rfl, rfl, nofun, nofun, nofun⟩
    | call sectionName name value =>
      cases h
      obtain ⟨hlineno', hctx⟩ := hfail { st with
        lineno := st.lineno + 1, ctx := ctx, user := (handler st.user sectionName name value).2 }
        ((handler st.user sectionName name value).1 = true)
      exact ⟨hlineno, hlineno', hctx, nofun, nofun, nofun⟩
    | includes filename =>
      cases hparse : parse filename st.user with
      | error fault =>
        change (parse filename st.user >>= _) = _ at h
        rw [hparse] at h
        cases h
      | ok r =>
        change (parse filename st.user >>= _) = _ at h
        rw [hparse] at h
        change Except.ok (if r.1 < 0 then _ else _) = _ at h
        cases h
        refine ⟨hlineno, ?_, ?_, nofun, nofun, ?_⟩
        · split <;> rfl
        · split <;> rfl
        · rintro f hf
          cases hf
          exact ⟨r, hparse⟩
    | overflow => cases h
    | stale => cases h

/-- The loop does not stop at the lines of a file only if the file is clean. -/
theorem clean_of_foldlM {lines : List (List Byte)} {st' : Stream σ}
    (h : lines.foldlM (streamStep handler parse) st = .ok st') (hlineno : st.lineno < 2 ^ 31) :
    st.lineno + lines.length < 2 ^ 31 ∧
      ∀ e ∈ entriesFrom st.lineno st.ctx lines, e ≠ .overflow ∧ e ≠ .stale ∧
        ∀ f, e = .includes f → ∃ user r, parse f user = .ok r := by
  induction lines generalizing st with
  | nil => exact ⟨hlineno, fun _ he => absurd he List.not_mem_nil⟩
  | cons line lines ih =>
    rw [List.foldlM_cons] at h
    cases hstep : streamStep handler parse st line with
    | error fault =>
      rw [hstep] at h
      cases h
    | ok st₁ =>
      rw [hstep] at h
      obtain ⟨entry, ctx, hline⟩ : ∃ entry ctx,
          parseLine (st.lineno + 1) st.ctx line = (entry, ctx) := ⟨_, _, rfl⟩
      obtain ⟨hne, hlineno₁, rfl, hoverflow, hstale, hincludes⟩ := clean_of_streamStep hline hstep
      obtain ⟨hlength, hentries⟩ := ih h (by omega)
      rw [List.length_cons, entriesFrom, hline]
      refine ⟨by omega, ?_⟩
      intro e he
      obtain rfl | he := List.mem_cons.mp he
      · exact ⟨hoverflow, hstale, fun f hf => ⟨st.user, hincludes f hf⟩⟩
      · rw [hlineno₁] at hentries
        exact hentries e he

end Loop

/-! ### Files that include files -/

/-- From the included files to those that include them. -/
theorem FileSet.wellFounded (files : FileSet) :
    WellFounded fun g f => Includes files.file f g := by
  have hfinite : Finite {f // files.file f ≠ none} := files.finite
  let below (g f : {f // files.file f ≠ none}) := Relation.TransGen (Includes files.file) f.1 g.1
  have htrans : IsTrans _ below := ⟨fun _ _ _ h h' => h'.trans h⟩
  have hirrefl : Std.Irrefl below := ⟨fun f => files.acyclic f.1⟩
  have hbelow : WellFounded below := Finite.wellFounded_of_trans_of_irrefl below
  have hmissing {f : List Byte} (hf : files.file f = none) :
      Acc (fun g f => Includes files.file f g) f := by
    constructor
    rintro g ⟨file, hfile, -⟩
    rw [hf] at hfile
    cases hfile
  have hpresent (f : {f // files.file f ≠ none}) :
      Acc (fun g f => Includes files.file f g) f.1 := by
    induction f using hbelow.induction with
    | _ f ih =>
      constructor
      intro g hg
      by_cases hnone : files.file g = none
      · exact hmissing hnone
      · exact ih ⟨g, hnone⟩ (.single hg)
  constructor
  intro f
  by_cases hnone : files.file f = none
  · exact hmissing hnone
  · exact hpresent ⟨f, hnone⟩

section Files

variable {σ : Type} {handler : Handler σ} {root : List Byte} {user : σ}

/-- A file that is included by a clean one. -/
theorem AllClean.of_includes {files : List Byte → Option (List Byte)} (h : AllClean files root)
    {f : List Byte} (hf : Includes files root f) : AllClean files f :=
  fun _ _ hg => h _ _ (.head hf hg)

/-- Clean files are parsed, if files may include each other deep enough. -/
theorem exists_parsed (files : FileSet) (h : AllClean files.file root) :
    ∃ depth, ∀ depth' ≥ depth, Parsed files.file handler (iniParse files.file handler depth')
      root := by
  induction root using files.wellFounded.induction with
  | _ root ih =>
    cases hfile : files.file root with
    | none =>
      refine ⟨1, fun depth hdepth user => ⟨-1, user, ?_, .inl ⟨hfile, by decide, rfl⟩⟩⟩
      obtain ⟨n, rfl⟩ := Nat.exists_eq_add_of_le' hdepth
      rw [iniParse, hfile]
    | some file =>
      have hclean := h root file .refl hfile
      have hincluded : {f | Entry.includes f ∈ entries file}.Finite := by
        have hinjective : Function.Injective Entry.includes := fun f g hfg => Entry.includes.inj hfg
        exact (entries file).finite_toSet.preimage hinjective.injOn
      have hparsed : ∀ᶠ depth in Filter.atTop, ∀ f ∈ {f | Entry.includes f ∈ entries file},
          Parsed files.file handler (iniParse files.file handler depth) f := by
        rw [Filter.eventually_all_finite hincluded]
        intro f hf
        have hincludes : Includes files.file root f := ⟨file, hfile, hf⟩
        exact Filter.eventually_atTop.mpr (ih f hincludes (h.of_includes hincludes))
      obtain ⟨depth, hdepth⟩ := Filter.eventually_atTop.mp hparsed
      refine ⟨depth + 1, fun depth' hdepth' user => ?_⟩
      obtain ⟨n, rfl⟩ := Nat.exists_eq_add_of_le' hdepth'
      have hlength : (⟨0, ⟨[], []⟩, 0, user⟩ : Stream σ).lineno + (readLines [] file).length <
          2 ^ 31 := by
        rw [Nat.zero_add]
        exact hclean.lines
      obtain ⟨st, own, all, hfold, hfollows, hrun⟩ :=
        foldlM_streamStep_ok hlength hclean.entries (hdepth (n + depth) (Nat.le_add_left _ _))
      refine ⟨st.error, st.user, ?_, .inr ⟨file, own, all, hfile, hrun,
        hfollows.nonneg (Int.le_refl 0), ?_⟩⟩
      · rw [← Nat.add_assoc, iniParse, hfile]
        change parseStream _ _ _ _ = _
        rw [parseStream, hfold]
        rfl
      · rw [hfollows.error, and_iff_right rfl]

/-- Files that are parsed are clean. -/
theorem allClean_of_ok {files : List Byte → Option (List Byte)} {depth : ℕ} {r : ℤ × σ}
    (h : iniParse files handler depth root user = .ok r) : AllClean files root := by
  induction depth generalizing root user r with
  | zero => cases h
  | succ depth ih =>
    intro f file hreach hfile
    rw [iniParse] at h
    cases hroot : files root with
    | none =>
      obtain rfl | ⟨g, ⟨file', hfile', -⟩, -⟩ := hreach.cases_head
      · rw [hroot] at hfile
        cases hfile
      · rw [hroot] at hfile'
        cases hfile'
    | some rootFile =>
      rw [hroot] at h
      change parseStream _ _ _ _ = _ at h
      rw [parseStream] at h
      cases hfold : (readLines [] rootFile).foldlM
          (streamStep handler (iniParse files handler depth)) ⟨0, ⟨[], []⟩, 0, user⟩ with
      | error fault =>
        rw [hfold] at h
        cases h
      | ok st =>
        obtain ⟨hlength, hentries⟩ := clean_of_foldlM hfold (Nat.two_pow_pos 31)
        obtain rfl | ⟨g, ⟨file', hfile', hg⟩, hreach⟩ := hreach.cases_head
        · rw [hroot] at hfile
          cases hfile
          refine ⟨?_, fun e he => ⟨(hentries e he).1, (hentries e he).2.1⟩⟩
          rwa [Nat.zero_add] at hlength
        · rw [hroot] at hfile'
          cases hfile'
          obtain ⟨-, -, hok⟩ := hentries _ hg
          obtain ⟨user', r', hr'⟩ := hok g rfl
          exact ih hr' f file hreach hfile

/-- Errors are kept if and only if the files are clean and an error in an included file comes with
one in the root. -/
theorem errors_kept (files : FileSet) (handler : Handler σ) (root : List Byte) (user : σ) :
    ErrorsKept files.file handler root user ↔ AllClean files.file root ∧
      (OwnAccepted files.file handler root user → Accepted files.file handler root user) := by
  constructor
  · rintro ⟨depth, hkept⟩
    obtain ⟨code, user', hparse, hcode⟩ := hkept depth (Nat.le_refl depth)
    have hclean := allClean_of_ok hparse
    refine ⟨hclean, ?_⟩
    rintro ⟨file, all, user₁, hroot, hrun⟩
    obtain ⟨depth', hparsed⟩ : ∃ depth, ∀ depth' ≥ depth,
        Parsed files.file handler (iniParse files.file handler depth') root :=
      exists_parsed files hclean
    obtain ⟨code', user₂, hparse', ⟨hnone, -⟩ | ⟨file', own', all', hroot', hrun', -, hcode'⟩⟩ :=
      hparsed (max depth depth') (Nat.le_max_right _ _) user
    · rw [hroot] at hnone
      cases hnone
    · obtain ⟨code₁, user₃, hparse₁, hcode₁⟩ := hkept (max depth depth') (Nat.le_max_left _ _)
      rw [hparse'] at hparse₁
      cases hparse₁
      rw [hroot] at hroot'
      cases hroot'
      exact hcode₁.mp (hcode'.mpr (hrun.unique hrun').1.symm)
  · rintro ⟨hclean, hown⟩
    obtain ⟨depth, hparsed⟩ : ∃ depth, ∀ depth' ≥ depth,
        Parsed files.file handler (iniParse files.file handler depth') root :=
      exists_parsed files hclean
    refine ⟨depth, fun depth' hdepth' => ?_⟩
    obtain ⟨code, user', hparse, hfile⟩ := hparsed depth' hdepth' user
    refine ⟨code, user', hparse, ?_⟩
    obtain ⟨hnone, hneg, -⟩ | ⟨file, own, all, hroot, hrun, -, hcode⟩ := hfile
    · apply iff_of_false (Int.ne_of_lt hneg)
      rintro ⟨file, own, user', hroot, -⟩
      rw [hroot] at hnone
      cases hnone
    · rw [hcode]
      constructor
      · rintro rfl
        exact hown ⟨file, all, user', hroot, hrun⟩
      · rintro ⟨file', own', user₁, hroot', hrun'⟩
        rw [hroot] at hroot'
        cases hroot'
        rw [(hrun.unique hrun').1]
        exact hrun'.own_of_all

end Files

/-! ### An error that is lost -/

/-- The root includes a file with an error. -/
def lostFile (f : List Byte) : Option (List Byte) :=
  if f = chars "root" then some (chars "%include a")
  else if f = chars "a" then some (chars "x")
  else none

theorem entries_root : entries (chars "%include a") = [.includes (chars "a")] := by decide

theorem entries_a : entries (chars "x") = [.bad] := by decide

theorem lostFile_a : lostFile (chars "a") = some (chars "x") := by decide

theorem includes_lostFile {f g : List Byte} (h : Includes lostFile f g) :
    f = chars "root" ∧ g = chars "a" := by
  obtain ⟨file, hfile, hg⟩ := h
  unfold lostFile at hfile
  split_ifs at hfile with hroot
  · cases hfile
    rw [entries_root, List.mem_singleton] at hg
    cases hg
    exact ⟨hroot, rfl⟩
  · cases hfile
    rw [entries_a, List.mem_singleton] at hg
    cases hg

/-- The files. -/
def lostFiles : FileSet where
  file := lostFile
  finite := by
    apply (Set.toFinite {chars "root", chars "a"}).subset
    intro f hf
    by_contra hother
    rw [Set.mem_insert_iff, Set.mem_singleton_iff, not_or] at hother
    exact hf (by rw [lostFile, if_neg hother.1, if_neg hother.2])
  acyclic := by
    intro f hf
    obtain ⟨g, hg, -⟩ := Relation.TransGen.head'_iff.mp hf
    obtain ⟨g', -, hg'⟩ := Relation.TransGen.tail'_iff.mp hf
    have hroot := (includes_lostFile hg).1
    rw [(includes_lostFile hg').2] at hroot
    exact absurd hroot (by decide)

/-- The error is in no line of the root, so zero is returned. -/
theorem not_errorsKept :
    ¬ErrorsKept lostFiles.file (fun _ _ _ _ => (true, ())) (chars "root") () := by
  rintro ⟨depth, hkept⟩
  obtain ⟨code, user, hparse, hcode⟩ := hkept (depth + 2) (Nat.le_add_right _ _)
  have hzero : iniParse lostFile (fun _ _ _ _ => (true, ())) (depth + 2) (chars "root") () =
      .ok (0, ()) := rfl
  have haccepted : ¬Accepted lostFile (fun _ _ _ _ => (true, ())) (chars "root") () := by
    rintro ⟨file, own, user', hfile, hrun⟩
    have hroot : lostFile (chars "root") = some (chars "%include a") := if_pos rfl
    rw [hroot] at hfile
    cases hfile
    generalize hall : true = all at hrun
    rw [entries_root] at hrun
    cases hrun with
    | missing => cases hall
    | includes hfile hrun =>
      rw [lostFile_a] at hfile
      cases hfile
      rw [entries_a] at hrun
      cases hrun
      cases hall
  change iniParse lostFile _ _ _ _ = _ at hparse
  rw [hzero] at hparse
  cases hparse
  exact haccepted (hcode.mp rfl)

end Ini

end Usim
