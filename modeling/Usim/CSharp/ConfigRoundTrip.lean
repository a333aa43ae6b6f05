import Mathlib.Data.List.Perm.Subperm
import Usim.CSharp.ConfigLines

/-!
# Configuration files that are saved

Of all lines that are written, as many must be read as pairs as there are pairs, so a line that is
read as something else is missed.
-/

namespace Usim

open Lib

namespace SharpConfig

variable {upper : Char → Char}

/-! ### What lines assign -/

/-- The pairs that are assigned, with the section and the key as they are compared. -/
def writes (upper : Char → Char) : List Line → Text → List ((Text × Text) × Text)
  | [], _ => []
  | .skip :: lines, current => writes upper lines current
  | .head name :: lines, _ => writes upper lines name
  | .pair key value :: lines, current =>
    ((current.map upper, key.map upper), value) :: writes upper lines current
  | .malformed :: lines, current => writes upper lines current

/-- The heads of sections, as they are compared. -/
def heads (upper : Char → Char) : List Line → List Text
  | [] => []
  | .head name :: lines => name.map upper :: heads upper lines
  | _ :: lines => heads upper lines

section Apply

variable {st st' : Loading upper} {name key value : Text}

theorem find_addSection (sections : Sections upper) (name name' : Text) :
    ((addSection sections name).find name').isSome ↔
      (sections.find name').isSome ∨ name'.map upper = name.map upper := by
  unfold addSection
  split
  case isTrue h =>
    constructor
    · exact Or.inl
    · rintro (h' | hname)
      · exact h'
      · rwa [Dictionary.find_congr hname]
  case isFalse h =>
    by_cases hname : name'.map upper = name.map upper
    · rw [Dictionary.find_congr hname, Dictionary.find_assign_self]
      exact iff_of_true rfl (.inr hname)
    · rw [Dictionary.find_assign_of_ne _ (Ne.symm hname), or_iff_left hname]

theorem lookup_addSection (sections : Sections upper) (name name' key : Text) :
    lookup (addSection sections name) name' key = lookup sections name' key := by
  unfold addSection
  split
  · rfl
  · rename_i h
    unfold lookup
    by_cases hname : name'.map upper = name.map upper
    · rw [Dictionary.find_congr hname, Dictionary.find_assign_self, Dictionary.find_congr hname,
        Option.not_isSome_iff_eq_none.mp h]
      rfl
    · rw [Dictionary.find_assign_of_ne _ (Ne.symm hname)]

/-- A pair is assigned in the current section. -/
theorem lookup_assign {sections : Sections upper} {current : Text} {table : Table upper Text}
    (htable : sections.find current = some table) (name k : Text) :
    lookup (sections.assign current (table.assign key value)) name k =
      if name.map upper = current.map upper ∧ k.map upper = key.map upper then some value
      else lookup sections name k := by
  unfold lookup
  by_cases hname : name.map upper = current.map upper
  · rw [Dictionary.find_congr hname, Dictionary.find_assign_self, Dictionary.find_congr hname,
      htable]
    change (table.assign key value).find k = if _ then _ else table.find k
    by_cases hkey : k.map upper = key.map upper
    · rw [Dictionary.find_congr hkey, Dictionary.find_assign_self, if_pos ⟨hname, hkey⟩]
    · rw [Dictionary.find_assign_of_ne _ (Ne.symm hkey), if_neg fun h => hkey h.2]
  · rw [Dictionary.find_assign_of_ne _ (Ne.symm hname), if_neg fun h => hname h.1]

theorem isSome_assign {sections : Sections upper} {current : Text} {table : Table upper Text}
    (htable : sections.find current = some table) (table' : Table upper Text) (name : Text) :
    ((sections.assign current table').find name).isSome = (sections.find name).isSome := by
  by_cases hname : name.map upper = current.map upper
  · rw [Dictionary.find_congr hname, Dictionary.find_assign_self, Dictionary.find_congr hname,
      htable]
    rfl
  · rw [Dictionary.find_assign_of_ne _ (Ne.symm hname)]

end Apply

/-- What loading some lines does. -/
structure Loads (lines : List Line) (st st' : Loading upper) : Prop where
  current : (st'.sections.find st'.currentSection).isSome
  sections : ∀ name, (st'.sections.find name).isSome ↔
    (st.sections.find name).isSome ∨ name.map upper ∈ heads upper lines
  written : ∀ name key value, lookup st'.sections name key = some value →
    lookup st.sections name key = some value ∨
      ((name.map upper, key.map upper), value) ∈ writes upper lines st.currentSection
  kept : ∀ name key, (lookup st'.sections name key).isSome ↔
    (lookup st.sections name key).isSome ∨
      ∃ value, ((name.map upper, key.map upper), value) ∈ writes upper lines st.currentSection

/-- Lines are loaded unless one of them is malformed. -/
theorem foldlM_apply {lines : List Line} {st : Loading upper}
    (hcurrent : (st.sections.find st.currentSection).isSome) (h : .malformed ∉ lines) :
    ∃ st', lines.foldlM Loading.apply st = some st' ∧ Loads lines st st' := by
  induction lines generalizing st with
  | nil =>
    refine ⟨st, rfl, hcurrent, fun name => ?_, fun _ _ _ hlookup => .inl hlookup, fun _ _ => ?_⟩
    · exact (or_iff_left List.not_mem_nil).symm
    · exact (or_iff_left fun ⟨_, h⟩ => List.not_mem_nil h).symm
  | cons line lines ih =>
    have hrest : .malformed ∉ lines := fun hmem => h (List.mem_cons_of_mem line hmem)
    cases line with
    | skip =>
      obtain ⟨st', hst', hloads⟩ := ih hcurrent hrest
      exact ⟨st', hst', hloads.current, hloads.sections, hloads.written, hloads.kept⟩
    | head name =>
      have hfind : ((addSection st.sections name).find name).isSome :=
        (find_addSection _ _ _).mpr (.inr rfl)
      have hfind' : ((⟨name, addSection st.sections name⟩ : Loading upper).sections.find
          (⟨name, addSection st.sections name⟩ : Loading upper).currentSection).isSome := hfind
      obtain ⟨st', hst', hloads⟩ := ih hfind' hrest
      refine ⟨st', hst', hloads.current, fun name' => ?_, fun name' key value hlookup => ?_,
        fun name' key => ?_⟩
      · rw [hloads.sections, find_addSection, or_assoc]
        change _ ↔ _ ∨ _ ∈ name.map upper :: heads upper lines
        rw [List.mem_cons]
      · have hwritten := hloads.written name' key value hlookup
        rwa [lookup_addSection] at hwritten
      · have hkept := hloads.kept name' key
        rwa [lookup_addSection] at hkept
    | pair key value =>
      obtain ⟨table, htable⟩ := Option.isSome_iff_exists.mp hcurrent
      have happly : st.apply (.pair key value) = some { st with
          sections := st.sections.assign st.currentSection (table.assign key value) } := by
        rw [Loading.apply, htable]
      have hfind := isSome_assign htable (table.assign key value)
      have hcurrent₁ : (({ st with
          sections := st.sections.assign st.currentSection (table.assign key value) } :
            Loading upper).sections.find st.currentSection).isSome := by
        rw [hfind]
        exact hcurrent
      obtain ⟨st', hst', hloads⟩ := ih hcurrent₁ hrest
      refine ⟨st', by rw [List.foldlM_cons, happly]; exact hst', hloads.current, fun name => ?_,
        fun name k v hlookup => ?_, fun name k => ?_⟩
      · rw [hloads.sections, hfind]
        rfl
      · obtain hlookup | hmem := hloads.written name k v hlookup
        · rw [lookup_assign htable] at hlookup
          split at hlookup
          case isTrue hkey =>
            cases hlookup
            rw [hkey.1, hkey.2]
            exact .inr List.mem_cons_self
          case isFalse => exact .inl hlookup
        · exact .inr (List.mem_cons_of_mem _ hmem)
      · rw [hloads.kept, lookup_assign htable]
        change _ ↔ _ ∨ ∃ v, _ ∈ ((st.currentSection.map upper, key.map upper), value) ::
          writes upper lines st.currentSection
        by_cases hkey : name.map upper = st.currentSection.map upper ∧
            k.map upper = key.map upper
        · rw [if_pos hkey, hkey.1, hkey.2]
          exact iff_of_true (.inl rfl) (.inr ⟨value, List.mem_cons_self⟩)
        · rw [if_neg hkey]
          have hne (v : Text) : ((name.map upper, k.map upper), v) ≠
              ((st.currentSection.map upper, key.map upper), value) := by
            intro heq
            have hpair := congrArg Prod.fst heq
            exact hkey ⟨congrArg Prod.fst hpair, congrArg Prod.snd hpair⟩
          simp only [List.mem_cons, hne, false_or]
    | malformed => exact absurd List.mem_cons_self h

/-- The loop of `Load` succeeds if all lines are loaded. -/
theorem loadLines_eq_true {lines : List Text} {st : Loading upper} {sections : Sections upper} :
    loadLines lines st = (true, sections) ↔
      ∃ st', (lines.map parseLine).foldlM Loading.apply st = some st' ∧
        st'.sections = sections := by
  induction lines generalizing st with
  | nil =>
    constructor
    · intro h
      cases h
      exact ⟨st, rfl, rfl⟩
    · rintro ⟨st', hst', rfl⟩
      cases hst'
      rfl
  | cons line lines ih =>
    rw [loadLines, List.map_cons, List.foldlM_cons]
    cases happly : st.apply (parseLine line) with
    | none =>
      constructor
      · intro h
        cases h
      · rintro ⟨st', hst', -⟩
        cases hst'
    | some st₁ => exact ih

/-- No line that is loaded is malformed. -/
theorem not_malformed_of_foldlM {lines : List Line} {st st' : Loading upper}
    (h : lines.foldlM Loading.apply st = some st') : .malformed ∉ lines := by
  induction lines generalizing st with
  | nil => exact List.not_mem_nil
  | cons line lines ih =>
    rw [List.foldlM_cons] at h
    obtain ⟨st₁, happly, h⟩ := Option.bind_eq_some_iff.mp h
    intro hmem
    obtain rfl | hmem := List.mem_cons.mp hmem
    · cases happly
    · exact ih h hmem

/-! ### What a file gives -/

/-- Nothing in a text ends a line. -/
def OneLine (t : Text) : Prop := ∀ c ∈ t, c ≠ '\n' ∧ c ≠ '\r'

/-- What is read from a file. -/
structure FromFile (sections : Sections upper) : Prop where
  general : (sections.find general).isSome
  names : ∀ e ∈ sections.entries, trim e.1 = e.1 ∧ OneLine e.1
  pairs : ∀ e ∈ sections.entries, ∀ kv ∈ e.2.entries,
    IsKey kv.1 ∧ OneLine kv.1 ∧ OneLine kv.2

/-- What a line gives. -/
inductive LineOk : Line → Prop
  | skip : LineOk .skip
  | head {name} (trimmed : trim name = name) (line : OneLine name) : LineOk (.head name)
  | pair {key value} (isKey : IsKey key) (key_line : OneLine key) (line : OneLine value) :
      LineOk (.pair key value)
  | malformed : LineOk .malformed

/-- The lines of a text. -/
theorem oneLine_readAllLines {line file : Text} (hline : OneLine line) :
    ∀ l ∈ readAllLines line file, OneLine l := by
  have hnil : OneLine [] := fun _ hc => absurd hc List.not_mem_nil
  induction line, file using readAllLines.induct with
  | case1 =>
    rw [readAllLines, if_pos rfl]
    exact fun _ hl => absurd hl List.not_mem_nil
  | case2 line hne =>
    rw [readAllLines, if_neg hne]
    intro l hl
    rwa [List.mem_singleton.mp hl]
  | case3 line t ih =>
    intro l hl
    obtain rfl | hl := List.mem_cons.mp hl
    · exact hline
    · exact ih hnil l hl
  | case4 line t ih =>
    intro l hl
    obtain rfl | hl := List.mem_cons.mp hl
    · exact hline
    · exact ih hnil l hl
  | case5 line t hnext ih =>
    intro l hl
    rw [readAllLines] at hl
    · obtain rfl | hl := List.mem_cons.mp hl
      · exact hline
      · exact ih hnil l hl
    · exact hnext
  | case6 line c t hnewline hreturn hother ih =>
    intro l hl
    rw [readAllLines] at hl
    · refine ih (fun d hd => ?_) l hl
      obtain hd | hd := List.mem_append.mp hd
      · exact hline d hd
      · rw [List.mem_singleton.mp hd]
        exact ⟨hnewline, hother⟩
    · exact hnewline
    · exact hreturn
    · exact hother

/-- What is left of a line has no line end either. -/
theorem OneLine.subset {t t' : Text} (h : OneLine t) (hsub : ∀ c ∈ t', c ∈ t) : OneLine t' :=
  fun c hc => h c (hsub c hc)

theorem mem_of_mem_inner {t t' : Text} (h : inner t = some t') : ∀ c ∈ t', c ∈ t := by
  unfold inner at h
  split at h
  · cases h
  · cases h
    exact fun c hc => List.drop_subset 1 t ((List.dropLast_sublist _).subset hc)

theorem mem_of_mem_unquote {t t' : Text} (h : unquote t = some t') : ∀ c ∈ t', c ∈ t := by
  unfold unquote at h
  split at h
  · exact mem_of_mem_inner h
  · cases h
    exact fun _ hc => hc

/-- The key of a line that is no comment. -/
theorem isKey_takeWhile {t : Text} (hhead : ∀ c ∈ t.head?, isWhiteSpace c = false)
    (hcomment : t.head? ≠ some '#' ∧ t.head? ≠ some ';') :
    IsKey (trim (t.takeWhile (· ≠ '='))) := by
  have hfirst : (trim (t.takeWhile (· ≠ '='))).head? = t.head? ∨
      trim (t.takeWhile (· ≠ '=')) = [] := by
    cases t with
    | nil => exact .inr rfl
    | cons c t =>
      by_cases hc : c = '='
      · rw [List.takeWhile_cons_of_neg (by simpa using hc)]
        exact .inr rfl
      · have hwhite := hhead c rfl
        have hcons := rdropWhile_append_cons hwhite [] (t.takeWhile (· ≠ '='))
        rw [List.takeWhile_cons_of_pos (by simpa using hc), trim,
          List.dropWhile_cons_of_neg (by rw [hwhite]; exact Bool.false_ne_true)]
        rw [List.nil_append] at hcons
        rw [hcons]
        exact .inl rfl
  refine ⟨trim_trim _, fun hmem => ?_, ?_⟩
  · have hne := List.mem_takeWhile_imp (mem_of_mem_trim hmem)
    exact absurd rfl (of_decide_eq_true hne)
  · obtain hfirst | hnil := hfirst
    · rwa [hfirst]
    · rw [hnil]
      exact ⟨(Option.some_ne_none _).symm, (Option.some_ne_none _).symm⟩

/-- A line gives a key and texts without line ends. -/
theorem lineOk_parseLine {line : Text} (h : OneLine line) : LineOk (parseLine line) := by
  have htrim : OneLine (trim line) := h.subset fun _ hc => mem_of_mem_trim hc
  unfold parseLine
  dsimp only
  split
  · exact .skip
  · rename_i hskip
    split
    · split
      · exact .malformed
      · rename_i name hinner
        exact .head (trim_trim name)
          (htrim.subset fun c hc => mem_of_mem_inner hinner c (mem_of_mem_trim hc))
    · rw [not_or, not_or] at hskip
      have hkey := isKey_takeWhile (fun _ hc => head_trim hc) hskip.2
      have hfront : OneLine (trim ((trim line).takeWhile (· ≠ '='))) :=
        htrim.subset fun c hc => (List.takeWhile_sublist _).subset (mem_of_mem_trim hc)
      unfold parsePair
      rw [List.span_eq_takeWhile_dropWhile]
      cases hback : (trim line).dropWhile (· ≠ '=') with
      | nil => exact .skip
      | cons c back =>
        dsimp only
        have hvalue : OneLine back := htrim.subset fun d hd =>
          (List.dropWhile_sublist _).subset (hback ▸ List.mem_cons_of_mem c hd)
        cases hunquote : unquote (trim back) with
        | none => exact .malformed
        | some value =>
          exact .pair hkey hfront
            (hvalue.subset fun d hd => mem_of_mem_trim (mem_of_mem_unquote hunquote d hd))

/-- What is loaded stays what a file gives. -/
theorem FromFile.apply {st st' : Loading upper} {line : Line} (h : FromFile st.sections)
    (hcurrent : trim st.currentSection = st.currentSection ∧ OneLine st.currentSection)
    (hline : LineOk line) (happly : st.apply line = some st') :
    FromFile st'.sections ∧
      trim st'.currentSection = st'.currentSection ∧ OneLine st'.currentSection := by
  cases hline with
  | skip =>
    cases happly
    exact ⟨h, hcurrent⟩
  | @head name htrim hname =>
    cases happly
    refine ⟨⟨?_, ?_, ?_⟩, htrim, hname⟩
    · exact (find_addSection _ _ _).mpr (.inl h.general)
    · change ∀ e ∈ (addSection st.sections name).entries, _
      unfold addSection
      split
      · exact h.names
      · rintro ⟨k, table⟩ he
        obtain he | ⟨-, rfl | ⟨table', he⟩⟩ := Dictionary.mem_assign he
        · exact h.names _ he
        · exact ⟨htrim, hname⟩
        · exact h.names (k, table') he
    · change ∀ e ∈ (addSection st.sections name).entries, _
      unfold addSection
      split
      · exact h.pairs
      · rintro ⟨k, table⟩ he
        obtain he | ⟨rfl, -⟩ := Dictionary.mem_assign he
        · exact h.pairs _ he
        · exact fun kv hkv => absurd hkv List.not_mem_nil
  | @pair key value hkey hkeyLine hvalue =>
    rw [Loading.apply] at happly
    split at happly
    case h_1 => cases happly
    case h_2 table htable =>
      cases happly
      obtain ⟨name, hname, hmem⟩ := Dictionary.mem_of_find htable
      refine ⟨⟨?_, ?_, ?_⟩, hcurrent⟩
      · rw [isSome_assign htable]
        exact h.general
      · rintro ⟨k, table'⟩ he
        obtain he | ⟨-, rfl | ⟨table'', he⟩⟩ := Dictionary.mem_assign he
        · exact h.names _ he
        · exact hcurrent
        · exact h.names (k, table'') he
      · rintro ⟨k, table'⟩ he ⟨key', value'⟩ hkv
        obtain he | ⟨rfl, -⟩ := Dictionary.mem_assign he
        · exact h.pairs _ he _ hkv
        · obtain hkv | ⟨rfl, rfl | ⟨value'', hkv⟩⟩ := Dictionary.mem_assign hkv
          · exact h.pairs _ hmem _ hkv
          · exact ⟨hkey, hkeyLine, hvalue⟩
          · obtain ⟨hkey', hkeyLine', -⟩ := h.pairs _ hmem _ hkv
            exact ⟨hkey', hkeyLine', hvalue⟩
  | malformed => cases happly

/-- A file gives what it says. -/
theorem fromFile_load {file : Text} {sections : Sections upper}
    (h : load .empty file = (true, sections)) : FromFile sections := by
  have hgeneral : trim general = general ∧ OneLine general := by
    have hchars : general = ['G', 'e', 'n', 'e', 'r', 'a', 'l'] := rfl
    rw [hchars]
    exact ⟨rfl, by simp [OneLine]⟩
  have hstart : FromFile (addSection (.empty : Sections upper) general) := by
    refine ⟨(find_addSection _ _ _).mpr (.inr rfl), ?_, ?_⟩
    · intro e he
      cases List.mem_singleton.mp he
      exact hgeneral
    · intro e he
      cases List.mem_singleton.mp he
      exact fun kv hkv => absurd hkv List.not_mem_nil
  have hlines (lines : List Text) (st : Loading upper) (hlines : ∀ l ∈ lines, OneLine l)
      (hst : FromFile st.sections)
      (hcurrent : trim st.currentSection = st.currentSection ∧ OneLine st.currentSection)
      (hload : loadLines lines st = (true, sections)) : FromFile sections := by
    induction lines generalizing st with
    | nil =>
      cases hload
      exact hst
    | cons line lines ih =>
      rw [loadLines] at hload
      cases happly : st.apply (parseLine line) with
      | none =>
        rw [happly] at hload
        cases hload
      | some st₁ =>
        rw [happly] at hload
        have hline := lineOk_parseLine (hlines line List.mem_cons_self)
        obtain ⟨hst₁, hcurrent₁⟩ := hst.apply hcurrent hline happly
        exact ih st₁ (fun l hl => hlines l (List.mem_cons_of_mem line hl)) hst₁ hcurrent₁ hload
  exact hlines _ _ (oneLine_readAllLines fun _ hc => absurd hc List.not_mem_nil) hstart hgeneral h

/-! ### What is saved -/

/-- The lines that are saved. -/
def savedLines (es : List (Text × Table upper Text)) : List Text :=
  es.flatMap fun e => sectionLines e.1 e.2

/-- What is read in them. -/
def parsedLines (es : List (Text × Table upper Text)) : List Line :=
  es.flatMap fun e => .head e.1 :: e.2.entries.map (fun kv => parseLine (pairText kv.1 kv.2)) ++
    [.skip]

/-- The pairs of all sections. -/
def allPairs (es : List (Text × Table upper Text)) : List ((Text × Text) × Text) :=
  es.flatMap fun e => e.2.entries.map fun kv => ((e.1.map upper, kv.1.map upper), kv.2)

/-- A line is read as a pair. -/
def isPair : Line → Bool
  | .pair _ _ => true
  | _ => false

section Saved

/-- One line. -/
theorem readAllLines_line {line bs : Text} (h : OneLine bs) (t : Text) :
    readAllLines line (bs ++ '\n' :: t) = (line ++ bs) :: readAllLines [] t := by
  induction bs generalizing line with
  | nil => rw [List.nil_append, readAllLines, List.append_nil]
  | cons c bs ih =>
    obtain ⟨hnewline, hreturn⟩ := h c List.mem_cons_self
    rw [List.cons_append, readAllLines, ih fun d hd => h d (List.mem_cons_of_mem c hd),
      List.append_assoc, List.singleton_append]
    · exact hnewline
    · exact fun _ hc => absurd hc hreturn
    · exact hreturn

/-- Lines that are written are read. -/
theorem readAllLines_flatMap {lines : List Text} (h : ∀ l ∈ lines, OneLine l) :
    readAllLines [] (lines.flatMap (· ++ ['\n'])) = lines := by
  induction lines with
  | nil => rfl
  | cons line lines ih =>
    rw [List.flatMap_cons, List.append_assoc, List.singleton_append,
      readAllLines_line (h line List.mem_cons_self), List.nil_append,
      ih fun l hl => h l (List.mem_cons_of_mem line hl)]

/-- There are no line ends within the lines that are saved. -/
theorem FromFile.oneLine_savedLines {sections : Sections upper} (h : FromFile sections) :
    ∀ l ∈ savedLines sections.entries, OneLine l := by
  have hother {t : Text} (ht : ∀ c ∈ t, c ∈ ['[', ']', ' ', '=']) : OneLine t := by
    intro c hc
    have hall : ∀ c ∈ ['[', ']', ' ', '='], c ≠ '\n' ∧ c ≠ '\r' := by simp
    exact hall c (ht c hc)
  have happend {t t' : Text} (ht : OneLine t) (ht' : OneLine t') : OneLine (t ++ t') := by
    intro c hc
    obtain hc | hc := List.mem_append.mp hc
    · exact ht c hc
    · exact ht' c hc
  intro l hl
  obtain ⟨e, he, hl⟩ := List.mem_flatMap.mp hl
  rw [sectionLines, List.cons_append, List.mem_cons, List.mem_append] at hl
  obtain rfl | hl | hl := hl
  · have hopen : OneLine ['['] := hother (by simp)
    exact happend (happend hopen (h.names e he).2) (hother (by simp))
  · obtain ⟨kv, hkv, rfl⟩ := List.mem_map.mp hl
    obtain ⟨-, hkey, hvalue⟩ := h.pairs e he kv hkv
    exact happend (happend hkey (hother (by simp))) hvalue
  · rw [List.mem_singleton.mp hl]
    exact hother (by simp)

/-- What is read in the lines that are saved. -/
theorem FromFile.map_savedLines {sections : Sections upper} (h : FromFile sections) :
    (savedLines sections.entries).map parseLine = parsedLines sections.entries := by
  rw [savedLines, parsedLines, List.map_flatMap]
  apply List.flatMap_congr
  intro e he
  rw [sectionLines, List.cons_append, List.map_cons, parseLine_head (h.names e he).1,
    List.map_append, List.map_map]
  rfl

/-- What `Load` begins with in a fresh parser. -/
def fresh (upper : Char → Char) : Loading upper := ⟨general, addSection .empty general⟩

theorem find_fresh (name : Text) :
    ((fresh upper).sections.find name).isSome ↔ name.map upper = general.map upper := by
  have hempty : ¬((.empty : Sections upper).find name).isSome := Bool.false_ne_true
  exact (find_addSection _ _ _).trans (or_iff_right hempty)

theorem find_current_fresh (upper : Char → Char) :
    ((fresh upper).sections.find (fresh upper).currentSection).isSome :=
  (find_fresh general).mpr rfl

theorem lookup_fresh (name key : Text) : lookup (fresh upper).sections name key = none :=
  lookup_addSection _ _ _ _

/-- Loading what was saved. -/
theorem load_save {sections sections' : Sections upper} (h : FromFile sections) :
    load .empty (save sections) = (true, sections') ↔
      ∃ st', (parsedLines sections.entries).foldlM Loading.apply (fresh upper) = some st' ∧
        st'.sections = sections' := by
  have hread : readAllLines [] (save sections) = savedLines sections.entries :=
    readAllLines_flatMap h.oneLine_savedLines
  rw [load, hread, loadLines_eq_true, h.map_savedLines]
  rfl

end Saved

/-! ### Counting -/

section Count

variable {es : List (Text × Table upper Text)}

theorem length_writes (lines : List Line) (current : Text) :
    (writes upper lines current).length = lines.countP isPair := by
  induction lines generalizing current with
  | nil => rfl
  | cons line lines ih =>
    cases line with
    | skip => exact ih current
    | head name => exact ih name
    | pair key value =>
      have hpair : isPair (.pair key value) = true := rfl
      rw [writes, List.length_cons, ih, List.countP_cons_of_pos hpair]
    | malformed => exact ih current

theorem allPairs_cons (e : Text × Table upper Text) (es : List (Text × Table upper Text)) :
    allPairs (e :: es) =
      e.2.entries.map (fun kv => ((e.1.map upper, kv.1.map upper), kv.2)) ++ allPairs es := by
  rw [allPairs, List.flatMap_cons]
  rfl

theorem parsedLines_cons (e : Text × Table upper Text) (es : List (Text × Table upper Text)) :
    parsedLines (e :: es) = .head e.1 ::
      (e.2.entries.map (fun kv => parseLine (pairText kv.1 kv.2)) ++
        (.skip :: parsedLines es)) := by
  rw [parsedLines, List.flatMap_cons, List.cons_append, List.cons_append, List.append_assoc]
  rfl

/-- As many lines are read as pairs as there are pairs only if each pair is read as one. -/
theorem countP_parsedLines (es : List (Text × Table upper Text)) :
    (parsedLines es).countP isPair ≤ (allPairs es).length ∧
      ((allPairs es).length ≤ (parsedLines es).countP isPair →
        ∀ e ∈ es, ∀ kv ∈ e.2.entries, isPair (parseLine (pairText kv.1 kv.2)) = true) := by
  induction es with
  | nil => exact ⟨Nat.le_refl 0, fun _ _ he => absurd he List.not_mem_nil⟩
  | cons e es ih =>
    have hread : ((e.2.entries.map fun kv => parseLine (pairText kv.1 kv.2)).countP isPair) =
        e.2.entries.countP fun kv => isPair (parseLine (pairText kv.1 kv.2)) :=
      List.countP_map
    have hcount : (parsedLines (e :: es)).countP isPair =
        (e.2.entries.countP fun kv => isPair (parseLine (pairText kv.1 kv.2))) +
          (parsedLines es).countP isPair := by
      rw [parsedLines_cons, List.countP_cons_of_neg Bool.false_ne_true, List.countP_append, hread,
        List.countP_cons_of_neg Bool.false_ne_true]
    have hlength : (allPairs (e :: es)).length = e.2.entries.length + (allPairs es).length := by
      rw [allPairs_cons, List.length_append, List.length_map]
    have hle : (e.2.entries.countP fun kv => isPair (parseLine (pairText kv.1 kv.2))) ≤
        e.2.entries.length := List.countP_le_length
    rw [hcount, hlength]
    refine ⟨Nat.add_le_add hle ih.1, fun h e' he' => ?_⟩
    obtain ⟨hih, hall⟩ := ih
    obtain rfl | he' := List.mem_cons.mp he'
    · exact List.countP_eq_length.mp (Nat.le_antisymm hle (by omega))
    · exact hall (by omega) e' he'

/-- The pairs that are assigned if each line is read as one. -/
theorem writes_parsedLines
    (h : ∀ e ∈ es, ∀ kv ∈ e.2.entries, ∃ value, parseLine (pairText kv.1 kv.2) = .pair kv.1 value ∧
      unquote (trim kv.2) = some value) (current : Text) :
    writes upper (parsedLines es) current =
      (allPairs es).map fun x => (x.1, (unquote (trim x.2)).getD []) := by
  induction es generalizing current with
  | nil => rfl
  | cons e es ih =>
    have htail := ih (fun e' he' => h e' (List.mem_cons_of_mem e he'))
    have hpairs (kvs : List (Text × Text)) (hkvs : ∀ kv ∈ kvs, ∃ value,
        parseLine (pairText kv.1 kv.2) = .pair kv.1 value ∧
          unquote (trim kv.2) = some value) (rest : List Line) :
        writes upper (kvs.map (fun kv => parseLine (pairText kv.1 kv.2)) ++ rest) e.1 =
          kvs.map (fun kv => ((e.1.map upper, kv.1.map upper),
            (unquote (trim kv.2)).getD [])) ++ writes upper rest e.1 := by
      induction kvs with
      | nil => rfl
      | cons kv kvs ihkvs =>
        obtain ⟨value, hparse, hvalue⟩ := hkvs kv List.mem_cons_self
        rw [List.map_cons, List.cons_append, hparse, writes,
          ihkvs fun kv' hkv' => hkvs kv' (List.mem_cons_of_mem kv hkv'), List.map_cons, hvalue]
        rfl
    rw [parsedLines_cons, writes, hpairs _ (h e List.mem_cons_self), writes, htail, allPairs_cons,
      List.map_append, List.map_map]
    rfl

/-- The heads of sections if each line is read as a pair. -/
theorem heads_parsedLines
    (h : ∀ e ∈ es, ∀ kv ∈ e.2.entries, isPair (parseLine (pairText kv.1 kv.2)) = true) :
    heads upper (parsedLines es) = folds (List.map upper) es := by
  induction es with
  | nil => rfl
  | cons e es ih =>
    have htail := ih (fun e' he' => h e' (List.mem_cons_of_mem e he'))
    have hpairs (kvs : List (Text × Text))
        (hkvs : ∀ kv ∈ kvs, isPair (parseLine (pairText kv.1 kv.2)) = true) (rest : List Line) :
        heads upper (kvs.map (fun kv => parseLine (pairText kv.1 kv.2)) ++ rest) =
          heads upper rest := by
      induction kvs with
      | nil => rfl
      | cons kv kvs ihkvs =>
        have hkv := hkvs kv List.mem_cons_self
        rw [List.map_cons, List.cons_append]
        cases hparse : parseLine (pairText kv.1 kv.2) with
        | pair key value => exact ihkvs fun kv' hkv' => hkvs kv' (List.mem_cons_of_mem kv hkv')
        | skip => rw [hparse] at hkv; cases hkv
        | head name => rw [hparse] at hkv; cases hkv
        | malformed => rw [hparse] at hkv; cases hkv
    rw [parsedLines_cons, heads, hpairs _ (h e List.mem_cons_self), heads, htail]
    · rfl
    · exact nofun

/-- A pair is among all pairs if it is found. -/
theorem mem_allPairs {sections : Sections upper} {name key value : Text} :
    ((name.map upper, key.map upper), value) ∈ allPairs sections.entries ↔
      lookup sections name key = some value := by
  constructor
  · intro h
    obtain ⟨e, he, h⟩ := List.mem_flatMap.mp h
    obtain ⟨kv, hkv, h⟩ := List.mem_map.mp h
    have hkeys := congrArg Prod.fst h
    have hvalue : kv.2 = value := congrArg Prod.snd h
    have hname : e.1.map upper = name.map upper := congrArg Prod.fst hkeys
    have hkey : kv.1.map upper = key.map upper := congrArg Prod.snd hkeys
    unfold lookup
    rw [Dictionary.find_congr hname.symm, Dictionary.find_of_mem he]
    change e.2.find key = _
    rw [Dictionary.find_congr hkey.symm, Dictionary.find_of_mem hkv, hvalue]
  · intro h
    obtain ⟨table, htable, hfind⟩ := Option.bind_eq_some_iff.mp h
    obtain ⟨name', hname, he⟩ := Dictionary.mem_of_find htable
    obtain ⟨key', hkey, hkv⟩ := Dictionary.mem_of_find hfind
    rw [← hname, ← hkey]
    exact List.mem_flatMap.mpr ⟨_, he, List.mem_map.mpr ⟨_, hkv, rfl⟩⟩

/-- No key is in a section twice. -/
theorem nodup_allPairs (sections : Sections upper) :
    ((allPairs sections.entries).map Prod.fst).Nodup := by
  have hdistinct := sections.distinct
  generalize sections.entries = es at hdistinct
  induction es with
  | nil => exact List.nodup_nil
  | cons e es ih =>
    have hdistinct : (e.1.map upper :: folds (List.map upper) es).Nodup := hdistinct
    rw [List.nodup_cons] at hdistinct
    rw [allPairs_cons, List.map_append, List.nodup_append]
    refine ⟨?_, ih hdistinct.2, ?_⟩
    · rw [List.map_map]
      have hkeys := e.2.distinct.map (f := fun key => (e.1.map upper, key))
        fun _ _ hkey => congrArg Prod.snd hkey
      rw [folds, List.map_map] at hkeys
      exact hkeys
    · intro x hx y hy
      rintro rfl
      obtain ⟨a, ha, rfl⟩ := List.mem_map.mp hx
      obtain ⟨kv, -, rfl⟩ := List.mem_map.mp ha
      obtain ⟨b, hb, hab⟩ := List.mem_map.mp hy
      obtain ⟨e', he', hb⟩ := List.mem_flatMap.mp hb
      obtain ⟨kv', -, rfl⟩ := List.mem_map.mp hb
      have hname : e'.1.map upper = e.1.map upper := congrArg Prod.fst hab
      exact hdistinct.1 (hname ▸ List.mem_map_of_mem (f := fun e => e.1.map upper) he')

end Count

/-! ### What comes back -/

section RoundTrip

variable {sections : Sections upper}

/-- What comes back has stable values: a line for a pair that is read as something else leaves too
few pairs. -/
theorem stable_of_same (h : FromFile sections) {sections' : Sections upper}
    (hload : load .empty (save sections) = (true, sections')) (hsame : Same sections sections') :
    ∀ e ∈ sections.entries, ∀ kv ∈ e.2.entries, Stable kv.1 kv.2 := by
  obtain ⟨st, hfold, rfl⟩ := (load_save h).mp hload
  have hmalformed := not_malformed_of_foldlM hfold
  obtain ⟨st', hfold', hloads⟩ := foldlM_apply (find_current_fresh upper) hmalformed
  rw [hfold] at hfold'
  cases hfold'
  -- each key is assigned, so there are enough lines that are read as pairs
  have hassigned : (allPairs sections.entries).map Prod.fst ⊆
      (writes upper (parsedLines sections.entries) general).map Prod.fst := by
    intro x hx
    obtain ⟨⟨x, value⟩, hmem, rfl⟩ := List.mem_map.mp hx
    obtain ⟨e, he, hmem⟩ := List.mem_flatMap.mp hmem
    obtain ⟨kv, hkv, hmem⟩ := List.mem_map.mp hmem
    cases hmem
    have hlookup : lookup sections e.1 kv.1 = some kv.2 :=
      mem_allPairs.mp (List.mem_flatMap.mpr ⟨e, he, List.mem_map.mpr ⟨kv, hkv, rfl⟩⟩)
    rw [hsame.values] at hlookup
    have hkept := (hloads.kept e.1 kv.1).mp (by rw [hlookup]; rfl)
    rw [lookup_fresh] at hkept
    obtain hnone | ⟨value, hvalue⟩ := hkept
    · cases hnone
    · exact List.mem_map.mpr ⟨_, hvalue, rfl⟩
  have hlength := (List.subperm_of_subset (nodup_allPairs sections) hassigned).length_le
  rw [List.length_map, List.length_map, length_writes] at hlength
  have hpairs := (countP_parsedLines sections.entries).2 hlength
  have hread : ∀ e ∈ sections.entries, ∀ kv ∈ e.2.entries, ∃ value,
      parseLine (pairText kv.1 kv.2) = .pair kv.1 value ∧ unquote (trim kv.2) = some value := by
    intro e he kv hkv
    have hpair := hpairs e he kv hkv
    rw [parseLine_pairText (h.pairs e he kv hkv).1] at hpair ⊢
    split at hpair
    · split at hpair <;> cases hpair
    · rename_i hhead
      rw [if_neg hhead]
      cases hunquote : unquote (trim kv.2) with
      | none =>
        rw [hunquote] at hpair
        cases hpair
      | some value => exact ⟨value, rfl, rfl⟩
  intro e he kv hkv
  obtain ⟨value, hparse, hunquote⟩ := hread e he kv hkv
  -- the value that was assigned is that of the pair
  have hmem : ((e.1.map upper, kv.1.map upper), kv.2) ∈ allPairs sections.entries :=
    List.mem_flatMap.mpr ⟨e, he, List.mem_map.mpr ⟨kv, hkv, rfl⟩⟩
  have hlookup := mem_allPairs.mp hmem
  rw [hsame.values] at hlookup
  obtain hnone | hwritten := hloads.written e.1 kv.1 kv.2 hlookup
  · rw [lookup_fresh] at hnone
    cases hnone
  · rw [writes_parsedLines hread] at hwritten
    obtain ⟨x, hx, hxkv⟩ := List.mem_map.mp hwritten
    have hkey : x.1 = (e.1.map upper, kv.1.map upper) := congrArg Prod.fst hxkv
    have hsamePair : x = ((e.1.map upper, kv.1.map upper), kv.2) :=
      List.inj_on_of_nodup_map (nodup_allPairs sections) hx hmem hkey
    rw [hsamePair] at hxkv
    have hvalue : (unquote (trim kv.2)).getD [] = kv.2 := congrArg Prod.snd hxkv
    rw [hunquote] at hvalue
    rw [← parseLine_pairText_iff (h.pairs e he kv hkv).1, hparse]
    exact congrArg _ hvalue

/-- What has stable values comes back. -/
theorem same_of_stable (h : FromFile sections)
    (hstable : ∀ e ∈ sections.entries, ∀ kv ∈ e.2.entries, Stable kv.1 kv.2) :
    ∃ sections' : Sections upper, load .empty (save sections) = (true, sections') ∧
      Same sections sections' := by
  have hparse : ∀ e ∈ sections.entries, ∀ kv ∈ e.2.entries,
      parseLine (pairText kv.1 kv.2) = .pair kv.1 kv.2 := fun e he kv hkv =>
    (parseLine_pairText_iff (h.pairs e he kv hkv).1 kv.2).mpr (hstable e he kv hkv)
  have hvalue : ∀ e ∈ sections.entries, ∀ kv ∈ e.2.entries,
      unquote (trim kv.2) = some kv.2 := fun e he kv hkv =>
    (unquote_trim_iff kv.2).mpr ⟨(hstable e he kv hkv).trimmed, (hstable e he kv hkv).unquoted⟩
  have hmalformed : .malformed ∉ parsedLines sections.entries := by
    intro hmem
    obtain ⟨e, he, hmem⟩ := List.mem_flatMap.mp hmem
    rw [List.cons_append, List.mem_cons, List.mem_append] at hmem
    obtain hmem | hmem | hmem := hmem
    · cases hmem
    · obtain ⟨kv, hkv, hline⟩ := List.mem_map.mp hmem
      rw [hparse e he kv hkv] at hline
      cases hline
    · cases List.mem_singleton.mp hmem
  obtain ⟨st, hfold, hloads⟩ := foldlM_apply (find_current_fresh upper) hmalformed
  have hwrites : writes upper (parsedLines sections.entries) general =
      allPairs sections.entries := by
    rw [writes_parsedLines fun e he kv hkv => ⟨kv.2, hparse e he kv hkv, hvalue e he kv hkv⟩]
    rw [List.map_congr_left (g := id), List.map_id]
    intro x hx
    obtain ⟨e, he, hx⟩ := List.mem_flatMap.mp hx
    obtain ⟨kv, hkv, rfl⟩ := List.mem_map.mp hx
    rw [hvalue e he kv hkv]
    rfl
  have hheads : heads upper (parsedLines sections.entries) =
      folds (List.map upper) sections.entries := by
    apply heads_parsedLines
    intro e he kv hkv
    rw [hparse e he kv hkv]
    rfl
  have hwritten (name key value : Text) (hlookup : lookup st.sections name key = some value) :
      lookup sections name key = some value := by
    obtain hnone | hmem := hloads.written name key value hlookup
    · rw [lookup_fresh] at hnone
      cases hnone
    · exact mem_allPairs.mp (hwrites ▸ hmem)
  refine ⟨st.sections, (load_save h).mpr ⟨st, hfold, rfl⟩, fun name => ?_, fun name key => ?_⟩
  · rw [Bool.eq_iff_iff, hloads.sections, find_fresh, hheads]
    constructor
    · intro hfind
      obtain ⟨table, htable⟩ := Option.isSome_iff_exists.mp hfind
      obtain ⟨name', hname, he⟩ := Dictionary.mem_of_find htable
      right
      rw [← hname]
      exact List.mem_map_of_mem (f := fun e => e.1.map upper) he
    · rintro (hname | hmem)
      · rw [Dictionary.find_congr hname]
        exact h.general
      · obtain ⟨e, he, hname⟩ := List.mem_map.mp hmem
        rw [Dictionary.find_congr hname.symm, Dictionary.find_of_mem he]
        rfl
  · cases hlookup : lookup st.sections name key with
    | some value => exact hwritten name key value hlookup
    | none =>
      rw [Option.eq_none_iff_forall_ne_some]
      intro value hvalue
      have hkept := (hloads.kept name key).mpr
        (.inr ⟨value, hwrites ▸ mem_allPairs.mpr hvalue⟩)
      rw [hlookup] at hkept
      cases hkept

/-- What a file gives comes back if and only if all values are stable. -/
theorem config_round_trip (upper : Char → Char) (file : Text) :
    RoundTrips upper file ↔ StableFile upper file := by
  constructor
  · intro h sections hload
    obtain ⟨sections', hload', hsame⟩ := h sections hload
    exact stable_of_same (fromFile_load hload) hload' hsame
  · exact fun h sections hload => same_of_stable (fromFile_load hload) (h sections hload)

/-- A file with a blank between quotes. -/
def quotedBlank : Text := ['k', '=', '"', ' ', 'a', '"']

/-- A blank that the quotes kept is trimmed. -/
theorem not_roundTrips : ¬RoundTrips Char.toUpper quotedBlank := by
  intro h
  obtain ⟨hload, hentries⟩ : (load (.empty : Sections Char.toUpper) quotedBlank).1 = true ∧
      (load (.empty : Sections Char.toUpper) quotedBlank).2.entries.map (fun e => e.2.entries) =
        [[(['k'], [' ', 'a'])]] := by decide
  obtain ⟨sections', hload', hsame⟩ := h _ (Prod.ext hload rfl)
  have hstable := stable_of_same (fromFile_load (Prod.ext hload rfl)) hload' hsame
  have hmem : [(['k'], [' ', 'a'])] ∈
      (load (.empty : Sections Char.toUpper) quotedBlank).2.entries.map fun e => e.2.entries := by
    rw [hentries]
    exact List.mem_cons_self
  obtain ⟨e, he, hpairs⟩ := List.mem_map.mp hmem
  have htrimmed := (hstable e he (['k'], [' ', 'a']) (hpairs ▸ List.mem_cons_self)).trimmed
  exact absurd htrimmed (by decide)

end RoundTrip

end SharpConfig

end Usim
