import Usim.CSharp.FileCommands
import Usim.Lib.CText

/-!
# The root directory of the FILE server

What the commands of a session open, delete and list, against the root directory: the check of a
path looks at its text, and lets paths pass that begin with the text and are somewhere else.
-/

namespace Usim

open Lib Lib.Paths

namespace FileServer

variable {host : Host} {server : FileServer} {data : List Byte} {s : Session} {path : Text}

/-! ### What a command asks for -/

/-- The access that a command asks for: its kind, and the path that its file name resolves to. -/
def request (host : Host) (server : FileServer) (data : List Byte) : Option Access :=
  match commandParts host.invalid data with
  | [] => none
  | parts@(first :: _) =>
    let cmd := first.map host.upper
    if cmd = "OPEN".toList then
      if parts.length < 2 then none
      else
        (fullPath host server (getPart parts 1)).toOption.map fun path => .opened path
          (if parts.length > 2 ∧ (getPart parts 2).map host.upper = "WRITE".toList then
            .openOrCreate else .open)
    else if cmd = "DELETE".toList then
      if parts.length < 2 then none
      else (fullPath host server (getPart parts 1)).toOption.map .deleted
    else if cmd = "DIRECTORY".toList ∨ cmd = "DIR".toList then
      (fullPath host server (if parts.length > 1 then getPart parts 1 else ['*'])).toOption.map
        fun path => .listed ((getDirectoryName path).getD server.rootDirectory) (getFileName path)
    else none

/-- The host lets an access happen. -/
def granted (host : Host) : Access → Bool
  | .opened path mode => (host.openFile path mode).isOk
  | .deleted path => host.fileExists path && (host.deleteFile path).isOk
  | .listed directory searchPattern => (host.getFiles directory searchPattern).isOk

/-- The path begins with the text of the root directory but for the case of the letters. -/
def passes (host : Host) (server : FileServer) (path : Text) : Bool :=
  startsWith host.upper path server.rootDirectory

/-- The access of a command. -/
def made (host : Host) (server : FileServer) (data : List Byte) : Option Access :=
  (request host server data).filter fun a => passes host server a.path && granted host a

/-- The commands of a session, each with the host at its time. -/
def processCommands (server : FileServer) (commands : List (Host × List Byte)) (s : Session) :
    Session :=
  commands.foldl (fun s c => processCommand c.1 server c.2 s) s

/-- A session as `HandleConnection` makes it. -/
def newSession : Session := ⟨none, none, [], []⟩

/-- All that the commands of a session open, delete or list is in the root directory. -/
def Confined (server : FileServer) (commands : List (Host × List Byte)) : Prop :=
  ∀ a ∈ (processCommands server commands newSession).accesses, Inside server.rootDirectory a.path

/-! ### Checked paths -/

/-- A resolved path begins with a slash. -/
theorem head?_of_resolved (h : Resolved path) : path.head? = some '/' := by
  obtain ⟨ps, -, trailing, rfl⟩ := h
  unfold render
  split
  · rfl
  · cases ps with
    | nil => contradiction
    | cons part ps => rfl

theorem ne_nil_of_resolved (h : Resolved path) : path ≠ [] := by
  rintro rfl
  exact nomatch head?_of_resolved h

/-- A full path is its own full path. -/
theorem getFullPath_full (cwd : Text) (h : Full path) : getFullPath cwd path = .ok path := by
  have hhead := head?_of_resolved h.resolved
  rw [getFullPath, if_neg (ne_nil_of_resolved h.resolved), if_neg h.noNull]
  dsimp only
  rw [if_pos hhead]
  obtain ⟨ps, hps, trailing, rfl⟩ := h.resolved
  rw [parts_render hps, render_getLast? hps]

/-- The check of a full path. -/
theorem isPathAllowed_full (h : Full path) :
    isPathAllowed host server path = .ok (passes host server path) := by
  rw [isPathAllowed, getFullPath_full host.cwd h]
  rfl

/-- A path of more than a slash ends in a part behind a directory, or in a slash behind it. -/
theorem exists_joined {ps : List (List Char)} (h : ∀ part ∈ ps, IsPart part) (hne : ps ≠ [])
    (trailing : Bool) : ∃ qs rest, (∀ part ∈ qs, IsPart part) ∧ '/' ∉ rest ∧
      render ps trailing = joined qs ++ '/' :: rest := by
  rw [render, if_neg hne]
  cases trailing with
  | false =>
    induction ps using List.reverseRecOn with
    | nil => contradiction
    | append_singleton ps part =>
      refine ⟨ps, part, fun p hp => h p (List.mem_append_left _ hp),
        (h part (List.mem_append_right _ (List.mem_singleton_self _))).slash, ?_⟩
      rw [if_neg Bool.false_ne_true, List.append_nil, joined_append, joined_singleton]
  | true => exact ⟨ps, [], h, List.not_mem_nil, rfl⟩

/-- The name behind a directory goes with its slash. -/
theorem rdropWhile_joined {qs : List (List Char)} {rest : Text} (h : ∀ part ∈ qs, IsPart part)
    (hrest : '/' ∉ rest) :
    ((joined qs ++ '/' :: rest).rdropWhile (· ≠ '/')).rdropWhile (· = '/') = joined qs := by
  have hname : (joined qs ++ '/' :: rest).rdropWhile (· ≠ '/') = joined qs ++ ['/'] := by
    rw [List.rdropWhile, List.reverse_append, List.reverse_cons, List.append_assoc,
      List.dropWhile_append_of_pos]
    · rw [List.singleton_append, List.dropWhile_cons_of_neg (by decide), List.reverse_cons,
        List.reverse_reverse]
    · intro c hc
      exact decide_eq_true fun heq => hrest (heq ▸ List.mem_reverse.mp hc)
  rw [hname, List.rdropWhile_concat_pos (fun c => decide (c = '/')) _ '/' (by decide),
    List.rdropWhile_eq_self_iff]
  intro hne hlast
  apply getLast?_joined_ne h
  rw [List.getLast?_eq_getLast_of_ne_nil hne, of_decide_eq_true hlast]

/-- The directory of a full path can be passed on. -/
theorem full_getDirectoryName (h : Full path) :
    ∀ directory ∈ getDirectoryName path, Full directory := by
  intro directory hdirectory
  obtain ⟨ps, hps, trailing, rfl⟩ := h.resolved
  by_cases hne : ps = []
  · subst hne
    exact nomatch hdirectory
  · obtain ⟨qs, rest, hqs, hrest, hpath⟩ := exists_joined hps hne trailing
    have hnull := h.noNull
    rw [hpath, List.mem_append] at hnull
    rw [hpath, getDirectoryName] at hdirectory
    split at hdirectory
    · exact nomatch hdirectory
    · dsimp only at hdirectory
      rw [rdropWhile_joined hqs hrest] at hdirectory
      cases hdirectory
      have hrender : (if joined qs = [] then ['/'] else joined qs) = render qs false := by
        unfold render
        cases qs with
        | nil => rfl
        | cons part qs =>
          rw [if_neg (List.cons_ne_nil _ _), if_neg Bool.false_ne_true, List.append_nil]
          exact if_neg (List.cons_ne_nil _ _)
      refine ⟨⟨qs, hqs, false, hrender⟩, fun hmem => hnull (.inl ?_)⟩
      split at hmem
      · exact absurd hmem (by decide)
      · exact hmem

/-- A full path is in the root directory exactly if its parts begin with those of the root. -/
theorem inside_full_iff (h : Full path) :
    Inside server.rootDirectory path ↔ parts server.rootDirectory <+: parts path := by
  obtain ⟨ps, hps, trailing, hroot⟩ := server.full.resolved
  obtain ⟨qs, hqs, trailing', rfl⟩ := h.resolved
  rw [hroot, inside_iff hps hqs, parts_render hps, parts_render hqs]

/-! ### What a command accesses -/

/-- The accesses when a handler returns or throws. -/
def accessesAfter : EStateM.Result Text Session Unit → List Access
  | .ok _ s => s.accesses
  | .error _ s => s.accesses

/-- The access that a handler makes if the path passes and the host grants it. -/
def checked (host : Host) (server : FileServer) (a : Access) : List Access :=
  if passes host server a.path && granted host a then [a] else []

/-- A handler that goes on after the check of a path. -/
theorem accesses_check {a : Access} (hpath : Full a.path) {next : Handler Unit}
    (hnext : ∀ s, accessesAfter (next.run s) = s.accesses ++ if granted host a then [a] else []) :
    accessesAfter ((do
      unless ← call (isPathAllowed host server a.path) do
        return ← sendError "Access denied".toList
      next : Handler Unit).run s) = s.accesses ++ checked host server a := by
  rw [isPathAllowed_full hpath, checked]
  cases hpasses : passes host server a.path with
  | false => exact (List.append_nil _).symm
  | true => exact hnext s

section Handlers

variable {parts : List Text}

/-- The access of `HandleOpen`. -/
theorem accesses_handleOpen :
    accessesAfter ((handleOpen host server parts).run s) = s.accesses ++
      if parts.length < 2 then []
      else match fullPath host server (getPart parts 1) with
        | .ok path => checked host server (.opened path
            (if parts.length > 2 ∧ (getPart parts 2).map host.upper = "WRITE".toList then
              .openOrCreate else .open))
        | .error _ => [] := by
  rw [handleOpen]
  by_cases hlength : parts.length < 2
  · rw [if_pos hlength, if_pos hlength, List.append_nil]
    rfl
  · rw [if_neg hlength, if_neg hlength]
    dsimp only
    generalize hmode : (if parts.length > 2 ∧ (getPart parts 2).map host.upper = "WRITE".toList then
      FileMode.openOrCreate else .open) = mode
    cases hpath : fullPath host server (getPart parts 1) with
    | error message => exact (List.append_nil _).symm
    | ok path =>
      rw [call_ok_bind]
      apply accesses_check (a := .opened path mode) (full_getFullPath host.cwd_noNull hpath)
      intro s
      rw [granted]
      cases host.openFile path mode with
      | error message => exact (List.append_nil _).symm
      | ok content => rfl

/-- The access of `HandleDelete`. -/
theorem accesses_handleDelete :
    accessesAfter ((handleDelete host server parts).run s) = s.accesses ++
      if parts.length < 2 then []
      else match fullPath host server (getPart parts 1) with
        | .ok path => checked host server (.deleted path)
        | .error _ => [] := by
  rw [handleDelete]
  by_cases hlength : parts.length < 2
  · rw [if_pos hlength, if_pos hlength, List.append_nil]
    rfl
  · rw [if_neg hlength, if_neg hlength]
    cases hpath : fullPath host server (getPart parts 1) with
    | error message => exact (List.append_nil _).symm
    | ok path =>
      rw [call_ok_bind]
      apply accesses_check (a := .deleted path) (full_getFullPath host.cwd_noNull hpath)
      intro s
      rw [granted]
      cases host.fileExists path with
      | false => exact (List.append_nil _).symm
      | true =>
        cases host.deleteFile path with
        | error message => exact (List.append_nil _).symm
        | ok _ => rfl

/-- The lines of a listing access nothing. -/
theorem accesses_describe (files : List Text) (next : List Text → Handler Unit) {l : List Access}
    (hnext : ∀ lines, accessesAfter ((next lines).run s) = l) (hl : s.accesses = l) :
    accessesAfter (((files.mapM fun file => call (host.describe file)) >>= next).run s) = l := by
  induction files generalizing next with
  | nil => exact hnext []
  | cons file files ih =>
    rw [List.mapM_cons, bind_assoc]
    cases host.describe file with
    | error message => exact hl
    | ok line =>
      change accessesAfter ((((files.mapM fun file => call (host.describe file)) >>= fun lines =>
        pure (line :: lines)) >>= next).run s) = l
      rw [bind_assoc]
      exact ih _ fun lines => hnext (line :: lines)

/-- The access of `HandleDirectory`. -/
theorem accesses_handleDirectory :
    accessesAfter ((handleDirectory host server parts).run s) = s.accesses ++
      match fullPath host server (if parts.length > 1 then getPart parts 1 else ['*']) with
      | .ok path => checked host server (.listed
          ((getDirectoryName path).getD server.rootDirectory) (getFileName path))
      | .error _ => [] := by
  rw [handleDirectory]
  dsimp only
  cases hpath : fullPath host server (if parts.length > 1 then getPart parts 1 else ['*']) with
  | error message => exact (List.append_nil _).symm
  | ok path =>
    rw [call_ok_bind]
    have hfull : Full ((getDirectoryName path).getD server.rootDirectory) := by
      cases hdirectory : getDirectoryName path with
      | none => exact server.full
      | some directory =>
        exact full_getDirectoryName (full_getFullPath host.cwd_noNull hpath) directory hdirectory
    dsimp only
    generalize (getDirectoryName path).getD server.rootDirectory = directory at hfull ⊢
    apply accesses_check (a := .listed directory (getFileName path)) hfull
    intro s
    rw [granted]
    cases host.getFiles directory (getFileName path) with
    | error message => exact (List.append_nil _).symm
    | ok files =>
      apply accesses_describe (s := { s with
        accesses := s.accesses ++ [.listed directory (getFileName path)] }) files
      · intro lines
        split
        · rfl
        · rfl
      · rfl

/-- A handler that reads the state first. -/
theorem run_get_bind {α : Type} (f : Session → Handler α) :
    (do let t ← get; f t : Handler α).run s = (f s).run s := rfl

/-- A read accesses nothing by name. -/
theorem accesses_handleRead : accessesAfter ((handleRead host parts).run s) = s.accesses := by
  rw [handleRead, run_get_bind]
  cases s.currentFile with
  | none => rfl
  | some file =>
    dsimp only
    generalize (if parts.length > 1 then (tryParse (getPart parts 1)).getD 256 else 256) = count
    by_cases hcount : count < 0
    · rw [if_pos hcount]
      rfl
    · rw [if_neg hcount]
      cases host.newBytes count.toNat with
      | error message => rfl
      | ok _ =>
        cases file.read count.toNat with
        | error message => rfl
        | ok r =>
          change accessesAfter (EStateM.run (if r.1.length > 0 then _ else _) _) = _
          split
          · rfl
          · rfl

/-- A `WRITE` accesses nothing. -/
theorem accesses_handleWrite : accessesAfter (handleWrite.run s) = s.accesses := by
  change accessesAfter (EStateM.run (if s.currentFile.isNone = true then _ else _) s) = _
  split
  · rfl
  · rfl

end Handlers

theorem toList_filter_some (a : Access) :
    ((some a).filter fun a => passes host server a.path && granted host a).toList =
      checked host server a := by
  rw [Option.filter_some, checked]
  split
  · rfl
  · rfl

/-- The path of a request is checked if it can be resolved. -/
theorem toList_filter_map (result : Except Text Text) (f : Text → Access) :
    ((result.toOption.map f).filter fun a => passes host server a.path && granted host a).toList =
      match result with
      | .ok path => checked host server (f path)
      | .error _ => [] := by
  cases result with
  | error message => rfl
  | ok path => exact toList_filter_some (f path)

/-- What a command accesses is what it asks for, if it passes and the host grants it. -/
theorem accesses_processCommand (s : Session) :
    (processCommand host server data s).accesses =
      s.accesses ++ (made host server data).toList := by
  have hprocess {cmd : Text} {parts : List Text} {l : List Access}
      (h : accessesAfter ((dispatch host server cmd parts).run s) = l) :
      Session.accesses (match (dispatch host server cmd parts).run s with
        | .ok _ s => s
        | .error message s =>
          match (sendError ("Error: ".toList ++ message)).run s with
          | .ok _ s => s
          | .error _ s => s) = l := by
    cases hrun : (dispatch host server cmd parts).run s with
    | ok _ s' =>
      rw [hrun] at h
      exact h
    | error message s' =>
      rw [hrun] at h
      exact h
  unfold processCommand made request
  cases commandParts host.invalid data with
  | nil => exact (List.append_nil _).symm
  | cons first rest =>
    apply hprocess
    dsimp only
    rw [dispatch]
    generalize first.map host.upper = cmd
    generalize first :: rest = parts
    by_cases hopen : cmd = "OPEN".toList
    · rw [if_pos hopen, if_pos hopen, accesses_handleOpen]
      by_cases hlength : parts.length < 2
      · rw [if_pos hlength, if_pos hlength]
        rfl
      · rw [if_neg hlength, if_neg hlength, toList_filter_map]
    · rw [if_neg hopen, if_neg hopen]
      by_cases hdelete : cmd = "DELETE".toList
      · rw [if_pos hdelete, hdelete, if_neg (by decide), if_neg (by decide), if_neg (by decide),
          if_pos rfl, accesses_handleDelete]
        by_cases hlength : parts.length < 2
        · rw [if_pos hlength, if_pos hlength]
          rfl
        · rw [if_neg hlength, if_neg hlength, toList_filter_map]
      · rw [if_neg hdelete, if_neg hdelete]
        by_cases hdirectory : cmd = "DIRECTORY".toList ∨ cmd = "DIR".toList
        · have hother (t : Text) (h₁ : "DIRECTORY".toList ≠ t) (h₂ : "DIR".toList ≠ t) :
              cmd ≠ t := by
            rintro rfl
            exact hdirectory.elim (fun h => h₁ h.symm) fun h => h₂ h.symm
          rw [if_pos hdirectory, if_pos hdirectory, if_neg (hother _ (by decide) (by decide)),
            if_neg (hother _ (by decide) (by decide)), if_neg (hother _ (by decide) (by decide)),
            accesses_handleDirectory, toList_filter_map]
        · rw [if_neg hdirectory, if_neg hdirectory]
          change _ = s.accesses ++ []
          rw [List.append_nil]
          split_ifs
          · rfl
          · exact accesses_handleRead
          · exact accesses_handleWrite
          · rfl

/-- What the commands of a session access, one after the other. -/
theorem accesses_processCommands (commands : List (Host × List Byte)) (s : Session) :
    (processCommands server commands s).accesses =
      s.accesses ++ commands.flatMap fun c => (made c.1 server c.2).toList := by
  induction commands generalizing s with
  | nil => exact (List.append_nil _).symm
  | cons c commands ih =>
    change (processCommands server commands (processCommand c.1 server c.2 s)).accesses = _
    rw [ih, accesses_processCommand, List.flatMap_cons, List.append_assoc]

/-- The paths of requests can be passed on. -/
theorem full_request {a : Access} (h : a ∈ request host server data) : Full a.path := by
  have hmap {name : Text} {f : Text → Access} (hf : ∀ path, Full path → Full (f path).path)
      (h : a ∈ (fullPath host server name).toOption.map f) : Full a.path := by
    obtain ⟨path, hpath, rfl⟩ := Option.map_eq_some_iff.mp h
    cases hfull : fullPath host server name with
    | error message =>
      rw [hfull] at hpath
      cases hpath
    | ok _ =>
      rw [hfull] at hpath
      cases hpath
      exact hf path (full_getFullPath host.cwd_noNull hfull)
  unfold request at h
  cases hparts : commandParts host.invalid data with
  | nil =>
    rw [hparts] at h
    cases h
  | cons first rest =>
    rw [hparts] at h
    dsimp only at h
    by_cases hopen : first.map host.upper = "OPEN".toList
    · rw [if_pos hopen] at h
      split at h
      · cases h
      · exact hmap (fun _ hpath => by exact hpath) h
    · rw [if_neg hopen] at h
      by_cases hdelete : first.map host.upper = "DELETE".toList
      · rw [if_pos hdelete] at h
        split at h
        · cases h
        · exact hmap (fun _ hpath => by exact hpath) h
      · rw [if_neg hdelete] at h
        split at h
        · apply hmap _ h
          intro path hpath
          change Full ((getDirectoryName path).getD server.rootDirectory)
          cases hdirectory : getDirectoryName path with
          | none => exact server.full
          | some directory => exact full_getDirectoryName hpath directory hdirectory
        · cases h

/-- The commands of a session stay in the root directory exactly if none of them names a file or a
directory that the host lets it access and whose path begins with the text of the root directory,
but for the case of the letters, and is elsewhere. -/
theorem confined_iff (server : FileServer) (commands : List (Host × List Byte)) :
    Confined server commands ↔
      ∀ c ∈ commands, ∀ a ∈ request c.1 server c.2, granted c.1 a = true →
        ¬(passes c.1 server a.path = true ∧ ¬parts server.rootDirectory <+: parts a.path) := by
  rw [Confined, accesses_processCommands]
  constructor
  · intro h c hc a ha hgranted hmistaken
    apply hmistaken.2
    rw [← inside_full_iff (full_request ha)]
    apply h
    refine List.mem_append_right _ (List.mem_flatMap.mpr ⟨c, hc, ?_⟩)
    rw [Option.mem_toList, made, Option.filter_eq_some_iff, hgranted, hmistaken.1]
    exact ⟨ha, rfl⟩
  · intro h a ha
    obtain ⟨c, hc, hmade⟩ := List.mem_flatMap.mp ha
    rw [Option.mem_toList, made, Option.filter_eq_some_iff, Bool.and_eq_true] at hmade
    obtain ⟨ha, hpasses, hgranted⟩ := hmade
    rw [inside_full_iff (full_request ha)]
    by_contra hparts
    exact h c hc a ha hgranted ⟨hpasses, hparts⟩

/-- A file in a directory beside the root, whose name begins like that of the root. -/
def besideRoot : List Byte := chars "DELETE ../lispm-old/site.lisp"

/-- A client deletes a file beside the root directory. -/
theorem not_confined : siteServer ∈ create permissive "/srv/lispm".toList ∧
    ¬Confined siteServer [(permissive, besideRoot)] := by
  refine ⟨rfl, fun h => ?_⟩
  have haccesses : (processCommands siteServer [(permissive, besideRoot)] newSession).accesses =
      [.deleted "/srv/lispm-old/site.lisp".toList] := by
    rfl
  rw [Confined, haccesses] at h
  have hinside := h _ (List.mem_singleton_self _)
  obtain heq | hprefix := hinside
  · exact absurd heq (by decide)
  · exact absurd hprefix (by decide)

end FileServer

end Usim
