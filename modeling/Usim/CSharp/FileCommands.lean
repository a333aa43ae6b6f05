import Usim.CSharp.ChaosNetwork
import Usim.Lib.Paths

/-!
# Commands of the C# FILE server

`ProcessCommand` of `ChaosFileServer.cs` with its handlers. What the server's host decides is a
parameter. Paths have `/` as their separator. The texts on the console are left out.
-/

namespace Usim

open Lib Lib.Paths

namespace FileServer

/-- A string. -/
abbrev Text := List Char

/-- `FileMode`, as far as it is used. -/
inductive FileMode
  | openOrCreate | «open»
  deriving DecidableEq, Repr

/-- What the host of the server decides. -/
structure Host where
  /-- The working directory. -/
  cwd : Text
  cwd_noNull : '\x00' ∉ cwd
  /-- The case mapping of `ToUpperInvariant` and `OrdinalIgnoreCase`. -/
  upper : Char → Char
  /-- What `ASCII.GetString` makes of a byte that is not ASCII. -/
  invalid : Char
  /-- `File.Open`: the bytes of the file or the message of an exception. -/
  openFile : Text → FileMode → Except Text (List Byte)
  /-- `File.Exists`. -/
  fileExists : Text → Bool
  /-- `File.Delete`. -/
  deleteFile : Text → Except Text Unit
  /-- `Directory.GetFiles`. -/
  getFiles : Text → Text → Except Text (List Text)
  /-- The line for a file in a listing. -/
  describe : Text → Except Text Text
  /-- `new byte[n]`. -/
  newBytes : ℕ → Except Text Unit

/-! ### Paths -/

/-- `Path.Combine`. -/
def combine (path1 path2 : Text) : Text :=
  if path2 = [] then path1
  else if path1 = [] ∨ path2.head? = some '/' then path2
  else if path1.getLast? = some '/' then path1 ++ path2
  else path1 ++ '/' :: path2

/-- `Path.GetFullPath`, which throws if there is no path or a character of code 0 in it. -/
def getFullPath (cwd path : Text) : Except Text Text :=
  if path = [] then .error "The path is empty. (Parameter 'path')".toList
  else if '\x00' ∈ path then .error "Null character in path. (Parameter 'path')".toList
  else
    let path := if path.head? = some '/' then path else combine cwd path
    .ok (render (parts path) (path.getLast? = some '/'))

/-- A path that is resolved and can be passed on. -/
structure Full (path : Text) : Prop where
  resolved : Resolved path
  noNull : '\x00' ∉ path

/-- What `GetFullPath` gives can be passed on. -/
theorem full_getFullPath {cwd path full : Text} (hcwd : '\x00' ∉ cwd)
    (h : getFullPath cwd path = .ok full) : Full full := by
  unfold getFullPath at h
  dsimp only at h
  split at h
  · cases h
  · split at h
    · cases h
    · rename_i hpath
      generalize hrooted : (if path.head? = some '/' then path else combine cwd path) = rooted at h
      have hnull : '\x00' ∉ rooted := by
        subst hrooted
        unfold combine
        split_ifs <;> simp [hcwd, hpath]
      cases h
      refine ⟨⟨_, isPart_parts _, _, rfl⟩, fun hmem => ?_⟩
      obtain ⟨part, hpart, hc⟩ := mem_render hmem (by decide)
      exact hnull (mem_of_mem_parts part hpart hc)

/-- `Path.GetDirectoryName`, of a path that begins with a separator. -/
def getDirectoryName (path : Text) : Option Text :=
  if path.length ≤ 1 then none
  else
    let directory := (path.rdropWhile (· ≠ '/')).rdropWhile (· = '/')
    some (if directory = [] then ['/'] else directory)

/-- `Path.GetFileName`. -/
def getFileName (path : Text) : Text := path.rtakeWhile (· ≠ '/')

/-- `StartsWith`, with `OrdinalIgnoreCase`. -/
def startsWith (upper : Char → Char) (path value : Text) : Bool :=
  (value.map upper).isPrefixOf (path.map upper)

/-! ### Text -/

/-- `ASCII.GetString`. -/
def getString (invalid : Char) (data : List Byte) : Text :=
  data.map fun b => if b.toNat < 128 then Char.ofNat b.toNat else invalid

/-- `ASCII.GetBytes`. -/
def getBytes (t : Text) : List Byte :=
  t.map fun c => if c.toNat < 128 then BitVec.ofNat 8 c.toNat else 63

/-- The words of a command. -/
def commandParts (invalid : Char) (data : List Byte) : List Text :=
  let command := (getString invalid data).rdropWhile fun c => c = '\x00' ∨ c = '\r' ∨ c = '\n'
  (command.splitOn ' ').filter (· ≠ [])

/-- What `int.TryParse` skips at the two ends. -/
def isParseWhite (c : Char) : Bool := c = ' ' ∨ 0x09 ≤ c.toNat ∧ c.toNat ≤ 0x0D

/-- The sign in front of a number. -/
def parseSign : Text → Bool × Text
  | '-' :: t => (true, t)
  | '+' :: t => (false, t)
  | t => (false, t)

/-- `int.TryParse`. -/
def tryParse (t : Text) : Option ℤ :=
  let (negative, t) := parseSign (t.dropWhile isParseWhite)
  let (digits, rest) := t.span Char.isDigit
  let magnitude : ℕ := digits.foldl (fun n c => 10 * n + (c.toNat - '0'.toNat)) 0
  let value : ℤ := if negative then -magnitude else magnitude
  if digits = [] ∨ (rest.dropWhile isParseWhite).dropWhile (· = '\x00') ≠ [] then none
  else if value < -2 ^ 31 ∨ 2 ^ 31 ≤ value then none
  else some value

/-! ### Sessions -/

/-- `FileStream`. -/
structure FileStream where
  content : List Byte
  position : ℕ
  /-- `Close` was called. -/
  closed : Bool
  deriving DecidableEq

/-- What is opened, deleted and listed. -/
inductive Access
  | opened (path : Text) (mode : FileMode)
  | deleted (path : Text)
  | listed (directory searchPattern : Text)
  deriving DecidableEq

/-- The path of an access. -/
def Access.path : Access → Text
  | opened path _ => path
  | deleted path => path
  | listed directory _ => directory

/-- What is handed to `Connection.Send`. -/
inductive Sent
  /-- Bytes of a file or a listing. -/
  | data (bytes : List Byte)
  /-- The message of a `SendResponse`. -/
  | response (message : Text)
  deriving DecidableEq

/-- The bytes of what is sent. -/
def Sent.bytes : Sent → List Byte
  | data bytes => bytes
  | response message => getBytes (message ++ ['\r', '\n'])

/-- `FileSession`, with what a command has sent and accessed. -/
structure Session where
  /-- `CurrentFile`. -/
  currentFile : Option FileStream
  /-- `CurrentFilename`. -/
  currentFilename : Option Text
  sent : List Sent
  /-- The accesses that succeeded. -/
  accesses : List Access
  deriving DecidableEq

/-- A handler. An exception is its message. -/
abbrev Handler := EStateM Text Session

/-- A call that may throw. -/
def call {α : Type} (result : Except Text α) : Handler α :=
  match result with
  | .ok a => pure a
  | .error message => throw message

theorem call_ok_bind {α β : Type} (a : α) (f : α → Handler β) : (call (.ok a) >>= f) = f a := rfl

/-- `session.Connection.Send`. -/
def send (x : Sent) : Handler Unit := modify fun s => { s with sent := s.sent ++ [x] }

/-- `SendResponse`. -/
def sendResponse (message : Text) : Handler Unit := send (.response message)

/-- `SendError`. -/
def sendError (message : Text) : Handler Unit := sendResponse ("ERROR: ".toList ++ message)

/-- An access that succeeded. -/
def record (a : Access) : Handler Unit := modify fun s => { s with accesses := s.accesses ++ [a] }

end FileServer

/-- The class `ChaosFileServer`. Its root directory was resolved by the constructor. -/
structure FileServer where
  /-- `_rootDirectory`. -/
  rootDirectory : List Char
  full : FileServer.Full rootDirectory

namespace FileServer

/-- The word at an index that is in range. -/
def getPart (parts : List Text) (i : ℕ) : Text := parts.getD i []

/-- The constructor. -/
def create (host : Host) (rootDirectory : Text) : Option FileServer :=
  match h : FileServer.getFullPath host.cwd rootDirectory with
  | .ok rootDirectory => some ⟨rootDirectory, full_getFullPath host.cwd_noNull h⟩
  | .error _ => none

/-- A host on which every file is there. -/
def permissive : Host where
  cwd := "/".toList
  cwd_noNull := by decide
  upper := Char.toUpper
  invalid := '?'
  openFile := fun _ _ => .ok []
  fileExists := fun _ => true
  deleteFile := fun _ => .ok ()
  getFiles := fun _ _ => .ok []
  describe := fun _ => .ok []
  newBytes := fun _ => .ok ()

theorem getFullPath_lispm : getFullPath permissive.cwd "/srv/lispm".toList =
    .ok "/srv/lispm".toList := rfl

/-- A server with a root directory of its own. -/
def siteServer : FileServer :=
  ⟨"/srv/lispm".toList, full_getFullPath permissive.cwd_noNull getFullPath_lispm⟩

section Commands

variable (host : Host) (server : FileServer)

/-- The path `GetFullPath(filename)` of the class. -/
def fullPath (filename : Text) : Except Text Text :=
  let safeName := filename.map fun c => if c = ':' then '/' else c
  let safeName := safeName.map fun c => if c = ';' then '/' else c
  getFullPath host.cwd (combine server.rootDirectory safeName)

/-- `IsPathAllowed`. -/
def isPathAllowed (fullPath : Text) : Except Text Bool := do
  let normalizedPath ← getFullPath host.cwd fullPath
  pure (startsWith host.upper normalizedPath server.rootDirectory)

/-- `HandleOpen`. -/
def handleOpen (parts : List Text) : Handler Unit := do
  if parts.length < 2 then
    return ← sendError "OPEN requires filename".toList
  let filename := getPart parts 1
  let fullPath ← call (fullPath host server filename)
  unless ← call (isPathAllowed host server fullPath) do
    return ← sendError "Access denied".toList
  modify fun s => { s with
    currentFile := s.currentFile.map fun file => { file with closed := true } }
  let mode := if parts.length > 2 ∧ (getPart parts 2).map host.upper = "WRITE".toList then
    .openOrCreate else .open
  let content ← call (host.openFile fullPath mode)
  record (.opened fullPath mode)
  modify fun s => { s with currentFile := some ⟨content, 0, false⟩ }
  modify fun s => { s with currentFilename := some filename }
  sendResponse "OK".toList

/-- `HandleClose`. -/
def handleClose : Handler Unit := do
  modify fun s => { s with currentFile := none, currentFilename := none }
  sendResponse "OK".toList

/-- `FileStream.Read` of `count` bytes: those that are left. -/
def FileStream.read (count : ℕ) (file : FileStream) : Except Text (List Byte × FileStream) :=
  if file.closed then .error "Cannot access a closed file.".toList
  else
    let bytes := (file.content.drop file.position).take count
    .ok (bytes, { file with position := file.position + bytes.length })

/-- `HandleRead`. -/
def handleRead (parts : List Text) : Handler Unit := do
  match (← get).currentFile with
  | none => sendError "No file open".toList
  | some file =>
    let count := if parts.length > 1 then (tryParse (getPart parts 1)).getD 256 else 256
    if count < 0 then
      throw "Arithmetic operation resulted in an overflow.".toList
    call (host.newBytes count.toNat)
    let (bytes, file) ← call (file.read count.toNat)
    modify fun s => { s with currentFile := some file }
    if bytes.length > 0 then send (.data bytes)
    else sendResponse "EOF".toList

/-- `HandleWrite`. -/
def handleWrite : Handler Unit := do
  if (← get).currentFile.isNone then
    return ← sendError "No file open".toList
  sendResponse "READY".toList

/-- `HandleDelete`. -/
def handleDelete (parts : List Text) : Handler Unit := do
  if parts.length < 2 then
    return ← sendError "DELETE requires filename".toList
  let fullPath ← call (fullPath host server (getPart parts 1))
  unless ← call (isPathAllowed host server fullPath) do
    return ← sendError "Access denied".toList
  if host.fileExists fullPath then
    call (host.deleteFile fullPath)
    record (.deleted fullPath)
    sendResponse "OK".toList
  else sendError "File not found".toList

/-- `HandleDirectory`. -/
def handleDirectory (parts : List Text) : Handler Unit := do
  let pattern := if parts.length > 1 then getPart parts 1 else ['*']
  let searchPath ← call (fullPath host server pattern)
  let directory := (getDirectoryName searchPath).getD server.rootDirectory
  let searchPattern := getFileName searchPath
  unless ← call (isPathAllowed host server directory) do
    return ← sendError "Access denied".toList
  let files ← call (host.getFiles directory searchPattern)
  record (.listed directory searchPattern)
  let sb := (← files.mapM fun file => call (host.describe file)).flatten
  if sb.length = 0 then sendResponse "No files found".toList
  else send (.data (getBytes sb))

/-- The `switch` of `ProcessCommand`. -/
def dispatch (cmd : Text) (parts : List Text) : Handler Unit :=
  if cmd = "OPEN".toList then handleOpen host server parts
  else if cmd = "CLOSE".toList then handleClose
  else if cmd = "READ".toList then handleRead host parts
  else if cmd = "WRITE".toList then handleWrite
  else if cmd = "DELETE".toList then handleDelete host server parts
  else if cmd = "DIRECTORY".toList ∨ cmd = "DIR".toList then handleDirectory host server parts
  else sendError ("Unknown command: ".toList ++ cmd)

/-- `ProcessCommand`. -/
def processCommand (data : List Byte) (s : Session) : Session :=
  match commandParts host.invalid data with
  | [] => s
  | parts@(first :: _) =>
    match (dispatch host server (first.map host.upper) parts).run s with
    | .ok _ s => s
    | .error message s =>
      match (sendError ("Error: ".toList ++ message)).run s with
      | .ok _ s => s
      | .error _ s => s

end Commands

end FileServer

end Usim
