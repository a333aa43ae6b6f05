import Usim.Usym

/-!
# The disassembler for microcode

`udiss.c`. A field printer is given by the texts that it prints, one for each `PRIN1`. These are
written one behind the other into a buffer of 128 bytes.
-/

namespace Usim

open Lib

/-- `load_byte`, for a value that fits in an `int`. -/
def loadByte (w : BitVec 64) (p s : ℕ) : ℕ := (w >>> p &&& BitVec.ofNat 64 (2 ^ s - 1)).toNat

namespace Udiss

/-- `PRIN1SP`. -/
def prin1sp (t : List Byte) : List (List Byte) := [t, chars " "]

/-- `%o`. -/
def octal (n : ℕ) : List Byte := numeral 8 n

/-! ### Symbols and fields -/

/-- The length of `byte_field_out`. -/
def byteLength (val : ℕ) (lengthIsMinusOne : Bool) : ℕ :=
  if lengthIsMinusOne then loadByte (BitVec.ofNat 64 val) 5 5 + 1
  else loadByte (BitVec.ofNat 64 val) 5 5

/-- The rotation of `byte_field_out`. -/
def byteRotation (u : BitVec 64) (val : ℕ) (alwaysReflectMrot : Bool) : ℕ :=
  let tem := loadByte (BitVec.ofNat 64 val) 0 5
  if tem = 0 then tem
  else if alwaysReflectMrot || loadByte u 12 2 = 1 then 32 - tem
  else tem

/-- `byte_field_out`. -/
def byteFieldOut (u : BitVec 64) (val : ℕ) (alwaysReflectMrot lengthIsMinusOne : Bool) :
    List (List Byte) :=
  [chars "(Byte-field "] ++ prin1sp (octal (byteLength val lengthIsMinusOne)) ++
    [octal (byteRotation u val alwaysReflectMrot)] ++ [chars ") "]

/-- `sym_find_by_type_val` without an offset, printed with `%s`. -/
def label (tab : Symtab) (type : SymType) (val : ℕ) : Option (List Byte) :=
  (tab.symFindByTypeVal type (BitVec.ofNat 32 val) false).map fun p => cString p.1

/-- `c_or_d_adr_out`. -/
def cOrDAdrOut (tab : Symtab) (type : SymType) (val : ℕ) : List (List Byte) :=
  match label tab type val with
  | some lbl => prin1sp lbl
  | none => prin1sp (octal val)

/-- `a_or_m_adr_out`. -/
def aOrMAdrOut (tab : Symtab) (type : SymType) (val : ℕ) : List (List Byte) :=
  if val = 0 then []
  else
    match label tab type val with
    | some lbl => [lbl, chars " "]
    | none => [octal val ++ chars (if type = .amem then "@A" else "@M"), chars " "]

/-- `type_field`. -/
def typeField (tab : Symtab) (type : SymType) (u : BitVec 64) (pp ss : ℕ) : List (List Byte) :=
  let val := loadByte u pp ss
  match type with
  | .imem => cOrDAdrOut tab type val
  | .dmem => cOrDAdrOut tab type val
  | .amem => aOrMAdrOut tab type val
  | .mmem => aOrMAdrOut tab type val
  | .number => prin1sp (octal val)

/-! ### Names -/

/-- The texts of `m_source_desc` for a functional source. -/
def fsourceText : ℕ → List Byte
  | 0 => chars "READ-I-ARG"
  | 1 => chars "MICRO-STACK-PNTR-AND-DATA"
  | 2 => chars "PDL-BUFFER-POINTER"
  | 3 => chars "PDL-BUFFER-INDEX"
  | 5 => chars "C-PDL-BUFFER-INDEX"
  | 6 => chars "C-OPC-BUFFER"
  | 7 => chars "Q-R"
  | 8 => chars "VMA"
  | 9 => chars "MEMORY-MAP-DATA"
  | 10 => chars "MD"
  | 11 => chars "LOCATION-COUNTER"
  | 12 => chars "MICRO-STACK-PNTR-AND-DATA-POP"
  | 20 => chars "C-PDL-BUFFER-POINTER-POP"
  | 21 => chars "C-PDL-BUFFER-POINTER"
  | fsource => chars "FSOURCE-" ++ octal fsource

/-- The texts of `m_dest_desc` for a functional destination, of which 0 has none. -/
def fdestText : ℕ → List Byte
  | 1 => chars "LOCATION-COUNTER"
  | 2 => chars "INTERRUPT-CONTROL"
  | 8 => chars "C-PDL-BUFFER-POINTER"
  | 9 => chars "C-PDL-BUFFER-POINTER-PUSH"
  | 10 => chars "C-PDL-BUFFER-INDEX"
  | 11 => chars "PDL-BUFFER-INDEX"
  | 12 => chars "PDL-BUFFER-POINTER"
  | 13 => chars "MICRO-STACK-DATA-PUSH"
  | 14 => chars "OA-REG-LOW"
  | 15 => chars "OA-REG-HI"
  | 16 => chars "VMA"
  | 17 => chars "VMA-START-READ"
  | 18 => chars "VMA-START-WRITE"
  | 19 => chars "VMA-WRITE-MAP"
  | 24 => chars "MD"
  | 26 => chars "MD-START-WRITE"
  | 27 => chars "MD-WRITE-MAP"
  | fdest => chars "FDEST-" ++ octal fdest

/-- The texts of `alu_desc` for a function of the ALU, of which 5 has none. -/
def aluFunctionText : ℕ → List Byte
  | 0 => chars "SETZ"
  | 1 => chars "AND"
  | 2 => chars "ANDCA"
  | 3 => chars "SETM"
  | 4 => chars "ANDCM"
  | 6 => chars "XOR"
  | 7 => chars "IOR"
  | 8 => chars "ANDCB"
  | 9 => chars "EQV"
  | 10 => chars "SETCA"
  | 11 => chars "ORCA"
  | 12 => chars "SETCM"
  | 13 => chars "ORCM"
  | 14 => chars "ORCB"
  | 15 => chars "SETO"
  | 22 => chars "SUB"
  | 25 => chars "ADD"
  | 28 => chars "INCM"
  | 31 => chars "LSHM"
  | 32 => chars "MUL"
  | 33 => chars "DIV"
  | 37 => chars "DIVRC"
  | 41 => chars "DIVFS"
  | aluFunction => chars "ALU-FUNCTION-" ++ octal aluFunction

/-! ### Sources and destinations -/

/-- `m_source_desc`. -/
def mSourceDesc (tab : Symtab) (u : BitVec 64) : List (List Byte) :=
  if loadByte u 31 1 = 0 then typeField tab .mmem u 26 6
  else prin1sp (fsourceText (loadByte u 26 5))

/-- `q_dest_desc`. -/
def qDestDesc (u : BitVec 64) : List (List Byte) :=
  if loadByte u 43 2 = 0 ∧ loadByte u 0 2 = 3 then [chars " (Q-R) "] else []

/-- `a_dest_desc`. -/
def aDestDesc (tab : Symtab) (u : BitVec 64) : List (List Byte) := typeField tab .amem u 14 10

/-- `m_dest_desc`. -/
def mDestDesc (tab : Symtab) (u : BitVec 64) : List (List Byte) :=
  typeField tab .mmem u 14 5 ++
    if loadByte u 19 5 = 0 then [] else prin1sp (fdestText (loadByte u 19 5))

/-- `dest_desc_1`. -/
def destDesc1 (tab : Symtab) (u : BitVec 64) : List (List Byte) :=
  [chars " ("] ++ (if loadByte u 25 1 = 0 then mDestDesc tab u else aDestDesc tab u) ++
    (if loadByte u 43 2 = 0 ∧ loadByte u 0 2 = 3 then [chars "Q-R"] else []) ++ [chars ") "]

/-- `dest_desc`. -/
def destDesc (tab : Symtab) (u : BitVec 64) : List (List Byte) :=
  if loadByte u 14 11 = 0 then qDestDesc u else destDesc1 tab u

/-! ### Instructions -/

/-- `sub_carry_desc`. -/
def subCarryDesc (u : BitVec 64) : List (List Byte) :=
  if loadByte u 2 1 = 0 then prin1sp (chars "ALU-CARRY-IN-ZERO") else []

/-- `normal_carry_desc`. -/
def normalCarryDesc (u : BitVec 64) : List (List Byte) :=
  if loadByte u 2 1 = 1 then prin1sp (chars "ALU-CARRY-IN-ONE") else []

/-- The miscellaneous function, at the end of each instruction. -/
def mfDesc (u : BitVec 64) : List (List Byte) :=
  if loadByte u 10 2 = 0 then [] else prin1sp (chars "MF-" ++ octal (loadByte u 10 2))

/-- A text for a bit that is set. -/
def flagDesc (u : BitVec 64) (bit : ℕ) (text : String) : List (List Byte) :=
  if loadByte u bit 1 = 1 then prin1sp (chars text) else []

/-- The output selector of `alu_desc`. -/
def outputSelectorDesc : ℕ → List (List Byte)
  | 1 => []
  | 2 => prin1sp (chars "OUTPUT-SELECTOR-RIGHTSHIFT-1")
  | 3 => prin1sp (chars "OUTPUT-SELECTOR-LEFTSHIFT-1")
  | outputSelector => prin1sp (chars "OUTPUT-SELECTOR-" ++ octal outputSelector)

/-- The Q control of `alu_desc`. -/
def qDesc : ℕ → List (List Byte)
  | 1 => prin1sp (chars "SHIFT-Q-LEFT")
  | 2 => prin1sp (chars "SHIFT-Q-RIGHT")
  | _ => []

/-- `alu_desc`. -/
def aluDesc (tab : Symtab) (u : BitVec 64) : List (List Byte) :=
  destDesc tab u ++
    (if loadByte u 3 6 = 5 then [] else prin1sp (aluFunctionText (loadByte u 3 6))) ++
    (if loadByte u 3 6 = 0o26 then subCarryDesc u else normalCarryDesc u) ++
    outputSelectorDesc (loadByte u 12 2) ++ qDesc (loadByte u 0 2) ++ mSourceDesc tab u ++
    typeField tab .amem u 32 10 ++ mfDesc u ++ flagDesc u 45 "ILONG"

/-- The conditions of `type_jump_condition`. -/
def jumpConditionText : ℕ → String
  | 0 => "T"
  | 1 => "-LESS-THAN"
  | 2 => "-LESS-OR-EQUAL"
  | 3 => "-EQUAL"
  | 4 => "-IF-PAGE-FAULT"
  | 5 => "-IF-PAGE-FAULT-OR-INTERRUPT"
  | 6 => "-IF-SEQUENCE-BREAK"
  | 7 => "NIL"
  | 8 => "T"
  | 9 => "-GREATER-OR-EQUAL"
  | 10 => "-GREATER-THAN"
  | 11 => "-NOT-EQUAL"
  | 12 => "-IF-NO-PAGE-FAULT"
  | 13 => "-IF-NO-PAGE-FAULT-OR-INTERRUPT"
  | 14 => "-IF-NO-SEQUENCE-BREAK"
  | _ => "-NEVER"

/-- What kind of jump it is. -/
def jumpText (number : ℕ) : List Byte :=
  match (number &&& 0o1400) >>> 8 with
  | 0 => chars "JUMP"
  | 1 => chars "CALL"
  | 2 => chars "POPJ"
  | _ => chars "CALL-POPJ-??"

/-- The condition. -/
def jumpCondition (number : ℕ) : String :=
  jumpConditionText (if 0o100 &&& number = 0 then 0o7 &&& number else (0o7 &&& number) + 0o10)

/-- The next instruction is executed. -/
def xctNext (number : ℕ) : List (List Byte) :=
  if 0o200 &&& number = 0 then [chars "-XCT-NEXT"] else []

/-- `type_jump_condition`. -/
def typeJumpCondition (number : ℕ) : List (List Byte) :=
  [jumpText number] ++
    (if 0o40 &&& number = 0 then
      [chars "-IF-BIT-"] ++ [chars (if 0o100 &&& number = 0 then "Set" else "Clear")] ++
        xctNext number ++ [chars " (Byte-field 1 "] ++ [octal (32 - (0o37 &&& number))] ++
        [chars ")"]
    else if jumpCondition number = "T" then
      xctNext number ++ [chars " JUMP-CONDITION "] ++ [octal (0o7 &&& number)] ++
        if 0o100 &&& number = 0 then [chars "(Inverted)"] else []
    else
      (if jumpCondition number = "NIL" then [] else [chars (jumpCondition number)]) ++
        xctNext number) ++
    [chars " "]

/-- `jmp_desc`. -/
def jmpDesc (tab : Symtab) (u : BitVec 64) : List (List Byte) :=
  typeJumpCondition (loadByte u 0 10) ++ mSourceDesc tab u ++ typeField tab .amem u 32 10 ++
    typeField tab .imem u 12 14 ++ mfDesc u ++ flagDesc u 45 "ILONG"

/-- `dsp_const_desc`. -/
def dspConstDesc (tab : Symtab) (u : BitVec 64) : List (List Byte) :=
  [chars " ("] ++ typeField tab .number u 32 10 ++ [chars ") "]

/-- The map of `dsp_desc`. -/
def mapDesc : ℕ → List (List Byte)
  | 1 => prin1sp (chars "MAP-14")
  | 2 => prin1sp (chars "MAP-15")
  | 3 => prin1sp (chars "MAP-BOTH-14-AND-15")
  | _ => []

/-- `dsp_desc`. -/
def dspDesc (tab : Symtab) (u : BitVec 64) : List (List Byte) :=
  prin1sp (chars "DISPATCH") ++ (if loadByte u 32 10 = 0 then [] else dspConstDesc tab u) ++
    byteFieldOut u (loadByte u 0 8) true false ++ mSourceDesc tab u ++
    typeField tab .dmem u 12 11 ++ flagDesc u 25 "PUSH-OWN-ADDRESS" ++ flagDesc u 24 "IFETCH" ++
    mapDesc (loadByte u 8 2) ++ mfDesc u ++ flagDesc u 45 "ILONG"

/-- The byte operation of `byt_desc`. -/
def byteOperationDesc : ℕ → List (List Byte)
  | 1 => prin1sp (chars "LDB")
  | 2 => prin1sp (chars "SELECTIVE-DEPOSIT")
  | 3 => prin1sp (chars "DPB")
  | byteOperation => prin1sp (chars "BYTE-OPERATION-" ++ octal byteOperation)

/-- `byt_desc`. -/
def bytDesc (tab : Symtab) (u : BitVec 64) : List (List Byte) :=
  destDesc tab u ++ byteOperationDesc (loadByte u 12 2) ++
    byteFieldOut u (loadByte u 0 10) false true ++ mSourceDesc tab u ++
    typeField tab .amem u 32 10 ++ mfDesc u ++ flagDesc u 45 "ILONG"

/-- What `uinst_desc` prints. -/
def pieces (tab : Symtab) (u : BitVec 64) : List (List Byte) :=
  [chars "("] ++ flagDesc u 42 "POPJ-AFTER-NEXT" ++
    (match loadByte u 43 2 with
      | 0 => aluDesc tab u
      | 1 => jmpDesc tab u
      | 2 => dspDesc tab u
      | _ => bytDesc tab u) ++
    flagDesc u 46 "STAT-BIT" ++ flagDesc u 47 "BIT-47" ++ [chars ")"]

end Udiss

/-! ### The buffer -/

/-- What is written or read outside of the buffer. -/
inductive UdissFault
  | overflow | overrun
  deriving DecidableEq, Repr

/-- The globals of `udiss.c`. -/
structure Udiss where
  uinstbuf : Medium
  uinstbufp : ℕ
  uinstsymtab : Symtab

namespace Udiss

/-- `UBUFSZ`. -/
def ubufsz : ℕ := 128

/-- `PRIN1`. -/
def prin1 (d : Udiss) (t : List Byte) : Except UdissFault Udiss :=
  if d.uinstbufp + t.length + 1 ≤ ubufsz then
    .ok { d with
      uinstbuf := store d.uinstbuf d.uinstbufp (t ++ [0])
      uinstbufp := d.uinstbufp + t.length }
  else .error .overflow

/-- `(`. -/
def openParen : Byte := 0x28

/-- `)`. -/
def closeParen : Byte := 0x29

/-- A blank. -/
def blank : Byte := 0x20

/-- The loop of `uinst_strip`. A buffer without an end of the string is left after `fuel` turns. -/
def stripLoop : ℕ → Medium → ℕ → ℕ → Except UdissFault Medium
  | 0, _, _, _ => .error .overrun
  | fuel + 1, s, i, j =>
    if s i = 0 then .ok (Function.update s j 0)
    else
      let skip := s i = openParen || s i = blank
      let s := Function.update s j (s i)
      let i := i + 1
      let j := j + 1
      if skip then
        if s i = blank then stripLoop fuel s (i + 1) j
        else if s i = closeParen then stripLoop fuel s i (j - 1)
        else stripLoop fuel s i j
      else stripLoop fuel s i j

/-- `uinst_strip`. -/
def uinstStrip (s : Medium) : Except UdissFault Medium := stripLoop ubufsz s 0 0

/-- The beginning of `uinst_desc`. -/
def start (d : Udiss) (symtab : Option Symtab) : Udiss :=
  { uinstbuf := Function.update d.uinstbuf 0 0
    uinstbufp := 0
    uinstsymtab := symtab.getD d.uinstsymtab }

/-- `uinst_desc`, with the string that it returns. -/
def uinstDesc (d : Udiss) (u : BitVec 64) (symtab : Option Symtab) :
    Except UdissFault (List Byte × Udiss) := do
  let d := d.start symtab
  let d ← (pieces d.uinstsymtab u).foldlM prin1 d
  let uinstbuf ← uinstStrip d.uinstbuf
  return (cString ((List.range ubufsz).map uinstbuf), { d with uinstbuf := uinstbuf })

end Udiss

end Usim
