import Usim.Kbd

/-!
# The Space Cadet keyboard

`cadet.c` with its table `cadet.defs`: how keys of the host become codes of the keyboard that
came with the machine. The two ports that use it say which keys are down when one is
released. What was given to the keyboard is recorded with the state.
-/

namespace Usim

/-- The indices of `kbd.h` into a map of modifiers. -/
inductive Bucky
  | shift | top | control | «meta» | shiftLock | modeLock | greek | «repeat» | altLock | hyper
  | super
  deriving DecidableEq, Repr

/-- `CADET_IX_UNSHIFT` and so on, which shift must be generated. -/
inductive CadetIx
  | unshift | shift | top | greek
  deriving DecidableEq, Repr

/-- The index itself. -/
def CadetIx.toNat : CadetIx → ℕ
  | unshift => 0
  | shift => 1
  | top => 2
  | greek => 3

/-- The section `Unshifted` of `cadet.defs`: characters and their scan codes. -/
def cadetUnshifted : List (ℕ × Word) :=
  -- macro, terminal, quote, overstrike, clear_input, clear_screen
  [(0o205, 0o100), (0o204, 0o40), (0o216, 0o120), (0o210, 0o160), (0o202, 0o110), (0o214, 0o50),
    -- hold_output, stop_output, abort, break, resume, call
    (0o217, 0o30), (0o220, 0o170), (0o221, 0o67), (0o201, 0o167), (0o222, 0o47), (0o203, 0o107),
    -- roman_i, roman_ii, system, colon, 1, 2
    (0o225, 0o101), (0o226, 0o1), (0o235, 0o141), (0o72, 0o21), (0o61, 0o121), (0o62, 0o61),
    -- 3, 4, 5, 6, 7, 8
    (0o63, 0o161), (0o64, 0o11), (0o65, 0o111), (0o66, 0o51), (0o67, 0o151), (0o70, 0o31),
    -- 9, 0, minus, equal, braceleft, braceright
    (0o71, 0o71), (0o60, 0o171), (0o55, 0o131), (0o75, 0o126), (0o173, 0o166), (0o175, 0o146),
    -- status, hand_up, hand_down, roman_iii, roman_iv, network
    (0o223, 0o46), (0o231, 0o106), (0o232, 0o176), (0o227, 0o102), (0o230, 0o2), (0o236, 0o42),
    -- tab, q, w, e, r, t
    (0o211, 0o22), (0o161, 0o122), (0o167, 0o62), (0o145, 0o162), (0o162, 0o12), (0o164, 0o112),
    -- y, u, i, o, p, parenleft
    (0o171, 0o52), (0o165, 0o152), (0o151, 0o32), (0o157, 0o72), (0o160, 0o172), (0o50, 0o132),
    -- parenright, grave, backslash, delete, hand_left, hand_right
    (0o51, 0o137), (0o140, 0o77), (0o134, 0o37), (0o213, 0o157), (0o233, 0o117), (0o234, 0o17),
    -- altmode, rubout, a, s, d, f
    (0o33, 0o143), (0o207, 0o23), (0o141, 0o123), (0o163, 0o63), (0o144, 0o163), (0o146, 0o13),
    -- g, h, j, k, l, semicolon
    (0o147, 0o113), (0o150, 0o53), (0o152, 0o153), (0o153, 0o33), (0o154, 0o73), (0o73, 0o173),
    -- apostrophe, return, line, end, help, z
    (0o47, 0o133), (0o215, 0o136), (0o212, 0o36), (0o224, 0o156), (0o206, 0o116), (0o172, 0o124),
    -- x, c, v, b, n, m
    (0o170, 0o64), (0o143, 0o164), (0o166, 0o14), (0o142, 0o114), (0o156, 0o54), (0o155, 0o154),
    -- comma, period, slash, space
    (0o54, 0o34), (0o56, 0o74), (0o57, 0o174), (0o40, 0o134)]

/-- The section `Shift`. -/
def cadetShifted : List (ℕ × Word) :=
  -- plus_minus, exclam, at, numbersign, dollar, percent
  [(0o14, 0o21), (0o41, 0o121), (0o100, 0o61), (0o43, 0o161), (0o44, 0o11), (0o45, 0o111),
    -- asciicircum, ampersand, asterisk, parenleft, parenright, underscore
    (0o136, 0o51), (0o46, 0o151), (0o52, 0o31), (0o50, 0o71), (0o51, 0o171), (0o137, 0o131),
    -- plus, less, greater, Q, W, E
    (0o53, 0o126), (0o74, 0o34), (0o76, 0o74), (0o121, 0o122), (0o127, 0o62), (0o105, 0o162),
    -- R, T, Y, U, I, O
    (0o122, 0o12), (0o124, 0o112), (0o131, 0o52), (0o125, 0o152), (0o111, 0o32), (0o117, 0o72),
    -- P, bracketleft, bracketright, asciitilde, bar, A
    (0o120, 0o172), (0o133, 0o132), (0o135, 0o137), (0o176, 0o77), (0o174, 0o37), (0o101, 0o123),
    -- S, D, F, G, H, J
    (0o123, 0o63), (0o104, 0o163), (0o106, 0o13), (0o107, 0o113), (0o110, 0o53), (0o112, 0o153),
    -- K, L, quotedbl, Z, X, C
    (0o113, 0o33), (0o114, 0o73), (0o42, 0o133), (0o132, 0o124), (0o130, 0o64), (0o103, 0o164),
    -- V, B, N, M, question
    (0o126, 0o14), (0o102, 0o114), (0o116, 0o54), (0o115, 0o154), (0o77, 0o174)]

/-- The section `Top`. -/
def cadetTop : List (ℕ × Word) :=
  -- and_sign, or_sign, up_horseshoe, down_horseshoe, left_horseshoe, right_horseshoe
  [(0o4, 0o122), (0o37, 0o62), (0o22, 0o162), (0o23, 0o12), (0o20, 0o112), (0o21, 0o52),
    -- universal_quantifier, infinity, existential_quantifier, partial_delta, up_arrow, down_arrow
    (0o24, 0o152), (0o16, 0o32), (0o25, 0o72), (0o17, 0o172), (0o13, 0o113), (0o1, 0o53),
    -- left_arrow, right_arrow, double_arrow, not_equal, equivalence, less_or_equal
    (0o30, 0o153), (0o31, 0o33), (0o27, 0o73), (0o32, 0o164), (0o36, 0o114), (0o34, 0o54),
    -- greater_or_equal
    (0o35, 0o154)]

/-- The section `Greek`. -/
def cadetGreek : List (ℕ × Word) :=
  -- circle_plus, epsilon, pi, not_sign, circle_x, alpha
  [(0o15, 0o176), (0o6, 0o162), (0o7, 0o172), (0o5, 0o77), (0o26, 0o117), (0o2, 0o123),
    -- delta, gamma, lambda, center_dot, beta, integral
    (0o12, 0o163), (0o11, 0o113), (0o10, 0o73), (0o0, 0o133), (0o3, 0o114), (0o177, 0o174)]

/-- All of `cadet.defs`. -/
def cadetDefs : List (ℕ × Word × CadetIx) :=
  cadetUnshifted.map (fun p => (p.1, p.2, .unshift)) ++
    cadetShifted.map (fun p => (p.1, p.2, .shift)) ++
    cadetTop.map (fun p => (p.1, p.2, .top)) ++ cadetGreek.map (fun p => (p.1, p.2, .greek))

/-- `cadet_kbd_map` after `cadet_init`. The last line for a character stays. -/
def cadetKbdMap (lmchar : ℕ) : Word × CadetIx :=
  ((cadetDefs.reverse.find? fun p => p.1 = lmchar).map Prod.snd).getD (0, .unshift)

/-- `cadet_modifier_map` after `cadet_init`. -/
def cadetModifierMap : Bucky → Word
  | .shift => 0o24
  | .top => 0o104
  | .control => 0o20
  | .«meta» => 0o45
  | .super => 0o5
  | .hyper => 0o145
  | .shiftLock => 0o125
  | _ => 0

/-- `kbd_map` and `kbd_modifier_map`. -/
structure KbdMaps where
  /-- The character of a key symbol. -/
  kbdMap : ℕ → Option ℕ
  /-- What a modifier of the host is. -/
  modifierMap : Fin 8 → Option Bucky

/-- `cadet_shifts`, and the keyboard. -/
structure Cadet where
  shifts : Word
  kbd : Kbd
  /-- The codes given to the keyboard. -/
  emitted : List Word

namespace Cadet

/-- The bit of a shift. -/
def shiftBit (ix : CadetIx) : Word := 1 <<< ix.toNat

/-- `kbd_event`. -/
def kbdEvent (c : Cadet) (code : Word) (keydown : Bool) : Cadet :=
  { c with
    kbd := c.kbd.event code keydown
    emitted := c.emitted ++ [Kbd.eventCode code keydown] }

/-- `kbd_queue_key_event`. -/
def kbdQueueKeyEvent (c : Cadet) (ev : Word) : Cadet :=
  { c with kbd := c.kbd.queueKeyEvent ev, emitted := c.emitted ++ [ev] }

/-- `cadet_allup_event`. -/
def allupEvent (c : Cadet) (mods : Word) : Cadet :=
  let v := 0o100000 ||| (mods &&& 0o1777)
  { c with
    kbd := if c.kbd.ready then c.kbd.queueKeyEvent v else c.kbd.present (0x10000 ||| v)
    emitted := c.emitted ++ [v] }

/-- `cadet_queue_all_keys_up`. -/
def queueAllKeysUp (c : Cadet) : Cadet := { c with shifts := 0 }.kbdQueueKeyEvent 0o100000

/-- `cadet_press_bucky`: the mask of an all-up event, and the shifts. -/
def pressBucky (bucky : Option Bucky) (p : Word × Word) : Word × Word :=
  match bucky with
  | some .shift => (p.1 ||| 0o1, p.2 ||| shiftBit .shift)
  | some .top => (p.1 ||| 0o4, p.2 ||| shiftBit .top)
  | some .control => (p.1 ||| 0o20, p.2)
  | some .«meta» => (p.1 ||| 0o40, p.2)
  | some .shiftLock => (p.1 ||| 0o10, p.2)
  | some .modeLock => (p.1 ||| 0o1000, p.2)
  | some .greek => (p.1 ||| 0o2, p.2 ||| shiftBit .greek)
  | some .altLock => (p.1 ||| 0o400, p.2)
  | some .hyper => (p.1 ||| 0o200, p.2)
  | some .super => (p.1 ||| 0o100, p.2)
  | some .«repeat» => p
  | none => p

/-- `cadet_process_shift`. -/
def processShift (c : Cadet) (scc : Word) (keydown : Bool) : Cadet :=
  let shift : Option Word :=
    if scc = 0o44 ∨ scc = 0o35 then some (shiftBit .greek)
    else if scc = 0o104 ∨ scc = 0o155 then some (shiftBit .top)
    else if scc = 0o24 ∨ scc = 0o25 then some (shiftBit .shift)
    else none
  match shift with
  | none => c
  | some shift => { c with shifts := if keydown then c.shifts ||| shift else c.shifts &&& ~~~shift }

/-- The shift that is pressed for a character. -/
def shkey : CadetIx → Option Word
  | .unshift => none
  | .shift => some 0o24
  | .top => some 0o104
  | .greek => some 0o44

/-- A code that is queued if the condition holds. -/
def queueIf (p : Bool) (ev : Word) (c : Cadet) : Cadet := if p then c.kbdQueueKeyEvent ev else c

/-- The shifts that are held are those that the character needs, as `cadet_process_key` has
it. -/
def shiftsCorrect (c : Cadet) (wantshift : CadetIx) : Bool :=
  (wantshift = .unshift && !c.shifts.getLsbD 1) || c.shifts.getLsbD wantshift.toNat

/-- The messy case of `cadet_process_key`. -/
def processMessy (c : Cadet) (scc : Word) (wantshift : CadetIx) (keydown : Bool) : Cadet :=
  let oshift := c.shifts
  let c := c.queueAllKeysUp
  let c := queueIf (shkey wantshift).isSome ((shkey wantshift).getD 0) c
  let c := c.kbdQueueKeyEvent (scc ||| if keydown then 0 else 0o400)
  let c := queueIf (shkey wantshift).isSome ((shkey wantshift).getD 0 ||| 0o400) c
  let c := queueIf (oshift.getLsbD 2) 0o104 c
  let c := queueIf (oshift.getLsbD 1) 0o24 c
  let c := queueIf (oshift.getLsbD 3) 0o44 c
  { c with shifts := oshift }

/-- `cadet_process_key`, with what `allup_key` returns and does. -/
def processKey (maps : KbdMaps) (keysym : ℕ) (bi : Option (Fin 8)) (keydown : Bool)
    (allupKey : Cadet → Bool × Cadet) (c : Cadet) : Cadet :=
  let r := if keydown then (false, c) else allupKey c
  let c := r.2
  if r.1 then c
  else match bi with
    | some bi =>
      match maps.modifierMap bi with
      | none => c
      | some bucky =>
        let scc := cadetModifierMap bucky
        (c.processShift scc keydown).kbdEvent scc keydown
    | none =>
      match maps.kbdMap keysym with
      | none => c
      | some lmchar =>
        if 0o377 < lmchar then c
        else
          let scc := (cadetKbdMap lmchar).1
          let wantshift := (cadetKbdMap lmchar).2
          if c.shiftsCorrect wantshift then c.kbdEvent scc keydown
          else c.processMessy scc wantshift keydown

end Cadet

/-- The ports with a callback for `cadet_process_key`. -/
inductive CadetPort
  | x11 | sdl2
  deriving DecidableEq, Repr

/-- The modifiers of the host that a port knows: `ShiftMapIndex` is 0, and `Mod5MapIndex` 7. -/
def CadetPort.Knows : CadetPort → Fin 8 → Prop
  | x11, _ => True
  | sdl2, bi => bi = 0 ∨ bi = 1 ∨ bi = 2 ∨ bi = 3 ∨ bi = 6

/-- A key of the host: a bucky key on the left or on the right, or another one. -/
inductive HostKey (port : CadetPort)
  | bucky (bi : Fin 8) (hbi : port.Knows bi) (right : Bool)
  | ordinary (keycode : ℕ)
  deriving DecidableEq

namespace HostKey

variable {port : CadetPort}

/-- What the key is to the machine. -/
def modifier (maps : KbdMaps) : HostKey port → Option Bucky
  | bucky bi .. => maps.modifierMap bi
  | ordinary _ => none

/-- The key is no bucky key. -/
def isOrdinary : HostKey port → Bool
  | bucky .. => false
  | ordinary _ => true

/-- `x11_bucky`, or `sdl2_bucky` for a key that is pressed: this does not know the lock. -/
def bi : HostKey port → Option (Fin 8)
  | bucky bi .. => if port = .sdl2 ∧ bi = 1 then none else some bi
  | ordinary _ => none

/-- What `cadet_allup_key` adds up of the keys that are down. -/
def pressed (maps : KbdMaps) (held : List (HostKey port)) : Word × Word :=
  held.foldl (fun p key => Cadet.pressBucky (key.modifier maps) p) (0, 0)

/-- `cadet_allup_key` with these keys down. The one for SDL2 does not look for other keys. -/
def allupKey (maps : KbdMaps) (held : List (HostKey port)) (c : Cadet) : Bool × Cadet :=
  let allup := port = .sdl2 || !held.any isOrdinary
  if allup then (true, { c with shifts := (pressed maps held).2 }.allupEvent (pressed maps held).1)
  else (false, c)

end HostKey

end Usim
