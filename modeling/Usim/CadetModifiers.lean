import Usim.Cadet
import Usim.Lib.Runs

/-!
# The modifiers that the machine sees

What the machine makes of the codes of the Space Cadet keyboard, against what the user holds:
a code is a key that goes down, a key that goes up, or all keys up with a mask of modifiers.
-/

namespace Usim

/-- The modifiers. -/
inductive LispModifier
  | shift | greek | top | control | «meta» | super | hyper
  deriving DecidableEq, Repr

namespace LispModifier

/-- `CADET_LEFT_SHIFT` and so on. -/
def code (right : Bool) : LispModifier → Word
  | shift => if right then 0o25 else 0o24
  | greek => if right then 0o35 else 0o44
  | top => if right then 0o155 else 0o104
  | control => if right then 0o26 else 0o20
  | «meta» => if right then 0o165 else 0o45
  | super => if right then 0o65 else 0o5
  | hyper => if right then 0o175 else 0o145

/-- The bit in the mask of an all-up event, `CADET_ALLUP_SHIFT` and so on. -/
def allupBit : LispModifier → ℕ
  | shift => 0
  | greek => 1
  | top => 2
  | control => 4
  | «meta» => 5
  | super => 6
  | hyper => 7

/-- The modifier as a map of modifiers has it. -/
def bucky : LispModifier → Bucky
  | shift => .shift
  | greek => .greek
  | top => .top
  | control => .control
  | «meta» => .«meta»
  | super => .super
  | hyper => .hyper

/-- The shift that the modifier is, if it is one. -/
def ix : LispModifier → Option CadetIx
  | shift => some .shift
  | greek => some .greek
  | top => some .top
  | _ => none

/-- All of them, left and right. -/
def sides : List (LispModifier × Bool) :=
  [shift, greek, top, control, «meta», super, hyper].flatMap fun m => [(m, false), (m, true)]

/-- The modifier with a code. -/
def ofCode (key : Word) : Option (LispModifier × Bool) := sides.find? fun p => p.1.code p.2 = key

end LispModifier

/-- `CADET_CAPSLOCK`, `CADET_ALTLOCK` or `CADET_MODELOCK`. -/
def isLock (key : Word) : Bool := key = 0o125 || key = 0o15 || key = 0o3

/-- The modifiers that are down for the machine, on the left and on the right, and the characters
that it has seen, each with the modifiers. -/
structure Guest where
  left : LispModifier → Bool
  right : LispModifier → Bool
  typed : List (Word × (LispModifier → Bool))

namespace Guest

/-- A modifier is down on some side. -/
def holds (g : Guest) (m : LispModifier) : Bool := g.left m || g.right m

/-- A code is received. -/
def receive (g : Guest) (v : Word) : Guest :=
  if v.getLsbD 15 then { g with left := fun m => v.getLsbD m.allupBit, right := fun _ => false }
  else
    let key := v &&& 0o377
    let down := !v.getLsbD 8
    match LispModifier.ofCode key with
    | some (m, false) => { g with left := Function.update g.left m down }
    | some (m, true) => { g with right := Function.update g.right m down }
    | none => if down && !isLock key then { g with typed := g.typed ++ [(key, g.holds)] } else g

end Guest

/-- Keys are pressed and released, each with its key symbol. -/
inductive HostEvent (port : CadetPort)
  | press (key : HostKey port) (keysym : ℕ)
  | release (key : HostKey port) (keysym : ℕ)

/-- The user, the translation and the machine. -/
structure CadetRun (port : CadetPort) where
  cadet : Cadet
  /-- The keys of the host that are down. -/
  held : List (HostKey port)
  /-- The machine, with what it saw of the last call. -/
  guest : Guest
  /-- What the map has for the last key, if this was pressed and is a character. -/
  wanted : Option (Word × CadetIx)

/-- The user holds a modifier. -/
def userHolds {port : CadetPort} (maps : KbdMaps) (held : List (HostKey port)) (m : LispModifier) :
    Bool :=
  held.any fun key => key.modifier maps = some m.bucky

/-- The modifiers for a character: of the shifts only the one that it needs, and the others as
the user holds them. -/
def CadetIx.among (ix : CadetIx) (held : LispModifier → Bool) (m : LispModifier) : Bool :=
  if m.ix.isSome then m.ix = some ix else held m

namespace CadetRun

variable {port : CadetPort}

/-- No key is down. -/
def start (kbd : Kbd) : CadetRun port :=
  ⟨⟨0, kbd, []⟩, [], ⟨fun _ => false, fun _ => false, []⟩, none⟩

/-- What the map has for a key that is not passed as a bucky key. -/
def translation (maps : KbdMaps) (key : HostKey port) (keysym : ℕ) : Option (Word × CadetIx) :=
  if key.bi = none then
    (maps.kbdMap keysym).bind fun lmchar =>
      if 0o377 < lmchar then none else some (cadetKbdMap lmchar)
  else none

/-- A call of `cadet_process_key`, with these keys down behind it. -/
def call (maps : KbdMaps) (s : CadetRun port) (held : List (HostKey port)) (key : HostKey port)
    (keysym : ℕ) (keydown : Bool) : CadetRun port :=
  let cadet := Cadet.processKey maps keysym key.bi keydown (HostKey.allupKey maps held)
    { s.cadet with emitted := [] }
  { cadet := cadet
    held := held
    guest := cadet.emitted.foldl Guest.receive { s.guest with typed := [] }
    wanted := if keydown then translation maps key keysym else none }

/-- The keys that are down behind an event. -/
def heldAfter (s : CadetRun port) : HostEvent port → List (HostKey port)
  | .press key _ => key :: s.held
  | .release key _ => s.held.filter (· ≠ key)

/-- One event, as a step of a run. -/
def step (maps : KbdMaps) (e : HostEvent port) (s : CadetRun port) :
    Except Empty (CadetRun port) :=
  match e with
  | .press key keysym => .ok (s.call maps (s.heldAfter e) key keysym true)
  | .release key keysym => .ok (s.call maps (s.heldAfter e) key keysym false)

/-- The machine sees the modifiers that the user holds, and saw the last character with the shift
that it needs and the other modifiers of the user. -/
structure Preserves (maps : KbdMaps) (s : CadetRun port) : Prop where
  held : ∀ m, s.guest.holds m = userHolds maps s.held m
  typed : ∀ scc ix, s.wanted = some (scc, ix) →
    s.guest.typed = [(scc, ix.among (userHolds maps s.held))]

/-- The user holds none of control, meta, super and hyper. -/
def NoBucky (maps : KbdMaps) (held : List (HostKey port)) : Prop :=
  ∀ m : LispModifier, m.ix = none → userHolds maps held m = false

/-- What keeps an event from disturbing the modifiers.

A Greek key, and for SDL2 the lock, is pressed only while its modifier is held. A character is
pressed with the shift that it needs and no other one, or else, if `cadet_process_key` finds
its shift missing, with no control, meta, super or hyper held. Where a release is no all-up
event, a bucky key is none whose modifier is held by another key (and Greek does not
change), and a character whose shift is missing is released with none of those held. -/
def KeepsModifiers (maps : KbdMaps) (e : HostEvent port) (s : CadetRun port) : Prop :=
  match e with
  | .press key keysym =>
    (∀ m : LispModifier, key.modifier maps = some m.bucky → m = .greek ∨ key.bi = none →
      userHolds maps s.held m) ∧
    ∀ scc ix, translation maps key keysym = some (scc, ix) →
      if s.cadet.shiftsCorrect ix then
        ∀ m : LispModifier, m.ix.isSome → userHolds maps s.held m = decide (m.ix = some ix)
      else NoBucky maps s.held
  | .release key keysym =>
    port = .x11 → (s.heldAfter e).any HostKey.isOrdinary →
      (∀ m : LispModifier, key.modifier maps = some m.bucky →
        if m = .greek then userHolds maps (s.heldAfter e) m = userHolds maps s.held m
        else userHolds maps (s.heldAfter e) m = false) ∧
      ∀ scc ix, translation maps key keysym = some (scc, ix) →
        s.cadet.shiftsCorrect ix ∨ NoBucky maps s.held

end CadetRun

/-! ### Codes -/

namespace Guest

variable {g : Guest}

/-- The code of a modifier goes down or up. -/
theorem receive_modifier (g : Guest) (m : LispModifier) (down : Bool) :
    g.receive (Kbd.eventCode (m.code false) down) =
      { g with left := Function.update g.left m down } := by
  cases m <;> cases down <;> rfl

/-- What the code for a bucky key does to the modifiers. Greek has none. -/
theorem receive_bucky (g : Guest) (b : Bucky) (down : Bool) :
    (g.receive (Kbd.eventCode (cadetModifierMap b) down)).left =
        (fun m => if m.bucky = b ∧ m ≠ .greek then down else g.left m) ∧
      (g.receive (Kbd.eventCode (cadetModifierMap b) down)).right = g.right := by
  cases b <;> cases down <;> refine ⟨?_, rfl⟩ <;> funext m <;> cases m <;> rfl

/-- All keys go up but those of the mask. -/
theorem receive_allup (g : Guest) (mods : Word) :
    g.receive (0o100000 ||| (mods &&& 0o1777)) =
      { g with left := fun m => mods.getLsbD m.allupBit, right := fun _ => false } := by
  have hflag : (0o100000 ||| (mods &&& 0o1777)).getLsbD 15 = true := by
    rw [BitVec.getLsbD_or]
    rfl
  have hbits (m : LispModifier) :
      (0o100000 ||| (mods &&& 0o1777)).getLsbD m.allupBit = mods.getLsbD m.allupBit := by
    rw [BitVec.getLsbD_or, BitVec.getLsbD_and]
    cases m <;> simp [LispModifier.allupBit]
  unfold receive
  rw [if_pos hflag]
  simp only [hbits]

/-- A code of a key that is no modifier and no lock. -/
def IsCharacter (key : Word) : Prop :=
  (∀ down, (Kbd.eventCode key down).getLsbD 15 = false ∧
    (Kbd.eventCode key down).getLsbD 8 = !down ∧ Kbd.eventCode key down &&& 0o377 = key) ∧
  LispModifier.ofCode key = none ∧ isLock key = false

instance (key : Word) : Decidable (IsCharacter key) := by
  unfold IsCharacter
  infer_instance

/-- The table has codes of characters only, and 0. -/
theorem isCharacter_cadetKbdMap (lmchar : ℕ) : IsCharacter (cadetKbdMap lmchar).1 := by
  have htable : ∀ p ∈ cadetDefs, IsCharacter p.2.1 := by decide +kernel
  unfold cadetKbdMap
  cases hfind : cadetDefs.reverse.find? fun p => p.1 = lmchar with
  | none => exact (by decide : IsCharacter 0)
  | some p => exact htable p (List.mem_reverse.mp (List.mem_of_find?_eq_some hfind))

/-- A character is seen when its key goes down. -/
theorem receive_character {key : Word} (h : IsCharacter key) (g : Guest) (down : Bool) :
    g.receive (Kbd.eventCode key down) =
      if down then { g with typed := g.typed ++ [(key, g.holds)] } else g := by
  obtain ⟨hcode, hmodifier, hlock⟩ := h
  obtain ⟨hflag, hdown, hkey⟩ := hcode down
  unfold receive
  rw [hflag, hdown, hkey]
  simp only [Bool.false_eq_true, if_false, hmodifier, hlock, Bool.not_not, Bool.not_false,
    Bool.and_true]

/-- Codes that are received one after the other. -/
def receiveAll (g : Guest) (codes : List Word) : Guest := codes.foldl receive g

@[simp] theorem receiveAll_nil (g : Guest) : g.receiveAll [] = g := rfl

@[simp] theorem receiveAll_cons (g : Guest) (v : Word) (codes : List Word) :
    g.receiveAll (v :: codes) = (g.receive v).receiveAll codes := rfl

@[simp] theorem receiveAll_append (g : Guest) (codes codes' : List Word) :
    g.receiveAll (codes ++ codes') = (g.receiveAll codes).receiveAll codes' :=
  List.foldl_append

/-- The shift for a character goes down or up. -/
theorem receive_shkey (g : Guest) (ix : CadetIx) (down : Bool) :
    g.receiveAll ((Cadet.shkey ix).toList.map fun key => Kbd.eventCode key down) =
      { g with left := fun m => if m.ix = some ix then down else g.left m } := by
  cases ix with
  | unshift =>
    have hnone (m : LispModifier) : m.ix ≠ some .unshift := by cases m <;> decide
    simp only [hnone, if_false]
    rfl
  | shift =>
    refine (receive_modifier g .shift down).trans ?_
    congr 1
    funext m
    cases m <;> rfl
  | top =>
    refine (receive_modifier g .top down).trans ?_
    congr 1
    funext m
    cases m <;> rfl
  | greek =>
    refine (receive_modifier g .greek down).trans ?_
    congr 1
    funext m
    cases m <;> rfl

/-- A modifier is pressed again if the condition holds. -/
theorem receive_again (g : Guest) (m : LispModifier) (p : Bool) :
    g.receiveAll (if p then [Kbd.eventCode (m.code false) true] else []) =
      { g with left := fun m' => if m' = m then p || g.left m else g.left m' } := by
  cases p with
  | true =>
    refine (receive_modifier g m true).trans ?_
    congr 1
    funext m'
    simp only [Function.update_apply, Bool.true_or]
  | false =>
    have hleft : (fun m' => if m' = m then false || g.left m else g.left m') = g.left := by
      funext m'
      split
      next h => rw [Bool.false_or, h]
      next => rfl
    rw [hleft]
    rfl

end Guest

/-! ### All keys up -/

namespace HostKey

variable {port : CadetPort}

/-- One more key in the mask. -/
theorem pressBucky_mods (bucky : Option Bucky) (p : Word × Word) (m : LispModifier) :
    (Cadet.pressBucky bucky p).1.getLsbD m.allupBit =
      (p.1.getLsbD m.allupBit || decide (bucky = some m.bucky)) := by
  cases bucky with
  | none => simp [Cadet.pressBucky]
  | some b =>
    cases b <;> cases m <;>
      simp [Cadet.pressBucky, LispModifier.allupBit, LispModifier.bucky]

/-- One more key in the shifts. -/
theorem pressBucky_shifts (bucky : Option Bucky) (p : Word × Word) {m : LispModifier} {ix : CadetIx}
    (h : m.ix = some ix) :
    (Cadet.pressBucky bucky p).2.getLsbD ix.toNat =
      (p.2.getLsbD ix.toNat || decide (bucky = some m.bucky)) := by
  cases bucky with
  | none => simp [Cadet.pressBucky]
  | some b =>
    cases b <;> cases m <;> cases h <;>
      simp [Cadet.pressBucky, Cadet.shiftBit, CadetIx.toNat, LispModifier.bucky]

/-- The mask and the shifts are those of the modifiers that are held. -/
theorem pressed_eq (maps : KbdMaps) (held : List (HostKey port)) (m : LispModifier) :
    (pressed maps held).1.getLsbD m.allupBit = userHolds maps held m ∧
      ∀ ix, m.ix = some ix → (pressed maps held).2.getLsbD ix.toNat = userHolds maps held m := by
  have hfold (p : Word × Word) :
      (held.foldl (fun p key => Cadet.pressBucky (key.modifier maps) p) p).1.getLsbD m.allupBit =
          (p.1.getLsbD m.allupBit || userHolds maps held m) ∧
        ∀ ix, m.ix = some ix →
          (held.foldl (fun p key => Cadet.pressBucky (key.modifier maps) p) p).2.getLsbD ix.toNat =
            (p.2.getLsbD ix.toNat || userHolds maps held m) := by
    induction held generalizing p with
    | nil => simp [userHolds]
    | cons key held ih =>
      obtain ⟨hmods, hshifts⟩ := ih (Cadet.pressBucky (key.modifier maps) p)
      rw [List.foldl_cons]
      constructor
      · rw [hmods, pressBucky_mods, userHolds, userHolds, List.any_cons, Bool.or_assoc]
      · intro ix hix
        rw [hshifts ix hix, pressBucky_shifts _ _ hix, userHolds, userHolds, List.any_cons,
          Bool.or_assoc]
  obtain ⟨hmods, hshifts⟩ := hfold (0, 0)
  unfold pressed
  constructor
  · rw [hmods]
    simp
  · intro ix hix
    rw [hshifts ix hix]
    simp

end HostKey

/-! ### The messy case -/

namespace Cadet

theorem queueIf_emitted (p : Bool) (ev : Word) (c : Cadet) :
    (queueIf p ev c).emitted = c.emitted ++ if p then [ev] else [] := by
  cases p with
  | true => rfl
  | false => exact (List.append_nil _).symm

/-- The codes of the messy case. -/
def messyCodes (shifts scc : Word) (wantshift : CadetIx) (keydown : Bool) : List Word :=
  [0o100000 ||| (0 &&& 0o1777)] ++
    (shkey wantshift).toList.map (fun key => Kbd.eventCode key true) ++
    [Kbd.eventCode scc keydown] ++
    (shkey wantshift).toList.map (fun key => Kbd.eventCode key false) ++
    (if shifts.getLsbD 2 then [Kbd.eventCode (LispModifier.top.code false) true] else []) ++
    (if shifts.getLsbD 1 then [Kbd.eventCode (LispModifier.shift.code false) true] else []) ++
    if shifts.getLsbD 3 then [Kbd.eventCode (LispModifier.greek.code false) true] else []

theorem processMessy_emitted (c : Cadet) (scc : Word) (wantshift : CadetIx) (keydown : Bool) :
    (c.processMessy scc wantshift keydown).emitted =
      c.emitted ++ messyCodes c.shifts scc wantshift keydown := by
  have hcode : (scc ||| if keydown then 0 else 0o400) = Kbd.eventCode scc keydown :=
    BitVec.or_comm _ _
  have hdown : (if (shkey wantshift).isSome then [(shkey wantshift).getD 0] else []) =
      (shkey wantshift).toList.map fun key => Kbd.eventCode key true := by
    cases wantshift <;> rfl
  have hup : (if (shkey wantshift).isSome then [(shkey wantshift).getD 0 ||| 0o400] else []) =
      (shkey wantshift).toList.map fun key => Kbd.eventCode key false := by
    cases wantshift <;> rfl
  unfold processMessy
  simp only [queueIf_emitted, kbdQueueKeyEvent, queueAllKeysUp, hcode, hdown, hup, messyCodes,
    List.append_assoc]
  rfl

/-- What is seen of the messy case. Of the modifiers only the shifts stay down. -/
theorem receive_messyCodes {scc : Word} (hscc : Guest.IsCharacter scc) (g : Guest) (shifts : Word)
    (wantshift : CadetIx) (keydown : Bool) :
    g.receiveAll (messyCodes shifts scc wantshift keydown) =
      { left := fun m => m.ix.any fun ix => shifts.getLsbD ix.toNat
        right := fun _ => false
        typed := g.typed ++
          if keydown then [(scc, fun m => decide (m.ix = some wantshift))] else [] } := by
  have hallup (m : LispModifier) : (0 : Word).getLsbD m.allupBit = false := BitVec.getLsbD_zero
  have hclear : (fun m : LispModifier => if m.ix = some wantshift then false
      else if m.ix = some wantshift then true else false) = fun _ => false := by
    funext m
    split <;> rfl
  have hholds : Guest.holds
      ⟨fun m => if m.ix = some wantshift then true else false, fun _ => false, g.typed⟩ =
        fun m => decide (m.ix = some wantshift) := by
    funext m
    change ((if m.ix = some wantshift then true else false) || false) = _
    rw [Bool.or_false]
    split
    next h => exact (decide_eq_true h).symm
    next h => exact (decide_eq_false h).symm
  have hshifts : (fun m' : LispModifier => if m' = .greek then shifts.getLsbD 3 || false
      else if m' = .shift then shifts.getLsbD 1 || false
      else if m' = .top then shifts.getLsbD 2 || false else false) =
        fun m => m.ix.any fun ix => shifts.getLsbD ix.toNat := by
    funext m
    cases m <;> simp [LispModifier.ix, CadetIx.toNat]
  unfold messyCodes
  cases keydown with
  | true =>
    simp only [Guest.receiveAll_append, Guest.receiveAll_cons, Guest.receiveAll_nil,
      Guest.receive_allup, hallup, Guest.receive_shkey, Guest.receive_character hscc, if_true]
    rw [hclear, hholds]
    simp only [Guest.receive_again, reduceCtorEq, if_false, hshifts]
  | false =>
    simp only [Guest.receiveAll_append, Guest.receiveAll_cons, Guest.receiveAll_nil,
      Guest.receive_allup, hallup, Guest.receive_shkey, Guest.receive_character hscc,
      Bool.false_eq_true, if_false]
    rw [hclear]
    simp only [Guest.receive_again, reduceCtorEq, if_false, hshifts, List.append_nil]

end Cadet

/-! ### Calls -/

namespace CadetRun

variable {port : CadetPort} {maps : KbdMaps} {s : CadetRun port} {held : List (HostKey port)}
  {key : HostKey port} {keysym : ℕ} {keydown : Bool}

/-- The shifts are those that are down for the machine, on the left. -/
structure InStep (s : CadetRun port) : Prop where
  shifts : ∀ m ix, m.ix = some ix → s.guest.left m = s.cadet.shifts.getLsbD ix.toNat
  right : ∀ m, s.guest.right m = false

/-- What a call leads to: the modifiers that are down, and what was seen. -/
structure LeadsTo (s' : CadetRun port) (left : LispModifier → Bool)
    (typed : List (Word × (LispModifier → Bool))) : Prop extends InStep s' where
  left : s'.guest.left = left
  typed : s'.guest.typed = typed

/-- The call is an all-up event. -/
def IsAllup (held : List (HostKey port)) (keydown : Bool) : Prop :=
  keydown = false ∧ (port = .x11 → ¬held.any HostKey.isOrdinary)

/-- An all-up event says what is held. -/
theorem call_allup (maps : KbdMaps) (s : CadetRun port) (key : HostKey port) (keysym : ℕ)
    (h : IsAllup held keydown) :
    LeadsTo (s.call maps held key keysym keydown) (userHolds maps held) [] := by
  obtain ⟨rfl, hordinary⟩ := h
  have hallup : (decide (port = .sdl2) || !held.any HostKey.isOrdinary) = true := by
    cases port with
    | x11 => simpa using hordinary rfl
    | sdl2 => rfl
  have hkey : Cadet.processKey maps keysym key.bi false (HostKey.allupKey maps held)
      { s.cadet with emitted := [] } =
        ({ s.cadet with
          emitted := []
          shifts := (HostKey.pressed maps held).2 } : Cadet).allupEvent
            (HostKey.pressed maps held).1 := by
    unfold Cadet.processKey HostKey.allupKey
    simp only [hallup, if_true, Bool.false_eq_true, if_false]
  have hguest : (s.call maps held key keysym false).guest =
      { s.guest with
        left := userHolds maps held, right := fun _ => false, typed := [] } := by
    unfold call
    rw [hkey]
    change Guest.receive _ _ = _
    rw [Guest.receive_allup]
    simp only [(HostKey.pressed_eq maps held _).1]
  have hshifts : (s.call maps held key keysym false).cadet.shifts =
      (HostKey.pressed maps held).2 := by
    unfold call
    rw [hkey]
    rfl
  refine ⟨⟨fun m ix hix => ?_, fun m => ?_⟩, ?_, ?_⟩
  · rw [hguest, hshifts, (HostKey.pressed_eq maps held m).2 ix hix]
  · rw [hguest]
  · rw [hguest]
  · rw [hguest]

/-- The callback does nothing. -/
theorem allupKey_eq (h : ¬IsAllup held keydown) (c : Cadet) :
    (if keydown then (false, c) else HostKey.allupKey maps held c) = (false, c) := by
  cases keydown with
  | true => rfl
  | false =>
    have hno : ¬(port = .x11 → ¬held.any HostKey.isOrdinary) := fun hx => h ⟨rfl, hx⟩
    simp only [Classical.not_imp, not_not] at hno
    obtain ⟨rfl, hordinary⟩ := hno
    rw [if_neg Bool.false_ne_true, HostKey.allupKey, hordinary]
    rfl

/-- The shift of a bucky key, if it is one, goes down or up. Greek has no code. -/
theorem processShift_shifts (c : Cadet) (b : Bucky) (keydown : Bool) {m : LispModifier}
    {ix : CadetIx} (h : m.ix = some ix) :
    (c.processShift (cadetModifierMap b) keydown).shifts.getLsbD ix.toNat =
      if m.bucky = b ∧ m ≠ .greek then keydown else c.shifts.getLsbD ix.toNat := by
  cases b <;> cases keydown <;> cases m <;> cases h <;>
    simp [Cadet.processShift, cadetModifierMap, Cadet.shiftBit, CadetIx.toNat, LispModifier.bucky]

/-- No code is given to the keyboard. -/
theorem processShift_emitted (c : Cadet) (scc : Word) (keydown : Bool) :
    (c.processShift scc keydown).emitted = c.emitted := by
  unfold Cadet.processShift
  dsimp only
  split <;> rfl

/-- A bucky key goes down or up. -/
theorem call_bucky (keysym : ℕ) (hs : s.InStep) (h : ¬IsAllup held keydown) {bi : Fin 8}
    (hbi : key.bi = some bi) :
    ∃ typed, LeadsTo (s.call maps held key keysym keydown)
      (fun m => if maps.modifierMap bi = some m.bucky ∧ m ≠ .greek then keydown else s.guest.left m)
      typed := by
  cases hb : maps.modifierMap bi with
  | none =>
    have hkey : Cadet.processKey maps keysym key.bi keydown (HostKey.allupKey maps held)
        { s.cadet with emitted := [] } = { s.cadet with emitted := [] } := by
      unfold Cadet.processKey
      simp only [allupKey_eq h, hbi, hb, Bool.false_eq_true, if_false]
    have hcall : s.call maps held key keysym keydown =
        { cadet := { s.cadet with emitted := [] }, held := held
          guest := { s.guest with typed := [] }
          wanted := if keydown then translation maps key keysym else none } := by
      unfold call
      rw [hkey]
      rfl
    refine ⟨[], ?_⟩
    rw [hcall]
    refine ⟨⟨hs.shifts, hs.right⟩, ?_, rfl⟩
    funext m
    exact (if_neg fun hno => nomatch hno.1).symm
  | some b =>
    have hkey : Cadet.processKey maps keysym key.bi keydown (HostKey.allupKey maps held)
        { s.cadet with emitted := [] } =
          (Cadet.processShift { s.cadet with emitted := [] } (cadetModifierMap b)
            keydown).kbdEvent (cadetModifierMap b) keydown := by
      unfold Cadet.processKey
      simp only [allupKey_eq h, hbi, hb, Bool.false_eq_true, if_false]
    have hemitted : (s.call maps held key keysym keydown).guest =
        Guest.receive { s.guest with typed := [] }
          (Kbd.eventCode (cadetModifierMap b) keydown) := by
      unfold call
      rw [hkey, Cadet.kbdEvent, processShift_emitted]
      rfl
    have hshifts : (s.call maps held key keysym keydown).cadet.shifts =
        (Cadet.processShift { s.cadet with emitted := [] } (cadetModifierMap b)
          keydown).shifts := by
      unfold call
      rw [hkey]
      rfl
    obtain ⟨hleft, hright⟩ :=
      Guest.receive_bucky { s.guest with typed := [] } b keydown
    refine ⟨_, ⟨⟨fun m ix hix => ?_, fun m => ?_⟩, ?_, rfl⟩⟩
    · rw [hemitted, hshifts, hleft, processShift_shifts _ _ _ hix]
      simp only [hs.shifts m ix hix]
    · rw [hemitted, hright]
      exact hs.right m
    · rw [hemitted, hleft]
      funext m
      simp only [Option.some.injEq, @eq_comm _ b]

/-- A key that is no character is passed over. -/
theorem call_other (hs : s.InStep) (h : ¬IsAllup held keydown) (hbi : key.bi = none)
    (htranslation : translation maps key keysym = none) :
    LeadsTo (s.call maps held key keysym keydown) s.guest.left [] := by
  have hkey : Cadet.processKey maps keysym key.bi keydown (HostKey.allupKey maps held)
      { s.cadet with emitted := [] } = { s.cadet with emitted := [] } := by
    unfold Cadet.processKey
    simp only [allupKey_eq h, hbi, Bool.false_eq_true, if_false]
    rw [translation, if_pos hbi] at htranslation
    cases hmap : maps.kbdMap keysym with
    | none => rfl
    | some lmchar =>
      rw [hmap, Option.bind_some] at htranslation
      split at htranslation
      next hlarge => exact if_pos hlarge
      next => cases htranslation
  have hcall : s.call maps held key keysym keydown =
      { cadet := { s.cadet with emitted := [] }, held := held
        guest := { s.guest with typed := [] }
        wanted := if keydown then translation maps key keysym else none } := by
    unfold call
    rw [hkey]
    rfl
  rw [hcall]
  exact ⟨⟨hs.shifts, hs.right⟩, rfl, rfl⟩

/-- A character is translated. -/
theorem processKey_character (h : ¬IsAllup held keydown) {scc : Word} {ix : CadetIx}
    (htranslation : translation maps key keysym = some (scc, ix)) (c : Cadet) :
    Guest.IsCharacter scc ∧
      Cadet.processKey maps keysym key.bi keydown (HostKey.allupKey maps held) c =
        if c.shiftsCorrect ix then c.kbdEvent scc keydown
        else c.processMessy scc ix keydown := by
  unfold translation at htranslation
  split at htranslation
  next hbi =>
    obtain ⟨lmchar, hmap, hchar⟩ := Option.bind_eq_some_iff.mp htranslation
    split at hchar
    next => cases hchar
    next hsmall =>
      have hchar : cadetKbdMap lmchar = (scc, ix) := Option.some.inj hchar
      constructor
      · have hcharacter := Guest.isCharacter_cadetKbdMap lmchar
        rwa [hchar] at hcharacter
      · unfold Cadet.processKey
        simp only [allupKey_eq h, hbi, hmap, if_neg hsmall, hchar, Bool.false_eq_true, if_false]
  next => cases htranslation

/-- A character whose shift is found is passed as it is. -/
theorem call_direct (hs : s.InStep) (h : ¬IsAllup held keydown) {scc : Word} {ix : CadetIx}
    (htranslation : translation maps key keysym = some (scc, ix))
    (hcorrect : s.cadet.shiftsCorrect ix) :
    LeadsTo (s.call maps held key keysym keydown) s.guest.left
      (if keydown then [(scc, s.guest.holds)] else []) := by
  obtain ⟨hscc, hkey⟩ := processKey_character h htranslation { s.cadet with emitted := [] }
  have hkey := hkey.trans (if_pos hcorrect)
  have hguest : (s.call maps held key keysym keydown).guest =
      { s.guest with typed := if keydown then [(scc, s.guest.holds)] else [] } := by
    unfold call
    rw [hkey]
    change Guest.receive _ _ = _
    rw [Guest.receive_character hscc]
    cases keydown <;> rfl
  have hshifts : (s.call maps held key keysym keydown).cadet.shifts = s.cadet.shifts := by
    unfold call
    rw [hkey]
    rfl
  constructor
  · constructor
    · intro m ix hix
      rw [hguest, hshifts]
      exact hs.shifts m ix hix
    · intro m
      rw [hguest]
      exact hs.right m
  · rw [hguest]
  · rw [hguest]

/-- A character whose shift is missing costs control, meta, super and hyper. -/
theorem call_messy (hs : s.InStep) (h : ¬IsAllup held keydown) {scc : Word} {ix : CadetIx}
    (htranslation : translation maps key keysym = some (scc, ix))
    (hcorrect : ¬s.cadet.shiftsCorrect ix) :
    LeadsTo (s.call maps held key keysym keydown) (fun m => m.ix.isSome && s.guest.left m)
      (if keydown then [(scc, fun m => decide (m.ix = some ix))] else []) := by
  obtain ⟨hscc, hkey⟩ := processKey_character h htranslation { s.cadet with emitted := [] }
  have hkey := hkey.trans (if_neg hcorrect)
  have hleft : (fun m : LispModifier => m.ix.any fun ix => s.cadet.shifts.getLsbD ix.toNat) =
      fun m => m.ix.isSome && s.guest.left m := by
    funext m
    cases hix : m.ix with
    | none => rfl
    | some ix =>
      rw [hs.shifts m ix hix]
      rfl
  have hguest : (s.call maps held key keysym keydown).guest =
      { left := fun m => m.ix.isSome && s.guest.left m
        right := fun _ => false
        typed := if keydown then [(scc, fun m => decide (m.ix = some ix))] else [] } := by
    unfold call
    rw [hkey]
    change Guest.receiveAll _ (Cadet.processMessy _ _ _ _).emitted = _
    rw [Cadet.processMessy_emitted, List.nil_append, Cadet.receive_messyCodes hscc, hleft,
      List.nil_append]
  have hshifts : (s.call maps held key keysym keydown).cadet.shifts = s.cadet.shifts := by
    unfold call
    rw [hkey]
    rfl
  constructor
  · constructor
    · intro m ix hix
      rw [hguest, hshifts, ← hs.shifts m ix hix]
      change (m.ix.isSome && _) = _
      rw [hix]
      rfl
    · intro m
      rw [hguest]
  · rw [hguest]
  · rw [hguest]

/-! ### Steps -/

/-- The modifiers behind a call. -/
theorem LeadsTo.preserves_iff {s' : CadetRun port} {left : LispModifier → Bool}
    {typed : List (Word × (LispModifier → Bool))} (h : LeadsTo s' left typed) :
    s'.Preserves maps ↔ (∀ m, left m = userHolds maps s'.held m) ∧
      ∀ scc ix, s'.wanted = some (scc, ix) →
        typed = [(scc, ix.among (userHolds maps s'.held))] := by
  have hholds (m : LispModifier) : s'.guest.holds m = left m := by
    rw [Guest.holds, h.right, Bool.or_false, h.left]
  constructor
  · rintro ⟨hheld, htyped⟩
    constructor
    · intro m
      rw [← hholds]
      exact hheld m
    · rw [← h.typed]
      exact htyped
  · rintro ⟨hheld, htyped⟩
    constructor
    · intro m
      rw [hholds]
      exact hheld m
    · rw [h.typed]
      exact htyped

theorem userHolds_cons (key : HostKey port) (held : List (HostKey port)) (m : LispModifier) :
    userHolds maps (key :: held) m =
      (decide (key.modifier maps = some m.bucky) || userHolds maps held m) :=
  List.any_cons

/-- Another key is released. -/
theorem userHolds_filter {m : LispModifier} (h : key.modifier maps ≠ some m.bucky)
    (held : List (HostKey port)) :
    userHolds maps (held.filter (· ≠ key)) m = userHolds maps held m := by
  unfold userHolds
  rw [List.any_filter]
  congr 1
  funext key'
  by_cases hkey : key' = key
  · rw [hkey, decide_eq_false h, Bool.and_false]
  · rw [decide_eq_true hkey, Bool.true_and]

/-- A key that is a bucky key for the ports, with what it is to the machine. -/
theorem modifier_of_bi {bi : Fin 8} (h : key.bi = some bi) :
    key.modifier maps = maps.modifierMap bi := by
  cases key with
  | bucky bi' hbi right =>
    rw [HostKey.bi] at h
    split at h
    next => cases h
    next =>
      cases h
      rfl
  | ordinary keycode => cases h

/-- No character. -/
theorem translation_of_bi {bi : Fin 8} (h : key.bi = some bi) :
    translation maps key keysym = none := by
  rw [translation, if_neg]
  rw [h]
  exact Option.some_ne_none bi

/-- The modifiers that are down for the machine are those of the user. -/
theorem Preserves.left (hp : s.Preserves maps) (hs : s.InStep) (m : LispModifier) :
    s.guest.left m = userHolds maps s.held m := by
  rw [← hp.held m, Guest.holds, hs.right, Bool.or_false]

/-- The condition for the character that is wanted. -/
theorem forall_wanted {p : Word → CadetIx → Prop} {scc : Word} {ix : CadetIx} :
    (∀ scc' ix', some (scc, ix) = some (scc', ix') → p scc' ix') ↔ p scc ix := by
  constructor
  · exact fun h => h scc ix rfl
  · rintro h _ _ ⟨⟩
    exact h

/-- A press keeps the modifiers if and only if the condition holds. -/
theorem press_preserves (hs : s.InStep) (hp : s.Preserves maps) (key : HostKey port)
    (keysym : ℕ) :
    (s.call maps (key :: s.held) key keysym true).InStep ∧
      ((s.call maps (key :: s.held) key keysym true).Preserves maps ↔
        KeepsModifiers maps (.press key keysym) s) := by
  have hallup : ¬IsAllup (key :: s.held) true := fun h => Bool.noConfusion h.1
  have hleft := hp.left hs
  have hwanted : (s.call maps (key :: s.held) key keysym true).wanted =
      translation maps key keysym := rfl
  have hheld : (s.call maps (key :: s.held) key keysym true).held = key :: s.held := rfl
  have hheld' (m : LispModifier) :
      userHolds maps s.held m = userHolds maps (key :: s.held) m ↔
        (key.modifier maps = some m.bucky → userHolds maps s.held m) := by
    rw [userHolds_cons, Bool.eq_or_self, decide_eq_true_eq]
  cases hbi : key.bi with
  | some bi =>
    obtain ⟨typed, h⟩ := call_bucky keysym hs hallup hbi
    refine ⟨h.toInStep, ?_⟩
    rw [h.preserves_iff, hwanted, hheld, translation_of_bi hbi, KeepsModifiers,
      translation_of_bi hbi, modifier_of_bi hbi, hbi]
    simp only [userHolds_cons, modifier_of_bi hbi, hleft]
    constructor
    · rintro ⟨hkeep, -⟩
      constructor
      · rintro m hm (hgreek | hnone)
        · have hm' := hkeep m
          rw [if_neg fun h => h.2 hgreek, decide_eq_true hm] at hm'
          exact hm'
        · cases hnone
      · exact fun _ _ h => nomatch h
    · rintro ⟨hkeep, -⟩
      constructor
      · intro m
        by_cases hm : maps.modifierMap bi = some m.bucky
        · by_cases hgreek : m = .greek
          · rw [if_neg fun h => h.2 hgreek, hkeep m hm (.inl hgreek), Bool.or_true]
          · rw [if_pos ⟨hm, hgreek⟩, decide_eq_true hm, Bool.true_or]
        · rw [if_neg fun h => hm h.1, decide_eq_false hm, Bool.false_or]
      · exact fun _ _ h => nomatch h
  | none =>
    cases htranslation : translation maps key keysym with
    | none =>
      have h := call_other hs hallup hbi htranslation
      refine ⟨h.toInStep, ?_⟩
      rw [h.preserves_iff, hwanted, hheld, htranslation]
      simp only [KeepsModifiers, hbi, htranslation, userHolds_cons, hleft, or_true, true_imp_iff,
        Bool.eq_or_self, decide_eq_true_eq, reduceCtorEq, false_imp_iff, implies_true, and_true]
    | some p =>
      obtain ⟨scc, ix⟩ := p
      by_cases hcorrect : s.cadet.shiftsCorrect ix
      · have h := call_direct hs hallup htranslation hcorrect
        refine ⟨h.toInStep, ?_⟩
        rw [h.preserves_iff, hwanted, hheld, htranslation]
        simp only [KeepsModifiers, hbi, htranslation, forall_wanted, or_true, true_imp_iff,
          hcorrect, if_true, hheld', hleft]
        refine and_congr_right fun hkeep => ?_
        have husers : userHolds maps (key :: s.held) = userHolds maps s.held :=
          funext fun m => ((hheld' m).mpr (hkeep m)).symm
        rw [husers, List.cons.injEq, Prod.mk.injEq, and_iff_left rfl, and_iff_right rfl]
        constructor
        · intro hseen m hm
          have hm' := congrFun hseen m
          rw [hp.held m, CadetIx.among, if_pos hm] at hm'
          exact hm'
        · intro hshifts
          funext m
          rw [hp.held m, CadetIx.among]
          split
          next hm => exact hshifts m hm
          next => rfl
      · have h := call_messy hs hallup htranslation hcorrect
        refine ⟨h.toInStep, ?_⟩
        rw [h.preserves_iff, hwanted, hheld, htranslation]
        simp only [KeepsModifiers, hbi, htranslation, forall_wanted, or_true, true_imp_iff,
          hcorrect, Bool.false_eq_true, if_true, if_false, hleft]
        constructor
        · rintro ⟨hkeep, -⟩
          have hnone (m : LispModifier) (hm : m.ix = none) :
              userHolds maps (key :: s.held) m = false := by
            rw [← hkeep m, hm]
            rfl
          constructor
          · intro m hm
            cases hix : m.ix with
            | none =>
              have hm' := hnone m hix
              rw [userHolds_cons, decide_eq_true hm, Bool.true_or] at hm'
              cases hm'
            | some ix' =>
              rw [← Bool.true_and (userHolds maps s.held m)]
              have hm' := hkeep m
              rw [hix] at hm'
              exact hm'.trans (by rw [userHolds_cons, decide_eq_true hm, Bool.true_or])
          · intro m hm
            have hm' := hnone m hm
            rw [userHolds_cons, Bool.or_eq_false_iff] at hm'
            exact hm'.2
        · rintro ⟨hkeep, hno⟩
          have husers : userHolds maps (key :: s.held) = userHolds maps s.held :=
            funext fun m => ((hheld' m).mpr (hkeep m)).symm
          rw [husers]
          constructor
          · intro m
            cases hm : m.ix with
            | none => rw [hno m hm, Bool.and_false]
            | some ix' => exact Bool.true_and _
          · congr 2
            funext m
            rw [CadetIx.among]
            cases hm : m.ix with
            | none => exact (hno m hm).symm
            | some ix' => rfl

/-- A release keeps the modifiers if and only if the condition holds. -/
theorem release_preserves (hs : s.InStep) (hp : s.Preserves maps) (key : HostKey port)
    (keysym : ℕ) :
    (s.call maps (s.held.filter (· ≠ key)) key keysym false).InStep ∧
      ((s.call maps (s.held.filter (· ≠ key)) key keysym false).Preserves maps ↔
        KeepsModifiers maps (.release key keysym) s) := by
  have hleft := hp.left hs
  have hwanted : (s.call maps (s.held.filter (· ≠ key)) key keysym false).wanted = none := rfl
  have hheld : (s.call maps (s.held.filter (· ≠ key)) key keysym false).held =
      s.held.filter (· ≠ key) := rfl
  have hafter : s.heldAfter (.release key keysym) = s.held.filter (· ≠ key) := rfl
  have hnone {p : Word → CadetIx → Prop} : ∀ scc ix, none = some (scc, ix) → p scc ix :=
    fun _ _ h => nomatch h
  by_cases hallup : IsAllup (s.held.filter (· ≠ key)) false
  · have h := call_allup maps s key keysym hallup
    refine ⟨h.toInStep, ?_⟩
    rw [h.preserves_iff, hwanted, hheld]
    constructor
    · intro _ hport hordinary
      exact absurd hordinary (hallup.2 hport)
    · intro _
      exact ⟨fun _ => rfl, hnone⟩
  · have hport : port = .x11 ∧ (s.held.filter (· ≠ key)).any HostKey.isOrdinary := by
      by_contra hno
      exact hallup ⟨rfl, fun hx hordinary => hno ⟨hx, hordinary⟩⟩
    rw [KeepsModifiers, hafter]
    simp only [hport.1, hport.2, true_imp_iff]
    cases hbi : key.bi with
    | some bi =>
      obtain ⟨typed, h⟩ := call_bucky keysym hs hallup hbi
      refine ⟨h.toInStep, ?_⟩
      rw [h.preserves_iff, hwanted, hheld, translation_of_bi hbi, and_iff_left hnone,
        and_iff_left hnone]
      refine forall_congr' fun m => ?_
      by_cases hm : maps.modifierMap bi = some m.bucky
      · have hkey : key.modifier maps = some m.bucky := (modifier_of_bi hbi).trans hm
        rw [forall_prop_of_true hkey]
        by_cases hgreek : m = .greek
        · rw [if_neg fun h => h.2 hgreek, if_pos hgreek, hleft]
          exact eq_comm
        · rw [if_pos ⟨hm, hgreek⟩, if_neg hgreek]
          exact eq_comm
      · have hkey : key.modifier maps ≠ some m.bucky := by
          rw [modifier_of_bi hbi]
          exact hm
        rw [if_neg fun h => hm h.1, userHolds_filter hkey, hleft]
        exact iff_of_true rfl fun h => absurd h hkey
    | none =>
      have hordinary (m : LispModifier) : key.modifier maps ≠ some m.bucky := by
        cases key with
        | bucky bi hport' right =>
          obtain ⟨rfl, -⟩ := hport
          cases hbi
        | ordinary keycode => exact fun h => nomatch h
      have husers : userHolds maps (s.held.filter (· ≠ key)) = userHolds maps s.held :=
        funext fun m => userHolds_filter (hordinary m) s.held
      cases htranslation : translation maps key keysym with
      | none =>
        have h := call_other hs hallup hbi htranslation
        refine ⟨h.toInStep, ?_⟩
        rw [h.preserves_iff, hwanted, hheld, husers]
        exact iff_of_true ⟨hleft, hnone⟩ ⟨fun m hm => absurd hm (hordinary m), hnone⟩
      | some p =>
        obtain ⟨scc, ix⟩ := p
        by_cases hcorrect : s.cadet.shiftsCorrect ix
        · have h := call_direct hs hallup htranslation hcorrect
          refine ⟨h.toInStep, ?_⟩
          rw [h.preserves_iff, hwanted, hheld, husers]
          refine iff_of_true ⟨hleft, hnone⟩ ⟨fun m hm => absurd hm (hordinary m), ?_⟩
          exact forall_wanted.mpr (.inl hcorrect)
        · have h := call_messy hs hallup htranslation hcorrect
          refine ⟨h.toInStep, ?_⟩
          rw [h.preserves_iff, hwanted, hheld, husers, and_iff_left hnone, forall_wanted,
            or_iff_right hcorrect, and_iff_right fun m hm => absurd hm (hordinary m)]
          constructor
          · intro hkeep m hm
            rw [← hkeep m, hm]
            rfl
          · intro hno m
            cases hm : m.ix with
            | none => exact (hno m hm).symm
            | some ix' =>
              rw [hleft]
              exact Bool.true_and _

/-- A step keeps the modifiers if and only if the condition holds. -/
theorem step_preserves (hs : s.InStep) (hp : s.Preserves maps) {e : HostEvent port}
    {s' : CadetRun port} (h : step maps e s = .ok s') :
    s'.InStep ∧ (s'.Preserves maps ↔ KeepsModifiers maps e s) := by
  cases e with
  | press key keysym =>
    cases h
    exact press_preserves hs hp key keysym
  | release key keysym =>
    cases h
    exact release_preserves hs hp key keysym

/-- In every run of presses and releases the machine sees, behind every call, the modifiers that
the user holds, and every character with the shift that it needs and with the other
modifiers of the user, if and only if nothing disturbs them. -/
theorem modifiers_preserved (maps : KbdMaps) (kbd : Kbd) (es : List (HostEvent port)) :
    Lib.Always (step maps) (Preserves maps) es (start kbd) ↔
      Lib.EveryStep (step maps) (KeepsModifiers maps) es (start kbd) := by
  apply Lib.always_iff_everyStep (I := fun s => s.InStep ∧ s.Preserves maps)
  · rintro s ⟨-, hp⟩
    exact hp
  · rintro e s s' ⟨hs, hp⟩ he hkeeps
    obtain ⟨hs', hiff⟩ := step_preserves hs hp he
    exact ⟨hs', hiff.mpr hkeeps⟩
  · rintro e s s' ⟨hs, hp⟩ he hp'
    obtain ⟨-, hiff⟩ := step_preserves hs hp he
    exact hiff.mp hp'
  · constructor
    · constructor
      · intro m ix _
        exact BitVec.getLsbD_zero.symm
      · exact fun _ => rfl
    · constructor
      · exact fun _ => rfl
      · exact fun _ _ h => nomatch h

/-- The modifiers of `kbd_default_map`, with the printing characters. -/
def defaultMaps : KbdMaps where
  kbdMap keysym := if 0o40 ≤ keysym ∧ keysym < 0o177 then some keysym else none
  modifierMap bi :=
    match bi with
    | 0 => some .shift
    | 1 => some .shiftLock
    | 2 => some .control
    | 3 => some .«meta»
    | 6 => some .top
    | _ => none

/-- A colon is typed with shift and control. It needs no shift on the other keyboard, and the
machine sees it without control, which is then gone. -/
theorem control_lost :
    ¬Lib.Always (step defaultMaps) (Preserves defaultMaps)
      [.press (.bucky 0 trivial false : HostKey .x11) 0xffe1,
        .press (.bucky 2 trivial false) 0xffe3, .press (.ordinary 47) 0o72]
      (start (Kbd.powerOn ⟨0, false⟩)) := by
  intro h
  have hcolon := (((h.2 _ rfl).2 _ rfl).2 _ rfl).held .control
  exact absurd hcolon (by decide)

end CadetRun

end Usim
