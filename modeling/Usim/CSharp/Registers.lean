import Usim.CSharp.Correspondence

/-!
# The register methods of the port

The micro stack, the memory cycles, and the functional sources and
destinations of `UCode.cs` track those of the C engine.
-/

namespace Usim

open Lib

variable {β : Type} {port : VmPort β} {calm : Engine β → Prop} {s : Engine β} {u : UCode β}

/-- `Vm` with the same bus. -/
theorem tracks_vmCycle (h : Corresponds s u) (write : Bool) (vaddr v : Word) :
    Tracks calm (vmCycle port write vaddr v) (UCode.vm port write vaddr v) s u := by
  obtain ⟨p, hp, hoa, rfl⟩ := h.exists_word
  refine mirrors_get ?_
  refine tracks_fromExcept_bind rfl ?_
  rintro ⟨w, b⟩ _
  refine mirrors_modify_bind ?_
  exact mirrors_pure w ⟨hp, rfl, hoa⟩

/-- `VmRead`. -/
theorem tracks_vmRead (h : Corresponds s u) (vaddr : Word) :
    Tracks calm (vmRead port vaddr) (UCode.vmRead port vaddr) s u :=
  tracks_vmCycle h false vaddr 0

/-- `VmWrite`. -/
theorem tracks_vmWrite (h : Corresponds s u) (vaddr v : Word) :
    Tracks calm (vmWrite port vaddr v) (UCode.vmWrite port vaddr v) s u :=
  mirrors_bind_calm (tracks_vmCycle h true vaddr v) fun _ _ _ h => mirrors_pure () h

/-- The read that a microinstruction starts. -/
theorem tracks_startRead (h : Corresponds s u) (vaddr : Word) :
    Tracks calm (startRead port vaddr) (UCode.readNewMd port vaddr) s u := by
  obtain ⟨p, hp, hoa, rfl⟩ := h.exists_word
  refine tracks_observe ?_
  refine mirrors_bind_calm (tracks_vmRead ?_ vaddr) ?_
  · exact ⟨hp, rfl, hoa⟩
  intro v t w h
  obtain ⟨p, hp, hoa, rfl⟩ := h.exists_word
  exact mirrors_modify ⟨hp, rfl, hoa⟩

/-- `PushSpc`. -/
theorem tracks_pushSPC (h : Corresponds s u) (pc : Word) :
    Tracks calm (pushSPC pc) (UCode.pushSpc pc) s u := by
  obtain ⟨p, hp, hoa, rfl⟩ := h.exists_word
  refine mirrors_modify_bind ?_
  refine mirrors_get ?_
  refine tracks_fromExcept_bind (UCode.setItem_eq .spc _ _ _) fun spc _ => ?_
  refine mirrors_left rfl ?_
  exact mirrors_modify ⟨hp, rfl, hoa⟩

/-- `PopSpc`. -/
theorem tracks_popSPC (h : Corresponds s u) : Tracks calm popSPC UCode.popSpc s u := by
  obtain ⟨p, hp, hoa, rfl⟩ := h.exists_word
  refine mirrors_get ?_
  refine tracks_fromExcept_bind (UCode.item_eq .spc _ _) fun v _ => ?_
  refine mirrors_modify_bind ?_
  refine tracks_observe ?_
  exact mirrors_pure v ⟨hp, rfl, hoa⟩

/-- A flag of MEMORY-MAP-DATA, as `MfRead` writes it. -/
private theorem ite_not_eq (permission : Bool) (x : Word) :
    (if !permission then x else 0#32) = if permission then 0#32 else x := by
  cases permission <;> rfl

/-- `MfRead`. -/
theorem tracks_mfread (h : Corresponds s u) (addr : Word) :
    Tracks calm (mfread addr) (UCode.mfRead addr) s u := by
  obtain ⟨p, hp, hoa, rfl⟩ := h.exists_word
  have hpure (w : Word) : Tracks calm (pure w) (pure w) s (s.mirror p) :=
    mirrors_pure w ⟨hp, rfl, hoa⟩
  have hthrow : Tracks calm (err "unknown MF register (%o) read\n" [addr.toNat])
      (throw (.invalidOperation "unknown MF register (0x%X) read" addr.toNat) : Sharp β Word)
      s (s.mirror p) := mirrors_throw _ _
  refine mirrors_get ?_
  generalize (addr &&& 0o37).toNat = source
  match source with
  | 0 => exact hpure _
  | 1 => exact tracks_fromExcept_bind (UCode.item_eq .spc _ _) fun _ _ => hpure _
  | 2 => exact hpure _
  | 3 => exact hpure _
  | 5 => exact tracks_fromExcept (UCode.item_eq .pdl _ _) h
  | 6 => exact hpure _
  | 7 => exact hpure _
  | 8 => exact hpure _
  | 9 =>
    refine tracks_fromExcept_bind (UCode.vtop_eq _ _) fun t _ => ?_
    rw [ite_not_eq t.writePermission, ite_not_eq t.accessPermission]
    exact hpure _
  | 10 => exact hpure _
  | 11 => exact hpure _
  | 12 =>
    show Tracks calm (popSPC >>= _) _ _ _
    simp only [popSPC, bind_assoc]
    refine mirrors_left rfl ?_
    refine tracks_fromExcept_bind (UCode.item_eq .spc _ _) fun top _ => ?_
    refine mirrors_modify_bind ?_
    refine tracks_observe ?_
    exact mirrors_pure _ ⟨hp, rfl, hoa⟩
  | 13 => exact hpure _
  | 20 =>
    refine tracks_fromExcept_bind (UCode.item_eq .pdl _ _) fun w _ => ?_
    refine mirrors_modify_bind ?_
    exact mirrors_pure w ⟨hp, rfl, hoa⟩
  | 21 => exact tracks_fromExcept (UCode.item_eq .pdl _ _) h
  | 22 => exact hpure _
  | 4 => exact hthrow
  | 14 => exact hthrow
  | 15 => exact hthrow
  | 16 => exact hthrow
  | 17 => exact hthrow
  | 18 => exact hthrow
  | 19 => exact hthrow
  | _ + 23 => exact hthrow

/-- An assignment to `Pdl`. -/
theorem tracks_writePdl (h : Corresponds s u) (i data : Word) :
    Tracks calm (writePdl i data) (UCode.setPdl i data) s u := by
  obtain ⟨p, hp, hoa, rfl⟩ := h.exists_word
  refine mirrors_get ?_
  refine tracks_fromExcept_bind (UCode.setItem_eq .pdl _ _ _) fun pdl _ => ?_
  exact mirrors_modify ⟨hp, rfl, hoa⟩

/-- `Uvmem.WriteMap`. -/
theorem tracks_writeMap (h : Corresponds s u) (vma md : Word) :
    Tracks calm (writeMap vma md) (UCode.setMaps vma md) s u := by
  obtain ⟨p, hp, hoa, rfl⟩ := h.exists_word
  refine mirrors_get ?_
  refine tracks_fromExcept_bind (UCode.writeMap_eq _ _ _) fun maps _ => ?_
  exact mirrors_modify ⟨hp, rfl, hoa⟩

/-- `MfWrite`. -/
theorem tracks_mfwrite (h : Corresponds s u) (dest data : Word) :
    Tracks calm (mfwrite port dest data) (UCode.mfWrite port dest data) s u := by
  obtain ⟨p, hp, hoa, rfl⟩ := h.exists_word
  have hskip : Tracks calm (pure ()) (pure ()) s (s.mirror p) := mirrors_pure () ⟨hp, rfl, hoa⟩
  refine mirrors_get ?_
  generalize (dest >>> 5).toNat = destination
  match destination with
  | 0 => exact hskip
  | 1 =>
    -- The port writes the location counter in three statements.
    refine mirrors_right rfl ?_
    by_cases hmode : s.interruptControl.getLsbD 29 = false
    · refine mirrors_right ((congrFun (if_pos hmode) _).trans rfl) ?_
      refine mirrors_modify ⟨hp, ?_, hoa⟩
      simp only [hmode]
      rfl
    · refine mirrors_right ((congrFun (if_neg hmode) _).trans rfl) ?_
      refine mirrors_modify ⟨hp, ?_, hoa⟩
      simp only [hmode]
      rfl
  | 2 =>
    refine mirrors_modify_bind ?_
    refine mirrors_bind_calm (mirrors_doWhen Iff.rfl (fun _ => mirrors_modify ?_) ?_) ?_
    · exact ⟨hp, rfl, hoa⟩
    · exact ⟨hp, rfl, hoa⟩
    intro _ t w h
    obtain ⟨p, hp, hoa, rfl⟩ := h.exists_word
    exact mirrors_modify ⟨hp, rfl, hoa⟩
  | 8 => exact tracks_writePdl h _ _
  | 9 =>
    refine mirrors_modify_bind ?_
    refine tracks_writePdl ?_ _ _
    exact ⟨hp, rfl, hoa⟩
  | 10 => exact tracks_writePdl h _ _
  | 11 => exact mirrors_modify ⟨hp, rfl, hoa⟩
  | 12 => exact mirrors_modify ⟨hp, rfl, hoa⟩
  | 13 => exact tracks_pushSPC h _
  | 14 => 
    refine mirrors_modify ⟨hp, rfl, ?_⟩
    rw [toNat_and_mask data _ (n := 26) rfl]
    exact Nat.mod_lt _ (by decide)
  | 15 => exact mirrors_modify ⟨hp, rfl, hoa⟩
  | 16 => exact mirrors_modify ⟨hp, rfl, hoa⟩
  | 17 =>
    refine mirrors_modify_bind ?_
    refine tracks_startRead ?_ _
    exact ⟨hp, rfl, hoa⟩
  | 18 =>
    refine mirrors_modify_bind ?_
    refine tracks_vmWrite ?_ _ _
    exact ⟨hp, rfl, hoa⟩
  | 19 =>
    refine mirrors_modify_bind ?_
    refine tracks_writeMap ?_ _ _
    exact ⟨hp, rfl, hoa⟩
  | 24 => exact mirrors_modify ⟨hp, rfl, hoa⟩
  | 25 =>
    refine mirrors_modify_bind ?_
    refine tracks_startRead ?_ _
    exact ⟨hp, rfl, hoa⟩
  | 26 =>
    refine mirrors_modify_bind ?_
    refine tracks_vmWrite ?_ _ _
    exact ⟨hp, rfl, hoa⟩
  | 27 =>
    refine mirrors_modify_bind ?_
    refine tracks_writeMap ?_ _ _
    exact ⟨hp, rfl, hoa⟩
  | 3 => exact hskip
  | 4 => exact hskip
  | 5 => exact hskip
  | 6 => exact hskip
  | 7 => exact hskip
  | 20 => exact hskip
  | 21 => exact hskip
  | 22 => exact hskip
  | 23 => exact hskip
  | _ + 28 => exact hskip

/-- `WriteDest`. -/
theorem tracks_writeDest (h : Corresponds s u) (dest : Word) :
    Tracks calm (writeDest port dest) (UCode.writeDest port dest) s u := by
  refine mirrors_ite Iff.rfl ?_ ?_
  · intro hbit
    obtain ⟨p, hp, hoa, rfl⟩ := h.exists_word
    refine mirrors_get ?_
    by_cases hbound : (dest &&& 0o3777).toNat < 1024
    · have hsame : dest &&& 0o3777 = dest &&& 0x3FF := by
        rw [toNat_and_mask dest _ (n := 11) rfl] at hbound
        apply BitVec.eq_of_toNat_eq
        rw [toNat_and_mask dest _ (n := 11) rfl, toNat_and_mask dest _ (n := 10) rfl]
        omega
      rw [hsame]
      refine tracks_fromExcept_bind (UCode.setItem_eq .amem _ _ _) fun amem _ => ?_
      exact mirrors_modify ⟨hp, rfl, hoa⟩
    · have hfault : assign .amem s.amem (dest &&& 0o3777) s.out =
          .error (.subscript .amem (dest &&& 0o3777).toNat) := dif_neg hbound
      rw [hfault]
      exact mirrors_excused (e := Fault.subscript .amem (dest &&& 0o3777).toNat) trivial _
  · intro hbit
    have hout : s.out = u.out := by rw [h.rest]; rfl
    refine mirrors_get ?_
    rw [hout]
    refine mirrors_bind_calm (tracks_mfwrite h dest u.out) ?_
    intro _ t w h
    obtain ⟨p, hp, hoa, rfl⟩ := h.exists_word
    refine mirrors_get ?_
    refine tracks_fromExcept_bind (UCode.setItem_eq .amem _ _ _) fun amem _ => ?_
    refine tracks_fromExcept_bind (UCode.setItem_eq .mmem _ _ _) fun mmem _ => ?_
    exact mirrors_modify ⟨hp, rfl, hoa⟩

end Usim
