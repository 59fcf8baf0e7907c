import DobieStation.Vif.Model

/-! # What the decoding leaves alone

The words are decoded, unpacked and written without a look at the two FIFOs: they are changed only
where the update takes words from them, and where words come in. -/

namespace DobieStation.Vif.Frame

open DobieStation.Lib.Hoare DobieStation.Lib.Reach DobieStation.Vif.Model
open DobieStation.Dma.Model (Quad)

variable {W : Type} (P : Peripherals W)

/-- The same words are in the FIFOs of the same VIF. -/
structure Beside (s s' : State W) : Prop where
  id : s'.vif.id = s.vif.id
  FIFO : s'.vif.FIFO = s.vif.FIFO
  internalFIFO : s'.vif.internalFIFO = s.vif.internalFIFO

theorem beside_refl (s : State W) : Beside s s := ⟨rfl, rfl, rfl⟩

theorem beside_trans (s s' s'' : State W) (h : Beside s s') (h' : Beside s' s'') : Beside s s'' :=
  ⟨h'.id.trans h.id, h'.FIFO.trans h.FIFO, h'.internalFIFO.trans h.internalFIFO⟩

/-! ### The rules -/

section
variable {α β : Type}

theorem beside_pure (a : α) : Within Beside (pure a : M W α) := within_pure beside_refl a

theorem beside_bind {m : M W α} {f : α → M W β} (hm : Within Beside m)
    (hf : ∀ a, Within Beside (f a)) : Within Beside (m >>= f) := within_bind beside_trans hm hf

theorem beside_get : Within Beside (get : M W (State W)) := within_get beside_refl

theorem beside_vif : Within Beside (vif : M W VectorInterface) :=
  beside_bind beside_get fun _ => beside_pure _

/-- A change of the other fields. -/
theorem beside_modify {f : VectorInterface → VectorInterface}
    (hf : ∀ v, (f v).id = v.id ∧ (f v).FIFO = v.FIFO ∧ (f v).internalFIFO = v.internalFIFO) :
    Within Beside (modifyVIF f : M W Unit) :=
  within_modify fun s => ⟨(hf s.vif).1, (hf s.vif).2.1, (hf s.vif).2.2⟩

theorem beside_unpack (f : Unpack → Unpack) : Within Beside (modifyUnpack f : M W Unit) :=
  beside_modify fun _ => ⟨rfl, rfl, rfl⟩

theorem beside_drive (f : W → W) : Within Beside (drive f : M W Unit) :=
  within_modify fun _ => ⟨rfl, rfl, rfl⟩

theorem beside_ask (f : W → α × W) : Within Beside (ask f : M W α) :=
  beside_bind beside_get fun _ => beside_bind (beside_drive _) fun _ => beside_pure _

theorem beside_needGIF : Within Beside (needGIF : M W Unit) :=
  beside_bind beside_vif fun _ => within_ite (fun _ => beside_pure _) fun _ => within_failure

theorem beside_index4 (n : ℕ) : Within Beside (index4 n : M W (Fin 4)) := by
  unfold index4
  split
  · exact beside_pure _
  · exact within_failure

theorem beside_setCommand (command : BitVec 8) : Within Beside (setCommand command : M W Unit) :=
  beside_modify fun _ => ⟨rfl, rfl, rfl⟩

theorem beside_setStatus (status : Status) : Within Beside (setStatus status : M W Unit) :=
  beside_modify fun _ => ⟨rfl, rfl, rfl⟩

/-- A command without an `else`. -/
theorem beside_when {c : Prop} [Decidable c] {m : M W Unit} (h : Within Beside m) :
    Within Beside (if c then m else pure ()) :=
  within_ite (fun _ => h) fun _ => beside_pure _

end

/-! ### The decoding -/

theorem beside_noteIbit (value : Word) : Within Beside (noteIbit P value) := by
  refine beside_bind beside_vif fun v => beside_when ?_
  refine beside_bind (beside_modify fun _ => ⟨rfl, rfl, rfl⟩) fun _ =>
    beside_bind (beside_drive _) fun _ => beside_when ?_
  exact beside_modify fun _ => ⟨rfl, rfl, rfl⟩

theorem beside_checkVifStall (value : Word) : Within Beside (checkVifStall P value) := by
  refine beside_bind beside_vif fun _ => beside_bind (beside_when ?_) fun _ =>
    beside_bind beside_vif fun _ => beside_pure _
  exact beside_bind (beside_noteIbit P value) fun _ => beside_modify fun _ => ⟨rfl, rfl, rfl⟩

theorem beside_MSCAL (addr : Word) (cycles : ℕ) : Within Beside (MSCAL P addr cycles) := by
  refine beside_bind (beside_drive _) fun _ =>
    beside_bind (beside_modify fun _ => ⟨rfl, rfl, rfl⟩) fun _ =>
      beside_bind beside_vif fun _ => beside_when ?_
  exact beside_modify fun _ => ⟨rfl, rfl, rfl⟩

theorem beside_waitFor (flush path3 : Bool) (value : Word) :
    Within Beside (waitFor flush path3 value : M W Unit) :=
  beside_modify fun _ => ⟨rfl, rfl, rfl⟩

theorem beside_finishCode {f : VectorInterface → VectorInterface}
    (hf : ∀ v, (f v).id = v.id ∧ (f v).FIFO = v.FIFO ∧ (f v).internalFIFO = v.internalFIFO) :
    Within Beside (finishCode f : M W Unit) := beside_modify hf

theorem beside_lengthen (words : ℕ) : Within Beside (lengthen words : M W Unit) :=
  beside_modify fun _ => ⟨rfl, rfl, rfl⟩

theorem beside_initUNPACK (value : Word) : Within Beside (initUNPACK value : M W Unit) :=
  beside_bind beside_vif fun _ =>
    beside_bind (beside_modify fun _ => ⟨rfl, rfl, rfl⟩) fun _ => beside_lengthen _

/-- The codes that wait for the VU. -/
theorem beside_waitCode (flush path3 : Bool) (value : Word) :
    Within Beside (do waitFor flush path3 value; finishCode id : M W Unit) :=
  beside_bind (beside_waitFor _ _ _) fun _ => beside_finishCode fun _ => ⟨rfl, rfl, rfl⟩

theorem beside_decode (value : Word) : Within Beside (decode P value) := by
  refine beside_bind beside_vif fun v => ?_
  dsimp only
  split
  case h_7 =>
    -- MSKPATH3
    exact beside_bind beside_needGIF fun _ => beside_bind (beside_ask _) fun _ =>
      beside_finishCode fun _ => ⟨rfl, rfl, rfl⟩
  case h_18 =>
    -- MPG
    exact beside_bind (beside_lengthen _) fun _ =>
      beside_bind (beside_modify fun _ => ⟨rfl, rfl, rfl⟩) fun _ => beside_waitFor _ _ _
  case h_21 => exact within_ite (fun _ => beside_initUNPACK _) fun _ => within_failure
  all_goals first
    | exact beside_finishCode fun _ => ⟨rfl, rfl, rfl⟩
    | exact beside_waitCode _ _ _
    | exact beside_lengthen _

theorem beside_decodeCmd (value : Word) : Within Beside (decodeCmd P value) :=
  beside_bind (beside_modify fun _ => ⟨rfl, rfl, rfl⟩) fun _ => beside_decode P value

theorem beside_handleWaitCmd (value : Word) (cycles : ℕ) :
    Within Beside (handleWaitCmd P value cycles) := by
  refine beside_bind (beside_modify fun _ => ⟨rfl, rfl, rfl⟩) fun _ => beside_bind ?_ fun _ =>
    beside_bind beside_vif fun _ => beside_when ?_
  · split
    · exact beside_MSCAL P _ _
    · exact beside_MSCAL P _ _
    · exact beside_bind beside_get fun _ => beside_MSCAL P _ _
    · exact beside_pure _
  · exact beside_bind (beside_setCommand _) fun _ => beside_setStatus _

/-! ### UNPACK -/

theorem beside_masking (quad : Lanes) : Within Beside (handleUNPACKMasking P quad) :=
  beside_bind beside_get fun _ => within_ite (fun _ => beside_pure _) fun _ => beside_pure _

theorem beside_mode (quad : Lanes) : Within Beside (handleUNPACKMode quad : M W Lanes) :=
  beside_bind beside_vif fun _ =>
    beside_bind (beside_modify fun _ => ⟨rfl, rfl, rfl⟩) fun _ => beside_pure _

theorem beside_nextBlock (v : VectorInterface) : (nextBlock v).id = v.id ∧
    (nextBlock v).FIFO = v.FIFO ∧ (nextBlock v).internalFIFO = v.internalFIFO := by
  unfold nextBlock
  split_ifs <;> exact ⟨rfl, rfl, rfl⟩

theorem beside_processUNPACKQuad (quad : Lanes) : Within Beside (processUNPACKQuad P quad) :=
  beside_bind (beside_masking P quad) fun _ => beside_bind (beside_mode _) fun _ =>
    beside_bind (beside_unpack _) fun _ => beside_bind beside_vif fun _ =>
      beside_bind (beside_drive _) fun _ => beside_bind (beside_unpack _) fun _ =>
        beside_modify beside_nextBlock

theorem beside_elementAt (buffer : Fin 4 → Word) (element : Word → ℕ → Word) (c : Cursor) :
    Within Beside (elementAt buffer element c : M W Word) :=
  beside_bind (beside_index4 _) fun _ => beside_pure _

theorem beside_takeThree (buffer : Fin 4 → Word) (element : Word → ℕ → Word) (per : ℕ) (c : Cursor) :
    Within Beside (takeThree buffer element per c : M W (Lanes × Cursor)) :=
  beside_bind (beside_elementAt _ _ _) fun _ => beside_bind (beside_elementAt _ _ _) fun _ =>
    beside_bind (beside_elementAt _ _ _) fun _ =>
      beside_bind (within_ite (fun _ => beside_elementAt _ _ _) fun _ => beside_pure _) fun _ =>
        beside_pure _

theorem beside_stepOffset (per : ℕ) : Within Beside (stepOffset per : M W Unit) := by
  refine beside_modify fun v => ?_
  split_ifs <;> exact ⟨rfl, rfl, rfl⟩

theorem beside_takeWords (n : ℕ) : Within Beside (takeWords n : M W Unit) :=
  beside_modify fun _ => ⟨rfl, rfl, rfl⟩

theorem beside_leaveCursor (c : Cursor) (keep : Bool) :
    Within Beside (leaveCursor c keep : M W Unit) := by
  refine beside_bind (beside_when ?_) fun _ => beside_modify fun _ => ⟨rfl, rfl, rfl⟩
  exact beside_bind (beside_index4 _) fun _ => beside_modify fun _ => ⟨rfl, rfl, rfl⟩

theorem beside_takeV3_8 (bufferpos : ℕ) :
    Within Beside (takeV3_8 bufferpos : M W (Option (Lanes × ℕ))) :=
  beside_bind beside_vif fun _ => within_ite (fun _ => beside_pure _) fun _ =>
    beside_bind (beside_takeThree _ _ _ _) fun _ => beside_bind (beside_leaveCursor _ _) fun _ =>
      beside_pure _

theorem beside_takeV3_16 (bufferpos : ℕ) :
    Within Beside (takeV3_16 bufferpos : M W (Option (Lanes × ℕ))) :=
  beside_bind beside_vif fun _ => beside_bind (beside_takeThree _ _ _ _) fun _ =>
    beside_bind (beside_leaveCursor _ _) fun _ => beside_pure _

theorem beside_takeV3_32 (bufferpos : ℕ) :
    Within Beside (takeV3_32 bufferpos : M W (Option (Lanes × ℕ))) :=
  beside_bind beside_vif fun _ => within_ite (fun _ => beside_pure _) fun _ =>
    beside_bind (beside_modify fun _ => ⟨rfl, rfl, rfl⟩) fun _ => beside_pure _

theorem beside_takeVector (bufferpos : ℕ) :
    Within Beside (takeVector bufferpos : M W (Option (Lanes × ℕ))) := by
  refine beside_bind beside_vif fun v => ?_
  dsimp only
  split
  case h_7 => exact beside_takeV3_32 _
  case h_8 => exact beside_takeV3_16 _
  case h_9 => exact beside_takeV3_8 _
  case h_14 => exact within_failure
  all_goals first
    | exact beside_bind (beside_takeWords _) fun _ => beside_pure _
    | exact beside_bind (beside_stepOffset _) fun _ => beside_pure _

theorem beside_unpackTurn (bufferpos : ℕ) : Within Beside (unpackTurn P bufferpos) := by
  refine beside_bind beside_vif fun _ => within_ite (fun _ => ?_) fun _ => ?_
  · refine beside_bind (beside_takeVector _) fun taken => ?_
    rcases taken with - | ⟨quad, bufferpos⟩
    · exact beside_pure _
    · exact beside_bind (beside_processUNPACKQuad P _) fun _ => beside_pure _
  · exact beside_bind (beside_processUNPACKQuad P _) fun _ => beside_pure _

theorem beside_unpackLoop (num : ℕ) : ∀ bufferpos, Within Beside (unpackLoop P num bufferpos) := by
  induction num with
  | zero => exact fun _ => beside_pure _
  | succ num ih =>
    intro bufferpos
    refine beside_bind beside_vif fun _ => within_ite (fun _ => ?_) fun _ => beside_pure _
    refine beside_bind (beside_unpackTurn P _) fun turn => ?_
    rcases turn with - | bufferpos
    · exact beside_pure _
    · exact ih bufferpos

theorem beside_handleUNPACK : Within Beside (handleUNPACK P) :=
  beside_bind beside_vif fun _ => beside_bind (beside_unpackLoop P _ _) fun _ =>
    beside_when (beside_bind beside_vif fun _ => beside_when (beside_setCommand _))

/-! ### Data words -/

theorem beside_endCommand : Within Beside (endCommand : M W Unit) :=
  beside_bind beside_vif fun _ => beside_when (beside_setCommand _)

theorem beside_bufferWord (value : Word) : Within Beside (bufferWord value : M W Unit) :=
  beside_bind beside_vif fun _ => beside_bind (beside_index4 _) fun _ =>
    beside_modify fun _ => ⟨rfl, rfl, rfl⟩

theorem beside_directWord (value : Word) : Within Beside (directWord P value) := by
  refine beside_bind (beside_modify fun _ => ⟨rfl, rfl, rfl⟩) fun _ =>
    beside_bind (beside_bufferWord _) fun _ => beside_bind beside_vif fun _ =>
      beside_bind (beside_when ?_) fun _ => beside_bind beside_vif fun _ =>
        beside_bind (beside_when (beside_drive _)) fun _ => beside_endCommand
  exact beside_bind beside_vif fun _ => beside_bind (beside_drive _) fun _ =>
    beside_modify fun _ => ⟨rfl, rfl, rfl⟩

theorem beside_direct (canInterruptPath3 : Bool) (value : Word) :
    Within Beside (direct P canInterruptPath3 value) := by
  refine beside_bind beside_needGIF fun _ => beside_bind (beside_drive _) fun _ =>
    beside_bind (beside_ask _) fun _ => within_ite (fun _ => ?_) fun _ => ?_
  · exact beside_bind (beside_directWord P value) fun _ => beside_pure _
  · exact beside_bind (beside_modify fun _ => ⟨rfl, rfl, rfl⟩) fun _ => beside_pure _

theorem beside_dataIndex (commandLen : ℕ) : Within Beside (dataIndex commandLen : M W (Fin 4)) :=
  within_ite (fun _ => beside_index4 _) fun _ => within_failure

theorem beside_dataWord (value : Word) : Within Beside (dataWord P value) := by
  refine beside_bind beside_vif fun v => ?_
  split
  · exact beside_bind (beside_modify fun _ => ⟨rfl, rfl, rfl⟩) fun _ => beside_pure _
  · exact beside_bind (beside_dataIndex _) fun _ =>
      beside_bind (beside_modify fun _ => ⟨rfl, rfl, rfl⟩) fun _ =>
        beside_bind beside_endCommand fun _ => beside_pure _
  · exact beside_bind (beside_dataIndex _) fun _ =>
      beside_bind (beside_modify fun _ => ⟨rfl, rfl, rfl⟩) fun _ =>
        beside_bind beside_endCommand fun _ => beside_pure _
  · exact beside_bind (beside_drive _) fun _ =>
      beside_bind (beside_modify fun _ => ⟨rfl, rfl, rfl⟩) fun _ =>
        beside_bind beside_endCommand fun _ => beside_pure _
  · exact beside_direct P _ _
  · exact beside_direct P _ _
  · exact within_ite (fun _ => beside_bind (beside_bufferWord _) fun _ => beside_pure _)
      fun _ => within_failure

theorem beside_noteDecoded : Within Beside (noteDecoded : M W Unit) :=
  beside_bind beside_vif fun _ => beside_when (beside_setStatus _)

theorem beside_processDataWord (value : Word) : Within Beside (processDataWord P value) := by
  refine beside_bind beside_vif fun _ => within_ite (fun _ => ?_) fun _ => ?_
  · exact beside_bind (beside_modify fun _ => ⟨rfl, rfl, rfl⟩) fun _ =>
      beside_bind (beside_decodeCmd P _) fun _ => beside_bind beside_noteDecoded fun _ =>
        beside_pure _
  · refine beside_bind (beside_setStatus _) fun _ => beside_bind (beside_dataWord P _) fun _ =>
      within_ite (fun _ => ?_) fun _ => beside_pure _
    exact beside_bind beside_noteDecoded fun _ => beside_pure _

/-! ### The update -/

theorem beside_waitsOver (cycles : ℕ) : Within Beside (waitsOver P cycles) := by
  have hpaths : Within Beside (pathsBusy P) :=
    beside_bind beside_vif fun _ => within_ite (fun _ => beside_bind beside_needGIF fun _ =>
      beside_bind beside_get fun _ => beside_pure _) fun _ => beside_pure _
  have hvu : Within Beside (vuBusy P cycles) :=
    beside_bind beside_get fun _ => within_ite (fun _ => within_ite (fun _ => beside_pure _)
      fun _ => beside_bind (beside_handleWaitCmd P _ _) fun _ => beside_pure _) fun _ =>
        beside_pure _
  have hpath3 : Within Beside (path3Busy P) :=
    beside_bind beside_vif fun _ => within_ite (fun _ => beside_bind beside_needGIF fun _ =>
      beside_bind beside_get fun _ => beside_pure _) fun _ => beside_pure _
  refine beside_bind beside_vif fun _ => within_ite (fun _ => ?_) fun _ => beside_pure _
  refine beside_bind hpaths fun _ => within_ite (fun _ => beside_pure _) fun _ => ?_
  refine beside_bind hvu fun _ => within_ite (fun _ => beside_pure _) fun _ => ?_
  refine beside_bind hpath3 fun _ => within_ite (fun _ => beside_pure _) fun _ => ?_
  exact beside_bind (beside_modify fun _ => ⟨rfl, rfl, rfl⟩) fun _ => beside_pure _

theorem beside_unpackStep : Within Beside (unpackStep P) :=
  beside_bind beside_vif fun _ => beside_when (beside_bind (beside_setStatus _) fun _ =>
    beside_bind (beside_handleUNPACK P) fun _ => beside_noteDecoded)

theorem beside_rest (first : Bool) : Within Beside (rest P first) := by
  have hleave : Within Beside (leavePATH2 P) :=
    beside_bind beside_vif fun _ => beside_when (beside_bind (beside_ask _) fun _ =>
      beside_when (beside_drive _))
  refine beside_bind beside_vif fun _ => within_ite (fun _ => beside_setStatus _) fun _ => ?_
  exact beside_when (beside_bind hleave fun _ => beside_setStatus _)

end DobieStation.Vif.Frame
