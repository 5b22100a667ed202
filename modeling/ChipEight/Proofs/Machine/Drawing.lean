import ChipEight.Proofs.Instruction.Words
import ChipEight.Proofs.Machine.Obeying
import ChipEight.Proofs.Screen.Pixels

/-!
# Drawing, pixel by pixel

DXYN draws a sprite of N bytes from memory. The registers VX and VY are brought onto the screen and
name the upper left corner; what reaches beyond the right or lower edge is cut off. The set bits of
the bytes make a mask: each pixel under it is inverted, and VF tells whether one of them was lit.
-/

namespace ChipEight

namespace State

variable (state : State) (x y height : Digit)

/-- Whether a sprite has a set bit for a place, when it is drawn at the corner that two registers
name. Its bytes start where the index register points to, and their addresses are not wrapped. -/
def mask (row column : Nat) : Bool :=
  let top := (state.v y).toNat % Screen.height
  let left := (state.v x).toNat % Screen.width
  decide (top ≤ row ∧ row < top + height.val ∧ left ≤ column ∧ column < left + 8) &&
    Sprite.bit (state.memory.read (state.target + (row - top))) (column - left)

/-- The sprite that is drawn. -/
def sprite : Screen :=
  let bytes := (List.range height.val).map fun place => state.memory.read (state.target + place)
  Sprite.place bytes ((state.v y).toNat % Screen.height) ((state.v x).toNat % Screen.width)

theorem pixel_sprite {row column : Nat} (onScreen : row < Screen.height)
    (inRow : column < Screen.width) :
    (state.sprite x y height).pixel row column = state.mask x y height row column := by
  simp only [sprite, Sprite.pixel_place, mask]
  generalize (state.v y).toNat % Screen.height = top
  by_cases within : row - top < height.val
  · have window : (top ≤ row ∧ row < top + height.val) ↔ top ≤ row := by omega
    simp [within, onScreen, inRow, ← and_assoc, window]
  · have outside (below : top ≤ row) : ¬ row < top + height.val := by omega
    simp [within, Sprite.bit]
    intro below inWindow
    exact absurd inWindow (outside below)

/-- Drawing inverts the pixels under the mask and no others. -/
theorem pixel_draw {row column : Nat} (onScreen : row < Screen.height)
    (inRow : column < Screen.width) :
    (state.draw x y height).screen.pixel row column =
      (state.screen.pixel row column ^^ state.mask x y height row column) := by
  rw [← state.pixel_sprite x y height onScreen inRow]
  exact Screen.pixel_invert ..

/-- Some pixel under the mask is lit. -/
def Collides : Prop :=
  ∃ row column, row < Screen.height ∧ column < Screen.width ∧
    state.screen.pixel row column = true ∧ state.mask x y height row column = true

theorem meets_sprite_iff :
    state.screen.meets (state.sprite x y height) = true ↔ state.Collides x y height := by
  rw [Screen.meets_iff]
  constructor
  · rintro ⟨row, column, onScreen, inRow, lit, under⟩
    rw [state.pixel_sprite x y height onScreen inRow] at under
    exact ⟨row, column, onScreen, inRow, lit, under⟩
  · rintro ⟨row, column, onScreen, inRow, lit, under⟩
    rw [← state.pixel_sprite x y height onScreen inRow] at under
    exact ⟨row, column, onScreen, inRow, lit, under⟩

theorem v_draw (register : Digit) :
    (state.draw x y height).v register =
      if register = Registers.flagRegister then
        (if state.screen.meets (state.sprite x y height) then 1 else 0)
      else state.v register :=
  Registers.read_write ..

theorem flag_draw_eq_one_iff :
    (state.draw x y height).v Registers.flagRegister = 1 ↔ state.Collides x y height := by
  rw [v_draw, if_pos rfl, ← meets_sprite_iff]
  cases state.screen.meets (state.sprite x y height) <;> decide

theorem flag_draw_eq_zero_iff :
    (state.draw x y height).v Registers.flagRegister = 0 ↔ ¬ state.Collides x y height := by
  rw [v_draw, if_pos rfl, ← meets_sprite_iff]
  cases state.screen.meets (state.sprite x y height) <;> decide

section

variable {x' y' : Digit} (plainX : x' ≠ Registers.flagRegister)
  (plainY : y' ≠ Registers.flagRegister) (height' : Digit)

include plainX plainY

/-- Drawing changes no register but VF, so it does not move a sprite whose corner other registers
name. -/
theorem sprite_draw :
    (state.draw x y height).sprite x' y' height' = state.sprite x' y' height' := by
  have column := (state.v_draw x y height x').trans (if_neg plainX)
  have row := (state.v_draw x y height y').trans (if_neg plainY)
  rw [sprite, column, row]
  rfl

theorem mask_draw (row column : Nat) :
    (state.draw x y height).mask x' y' height' row column =
      state.mask x' y' height' row column := by
  have left := (state.v_draw x y height x').trans (if_neg plainX)
  have top := (state.v_draw x y height y').trans (if_neg plainY)
  rw [mask, left, top]
  rfl

end

end State

theorem Machine.state_obey_draw (machine : Machine) (x y height : Digit) :
    (machine.obey (Word.ofDigits 0xD x y height.val)).state = machine.state.draw x y height := by
  change (machine.obey (Instruction.draw x y height).toWord).state = _
  rw [machine.state_obey_toWord rfl]
  rfl

/-- Drawing a sprite inverts the pixels under its mask, clipped to the screen, and leaves all others
as they were. The flag is one if a pixel under the mask was lit and zero if none was, and the
picture is to be drawn anew. Nothing else changes, and a step with this word does the same once it
has fetched it. -/
theorem drawing_inverts_under_mask (machine : Machine) (x y height : Digit) :
    let word := Word.ofDigits 0xD x y height.val
    let before := machine.state
    let drawn := machine.obey word
    let after := drawn.state
    (∀ row column, row < Screen.height → column < Screen.width →
      after.screen.pixel row column =
        (before.screen.pixel row column ^^ before.mask x y height row column)) ∧
    (∀ address, Memory.size ≤ address → before.memory.read address = 0) ∧
    (before.Collides x y height → after.v Registers.flagRegister = 1) ∧
    (¬ before.Collides x y height → after.v Registers.flagRegister = 0) ∧
    (∀ register, register ≠ Registers.flagRegister → after.v register = before.v register) ∧
    drawn = { machine with
      state := { before with
        registers := { before.registers with v := after.registers.v }
        screen := after.screen
        redraw := true } } ∧
    ∀ earlier : Machine, earlier.state.awaiting = none → earlier.state.word = word →
      earlier.fetch = machine → earlier.step.machine = drawn := by
  intro word before drawn after
  have reached : drawn = { machine with state := before.draw x y height } :=
    machine.obey_toWord (show (Instruction.draw x y height).address? = none from rfl)
  have state : after = before.draw x y height := congrArg Machine.state reached
  rw [state]
  refine ⟨?_, ?_, ?_, ?_, ?_, reached, ?_⟩
  · intro row column onScreen inRow
    exact before.pixel_draw x y height onScreen inRow
  · exact fun address past => before.memory.read_of_size_le past
  · intro collides
    rw [before.v_draw, if_pos rfl, if_pos ((before.meets_sprite_iff x y height).mpr collides)]
  · intro clear
    rw [before.v_draw, if_pos rfl, if_neg (mt (before.meets_sprite_iff x y height).mp clear)]
  · intro register apart
    rw [before.v_draw, if_neg apart]
  · rintro earlier free same rfl
    rw [Machine.machine_step_of_free free, same]

end ChipEight
