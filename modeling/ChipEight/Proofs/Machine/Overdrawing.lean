import ChipEight.Machine.Action
import ChipEight.Proofs.Machine.Drawing
import ChipEight.Proofs.Screen.Glyphs

/-!
# Drawing over what was drawn

A sprite that is drawn where it already is erases itself, and sprites may be drawn in either order.
This holds of the picture, whatever is on it. It needs registers other than VF for the corners,
because VF receives the outcome of the first drawing before the second one begins.

The flag is less symmetric than the picture: the first drawing finds a lit pixel under its mask
where the second one finds a dark one.
-/

namespace ChipEight

namespace State

variable (state : State) {x y : Digit} (height : Digit)

theorem screen_draw :
    (state.draw x y height).screen = state.screen.invert (state.sprite x y height) :=
  rfl

section

variable (plainX : x ≠ Registers.flagRegister) (plainY : y ≠ Registers.flagRegister)

include plainX plainY

theorem screen_draw_draw : ((state.draw x y height).draw x y height).screen = state.screen := by
  rw [screen_draw, state.sprite_draw x y height plainX plainY, screen_draw, Screen.invert_invert]

/-- What is lit after a drawing was dark before it, as far as the mask reaches. -/
theorem collides_draw_iff :
    (state.draw x y height).Collides x y height ↔
      ∃ row column, row < Screen.height ∧ column < Screen.width ∧
        state.screen.pixel row column = false ∧ state.mask x y height row column = true := by
  simp only [Collides, state.mask_draw x y height plainX plainY]
  constructor
  · rintro ⟨row, column, onScreen, inRow, lit, under⟩
    rw [state.pixel_draw x y height onScreen inRow, under] at lit
    exact ⟨row, column, onScreen, inRow, by simpa using lit, under⟩
  · rintro ⟨row, column, onScreen, inRow, dark, under⟩
    refine ⟨row, column, onScreen, inRow, ?_, under⟩
    rw [state.pixel_draw x y height onScreen inRow, under, dark]
    rfl

/-- Neither drawing finds a lit pixel if nothing of the sprite is on the screen, and only then. -/
theorem not_collides_twice_iff :
    (¬ state.Collides x y height ∧ ¬ (state.draw x y height).Collides x y height) ↔
      ∀ row column, row < Screen.height → column < Screen.width →
        ¬ state.mask x y height row column = true := by
  rw [state.collides_draw_iff height plainX plainY]
  constructor
  · rintro ⟨noneLit, noneDark⟩ row column onScreen inRow under
    cases shown : state.screen.pixel row column with
    | true => exact noneLit ⟨row, column, onScreen, inRow, shown, under⟩
    | false => exact noneDark ⟨row, column, onScreen, inRow, shown, under⟩
  · intro nothing
    constructor
    · rintro ⟨row, column, onScreen, inRow, -, under⟩
      exact nothing row column onScreen inRow under
    · rintro ⟨row, column, onScreen, inRow, -, under⟩
      exact nothing row column onScreen inRow under

theorem screen_draw_right_comm {x' y' : Digit} (height' : Digit)
    (plainX' : x' ≠ Registers.flagRegister) (plainY' : y' ≠ Registers.flagRegister) :
    ((state.draw x y height).draw x' y' height').screen =
      ((state.draw x' y' height').draw x y height).screen := by
  rw [screen_draw, screen_draw, screen_draw, screen_draw,
    state.sprite_draw x y height plainX' plainY', state.sprite_draw x' y' height' plainX plainY,
    Screen.invert_right_comm]

end

end State

/-- Two steps that draw the same sprite give the picture back. -/
theorem Machine.screen_step_step {machine : Machine} {x y height : Digit}
    (plainX : x ≠ Registers.flagRegister) (plainY : y ≠ Registers.flagRegister)
    (free : machine.state.awaiting = none)
    (first : machine.state.word = Word.ofDigits 0xD x y height.val)
    (second : machine.step.machine.state.word = Word.ofDigits 0xD x y height.val) :
    machine.step.machine.step.machine.state.screen = machine.state.screen := by
  have drawn : machine.step.machine.state = machine.state.advance.draw x y height := by
    rw [machine_step_of_free free, first, state_obey_draw]
    rfl
  have stillFree : machine.step.machine.state.awaiting = none := by
    rw [drawn]
    exact free
  rw [machine_step_of_free stillFree, second, state_obey_draw]
  change (machine.step.machine.state.advance.draw x y height).screen = _
  have moved (state : State) :
      (state.advance.draw x y height).screen = (state.draw x y height).screen := rfl
  rw [moved, drawn, State.screen_draw_draw _ _ plainX plainY]
  rfl

/-- Drawing a sprite twice gives the picture back, where its corner is not named by VF. The flag is
one after the first drawing if a pixel under the mask was lit, and one after the second if a pixel
under the mask was dark before both, so it stays zero only for a sprite that is nowhere on the
screen. Two sprites may be drawn in either order. All this is said of words wherever they stand,
and the picture also comes back after two steps with the word. -/
theorem drawing_twice_erases (machine : Machine) {x y x' y' : Digit} (height height' : Digit)
    (plainX : x ≠ Registers.flagRegister) (plainY : y ≠ Registers.flagRegister)
    (plainX' : x' ≠ Registers.flagRegister) (plainY' : y' ≠ Registers.flagRegister) :
    let word := Word.ofDigits 0xD x y height.val
    let other := Word.ofDigits 0xD x' y' height'.val
    let before := machine.state
    let once := (machine.obey word).state
    let twice := ((machine.obey word).obey word).state
    let under (row column : Nat) : Prop :=
      row < Screen.height ∧ column < Screen.width ∧ before.mask x y height row column = true
    twice.screen = before.screen ∧
    (once.v Registers.flagRegister = 1 ↔
      ∃ row column, under row column ∧ before.screen.pixel row column = true) ∧
    (twice.v Registers.flagRegister = 1 ↔
      ∃ row column, under row column ∧ before.screen.pixel row column = false) ∧
    (once.v Registers.flagRegister = 0 ∨ once.v Registers.flagRegister = 1) ∧
    (twice.v Registers.flagRegister = 0 ∨ twice.v Registers.flagRegister = 1) ∧
    ((once.v Registers.flagRegister = 0 ∧ twice.v Registers.flagRegister = 0) ↔
      ∀ row column, ¬ under row column) ∧
    ((machine.obey word).obey other).state.screen =
      ((machine.obey other).obey word).state.screen ∧
    (before.awaiting = none → before.word = word → machine.step.machine.state.word = word →
      machine.step.machine.step.machine.state.screen = before.screen) := by
  intro word other before once twice under
  have onceDrawn : once = before.draw x y height := machine.state_obey_draw x y height
  have twiceDrawn : twice = (before.draw x y height).draw x y height := by
    rw [← onceDrawn]
    exact (machine.obey word).state_obey_draw x y height
  rw [onceDrawn, twiceDrawn]
  have flag (state : State) :
      (state.draw x y height).v Registers.flagRegister = 0 ∨
        (state.draw x y height).v Registers.flagRegister = 1 := by
    by_cases collides : state.Collides x y height
    · exact .inr ((state.flag_draw_eq_one_iff x y height).mpr collides)
    · exact .inl ((state.flag_draw_eq_zero_iff x y height).mpr collides)
  refine ⟨before.screen_draw_draw height plainX plainY, ?_, ?_, flag _, flag _, ?_, ?_, ?_⟩
  · rw [State.flag_draw_eq_one_iff, State.Collides]
    simp only [under, and_comm, and_left_comm]
  · rw [State.flag_draw_eq_one_iff, before.collides_draw_iff height plainX plainY]
    simp only [under, and_comm, and_left_comm]
  · rw [State.flag_draw_eq_zero_iff, State.flag_draw_eq_zero_iff,
      before.not_collides_twice_iff height plainX plainY]
    simp only [under, not_and]
  · simp only [word, other, Machine.state_obey_draw]
    exact before.screen_draw_right_comm height plainX plainY height' plainX' plainY'
  · exact Machine.screen_step_step plainX plainY

/-- A machine that is about to draw a zero. V0 and V1 name a corner where only two columns and two
rows of it are on the screen, and V2 and V3 name one where a second zero would overlap with it. -/
def beforeZeros : Machine :=
  ((Machine.start {} 0).run
    [.setIndex 0x50, .setRegister 0 62, .setRegister 1 30, .setRegister 2 60,
      .setRegister 3 29]).machine

theorem mask_beforeZeros :
    beforeZeros.state.mask (Digit.ofNat 0) (Digit.ofNat 1) (Digit.ofNat 5) 30 62 = true := by
  have byte : beforeZeros.state.memory.read 0x50 = 0xF0 :=
    Memory.holdsFont_initial 0 (by decide)
  have column : beforeZeros.state.v (Digit.ofNat 0) = 62 := by decide
  have row : beforeZeros.state.v (Digit.ofNat 1) = 30 := by decide
  have index : beforeZeros.state.target = 0x50 := by decide
  rw [State.mask, column, row, index]
  change (_ && Sprite.bit (beforeZeros.state.memory.read 0x50) 0) = true
  rw [byte]
  decide

/-- The zero erases itself. The first drawing finds the screen dark, and the second one finds what
the first has lit. -/
theorem cornered_zero_erased :
    let word := Word.ofDigits 0xD (Digit.ofNat 0) (Digit.ofNat 1) 5
    let other := Word.ofDigits 0xD (Digit.ofNat 2) (Digit.ofNat 3) 5
    let once := beforeZeros.obey word
    let twice := once.obey word
    (∀ register ∈ [Digit.ofNat 0, Digit.ofNat 1, Digit.ofNat 2, Digit.ofNat 3],
      register ≠ Registers.flagRegister) ∧
    twice.state.screen = Screen.dark ∧
    once.state.v Registers.flagRegister = 0 ∧ twice.state.v Registers.flagRegister = 1 ∧
    (once.obey other).state.screen = ((beforeZeros.obey other).obey word).state.screen := by
  have dark : beforeZeros.state.screen = Screen.dark := rfl
  obtain ⟨screen, first, second, down, -, -, either, -⟩ :=
    drawing_twice_erases beforeZeros (Digit.ofNat 5) (Digit.ofNat 5)
      (by decide : Digit.ofNat 0 ≠ Registers.flagRegister)
      (by decide : Digit.ofNat 1 ≠ Registers.flagRegister)
      (by decide : Digit.ofNat 2 ≠ Registers.flagRegister)
      (by decide : Digit.ofNat 3 ≠ Registers.flagRegister)
  rw [dark] at screen first second
  refine ⟨by decide, screen, down.resolve_right ?_, second.mpr ?_, either⟩
  · intro raised
    obtain ⟨row, column, -, lit⟩ := first.mp raised
    exact absurd lit (by simp)
  · exact ⟨30, 62, ⟨by decide, by decide, mask_beforeZeros⟩, Screen.pixel_dark 30 62⟩

end ChipEight
