import ChipEight.Machine.Action
import ChipEight.Proofs.Machine.Drawing
import ChipEight.Proofs.Machine.Spilling
import ChipEight.Proofs.Screen.Glyphs

/-!
# Numbers on the screen

A program shows a number with four instructions. FX33 stores the decimal digits of a register, the
hundreds first; F265 loads them into V0, V1 and V2; FX29 points to the glyph of one of them; and
DXY5 draws it. They agree on the order of the digits, on where the glyphs stand and on their
height, so the glyph on the screen is that of the digit.
-/

namespace ChipEight

namespace State

/-! ## Digits -/

theorem toNat_decimalDigits_le (value : UInt8) (place : Nat) :
    ((decimalDigits value)[place]?.getD 0).toNat ≤ 9 := by
  have bound (number : Nat) : number % 10 ≤ 9 := Nat.le_of_lt_succ (Nat.mod_lt _ (by decide))
  match place with
  | 0 => exact bound (value / 100).toNat
  | 1 => exact bound (value / 10).toNat
  | 2 => exact bound value.toNat
  | _ + 3 => exact Nat.zero_le _

/-- The digits of a byte are its decimal digits. -/
theorem decimalDigits_sum (value : UInt8) :
    100 * ((decimalDigits value)[0]?.getD 0).toNat + 10 * ((decimalDigits value)[1]?.getD 0).toNat +
      ((decimalDigits value)[2]?.getD 0).toNat = value.toNat := by
  have bound := value.toNat_lt
  change 100 * (value.toNat / 100 % 10) + 10 * (value.toNat / 10 % 10) + value.toNat % 10 = _
  omega

variable {state : State} {x : Digit}

/-- Loading registers from where a decimal was stored gives its digits. -/
theorem v_fill_storeDecimal (fits : state.target + 2 < Memory.size) {register : Digit}
    (loaded : register ≤ Digit.ofNat 2) :
    ((state.storeDecimal x).fill (Digit.ofNat 2)).v register =
      (decimalDigits (state.v x))[register.val]?.getD 0 := by
  have within : register.val ≤ 2 := loaded
  have room : Memory.room state.target (decimalDigits (state.v x)).size = 3 := by
    change min 3 (Memory.size - state.target) = 3
    omega
  change ((state.storeDecimal x).fill (Digit.ofNat 2)).registers.read register = _
  rw [Instruction.read_fill, if_pos loaded]
  change (state.memory.load state.target (decimalDigits (state.v x))).read
    (state.target + register.val) = _
  rw [Memory.read_load, room, if_pos (by omega), Nat.add_sub_cancel_left]

theorem screen_fill (state : State) (last : Digit) : (state.fill last).screen = state.screen := by
  simp only [fill, passRegisters, setIndex]

theorem holdsFont_storeDecimal (font : state.memory.HoldsFont)
    (apart : state.target + 2 < Font.address.toNat ∨
      Font.address.toNat + Font.glyphs.size ≤ state.target) :
    (state.storeDecimal x).memory.HoldsFont := by
  apply font.load
  change state.target + 3 ≤ _ ∨ _
  omega

/-! ## Glyphs -/

theorem target_pointToGlyph (state : State) (x : Digit) :
    (state.setIndex (Font.address + (state.v x).toUInt16 * Font.glyphHeight)).target =
      Font.address.toNat + (state.v x).toNat * Font.glyphHeight.toNat := by
  have bound := (state.v x).toNat_lt
  change (Font.address + (state.v x).toUInt16 * Font.glyphHeight).toNat = _
  rw [UInt16.toNat_add, UInt16.toNat_mul, UInt8.toNat_toUInt16]
  change (80 + (state.v x).toNat * 5 % 65536) % 65536 = 80 + (state.v x).toNat * 5
  omega

section

variable {digit : Nat} (font : state.memory.HoldsFont) (isDigit : digit < 16)
  (points : state.target = Font.address.toNat + digit * Font.glyphHeight.toNat)
  (p q : Digit)

include font isDigit points

/-- The mask of a glyph is the glyph, moved to the corner. -/
theorem mask_of_glyph (row column : Nat) :
    let left := (state.v p).toNat % Screen.width
    let top := (state.v q).toNat % Screen.height
    state.mask p q (Digit.ofNat 5) row column =
      (decide (top ≤ row ∧ row < top + 5 ∧ left ≤ column ∧ column < left + 4) &&
        Font.lights digit (row - top) (column - left)) := by
  intro left top
  change (decide (top ≤ row ∧ row < top + 5 ∧ left ≤ column ∧ column < left + 8) &&
    Sprite.bit (state.memory.read (state.target + (row - top))) (column - left)) = _
  by_cases window : top ≤ row ∧ row < top + 5 ∧ left ≤ column ∧ column < left + 8
  · have inGlyph : row - top < Font.glyphHeight.toNat := by
      change row - top < 5
      omega
    rw [points, font.bit_read isDigit inGlyph, decide_eq_true window]
    by_cases narrow : column < left + 4
    · rw [decide_eq_true ⟨window.1, window.2.1, window.2.2.1, narrow⟩]
    · rw [Font.not_lights_of_le (by omega) (by omega), Bool.and_false, Bool.and_false]
  · have outside : ¬ (top ≤ row ∧ row < top + 5 ∧ left ≤ column ∧ column < left + 4) := by omega
    rw [decide_eq_false window, decide_eq_false outside, Bool.false_and, Bool.false_and]

/-- On a dark screen with enough room a glyph is drawn as it is and nothing else is. -/
theorem pixel_draw_glyph (dark : state.screen = Screen.dark)
    (roomRight : (state.v p).toNat % Screen.width ≤ 60)
    (roomBelow : (state.v q).toNat % Screen.height ≤ 27) (row column : Nat) :
    let left := (state.v p).toNat % Screen.width
    let top := (state.v q).toNat % Screen.height
    (state.draw p q (Digit.ofNat 5)).screen.pixel row column =
      (decide (top ≤ row ∧ row < top + 5 ∧ left ≤ column ∧ column < left + 4) &&
        Font.lights digit (row - top) (column - left)) := by
  intro left top
  by_cases onScreen : row < Screen.height ∧ column < Screen.width
  · rw [state.pixel_draw p q _ onScreen.1 onScreen.2, dark, Screen.pixel_dark, Bool.false_xor]
    exact mask_of_glyph font isDigit points p q row column
  · have outside : ¬ (top ≤ row ∧ row < top + 5 ∧ left ≤ column ∧ column < left + 4) := by
      simp only [Screen.height, Screen.width] at onScreen
      omega
    rw [Screen.pixel_of_outside _ onScreen, decide_eq_false outside, Bool.false_and]

end

theorem flag_draw_of_dark (state : State) (dark : state.screen = Screen.dark) (p q height : Digit) :
    (state.draw p q height).v Registers.flagRegister = 0 := by
  rw [flag_draw_eq_zero_iff]
  rintro ⟨row, column, -, -, lit, -⟩
  rw [dark, Screen.pixel_dark] at lit
  exact Bool.noConfusion lit

end State

namespace Machine

variable (machine : Machine)

theorem state_obey_storeDecimal (x : Digit) :
    (machine.obey (Word.ofByte 0xF x 0x33)).state = machine.state.storeDecimal x := by
  change (machine.obey (Instruction.storeDecimal x).toWord).state = _
  rw [machine.state_obey_toWord rfl]
  rfl

theorem state_obey_fill (last : Digit) :
    (machine.obey (Word.ofByte 0xF last 0x65)).state = machine.state.fill last := by
  change (machine.obey (Instruction.fill last).toWord).state = _
  rw [machine.state_obey_toWord rfl]
  simp only [Instruction.execute]

theorem state_obey_pointToGlyph (x : Digit) :
    (machine.obey (Word.ofByte 0xF x 0x29)).state =
      machine.state.setIndex
        (Font.address + (machine.state.v x).toUInt16 * Font.glyphHeight) := by
  change (machine.obey (Instruction.pointToGlyph x).toWord).state = _
  rw [machine.state_obey_toWord rfl]
  rfl

end Machine

/-- Storing the decimal digits of a register and loading them gives three digits of which the
register's value is made, and the index register is past them. Where this does not touch the font,
pointing to one of them points into the font; and drawing five bytes from there to a dark screen,
whatever else has changed, lights the pixels of that digit's glyph and no others and leaves the flag
down. -/
theorem digits_become_glyphs (machine : Machine) (x : Digit)
    (font : machine.state.memory.HoldsFont)
    (fits : machine.state.registers.index.toNat + 2 < Memory.size)
    (apart : machine.state.registers.index.toNat + 2 < Font.address.toNat ∨
      Font.address.toNat + Font.glyphs.size ≤ machine.state.registers.index.toNat) :
    let before := machine.state
    let stored := machine.obey (Word.ofByte 0xF x 0x33)
    let loaded := stored.obey (Word.ofByte 0xF (Digit.ofNat 2) 0x65)
    let digit (register : Digit) := (loaded.state.v register).toNat
    (∀ register, register ≤ Digit.ofNat 2 → digit register ≤ 9) ∧
    100 * digit (Digit.ofNat 0) + 10 * digit (Digit.ofNat 1) + digit (Digit.ofNat 2) =
      (before.v x).toNat ∧
    loaded.state.registers.index.toNat = before.registers.index.toNat + 3 ∧
    ∀ register, register ≤ Digit.ofNat 2 →
      let pointed := loaded.obey (Word.ofByte 0xF register 0x29)
      let index := pointed.state.registers.index
      (Font.address.toNat ≤ index.toNat ∧
        index.toNat + 4 < Font.address.toNat + Font.glyphs.size) ∧
      pointed.state.memory.HoldsFont ∧ pointed.state.screen = before.screen ∧
      ∀ (between : Machine) (p q : Digit),
        let left := (between.state.v p).toNat % Screen.width
        let top := (between.state.v q).toNat % Screen.height
        between.state.memory.HoldsFont → between.state.registers.index = index →
        between.state.screen = Screen.dark → left ≤ 60 → top ≤ 27 →
        let drawn := (between.obey (Word.ofDigits 0xD p q 5)).state
        (∀ row column, drawn.screen.pixel row column =
          (decide (top ≤ row ∧ row < top + 5 ∧ left ≤ column ∧ column < left + 4) &&
            Font.lights (digit register) (row - top) (column - left))) ∧
        drawn.v Registers.flagRegister = 0 := by
  intro before stored loaded digit
  have reached : loaded.state = (before.storeDecimal x).fill (Digit.ofNat 2) := by
    rw [show loaded.state = _ from Machine.state_obey_fill _ _, machine.state_obey_storeDecimal]
  have digits {register : Digit} (within : register ≤ Digit.ofNat 2) :
      digit register = ((State.decimalDigits (before.v x))[register.val]?.getD 0).toNat := by
    rw [show digit register = (loaded.state.v register).toNat from rfl, reached,
      State.v_fill_storeDecimal fits within]
  have small {register : Digit} (within : register ≤ Digit.ofNat 2) : digit register ≤ 9 := by
    rw [digits within]
    exact State.toNat_decimalDigits_le ..
  refine ⟨fun register => small, ?sum, ?index, ?glyphs⟩
  case sum =>
    rw [digits (by decide), digits (by decide), digits (by decide)]
    exact State.decimalDigits_sum (before.v x)
  case index =>
    have bound : before.registers.index.toNat + 2 < 4096 := fits
    rw [reached, State.toNat_index_fill]
    change (before.registers.index.toNat + 2 + 1) % 65536 = before.registers.index.toNat + 3
    omega
  case glyphs =>
    intro register within pointed index
    have points : pointed.state =
        loaded.state.setIndex (Font.address + (loaded.state.v register).toUInt16 *
          Font.glyphHeight) :=
      loaded.state_obey_pointToGlyph register
    have target : index.toNat = Font.address.toNat + digit register * Font.glyphHeight.toNat := by
      change pointed.state.target = _
      rw [points]
      exact loaded.state.target_pointToGlyph register
    refine ⟨?_, ?_, ?_, ?_⟩
    · have bound := small within
      change index.toNat = 80 + digit register * 5 at target
      change 80 ≤ index.toNat ∧ index.toNat + 4 < 160
      omega
    · rw [points]
      change loaded.state.memory.HoldsFont
      rw [reached, State.memory_fill]
      exact State.holdsFont_storeDecimal font apart
    · rw [points]
      change loaded.state.screen = _
      rw [reached, State.screen_fill]
      rfl
    · intro between p q left top kept same dark roomRight roomBelow drawn
      have isDigit : digit register < 16 := Nat.lt_of_le_of_lt (small within) (by decide)
      have points : between.state.target = _ := (congrArg UInt16.toNat same).trans target
      have drew : drawn = between.state.draw p q (Digit.ofNat 5) :=
        between.state_obey_draw p q (Digit.ofNat 5)
      rw [drew]
      exact ⟨State.pixel_draw_glyph kept isDigit points p q dark roomRight roomBelow,
        between.state.flag_draw_of_dark dark p q _⟩

/-- A machine with 234 in V3 and room for three digits. -/
def beforeDigits : Machine :=
  ((Machine.start {} 0).run [.setIndex 0x300, .setRegister 3 234]).machine

def afterDigits : Machine :=
  (beforeDigits.obey (Word.ofByte 0xF (Digit.ofNat 3) 0x33)).obey
    (Word.ofByte 0xF (Digit.ofNat 2) 0x65)

/-- The machine that points to the glyph of the second digit. -/
def beforeGlyph : Machine :=
  afterDigits.obey (Word.ofByte 0xF (Digit.ofNat 1) 0x29)

theorem v_beforeGlyph (register : Digit) :
    beforeGlyph.state.v register = afterDigits.state.v register := by
  rw [beforeGlyph, Machine.state_obey_pointToGlyph, State.v_setIndex]

/-- The digits are 2, 3 and 4. The second one is drawn with the others as its corner: of its upper
bar the left end is lit, and in the row below only the right end of the bar. -/
theorem second_digit_shown :
    let drawn := (beforeGlyph.obey (Word.ofDigits 0xD (Digit.ofNat 0) (Digit.ofNat 2) 5)).state
    beforeDigits.state.memory.HoldsFont ∧
    beforeDigits.state.registers.index.toNat = 0x300 ∧
    beforeGlyph.state.memory.HoldsFont ∧ beforeGlyph.state.screen = Screen.dark ∧
    (afterDigits.state.v (Digit.ofNat 0)).toNat = 2 ∧
    (afterDigits.state.v (Digit.ofNat 1)).toNat = 3 ∧
    (afterDigits.state.v (Digit.ofNat 2)).toNat = 4 ∧
    drawn.screen.pixel 4 2 = true ∧ drawn.screen.pixel 5 2 = false ∧
    drawn.screen.pixel 5 5 = true ∧ drawn.v Registers.flagRegister = 0 := by
  intro drawn
  have font : beforeDigits.state.memory.HoldsFont := Memory.holdsFont_initial
  have index : beforeDigits.state.registers.index.toNat = 0x300 := rfl
  have value : (beforeDigits.state.v (Digit.ofNat 3)).toNat = 234 := by decide
  have dark : beforeDigits.state.screen = Screen.dark := rfl
  -- There is only one way to make 234 of three digits, so the machine need not be run.
  have only {a b c : Nat} (first : a ≤ 9) (second : b ≤ 9) (third : c ≤ 9)
      (sum : 100 * a + 10 * b + c = 234) : a = 2 ∧ b = 3 ∧ c = 4 := by omega
  obtain ⟨small, sum, -, glyphs⟩ := digits_become_glyphs beforeDigits (Digit.ofNat 3) font
    (by rw [index]; decide) (by rw [index]; decide)
  obtain ⟨first, second, third⟩ :=
    only (small _ (by decide)) (small _ (by decide)) (small _ (by decide)) (sum.trans value)
  replace first : (afterDigits.state.v (Digit.ofNat 0)).toNat = 2 := first
  replace second : (afterDigits.state.v (Digit.ofNat 1)).toNat = 3 := second
  replace third : (afterDigits.state.v (Digit.ofNat 2)).toNat = 4 := third
  obtain ⟨-, kept, screen, drawing⟩ := glyphs (Digit.ofNat 1) (by decide)
  have column : (beforeGlyph.state.v (Digit.ofNat 0)).toNat = 2 := by rw [v_beforeGlyph, first]
  have row : (beforeGlyph.state.v (Digit.ofNat 2)).toNat = 4 := by rw [v_beforeGlyph, third]
  obtain ⟨pixels, flag⟩ := drawing beforeGlyph (Digit.ofNat 0) (Digit.ofNat 2) kept rfl
    (screen.trans dark) (by rw [column]; decide) (by rw [row]; decide)
  rw [column, row] at pixels
  have shown (place number : Nat) : drawn.screen.pixel place number =
      (decide (4 ≤ place ∧ place < 9 ∧ 2 ≤ number ∧ number < 6) &&
        Font.lights 3 (place - 4) (number - 2)) := by
    rw [← second]
    exact pixels place number
  refine ⟨font, index, kept, screen.trans dark, first, second, third, ?_, ?_, ?_, flag⟩
  · exact (shown 4 2).trans (by decide)
  · exact (shown 5 2).trans (by decide)
  · exact (shown 5 5).trans (by decide)

end ChipEight
