import ChipEight.Proofs.Checked.Storage
import ChipEight.Proofs.Machine.Drawing

/-!
# Drawing, watched

A sprite is drawn by two loops, one over its rows and one over the bits of a row. Each ends early
where the screen does. A round of the inner loop shifts the sprite's byte by a difference and turns
over one pixel. The pixels that are turned over are all different, so that together the rounds
invert the picture under the whole sprite.
-/

namespace ChipEight

namespace Checked

/-- Go through numbers and the places they are away from a start, up to a place past an edge. -/
def untilEdge? {State : Type} (edge start : Nat) (round : State → Nat → Nat → Option State) :
    List Nat → State → Option State
  | [], state => some state
  | number :: later, state => do
    let place ← addSizes? start number
    if edge ≤ place then
      return state
    else
      let next ← round state number place
      untilEdge? edge start round later next

/-- Where no round fails, the loop goes through the numbers before the edge. -/
theorem untilEdge?_range' {State : Type} {edge start first count : Nat}
    {round : State → Nat → Nat → Option State} {plain : State → Nat → State}
    (small : start + (first + count) < sizeLimit)
    (sound : ∀ number, number < first + count → ∀ state,
      round state number (start + number) = some (plain state number)) (state : State) :
    untilEdge? edge start round (List.range' first count) state =
      some (((List.range' first count).filter (start + · < edge)).foldl plain state) := by
  induction count generalizing first state with
  | zero => rfl
  | succ count ih =>
      have place : addSizes? start first = some (start + first) := addSizes?_of_lt (by omega)
      simp only [List.range'_succ, untilEdge?, place, Option.bind_eq_bind, Option.bind_some]
      by_cases past : edge ≤ start + first
      -- The numbers grow, so that none of the later ones is before the edge either.
      · have nothing : (first :: List.range' (first + 1) count).filter (start + · < edge) = [] := by
          rw [List.filter_eq_nil_iff]
          intro number member
          have after : first ≤ number := by
            rcases List.mem_cons.mp member with rfl | later
            · exact Nat.le_refl _
            · have := (List.mem_range'_1.mp later).1
              omega
          simp only [decide_eq_true_eq]
          omega
        rw [if_pos past, nothing]
        rfl
      · have before : decide (start + first < edge) = true := by
          simp only [decide_eq_true_eq]
          omega
        rw [if_neg past, sound first (by omega), List.filter_cons, if_pos before,
          List.foldl_cons]
        exact ih (by omega) (fun number below => sound number (by omega)) _

end Checked

open Checked

/-- A picture in the course of drawing, and whether a lit pixel was darkened. -/
@[ext]
structure Drawing where
  screen : Screen
  collision : Bool

namespace Drawing

/-- Turn over the pixel at a place, a row and a column. -/
def flip (drawing : Drawing) (place : Nat × Nat) : Drawing :=
  if drawing.screen.pixel place.1 place.2 then
    ⟨drawing.screen.setPixel place.1 place.2 false, true⟩
  else
    ⟨drawing.screen.setPixel place.1 place.2 true, drawing.collision⟩

def onScreen (place : Nat × Nat) : Prop :=
  place.1 < Screen.height ∧ place.2 < Screen.width

theorem pixel_flip (drawing : Drawing) {place : Nat × Nat} (within : onScreen place)
    (row column : Nat) :
    (drawing.flip place).screen.pixel row column =
      (drawing.screen.pixel row column ^^ decide ((row, column) = place)) := by
  obtain ⟨top, left⟩ := place
  unfold flip
  split
  · next lit =>
      rw [Screen.pixel_setPixel _ within.1 within.2]
      by_cases same : row = top ∧ column = left
      · obtain ⟨rfl, rfl⟩ := same
        simpa using lit
      · simp [same]
  · next dark =>
      rw [Screen.pixel_setPixel _ within.1 within.2]
      by_cases same : row = top ∧ column = left
      · obtain ⟨rfl, rfl⟩ := same
        simpa using dark
      · simp [same]

theorem collision_flip (drawing : Drawing) (place : Nat × Nat) :
    (drawing.flip place).collision =
      (drawing.collision || drawing.screen.pixel place.1 place.2) := by
  unfold flip
  split <;> simp_all

variable {places : List (Nat × Nat)}

/-- Turning over different pixels inverts each of them. -/
theorem pixel_flips (distinct : places.Nodup) (within : ∀ place ∈ places, onScreen place)
    (drawing : Drawing) (row column : Nat) :
    (places.foldl flip drawing).screen.pixel row column =
      (drawing.screen.pixel row column ^^ decide ((row, column) ∈ places)) := by
  induction places generalizing drawing with
  | nil => simp
  | cons place later ih =>
      obtain ⟨new, distinct⟩ := List.nodup_cons.mp distinct
      have laterWithin : ∀ other ∈ later, onScreen other := fun other member =>
        within other (List.mem_cons_of_mem _ member)
      rw [List.foldl_cons, ih distinct laterWithin,
        drawing.pixel_flip (within place List.mem_cons_self)]
      by_cases same : (row, column) = place
      · subst same
        simp [new]
      · simp [same]

/-- There is a collision if one of the pixels was lit before any was turned over. -/
theorem collision_flips (distinct : places.Nodup) (within : ∀ place ∈ places, onScreen place)
    (drawing : Drawing) :
    (places.foldl flip drawing).collision = true ↔
      drawing.collision = true ∨
        ∃ row column, drawing.screen.pixel row column = true ∧ (row, column) ∈ places := by
  induction places generalizing drawing with
  | nil => simp
  | cons place later ih =>
      obtain ⟨new, distinct⟩ := List.nodup_cons.mp distinct
      -- The first round leaves the later places alone, so it does not matter that they are looked
      -- at after it.
      have apart {row column : Nat} (member : (row, column) ∈ later) :
          (drawing.flip place).screen.pixel row column = drawing.screen.pixel row column := by
        have different : (row, column) ≠ place := fun same => new (same ▸ member)
        rw [drawing.pixel_flip (within place List.mem_cons_self), decide_eq_false different,
          Bool.xor_false]
      have laterWithin : ∀ other ∈ later, onScreen other := fun other member =>
        within other (List.mem_cons_of_mem _ member)
      rw [List.foldl_cons, ih distinct laterWithin,
        collision_flip, Bool.or_eq_true]
      constructor
      · rintro ((already | lit) | ⟨row, column, lit, member⟩)
        · exact .inl already
        · exact .inr ⟨place.1, place.2, lit, List.mem_cons_self⟩
        · exact .inr ⟨row, column, apart member ▸ lit, List.mem_cons_of_mem _ member⟩
      · rintro (already | ⟨row, column, lit, member⟩)
        · exact .inl (.inl already)
        · rcases List.mem_cons.mp member with same | member
          · exact .inl (.inr (same ▸ lit))
          · exact .inr ⟨row, column, (apart member).trans lit, member⟩

/-! ### One byte of a sprite -/

/-- Draw one bit of a byte to a place, if it is set. -/
def drawBit? (byte : UInt8) (row : Nat) (drawing : Drawing) (bit column : Nat) :
    Option Drawing := do
  let amount ← subtractSizes? 7 bit
  let shifted ← shiftByteRight? byte amount
  return if shifted &&& 1 = 0 then drawing else drawing.flip (row, column)

/-- Draw a byte into a row, bit by bit from the left. -/
def drawByte? (byte : UInt8) (row left : Nat) (drawing : Drawing) : Option Drawing :=
  untilEdge? Screen.width left (drawBit? byte row) (List.range 8) drawing

/-- The places on the screen that the set bits of a byte are drawn to. -/
def bytePlaces (byte : UInt8) (row left : Nat) : List (Nat × Nat) :=
  (((List.range 8).filter (left + · < Screen.width)).filter (Sprite.bit byte)).map
    fun bit => (row, left + bit)

theorem shifted_and_one_eq_zero_iff (byte : UInt8) {amount : Nat} (small : amount < 8) :
    byte >>> UInt8.ofNat amount &&& 1 = 0 ↔ byte.toNat.testBit amount = false := by
  have reduced : amount % 256 % 8 = amount := by omega
  rw [← UInt8.toNat_inj, UInt8.toNat_and, UInt8.toNat_shiftRight, UInt8.toNat_ofNat', Nat.testBit,
    Nat.and_comm]
  simp [reduced]

theorem drawBit?_eq (byte : UInt8) (row : Nat) (drawing : Drawing) {bit : Nat} (inByte : bit < 8)
    (column : Nat) :
    drawBit? byte row drawing bit column =
      some (if Sprite.bit byte bit then drawing.flip (row, column) else drawing) := by
  have amount : 7 - bit < 8 := by omega
  simp only [drawBit?, subtractSizes?_of_le (Nat.le_of_lt_succ inByte),
    shiftByteRight?_of_lt amount, Option.bind_eq_bind, Option.bind_some,
    shifted_and_one_eq_zero_iff byte amount, Sprite.bit]
  by_cases set : byte.toNat.testBit (7 - bit) = true
  · simp [set]
  · simp [set]

theorem drawByte?_eq (byte : UInt8) (row : Nat) {left : Nat} (inRow : left < Screen.width)
    (drawing : Drawing) :
    drawByte? byte row left drawing = some ((bytePlaces byte row left).foldl flip drawing) := by
  have small : left + (0 + 8) < sizeLimit := Nat.lt_trans (Nat.add_lt_add_right inRow 8) (by decide)
  have sound (bit : Nat) (inByte : bit < 0 + 8) (drawing : Drawing) :=
    drawBit?_eq byte row drawing (Nat.zero_add 8 ▸ inByte) (left + bit)
  rw [drawByte?, List.range_eq_range', untilEdge?_range' small sound, bytePlaces, List.foldl_map,
    List.foldl_filter, List.range_eq_range', List.foldl_filter, List.foldl_filter]

theorem mem_bytePlaces {byte : UInt8} {row left : Nat} {place : Nat × Nat} :
    place ∈ bytePlaces byte row left ↔
      place.1 = row ∧ left ≤ place.2 ∧ place.2 < left + 8 ∧ place.2 < Screen.width ∧
        Sprite.bit byte (place.2 - left) = true := by
  obtain ⟨top, column⟩ := place
  simp only [bytePlaces, List.mem_map, List.mem_filter, List.mem_range, decide_eq_true_eq,
    Prod.mk.injEq]
  constructor
  · rintro ⟨bit, ⟨⟨inByte, inRow⟩, set⟩, rfl, rfl⟩
    refine ⟨rfl, Nat.le_add_right .., Nat.add_lt_add_left inByte _, inRow, ?_⟩
    rwa [Nat.add_sub_cancel_left]
  · rintro ⟨rfl, after, inByte, inRow, set⟩
    have back : left + (column - left) = column := Nat.add_sub_of_le after
    exact ⟨column - left, ⟨⟨by omega, back.symm ▸ inRow⟩, set⟩, rfl, back⟩

theorem nodup_bytePlaces (byte : UInt8) (row left : Nat) : (bytePlaces byte row left).Nodup := by
  have ordered : (List.range 8).Pairwise (· < ·) := List.pairwise_lt_range
  have increasing := (ordered.filter (left + · < Screen.width)).filter (Sprite.bit byte)
  refine List.pairwise_map.mpr (increasing.imp ?_)
  intro first second less same
  have columns := congrArg Prod.snd same
  simp only at columns
  omega

/-! ### All bytes of a sprite -/

/-- Draw one byte from memory into its row. -/
def drawRow? (memory : Memory) (target left : Nat) (drawing : Drawing) (number row : Nat) :
    Option Drawing := do
  let address ← addSizes? target number
  drawByte? (memory.read address) row left drawing

/-- Draw the bytes from an address on, row by row from the top. -/
def drawRows? (memory : Memory) (target top left height : Nat) (drawing : Drawing) :
    Option Drawing :=
  untilEdge? Screen.height top (drawRow? memory target left) (List.range height) drawing

/-- The places on the screen that the set bits of a sprite are drawn to. -/
def spritePlaces (memory : Memory) (target top left height : Nat) : List (Nat × Nat) :=
  ((List.range height).filter (top + · < Screen.height)).flatMap fun number =>
    bytePlaces (memory.read (target + number)) (top + number) left

theorem drawRows?_eq (memory : Memory) (index : UInt16) {top left height : Nat}
    (onScreen : top < Screen.height) (inRow : left < Screen.width) (short : height < 16)
    (drawing : Drawing) :
    drawRows? memory index.toNat top left height drawing =
      some ((spritePlaces memory index.toNat top left height).foldl flip drawing) := by
  have sound (number : Nat) (inSprite : number < 0 + height) (drawing : Drawing) :
      drawRow? memory index.toNat left drawing number (top + number) =
        some ((bytePlaces (memory.read (index.toNat + number)) (top + number) left).foldl flip
          drawing) := by
    have address : number < wordLimit := by
      simp only [wordLimit]
      omega
    rw [drawRow?, addSizes?_word index address]
    exact drawByte?_eq _ _ inRow drawing
  have small : top + (0 + height) < sizeLimit := by
    simp only [sizeLimit, Screen.height] at *
    omega
  rw [drawRows?, List.range_eq_range', untilEdge?_range' small sound, spritePlaces,
    List.foldl_flatMap, List.range_eq_range']

theorem mem_spritePlaces {memory : Memory} {target top left height : Nat} {place : Nat × Nat} :
    place ∈ spritePlaces memory target top left height ↔
      top ≤ place.1 ∧ place.1 < top + height ∧ place.1 < Screen.height ∧
        left ≤ place.2 ∧ place.2 < left + 8 ∧ place.2 < Screen.width ∧
        Sprite.bit (memory.read (target + (place.1 - top))) (place.2 - left) = true := by
  simp only [spritePlaces, List.mem_flatMap, List.mem_filter, List.mem_range, decide_eq_true_eq,
    mem_bytePlaces]
  constructor
  · rintro ⟨number, ⟨inSprite, onScreen⟩, row, byte⟩
    rw [row, Nat.add_sub_cancel_left]
    exact ⟨Nat.le_add_right .., Nat.add_lt_add_left inSprite _, onScreen, byte⟩
  · rintro ⟨below, inSprite, onScreen, byte⟩
    have back : top + (place.1 - top) = place.1 := Nat.add_sub_of_le below
    exact ⟨place.1 - top, ⟨by omega, back.symm ▸ onScreen⟩, back.symm, byte⟩

theorem nodup_spritePlaces (memory : Memory) (target top left height : Nat) :
    (spritePlaces memory target top left height).Nodup := by
  have ordered : (List.range height).Pairwise (· < ·) := List.pairwise_lt_range
  have increasing := ordered.filter (top + · < Screen.height)
  refine List.pairwise_flatMap.mpr ⟨fun number _ => nodup_bytePlaces .., increasing.imp ?_⟩
  rintro first second less place inFirst _ inSecond rfl
  have firstRow := (mem_bytePlaces.mp inFirst).1
  have secondRow := (mem_bytePlaces.mp inSecond).1
  omega

theorem onScreen_of_mem_spritePlaces {memory : Memory} {target top left height : Nat}
    (place : Nat × Nat) (member : place ∈ spritePlaces memory target top left height) :
    onScreen place := by
  obtain ⟨-, -, rowInside, -, -, columnInside, -⟩ := mem_spritePlaces.mp member
  exact ⟨rowInside, columnInside⟩

end Drawing

namespace State

variable (state : State) (x y height : Digit)

/-- Draw a sprite from memory, its corner brought onto the screen by two remainders. -/
def draw? : Option State := do
  let left ← remainder? (state.v x).toNat Screen.width
  let top ← remainder? (state.v y).toNat Screen.height
  let drawn ← Drawing.drawRows? state.memory state.target top left height.val ⟨state.screen, false⟩
  let registers ← state.registers.setFlag? drawn.collision
  return { state with screen := drawn.screen, registers := registers, redraw := true }

/-- The places that a sprite is drawn to, one after the other. -/
def places : List (Nat × Nat) :=
  Drawing.spritePlaces state.memory state.target ((state.v y).toNat % Screen.height)
    ((state.v x).toNat % Screen.width) height.val

/-- A sprite is drawn to the places of the screen that are under its mask. -/
theorem mem_places_iff {row column : Nat} :
    (row, column) ∈ state.places x y height ↔
      row < Screen.height ∧ column < Screen.width ∧ state.mask x y height row column = true := by
  simp only [places, Drawing.mem_spritePlaces, mask, Bool.and_eq_true, decide_eq_true_eq]
  constructor
  · rintro ⟨below, inSprite, onScreen, after, inByte, inRow, set⟩
    exact ⟨onScreen, inRow, ⟨below, inSprite, after, inByte⟩, set⟩
  · rintro ⟨onScreen, inRow, ⟨below, inSprite, after, inByte⟩, set⟩
    exact ⟨below, inSprite, onScreen, after, inByte, inRow, set⟩

/-- Turned over one after the other, the places of a sprite are the sprite drawn at once. -/
theorem flips_places :
    (state.places x y height).foldl Drawing.flip ⟨state.screen, false⟩ =
      ⟨state.screen.invert (state.sprite x y height),
        state.screen.meets (state.sprite x y height)⟩ := by
  have distinct : (state.places x y height).Nodup := Drawing.nodup_spritePlaces ..
  have within : ∀ place ∈ state.places x y height, Drawing.onScreen place :=
    Drawing.onScreen_of_mem_spritePlaces
  have pixel := Drawing.pixel_flips distinct within ⟨state.screen, false⟩
  have collision := Drawing.collision_flips distinct within ⟨state.screen, false⟩
  simp only [mem_places_iff] at pixel collision
  refine Drawing.ext ?_ ?_
  · apply Screen.ext_pixel
    intro row column onScreen inRow
    rw [pixel, Screen.pixel_invert, state.pixel_sprite x y height onScreen inRow]
    simp [onScreen, inRow]
  · rw [Bool.eq_iff_iff, state.meets_sprite_iff, collision]
    constructor
    · rintro (never | ⟨row, column, lit, onScreen, inRow, under⟩)
      · exact Bool.noConfusion never
      · exact ⟨row, column, onScreen, inRow, lit, under⟩
    · rintro ⟨row, column, onScreen, inRow, lit, under⟩
      exact .inr ⟨row, column, lit, onScreen, inRow, under⟩

theorem draw?_eq : state.draw? x y height = some (state.draw x y height) := by
  have inRow : (state.v x).toNat % Screen.width < Screen.width := Nat.mod_lt _ (by decide)
  have onScreen : (state.v y).toNat % Screen.height < Screen.height := Nat.mod_lt _ (by decide)
  have wide : Screen.width ≠ 0 := by decide
  have high : Screen.height ≠ 0 := by decide
  have rows := Drawing.drawRows?_eq state.memory state.registers.index onScreen inRow height.isLt
    ⟨state.screen, false⟩
  rw [draw?, remainder?_of_ne_zero wide, remainder?_of_ne_zero high]
  simp only [target, rows, Option.bind_eq_bind, Option.bind_some]
  rw [← target, ← places, flips_places]
  simp only [Registers.setFlag?_eq]
  rfl

end State

end ChipEight
