import ChipEight.Proofs.Instruction.Words
import Mathlib.Data.List.Pairwise

/-!
# Patterns of words

Instructions are listed by patterns of four hexadecimal digits, such as 8XY6 or FX1E: some digits
are given and the others belong to operands. This file has the list of the 34 patterns, each with
the instruction that is read from a word of that pattern. No word has two of the patterns, so it
does not matter in which order they are tried, and decoding finds exactly what the list says.
-/

namespace ChipEight

/-- A pattern of four hexadecimal digits. A digit that is not given belongs to an operand. -/
structure Pattern where
  first : Nat
  second : Option Nat
  third : Option Nat
  fourth : Option Nat
  deriving DecidableEq, Repr

namespace Pattern

/-- A word has a pattern if it has the digits that are given. -/
structure Matches (pattern : Pattern) (word : UInt16) : Prop where
  first_eq : Word.family word = pattern.first
  second_eq : ∀ digit ∈ pattern.second, (Word.x word).val = digit
  third_eq : ∀ digit ∈ pattern.third, (Word.y word).val = digit
  fourth_eq : ∀ digit ∈ pattern.fourth, (Word.last word).val = digit

/-- One word alone. -/
def ofWhole (word : UInt16) : Pattern :=
  ⟨Word.family word, some (Word.x word).val, some (Word.y word).val, some (Word.last word).val⟩

/-- All words with a first digit. -/
def ofFamily (first : Nat) : Pattern := ⟨first, none, none, none⟩

/-- All words with a first and a last digit. -/
def ofLast (first last : Nat) : Pattern := ⟨first, none, none, some last⟩

/-- All words with a first digit and a low byte. -/
def ofByte (first byte : Nat) : Pattern := ⟨first, none, some (byte / 16), some (byte % 16)⟩

/-- Whether two places of patterns ask for different digits. -/
def differ : Option Nat → Option Nat → Bool
  | some digit, some other => digit != other
  | _, _ => false

/-- Whether two patterns ask for different digits at some place. -/
def excludes (first second : Pattern) : Bool :=
  first.first != second.first || differ first.second second.second ||
    differ first.third second.third || differ first.fourth second.fourth

theorem differ_comm (place other : Option Nat) : differ place other = differ other place := by
  cases place with
  | none => cases other <;> rfl
  | some digit =>
      cases other with
      | none => rfl
      | some wanted => exact bne_comm

theorem excludes_comm (first second : Pattern) :
    first.excludes second = second.excludes first := by
  simp only [excludes, differ_comm first.second, differ_comm first.third,
    differ_comm first.fourth, bne_comm (a := first.first)]

variable {word : UInt16} {first second : Pattern}

@[simp]
theorem matches_ofFamily_iff {family : Nat} :
    (ofFamily family).Matches word ↔ Word.family word = family := by
  constructor
  · exact Matches.first_eq
  · intro same
    exact ⟨same, by simp [ofFamily], by simp [ofFamily], by simp [ofFamily]⟩

@[simp]
theorem matches_ofLast_iff {family last : Nat} :
    (ofLast family last).Matches word ↔
      Word.family word = family ∧ (Word.last word).val = last := by
  constructor
  · intro fits
    exact ⟨fits.first_eq, fits.fourth_eq last rfl⟩
  · rintro ⟨same, lastSame⟩
    exact ⟨same, by simp [ofLast], by simp [ofLast], by simpa [ofLast] using lastSame⟩

@[simp]
theorem matches_ofByte_iff {family byte : Nat} :
    (ofByte family byte).Matches word ↔
      Word.family word = family ∧ (Word.byte word).toNat = byte := by
  have digits := Word.toNat_byte word
  constructor
  · intro fits
    have third := fits.third_eq _ rfl
    have fourth := fits.fourth_eq _ rfl
    refine ⟨fits.first_eq, ?_⟩
    rw [digits, third, fourth, Nat.div_add_mod']
  · rintro ⟨same, byteSame⟩
    have bound := (Word.last word).isLt
    refine ⟨same, by simp [ofByte], ?_, ?_⟩
    · rintro digit ⟨⟩
      omega
    · rintro digit ⟨⟩
      omega

@[simp]
theorem matches_ofWhole_iff {whole : UInt16} :
    (ofWhole whole).Matches word ↔ word = whole := by
  constructor
  · intro fits
    have second := fits.second_eq _ rfl
    have third := fits.third_eq _ rfl
    have fourth := fits.fourth_eq _ rfl
    rw [← UInt16.toNat_inj, Word.toNat_eq, Word.toNat_eq whole, fits.first_eq, second, third,
      fourth]
    rfl
  · rintro rfl
    exact ⟨rfl, fun _ same => Option.some.inj same, fun _ same => Option.some.inj same,
      fun _ same => Option.some.inj same⟩

theorem not_matches_of_differ {digit : Nat} {place other : Option Nat}
    (apart : differ place other = true) (same : ∀ wanted ∈ place, digit = wanted) :
    ¬ ∀ wanted ∈ other, digit = wanted := by
  intro also
  cases place with
  | none => cases apart
  | some wanted =>
      cases other with
      | none => cases apart
      | some wantedToo =>
          have first := same wanted rfl
          have second := also wantedToo rfl
          simp [differ, ← first, ← second] at apart

theorem not_matches_of_excludes (apart : first.excludes second = true)
    (fits : first.Matches word) : ¬ second.Matches word := by
  intro also
  simp only [excludes, Bool.or_eq_true, bne_iff_ne] at apart
  rcases apart with ((family | place) | place) | place
  · exact family (fits.first_eq.symm.trans also.first_eq)
  · exact not_matches_of_differ place fits.second_eq also.second_eq
  · exact not_matches_of_differ place fits.third_eq also.third_eq
  · exact not_matches_of_differ place fits.fourth_eq also.fourth_eq

end Pattern

namespace Instruction

/-- A line of the list of instructions: a pattern, and the instruction that is read from a word
of this pattern. -/
structure Line where
  pattern : Pattern
  read : UInt16 → Instruction

/-- The list of the instructions. -/
def table : List Line :=
  [⟨.ofWhole 0x00E0, fun _ => .clear⟩,
    ⟨.ofWhole 0x00EE, fun _ => .leave⟩,
    ⟨.ofFamily 0x1, fun word => .jump (Word.address word)⟩,
    ⟨.ofFamily 0x2, fun word => .call (Word.address word)⟩,
    ⟨.ofFamily 0x3, fun word => .skipIfValue (Word.x word) (Word.byte word)⟩,
    ⟨.ofFamily 0x4, fun word => .skipUnlessValue (Word.x word) (Word.byte word)⟩,
    ⟨.ofLast 0x5 0x0, fun word => .skipIfEqual (Word.x word) (Word.y word)⟩,
    ⟨.ofFamily 0x6, fun word => .put (Word.x word) (Word.byte word)⟩,
    ⟨.ofFamily 0x7, fun word => .increase (Word.x word) (Word.byte word)⟩,
    ⟨.ofLast 0x8 0x0, fun word => .copy (Word.x word) (Word.y word)⟩,
    ⟨.ofLast 0x8 0x1, fun word => .or (Word.x word) (Word.y word)⟩,
    ⟨.ofLast 0x8 0x2, fun word => .and (Word.x word) (Word.y word)⟩,
    ⟨.ofLast 0x8 0x3, fun word => .xor (Word.x word) (Word.y word)⟩,
    ⟨.ofLast 0x8 0x4, fun word => .add (Word.x word) (Word.y word)⟩,
    ⟨.ofLast 0x8 0x5, fun word => .subtract (Word.x word) (Word.y word)⟩,
    ⟨.ofLast 0x8 0x6, fun word => .shiftRight (Word.x word) (Word.y word)⟩,
    ⟨.ofLast 0x8 0x7, fun word => .subtractReversed (Word.x word) (Word.y word)⟩,
    ⟨.ofLast 0x8 0xE, fun word => .shiftLeft (Word.x word) (Word.y word)⟩,
    ⟨.ofLast 0x9 0x0, fun word => .skipUnlessEqual (Word.x word) (Word.y word)⟩,
    ⟨.ofFamily 0xA, fun word => .point (Word.address word)⟩,
    ⟨.ofFamily 0xB, fun word => .jumpBeyond (Word.address word)⟩,
    ⟨.ofFamily 0xC, fun word => .random (Word.x word) (Word.byte word)⟩,
    ⟨.ofFamily 0xD, fun word => .draw (Word.x word) (Word.y word) (Word.last word)⟩,
    ⟨.ofByte 0xE 0x9E, fun word => .skipIfDown (Word.x word)⟩,
    ⟨.ofByte 0xE 0xA1, fun word => .skipUnlessDown (Word.x word)⟩,
    ⟨.ofByte 0xF 0x07, fun word => .readDelay (Word.x word)⟩,
    ⟨.ofByte 0xF 0x0A, fun word => .awaitKey (Word.x word)⟩,
    ⟨.ofByte 0xF 0x15, fun word => .setDelay (Word.x word)⟩,
    ⟨.ofByte 0xF 0x18, fun word => .setSound (Word.x word)⟩,
    ⟨.ofByte 0xF 0x1E, fun word => .pointBeyond (Word.x word)⟩,
    ⟨.ofByte 0xF 0x29, fun word => .pointToGlyph (Word.x word)⟩,
    ⟨.ofByte 0xF 0x33, fun word => .storeDecimal (Word.x word)⟩,
    ⟨.ofByte 0xF 0x55, fun word => .spill (Word.x word)⟩,
    ⟨.ofByte 0xF 0x65, fun word => .fill (Word.x word)⟩]

theorem table_pairwise_excludes :
    table.Pairwise fun first second => first.pattern.excludes second.pattern = true := by
  decide

variable {word : UInt16} {instruction : Instruction}

/-- A word of a listed pattern stands for the instruction that is read from it. -/
theorem standsFor_of_matches {line : Line} (listed : line ∈ table)
    (fits : line.pattern.Matches word) : Word.StandsFor word (line.read word) := by
  revert line
  simp only [table, List.forall_mem_cons, Pattern.matches_ofWhole_iff,
    Pattern.matches_ofFamily_iff, Pattern.matches_ofLast_iff, Pattern.matches_ofByte_iff]
  exact ⟨.clear, .leave, .jump, .call, .skipIfValue, .skipUnlessValue,
    fun fits => .skipIfEqual fits.1 fits.2, .put, .increase,
    fun fits => .copy fits.1 fits.2, fun fits => .or fits.1 fits.2,
    fun fits => .and fits.1 fits.2, fun fits => .xor fits.1 fits.2,
    fun fits => .add fits.1 fits.2, fun fits => .subtract fits.1 fits.2,
    fun fits => .shiftRight fits.1 fits.2, fun fits => .subtractReversed fits.1 fits.2,
    fun fits => .shiftLeft fits.1 fits.2, fun fits => .skipUnlessEqual fits.1 fits.2,
    .point, .jumpBeyond, .random, .draw,
    fun fits => .skipIfDown fits.1 fits.2, fun fits => .skipUnlessDown fits.1 fits.2,
    fun fits => .readDelay fits.1 fits.2, fun fits => .awaitKey fits.1 fits.2,
    fun fits => .setDelay fits.1 fits.2, fun fits => .setSound fits.1 fits.2,
    fun fits => .pointBeyond fits.1 fits.2, fun fits => .pointToGlyph fits.1 fits.2,
    fun fits => .storeDecimal fits.1 fits.2, fun fits => .spill fits.1 fits.2,
    fun fits => .fill fits.1 fits.2, fun _ absent => absurd absent List.not_mem_nil⟩

theorem exists_pattern_of_standsFor (stands : Word.StandsFor word instruction) :
    ∃ pattern ∈ table.map Line.pattern, pattern.Matches word := by
  cases stands with
  | clear whole | leave whole =>
      exact ⟨.ofWhole _, by decide, Pattern.matches_ofWhole_iff.mpr whole⟩
  | skipIfEqual family last | skipUnlessEqual family last | copy family last | or family last
  | and family last | xor family last | add family last | subtract family last
  | shiftRight family last | subtractReversed family last | shiftLeft family last =>
      exact ⟨.ofLast _ _, by decide, Pattern.matches_ofLast_iff.mpr ⟨family, last⟩⟩
  | skipIfDown family byte | skipUnlessDown family byte | readDelay family byte
  | awaitKey family byte | setDelay family byte | setSound family byte | pointBeyond family byte
  | pointToGlyph family byte | storeDecimal family byte | spill family byte | fill family byte =>
      exact ⟨.ofByte _ _, by decide, Pattern.matches_ofByte_iff.mpr ⟨family, byte⟩⟩
  | _ family => exact ⟨.ofFamily _, by decide, Pattern.matches_ofFamily_iff.mpr family⟩

/-- Decoding finds what a line of the list says, and nothing else. -/
theorem ofWord?_eq_some_iff_line :
    ofWord? word = some instruction ↔
      ∃ line ∈ table, line.pattern.Matches word ∧ line.read word = instruction := by
  constructor
  · intro decoded
    have stands := standsFor_of_ofWord? decoded
    obtain ⟨pattern, listed, fits⟩ := exists_pattern_of_standsFor stands
    obtain ⟨line, member, rfl⟩ := List.mem_map.mp listed
    exact ⟨line, member, fits, standsFor_unique (standsFor_of_matches member fits) stands⟩
  · rintro ⟨line, member, fits, rfl⟩
    exact ofWord?_of_standsFor (standsFor_of_matches member fits)

theorem ofWord?_eq_none_iff :
    ofWord? word = none ↔ ∀ line ∈ table, ¬ line.pattern.Matches word := by
  rw [Option.eq_none_iff_forall_ne_some]
  constructor
  · intro unknown line member fits
    exact unknown _ (ofWord?_eq_some_iff_line.mpr ⟨line, member, fits, rfl⟩)
  · intro unlisted instruction decoded
    obtain ⟨line, member, fits, -⟩ := ofWord?_eq_some_iff_line.mp decoded
    exact unlisted line member fits

/-- No word has the patterns of two lines. -/
theorem line_unique {first second : Line} (firstListed : first ∈ table)
    (secondListed : second ∈ table) (firstFits : first.pattern.Matches word)
    (secondFits : second.pattern.Matches word) : first = second := by
  by_contra different
  have symmetric : Std.Symm fun first second : Line =>
      first.pattern.excludes second.pattern = true :=
    ⟨fun first second apart => (second.pattern.excludes_comm first.pattern).trans apart⟩
  have apart := table_pairwise_excludes.forall firstListed secondListed different
  exact Pattern.not_matches_of_excludes apart firstFits secondFits

end Instruction

end ChipEight
