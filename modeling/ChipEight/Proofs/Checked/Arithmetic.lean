import ChipEight.Digit

/-!
# Arithmetic that is watched

Many operations of the machine wrap around, stop at a bound or look up a place that need not exist;
those have a result for any operands. The others rely on operands that are small enough. Here each
operation of the second kind has a form that gives nothing when its operands are not: when a sum
leaves its type, a subtraction goes below zero, a divisor is zero, a shift is as wide as its type,
or a place is outside the array.
-/

namespace ChipEight.Checked

/-- How many numbers there are of sixteen bits. -/
abbrev wordLimit : Nat := 0x10000

/-- How many addresses and sizes there are, which have sixty-four bits. -/
abbrev sizeLimit : Nat := 0x10000000000000000

def addWords? (first second : UInt16) : Option UInt16 :=
  if first.toNat + second.toNat < wordLimit then some (first + second) else none

def multiplyWords? (first second : UInt16) : Option UInt16 :=
  if first.toNat * second.toNat < wordLimit then some (first * second) else none

def shiftWordLeft? (word amount : UInt16) : Option UInt16 :=
  if amount.toNat < 16 then some (word <<< amount) else none

def addSizes? (first second : Nat) : Option Nat :=
  if first + second < sizeLimit then some (first + second) else none

def subtractSizes? (first second : Nat) : Option Nat :=
  if second ≤ first then some (first - second) else none

/-- Move the bits of a byte to the right by an amount that is itself a size. -/
def shiftByteRight? (byte : UInt8) (amount : Nat) : Option UInt8 :=
  if amount < 8 then some (byte >>> UInt8.ofNat amount) else none

def shiftByteLeft? (byte : UInt8) (amount : Nat) : Option UInt8 :=
  if amount < 8 then some (byte <<< UInt8.ofNat amount) else none

section Division

variable {Number : Type} [DecidableEq Number] [OfNat Number 0]

def quotient? [Div Number] (dividend divisor : Number) : Option Number :=
  if divisor = 0 then none else some (dividend / divisor)

def remainder? [Mod Number] (dividend divisor : Number) : Option Number :=
  if divisor = 0 then none else some (dividend % divisor)

theorem quotient?_of_ne_zero [Div Number] {dividend divisor : Number} (nonzero : divisor ≠ 0) :
    quotient? dividend divisor = some (dividend / divisor) :=
  if_neg nonzero

theorem remainder?_of_ne_zero [Mod Number] {dividend divisor : Number} (nonzero : divisor ≠ 0) :
    remainder? dividend divisor = some (dividend % divisor) :=
  if_neg nonzero

end Division

section Arrays

variable {size : Nat}

/-- Replace the value at a place that has to be one of the array's. -/
def replace? {Value : Type} (cells : Vector Value size) (place : Nat) (value : Value) :
    Option (Vector Value size) :=
  if place < size then some (cells.setIfInBounds place value) else none

/-- The bytes of a block from a first place up to another. -/
def slice? (block : Array UInt8) (first past : Nat) : Option (Array UInt8) :=
  if first ≤ past ∧ past ≤ block.size then some (block.extract first past) else none

/-- Copy a block over the cells from a first place up to another, which have to be as many. -/
def overwrite? (cells : Vector UInt8 size) (first past : Nat) (block : Array UInt8) :
    Option (Vector UInt8 size) :=
  if fits : (first ≤ past ∧ past ≤ size) ∧ past - first = block.size then
    some ⟨cells.toArray.extract 0 first ++ block ++ cells.toArray.extract past size, by
      simp only [Array.size_append, Array.size_extract, Vector.size_toArray]
      omega⟩
  else
    none

theorem replace?_of_lt {Value : Type} {cells : Vector Value size} {place : Nat} {value : Value}
    (within : place < size) :
    replace? cells place value = some (cells.setIfInBounds place value) :=
  if_pos within

theorem slice?_of_le {block : Array UInt8} {first past : Nat} (ordered : first ≤ past)
    (within : past ≤ block.size) : slice? block first past = some (block.extract first past) :=
  if_pos ⟨ordered, within⟩

end Arrays

theorem addWords?_of_lt {first second : UInt16}
    (small : first.toNat + second.toNat < wordLimit) :
    addWords? first second = some (first + second) :=
  if_pos small

example : addWords? 0xFFFF 1 = none := by decide

theorem multiplyWords?_of_lt {first second : UInt16}
    (small : first.toNat * second.toNat < wordLimit) :
    multiplyWords? first second = some (first * second) :=
  if_pos small

theorem shiftWordLeft?_of_lt {word amount : UInt16} (small : amount.toNat < 16) :
    shiftWordLeft? word amount = some (word <<< amount) :=
  if_pos small

theorem addSizes?_of_lt {first second : Nat} (small : first + second < sizeLimit) :
    addSizes? first second = some (first + second) :=
  if_pos small

/-- An address of sixteen bits can be moved on by any number of sixteen bits. -/
theorem addSizes?_word (address : UInt16) {offset : Nat} (small : offset < wordLimit) :
    addSizes? address.toNat offset = some (address.toNat + offset) := by
  have bounded := address.toNat_lt
  simp only [wordLimit] at small
  refine addSizes?_of_lt ?_
  simp only [sizeLimit]
  omega

theorem subtractSizes?_of_le {first second : Nat} (small : second ≤ first) :
    subtractSizes? first second = some (first - second) :=
  if_pos small

theorem shiftByteRight?_of_lt {byte : UInt8} {amount : Nat} (small : amount < 8) :
    shiftByteRight? byte amount = some (byte >>> UInt8.ofNat amount) :=
  if_pos small

theorem shiftByteLeft?_of_lt {byte : UInt8} {amount : Nat} (small : amount < 8) :
    shiftByteLeft? byte amount = some (byte <<< UInt8.ofNat amount) :=
  if_pos small

/-- A byte that is shifted by one bit is halved. -/
theorem shiftByteRight?_one (byte : UInt8) : shiftByteRight? byte 1 = some (byte / 2) := by
  have same : byte >>> UInt8.ofNat 1 = byte / 2 :=
    UInt8.toNat_inj.mp (by simp [Nat.shiftRight_eq_div_pow])
  rw [shiftByteRight?_of_lt (by decide), same]

/-- A byte that is shifted the other way is doubled, and the bit at the top is lost. -/
theorem shiftByteLeft?_one (byte : UInt8) : shiftByteLeft? byte 1 = some (byte * 2) := by
  have same : byte <<< UInt8.ofNat 1 = byte * 2 :=
    UInt8.toNat_inj.mp (by simp [Nat.shiftLeft_eq])
  rw [shiftByteLeft?_of_lt (by decide), same]

/-- A loop none of whose rounds fails is the loop without checks. -/
theorem foldlM_eq_some {State Item : Type} {items : List Item} {round : State → Item → Option State}
    {plain : State → Item → State}
    (sound : ∀ item ∈ items, ∀ state, round state item = some (plain state item))
    (state : State) : items.foldlM round state = some (items.foldl plain state) := by
  induction items generalizing state with
  | nil => rfl
  | cons item later ih =>
      rw [List.foldlM_cons, sound item List.mem_cons_self, List.foldl_cons]
      exact ih (fun other member => sound other (List.mem_cons_of_mem item member)) _

end ChipEight.Checked
