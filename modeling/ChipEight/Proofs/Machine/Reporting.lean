import ChipEight.Proofs.Instruction.Patterns
import ChipEight.Proofs.Machine.Calls
import ChipEight.Proofs.Machine.Decoding
import ChipEight.Proofs.Machine.Moments

/-!
# What steps report

A step that is taken first reports what it fetched, with the registers as they are before the
instruction runs. It adds at most one remark: about a word that is no instruction, a return without
a call, a call that is refused, or a wait that begins. A machine that waits reports nothing.

Nothing but a step reports a fetch, so the fetches in the report of a run are its steps, one by one
and in their order.
-/

namespace ChipEight

namespace Notice

/-- Whether a notice tells of a call that did not go through. -/
def isRefusal : Notice → Bool
  | .oddCall _ | .fullStack .. => true
  | _ => false

/-- The notices among others that have the lowest level. -/
def traces (notices : Array Notice) : List Notice :=
  notices.toList.filter fun notice => notice.level == .trace

theorem traces_append (first second : Array Notice) :
    traces (first ++ second) = traces first ++ traces second := by
  simp [traces]

end Notice

namespace Instruction

/-- The remarks that instructions make, where a limit is set for the calls in progress. -/
inductive Remarks (limit : Option Nat) (calls : List UInt16) : Instruction → Notice → Prop where
  | emptyReturn (nothing : calls = []) : Remarks limit calls .leave .emptyReturn
  | oddCall {address : UInt16} (odd : address % 2 = 1) :
      Remarks limit calls (.call address) (.oddCall address)
  | fullStack {address : UInt16} {most : Nat} (even : address % 2 ≠ 1)
      (limited : limit = some most) (full : most ≤ calls.length) :
      Remarks limit calls (.call address) (.fullStack address most)
  | waitBegun (x : Digit) : Remarks limit calls (.awaitKey x) (.waitBegun x)

variable {limit : Option Nat} {state : State} {address : UInt16} {notice : Notice}

theorem remarks_of_notice_leaveCall (told : (leaveCall state).2 = some notice) :
    Remarks limit state.registers.stack .leave notice := by
  unfold leaveCall Registers.pop? at told
  cases calls : state.registers.stack with
  | nil =>
      rw [calls] at told
      cases told
      exact .emptyReturn rfl
  | cons address older =>
      rw [calls] at told
      cases told

theorem remarks_of_notice_enterCall (told : (enterCall limit state address).2 = some notice) :
    Remarks limit state.registers.stack (.call address) notice := by
  unfold enterCall at told
  by_cases odd : address % 2 = 1
  · rw [if_pos odd] at told
    cases told
    exact .oddCall odd
  · rw [if_neg odd] at told
    cases reached : reachedLimit? limit state with
    | some most =>
        obtain ⟨limited, full⟩ := reachedLimit?_eq_some_iff.mp reached
        rw [reached] at told
        cases told
        exact .fullStack odd limited full
    | none =>
        rw [reached] at told
        cases told

/-- An instruction reports the remarks that it makes, and nothing else. -/
theorem notice_execute_eq_some_iff (settings : Settings) (keypad : Keypad)
    (random : Random.Generator) (state : State) (instruction : Instruction) :
    (instruction.execute settings keypad random state).notice = some notice ↔
      Remarks settings.stackLimit state.registers.stack instruction notice := by
  constructor
  · intro told
    cases instruction with
    | leave => exact remarks_of_notice_leaveCall told
    | call address => exact remarks_of_notice_enterCall told
    | awaitKey x =>
        cases told
        exact .waitBegun x
    | _ => cases told
  · intro remarks
    cases remarks with
    | emptyReturn nothing => simp [execute, leaveCall, Registers.pop?, nothing]
    | oddCall odd => simp [execute, enterCall, odd]
    | @fullStack address most even limited full =>
        have reached : reachedLimit? settings.stackLimit state = some most :=
          reachedLimit?_eq_some_iff.mpr ⟨limited, full⟩
        simp [execute, enterCall, even, reached]
    | waitBegun x => rfl

end Instruction

namespace Machine

/-- The remarks of a step, by the word that it fetches. -/
inductive Remarks (machine : Machine) : Notice → Prop where
  | unknownWord (unknown : Instruction.ofWord? machine.state.word = none) :
      Remarks machine (.unknownWord machine.state.word machine.state.registers.counter)
  | emptyReturn (whole : machine.state.word = 0x00EE) (nothing : machine.calls = []) :
      Remarks machine .emptyReturn
  | oddCall (family : Word.family machine.state.word = 0x2)
      (odd : Word.address machine.state.word % 2 = 1) :
      Remarks machine (.oddCall (Word.address machine.state.word))
  | fullStack {most : Nat} (family : Word.family machine.state.word = 0x2)
      (even : Word.address machine.state.word % 2 ≠ 1)
      (limited : machine.settings.stackLimit = some most) (full : most ≤ machine.calls.length) :
      Remarks machine (.fullStack (Word.address machine.state.word) most)
  | waitBegun (family : Word.family machine.state.word = 0xF)
      (byte : (Word.byte machine.state.word).toNat = 0x0A) :
      Remarks machine (.waitBegun (Word.x machine.state.word))

variable {machine : Machine} {instruction : Instruction} {notice : Notice}

theorem remarks_iff_of_standsFor (stands : Word.StandsFor machine.state.word instruction) :
    machine.Remarks notice ↔
      Instruction.Remarks machine.settings.stackLimit machine.calls instruction notice := by
  constructor
  · intro remarks
    cases remarks with
    | unknownWord unknown => exact absurd stands (Instruction.not_standsFor_of_unknown unknown _)
    | emptyReturn whole nothing =>
        cases Instruction.standsFor_unique stands (.leave whole)
        exact .emptyReturn nothing
    | oddCall family odd =>
        cases Instruction.standsFor_unique stands (.call family)
        exact .oddCall odd
    | fullStack family even limited full =>
        cases Instruction.standsFor_unique stands (.call family)
        exact .fullStack even limited full
    | waitBegun family byte =>
        cases Instruction.standsFor_unique stands (.awaitKey family byte)
        exact .waitBegun _
  · intro remarks
    cases remarks with
    | emptyReturn nothing =>
        cases stands with
        | leave whole => exact .emptyReturn whole nothing
    | oddCall odd =>
        cases stands with
        | call family => exact .oddCall family odd
    | fullStack even limited full =>
        cases stands with
        | call family => exact .fullStack family even limited full
    | waitBegun =>
        cases stands with
        | awaitKey family byte => exact .waitBegun family byte

/-- A step reports what it fetched and then its remark, if it makes one. -/
theorem notices_step_of_remarks (free : machine.state.awaiting = none) :
    ∃ more : Option Notice,
      machine.step.notices = #[fetchNotice machine.state] ++ more.toArray ∧
        ∀ notice, more = some notice ↔ machine.Remarks notice := by
  have stepped := machine.stepped_step
  generalize machine.step = reply at stepped ⊢
  cases stepped with
  | waits awaits =>
      rw [free] at awaits
      cases awaits
  | passes _ unknown =>
      refine ⟨some (.unknownWord machine.state.word machine.state.registers.counter), rfl, ?_⟩
      intro notice
      constructor
      · intro told
        cases told
        exact .unknownWord unknown
      · intro remarks
        have none (instruction : Instruction) :
            ¬ Word.StandsFor machine.state.word instruction :=
          Instruction.not_standsFor_of_unknown unknown instruction
        cases remarks with
        | unknownWord => rfl
        | emptyReturn whole => exact absurd (.leave whole) (none _)
        | oddCall family | fullStack family => exact absurd (.call family) (none _)
        | waitBegun family byte => exact absurd (.awaitKey family byte) (none _)
  | @runs instruction effect _ known executed =>
      refine ⟨effect.notice, rfl, fun notice => ?_⟩
      rw [executed, Instruction.notice_execute_eq_some_iff,
        remarks_iff_of_standsFor (Instruction.standsFor_of_ofWord? known)]
      rfl

theorem Remarks.level_ne_trace (remarks : machine.Remarks notice) : notice.level ≠ .trace := by
  cases remarks <;> exact fun level => NoticeLevel.noConfusion level

theorem exists_value_step_eq_unknown_iff (free : machine.state.awaiting = none) :
    (∃ word, machine.step.value = .unknown word) ↔
      Instruction.ofWord? machine.state.word = none := by
  constructor
  · rintro ⟨word, passed⟩
    cases decoded : Instruction.ofWord? machine.state.word with
    | none => rfl
    | some instruction =>
        rw [value_step_of_known free decoded] at passed
        split at passed <;> cases passed
  · intro unknown
    rw [step_of_unknown free unknown]
    exact ⟨_, rfl⟩

theorem mem_notices_step_iff (free : machine.state.awaiting = none) :
    notice ∈ machine.step.notices ↔
      notice = fetchNotice machine.state ∨ machine.Remarks notice := by
  obtain ⟨more, notices, told⟩ := notices_step_of_remarks free
  rw [notices, ← told]
  simp

/-! ## Calls -/

section

variable (free : machine.state.awaiting = none) (family : Word.family machine.state.word = 0x2)

include free family

/-- A refusal is reported for the calls that do not go through. -/
theorem exists_isRefusal_iff :
    (∃ notice ∈ machine.step.notices, notice.isRefusal = true) ↔
      ¬ Instruction.Accepts machine.settings.stackLimit machine.state.advance
        (Word.address machine.state.word) := by
  rw [Instruction.not_accepts_iff]
  constructor
  · rintro ⟨notice, member, refuses⟩
    rcases (mem_notices_step_iff free).mp member with rfl | remarks
    · exact Bool.noConfusion refuses
    · cases remarks with
      | oddCall _ odd => exact .inl odd
      | fullStack _ _ limited full => exact .inr ⟨_, limited, full⟩
      | _ => exact Bool.noConfusion refuses
  · intro refused
    by_cases odd : Word.address machine.state.word % 2 = 1
    · exact ⟨_, (mem_notices_step_iff free).mpr (.inr (.oddCall family odd)), rfl⟩
    · -- Only an even address gets as far as the limit.
      obtain ⟨most, limited, full⟩ := refused.resolve_left odd
      exact ⟨_, (mem_notices_step_iff free).mpr (.inr (.fullStack family odd limited full)), rfl⟩

/-- A call pushes a return address if no refusal is reported for it, and otherwise nothing. -/
theorem calls_step_of_call :
    let refused := ∃ notice ∈ machine.step.notices, notice.isRefusal = true
    (machine.step.machine.calls = (machine.state.registers.counter + 2) :: machine.calls ↔
      ¬ refused) ∧
    (refused → machine.step.machine.calls = machine.calls) := by
  intro refused
  have unchanged : refused → machine.step.machine.calls = machine.calls := by
    intro told
    rw [calls, state_step_of_refused free family ((exists_isRefusal_iff free family).mp told)]
    rfl
  refine ⟨⟨?_, ?_⟩, unchanged⟩
  · intro pushed told
    exact List.cons_ne_self _ _ (pushed.symm.trans (unchanged told))
  · intro silent
    have accepts := Classical.not_not.mp (mt (exists_isRefusal_iff free family).mpr silent)
    rw [calls, state_step_of_accepted free family accepts]

end

/-! ## Fetches of a run -/

/-- What moments report first. -/
def fetches (moments : List Machine) : List Notice :=
  moments.map fun moment => fetchNotice moment.state

theorem traces_step_of_free (free : machine.state.awaiting = none) :
    Notice.traces machine.step.notices = [fetchNotice machine.state] := by
  obtain ⟨more, notices, told⟩ := notices_step_of_remarks free
  rw [notices, Notice.traces_append]
  cases more with
  | none => rfl
  | some notice =>
      have silent : Notice.traces (some notice).toArray = [] := by
        simpa [Notice.traces] using ((told notice).mp rfl).level_ne_trace
      rw [silent]
      rfl

theorem traces_steps (machine : Machine) (count : Nat) :
    Notice.traces (machine.steps count).notices = fetches (machine.moments count) := by
  induction count generalizing machine with
  | zero => rfl
  | succ count ih =>
      cases awaits : machine.isAwaitingKey with
      | true =>
          -- The wait goes on for all the steps that are left.
          obtain ⟨register, waits⟩ := Option.isSome_iff_exists.mp awaits
          rw [steps_of_awaiting waits, moments_of_awaiting awaits]
          rfl
      | false =>
          have free : machine.state.awaiting = none := by simpa [isAwaitingKey] using awaits
          rw [steps_succ, moments_succ_of_free awaits]
          change Notice.traces (machine.step.notices ++ _) = fetchNotice machine.state :: _
          rw [Notice.traces_append, traces_step_of_free free, ih]
          rfl

section

variable (machine : Machine)

theorem traces_pressKey (key : Key) : Notice.traces (machine.pressKey key).notices = [] := by
  unfold pressKey
  cases machine.state.awaiting <;> rfl

theorem traces_press (byte : UInt8) : Notice.traces (machine.press byte).notices = [] := by
  unfold press
  cases Digit.ofByte? byte with
  | none => rfl
  | some key => exact machine.traces_pressKey key

theorem traces_labelDown (label : Char) :
    Notice.traces (machine.labelDown label).notices = [] := by
  unfold labelDown
  cases Keyboard.keyOfLabel? label with
  | none => rfl
  | some key => exact machine.traces_pressKey key

theorem traces_labelUp (label : Char) : Notice.traces (machine.labelUp label).notices = [] := by
  unfold labelUp
  cases Keyboard.keyOfLabel? label <;> rfl

theorem traces_cancelWait : Notice.traces machine.cancelWait.notices = [] := by
  unfold cancelWait
  cases machine.state.awaiting <;> rfl

theorem traces_rewind : Notice.traces machine.rewind.notices = [] := by
  unfold rewind
  cases machine.past <;> rfl

theorem traces_takeFrame : Notice.traces machine.takeFrame.notices = [] := by
  unfold takeFrame
  cases machine.state.redraw <;> rfl

theorem traces_loadProgram (address : UInt16) (program : Array UInt8) :
    Notice.traces (machine.loadProgram address program).notices = [] := by
  unfold loadProgram
  dsimp only
  split <;> rfl

theorem traces_loadRom (source : RomSource) :
    Notice.traces (machine.loadRom source).notices = [] := by
  cases source with
  | broken => rfl
  | complete bytes =>
      unfold loadRom
      dsimp only
      split
      · rfl
      · rw [Array.push_eq_append, Notice.traces_append, traces_loadProgram]
        rfl

end

/-- Nothing but steps and frames reports a fetch. -/
theorem traces_perform_of_idle {action : Action} (idle : action.runsProgram = false) :
    Notice.traces (machine.perform action).notices = [] := by
  cases action with
  | step | runFrame => cases idle
  | loadProgram address program => exact machine.traces_loadProgram address program
  | loadRom source => exact machine.traces_loadRom source
  | rewind => exact machine.traces_rewind
  | labelDown label => exact machine.traces_labelDown label
  | labelUp label => exact machine.traces_labelUp label
  | press byte => exact machine.traces_press byte
  | cancelWait => exact machine.traces_cancelWait
  | takeFrame => exact machine.traces_takeFrame
  | _ => rfl

theorem traces_perform (machine : Machine) (action : Action) :
    Notice.traces (machine.perform action).notices = fetches (machine.momentsOf action) := by
  cases runs : action.runsProgram with
  | false =>
      rw [momentsOf_eq_nil runs]
      exact traces_perform_of_idle runs
  | true =>
      cases action with
      | step => exact machine.traces_steps 1
      | runFrame =>
          change Notice.traces machine.runFrame.notices = _
          rw [machine.runFrame_eq_steps.2.1]
          exact machine.traces_steps _
      | _ => cases runs

/-- A run reports the fetches of its steps in their order. -/
theorem traces_run (machine : Machine) (actions : List Action) :
    Notice.traces (machine.run actions).notices = fetches (machine.momentsIn actions) := by
  induction actions generalizing machine with
  | nil => rfl
  | cons action later ih =>
      change Notice.traces ((machine.perform action).notices ++ _) = _
      rw [Notice.traces_append, traces_perform, ih, momentsIn, fetches, fetches, fetches,
        List.map_append]

end Machine

/-- A step that is taken reports, at the lowest level, the word that it fetches, the registers V and
I and the address, all as they are before. It adds at most one remark: a warning for a word that is
no instruction, for a call to an odd address and for a call beyond the limit, where the odd address
is the reason if there are both; and a message for a return without a call and for a wait that
begins. So a call goes through if and only if no refusal is reported, and a run reports as many
fetches as it takes steps. -/
theorem reports_tell_steps (machine : Machine) :
    let before := machine.state
    let word := before.word
    let address := Word.address word
    let counter := before.registers.counter
    let reply := machine.step
    let fetched := Notice.fetched word before.registers.v before.registers.index counter
    let isCall := (Pattern.ofFamily 0x2).Matches word
    (∀ register, before.awaiting = some register → reply.notices = #[]) ∧
    (before.awaiting = none →
      (∃ more : Option Notice,
        reply.notices = #[fetched] ++ more.toArray ∧
        (more = some (.unknownWord word counter) ↔ ∃ other, reply.value = .unknown other) ∧
        (more = some .emptyReturn ↔ word = 0x00EE ∧ machine.calls = []) ∧
        (more = some (.oddCall address) ↔ isCall ∧ address % 2 = 1) ∧
        (∀ most, more = some (.fullStack address most) ↔
          isCall ∧ address % 2 ≠ 1 ∧ machine.settings.stackLimit = some most ∧
            most ≤ machine.calls.length) ∧
        (more = some (.waitBegun (Word.x word)) ↔ (Pattern.ofByte 0xF 0x0A).Matches word) ∧
        ∀ notice, more = some notice →
          notice = .unknownWord word counter ∨ notice = .emptyReturn ∨ notice = .oddCall address ∨
            (∃ most, notice = .fullStack address most) ∨ notice = .waitBegun (Word.x word)) ∧
      (isCall →
        let refused := ∃ notice ∈ reply.notices, notice.isRefusal = true
        (reply.machine.calls = (counter + 2) :: machine.calls ↔ ¬ refused) ∧
        (refused → reply.machine.calls = machine.calls))) ∧
    (fetched.level = .trace ∧ (Notice.unknownWord word counter).level = .warning ∧
      Notice.emptyReturn.level = .debug ∧ (Notice.oddCall address).level = .warning ∧
      (∀ most, (Notice.fullStack address most).level = .warning) ∧
      (Notice.waitBegun (Word.x word)).level = .debug) ∧
    ∀ actions : List Action,
      let moments := machine.momentsIn actions
      let traces := Notice.traces (machine.run actions).notices
      traces.length = moments.length ∧
        traces = moments.map fun moment => Machine.fetchNotice moment.state := by
  intro before word address counter reply fetched isCall
  have called : isCall ↔ Word.family word = 0x2 := Pattern.matches_ofFamily_iff
  refine ⟨?_, ?_, ⟨rfl, rfl, rfl, rfl, fun _ => rfl, rfl⟩, ?_⟩
  · intro register awaits
    exact congrArg Reply.notices (Machine.step_of_awaiting awaits)
  · intro free
    obtain ⟨more, notices, told⟩ := Machine.notices_step_of_remarks free
    refine ⟨⟨more, notices, ?_, ?_, ?_, ?_, ?_, ?_⟩, ?_⟩
    · rw [told, Machine.exists_value_step_eq_unknown_iff free]
      exact ⟨fun | .unknownWord unknown => unknown, .unknownWord⟩
    · rw [told]
      exact ⟨fun | .emptyReturn whole nothing => ⟨whole, nothing⟩,
        fun ⟨whole, nothing⟩ => .emptyReturn whole nothing⟩
    · rw [told, called]
      exact ⟨fun | .oddCall family odd => ⟨family, odd⟩,
        fun ⟨family, odd⟩ => .oddCall family odd⟩
    · intro most
      rw [told, called]
      exact ⟨fun | .fullStack family even limited full => ⟨family, even, limited, full⟩,
        fun ⟨family, even, limited, full⟩ => .fullStack family even limited full⟩
    · rw [told, Pattern.matches_ofByte_iff]
      exact ⟨fun | .waitBegun family byte => ⟨family, byte⟩,
        fun ⟨family, byte⟩ => .waitBegun family byte⟩
    · intro notice reported
      cases (told notice).mp reported with
      | unknownWord => exact .inl rfl
      | emptyReturn => exact .inr (.inl rfl)
      | oddCall => exact .inr (.inr (.inl rfl))
      | fullStack => exact .inr (.inr (.inr (.inl ⟨_, rfl⟩)))
      | waitBegun => exact .inr (.inr (.inr (.inr rfl)))
    · intro matched
      exact Machine.calls_step_of_call free (called.mp matched)
  · intro actions moments traces
    have same : traces = _ := machine.traces_run actions
    refine ⟨?_, same⟩
    rw [same, Machine.fetches, List.length_map]

end ChipEight
