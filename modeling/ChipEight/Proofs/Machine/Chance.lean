import ChipEight.Proofs.Machine.Moments

/-!
# Random bytes in order

The bytes of the random stream are used one after the other, each by one instruction that draws a
byte. Neither going back nor switching off gives a byte back: the generator stands at the number
of draws since the machine was made, and a draw gets the byte of its own number.
-/

namespace ChipEight

namespace Random.Generator

def skip (generator : Generator) (count : Nat) : Generator :=
  { generator with drawn := generator.drawn + count }

theorem skip_skip (generator : Generator) (first second : Nat) :
    (generator.skip first).skip second = generator.skip (first + second) := by
  simp only [skip, Nat.add_assoc]

end Random.Generator

namespace Machine

/-- The draws between two machines: each of them found the generator at the place of its number,
and together they moved it on by how many they are. -/
structure Draws (before after : Machine) (draws : List Machine) : Prop where
  random_eq : after.random = before.random.skip draws.length
  random_getElem : ∀ (number : Nat) (within : number < draws.length),
    draws[number].random = before.random.skip number

variable {machine : Machine}

theorem Draws.of_random_eq {before after : Machine} (same : after.random = before.random) :
    Draws before after [] :=
  ⟨same, nofun⟩

theorem Draws.trans {first second third : Machine} {earlier later : List Machine}
    (before : Draws first second earlier) (after : Draws second third later) :
    Draws first third (earlier ++ later) where
  random_eq := by
    rw [after.random_eq, before.random_eq, Random.Generator.skip_skip, List.length_append]
  random_getElem := by
    intro number within
    rw [List.getElem_append]
    split
    · next early => exact before.random_getElem number early
    · next late =>
        rw [after.random_getElem, before.random_eq, Random.Generator.skip_skip]
        congr 1
        omega

/-- A step draws a byte if its moment does. -/
theorem draws_step (machine : Machine) :
    Draws machine machine.step.machine (if machine.drawsRandom then [machine] else []) := by
  have random := machine.random_step
  cases draws : machine.drawsRandom with
  | false =>
      rw [draws] at random
      exact .of_random_eq random
  | true =>
      rw [draws] at random
      refine ⟨random, ?_⟩
      intro number within
      obtain rfl : number = 0 := Nat.lt_one_iff.mp within
      rfl

theorem draws_afterSteps (machine : Machine) (count : Nat) :
    Draws machine (machine.afterSteps count) ((machine.moments count).filter drawsRandom) := by
  induction count generalizing machine with
  | zero => exact .of_random_eq rfl
  | succ count ih =>
      cases awaits : machine.isAwaitingKey with
      | true =>
          rw [afterSteps_of_awaiting awaits, moments_of_awaiting awaits]
          exact .of_random_eq rfl
      | false =>
          rw [afterSteps_succ, moments_succ_of_free awaits, List.filter_cons]
          have both := machine.draws_step.trans (ih machine.step.machine)
          split
          · next draws => rwa [if_pos draws] at both
          · next still => rwa [if_neg still] at both

theorem random_rewind (machine : Machine) : machine.rewind.machine.random = machine.random := by
  unfold rewind
  cases machine.past <;> rfl

/-- Only steps and frames use random bytes. -/
theorem random_perform {action : Action} (idle : action.runsProgram = false) :
    (machine.perform action).machine.random = machine.random := by
  cases edits : action.edits with
  | true => exact (machine.edited_perform edits).random_eq
  | false =>
      cases action with
      | step | runFrame => cases idle
      | rewind => exact machine.random_rewind
      | reset => rfl
      | takeFrame => exact machine.random_takeFrame
      | _ => cases edits

theorem draws_perform (machine : Machine) (action : Action) :
    Draws machine (machine.perform action).machine
      ((machine.momentsOf action).filter drawsRandom) := by
  cases runs : action.runsProgram with
  | false =>
      rw [momentsOf_eq_nil runs]
      exact .of_random_eq (random_perform runs)
  | true =>
      cases action with
      | step => exact machine.draws_afterSteps 1
      | runFrame =>
          obtain ⟨random, places⟩ :=
            machine.draws_afterSteps machine.settings.cyclesPerTick.toNat
          refine ⟨?_, places⟩
          change machine.runFrame.machine.random = _
          rw [machine_runFrame_eq_afterSteps]
          exact random
      | _ => cases runs

theorem draws_run (machine : Machine) (actions : List Action) :
    Draws machine (machine.run actions).machine
      ((machine.momentsIn actions).filter drawsRandom) := by
  induction actions generalizing machine with
  | nil => exact .of_random_eq rfl
  | cons action later ih =>
      rw [machine_run_cons, momentsIn, List.filter_append]
      exact (machine.draws_perform action).trans (ih _)

/-- The byte that is drawn goes to the register of the word, with the bits that its mask has. -/
theorem v_step_of_drawsRandom (draws : machine.drawsRandom = true) :
    machine.step.machine.state.v (Word.x machine.state.word) =
      machine.random.next &&& Word.byte machine.state.word := by
  simp only [drawsRandom, Bool.and_eq_true, Bool.not_eq_true', beq_iff_eq] at draws
  obtain ⟨awaits, family⟩ := draws
  have free : machine.state.awaiting = none := by simpa [isAwaitingKey] using awaits
  rw [state_step_of_known free (Instruction.ofWord?_of_standsFor (.random family))]
  simp [Instruction.execute, State.setV, State.v]

end Machine

/-- The instructions that draw a random byte get the bytes of the seed one after the other, in the
order in which they are executed, whatever is done to the machine in between. -/
theorem random_bytes_in_order (settings : Settings) (seed : UInt64) (entropy : Random.Entropy)
    (actions : List Action) :
    let initial := Machine.start { settings with seed := some seed } entropy
    let key := Random.keyOfSeed seed
    let draws := (initial.momentsIn actions).filter Machine.drawsRandom
    (∀ (number : Nat) (within : number < draws.length),
      let moment := draws[number]
      let word := moment.state.word
      moment.random = ⟨key, number⟩ ∧
        moment.step.machine.state.v (Word.x word) =
          (Random.wordAt key number).toUInt8 &&& Word.byte word) ∧
    (initial.run actions).machine.random = ⟨key, draws.length⟩ := by
  intro initial key draws
  have begins : initial.random = ⟨key, 0⟩ := rfl
  obtain ⟨random, places⟩ := initial.draws_run actions
  refine ⟨?_, ?_⟩
  · intro number within moment word
    have place : moment.random = ⟨key, number⟩ := by
      rw [places number within, begins, Random.Generator.skip, Nat.zero_add]
    have drawing : moment.drawsRandom = true :=
      (List.mem_filter.mp (List.getElem_mem within)).2
    refine ⟨place, ?_⟩
    rw [Machine.v_step_of_drawsRandom drawing, place]
    rfl
  · rw [random, begins, Random.Generator.skip, Nat.zero_add]

end ChipEight
