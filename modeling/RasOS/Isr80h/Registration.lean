import RasOS.Isr80h.Syscalls

set_option autoImplicit false

/-! # The table of system calls after a list of registrations

`isr80h_register_command` panics for a number outside of the table and for one that is taken. A list of
registrations gets through exactly when no number in it has to be refused, and from then on each number is
answered by the function it has been registered with. -/

namespace RasOS

open Machine

/-- Register the commands of a list, one after the other. -/
def registerAll : List (Int × Isr80hCommand) → SystemM Unit
  | [] => return ()
  | (command_id, command) :: l => do
      isr80hRegisterCommand command_id command
      registerAll l

/-- What a table holds for a number. -/
def commandOf (table : Nat → Option Isr80hCommand) (command : Int) : Option Isr80hCommand :=
  if command < 0 ∨ command ≥ RASOS_MAX_ISR80H_COMMANDS then none else table command.toNat

/-- The answer to a number: 0 if there is nothing for it. -/
def answer : Option Isr80hCommand → SystemM UInt32
  | none => return 0
  | some command_func => command_func.run

theorem isr80hHandleCommand_eq (command : Int) (s : System) :
    isr80hHandleCommand command s = answer (commandOf s.isr80h_commands command) s := by
  unfold isr80hHandleCommand commandOf
  by_cases hrange : command < 0 ∨ command ≥ RASOS_MAX_ISR80H_COMMANDS
  · rw [if_pos hrange, if_pos hrange]
    rfl
  · have htable : (fun s => some (s.isr80h_commands, s) : SystemM (Nat → Option Isr80hCommand)) s =
        some (s.isr80h_commands, s) := rfl
    rw [if_neg hrange, if_neg hrange, bind_of_some htable]
    cases s.isr80h_commands command.toNat <;> rfl

/-! ## One registration -/

/-- A number can be given out. -/
def Vacant (table : Nat → Option Isr80hCommand) (command_id : Int) : Prop :=
  0 ≤ command_id ∧ command_id < RASOS_MAX_ISR80H_COMMANDS ∧ table command_id.toNat = none

/-- The state with one more command in its table. -/
def System.withCommand (s : System) (command_id : Int) (command : Isr80hCommand) : System :=
  { s with isr80h_commands := Function.update s.isr80h_commands command_id.toNat (some command) }

@[simp] theorem System.withCommand_commands (s : System) (command_id : Int) (command : Isr80hCommand) :
    (s.withCommand command_id command).isr80h_commands =
      Function.update s.isr80h_commands command_id.toNat (some command) := rfl

section Register

variable {s : System} {command_id : Int} {command : Isr80hCommand}

theorem isr80hRegisterCommand_vacant (h : Vacant s.isr80h_commands command_id) :
    isr80hRegisterCommand command_id command s = some ((), s.withCommand command_id command) := by
  obtain ⟨hlow, hhigh, hfree⟩ := h
  have htable : (fun s => some (s.isr80h_commands, s) : SystemM (Nat → Option Isr80hCommand)) s =
      some (s.isr80h_commands, s) := rfl
  unfold isr80hRegisterCommand
  rw [if_neg (by omega), bind_of_some htable, if_neg (not_not.mpr hfree)]
  rfl

theorem isr80hRegisterCommand_refused (h : ¬ Vacant s.isr80h_commands command_id) :
    isr80hRegisterCommand command_id command s = none := by
  have htable : (fun s => some (s.isr80h_commands, s) : SystemM (Nat → Option Isr80hCommand)) s =
      some (s.isr80h_commands, s) := rfl
  unfold isr80hRegisterCommand
  by_cases hrange : command_id < 0 ∨ command_id ≥ RASOS_MAX_ISR80H_COMMANDS
  · rw [if_pos hrange]
    rfl
  · rw [if_neg hrange, bind_of_some htable, if_pos fun hfree => h ⟨by omega, by omega, hfree⟩]
    rfl

theorem commandOf_withCommand (hlow : 0 ≤ command_id) (hhigh : command_id < RASOS_MAX_ISR80H_COMMANDS)
    (c : Int) : commandOf (s.withCommand command_id command).isr80h_commands c =
      if c = command_id then some command else commandOf s.isr80h_commands c := by
  unfold commandOf
  by_cases hrange : c < 0 ∨ c ≥ RASOS_MAX_ISR80H_COMMANDS
  · rw [if_pos hrange, if_pos hrange, if_neg (by omega)]
  · rw [if_neg hrange, if_neg hrange]
    by_cases hc : c = command_id
    · rw [if_pos hc, hc]
      exact Function.update_self ..
    · rw [if_neg hc]
      exact Function.update_of_ne (by omega) ..

/-- Another number is as vacant as before. -/
theorem vacant_withCommand (h : Vacant s.isr80h_commands command_id) (c : Int) :
    Vacant (s.withCommand command_id command).isr80h_commands c ↔ Vacant s.isr80h_commands c ∧ c ≠ command_id := by
  obtain ⟨hlow, hhigh, -⟩ := h
  unfold Vacant
  rw [System.withCommand_commands]
  by_cases hc : c = command_id
  · rw [hc]
    refine iff_of_false ?_ fun hno => hno.2 rfl
    rintro ⟨-, -, htaken⟩
    rw [Function.update_self] at htaken
    cases htaken
  · rw [and_iff_left hc]
    refine and_congr_right fun hc0 => and_congr_right fun _ => ?_
    rw [Function.update_of_ne (by omega)]

end Register

/-! ## A list of registrations -/

/-- What is to be the case for all of them to be accepted. -/
def AllVacant (table : Nat → Option Isr80hCommand) (l : List (Int × Isr80hCommand)) : Prop :=
  (∀ p ∈ l, Vacant table p.1) ∧ (l.map Prod.fst).Nodup

theorem allVacant_cons {s : System} {command_id : Int} {command : Isr80hCommand} {l : List (Int × Isr80hCommand)}
    (h : Vacant s.isr80h_commands command_id) : AllVacant s.isr80h_commands ((command_id, command) :: l) ↔
      AllVacant (s.withCommand command_id command).isr80h_commands l := by
  simp only [AllVacant, vacant_withCommand h, List.map_cons, List.nodup_cons, List.mem_map, List.forall_mem_cons]
  constructor
  · rintro ⟨⟨-, hall⟩, hnew, hnodup⟩
    exact ⟨fun p hp => ⟨hall p hp, fun heq => hnew ⟨p, hp, heq⟩⟩, hnodup⟩
  · rintro ⟨hall, hnodup⟩
    refine ⟨⟨h, fun p hp => (hall p hp).1⟩, ?_, hnodup⟩
    rintro ⟨p, hp, heq⟩
    exact (hall p hp).2 heq

/-- What is in the table after a list of registrations. -/
theorem registerAll_spec (l : List (Int × Isr80hCommand)) : ∀ s : System,
    (AllVacant s.isr80h_commands l → ∃ s', registerAll l s = some ((), s') ∧
      s' = { s with isr80h_commands := s'.isr80h_commands } ∧
      ∀ c, commandOf s'.isr80h_commands c = (l.lookup c).or (commandOf s.isr80h_commands c)) ∧
    (¬ AllVacant s.isr80h_commands l → registerAll l s = none) := by
  induction l with
  | nil =>
      intro s
      refine ⟨fun _ => ⟨s, rfl, rfl, fun c => rfl⟩, fun hno => absurd ⟨?_, List.nodup_nil⟩ hno⟩
      exact fun p hp => absurd hp List.not_mem_nil
  | cons p l ih =>
      obtain ⟨command_id, command⟩ := p
      intro s
      by_cases hvacant : Vacant s.isr80h_commands command_id
      · have hfirst : isr80hRegisterCommand command_id command s = _ := isr80hRegisterCommand_vacant hvacant
        obtain ⟨hgo, hstop⟩ := ih (s.withCommand command_id command)
        rw [allVacant_cons hvacant, registerAll, bind_of_some hfirst]
        refine ⟨fun hall => ?_, hstop⟩
        obtain ⟨s', hrun, hrest, htable⟩ := hgo hall
        refine ⟨s', hrun, hrest, fun c => ?_⟩
        rw [htable, commandOf_withCommand hvacant.1 hvacant.2.1, List.lookup_cons]
        by_cases hc : c = command_id
        · -- the number is not in the rest of the list
          have hnone : l.lookup c = none := by
            rw [List.lookup_eq_none_iff]
            intro p hp
            have hother := ((vacant_withCommand hvacant p.1).mp (hall.1 p hp)).2
            rw [hc, bne_iff_ne]
            exact Ne.symm hother
          rw [if_pos hc, hnone, hc, beq_self_eq_true]
          rfl
        · rw [if_neg hc, show (c == command_id) = false from beq_eq_false_iff_ne.mpr hc]
      · refine ⟨fun hall => absurd (hall.1 _ List.mem_cons_self) hvacant, fun _ => ?_⟩
        exact bind_of_none (isr80hRegisterCommand_refused hvacant)

/-- **What a list of registrations does.** It gets through if and only if each of its numbers is in the table's
range, not taken before and not in the list twice. Then every number of the list is answered by the function it
has been registered with, every other one as before, and nothing but the table has changed. -/
theorem registerAll_dispatches (l : List (Int × Isr80hCommand)) (s : System) :
    Total (registerAll l) s (fun _ s' => s' = { s with isr80h_commands := s'.isr80h_commands } ∧
      ∀ command, isr80hHandleCommand command s' =
        answer ((l.lookup command).or (commandOf s.isr80h_commands command)) s') ↔
    (∀ p ∈ l, Vacant s.isr80h_commands p.1) ∧ (l.map Prod.fst).Nodup := by
  obtain ⟨hgo, hstop⟩ := registerAll_spec l s
  constructor
  · rintro ⟨_, s', hrun, -⟩
    by_contra hno
    rw [hstop hno] at hrun
    cases hrun
  · intro hall
    obtain ⟨s', hrun, hrest, htable⟩ := hgo hall
    refine ⟨(), s', hrun, hrest, fun command => ?_⟩
    rw [isr80hHandleCommand_eq, htable]

/-! ## The kernel's own commands -/

/-- What `isr80h_register_commands` registers. -/
def systemCommands : List (Int × Isr80hCommand) :=
  [(SYSTEM_COMMAND0_SUM, .sum), (SYSTEM_COMMAND1_PRINT, .print), (SYSTEM_COMMAND2_GETKEY, .getkey),
    (SYSTEM_COMMAND3_PUTCHAR, .putchar)]

theorem isr80hRegisterCommands_eq : isr80hRegisterCommands = registerAll systemCommands := by
  simp [isr80hRegisterCommands, registerAll, systemCommands]

/-- At boot the table is empty. -/
theorem isr80hRegisterCommands_spec {s : System} (h : ∀ n, s.isr80h_commands n = none) :
    ∃ s', isr80hRegisterCommands s = some ((), s') ∧ s' = { s with isr80h_commands := s'.isr80h_commands } ∧
      ∀ c, commandOf s'.isr80h_commands c = systemCommands.lookup c := by
  have hall : AllVacant s.isr80h_commands systemCommands := by
    refine ⟨fun p hp => ?_, by decide⟩
    have hrange : 0 ≤ p.1 ∧ p.1 < RASOS_MAX_ISR80H_COMMANDS := by
      revert p
      decide
    exact ⟨hrange.1, hrange.2, h _⟩
  obtain ⟨s', hrun, hrest, htable⟩ := (registerAll_spec systemCommands s).1 hall
  refine ⟨s', isr80hRegisterCommands_eq ▸ hrun, hrest, fun c => ?_⟩
  have hnone : commandOf s.isr80h_commands c = none := by
    unfold commandOf
    rw [h, ite_self]
  rw [htable, hnone, Option.or_none]

end RasOS
