import TradingApp.Instance.Stopping

/-!
# Trading in a close mode

A panic or soft close that is asked for replaces whatever case is held, and a
close case is not dropped at the end of a pass.  So while a close mode is on and
has been taken up, the held case is one that closes: the other cases do not run,
and nothing is opened.
-/

namespace TradingApp.Instance

open TradingApp.Account TradingApp.Redis TradingApp.Transition

/-! ## What is held in a close mode -/

/-- Once a close mode is taken up, a close case is held; under a panic close it
is the panic close. -/
structure Modes.TakenUp (modes : Modes) : Prop where
  panic : modes.isPanicClose = true → modes.panicCloseInit = false →
    modes.held = some .panicClose
  soft : modes.isSoftClose = true → modes.softCloseInit = false →
    ∃ type ∈ modes.held, type.Closes

namespace Modes

variable {modes : Modes}

/-- Asking for a panic close, by a command or by the check of the live orders. -/
theorem TakenUp.enablePanicClose (takenUp : modes.TakenUp) :
    TakenUp { modes with isPanicClose := true, panicCloseInit := true } :=
  ⟨nofun, takenUp.soft⟩

/-- A panic close is created if it was asked for. -/
theorem TakenUp.panicClose (takenUp : modes.TakenUp) (panic : modes.isPanicClose = true) :
    TakenUp
      { modes with
        panicCloseInit := false
        held := if modes.panicCloseInit then some .panicClose else modes.held } := by
  have held : (if modes.panicCloseInit then some .panicClose else modes.held) =
      some CaseType.panicClose := by
    split
    · rfl
    · rename_i notAsked
      exact takenUp.panic panic (Bool.not_eq_true _ ▸ notAsked)
  constructor
  · intro _ _
    exact held
  · intro _ _
    exact ⟨.panicClose, held, Or.inl rfl⟩

/-- So is a soft close, without a panic close. -/
theorem TakenUp.softClose (takenUp : modes.TakenUp) (notPanic : modes.isPanicClose ≠ true)
    (soft : modes.isSoftClose = true) :
    TakenUp
      { modes with
        softCloseInit := false
        held := if modes.softCloseInit then some .softClose else modes.held } := by
  constructor
  · intro panic
    exact absurd panic notPanic
  · intro _ _
    dsimp only
    split
    · exact ⟨.softClose, rfl, Or.inr rfl⟩
    · rename_i notAsked
      exact takenUp.soft soft (Bool.not_eq_true _ ▸ notAsked)

/-- Without a close mode nothing is said about the held case. -/
theorem takenUp_of_not (notPanic : modes.isPanicClose ≠ true) (notSoft : modes.isSoftClose ≠ true) :
    modes.TakenUp :=
  ⟨fun panic => absurd panic notPanic, fun soft => absurd soft notSoft⟩

end Modes

variable {context : Context}

theorem takenUp_checked (takenUp : context.modes.TakenUp) : context.checked.modes.TakenUp := by
  rcases checked_modes context with same | same
  · rw [same]
    exact takenUp
  · rw [same]
    exact takenUp.enablePanicClose

/-- After a selection a close mode is taken up, and then a close case is held. -/
theorem selection_takenUp (takenUp : context.modes.TakenUp) :
    (selection.run context).2.modes.TakenUp ∧
      ((selection.run context).1 = true →
        ∃ type ∈ (selection.run context).2.modes.held, type.Closes) := by
  have checked := takenUp_checked takenUp
  by_cases panic : context.checked.inst.isPanicClose = true
  · have after := checked.panicClose panic
    rw [selection_panic panic, createPanicClose_modes]
    exact ⟨after, fun _ => ⟨_, after.panic panic rfl, Or.inl rfl⟩⟩
  · by_cases soft : context.checked.inst.isSoftClose = true
    · have after := checked.softClose panic soft
      rw [selection_soft panic soft, createSoftClose_modes]
      exact ⟨after, fun _ => after.soft soft rfl⟩
    · obtain ⟨held, modes, _⟩ := selection_open_selectsNoClose panic soft
      have takesOver : (selection.run context).1 = false := by
        rw [selection_open panic soft]
      rw [modes]
      refine ⟨Modes.takenUp_of_not panic soft, fun special => ?_⟩
      exact absurd (takesOver.symm.trans special) Bool.false_ne_true

theorem runCase_takenUp (takenUp : context.modes.TakenUp) :
    (runCase.run context).2.modes.TakenUp := by
  rcases runCase_modes context with same | ⟨_, same⟩ | ⟨⟨type, held, opens⟩, same⟩
  · rw [same]
    exact takenUp
  · rw [same]
    exact ⟨takenUp.panic, takenUp.soft⟩
  · rw [same]
    constructor
    · intro panic takenUpPanic
      have same := takenUp.panic panic takenUpPanic
      rw [Option.mem_def.mp held] at same
      exact absurd (Or.inl (Option.some_injective _ same)) opens
    · intro soft takenUpSoft
      obtain ⟨other, isHeld, closes⟩ := takenUp.soft soft takenUpSoft
      rw [Option.mem_def.mp held] at isHeld
      exact absurd (Option.some_injective _ isHeld ▸ closes) opens

/-- Every step keeps it so. -/
theorem step_takenUp (takenUp : context.modes.TakenUp) (label : Label) :
    (context.step label).modes.TakenUp := by
  refine Context.step_cases (P := (·.modes.TakenUp)) (fun _ => takenUp) fun _ => ?_
  cases label with
  | pass quote replies =>
      rw [Context.act_pass]
      by_cases active : context.Running ∧ 0 < (context.quoted quote replies).inst.priceEstimate
      · rw [Context.step_pass active.1 active.2]
        have quoted : (context.quoted quote replies).modes.TakenUp := takenUp
        have ran := runCase_takenUp (selection_takenUp quoted).1
        rwa [← writeBack_modes] at ran
      · exact Context.step_pass_skipped (P := (·.modes.TakenUp)) active takenUp takenUp
  | callback callback =>
      have same : (context.act (.callback callback)).modes = context.modes :=
        onCallback_modes context callback
      rw [same]
      exact takenUp
  | stopAction replies =>
      rw [act_stopAction_modes]
      exact takenUp
  | enablePanicClose => exact takenUp.enablePanicClose
  | disablePanicClose => exact ⟨nofun, takenUp.soft⟩
  | enableSoftClose => exact ⟨takenUp.panic, nofun⟩
  | disableSoftClose => exact ⟨takenUp.panic, nofun⟩
  | resume | pause | avicennaToggle => exact ⟨takenUp.panic, takenUp.soft⟩

/-! ## What a close case sends -/

/-- An order was opened. -/
def Event.opens : Event → Bool
  | opened _ _ _ _ => true
  | _ => false

/-- The orders that were opened. -/
def Context.opened (context : Context) : List Event :=
  context.log.filter Event.opens

end TradingApp.Instance
