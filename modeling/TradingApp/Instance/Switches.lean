import TradingApp.Instance.Inputs
import TradingApp.Transition.LastWrite

/-!
# The switches of an instance

Commands switch an instance off and on, ask for a soft or a panic close, and
choose the estimate.  Passes and callbacks leave the switches alone; only a panic
close may also be asked for by a pass, when too many orders are live.
-/

namespace TradingApp.Instance

open TradingApp.Transition

namespace Label

/-- What a label writes to the switch that lets passes run. -/
def enable : Label → Option Bool
  | resume => some true
  | pause => some false
  | stopAction _ => some false
  | _ => none

/-- What it writes to the soft close. -/
def softClose : Label → Option Bool
  | enableSoftClose => some true
  | disableSoftClose => some false
  | _ => none

end Label

/-- A pass that finds too many live orders asks for the panic close. -/
def SelfDestructs (context : Context) : Label → Prop
  | .pass quote replies =>
      context.Running ∧ 0 < (context.quoted quote replies).inst.priceEstimate ∧
        context.inst.LiveLimitExceeded
  | _ => False

/-- What switches the panic close on. -/
def AsksPanicClose (context : Context) (label : Label) : Prop :=
  label = .enablePanicClose ∨ SelfDestructs context label

/-- What the commands in a trace, and for the panic close its passes, make of the
switches. -/
structure Commanded (start : Context) (labels : List Label) (inst : TradeInstance) : Prop where
  isEnable : inst.isEnable = lastWrite Label.enable start.inst.isEnable labels
  isSoftClose : inst.isSoftClose = lastWrite Label.softClose start.inst.isSoftClose labels
  avicennaToggle : inst.avicennaToggle =
    (start.inst.avicennaToggle ^^ decide (Odd (labels.count .avicennaToggle)))
  isPanicClose : inst.isPanicClose = true ↔
    (start.inst.isPanicClose = true ∧ ∀ label ∈ labels, label ≠ .disablePanicClose) ∨
      ∃ before label after, labels = before ++ label :: after ∧
        AsksPanicClose (run Context.step start before) label ∧
        ∀ later ∈ after, later ≠ .disablePanicClose

/-! ## Single steps -/

theorem runCase_isPanicClose (context : Context) :
    (runCase.run context).2.inst.isPanicClose = context.inst.isPanicClose := by
  have panic : ∀ modes, (runCase.run context).2.modes = modes →
      (runCase.run context).2.inst.isPanicClose = modes.isPanicClose :=
    fun modes same => congrArg Modes.isPanicClose same
  rcases runCase_modes context with same | ⟨_, same⟩ | ⟨_, same⟩
  · exact panic _ same
  · exact panic _ same
  · exact panic _ same

theorem checked_isPanicClose (context : Context) :
    context.checked.inst.isPanicClose = true ↔
      context.inst.LiveLimitExceeded ∨ context.inst.isPanicClose = true := by
  unfold Context.checked Context.mapInst TradeInstance.selfDestruct
  dsimp only
  split
  · rename_i exceeded
    exact ⟨fun _ => Or.inl exceeded, fun _ => rfl⟩
  · rename_i within
    exact ⟨Or.inr, fun panic => panic.resolve_left within⟩

/-- After the check of the live orders a selection leaves the panic close alone. -/
theorem selection_isPanicClose (context : Context) :
    (selection.run context).2.inst.isPanicClose = context.checked.inst.isPanicClose := by
  by_cases panic : context.checked.inst.isPanicClose = true
  · rw [selection_panic panic]
    exact congrArg Modes.isPanicClose (createPanicClose_modes context.checked)
  · by_cases soft : context.checked.inst.isSoftClose = true
    · rw [selection_soft panic soft]
      exact congrArg Modes.isPanicClose (createSoftClose_modes context.checked)
    · obtain ⟨held, modes, _⟩ := selection_open_selectsNoClose panic soft
      exact congrArg Modes.isPanicClose modes

/-- A pass keeps a panic close, and asks for one if it finds too many live orders. -/
theorem pass_isPanicClose (context : Context) (quote : Quote) (replies : List Reply) :
    (context.act (.pass quote replies)).inst.isPanicClose = true ↔
      SelfDestructs context (.pass quote replies) ∨ context.inst.isPanicClose = true := by
  rw [Context.act_pass]
  by_cases active : context.Running ∧ 0 < (context.quoted quote replies).inst.priceEstimate
  · have kept (inst : TradeInstance) : (writeBack inst).isPanicClose = inst.isPanicClose := by
      obtain ⟨_, _, same⟩ := writeBack_eq inst
      rw [same]
    have ran : (context.step (.pass quote replies)).inst.isPanicClose =
        (context.quoted quote replies).checked.inst.isPanicClose := by
      rw [Context.step_pass active.1 active.2]
      exact (kept _).trans ((runCase_isPanicClose _).trans (selection_isPanicClose _))
    rw [ran, checked_isPanicClose]
    exact ⟨Or.imp_left fun exceeded => ⟨active.1, active.2, exceeded⟩, Or.imp_left (·.2.2)⟩
  · have idle : ¬ SelfDestructs context (.pass quote replies) := fun asks =>
      active ⟨asks.1, asks.2.1⟩
    rcases Context.step_pass_idle active with same | same
    · rw [same]
      exact ⟨Or.inr, fun panic => panic.resolve_left idle⟩
    · rw [same]
      exact ⟨Or.inr, fun panic => panic.resolve_left idle⟩

/-- A pass leaves the other switches alone. -/
theorem pass_switches (context : Context) (quote : Quote) (replies : List Reply) :
    (context.act (.pass quote replies)).inst.isEnable = context.inst.isEnable ∧
      (context.act (.pass quote replies)).inst.isSoftClose = context.inst.isSoftClose ∧
      (context.act (.pass quote replies)).inst.avicennaToggle = context.inst.avicennaToggle := by
  unfold Context.act
  dsimp only
  split
  · have inputs := pass_inputs quote { context with replies }
    refine ⟨?_, ?_, ?_⟩
    · exact congrArg Inputs.isEnable inputs
    · exact congrArg Inputs.isSoftClose inputs
    · exact congrArg Inputs.avicennaToggle inputs
  · exact ⟨rfl, rfl, rfl⟩

section Steps

variable (context : Context) (label : Label)

theorem act_isEnable :
    (context.act label).inst.isEnable = label.enable.getD context.inst.isEnable := by
  cases label with
  | pass quote replies => exact (pass_switches context quote replies).1
  | callback callback => exact congrArg Inputs.isEnable (onCallback_inputs context callback)
  | stopAction replies =>
      exact congrArg Inputs.isEnable (act_stopAction_inputs context replies)
  | enablePanicClose | disablePanicClose | enableSoftClose | disableSoftClose | resume | pause
  | avicennaToggle => rfl

theorem act_isSoftClose :
    (context.act label).inst.isSoftClose = label.softClose.getD context.inst.isSoftClose := by
  cases label with
  | pass quote replies => exact (pass_switches context quote replies).2.1
  | callback callback => exact congrArg Inputs.isSoftClose (onCallback_inputs context callback)
  | stopAction replies =>
      exact congrArg Inputs.isSoftClose (act_stopAction_inputs context replies)
  | enablePanicClose | disablePanicClose | enableSoftClose | disableSoftClose | resume | pause
  | avicennaToggle => rfl

theorem act_avicennaToggle :
    (context.act label).inst.avicennaToggle =
      (context.inst.avicennaToggle ^^ decide (label = .avicennaToggle)) := by
  have same : context.inst.avicennaToggle = (context.inst.avicennaToggle ^^ false) :=
    (Bool.xor_false _).symm
  cases label with
  | pass quote replies => exact (pass_switches context quote replies).2.2.trans same
  | callback callback =>
      exact (congrArg Inputs.avicennaToggle (onCallback_inputs context callback)).trans same
  | stopAction replies =>
      exact (congrArg Inputs.avicennaToggle (act_stopAction_inputs context replies)).trans same
  | enablePanicClose | disablePanicClose | enableSoftClose | disableSoftClose | resume | pause =>
      exact same
  | avicennaToggle => exact (Bool.xor_true _).symm

/-- Only a command switches a panic close off. -/
theorem act_isPanicClose :
    (context.act label).inst.isPanicClose = true ↔
      AsksPanicClose context label ∨
        context.inst.isPanicClose = true ∧ ¬ label = .disablePanicClose := by
  have kept {after : Context} (same : after.inst.isPanicClose = context.inst.isPanicClose)
      (silent : ¬ AsksPanicClose context label) (keeps : label ≠ .disablePanicClose) :
      after.inst.isPanicClose = true ↔ AsksPanicClose context label ∨
        context.inst.isPanicClose = true ∧ ¬ label = .disablePanicClose := by
    rw [same]
    exact ⟨fun panic => Or.inr ⟨panic, keeps⟩, fun either => (either.resolve_left silent).1⟩
  cases label with
  | pass quote replies =>
      rw [pass_isPanicClose, AsksPanicClose]
      simp
  | callback callback =>
      exact kept (congrArg Modes.isPanicClose (onCallback_modes context callback))
        (by simp [AsksPanicClose, SelfDestructs]) (by simp)
  | stopAction replies =>
      exact kept (congrArg Modes.isPanicClose (act_stopAction_modes context replies))
        (by simp [AsksPanicClose, SelfDestructs]) (by simp)
  | enablePanicClose => exact ⟨fun _ => Or.inl (Or.inl rfl), fun _ => rfl⟩
  | disablePanicClose => simp [AsksPanicClose, SelfDestructs, Context.act, Context.mapInst,
      TradeInstance.disablePanicClose]
  | enableSoftClose | disableSoftClose | resume | pause | avicennaToggle =>
      exact kept rfl (by simp [AsksPanicClose, SelfDestructs]) (by simp)

end Steps

/-! ## Runs -/

/-- After every run that did not end in a crash the switches are as the commands, and
the passes that found too many live orders, left them. -/
theorem run_commanded {context : Context} {labels : List Label}
    (alive : (run Context.step context labels).inst.crashed = false) :
    Commanded context labels (run Context.step context labels).inst where
  isEnable := by
    rw [Context.run_act_of_alive alive]
    exact run_lastWrite Label.enable (fun context => context.inst.isEnable) act_isEnable context
      labels
  isSoftClose := by
    rw [Context.run_act_of_alive alive]
    exact run_lastWrite Label.softClose (fun context => context.inst.isSoftClose) act_isSoftClose
      context labels
  avicennaToggle := by
    rw [Context.run_act_of_alive alive]
    clear alive
    induction labels using List.reverseRecOn with
    | nil => exact (Bool.xor_false _).symm
    | append_singleton labels label ih =>
        rw [run_append, List.count_append, List.count_singleton]
        refine (act_avicennaToggle _ label).trans ?_
        rw [ih, Bool.xor_assoc]
        congr 1
        by_cases toggles : label = .avicennaToggle
        · simp [toggles, Nat.odd_add_one, ← Nat.not_even_iff_odd]
        · simp [toggles]
  isPanicClose := by
    have latched := run_latch_iff (P := fun context : Context => context.inst.isPanicClose = true)
      (· = Label.disablePanicClose) act_isPanicClose context labels
    rw [Context.run_act_of_alive alive, latched]
    refine or_congr_right ⟨?_, ?_⟩
    · rintro ⟨before, label, after, rfl, asks, kept⟩
      refine ⟨before, label, after, rfl, ?_, kept⟩
      rwa [Context.run_act_of_alive (Context.alive_of_append alive)]
    · rintro ⟨before, label, after, rfl, asks, kept⟩
      refine ⟨before, label, after, rfl, ?_, kept⟩
      rwa [← Context.run_act_of_alive (Context.alive_of_append alive)]

end TradingApp.Instance
