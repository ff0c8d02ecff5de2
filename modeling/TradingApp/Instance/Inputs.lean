import TradingApp.Instance.Modes

/-!
# What a pass is given

A pass reads the market once, at its start.  From then on it works with what
it was given: the quote, the bars and the estimate it read, the settings, and
the switches that commands set.
-/

namespace TradingApp.Instance

open TradingApp.Account TradingApp.Transition

/-- What a pass does not change after it has read the market. -/
structure Inputs where
  config : Config
  askSize : ℕ
  askPrice : ℚ
  bidSize : ℕ
  bidPrice : ℚ
  priceEstimate : ℚ
  bar0 : Bar
  bar1 : Bar
  avicennaToggle : Bool
  isEnable : Bool
  isSoftClose : Bool

/-- The settings, the market data and the flags of an instance. -/
def TradeInstance.inputs (inst : TradeInstance) : Inputs where
  config := inst.config
  askSize := inst.askSize
  askPrice := inst.askPrice
  bidSize := inst.bidSize
  bidPrice := inst.bidPrice
  priceEstimate := inst.priceEstimate
  bar0 := inst.bar0
  bar1 := inst.bar1
  avicennaToggle := inst.avicennaToggle
  isEnable := inst.isEnable
  isSoftClose := inst.isSoftClose

/-- Those of the instance. -/
def Context.inputs (context : Context) : Inputs :=
  context.inst.inputs

theorem onCallback_inputs (context : Context) (callback : Callback) :
    (context.onCallback callback).inputs = context.inputs := by
  obtain ⟨_, _, same, _⟩ := onCallback_eq context.inst callback
  unfold Context.inputs Context.onCallback
  dsimp only
  rw [same]
  rfl

theorem modifyInst_inputs {f : TradeInstance → TradeInstance}
    (same : ∀ inst, (f inst).inputs = inst.inputs) :
    Keeps (Unchanged Context.inputs) (modifyInst f) :=
  fun context => same context.inst

theorem inputs_frame : ClosingFrame (Unchanged Context.inputs) where
  nextReply := keeps_nextReply (fun _ _ => rfl) onCallback_inputs
  record _ := keeps_modify fun _ => rfl
  modifyCase _ _ := modifyInst_inputs fun _ => rfl
  modifyAccount _ _ _ := modifyInst_inputs fun _ => rfl
  setTrigger := modifyInst_inputs fun _ => rfl
  crash := modifyInst_inputs fun _ => rfl
  modifyRoles _ _ := modifyInst_inputs fun _ => rfl

/-! ## Selection -/

theorem destroy_inputs (case : TradeCase) : Keeps (Unchanged Context.inputs) case.destroy := by
  apply keeps_destroy
  · intro account f _
    cases account with
    | none => exact keeps_pure ()
    | some side => exact modifyInst_inputs fun _ => rfl
  · exact inputs_frame.cancelAll
  · intro f waits
    refine modifyInst_inputs fun inst => ?_
    obtain ⟨_, _, same⟩ := waits inst
    rw [same]
    rfl

theorem replaceCase_inputs (tradeCase : Option TradeCase) :
    Keeps (Unchanged Context.inputs) (replaceCase tradeCase) := by
  refine keeps_getInst.bind fun inst => .bind (modifyInst_inputs fun _ => rfl) fun _ => ?_
  cases inst.tradeCase with
  | none => exact keeps_pure ()
  | some old => exact destroy_inputs old

theorem caseSelection_inputs : Keeps (Unchanged Context.inputs) caseSelection := by
  refine keeps_getInst.bind fun inst => .ite (fun _ => keeps_pure ()) fun _ => ?_
  exact .bind (modifyInst_inputs fun _ => rfl) fun _ => replaceCase_inputs _

theorem triggerSelection_inputs : Keeps (Unchanged Context.inputs) triggerSelection := by
  refine .bind (modifyInst_inputs fun _ => rfl) fun _ => keeps_getInst.bind fun inst => ?_
  exact .whenever (.bind (modifyInst_inputs fun _ => rfl) fun _ => caseSelection_inputs)

theorem specialCases_inputs : Keeps (Unchanged Context.inputs) specialCases := by
  refine .bind (modifyInst_inputs fun inst => ?_) fun _ => keeps_getInst.bind fun inst => ?_
  · unfold TradeInstance.selfDestruct
    split <;> rfl
  · refine .ite (fun _ => ?_) fun _ => .ite (fun _ => ?_) fun _ => ?_
    · refine .bind (.whenever (.bind ?_ fun _ => replaceCase_inputs _)) fun _ => keeps_pure true
      exact modifyInst_inputs fun _ => rfl
    · refine .bind (.whenever (.bind ?_ fun _ => replaceCase_inputs _)) fun _ => keeps_pure true
      exact modifyInst_inputs fun _ => rfl
    · exact (caseSelection_inputs.whenever).bind fun _ => keeps_pure false

theorem selection_inputs : Keeps (Unchanged Context.inputs) selection := by
  refine .bind (modifyInst_inputs fun _ => rfl) fun _ => ?_
  refine specialCases_inputs.bind fun special => .ite (fun _ => keeps_pure true) fun _ => ?_
  exact triggerSelection_inputs.bind fun _ => keeps_pure false

/-! ## The pass -/

theorem finishCase_inputs : Keeps (Unchanged Context.inputs) finishCase := by
  refine keeps_getInst.bind fun inst => ?_
  cases inst.tradeCase with
  | none => exact keeps_pure ()
  | some case =>
      refine .ite (fun _ => .whenever ?_) fun _ => .whenever ?_
      · exact modifyInst_inputs fun _ => rfl
      · exact .bind (modifyInst_inputs fun _ => rfl) fun _ => replaceCase_inputs _

theorem runCase_inputs : Keeps (Unchanged Context.inputs) runCase := by
  refine keeps_getInst.bind fun inst => ?_
  cases inst.tradeCase with
  | none => exact keeps_pure ()
  | some case =>
      refine (inputs_frame.run case).bind fun _ => keeps_unlessCrashed ?_
      exact .bind (modifyInst_inputs fun _ => rfl) fun _ => finishCase_inputs

/-- A pass ends with the inputs it has read. -/
theorem pass_inputs (quote : Quote) (context : Context) :
    ((pass quote).run context).2.inputs = (context.inst.readSymbolData quote).inputs := by
  have rest : Keeps (Unchanged Context.inputs)
      (do
        if (← getInst).priceEstimate ≤ 0 then return
        else
          let _ ← selection
          runCase
          modifyInst writeBack : CaseM Unit) := by
    refine keeps_getInst.bind fun inst => .ite (fun _ => keeps_pure ()) fun _ => ?_
    refine selection_inputs.bind fun _ => runCase_inputs.bind fun _ =>
      modifyInst_inputs fun inst => ?_
    obtain ⟨_, _, same⟩ := writeBack_eq inst
    rw [same]
    rfl
  exact rest (context.mapInst fun inst => inst.readSymbolData quote)

/-- Stopping an instance switches it off. -/
theorem act_stopAction_inputs (context : Context) (replies : List Reply) :
    (context.act (.stopAction replies)).inputs = { context.inputs with isEnable := false } := by
  have short := inputs_frame.cancelAll (some .short) { context with replies }
  have long := inputs_frame.cancelAll (some .long)
    ((cancelAll (some .short)).run { context with replies }).2
  exact congrArg (fun inputs : Inputs => { inputs with isEnable := false })
    (Eq.trans long short)

end TradingApp.Instance
