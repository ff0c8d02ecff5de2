import TradingApp.Instance.Frame

/-!
# Close modes and the held case

The mode flags of an instance, the type of the case it holds and whether its
thread is to exit.  Cases and callbacks leave all of it alone; what changes it
are the commands, the replacement of the case and the end of a pass.
-/

namespace TradingApp.Instance

open TradingApp.Account TradingApp.Transition

/-- The flags of the close modes, and the type of the held case. -/
structure Modes where
  isPanicClose : Bool
  panicCloseInit : Bool
  isSoftClose : Bool
  softCloseInit : Bool
  held : Option CaseType
  isNotDone : Bool

/-- The case is the panic or the soft close. -/
def CaseType.Closes (type : CaseType) : Prop :=
  type = .panicClose ∨ type = .softClose

instance (type : CaseType) : Decidable type.Closes :=
  inferInstanceAs (Decidable (_ ∨ _))

/-- The flags and the held case of an instance. -/
def TradeInstance.modes (inst : TradeInstance) : Modes where
  isPanicClose := inst.isPanicClose
  panicCloseInit := inst.panicCloseInit
  isSoftClose := inst.isSoftClose
  softCloseInit := inst.softCloseInit
  held := inst.tradeCase.map TradeCase.type
  isNotDone := inst.isNotDone

/-- Those of the instance. -/
def Context.modes (context : Context) : Modes :=
  context.inst.modes

/-! ## What leaves the modes alone -/

theorem onCallback_modes (context : Context) (callback : Callback) :
    (context.onCallback callback).modes = context.modes := by
  obtain ⟨_, _, same, held⟩ := onCallback_eq context.inst callback
  have types := congrArg (Option.map Identity.type) held
  simp only [Option.map_map] at types
  simp only [Context.modes, Context.onCallback, same, TradeInstance.modes, Modes.mk.injEq,
    true_and, and_true]
  exact types

theorem modifyInst_modes {f : TradeInstance → TradeInstance}
    (same : ∀ inst, (f inst).modes = inst.modes) :
    Keeps (Unchanged Context.modes) (modifyInst f) :=
  fun context => same context.inst

theorem modifyCase_modes {f : TradeCase → TradeCase} (same : ∀ case, (f case).type = case.type) :
    Keeps (Unchanged Context.modes) (modifyCase f) := by
  refine modifyInst_modes fun inst => ?_
  unfold TradeInstance.modes
  cases inst.tradeCase with
  | none => rfl
  | some case => simp only [Option.map_some, same]

/-- Every case leaves the modes and its own type alone. -/
theorem modes_frame : ClosingFrame (Unchanged Context.modes) where
  nextReply := keeps_nextReply (fun _ _ => rfl) onCallback_modes
  record _ := keeps_modify fun _ => rfl
  modifyCase _ same := modifyCase_modes fun case => congrArg Identity.type (same case)
  modifyAccount _ _ _ := modifyInst_modes fun _ => rfl
  setTrigger := modifyInst_modes fun _ => rfl
  crash := modifyInst_modes fun _ => rfl
  modifyRoles _ same := modifyCase_modes same

theorem destroy_modes (case : TradeCase) : Keeps (Unchanged Context.modes) case.destroy := by
  apply keeps_destroy
  · intro account f _
    cases account with
    | none => exact keeps_pure ()
    | some side => exact modifyInst_modes fun _ => rfl
  · exact modes_frame.cancelAll
  · intro f waits
    refine modifyInst_modes fun inst => ?_
    obtain ⟨_, _, same⟩ := waits inst
    rw [same]
    rfl

theorem act_stopAction_modes (context : Context) (replies : List Reply) :
    (context.act (.stopAction replies)).modes = context.modes :=
  Context.act_stopAction modes_frame.cancelAll (modifyInst_modes fun _ => rfl) context replies

/-- The end of a pass notes a crash, which is none of them. -/
theorem writeBack_modes (context : Context) :
    (context.mapInst writeBack).modes = context.modes := by
  obtain ⟨_, _, same⟩ := writeBack_eq context.inst
  unfold Context.modes Context.mapInst
  rw [same]
  rfl

/-! ## What changes them -/

/-- Replacing the case changes the type of the held case only. -/
theorem replaceCase_modes (tradeCase : Option TradeCase) (context : Context) :
    ((replaceCase tradeCase).run context).2.modes =
      { context.modes with held := tradeCase.map TradeCase.type } := by
  unfold replaceCase
  rw [run_getInst_bind, run_modifyInst_bind]
  cases context.inst.tradeCase with
  | none => rfl
  | some old => exact destroy_modes old _

theorem selfDestruct_modes (inst : TradeInstance) :
    inst.selfDestruct.modes = inst.modes ∨
      inst.selfDestruct.modes =
        { inst.modes with isPanicClose := true, panicCloseInit := true } := by
  unfold TradeInstance.selfDestruct
  split
  · exact Or.inr rfl
  · exact Or.inl rfl

/-- The end of a pass only stops the thread of a held close case that is
done. -/
theorem finishCase_modes (context : Context) :
    (finishCase.run context).2.modes = context.modes ∨
      ((∃ case ∈ (finishCase.run context).2.inst.tradeCase,
          case.type.Closes ∧ case.state = .done) ∧
        (finishCase.run context).2.modes = { context.modes with isNotDone := true }) ∨
      ((∃ type ∈ context.modes.held, ¬ type.Closes) ∧
        (finishCase.run context).2.modes = { context.modes with held := none }) := by
  unfold finishCase
  rw [run_getInst_bind]
  cases held : context.inst.tradeCase with
  | none => exact Or.inl rfl
  | some case =>
      by_cases closes : case.type = .panicClose ∨ case.type = .softClose
      · dsimp only
        rw [if_pos closes, whenever]
        split
        · rename_i done
          exact Or.inr (Or.inl ⟨⟨case, held, closes, done⟩, rfl⟩)
        · exact Or.inl rfl
      · dsimp only
        rw [if_neg closes, whenever]
        split
        · refine Or.inr (Or.inr ⟨⟨case.type, ?_, closes⟩, ?_⟩)
          · exact Option.mem_map.mpr ⟨case, held, rfl⟩
          · rw [run_modifyInst_bind, replaceCase_modes]
            rfl
        · exact Or.inl rfl

/-- Running the held case and finishing it stops the thread only of a close
case that is done, and drops no close case. -/
theorem runCase_modes (context : Context) :
    (runCase.run context).2.modes = context.modes ∨
      ((∃ case ∈ (runCase.run context).2.inst.tradeCase, case.type.Closes ∧ case.state = .done) ∧
        (runCase.run context).2.modes = { context.modes with isNotDone := true }) ∨
      ((∃ type ∈ context.modes.held, ¬ type.Closes) ∧
        (runCase.run context).2.modes = { context.modes with held := none }) := by
  unfold runCase
  rw [run_getInst_bind]
  cases context.inst.tradeCase with
  | none => exact Or.inl rfl
  | some case =>
      let ran := (case.run.run context).2
      have same : ran.modes = context.modes := modes_frame.run case context
      let noted := ran.mapInst fun inst =>
        { inst with lastState := (inst.tradeCase.map TradeCase.state).getD inst.lastState }
      dsimp only
      rw [run_bind, run_unlessCrashed, ← same]
      split
      · exact Or.inl rfl
      · exact finishCase_modes noted

/-! ## Selection -/

/-- The context after the check of the live orders. -/
def Context.checked (context : Context) : Context :=
  (context.mapInst fun inst =>
    { inst with tradePrice := inst.priceEstimate }).mapInst TradeInstance.selfDestruct

theorem checked_modes (context : Context) :
    context.checked.modes = context.modes ∨
      context.checked.modes = { context.modes with isPanicClose := true, panicCloseInit := true } :=
  selfDestruct_modes _

/-- A close case is created if its mode asks for it. -/
def createClose (asked : Bool) (clear : TradeInstance → TradeInstance) (type : CaseType) :
    CaseM Unit := do
  let inst ← getInst
  whenever (asked = true) do
    modifyInst clear
    replaceCase (TradeCaseFactory.create inst type)

/-- `createClose` for the panic close. -/
def createPanicClose (inst : TradeInstance) : CaseM Unit :=
  createClose inst.panicCloseInit (fun inst => { inst with panicCloseInit := false }) .panicClose

/-- `createClose` for the soft close. -/
def createSoftClose (inst : TradeInstance) : CaseM Unit :=
  createClose inst.softCloseInit (fun inst => { inst with softCloseInit := false }) .softClose

/-- The case selection of a pass without close mode, if no case is held. -/
def fillCase (inst : TradeInstance) : CaseM Unit :=
  whenever (inst.currentAcc ≠ none ∧ inst.oppositeAcc ≠ none ∧ inst.tradeCase = none) caseSelection

theorem selection_panic {context : Context} (panic : context.checked.inst.isPanicClose = true) :
    selection.run context =
      (true, ((createPanicClose context.checked.inst).run context.checked).2) := by
  unfold selection specialCases
  rw [run_modifyInst_bind, run_bind, run_modifyInst_bind, run_getInst_bind, ← Context.checked,
    if_pos panic]
  rfl

theorem selection_soft {context : Context} (notPanic : context.checked.inst.isPanicClose ≠ true)
    (soft : context.checked.inst.isSoftClose = true) :
    selection.run context =
      (true, ((createSoftClose context.checked.inst).run context.checked).2) := by
  unfold selection specialCases
  rw [run_modifyInst_bind, run_bind, run_modifyInst_bind, run_getInst_bind, ← Context.checked,
    if_neg notPanic, if_pos soft]
  rfl

theorem selection_open {context : Context} (notPanic : context.checked.inst.isPanicClose ≠ true)
    (notSoft : context.checked.inst.isSoftClose ≠ true) :
    selection.run context =
      (false, ((do
        fillCase context.checked.inst
        triggerSelection).run context.checked).2) := by
  unfold selection specialCases
  rw [run_modifyInst_bind, run_bind, run_modifyInst_bind, run_getInst_bind, ← Context.checked,
    if_neg notPanic, if_neg notSoft]
  rfl

/-- A panic close that is asked for replaces the held case. -/
theorem createPanicClose_modes (context : Context) :
    ((createPanicClose context.inst).run context).2.modes =
      { context.modes with
        panicCloseInit := false
        held := if context.inst.panicCloseInit then some .panicClose else context.modes.held } := by
  unfold createPanicClose createClose
  rw [run_getInst_bind]
  cases asked : context.inst.panicCloseInit with
  | true =>
      rw [whenever, if_pos rfl, run_modifyInst_bind, replaceCase_modes]
      rfl
  | false =>
      rw [whenever, if_neg Bool.false_ne_true]
      change context.modes = { context.modes with panicCloseInit := false }
      rw [← asked]
      rfl

/-- A soft close that is asked for replaces the held case. -/
theorem createSoftClose_modes (context : Context) :
    ((createSoftClose context.inst).run context).2.modes =
      { context.modes with
        softCloseInit := false
        held := if context.inst.softCloseInit then some .softClose else context.modes.held } := by
  unfold createSoftClose createClose
  rw [run_getInst_bind]
  cases asked : context.inst.softCloseInit with
  | true =>
      rw [whenever, if_pos rfl, run_modifyInst_bind, replaceCase_modes]
      rfl
  | false =>
      rw [whenever, if_neg Bool.false_ne_true]
      change context.modes = { context.modes with softCloseInit := false }
      rw [← asked]
      rfl

/-- Only the held case changes, and not to a close case. -/
def SelectsNoClose (first last : Context) : Prop :=
  ∃ held, last.modes = { first.modes with held } ∧
    (held = first.modes.held ∨ ∀ type ∈ held, ¬ type.Closes)

instance : Std.Refl SelectsNoClose :=
  ⟨fun context => ⟨context.modes.held, rfl, Or.inl rfl⟩⟩

instance : IsTrans Context SelectsNoClose where
  trans first second third := by
    rintro ⟨held, modes, same | open_⟩ ⟨held', modes', same' | open'⟩
    · refine ⟨held', by rw [modes', modes], Or.inl ?_⟩
      rw [same', modes, same]
    · exact ⟨held', by rw [modes', modes], Or.inr open'⟩
    · refine ⟨held', by rw [modes', modes], Or.inr ?_⟩
      rw [same', modes]
      exact open_
    · exact ⟨held', by rw [modes', modes], Or.inr open'⟩

theorem selectsNoClose_of_modes {first last : Context} (same : last.modes = first.modes) :
    SelectsNoClose first last :=
  ⟨first.modes.held, same, Or.inl rfl⟩

/-- The selection by positions selects no close case. -/
theorem selectCase_not_closes (inst : TradeInstance) : ¬ inst.selectCase.1.Closes := by
  unfold TradeInstance.selectCase
  dsimp only
  split_ifs <;> decide

theorem create_type (inst : TradeInstance) {type created : CaseType}
    (member : created ∈ (TradeCaseFactory.create inst type).map TradeCase.type) :
    created = type := by
  cases type with
  | none => cases member
  | case4 | hedgeCurrent | case9 | case10 | panicClose | softClose =>
      cases member
      rfl

theorem caseSelection_selectsNoClose : Keeps SelectsNoClose caseSelection := by
  refine keeps_getInst.bind fun inst => .ite (fun _ => keeps_pure ()) fun _ => ?_
  refine .bind (fun context => selectsNoClose_of_modes rfl) fun _ context => ?_
  refine ⟨_, replaceCase_modes _ context, Or.inr fun type member => ?_⟩
  rw [create_type inst member]
  exact selectCase_not_closes inst

theorem triggerSelection_selectsNoClose : Keeps SelectsNoClose triggerSelection := by
  refine .bind (fun _ => selectsNoClose_of_modes rfl) fun _ => keeps_getInst.bind fun inst => ?_
  exact .whenever (.bind (fun _ => selectsNoClose_of_modes rfl) fun _ =>
    caseSelection_selectsNoClose)

/-- A selection without close mode keeps the held case or selects one that
closes nothing. -/
theorem selection_open_selectsNoClose {context : Context}
    (notPanic : context.checked.inst.isPanicClose ≠ true)
    (notSoft : context.checked.inst.isSoftClose ≠ true) :
    SelectsNoClose context.checked (selection.run context).2 := by
  rw [selection_open notPanic notSoft]
  exact ((caseSelection_selectsNoClose.whenever).bind fun _ =>
    triggerSelection_selectsNoClose) context.checked

/-- A selection that ends in no close mode keeps the held case or selects one
that closes nothing, and any selection leaves the thread running. -/
theorem selection_modes (context : Context) :
    (selection.run context).2.modes.isNotDone = context.modes.isNotDone ∧
      ((selection.run context).1 = false → ∀ type ∈ (selection.run context).2.modes.held,
        type.Closes → context.modes.held = some type) := by
  have checked : context.checked.modes.held = context.modes.held ∧
      context.checked.modes.isNotDone = context.modes.isNotDone := by
    rcases checked_modes context with same | same
    · rw [same]
      exact ⟨rfl, rfl⟩
    · rw [same]
      exact ⟨rfl, rfl⟩
  by_cases panic : context.checked.inst.isPanicClose = true
  · rw [selection_panic panic]
    refine ⟨?_, nofun⟩
    rw [createPanicClose_modes]
    exact checked.2
  · by_cases soft : context.checked.inst.isSoftClose = true
    · rw [selection_soft panic soft]
      refine ⟨?_, nofun⟩
      rw [createSoftClose_modes]
      exact checked.2
    · obtain ⟨held, modes, kept⟩ := selection_open_selectsNoClose panic soft
      rw [modes]
      refine ⟨checked.2, fun _ type member closes => ?_⟩
      rcases kept with same | open_
      · rw [← checked.1, ← same]
        exact member
      · exact absurd closes (open_ type member)

end TradingApp.Instance
