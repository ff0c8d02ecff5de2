import TradingApp.Instance.Restart
import TradingApp.Instance.Switches

/-!
# When a close mode finishes

A close mode is finished once both accounts hold equal positions.  If the
gateway brings nothing more, the thread then stops within two passes: a soft
close that is created then still sends an order of no lots, and sees in the next
pass that it is done.  Only a panic close whose order failed is never run again;
and if no trigger was ever chosen, the first pass ends the program instead.
-/

namespace TradingApp.Instance

open TradingApp.Account TradingApp.Redis TradingApp.Transition

namespace TradeInstance

/-- Both accounts hold equal positions. -/
def Hedged (inst : TradeInstance) : Prop :=
  inst.position (some .short) = inst.position (some .long)

/-- A close mode is on. -/
def InCloseMode (inst : TradeInstance) : Prop :=
  inst.isPanicClose = true ∨ inst.isSoftClose = true

/-- In a close mode, the next pass creates a close case. -/
def AsksAnew (inst : TradeInstance) : Prop :=
  inst.LiveLimitExceeded ∨
    if inst.isPanicClose = true then inst.panicCloseInit = true else inst.softCloseInit = true

/-- A panic close has failed, and no close case will replace it. -/
def Stuck (inst : TradeInstance) : Prop :=
  (∃ case ∈ inst.tradeCase, case.type = .panicClose ∧ case.state = .failed) ∧ ¬ inst.AsksAnew

instance (inst : TradeInstance) : Decidable inst.Hedged :=
  inferInstanceAs (Decidable (_ = _))

instance (inst : TradeInstance) : Decidable inst.InCloseMode :=
  inferInstanceAs (Decidable (_ ∨ _))

end TradeInstance

/-- A pass on positive estimates during which the gateway brings nothing. -/
def Label.QuietPass : Label → Prop
  | .pass quote replies =>
      (0 < quote.priceEstimate1 ∧ 0 < quote.priceEstimate2) ∧
        ∀ reply ∈ replies, reply.callbacks = []
  | _ => False

instance : (label : Label) → Decidable label.QuietPass
  | .pass _ _ => inferInstanceAs (Decidable (_ ∧ _))
  | .callback _ | .enablePanicClose | .disablePanicClose | .enableSoftClose | .disableSoftClose
  | .resume | .pause | .avicennaToggle | .stopAction _ => inferInstanceAs (Decidable False)

variable {context : Context} {case : TradeCase} {chosen : Prop}

/-! ## The end of a close case -/

/-- Equal positions of the accounts are equal positions of a proper case's. -/
theorem TradeCase.Proper.positions (proper : case.Proper chosen) {inst : TradeInstance}
    (hedged : inst.Hedged) : inst.position case.currentAcc = inst.position case.oppositeAcc := by
  obtain ⟨trigger, _, roles⟩ := proper.roles
  obtain ⟨current, opposite⟩ := Prod.mk.inj roles
  rw [current, opposite]
  cases trigger with
  | init => rfl
  | positive => exact hedged.symm
  | negative => exact hedged

/-- The state that is set is the state of the held case. -/
theorem setState_state (state : CaseState) (context : Context) :
    ∀ held ∈ ((setState state).run context).2.inst.tradeCase, held.state = state := by
  intro held member
  obtain ⟨origin, _, rfl⟩ := Option.map_eq_some_iff.mp member
  rfl

/-- The held case is done, or has an order out. -/
def DoneOrSent (context : Context) : Prop :=
  ∀ held ∈ context.inst.tradeCase, held.state = .done ∨ held.state = .priceChange

theorem modifyCase_doneOrSent {f : TradeCase → TradeCase}
    (same : ∀ case, (f case).state = case.state) : Keeps (Preserves DoneOrSent) (modifyCase f) := by
  intro context holds held member
  obtain ⟨origin, isHeld, rfl⟩ := Option.map_eq_some_iff.mp member
  rw [same]
  exact holds origin isHeld

theorem doneOrSent_of_core {α : Type} {m : CaseM α} (keeps : Keeps (Unchanged Context.core) m) :
    Keeps (Preserves DoneOrSent) m := by
  intro context holds held member
  obtain ⟨origin, isHeld, same⟩ := exists_of_core (keeps context) held member
  rw [← (type_state_of_withoutRequotes same).2]
  exact holds origin isHeld

/-- A soft close that finds the positions equal is done, or sends an order. -/
theorem softClose_init_hedged (hedged : context.inst.Hedged) (case : TradeCase) :
    DoneOrSent ((SoftClose.init case).run context).2 := by
  have sets {state : CaseState} (oneOf : state = .done ∨ state = .priceChange) :
      Keeps (Preserves DoneOrSent) (setState state) := by
    intro context _ held member
    rw [setState_state state context held member]
    exact oneOf
  have equal : context.inst.position (some .short) = context.inst.position (some .long) := hedged
  unfold SoftClose.init
  rw [run_getInst_bind, whenever, if_pos equal]
  refine holds_bind (fun held member => Or.inl (setState_state .done context held member))
    fun _ => ?_
  have keeps {f : TradeInstance → TradeInstance}
      (same : ∀ inst, (f inst).tradeCase = inst.tradeCase ∧ (f inst).currentAcc = inst.currentAcc) :
      Keeps (Preserves DoneOrSent) (modifyInst f) :=
    doneOrSent_of_core (modifyInst_core same)
  refine .bind (keeps fun _ => ⟨rfl, rfl⟩) fun _ => .ite (fun _ => keeps fun _ => ⟨rfl, rfl⟩) ?_
  refine fun _ => .bind (modifyCase_doneOrSent fun _ => rfl) fun _ => ?_
  refine keeps_getInst.bind fun inst => ?_
  refine .bind (modifyCase_doneOrSent fun _ => rfl) fun _ => ?_
  refine .ite (fun _ => keeps_pure ()) fun _ => ?_
  refine (doneOrSent_of_core (core_frame.closeOrder _ _ _)).bind fun _ => ?_
  exact .bind (modifyCase_doneOrSent fun _ => rfl) fun _ => sets (Or.inr rfl)

/-- A close case that has not failed and finds the positions equal is done,
except that a new soft close may send an order first. -/
theorem run_hedged (closes : case.type.Closes) (proper : case.Proper chosen)
    (hedged : context.inst.Hedged) (held : context.inst.tradeCase = some case)
    (notFailed : case.state ≠ .failed) :
    ∀ ran ∈ (case.run.run context).2.inst.tradeCase,
      ran.state = .done ∨
        case.type = .softClose ∧ case.state = .init ∧ ran.state = .priceChange := by
  have equal := proper.positions hedged
  have sides : context.inst.position (some .short) = context.inst.position (some .long) := hedged
  let Ends (after : Context) : Prop := ∀ ran ∈ after.inst.tradeCase,
    ran.state = .done ∨ case.type = .softClose ∧ case.state = .init ∧ ran.state = .priceChange
  have sets : Ends ((setState .done).run context).2 :=
    fun ran member => Or.inl (setState_state .done context ran member)
  change Ends (case.run.run context).2
  cases state : case.state with
  | init =>
      rcases closes with type | type
      · have runs : case.run = PanicClose.init case := by
          simp only [TradeCase.run, TradeCase.init, state, type]
        rw [runs, PanicClose.init, run_getInst_bind, if_pos sides]
        exact sets
      · have runs : case.run = SoftClose.init case := by
          simp only [TradeCase.run, TradeCase.init, state, type]
        rw [runs]
        intro ran member
        refine (softClose_init_hedged hedged case ran member).imp id fun sent => ?_
        exact ⟨type, state, sent⟩
  | priceChange =>
      rcases closes with type | type
      · have runs : case.run = PanicClose.reprice case := by
          simp only [TradeCase.run, TradeCase.reprice, state, type]
        rw [runs, PanicClose.reprice, run_getInst_bind, if_pos equal.symm]
        exact sets
      · have runs : case.run = SoftClose.reprice case := by
          simp only [TradeCase.run, TradeCase.reprice, state, type]
        rw [runs, SoftClose.reprice, run_getInst_bind, if_pos equal.symm]
        exact sets
  | wait =>
      have runs : case.run = waitEqual case := by
        rcases closes with type | type
        · simp only [TradeCase.run, TradeCase.wait, state, type]
        · simp only [TradeCase.run, TradeCase.wait, state, type]
      rw [runs, waitEqual, run_getInst_bind, whenever, if_pos equal]
      exact sets
  | done =>
      have runs : case.run = pure () := by simp only [TradeCase.run, state]
      rw [runs]
      intro ran member
      rw [← Option.some_injective _ (held.symm.trans member)]
      exact Or.inl state
  | failed => exact absurd state notFailed
  | notSelected => exact absurd state proper.selected

/-! ## The end of a pass -/

theorem finishCase_closes (closes : case.type.Closes) (held : context.inst.tradeCase = some case) :
    (finishCase.run context).2.inst.tradeCase = some case ∧
      (finishCase.run context).2.inst.isNotDone =
        (context.inst.isNotDone || decide (case.state = .done)) := by
  have isClose : case.type = .panicClose ∨ case.type = .softClose := closes
  unfold finishCase
  rw [run_getInst_bind, held]
  dsimp only
  rw [if_pos isClose, whenever]
  split
  · rename_i done
    rw [decide_eq_true done, Bool.or_true]
    exact ⟨held, rfl⟩
  · rename_i notDone
    rw [decide_eq_false notDone, Bool.or_false]
    exact ⟨held, rfl⟩

/-- The thread stops if the held case is a close case that has not failed and
finds the positions equal, except that a new soft close may send an order
first. -/
theorem runCase_hedged (closes : case.type.Closes) (proper : case.Proper chosen)
    (isChosen : chosen) (alive : context.crashed = false) (hedged : context.inst.Hedged)
    (held : context.inst.tradeCase = some case) (notFailed : case.state ≠ .failed) :
    (runCase.run context).2.inst.isNotDone = true ∨
      case.type = .softClose ∧ case.state = .init ∧
        ∃ sent ∈ (runCase.run context).2.inst.tradeCase,
          sent.type = .softClose ∧ sent.state = .priceChange := by
  have ends := run_hedged closes proper hedged held notFailed
  have kept : (case.run.run context).2.modes.held = some case.type :=
    (congrArg Modes.held (modes_frame.run case context)).trans
      (congrArg (Option.map TradeCase.type) held)
  obtain ⟨ran, isRan, type⟩ := Option.map_eq_some_iff.mp kept
  have isClose : ran.type.Closes := type ▸ closes
  have still : (case.run.run context).2.inst.crashed = false :=
    (run_crashed (fun _ => proper.pointers isChosen) context).trans alive
  unfold runCase
  rw [run_getInst_bind, held, run_bind, run_unlessCrashed, if_neg (ne_true_of_eq_false still),
    run_modifyInst_bind]
  generalize noted_eq : (case.run.run context).2.mapInst (fun inst =>
    { inst with lastState := (inst.tradeCase.map TradeCase.state).getD inst.lastState }) = noted
  have isHeld : noted.inst.tradeCase = some ran := noted_eq ▸ isRan
  obtain ⟨last, stopped⟩ := finishCase_closes isClose isHeld
  rcases ends ran isRan with done | ⟨soft, init, sent⟩
  · refine Or.inl ?_
    rw [stopped, decide_eq_true done, Bool.or_true]
  · exact Or.inr ⟨soft, init, ran, last, type.trans soft, sent⟩

/-- A failed close case is not run. -/
theorem runCase_failed (closes : case.type.Closes) (alive : context.inst.crashed = false)
    (held : context.inst.tradeCase = some case) (failed : case.state = .failed) :
    (runCase.run context).2 = context.mapInst fun inst => { inst with lastState := .failed } := by
  have runs : case.run = pure () := by simp only [TradeCase.run, failed]
  have isClose : case.type = .panicClose ∨ case.type = .softClose := closes
  have notDone : ¬ CaseState.failed = .done := by decide
  have noted : (context.mapInst fun inst =>
      { inst with lastState := (inst.tradeCase.map TradeCase.state).getD inst.lastState }) =
      context.mapInst fun inst => { inst with lastState := .failed } := by
    have last : (context.inst.tradeCase.map TradeCase.state).getD context.inst.lastState =
        .failed := by
      rw [held]
      exact failed
    unfold Context.mapInst
    dsimp only
    rw [last]
  have isHeld : (context.mapInst fun inst =>
      { inst with lastState := .failed }).inst.tradeCase = some case := held
  unfold runCase
  rw [run_getInst_bind, held]
  dsimp only
  rw [runs, pure_bind, run_unlessCrashed, if_neg (ne_true_of_eq_false alive), run_modifyInst_bind,
    noted]
  unfold finishCase
  rw [run_getInst_bind, isHeld]
  dsimp only
  rw [if_pos isClose, whenever, failed, if_neg notDone]
  rfl

/-! ## Selection -/

/-- With few live orders the check of them changes nothing. -/
theorem checked_calm (calm : ¬ context.inst.LiveLimitExceeded) :
    context.checked = context.mapInst fun inst =>
      { inst with tradePrice := inst.priceEstimate } := by
  have few : ¬ TradeInstance.LiveLimitExceeded
      { context.inst with tradePrice := context.inst.priceEstimate } := calm
  unfold Context.checked Context.mapInst TradeInstance.selfDestruct
  rw [if_neg few]

/-- In a close mode that asks for nothing, a selection only notes the
estimate. -/
theorem selection_asksNothing (mode : context.inst.InCloseMode)
    (nothing : ¬ context.inst.AsksAnew) :
    (selection.run context).2 = context.mapInst fun inst =>
      { inst with tradePrice := inst.priceEstimate } := by
  obtain ⟨calm, notAsked⟩ := not_or.mp nothing
  have same := checked_calm calm
  have isPanicClose : context.checked.inst.isPanicClose = context.inst.isPanicClose := by
    rw [same]
    rfl
  by_cases panic : context.inst.isPanicClose = true
  · rw [selection_panic (isPanicClose.trans panic), ← same]
    rw [if_pos panic] at notAsked
    have notInit : ¬ context.checked.inst.panicCloseInit = true := by
      rw [same]
      exact notAsked
    unfold createPanicClose createClose
    rw [run_getInst_bind, whenever, if_neg notInit]
    rfl
  · have soft : context.checked.inst.isSoftClose = true := by
      rw [same]
      exact mode.resolve_left panic
    rw [selection_soft (isPanicClose ▸ panic) soft, ← same]
    rw [if_neg panic] at notAsked
    have notInit : ¬ context.checked.inst.softCloseInit = true := by
      rw [same]
      exact notAsked
    unfold createSoftClose createClose
    rw [run_getInst_bind, whenever, if_neg notInit]
    rfl

/-- A close case that is asked for is created, and its request is cleared. -/
theorem createClose_creates (context : Context) (clear : TradeInstance → TradeInstance)
    {type : CaseType} (closes : type.Closes) :
    ∃ created ∈ ((createClose true clear type).run context).2.inst.tradeCase,
      created.type = type ∧ created.state = .init := by
  unfold createClose
  rw [run_getInst_bind, whenever, if_pos rfl, run_modifyInst_bind]
  have isNew : TradeCaseFactory.create context.inst type =
      some (TradeCase.create context.inst type) := by
    rcases closes with rfl | rfl
    · rfl
    · rfl
  have core := replaceCase_core (TradeCaseFactory.create context.inst type)
    (context.mapInst clear)
  rw [isNew] at core ⊢
  obtain ⟨created, held, same⟩ := Option.map_eq_some_iff.mp (congrArg Prod.fst core)
  obtain ⟨isType, state⟩ := type_state_of_withoutRequotes same
  exact ⟨created, held, isType, state⟩

/-- In a close mode that asks anew, a selection creates a close case; a soft
close only if one was asked for. -/
theorem selection_asksAnew (mode : context.inst.InCloseMode) (asks : context.inst.AsksAnew) :
    ∃ created ∈ (selection.run context).2.inst.tradeCase,
      created.type.Closes ∧ created.state = .init ∧
        (created.type = .softClose → context.inst.softCloseInit = true) := by
  have createsPanic (panic : context.checked.inst.isPanicClose = true)
      (asked : context.checked.inst.panicCloseInit = true) :
      ∃ created ∈ (selection.run context).2.inst.tradeCase,
        created.type.Closes ∧ created.state = .init ∧
          (created.type = .softClose → context.inst.softCloseInit = true) := by
    rw [selection_panic panic, createPanicClose, asked]
    obtain ⟨created, held, type, state⟩ := createClose_creates context.checked
      (fun inst => { inst with panicCloseInit := false }) (Or.inl rfl)
    exact ⟨created, held, Or.inl type, state, fun soft => nomatch type.symm.trans soft⟩
  by_cases exceeded : context.inst.LiveLimitExceeded
  · have many : TradeInstance.LiveLimitExceeded
        { context.inst with tradePrice := context.inst.priceEstimate } := exceeded
    have checked : context.checked = context.mapInst fun inst =>
        TradeInstance.enablePanicClose { inst with tradePrice := inst.priceEstimate } := by
      unfold Context.checked Context.mapInst TradeInstance.selfDestruct
      rw [if_pos many]
    refine createsPanic ?_ ?_
    · rw [checked]
      rfl
    · rw [checked]
      rfl
  · have checked := checked_calm exceeded
    have asked := asks.resolve_left exceeded
    by_cases panic : context.inst.isPanicClose = true
    · rw [if_pos panic] at asked
      refine createsPanic ?_ ?_
      · rw [checked]
        exact panic
      · rw [checked]
        exact asked
    · rw [if_neg panic] at asked
      have notPanic : context.checked.inst.isPanicClose ≠ true := by
        rw [checked]
        exact panic
      have soft : context.checked.inst.isSoftClose = true := by
        rw [checked]
        exact mode.resolve_left panic
      have init : context.checked.inst.softCloseInit = true := by
        rw [checked]
        exact asked
      rw [selection_soft notPanic soft, createSoftClose, init]
      obtain ⟨created, held, type, state⟩ := createClose_creates context.checked
        (fun inst => { inst with softCloseInit := false }) (Or.inr rfl)
      exact ⟨created, held, Or.inr type, state, fun _ => asked⟩

/-- A close mode without a panic close is a soft close. -/
theorem checked_isSoftClose (mode : context.inst.InCloseMode)
    (notPanic : context.checked.inst.isPanicClose ≠ true) :
    context.checked.inst.isSoftClose = true := by
  rcases checked_modes context with same | same
  · have isPanicClose := congrArg Modes.isPanicClose same
    have isSoftClose := congrArg Modes.isSoftClose same
    exact Eq.trans isSoftClose (mode.resolve_left fun on => notPanic (Eq.trans isPanicClose on))
  · exact absurd (congrArg Modes.isPanicClose same) notPanic

/-- In a close mode, a selection is made by that mode. -/
theorem selection_special (mode : context.inst.InCloseMode) : (selection.run context).1 = true := by
  by_cases panic : context.checked.inst.isPanicClose = true
  · rw [selection_panic panic]
  · rw [selection_soft panic (checked_isSoftClose mode panic)]

/-- A selection that ends with a soft close has cleared its request. -/
theorem selection_soft_cleared (takenUp : context.modes.TakenUp) (mode : context.inst.InCloseMode)
    (held : (selection.run context).2.modes.held = some .softClose) :
    (selection.run context).2.modes.softCloseInit = false := by
  have after := (selection_takenUp takenUp).1
  by_cases panic : context.checked.inst.isPanicClose = true
  · rw [selection_panic panic] at held after
    rw [createPanicClose_modes] at held after
    exact nomatch (after.panic panic rfl).symm.trans held
  · rw [selection_soft panic (checked_isSoftClose mode panic), createSoftClose_modes]

/-! ## Passes -/

/-- An instance that has chosen a trigger and is in a close mode with nothing left to
close. -/
structure Closed (context : Context) : Prop extends Steady context where
  alive : context.crashed = false
  isChosen : context.inst.HasChosen
  isEnable : context.inst.isEnable = true
  mode : context.inst.InCloseMode
  hedged : context.inst.Hedged

/-- A soft close has an order out, and no new one is asked for. -/
def SoftSent (context : Context) : Prop :=
  context.inst.softCloseInit = false ∧
    ∃ sent ∈ context.inst.tradeCase, sent.type = .softClose ∧ sent.state = .priceChange

theorem softSent_writeBack : SoftSent (context.mapInst writeBack) ↔ SoftSent context := by
  obtain ⟨_, _, same⟩ := writeBack_eq context.inst
  unfold SoftSent Context.mapInst
  rw [same]

theorem hedged_writeBack {inst : TradeInstance} (hedged : inst.Hedged) :
    (writeBack inst).Hedged := by
  obtain ⟨_, _, same⟩ := writeBack_eq inst
  rw [same]
  exact hedged

theorem stuck_writeBack {inst : TradeInstance} (stuck : inst.Stuck) : (writeBack inst).Stuck := by
  obtain ⟨_, _, same⟩ := writeBack_eq inst
  rw [same]
  exact stuck

theorem hedged_of_sameHolding {inst other : TradeInstance}
    (same : ∀ side, SameHolding (inst.accounts.get side) (other.accounts.get side))
    (hedged : inst.Hedged) : other.Hedged := by
  have position (side : OrderAccountType) :
      other.position (some side) = inst.position (some side) := by
    change (other.accounts.get side).total * (other.accounts.get side).divisor =
      (inst.accounts.get side).total * (inst.accounts.get side).divisor
    rw [(same side).total, (same side).divisor]
  unfold TradeInstance.Hedged
  rw [position, position]
  exact hedged

/-- Selection and case leave equal positions equal if nothing arrives. -/
theorem quiet_hedged {quote : Quote} {replies : List Reply}
    (quiet : ∀ reply ∈ replies, reply.callbacks = []) (hedged : context.inst.Hedged) :
    (selection.run (context.quoted quote replies)).2.inst.Hedged ∧
      (runCase.run (selection.run (context.quoted quote replies)).2).2.inst.Hedged := by
  have frame := undisturbed_frame context.inst.accounts context.inst.redisWriter
  have start : Undisturbed context.inst.accounts context.inst.redisWriter
      (context.quoted quote replies) :=
    ⟨quiet, fun side => ⟨rfl, rfl, rfl, rfl, rfl, rfl, rfl, rfl, rfl⟩, rfl⟩
  have selected := frame.selection _ start
  exact ⟨hedged_of_sameHolding selected.holding hedged,
    hedged_of_sameHolding (frame.runCase _ selected).holding hedged⟩

/-- The estimate of a quiet pass is positive. -/
theorem quoted_positive {quote : Quote} {replies : List Reply}
    (positive : 0 < quote.priceEstimate1 ∧ 0 < quote.priceEstimate2) :
    0 < (context.quoted quote replies).inst.priceEstimate := by
  change 0 < if context.inst.avicennaToggle then quote.priceEstimate1 else quote.priceEstimate2
  split
  · exact positive.1
  · exact positive.2

/-- A quiet pass leaves nothing left to close. -/
theorem Closed.step (closed : Closed context) {label : Label} (isPass : label.QuietPass) :
    Closed (context.step label) := by
  cases label with
  | pass quote replies =>
      obtain ⟨positive, quiet⟩ := isPass
      have switches := pass_switches context quote replies
      have panics := pass_isPanicClose context quote replies
      rw [Context.act_pass] at switches panics
      have alive : (context.step (.pass quote replies)).crashed = false := by
        by_contra crashed
        have ends := (step_crashed_iff closed.toSteady closed.alive (.pass quote replies)).mp
          ((Bool.not_eq_false _).mp crashed)
        exact ends.2 closed.isChosen
      refine
        { toSteady := closed.toSteady.step _ alive
          alive
          isChosen := step_hasChosen closed.settled closed.isChosen _
          isEnable := switches.1.trans closed.isEnable
          mode := closed.mode.imp (fun panic => panics.mpr (Or.inr panic)) switches.2.1.trans
          hedged := ?_ }
      by_cases running : context.Running
      · rw [Context.step_pass running (quoted_positive positive)]
        exact hedged_writeBack (quiet_hedged quiet closed.hedged).2
      · rw [Context.step_pass_of_not running]
        exact closed.hedged
  | _ => exact absurd isPass id

/-- A quiet pass leaves an instance stuck, and running. -/
theorem Closed.step_stuck (closed : Closed context) (running : context.inst.isNotDone = false)
    (stuck : context.inst.Stuck) {label : Label} (isPass : label.QuietPass) :
    (context.step label).inst.isNotDone = false ∧ (context.step label).inst.Stuck := by
  cases label with
  | pass quote replies =>
      obtain ⟨⟨case, held, type, failed⟩, nothing⟩ := stuck
      have selected : (selection.run (context.quoted quote replies)).2 =
          (context.quoted quote replies).mapInst fun inst =>
            { inst with tradePrice := inst.priceEstimate } :=
        selection_asksNothing closed.mode nothing
      rw [Context.step_pass ⟨closed.isEnable, running, closed.alive⟩ (quoted_positive isPass.1)]
      change ((runCase.run (selection.run (context.quoted quote replies)).2).2.mapInst
          writeBack).modes.isNotDone = false ∧
        (writeBack (runCase.run (selection.run (context.quoted quote replies)).2).2.inst).Stuck
      have isHeld : ((context.quoted quote replies).mapInst fun inst =>
          { inst with tradePrice := inst.priceEstimate }).inst.tradeCase = some case := held
      have alive : ((context.quoted quote replies).mapInst fun inst =>
          { inst with tradePrice := inst.priceEstimate }).inst.crashed = false := closed.alive
      rw [writeBack_modes, selected, runCase_failed (Or.inl type) alive isHeld failed]
      exact ⟨running, stuck_writeBack ⟨⟨case, held, type, failed⟩, nothing⟩⟩
  | _ => exact absurd isPass id

/-- After the selection of a pass a close case is held that has not failed; if it
is a soft close still to be started, none was sent before. -/
theorem Closed.selects (closed : Closed context) (notStuck : ¬ context.inst.Stuck) :
    ∃ case ∈ (selection.run context).2.inst.tradeCase,
      case.type.Closes ∧ case.state ≠ .failed ∧
        (case.type = .softClose → case.state = .init → ¬ SoftSent context) := by
  by_cases asks : context.inst.AsksAnew
  · obtain ⟨created, held, closes, init, asked⟩ := selection_asksAnew closed.mode asks
    refine ⟨created, held, closes, ?_, fun soft _ sent => ?_⟩
    · rw [init]
      exact nofun
    · exact Bool.false_ne_true (sent.1.symm.trans (asked soft))
  · have same := selection_asksNothing closed.mode asks
    obtain ⟨type, isHeld, closes⟩ : ∃ type ∈ context.modes.held, type.Closes := by
      obtain ⟨_, notAsked⟩ := not_or.mp asks
      by_cases panic : context.inst.isPanicClose = true
      · rw [if_pos panic] at notAsked
        exact ⟨_, closed.takenUp.panic panic (Bool.not_eq_true _ ▸ notAsked), Or.inl rfl⟩
      · rw [if_neg panic] at notAsked
        exact closed.takenUp.soft (closed.mode.resolve_left panic) (Bool.not_eq_true _ ▸ notAsked)
    obtain ⟨case, held, rfl⟩ := Option.mem_map.mp isHeld
    rw [same]
    refine ⟨case, held, closes, fun failed => notStuck ?_, fun _ init sent => ?_⟩
    · exact ⟨⟨case, held, (closed.proper case held closes).failed failed, failed⟩, asks⟩
    · obtain ⟨_, other, isOther, _, priceChange⟩ := sent
      rw [Option.mem_unique held isOther] at init
      exact nomatch init.symm.trans priceChange

/-- A quiet pass stops an instance that is not stuck, unless it is the one in
which a soft close sends its order. -/
theorem Closed.step_stops (closed : Closed context) (running : context.inst.isNotDone = false)
    (notStuck : ¬ context.inst.Stuck) {label : Label} (isPass : label.QuietPass) :
    (context.step label).inst.isNotDone = true ∨
      SoftSent (context.step label) ∧ ¬ SoftSent context := by
  cases label with
  | pass quote replies =>
      have quoted : Closed (context.quoted quote replies) :=
        ⟨⟨closed.settled.quoted _, closed.takenUp, closed.proper, closed.chosen⟩, closed.alive,
          closed.isChosen, closed.isEnable, closed.mode, closed.hedged⟩
      obtain ⟨case, held, closes, notFailed, fresh⟩ := quoted.selects notStuck
      rw [Context.step_pass ⟨closed.isEnable, running, closed.alive⟩ (quoted_positive isPass.1)]
      change ((runCase.run (selection.run (context.quoted quote replies)).2).2.mapInst
          writeBack).modes.isNotDone = true ∨
        SoftSent ((runCase.run (selection.run (context.quoted quote replies)).2).2.mapInst
          writeBack) ∧ ¬ SoftSent (context.quoted quote replies)
      rw [softSent_writeBack, writeBack_modes]
      have proper := selection_closesProperly quoted.settled quoted.proper case held closes
      have hedged : (selection.run (context.quoted quote replies)).2.inst.Hedged :=
        (quiet_hedged isPass.2 closed.hedged).1
      have isChosen : (selection.run (context.quoted quote replies)).2.inst.HasChosen :=
        ne_of_eq_of_ne (selection_special_currentAcc (selection_special quoted.mode))
          quoted.isChosen
      have alive : (selection.run (context.quoted quote replies)).2.crashed = false :=
        (crashed_selectionFrame.selection _).trans closed.alive
      refine (runCase_hedged closes proper isChosen alive hedged held notFailed).imp id
        fun sends => ?_
      obtain ⟨soft, init, sent⟩ := sends
      have type : (selection.run (context.quoted quote replies)).2.modes.held = some .softClose :=
        (congrArg (Option.map TradeCase.type) held).trans (congrArg some soft)
      have cleared := selection_soft_cleared quoted.takenUp quoted.mode type
      refine ⟨⟨?_, sent⟩, fresh soft init⟩
      rcases runCase_modes (selection.run (context.quoted quote replies)).2 with
        same | ⟨_, same⟩ | ⟨_, same⟩
      · exact (congrArg Modes.softCloseInit same).trans cleared
      · exact (congrArg Modes.softCloseInit same).trans cleared
      · exact (congrArg Modes.softCloseInit same).trans cleared
  | _ => exact absurd isPass id

/-! ## Runs -/

/-- What quiet passes preserve holds after any number of them. -/
theorem run_quiet {P : Context → Prop}
    (preserves : ∀ context label, P context → label.QuietPass → P (context.step label))
    (start : P context) {passes : List Label} (quiet : ∀ label ∈ passes, label.QuietPass) :
    P (run Context.step context passes) :=
  (everyState_of_everyStep preserves start (everyStep_of_forall_mem quiet context)).last

/-- A thread that has stopped makes no passes. -/
theorem step_stopped (stopped : context.inst.isNotDone = true) {label : Label}
    (isPass : label.QuietPass) : (context.step label).inst.isNotDone = true := by
  cases label with
  | pass quote replies =>
      have notRunning : ¬ context.Running :=
        fun running => Bool.false_ne_true (running.2.1.symm.trans stopped)
      rw [Context.step_pass_of_not notRunning]
      exact stopped
  | _ => exact absurd isPass id

theorem run_stopped (stopped : context.inst.isNotDone = true) {passes : List Label}
    (quiet : ∀ label ∈ passes, label.QuietPass) :
    (run Context.step context passes).inst.isNotDone = true :=
  run_quiet (P := fun context => context.inst.isNotDone = true)
    (fun _ _ stopped isPass => step_stopped stopped isPass) stopped quiet

/-- However many quiet passes follow, nothing is left to close. -/
theorem Closed.later (closed : Closed context) {passes : List Label}
    (quiet : ∀ label ∈ passes, label.QuietPass) :
    Closed (run Context.step context passes) :=
  run_quiet (fun _ _ closed isPass => closed.step isPass) closed quiet

/-- However many passes follow, an instance that is stuck does not stop. -/
theorem Closed.run_stuck (closed : Closed context) (running : context.inst.isNotDone = false)
    (stuck : context.inst.Stuck) {passes : List Label}
    (quiet : ∀ label ∈ passes, label.QuietPass) :
    (run Context.step context passes).inst.isNotDone = false := by
  have still : Closed (run Context.step context passes) ∧
      (run Context.step context passes).inst.isNotDone = false ∧
        (run Context.step context passes).inst.Stuck := by
    refine run_quiet (P := fun context =>
      Closed context ∧ context.inst.isNotDone = false ∧ context.inst.Stuck)
      (fun context label still isPass => ?_) ⟨closed, running, stuck⟩ quiet
    obtain ⟨closed, running, stuck⟩ := still
    exact ⟨closed.step isPass, closed.step_stuck running stuck isPass⟩
  exact still.2.1

/-- The second pass stops what the first one does not. -/
theorem Closed.run_stops (closed : Closed context) (running : context.inst.isNotDone = false)
    (notStuck : ¬ context.inst.Stuck) {passes : List Label}
    (quiet : ∀ label ∈ passes, label.QuietPass) (enough : 2 ≤ passes.length) :
    (run Context.step context passes).inst.isNotDone = true := by
  match passes, enough with
  | first :: second :: rest, _ =>
      obtain ⟨firstPass, later⟩ := List.forall_mem_cons.mp quiet
      obtain ⟨secondPass, restPasses⟩ := List.forall_mem_cons.mp later
      cases stopped : (context.step first).inst.isNotDone with
      | true => exact run_stopped stopped later
      | false =>
          obtain ⟨sent, _⟩ := (closed.step_stops running notStuck firstPass).resolve_left
            (stopped ▸ Bool.false_ne_true)
          have notStuck : ¬ (context.step first).inst.Stuck := by
            rintro ⟨⟨case, held, type, _⟩, _⟩
            obtain ⟨_, other, isOther, soft, _⟩ := sent
            rw [Option.mem_unique held isOther] at type
            exact nomatch type.symm.trans soft
          have outcome := (closed.step firstPass).step_stops stopped notStuck secondPass
          have stops := outcome.resolve_right fun again => again.2 sent
          exact run_stopped stops restPasses

/-- If no trigger was chosen, the first quiet pass of a close mode ends the program. -/
theorem run_crashes (steady : Steady context) (running : context.Running)
    (mode : context.inst.InCloseMode) (notChosen : ¬ context.inst.HasChosen) {passes : List Label}
    (quiet : ∀ label ∈ passes, label.QuietPass) (nonempty : passes ≠ []) :
    (run Context.step context passes).crashed = true := by
  cases passes with
  | nil => exact absurd rfl nonempty
  | cons first rest =>
      have isPass := quiet first List.mem_cons_self
      have ends : (context.step first).crashed = true := by
        rw [step_crashed_iff steady running.2.2]
        refine ⟨?_, notChosen⟩
        cases first with
        | pass quote replies =>
            have quoted : (context.quoted quote replies).inst.InCloseMode := mode
            exact ⟨running, quoted_positive isPass.1, selection_special quoted⟩
        | _ => exact absurd isPass id
      have every : EveryState Context.step (fun context => context.inst.crashed = true)
          (context.step first) rest := by
        refine everyState_of_forall_step (fun context label crashed => ?_) ?_ rest
        · exact Context.crashed_step crashed label
        · exact ends
      exact every.last

/-- In every run of a new instance, when a close mode has nothing left to close and nothing
more arrives, two or more passes end the program if no trigger was ever chosen; otherwise
they do not, and stop the thread if and only if it is not stuck with a failed panic
close. -/
theorem quiet_passes_stop_iff {config : Config} {uninitialized : Uninitialized}
    {writer : RedisWriter} {inst : TradeInstance}
    (constructs : TradeInstance.construct config uninitialized writer = some inst)
    (labels passes : List Label)
    (running : (run Context.step { inst, replies := [], log := [] } labels).Running)
    (mode : (run Context.step { inst, replies := [], log := [] } labels).inst.InCloseMode)
    (hedged : (run Context.step { inst, replies := [], log := [] } labels).inst.Hedged)
    (quiet : ∀ label ∈ passes, label.QuietPass) (enough : 2 ≤ passes.length) :
    ((run Context.step { inst, replies := [], log := [] } (labels ++ passes)).inst.crashed = true ↔
        ¬ (run Context.step { inst, replies := [], log := [] } labels).inst.HasChosen) ∧
      ((run Context.step { inst, replies := [], log := [] } labels).inst.HasChosen →
        ((run Context.step { inst, replies := [], log := [] }
            (labels ++ passes)).inst.isNotDone = true ↔
          ¬ (run Context.step { inst, replies := [], log := [] } labels).inst.Stuck)) := by
  have steady := (everyState_steady constructs labels).last running.2.2
  rw [run_append]
  generalize run Context.step { inst, replies := [], log := [] } labels = context at *
  have closed (isChosen : context.inst.HasChosen) : Closed context :=
    ⟨steady, running.2.2, isChosen, running.1, mode, hedged⟩
  refine ⟨⟨fun crashed isChosen => ?_, fun notChosen => ?_⟩, fun isChosen => ⟨?_, ?_⟩⟩
  · exact Bool.false_ne_true (((closed isChosen).later quiet).alive.symm.trans crashed)
  · refine run_crashes steady running mode notChosen quiet ?_
    rintro rfl
    exact absurd enough (by decide)
  · intro stopped stuck
    have still := (closed isChosen).run_stuck running.2.1 stuck quiet
    exact Bool.false_ne_true (still.symm.trans stopped)
  · exact fun notStuck => (closed isChosen).run_stops running.2.1 notStuck quiet enough

/-- A panic close of ten lots, filled. -/
def panicCloseFilled : List Label :=
  [.pass (.around 10) [], .pass (.around 9) [], .enablePanicClose,
    .pass (.around 9) [{ callbacks := [], id := 1, cancelled := [] }],
    .callback (.fill { side := .long, isOpen := false, orderId := 1, price := 9, size := 10 }),
    .callback (.counters .long 0 (-10) 10)]

theorem quiet_passes_stop_iff_panicCloseFilled :
    ∃ inst, TradeInstance.construct .roundLots .zero tenLongLots = some inst ∧
      ((run Context.step { inst, replies := [], log := [] }
          (panicCloseFilled ++ [.pass (.around 9) [], .pass (.around 9) []])).inst.crashed = true ↔
        ¬ (run Context.step { inst, replies := [], log := [] } panicCloseFilled).inst.HasChosen) ∧
      ((run Context.step { inst, replies := [], log := [] } panicCloseFilled).inst.HasChosen →
        ((run Context.step { inst, replies := [], log := [] }
            (panicCloseFilled ++
              [.pass (.around 9) [], .pass (.around 9) []])).inst.isNotDone = true ↔
          ¬ (run Context.step { inst, replies := [], log := [] } panicCloseFilled).inst.Stuck)) := by
  have meets : (TradeInstance.construct .roundLots .zero tenLongLots).map (fun inst =>
      let context := run Context.step { inst, replies := [], log := [] } panicCloseFilled
      decide (context.Running ∧ context.inst.InCloseMode ∧ context.inst.Hedged)) = some true := by
    decide +kernel
  obtain ⟨inst, constructs, holds⟩ := Option.map_eq_some_iff.mp meets
  obtain ⟨running, mode, hedged⟩ := of_decide_eq_true holds
  exact ⟨inst, constructs, quiet_passes_stop_iff constructs panicCloseFilled _ running mode hedged
    (by decide) (by decide)⟩

end TradingApp.Instance
