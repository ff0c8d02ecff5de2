import TradingApp.Instance.Frame

/-!
# Trigger, account roles and running case

Whenever a case is run that no close mode asked for, the trigger, the roles of
the accounts and the held case agree.  The close modes break the agreement for
as long as they last: they choose a trigger of their own, but then the held
case is theirs, and the next selection of a trigger repairs it.
-/

namespace TradingApp.Instance

open TradingApp.Account TradingApp.Redis TradingApp.Transition

/-! ## Roles -/

/-- The part of an instance that trigger selection works on. -/
structure Roles where
  trigger : TriggerState
  prevTrigger : TriggerState
  estimate : ℚ
  estimatePrev : ℚ
  currentAcc : Option OrderAccountType
  oppositeAcc : Option OrderAccountType
  held : Option Identity

namespace TradeInstance

/-- The trigger, the estimates and the accounts of an instance, and the held case. -/
def roles (inst : TradeInstance) : Roles where
  trigger := inst.triggerState
  prevTrigger := inst.prevTriggerState
  estimate := inst.priceEstimate
  estimatePrev := inst.priceEstimatePrev
  currentAcc := inst.currentAcc
  oppositeAcc := inst.oppositeAcc
  held := inst.tradeCase.map TradeCase.identity

end TradeInstance

/-- Those of the instance. -/
def Context.roles (context : Context) : Roles :=
  context.inst.roles

/-- The current and the opposite account under a trigger. -/
def accountsOf : TriggerState → Option OrderAccountType × Option OrderAccountType
  | .init => (none, none)
  | .positive => (some .long, some .short)
  | .negative => (some .short, some .long)

/-- The case is the panic or the soft close. -/
def Identity.Special (identity : Identity) : Prop :=
  identity.type = .panicClose ∨ identity.type = .softClose

namespace Roles

/-- The held case was created under the present trigger and roles. -/
structure Follows (roles : Roles) (held : Identity) : Prop where
  trigger : roles.trigger = roles.prevTrigger
  currentAcc : held.currentAcc = roles.currentAcc
  oppositeAcc : held.oppositeAcc = roles.oppositeAcc
  sign : held.sign = if roles.trigger = .positive then 1 else -1

/-- What holds between passes. -/
structure Settled (roles : Roles) : Prop where
  accounts : (roles.currentAcc, roles.oppositeAcc) = accountsOf roles.prevTrigger
  fresh : roles.trigger = .init → roles.estimatePrev = 0
  held : ∀ held ∈ roles.held, ¬ held.Special → roles.Follows held
  free : roles.held = none → roles.trigger = roles.prevTrigger

/-- The trigger is the one the accounts' roles were chosen by. -/
structure Aligned (roles : Roles) : Prop where
  accounts : (roles.currentAcc, roles.oppositeAcc) = accountsOf roles.prevTrigger
  fresh : roles.trigger = .init → roles.estimatePrev = 0
  trigger : roles.trigger = roles.prevTrigger

/-- A special case is held. -/
def HoldsSpecial (roles : Roles) : Prop :=
  ∃ held ∈ roles.held, held.Special

end Roles

/-- Trigger, roles and held case agree. -/
structure Consistent (inst : TradeInstance) : Prop where
  trigger : inst.triggerState = inst.prevTriggerState
  roles : (inst.triggerState = .positive ∧ inst.currentAcc = some .long ∧
      inst.oppositeAcc = some .short) ∨
    (inst.triggerState = .negative ∧ inst.currentAcc = some .short ∧
      inst.oppositeAcc = some .long)
  held : ∀ case ∈ inst.tradeCase, case.type ≠ .panicClose → case.type ≠ .softClose →
    case.currentAcc = inst.currentAcc ∧ case.oppositeAcc = inst.oppositeAcc ∧
      (case.sign = 1 ↔ inst.currentAcc = some .long)

/-! ## Calls -/

theorem map_identity {f : TradeCase → TradeCase}
    (same : ∀ case, (f case).identity = case.identity) (held : Option TradeCase) :
    (held.map f).map TradeCase.identity = held.map TradeCase.identity := by
  cases held with
  | none => rfl
  | some case => exact congrArg some (same case)

/-- Callbacks leave the roles alone. -/
theorem onCallback_roles (context : Context) (callback : Callback) :
    (context.onCallback callback).roles = context.roles := by
  obtain ⟨_, _, same, held⟩ := onCallback_eq context.inst callback
  simp only [Context.roles, Context.onCallback, same, TradeInstance.roles, held]

theorem modifyInst_roles {f : TradeInstance → TradeInstance}
    (same : ∀ inst, (f inst).roles = inst.roles) :
    Keeps (Unchanged Context.roles) (modifyInst f) :=
  fun context => same context.inst

theorem writeBack_roles (inst : TradeInstance) : (writeBack inst).roles = inst.roles := by
  obtain ⟨_, _, same⟩ := writeBack_eq inst
  rw [same]
  rfl

/-- Calls, and a case's changes to itself, leave the roles alone. -/
theorem roles_frame : Frame (Unchanged Context.roles) where
  nextReply := keeps_nextReply (fun _ _ => rfl) onCallback_roles
  record event := keeps_modify fun context => rfl
  modifyCase f same := modifyInst_roles fun inst => by
    rw [TradeInstance.roles, map_identity same]
    rfl
  modifyAccount side f same := modifyInst_roles fun inst => rfl

theorem modifyPointed_roles (account : Option OrderAccountType)
    (f : TradeAccount → TradeAccount) :
    Keeps (Unchanged Context.roles) (modifyPointed account f) := by
  cases account with
  | none => exact keeps_pure ()
  | some side => exact modifyInst_roles fun inst => rfl

theorem destroy_roles (case : TradeCase) : Keeps (Unchanged Context.roles) case.destroy := by
  apply keeps_destroy
  · exact fun account f _ => modifyPointed_roles account f
  · exact roles_frame.cancelAll
  · intro f waits
    refine modifyInst_roles fun inst => ?_
    obtain ⟨_, _, same⟩ := waits inst
    rw [same]
    rfl

/-- Replacing the case changes the held case and nothing else. -/
theorem replaceCase_roles (tradeCase : Option TradeCase) (context : Context) :
    ((replaceCase tradeCase).run context).2.roles =
      { context.roles with held := tradeCase.map TradeCase.identity } := by
  unfold replaceCase
  rw [run_getInst_bind, run_modifyInst_bind]
  cases context.inst.tradeCase with
  | none => rfl
  | some old => exact destroy_roles old _

/-! ## Selection -/

/-- A case created under aligned roles follows them. -/
theorem Roles.Aligned.settled {roles : Roles} {held : Option Identity} (aligned : roles.Aligned)
    (created : ∀ identity ∈ held, identity.currentAcc = roles.currentAcc ∧
      identity.oppositeAcc = roles.oppositeAcc ∧
      identity.sign = if roles.trigger = .positive then 1 else -1) :
    { roles with held }.Settled where
  accounts := aligned.accounts
  fresh := aligned.fresh
  held identity member _ :=
    { trigger := aligned.trigger
      currentAcc := (created identity member).1
      oppositeAcc := (created identity member).2.1
      sign := (created identity member).2.2 }
  free _ := aligned.trigger

theorem create_identity (inst : TradeInstance) (type : CaseType) :
    ∀ identity ∈ (TradeCaseFactory.create inst type).map TradeCase.identity,
      identity.currentAcc = inst.roles.currentAcc ∧
        identity.oppositeAcc = inst.roles.oppositeAcc ∧
        identity.sign = if inst.roles.trigger = .positive then 1 else -1 := by
  intro identity member
  cases type with
  | none => cases member
  | case4 | hedgeCurrent | case9 | case10 | panicClose | softClose =>
      cases member
      exact ⟨rfl, rfl, rfl⟩

theorem caseSelection_roles (context : Context)
    (chosen : context.inst.currentAcc ≠ none ∧ context.inst.oppositeAcc ≠ none) :
    (caseSelection.run context).2.roles =
      { context.roles with
        held := (TradeCaseFactory.create context.inst context.inst.selectCase.1).map
          TradeCase.identity } := by
  unfold caseSelection
  rw [run_getInst_bind, if_neg (not_or.mpr chosen), run_modifyInst_bind, replaceCase_roles]
  rfl

/-- Selecting a case under aligned roles settles them. -/
theorem caseSelection_settled {context : Context} (aligned : context.roles.Aligned)
    (chosen : context.inst.currentAcc ≠ none ∧ context.inst.oppositeAcc ≠ none) :
    (caseSelection.run context).2.roles.Settled := by
  rw [caseSelection_roles context chosen]
  exact aligned.settled (create_identity _ _)

/-- Between passes and while a close mode is entered, the roles are settled
and the estimate is positive. -/
def Ready (context : Context) : Prop :=
  context.roles.Settled ∧ 0 < context.roles.estimate

/-- Holding a special case asks nothing of the trigger. -/
theorem Roles.Settled.hold_special {roles : Roles} (settled : roles.Settled) {held : Identity}
    (special : held.Special) : { roles with held := some held }.Settled where
  accounts := settled.accounts
  fresh := settled.fresh
  held identity member notSpecial := by
    cases member
    exact absurd special notSpecial
  free none := by cases none

theorem replaceCase_special {context : Context} (ready : Ready context) (inst : TradeInstance)
    {type : CaseType} (special : type = .panicClose ∨ type = .softClose) :
    Ready ((replaceCase (TradeCaseFactory.create inst type)).run context).2 := by
  unfold Ready
  rw [replaceCase_roles]
  refine ⟨?_, ready.2⟩
  rcases special with rfl | rfl
  · exact ready.1.hold_special (Or.inl rfl)
  · exact ready.1.hold_special (Or.inr rfl)

theorem selfDestruct_roles (inst : TradeInstance) : inst.selfDestruct.roles = inst.roles := by
  unfold TradeInstance.selfDestruct
  split <;> rfl

theorem Roles.Settled.aligned {roles : Roles} (settled : roles.Settled)
    (free : roles.held = none) : roles.Aligned where
  accounts := settled.accounts
  fresh := settled.fresh
  trigger := settled.free free

theorem caseSelection_estimate (context : Context) :
    (caseSelection.run context).2.roles.estimate = context.roles.estimate := by
  by_cases chosen : context.inst.currentAcc ≠ none ∧ context.inst.oppositeAcc ≠ none
  · rw [caseSelection_roles context chosen]
  · rw [← not_or, not_not] at chosen
    unfold caseSelection
    rw [run_getInst_bind, if_pos chosen]
    rfl

theorem specialCases_ready : Keeps (Preserves Ready) specialCases := by
  intro context ready
  have destructed : Ready (context.mapInst TradeInstance.selfDestruct) := by
    unfold Ready Context.roles at ready ⊢
    rwa [Context.mapInst, selfDestruct_roles]
  unfold specialCases
  rw [run_modifyInst_bind, run_getInst_bind]
  by_cases panic : (context.mapInst TradeInstance.selfDestruct).inst.isPanicClose = true
  · rw [if_pos panic]
    have creates (inst : TradeInstance) : Keeps (Preserves Ready) (do
        modifyInst fun inst => { inst with panicCloseInit := false }
        replaceCase (TradeCaseFactory.create inst .panicClose)) :=
      .bind (fun _ ready => ready) fun _ _ ready => replaceCase_special ready inst (Or.inl rfl)
    exact ((creates _).whenever.bind fun _ => keeps_pure true) _ destructed
  · rw [if_neg panic]
    by_cases soft : (context.mapInst TradeInstance.selfDestruct).inst.isSoftClose = true
    · rw [if_pos soft]
      have creates (inst : TradeInstance) : Keeps (Preserves Ready) (do
          modifyInst fun inst => { inst with softCloseInit := false }
          replaceCase (TradeCaseFactory.create inst .softClose)) :=
        .bind (fun _ ready => ready) fun _ _ ready => replaceCase_special ready inst (Or.inr rfl)
      exact ((creates _).whenever.bind fun _ => keeps_pure true) _ destructed
    · rw [if_neg soft]
      generalize context.mapInst TradeInstance.selfDestruct = context at destructed
      by_cases free : context.inst.currentAcc ≠ none ∧ context.inst.oppositeAcc ≠ none ∧
          context.inst.tradeCase = none
      · have aligned := destructed.1.aligned (congrArg (Option.map TradeCase.identity) free.2.2)
        rw [whenever, if_pos free]
        refine ⟨caseSelection_settled aligned ⟨free.1, free.2.1⟩, ?_⟩
        exact (caseSelection_estimate context).symm ▸ destructed.2
      · rw [whenever, if_neg free]
        exact destructed

/-- A positive estimate decides the trigger. -/
theorem nextTrigger_ne_init {inst : TradeInstance} (settled : inst.roles.Settled)
    (positive : 0 < inst.priceEstimate) : inst.nextTrigger ≠ .init := by
  intro undecided
  unfold TradeInstance.nextTrigger at undecided
  split at undecided
  · cases undecided
  · split at undecided
    · cases undecided
    · have start : inst.priceEstimatePrev = 0 := settled.fresh undecided
      rename_i notAbove notBelow
      rw [start] at notAbove
      exact notAbove positive

theorem accountsOf_ne_none {trigger : TriggerState} (decided : trigger ≠ .init) :
    (accountsOf trigger).1 ≠ none ∧ (accountsOf trigger).2 ≠ none := by
  cases trigger with
  | init => exact absurd rfl decided
  | positive | negative => exact ⟨nofun, nofun⟩

theorem Roles.Aligned.chosen {roles : Roles} (aligned : roles.Aligned)
    (decided : roles.trigger ≠ .init) : roles.currentAcc ≠ none ∧ roles.oppositeAcc ≠ none := by
  have both := accountsOf_ne_none (aligned.trigger ▸ decided)
  rwa [← aligned.accounts] at both

theorem changeTrigger_roles (inst : TradeInstance) (decided : inst.triggerState ≠ .init) :
    inst.changeTrigger.roles =
      { inst.roles with
        prevTrigger := inst.triggerState
        currentAcc := (accountsOf inst.triggerState).1
        oppositeAcc := (accountsOf inst.triggerState).2 } := by
  cases trigger : inst.triggerState with
  | init => exact absurd trigger decided
  | positive | negative =>
      simp [TradeInstance.roles, TradeInstance.changeTrigger, trigger, accountsOf]

/-- A trigger that did not change keeps the held case following it. -/
theorem Roles.Settled.keep_trigger {roles : Roles} (settled : roles.Settled) (estimatePrev : ℚ)
    (decided : roles.prevTrigger ≠ .init) :
    { roles with trigger := roles.prevTrigger, estimatePrev }.Settled where
  accounts := settled.accounts
  fresh undecided := absurd undecided decided
  held held member notSpecial := by
    have follows := settled.held held member notSpecial
    have sign := follows.sign
    rw [follows.trigger] at sign
    exact
      { trigger := rfl
        currentAcc := follows.currentAcc
        oppositeAcc := follows.oppositeAcc
        sign := sign }
  free _ := rfl

/-- After trigger selection the roles are settled under a decided trigger. -/
theorem triggerSelection_settled {context : Context} (ready : Ready context) :
    (triggerSelection.run context).2.roles.Settled ∧
      (triggerSelection.run context).2.roles.trigger =
        (triggerSelection.run context).2.roles.prevTrigger ∧
      (triggerSelection.run context).2.roles.trigger ≠ .init := by
  have decided := nextTrigger_ne_init ready.1 ready.2
  unfold triggerSelection
  rw [run_modifyInst_bind, run_getInst_bind]
  by_cases changes : context.roles.prevTrigger ≠ context.inst.nextTrigger
  · rw [whenever, if_pos ⟨changes, decided⟩, run_modifyInst_bind]
    have roles := changeTrigger_roles context.inst.updateTrigger decided
    generalize changed_eq : (context.mapInst TradeInstance.updateTrigger).mapInst
      TradeInstance.changeTrigger = changed
    replace roles : changed.roles =
        { context.inst.updateTrigger.roles with
          prevTrigger := context.inst.nextTrigger
          currentAcc := (accountsOf context.inst.nextTrigger).1
          oppositeAcc := (accountsOf context.inst.nextTrigger).2 } :=
      changed_eq ▸ roles
    have aligned : changed.roles.Aligned := by
      rw [roles]
      exact ⟨rfl, fun undecided => absurd undecided decided, rfl⟩
    have chosen := aligned.chosen (by rw [roles]; exact decided)
    refine ⟨caseSelection_settled aligned chosen, ?_⟩
    rw [caseSelection_roles changed chosen, roles]
    exact ⟨rfl, decided⟩
  · have same : context.roles.prevTrigger = context.inst.nextTrigger := not_not.mp changes
    rw [whenever, if_neg fun both => both.1 same]
    refine ⟨?_, same.symm, decided⟩
    change Roles.Settled
      { context.roles with
        trigger := context.inst.nextTrigger
        estimatePrev := context.inst.priceEstimate }
    rw [← same]
    exact ready.1.keep_trigger _ (same ▸ decided)

/-! ## Running the case -/

/-- The roles of the instance are settled. -/
def SettledContext (context : Context) : Prop :=
  context.roles.Settled

/-- The roles are settled and a close mode's case is held. -/
def Closing (context : Context) : Prop :=
  context.roles.Settled ∧ context.roles.HoldsSpecial

theorem Roles.HoldsSpecial.held_ne_none {roles : Roles} (holds : roles.HoldsSpecial) :
    roles.held ≠ none := by
  obtain ⟨held, member, _⟩ := holds
  intro none
  rw [none] at member
  cases member

theorem Roles.HoldsSpecial.special {roles : Roles} (holds : roles.HoldsSpecial) :
    ∀ held ∈ roles.held, held.Special := by
  obtain ⟨held, member, special⟩ := holds
  intro other otherMember
  rwa [Option.mem_unique otherMember member]

/-- While a special case is held, the trigger and the case's own roles may be
chosen freely. -/
theorem closing_of_special {context after : Context} (closing : Closing context)
    (accounts : after.roles.currentAcc = context.roles.currentAcc ∧
      after.roles.oppositeAcc = context.roles.oppositeAcc)
    (prevTrigger : after.roles.prevTrigger = context.roles.prevTrigger)
    (fresh : after.roles.trigger = .init → after.roles.estimatePrev = 0)
    (special : after.roles.HoldsSpecial) : Closing after where
  left :=
    { accounts := by
        rw [accounts.1, accounts.2, prevTrigger]
        exact closing.1.accounts
      fresh := fresh
      held := fun held member notSpecial => absurd (special.special held member) notSpecial
      free := fun none => absurd none special.held_ne_none }
  right := special

theorem setTrigger_closing : Keeps (Preserves Closing) setTrigger := by
  intro context closing
  refine closing_of_special closing ⟨rfl, rfl⟩ rfl (fun undecided => ?_) closing.2
  refine closing.1.fresh ?_
  change selectTrigger context.inst = .init at undecided
  simp only [selectTrigger] at undecided
  split at undecided
  · cases undecided
  · split at undecided
    · cases undecided
    · exact undecided

theorem modifyRoles_closing (f : TradeCase → TradeCase)
    (sameType : ∀ case, (f case).type = case.type) :
    Keeps (Preserves Closing) (modifyCase f) := by
  intro context closing
  refine closing_of_special closing ⟨rfl, rfl⟩ rfl closing.1.fresh ?_
  obtain ⟨held, member, special⟩ := closing.2
  obtain ⟨case, holds, rfl⟩ := Option.mem_map.mp member
  refine ⟨(f case).identity, ?_, ?_⟩
  · exact Option.mem_map.mpr ⟨f case, Option.mem_map.mpr ⟨case, holds, rfl⟩, rfl⟩
  · unfold Identity.Special TradeCase.identity at special ⊢
    rwa [sameType]

theorem closing_frame : ClosingFrame (Preserves Closing) where
  nextReply := roles_frame.nextReply.preserves fun roles => roles.Settled ∧ roles.HoldsSpecial
  record event :=
    (roles_frame.record event).preserves fun roles => roles.Settled ∧ roles.HoldsSpecial
  modifyCase f same :=
    (roles_frame.modifyCase f same).preserves fun roles => roles.Settled ∧ roles.HoldsSpecial
  modifyAccount side f same :=
    (roles_frame.modifyAccount side f same).preserves fun roles =>
      roles.Settled ∧ roles.HoldsSpecial
  setTrigger := setTrigger_closing
  crash := (modifyInst_roles fun _ => rfl).preserves fun roles =>
    roles.Settled ∧ roles.HoldsSpecial
  modifyRoles := modifyRoles_closing

/-- The held case, whichever it is, runs and leaves the roles settled. -/
theorem run_settled {context : Context} {case : TradeCase} (settled : SettledContext context)
    (held : context.inst.tradeCase = some case) : SettledContext (case.run.run context).2 := by
  by_cases special : case.identity.Special
  · have closing : Closing context :=
      ⟨settled, case.identity, Option.mem_map.mpr ⟨case, held, rfl⟩, special⟩
    exact (closing_frame.run case context closing).1
  · have runs : Keeps (Unchanged Context.roles) case.run :=
      roles_frame.run (fun panic => special (Or.inl panic)) fun soft => special (Or.inr soft)
    exact runs.preserves Roles.Settled context settled

theorem finishCase_settled : Keeps (Preserves SettledContext) finishCase := by
  intro context settled
  unfold finishCase
  rw [run_getInst_bind]
  cases held : context.inst.tradeCase with
  | none => exact settled
  | some case =>
      by_cases special : case.type = .panicClose ∨ case.type = .softClose
      · dsimp only
        rw [if_pos special]
        refine Keeps.preserves (f := Context.roles) (.whenever ?_) Roles.Settled context settled
        exact modifyInst_roles fun _ => rfl
      · dsimp only
        rw [if_neg special]
        by_cases ends : case.state = .done ∨ context.inst.lastState = .failed
        · rw [whenever, if_pos ends, run_modifyInst_bind, SettledContext, replaceCase_roles]
          have follows := settled.held case.identity (Option.mem_map.mpr ⟨case, held, rfl⟩) special
          have aligned : context.roles.Aligned :=
            ⟨settled.accounts, settled.fresh, follows.trigger⟩
          exact aligned.settled fun _ member => by cases member
        · rw [whenever, if_neg ends]
          exact settled

theorem runCase_settled : Keeps (Preserves SettledContext) runCase := by
  intro context settled
  unfold runCase
  rw [run_getInst_bind]
  cases held : context.inst.tradeCase with
  | none => exact settled
  | some case =>
      have ran := run_settled settled held
      dsimp only
      rw [run_bind, run_unlessCrashed]
      split
      · exact ran
      · exact finishCase_settled _ ran

/-! ## Passes and steps -/

/-- A new estimate does not unsettle the roles. -/
theorem Roles.Settled.quoted {roles : Roles} (settled : roles.Settled) (estimate : ℚ) :
    { roles with estimate }.Settled where
  accounts := settled.accounts
  fresh := settled.fresh
  held held member notSpecial :=
    let follows := settled.held held member notSpecial
    { trigger := follows.trigger
      currentAcc := follows.currentAcc
      oppositeAcc := follows.oppositeAcc
      sign := follows.sign }
  free := settled.free

/-- A selection that no close mode takes over ends settled and decided. -/
theorem selection_settled {context : Context} (ready : Ready context) :
    SettledContext (selection.run context).2 ∧
      ((selection.run context).1 = false →
        (selection.run context).2.roles.trigger = (selection.run context).2.roles.prevTrigger ∧
          (selection.run context).2.roles.trigger ≠ .init) := by
  have special := specialCases_ready (context.mapInst fun inst =>
    { inst with tradePrice := inst.priceEstimate }) ready
  have ran : selection.run context =
      (if (specialCases.run (context.mapInst fun inst =>
          { inst with tradePrice := inst.priceEstimate })).1 then (pure true : CaseM Bool)
        else do
          triggerSelection
          return false).run
        (specialCases.run (context.mapInst fun inst =>
          { inst with tradePrice := inst.priceEstimate })).2 := rfl
  rw [ran]
  cases result : (specialCases.run (context.mapInst fun inst =>
    { inst with tradePrice := inst.priceEstimate })).1 with
  | true => exact ⟨special.1, nofun⟩
  | false =>
      have selected := triggerSelection_settled special
      exact ⟨selected.1, fun _ => selected.2⟩

theorem pass_settled (quote : Quote) : Keeps (Preserves SettledContext) (pass quote) := by
  intro context settled
  unfold pass
  rw [run_modifyInst_bind, run_getInst_bind]
  have quoted : SettledContext (context.mapInst fun inst => inst.readSymbolData quote) :=
    Roles.Settled.quoted settled _
  by_cases skips : (context.mapInst fun inst => inst.readSymbolData quote).inst.priceEstimate ≤ 0
  · rw [if_pos skips]
    exact quoted
  · rw [if_neg skips]
    have ready : Ready (context.mapInst fun inst => inst.readSymbolData quote) :=
      ⟨quoted, not_le.mp skips⟩
    have ends : Keeps (Preserves SettledContext) (do runCase; modifyInst writeBack) :=
      runCase_settled.bind fun _ => (modifyInst_roles writeBack_roles).preserves Roles.Settled
    exact ends _ (selection_settled ready).1

theorem step_settled (context : Context) (label : Label) (settled : SettledContext context) :
    SettledContext (context.step label) := by
  refine Context.step_cases (fun _ => settled) fun _ => ?_
  cases label with
  | pass quote replies =>
      change SettledContext
        (if context.Running then context.exec replies (pass quote) else context)
      split
      · exact pass_settled quote _ settled
      · exact settled
  | callback callback =>
      change (context.onCallback callback).roles.Settled
      rwa [onCallback_roles]
  | stopAction replies =>
      have stops : (context.act (.stopAction replies)).roles = context.roles :=
        Context.act_stopAction roles_frame.cancelAll (modifyInst_roles fun _ => rfl) context replies
      unfold SettledContext
      rwa [stops]
  | enablePanicClose | disablePanicClose | enableSoftClose | disableSoftClose | resume | pause
  | avicennaToggle => exact settled

/-- In a pass in which no close mode takes over, trigger, roles and held case
agree when the case is about to be run. -/
def RunsConsistent (context : Context) : Label → Prop
  | .pass quote replies =>
      context.Running → 0 < (context.quoted quote replies).inst.priceEstimate →
        (selection.run (context.quoted quote replies)).1 = false →
          Consistent (selection.run (context.quoted quote replies)).2.inst
  | _ => True

theorem Roles.Settled.consistent {inst : TradeInstance} (settled : inst.roles.Settled)
    (trigger : inst.roles.trigger = inst.roles.prevTrigger) (decided : inst.roles.trigger ≠ .init) :
    Consistent inst := by
  have accounts := settled.accounts
  rw [← trigger] at accounts
  constructor
  · exact trigger
  · cases present : inst.roles.trigger with
    | init => exact absurd present decided
    | positive =>
        rw [present, accountsOf, Prod.mk.injEq] at accounts
        exact Or.inl ⟨present, accounts⟩
    | negative =>
        rw [present, accountsOf, Prod.mk.injEq] at accounts
        exact Or.inr ⟨present, accounts⟩
  · intro case held notPanic notSoft
    have follows := settled.held case.identity (Option.mem_map.mpr ⟨case, held, rfl⟩)
      (not_or.mpr ⟨notPanic, notSoft⟩)
    refine ⟨follows.currentAcc, follows.oppositeAcc, ?_⟩
    have sign : case.sign = _ := follows.sign
    have current : inst.roles.currentAcc = (accountsOf inst.roles.trigger).1 :=
      congrArg Prod.fst accounts
    change case.sign = 1 ↔ inst.roles.currentAcc = some .long
    rw [sign, current]
    cases inst.roles.trigger with
    | init | negative => exact ⟨by decide, by decide⟩
    | positive => exact ⟨fun _ => rfl, fun _ => rfl⟩

theorem runsConsistent_of_settled (context : Context) (label : Label)
    (settled : SettledContext context) : RunsConsistent context label := by
  cases label with
  | pass quote replies =>
      intro _ positive notSpecial
      have ready : Ready (context.quoted quote replies) :=
        ⟨Roles.Settled.quoted settled _, positive⟩
      obtain ⟨after, agrees⟩ := selection_settled ready
      exact after.consistent (agrees notSpecial).1 (agrees notSpecial).2
  | callback | enablePanicClose | disablePanicClose | enableSoftClose | disableSoftClose | resume
  | pause | avicennaToggle | stopAction => trivial

/-- A new instance has no trigger, no roles and no case. -/
theorem construct_settled {config : Config} {uninitialized : Uninitialized} {writer : RedisWriter}
    {inst : TradeInstance}
    (constructs : TradeInstance.construct config uninitialized writer = some inst) :
    inst.roles.Settled := by
  obtain ⟨restored, _, rfl⟩ := Option.map_eq_some_iff.mp constructs
  exact ⟨rfl, fun _ => rfl, nofun, fun _ => rfl⟩

/-- In every run of a new instance, every pass in which no close mode takes
over finds trigger, account roles and held case in agreement. -/
theorem everyStep_runsConsistent {config : Config} {uninitialized : Uninitialized}
    {writer : RedisWriter} {inst : TradeInstance}
    (constructs : TradeInstance.construct config uninitialized writer = some inst)
    (labels : List Label) :
    EveryStep Context.step RunsConsistent { inst, replies := [], log := [] } labels := by
  have states : EveryState Context.step SettledContext { inst, replies := [], log := [] } labels :=
    everyState_of_forall_step step_settled (construct_settled constructs) labels
  exact everyStep_of_everyState runsConsistent_of_settled states

/-- A panic mode switched on and off again between two triggers. -/
theorem everyStep_runsConsistent_panic :
    ∃ inst, TradeInstance.construct .roundLots .zero tenLongLots = some inst ∧
      EveryStep Context.step RunsConsistent { inst, replies := [], log := [] }
        [.pass (.around 10) [], .enablePanicClose, .pass (.around 10) [], .disablePanicClose,
          .pass (.around 9) []] := by
  obtain ⟨after, restores⟩ := restoreAccounts_tenLongLots
  obtain ⟨inst, built⟩ : ∃ inst,
      TradeInstance.construct .roundLots .zero tenLongLots = some inst :=
    ⟨_, Option.map_eq_some_iff.mpr ⟨_, restores, rfl⟩⟩
  exact ⟨inst, built, everyStep_runsConsistent built _⟩

end TradingApp.Instance
