import TradingApp.Instance.CloseMode
import TradingApp.Instance.Triggers

/-!
# The held close case

A close case has the roles of the instance that creates it, or those it chooses
by the positions.  Either way they are the roles of a trigger, so that equal
positions of the two accounts are equal positions of its current and opposite
account; and once the instance has chosen a trigger neither is a null pointer.
Of the two close cases only the panic close can fail.
-/

namespace TradingApp.Instance

open TradingApp.Account TradingApp.Redis TradingApp.Transition

/-- A close case has the roles of a trigger, not the initial one if the instance has
chosen one, and fails only as a panic close. -/
structure TradeCase.Proper (case : TradeCase) (chosen : Prop) : Prop where
  roles : ∃ trigger, (chosen → trigger ≠ .init) ∧
    (case.currentAcc, case.oppositeAcc) = accountsOf trigger
  selected : case.state ≠ .notSelected
  failed : case.state = .failed → case.type = .panicClose

/-- The instance has chosen a trigger, so that it has a current account. -/
def TradeInstance.HasChosen (inst : TradeInstance) : Prop :=
  inst.currentAcc ≠ none

instance (inst : TradeInstance) : Decidable inst.HasChosen :=
  inferInstanceAs (Decidable (_ ≠ none))

/-- If a case is held, it is a proper one of the type. -/
def HoldsProper (type : CaseType) (chosen : Prop) (context : Context) : Prop :=
  ∀ case ∈ context.inst.tradeCase, case.type = type ∧ case.Proper chosen

/-- If a close case is held, it is a proper one. -/
def ClosesProperly (context : Context) : Prop :=
  ∀ case ∈ context.inst.tradeCase, case.type.Closes → case.Proper context.inst.HasChosen

/-- The held case without its requote orders, and the current account. -/
def Context.core (context : Context) : Option TradeCase × Option OrderAccountType :=
  (context.inst.tradeCase.map TradeCase.withoutRequotes, context.inst.currentAcc)

/-! ## What leaves the case alone -/

theorem onCallback_core (context : Context) (callback : Callback) :
    (context.onCallback callback).core = context.core := by
  obtain ⟨_, _, same, held⟩ := onCallback_withoutRequotes context.inst callback
  simp only [Context.core, Context.onCallback, same, held]

theorem modifyInst_core {f : TradeInstance → TradeInstance}
    (same : ∀ inst, (f inst).tradeCase = inst.tradeCase ∧ (f inst).currentAcc = inst.currentAcc) :
    Keeps (Unchanged Context.core) (modifyInst f) := by
  intro context
  obtain ⟨tradeCase, currentAcc⟩ := same context.inst
  change ((f context.inst).tradeCase.map TradeCase.withoutRequotes, (f context.inst).currentAcc) = _
  rw [tradeCase, currentAcc]
  rfl

theorem writeBack_core (inst : TradeInstance) :
    (writeBack inst).tradeCase = inst.tradeCase ∧
      (writeBack inst).currentAcc = inst.currentAcc := by
  obtain ⟨_, _, same⟩ := writeBack_eq inst
  rw [same]
  exact ⟨rfl, rfl⟩

theorem core_frame : ReplyFrame (Unchanged Context.core) where
  nextReply := keeps_nextReply (fun _ _ => rfl) onCallback_core
  record _ := keeps_modify fun _ => rfl
  modifyAccount _ _ _ := modifyInst_core fun _ => ⟨rfl, rfl⟩

theorem destroy_core (case : TradeCase) : Keeps (Unchanged Context.core) case.destroy := by
  apply keeps_destroy
  · intro account f _
    cases account with
    | none => exact keeps_pure ()
    | some side => exact modifyInst_core fun _ => ⟨rfl, rfl⟩
  · exact core_frame.cancelAll
  · intro f waits
    refine modifyInst_core fun inst => ?_
    obtain ⟨_, _, same⟩ := waits inst
    rw [same]
    exact ⟨rfl, rfl⟩

/-- The new case is held, whatever arrives while the old one is destroyed. -/
theorem replaceCase_core (tradeCase : Option TradeCase) (context : Context) :
    ((replaceCase tradeCase).run context).2.core =
      (tradeCase.map TradeCase.withoutRequotes, context.inst.currentAcc) := by
  unfold replaceCase
  rw [run_getInst_bind, run_modifyInst_bind]
  cases context.inst.tradeCase with
  | none => rfl
  | some old => exact destroy_core old _

/-- A held case has been the same but for its requote orders. -/
theorem exists_of_core {context : Context} {held : Option TradeCase}
    {currentAcc : Option OrderAccountType}
    (same : context.core = (held.map TradeCase.withoutRequotes, currentAcc)) :
    ∀ case ∈ context.inst.tradeCase,
      ∃ origin ∈ held, origin.withoutRequotes = case.withoutRequotes := by
  intro case member
  have cores : context.inst.tradeCase.map TradeCase.withoutRequotes =
      held.map TradeCase.withoutRequotes := congrArg Prod.fst same
  rw [Option.mem_def.mp member, Option.map_some] at cores
  exact Option.map_eq_some_iff.mp cores.symm

/-- The type and the state of a case are not in its requote orders. -/
theorem type_state_of_withoutRequotes {case other : TradeCase}
    (same : case.withoutRequotes = other.withoutRequotes) :
    case.type = other.type ∧ case.state = other.state := by
  have type := congrArg TradeCase.type same
  have state := congrArg TradeCase.state same
  exact ⟨type, state⟩

theorem TradeCase.Proper.of_withoutRequotes {case other : TradeCase} {chosen : Prop}
    (proper : case.Proper chosen) (same : case.withoutRequotes = other.withoutRequotes) :
    other.Proper chosen := by
  obtain ⟨type, state⟩ := type_state_of_withoutRequotes same
  have roles := congrArg (fun case => (case.currentAcc, case.oppositeAcc)) same
  obtain ⟨trigger, decided, accounts⟩ := proper.roles
  exact ⟨⟨trigger, decided, Eq.trans roles.symm accounts⟩, state ▸ proper.selected,
    state ▸ type ▸ proper.failed⟩

/-- The pointers of a proper case are set once the instance has chosen. -/
theorem TradeCase.Proper.pointers {case : TradeCase} {chosen : Prop} (proper : case.Proper chosen)
    (isChosen : chosen) : case.currentAcc ≠ none ∧ case.oppositeAcc ≠ none := by
  obtain ⟨trigger, decided, accounts⟩ := proper.roles
  have both := accountsOf_ne_none (decided isChosen)
  rwa [← accounts] at both

variable {type : CaseType} {chosen : Prop}

theorem hasChosen_of_core {context after : Context} (same : after.core = context.core) :
    after.inst.HasChosen = context.inst.HasChosen :=
  congrArg (· ≠ none) (congrArg Prod.snd same)

theorem holdsProper_of_core {α : Type} {m : CaseM α} (keeps : Keeps (Unchanged Context.core) m) :
    Keeps (Preserves (HoldsProper type chosen)) m := by
  intro context holds case member
  obtain ⟨origin, held, same⟩ := exists_of_core (keeps context) case member
  obtain ⟨isType, proper⟩ := holds origin held
  exact ⟨(type_state_of_withoutRequotes same).1.symm.trans isType,
    proper.of_withoutRequotes same⟩

theorem ClosesProperly.of_core {first last : Context} (same : last.core = first.core)
    (proper : ClosesProperly first) : ClosesProperly last := by
  intro case member closes
  obtain ⟨origin, held, sameCase⟩ := exists_of_core same case member
  have isType := (type_state_of_withoutRequotes sameCase).1
  rw [hasChosen_of_core same]
  exact (proper origin held (isType ▸ closes)).of_withoutRequotes sameCase

theorem closesProperly_of_core {α : Type} {m : CaseM α}
    (keeps : Keeps (Unchanged Context.core) m) : Keeps (Preserves ClosesProperly) m :=
  fun context proper => proper.of_core (keeps context)

/-! ## Running a close case -/

/-- A case's change to itself keeps it proper. -/
theorem modifyCase_holdsProper {f : TradeCase → TradeCase}
    (keeps : ∀ case : TradeCase, case.type = type → case.Proper chosen →
      (f case).type = type ∧ (f case).Proper chosen) :
    Keeps (Preserves (HoldsProper type chosen)) (modifyCase f) := by
  intro context holds case member
  obtain ⟨origin, held, rfl⟩ := Option.map_eq_some_iff.mp member
  obtain ⟨isType, proper⟩ := holds origin held
  exact keeps origin isType proper

theorem setState_holdsProper {state : CaseState} (selected : state ≠ .notSelected)
    (failed : state = .failed → type = .panicClose) :
    Keeps (Preserves (HoldsProper type chosen)) (setState state) :=
  modifyCase_holdsProper fun _ isType proper =>
    ⟨isType, proper.roles, selected, fun fails => isType.trans (failed fails)⟩

/-- The roles chosen by the positions are those of a trigger. -/
theorem selectRoles_accountsOf (inst : TradeInstance) {case : TradeCase}
    (proper : case.Proper chosen) :
    ∃ trigger, (chosen → trigger ≠ .init) ∧ selectRoles inst case = accountsOf trigger := by
  unfold selectRoles
  dsimp only
  split
  · exact ⟨.positive, fun _ => nofun, rfl⟩
  · split
    · exact ⟨.negative, fun _ => nofun, rfl⟩
    · exact proper.roles

theorem panicClose_init_holdsProper {case : TradeCase} (proper : case.Proper chosen) :
    Keeps (Preserves (HoldsProper .panicClose chosen)) (PanicClose.init case) := by
  refine keeps_getInst.bind fun inst => .ite (fun _ => ?_) fun _ => ?_
  · exact setState_holdsProper nofun nofun
  · refine .bind (holdsProper_of_core (modifyInst_core fun _ => ⟨rfl, rfl⟩)) fun _ => ?_
    refine .bind (modifyCase_holdsProper fun _ isType other => ?_) fun _ => ?_
    · exact ⟨isType, selectRoles_accountsOf inst proper, other.selected, other.failed⟩
    · refine (holdsProper_of_core (core_frame.closeOrder _ _ _)).bind fun mainOrderId => ?_
      refine .bind (modifyCase_holdsProper fun _ isType other => ?_) fun _ => ?_
      · exact ⟨isType, other.roles, other.selected, other.failed⟩
      · split
        · exact setState_holdsProper nofun fun _ => rfl
        · exact setState_holdsProper nofun nofun

theorem panicClose_reprice_holdsProper (case : TradeCase) :
    Keeps (Preserves (HoldsProper type chosen)) (PanicClose.reprice case) := by
  refine keeps_getInst.bind fun inst => .ite (fun _ => ?_) fun _ => ?_
  · exact setState_holdsProper nofun nofun
  · refine .ite (fun _ => keeps_pure ()) fun _ => ?_
    refine (holdsProper_of_core (core_frame.changeOrder _ _ _ _)).bind fun newOrderId => ?_
    refine .ite (fun _ => setState_holdsProper nofun nofun) fun _ => ?_
    refine modifyCase_holdsProper fun _ isType other => ?_
    exact ⟨isType, other.roles, other.selected, other.failed⟩

theorem softClose_init_holdsProper {case : TradeCase} (proper : case.Proper chosen) :
    Keeps (Preserves (HoldsProper type chosen)) (SoftClose.init case) := by
  have done : Keeps (Preserves (HoldsProper type chosen)) (setState .done) :=
    setState_holdsProper nofun nofun
  refine keeps_getInst.bind fun inst => done.whenever.bind fun _ => ?_
  refine .bind (holdsProper_of_core (modifyInst_core fun _ => ⟨rfl, rfl⟩)) fun _ => ?_
  have crashes : Keeps (Preserves (HoldsProper type chosen)) crash :=
    holdsProper_of_core (modifyInst_core fun _ => ⟨rfl, rfl⟩)
  refine .ite (fun _ => crashes) fun _ => ?_
  refine .bind (modifyCase_holdsProper fun _ isType other => ?_) fun _ => ?_
  · exact ⟨isType, selectRoles_accountsOf inst proper, other.selected, other.failed⟩
  · refine keeps_getInst.bind fun inst => ?_
    refine .bind (modifyCase_holdsProper fun _ isType other => ?_) fun _ => ?_
    · exact ⟨isType, other.roles, other.selected, other.failed⟩
    · refine .ite (fun _ => keeps_pure ()) fun _ => ?_
      refine (holdsProper_of_core (core_frame.closeOrder _ _ _)).bind fun mainOrderId => ?_
      refine .bind (modifyCase_holdsProper fun _ isType other => ?_) fun _ => ?_
      · exact ⟨isType, other.roles, other.selected, other.failed⟩
      · exact setState_holdsProper nofun nofun

theorem softClose_reprice_holdsProper (case : TradeCase) :
    Keeps (Preserves (HoldsProper type chosen)) (SoftClose.reprice case) := by
  refine keeps_getInst.bind fun inst => .ite (fun _ => ?_) fun _ => ?_
  · exact setState_holdsProper nofun nofun
  · refine .ite (fun _ => keeps_pure ()) fun _ => ?_
    refine (holdsProper_of_core (core_frame.changeOrder _ _ _ _)).bind fun newOrderId => ?_
    refine .bind (.whenever (setState_holdsProper nofun nofun)) fun _ => ?_
    refine modifyCase_holdsProper fun _ isType other => ?_
    exact ⟨isType, other.roles, other.selected, other.failed⟩

theorem waitEqual_holdsProper (case : TradeCase) :
    Keeps (Preserves (HoldsProper type chosen)) (waitEqual case) := by
  have done : Keeps (Preserves (HoldsProper type chosen)) (setState .done) :=
    setState_holdsProper nofun nofun
  exact keeps_getInst.bind fun _ => done.whenever

/-- A close case stays proper. -/
theorem run_holdsProper {case : TradeCase} (closes : case.type.Closes)
    (proper : case.Proper chosen) :
    Keeps (Preserves (HoldsProper case.type chosen)) case.run := by
  unfold TradeCase.run TradeCase.init TradeCase.reprice TradeCase.wait
  rcases closes with isType | isType
  · rw [isType]
    cases case.state with
    | init => exact panicClose_init_holdsProper proper
    | priceChange => exact panicClose_reprice_holdsProper case
    | wait => exact waitEqual_holdsProper case
    | done | failed | notSelected => exact keeps_pure ()
  · rw [isType]
    cases case.state with
    | init => exact softClose_init_holdsProper proper
    | priceChange => exact softClose_reprice_holdsProper case
    | wait => exact waitEqual_holdsProper case
    | done | failed | notSelected => exact keeps_pure ()

/-! ## Steps -/

variable {context : Context}

theorem holdsProper_of_closesProperly (proper : ClosesProperly context) (closes : type.Closes)
    (held : context.modes.held = some type) :
    HoldsProper type context.inst.HasChosen context := by
  intro case member
  have isType : case.type = type := by
    have held' : context.modes.held = some case.type := congrArg (Option.map TradeCase.type) member
    exact Option.some_injective _ (held'.symm.trans held)
  exact ⟨isType, proper case member (isType ▸ closes)⟩

/-- Nothing is asked of a case that closes nothing. -/
theorem closesProperly_of_modes (opens : ∀ type ∈ context.modes.held, ¬ type.Closes) :
    ClosesProperly context :=
  fun case member closes =>
    absurd closes (opens case.type (Option.mem_map.mpr ⟨case, member, rfl⟩))

/-- A new case replaces the held one. -/
theorem replaceCase_closesProperly {tradeCase : Option TradeCase}
    (created : ∀ case ∈ tradeCase, case.type.Closes → case.Proper context.inst.HasChosen) :
    ClosesProperly ((replaceCase tradeCase).run context).2 := by
  intro case member closes
  have core := replaceCase_core tradeCase context
  obtain ⟨origin, isNew, same⟩ := exists_of_core core case member
  have isType := (type_state_of_withoutRequotes same).1
  have sameChoice : ((replaceCase tradeCase).run context).2.inst.HasChosen =
      context.inst.HasChosen :=
    congrArg (· ≠ none) (congrArg Prod.snd core)
  rw [sameChoice]
  exact (created origin isNew (isType ▸ closes)).of_withoutRequotes same

/-- The initial trigger has no current account. -/
theorem Roles.Settled.decided {inst : TradeInstance} (settled : inst.roles.Settled)
    (isChosen : inst.HasChosen) : inst.prevTriggerState ≠ .init := by
  intro undecided
  have accounts : (inst.currentAcc, inst.oppositeAcc) = accountsOf inst.prevTriggerState :=
    settled.accounts
  rw [undecided] at accounts
  exact isChosen (congrArg Prod.fst accounts)

/-- A case created under settled roles is proper. -/
theorem create_proper {inst : TradeInstance} (settled : inst.roles.Settled) (type : CaseType) :
    ∀ case ∈ TradeCaseFactory.create inst type, case.Proper inst.HasChosen := by
  intro case member
  cases type with
  | none => cases member
  | case4 | hedgeCurrent | case9 | case10 | panicClose | softClose =>
      cases member
      exact ⟨⟨_, settled.decided, settled.accounts⟩, nofun, nofun⟩

theorem createClose_closesProperly (settled : context.roles.Settled)
    (proper : ClosesProperly context) (asked : Bool) (clear : TradeInstance → TradeInstance)
    (keeps : ∀ inst, (clear inst).currentAcc = inst.currentAcc) (type : CaseType) :
    ClosesProperly ((createClose asked clear type).run context).2 := by
  unfold createClose
  rw [run_getInst_bind, whenever]
  split
  · rw [run_modifyInst_bind]
    have sameChoice : (context.mapInst clear).inst.HasChosen = context.inst.HasChosen :=
      congrArg (· ≠ none) (keeps context.inst)
    refine replaceCase_closesProperly fun case member _ => ?_
    rw [sameChoice]
    exact create_proper settled type case member
  · exact proper

theorem caseSelection_closesProperly : Keeps (Preserves ClosesProperly) caseSelection := by
  refine keeps_getInst.bind fun inst => .ite (fun _ => keeps_pure ()) fun _ => ?_
  refine .bind (fun _ proper => proper) fun _ context _ => ?_
  refine replaceCase_closesProperly fun case member closes => ?_
  have isType := create_type inst (Option.mem_map.mpr ⟨case, member, rfl⟩)
  exact absurd (isType ▸ closes) (selectCase_not_closes inst)

theorem changeTrigger_chosen (inst : TradeInstance) :
    inst.changeTrigger.currentAcc ≠ none ∧ inst.changeTrigger.oppositeAcc ≠ none := by
  unfold TradeInstance.changeTrigger
  dsimp only
  split
  · exact ⟨nofun, nofun⟩
  · exact ⟨nofun, nofun⟩

/-- A trigger that changes brings a case that closes nothing. -/
theorem changeTrigger_closesProperly (context : Context) :
    ClosesProperly ((do
      modifyInst TradeInstance.changeTrigger
      caseSelection : CaseM Unit).run context).2 := by
  have chosen := changeTrigger_chosen context.inst
  generalize changed : context.mapInst TradeInstance.changeTrigger = after
  have isChosen : after.inst.currentAcc ≠ none ∧ after.inst.oppositeAcc ≠ none := changed ▸ chosen
  rw [run_modifyInst_bind, changed]
  unfold caseSelection
  rw [run_getInst_bind, if_neg (not_or.mpr isChosen), run_modifyInst_bind]
  refine replaceCase_closesProperly fun case member closes => ?_
  have isType := create_type after.inst (Option.mem_map.mpr ⟨case, member, rfl⟩)
  exact absurd (isType ▸ closes) (selectCase_not_closes after.inst)

/-- A selection holds close cases properly. -/
theorem selection_closesProperly (settled : context.roles.Settled)
    (proper : ClosesProperly context) : ClosesProperly (selection.run context).2 := by
  have sameRoles : context.checked.roles = context.roles := selfDestruct_roles _
  have checkedSettled : context.checked.roles.Settled := by
    rwa [sameRoles]
  have checkedProper : ClosesProperly context.checked := by
    have same : context.checked.inst.tradeCase = context.inst.tradeCase := by
      change (TradeInstance.selfDestruct _).tradeCase = _
      unfold TradeInstance.selfDestruct
      split <;> rfl
    have sameChoice : context.checked.inst.HasChosen = context.inst.HasChosen :=
      congrArg (· ≠ none) (congrArg Roles.currentAcc sameRoles)
    unfold ClosesProperly
    rwa [same, sameChoice]
  by_cases panic : context.checked.inst.isPanicClose = true
  · rw [selection_panic panic]
    exact createClose_closesProperly checkedSettled checkedProper
      context.checked.inst.panicCloseInit (fun inst => { inst with panicCloseInit := false })
      (fun _ => rfl) .panicClose
  · by_cases soft : context.checked.inst.isSoftClose = true
    · rw [selection_soft panic soft]
      exact createClose_closesProperly checkedSettled checkedProper
        context.checked.inst.softCloseInit (fun inst => { inst with softCloseInit := false })
        (fun _ => rfl) .softClose
    · rw [selection_open panic soft]
      have trigger : Keeps (Preserves ClosesProperly) triggerSelection := by
        refine .bind (fun _ proper => proper) fun _ => keeps_getInst.bind fun inst => ?_
        exact .whenever fun context _ => changeTrigger_closesProperly context
      exact (caseSelection_closesProperly.whenever.bind fun _ => trigger) _ checkedProper

theorem currentAcc_frame : ClosingFrame (Unchanged fun context => context.inst.currentAcc) where
  nextReply := keeps_nextReply (fun _ _ => rfl) fun context callback =>
    congrArg Roles.currentAcc (onCallback_roles context callback)
  record _ := keeps_modify fun _ => rfl
  modifyCase _ _ := fun _ => rfl
  modifyAccount _ _ _ := fun _ => rfl
  setTrigger := fun _ => rfl
  crash := fun _ => rfl
  modifyRoles _ _ := fun _ => rfl

theorem finishCase_currentAcc :
    Keeps (Unchanged fun context => context.inst.currentAcc) finishCase := by
  refine keeps_getInst.bind fun inst => ?_
  cases inst.tradeCase with
  | none => exact keeps_pure ()
  | some case =>
      refine .ite (fun _ => .whenever fun _ => rfl) fun _ => .whenever ?_
      exact .bind (fun _ => rfl) fun _ context => congrArg Prod.snd (replaceCase_core none context)

theorem runCase_currentAcc :
    Keeps (Unchanged fun context => context.inst.currentAcc) runCase := by
  refine keeps_getInst.bind fun inst => ?_
  cases inst.tradeCase with
  | none => exact keeps_pure ()
  | some case =>
      refine (currentAcc_frame.run case).bind fun _ => keeps_unlessCrashed ?_
      exact .bind (fun _ => rfl) fun _ => finishCase_currentAcc

/-- So does running the held case. -/
theorem runCase_closesProperly (proper : ClosesProperly context) :
    ClosesProperly (runCase.run context).2 := by
  by_cases closes : ∃ case ∈ context.inst.tradeCase, case.type.Closes
  · obtain ⟨case, held, closes⟩ := closes
    have holds := holdsProper_of_closesProperly proper closes
      (congrArg (Option.map TradeCase.type) held)
    have ran := run_holdsProper closes (proper case held closes) context holds
    have sameChoice : (case.run.run context).2.inst.HasChosen = context.inst.HasChosen :=
      congrArg (· ≠ none) (currentAcc_frame.run case context)
    rw [← sameChoice] at ran
    unfold runCase
    rw [run_getInst_bind, Option.mem_def.mp held, run_bind, run_unlessCrashed]
    generalize (case.run.run context).2 = after at ran
    split
    · exact fun last member _ => (ran last member).2
    rw [run_modifyInst_bind]
    have noted : HoldsProper case.type after.inst.HasChosen (after.mapInst fun inst =>
        { inst with lastState := (inst.tradeCase.map TradeCase.state).getD inst.lastState }) :=
      ran
    have sameNoted : (after.mapInst fun inst =>
        { inst with lastState := (inst.tradeCase.map TradeCase.state).getD inst.lastState }
        ).inst.HasChosen = after.inst.HasChosen := rfl
    rw [← sameNoted] at noted
    generalize after.mapInst _ = after at noted
    intro last member _
    have sameEnd : (finishCase.run after).2.inst.HasChosen = after.inst.HasChosen :=
      congrArg (· ≠ none) (finishCase_currentAcc after)
    rw [sameEnd]
    unfold finishCase at member
    rw [run_getInst_bind] at member
    cases isHeld : after.inst.tradeCase with
    | none =>
        rw [isHeld] at member
        cases isHeld.symm.trans member
    | some done =>
        rw [isHeld] at member
        obtain ⟨isType, _⟩ := noted done isHeld
        dsimp only at member
        rw [if_pos (isType ▸ closes), whenever] at member
        split at member
        · exact (noted last member).2
        · exact (noted last member).2
  · refine closesProperly_of_modes ?_
    have opens : ∀ type ∈ context.modes.held, ¬ type.Closes := by
      intro type member isClose
      obtain ⟨case, held, rfl⟩ := Option.mem_map.mp member
      exact closes ⟨case, held, isClose⟩
    rcases runCase_modes context with same | ⟨_, same⟩ | ⟨_, same⟩
    · rw [same]
      exact opens
    · rw [same]
      exact opens
    · rw [same]
      exact fun type member => absurd member (Option.not_mem_none type)

/-- Every step holds close cases properly. -/
theorem step_closesProperly (settled : context.roles.Settled) (proper : ClosesProperly context)
    (label : Label) : ClosesProperly (context.step label) := by
  refine Context.step_cases (fun _ => proper) fun _ => ?_
  cases label with
  | pass quote replies =>
      rw [Context.act_pass]
      by_cases active : context.Running ∧ 0 < (context.quoted quote replies).inst.priceEstimate
      · rw [Context.step_pass active.1 active.2]
        have quoted : (context.quoted quote replies).roles.Settled := settled.quoted _
        have ran := runCase_closesProperly (selection_closesProperly quoted proper)
        exact closesProperly_of_core (modifyInst_core writeBack_core) _ ran
      · exact Context.step_pass_skipped (P := ClosesProperly) active proper proper
  | callback callback => exact proper.of_core (onCallback_core context callback)
  | stopAction replies =>
      have stops : (context.act (.stopAction replies)).core = context.core :=
        Context.act_stopAction core_frame.cancelAll (modifyInst_core fun _ => ⟨rfl, rfl⟩) context
          replies
      exact proper.of_core stops
  | enablePanicClose | disablePanicClose | enableSoftClose | disableSoftClose | resume | pause
  | avicennaToggle => exact proper

end TradingApp.Instance
