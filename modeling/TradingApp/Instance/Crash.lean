import TradingApp.Instance.CloseCase

/-!
# When the program ends

Until an instance has chosen its first trigger its account pointers are null.
Two places use them all the same: the start of a soft close that finds the
positions equal, and the entry of the held case at the end of a pass.  So the
program ends in the first pass that a close mode takes over before a trigger was
chosen, and in no other.
-/

namespace TradingApp.Instance

open TradingApp.Account TradingApp.Redis TradingApp.Transition

/-- The program has ended in a crash. -/
def Context.crashed (context : Context) : Bool :=
  context.inst.crashed

variable {context : Context} {case : TradeCase}

/-! ## What does not end it -/

theorem onCallback_crashed (context : Context) (callback : Callback) :
    (context.onCallback callback).crashed = context.crashed := by
  obtain ⟨_, _, same, _⟩ := onCallback_eq context.inst callback
  unfold Context.crashed Context.onCallback
  dsimp only
  rw [same]

theorem modifyInst_crashed {f : TradeInstance → TradeInstance}
    (same : ∀ inst, (f inst).crashed = inst.crashed) :
    Keeps (Unchanged Context.crashed) (modifyInst f) :=
  fun context => same context.inst

theorem crashed_selectionFrame : SelectionFrame (Unchanged Context.crashed) where
  nextReply := keeps_nextReply (fun _ _ => rfl) onCallback_crashed
  record _ := keeps_modify fun _ => rfl
  modifyAccount _ _ _ := modifyInst_crashed fun _ => rfl
  modifyInst _ same := modifyInst_crashed fun inst => (same inst).2.2

theorem crashed_choiceFrame : ChoiceFrame (Unchanged Context.crashed) where
  toReplyFrame := crashed_selectionFrame.toReplyFrame
  modifyCase _ _ := modifyInst_crashed fun _ => rfl
  setTrigger := modifyInst_crashed fun _ => rfl
  modifyRoles _ _ := modifyInst_crashed fun _ => rfl

/-- A soft close keeps pointers that are set, or sets them. -/
theorem selectRoles_pointers (inst : TradeInstance)
    (pointers : case.currentAcc ≠ none ∧ case.oppositeAcc ≠ none) :
    ¬ ((selectRoles inst case).1 = none ∨ (selectRoles inst case).2 = none) := by
  unfold selectRoles
  dsimp only
  split
  · simp
  · split
    · simp
    · exact not_or.mpr pointers

theorem softClose_init_crashed (pointers : case.currentAcc ≠ none ∧ case.oppositeAcc ≠ none) :
    Keeps (Unchanged Context.crashed) (SoftClose.init case) := by
  have frame := crashed_choiceFrame
  refine keeps_getInst.bind fun inst => (frame.setState .done).whenever.bind fun _ => ?_
  refine frame.setTrigger.bind fun _ => .ite (fun null => ?_) fun _ => ?_
  · exact absurd null (selectRoles_pointers inst pointers)
  · refine .bind (frame.modifyRoles _ fun _ => rfl) fun _ => keeps_getInst.bind fun inst => ?_
    refine .bind (frame.modifyCase _ fun _ => rfl) fun _ => ?_
    refine .ite (fun _ => keeps_pure ()) fun _ => (frame.closeOrder _ _ _).bind fun _ => ?_
    exact .bind (frame.modifyCase _ fun _ => rfl) fun _ => frame.setState _

theorem run_crashed
    (pointers : case.type = .softClose → case.currentAcc ≠ none ∧ case.oppositeAcc ≠ none) :
    Keeps (Unchanged Context.crashed) case.run :=
  crashed_choiceFrame.run_of case fun soft => softClose_init_crashed (pointers soft)

/-- Running the held case does not end the program, unless it is a soft close without
pointers. -/
theorem runCase_crashed (pointers : ∀ case ∈ context.inst.tradeCase, case.type = .softClose →
      case.currentAcc ≠ none ∧ case.oppositeAcc ≠ none) :
    (runCase.run context).2.crashed = context.crashed := by
  unfold runCase
  rw [run_getInst_bind]
  cases held : context.inst.tradeCase with
  | none => rfl
  | some case =>
      have ends : Keeps (Unchanged Context.crashed) (do
          case.run
          unlessCrashed do
            modifyInst fun inst =>
              { inst with lastState := (inst.tradeCase.map TradeCase.state).getD inst.lastState }
            finishCase) :=
        (run_crashed (pointers case held)).bind fun _ => keeps_unlessCrashed <|
          .bind (modifyInst_crashed fun _ => rfl) fun _ => crashed_selectionFrame.finishCase
      exact ends context

/-- Without a soft close a selection selects none. -/
theorem selection_notSoft (mode : context.modes.isSoftClose = false)
    (held : context.modes.held ≠ some .softClose) :
    ∀ case ∈ (selection.run context).2.inst.tradeCase, case.type ≠ .softClose := by
  have checked : context.checked.modes.isSoftClose = false ∧
      context.checked.modes.held ≠ some .softClose := by
    rcases checked_modes context with same | same
    · rw [same]
      exact ⟨mode, held⟩
    · rw [same]
      exact ⟨mode, held⟩
  have notSoft : context.checked.inst.isSoftClose ≠ true := Bool.eq_false_iff.mp checked.1
  suffices selected : (selection.run context).2.modes.held ≠ some .softClose from
    fun case member isSoft => selected <| by
      rw [← isSoft]
      exact congrArg (Option.map TradeCase.type) member
  by_cases panic : context.checked.inst.isPanicClose = true
  · rw [selection_panic panic, createPanicClose_modes]
    dsimp only
    split
    · exact nofun
    · exact checked.2
  · obtain ⟨last, modes, kept⟩ := selection_open_selectsNoClose panic notSoft
    rw [modes]
    rcases kept with same | opens
    · exact same ▸ checked.2
    · exact fun isSoft => opens .softClose isSoft (Or.inr rfl)

theorem writeBack_crashed (context : Context) :
    (context.mapInst writeBack).crashed = true ↔
      context.crashed = true ∨ context.inst.tradeCase ≠ none ∧ ¬ context.inst.HasChosen := by
  unfold Context.crashed Context.mapInst writeBack TradeInstance.HasChosen
  dsimp only
  split
  · rename_i crashed
    simp [crashed]
  · rename_i alive
    simp [alive, writeHeldCase, writePositions]

/-! ## Passes -/

/-- What holds between passes as long as the program runs: the roles are settled, a
close mode is taken up, a held close case is proper, and if any case is held the
instance has chosen a trigger. -/
structure Steady (context : Context) : Prop where
  settled : context.roles.Settled
  takenUp : context.modes.TakenUp
  proper : ClosesProperly context
  chosen : context.inst.tradeCase ≠ none → context.inst.HasChosen

theorem held_isSome_of_core {first last : Context} (same : last.core = first.core) :
    last.inst.tradeCase ≠ none ↔ first.inst.tradeCase ≠ none := by
  have cores : last.inst.tradeCase.map TradeCase.withoutRequotes =
      first.inst.tradeCase.map TradeCase.withoutRequotes := congrArg Prod.fst same
  rw [← Option.isSome_iff_ne_none, ← Option.isSome_iff_ne_none, ← Option.isSome_map, cores,
    Option.isSome_map]

/-- A selection that a close mode takes over chooses no trigger. -/
theorem selection_special_currentAcc (special : (selection.run context).1 = true) :
    (selection.run context).2.inst.currentAcc = context.inst.currentAcc := by
  have checked : context.checked.inst.currentAcc = context.inst.currentAcc :=
    congrArg Roles.currentAcc (selfDestruct_roles _)
  have creates (asked : Bool) (clear : TradeInstance → TradeInstance) (type : CaseType)
      (keeps : ∀ inst, (clear inst).currentAcc = inst.currentAcc) :
      Keeps (Unchanged fun context => context.inst.currentAcc) (createClose asked clear type) := by
    refine keeps_getInst.bind fun inst => .whenever <| .bind (fun context => keeps context.inst) ?_
    exact fun _ context => congrArg Prod.snd (replaceCase_core _ context)
  by_cases panic : context.checked.inst.isPanicClose = true
  · rw [selection_panic panic]
    exact (creates _ (fun inst => { inst with panicCloseInit := false }) .panicClose
      (fun _ => rfl) context.checked).trans checked
  · by_cases soft : context.checked.inst.isSoftClose = true
    · rw [selection_soft panic soft]
      exact (creates _ (fun inst => { inst with softCloseInit := false }) .softClose
        (fun _ => rfl) context.checked).trans checked
    · rw [selection_open panic soft] at special
      exact absurd special Bool.false_ne_true

/-- A selection that no close mode takes over leaves a trigger chosen. -/
theorem selection_open_chosen (settled : context.roles.Settled) {quote : Quote}
    {replies : List Reply} (positive : 0 < (context.quoted quote replies).inst.priceEstimate)
    (opens : (selection.run (context.quoted quote replies)).1 = false) :
    (selection.run (context.quoted quote replies)).2.inst.HasChosen := by
  have quoted : (context.quoted quote replies).roles.Settled := settled.quoted _
  obtain ⟨after, agrees⟩ := selection_settled ⟨quoted, positive⟩
  obtain ⟨same, decided⟩ := agrees opens
  have accounts := accountsOf_ne_none (same ▸ decided)
  rw [← after.accounts] at accounts
  exact accounts.1

/-- The held case of a pass once the selection is made has its pointers, if a trigger is
chosen. -/
theorem selection_pointers (settled : context.roles.Settled) (proper : ClosesProperly context)
    (chosen : (selection.run context).2.inst.HasChosen) :
    ∀ case ∈ (selection.run context).2.inst.tradeCase, case.type = .softClose →
      case.currentAcc ≠ none ∧ case.oppositeAcc ≠ none := by
  intro case held isSoft
  have closes := selection_closesProperly settled proper case held (Or.inr isSoft)
  exact closes.pointers chosen

/-- A close case is held as long as it runs. -/
theorem runCase_held (closes : ∃ type ∈ context.modes.held, type.Closes) :
    (runCase.run context).2.inst.tradeCase ≠ none := by
  have held : context.modes.held ≠ none := by
    obtain ⟨type, member, _⟩ := closes
    exact Option.ne_none_iff_exists'.mpr ⟨type, member⟩
  have after : (runCase.run context).2.modes.held = context.modes.held := by
    rcases runCase_modes context with same | ⟨_, same⟩ | ⟨⟨type, member, opens⟩, _⟩
    · rw [same]
    · rw [same]
    · obtain ⟨other, isHeld, otherCloses⟩ := closes
      exact absurd (Option.mem_unique isHeld member ▸ otherCloses) opens
  rw [← after] at held
  exact fun none => held (congrArg (Option.map TradeCase.type) none)

/-- A pass ends the program exactly if a close mode takes it over before a trigger was
chosen. -/
theorem step_pass_crashed (steady : Steady context) {quote : Quote} {replies : List Reply}
    (running : context.Running) (positive : 0 < (context.quoted quote replies).inst.priceEstimate) :
    (context.step (.pass quote replies)).crashed = true ↔
      (selection.run (context.quoted quote replies)).1 = true ∧ ¬ context.inst.HasChosen := by
  have settled : (context.quoted quote replies).roles.Settled := steady.settled.quoted _
  have takenUp : (context.quoted quote replies).modes.TakenUp := steady.takenUp
  have proper : ClosesProperly (context.quoted quote replies) := steady.proper
  have sameChoice : (selection.run (context.quoted quote replies)).1 = true →
      (selection.run (context.quoted quote replies)).2.inst.HasChosen = context.inst.HasChosen :=
    fun special => congrArg (· ≠ none) (selection_special_currentAcc special)
  have opens := selection_open_chosen steady.settled positive
  have taken := selection_takenUp takenUp
  have pointers := selection_pointers settled proper
  have selected : (selection.run (context.quoted quote replies)).2.crashed = false :=
    (crashed_selectionFrame.selection _).trans running.2.2
  rw [Context.step_pass running positive, run_bind]
  generalize selection.run (context.quoted quote replies) = result at *
  obtain ⟨special, after⟩ := result
  have ran : (runCase.run after).2.inst.HasChosen = after.inst.HasChosen :=
    congrArg (· ≠ none) (runCase_currentAcc after)
  change ((runCase.run after).2.mapInst writeBack).crashed = true ↔ _
  rw [writeBack_crashed, ran]
  dsimp only at sameChoice opens taken pointers selected ⊢
  by_cases chosen : after.inst.HasChosen
  · rw [runCase_crashed (pointers chosen), selected]
    have both : ¬ (special = true ∧ ¬ context.inst.HasChosen) := fun ⟨takesOver, notChosen⟩ =>
      notChosen (sameChoice takesOver ▸ chosen)
    simp [chosen, both]
  · have takesOver : special = true := by
      by_contra isOpen
      exact chosen (opens (Bool.eq_false_iff.mpr isOpen))
    have held := runCase_held (taken.2 takesOver)
    have notChosen : ¬ context.inst.HasChosen := sameChoice takesOver ▸ chosen
    simp [chosen, held, takesOver, notChosen]

/-- What is not a pass neither ends the program nor changes which case is held. -/
theorem act_crashed_core (context : Context) {label : Label}
    (notPass : ∀ quote replies, label ≠ .pass quote replies) :
    (context.act label).crashed = context.crashed ∧ (context.act label).core = context.core := by
  cases label with
  | pass quote replies => exact absurd rfl (notPass quote replies)
  | callback callback =>
      exact ⟨onCallback_crashed context callback, onCallback_core context callback⟩
  | stopAction replies =>
      have crashes : (context.act (.stopAction replies)).crashed = context.crashed :=
        Context.act_stopAction crashed_selectionFrame.cancelAll
          (modifyInst_crashed fun _ => rfl) context replies
      have cores : (context.act (.stopAction replies)).core = context.core :=
        Context.act_stopAction core_frame.cancelAll (modifyInst_core fun _ => ⟨rfl, rfl⟩) context
          replies
      exact ⟨crashes, cores⟩
  | enablePanicClose | disablePanicClose | enableSoftClose | disableSoftClose | resume | pause
  | avicennaToggle => exact ⟨rfl, rfl⟩

/-- Only a pass can be one that a close mode takes over. -/
theorem ClosePass.isPass {label : Label} (closePass : ClosePass context label) :
    ∃ quote replies, label = .pass quote replies := by
  cases label with
  | pass quote replies => exact ⟨quote, replies, rfl⟩
  | _ => exact absurd closePass id

/-- A step is a pass that is made on a positive estimate, or it leaves the core as it is
and the program running. -/
theorem step_pass_or_core (alive : context.crashed = false) (label : Label) :
    (∃ quote replies, label = .pass quote replies ∧ context.Running ∧
        0 < (context.quoted quote replies).inst.priceEstimate) ∨
      (context.step label).crashed = false ∧ (context.step label).core = context.core ∧
        ¬ ClosePass context label := by
  by_cases isPass : ∃ quote replies, label = .pass quote replies
  · obtain ⟨quote, replies, rfl⟩ := isPass
    by_cases active : context.Running ∧ 0 < (context.quoted quote replies).inst.priceEstimate
    · exact Or.inl ⟨quote, replies, rfl, active⟩
    · have notClosePass : ¬ ClosePass context (.pass quote replies) := fun closePass =>
        active ⟨closePass.1, closePass.2.1⟩
      have skipped : (context.step (.pass quote replies)).crashed = false ∧
          (context.step (.pass quote replies)).core = context.core :=
        Context.step_pass_skipped
          (P := fun after => after.crashed = false ∧ after.core = context.core)
          active ⟨alive, rfl⟩ ⟨alive, rfl⟩
      exact Or.inr ⟨skipped.1, skipped.2, notClosePass⟩
  · have same := act_crashed_core context fun quote replies is => isPass ⟨quote, replies, is⟩
    rw [Context.step_of_alive alive]
    exact Or.inr ⟨same.1.trans alive, same.2, fun closePass => isPass closePass.isPass⟩

/-- So it is for every step. -/
theorem step_crashed_iff (steady : Steady context) (alive : context.crashed = false)
    (label : Label) :
    (context.step label).crashed = true ↔ ClosePass context label ∧ ¬ context.inst.HasChosen := by
  rcases step_pass_or_core alive label with ⟨quote, replies, rfl, running, positive⟩ | idle
  · rw [step_pass_crashed steady running positive]
    exact and_congr_left fun _ => ⟨fun special => ⟨running, positive, special⟩,
      fun closePass => closePass.2.2⟩
  · obtain ⟨stays, _, notClosePass⟩ := idle
    rw [stays]
    exact ⟨nofun, fun ⟨closePass, _⟩ => absurd closePass notClosePass⟩

/-- A trigger that is chosen remains chosen, or is replaced by another. -/
theorem step_hasChosen (settled : context.roles.Settled) (chosen : context.inst.HasChosen)
    (label : Label) : (context.step label).inst.HasChosen := by
  cases isCrashed : context.crashed with
  | true =>
      rw [Context.step_of_crashed isCrashed]
      exact chosen
  | false =>
      rcases step_pass_or_core isCrashed label with ⟨quote, replies, rfl, running, positive⟩ | idle
      · have opens := selection_open_chosen settled positive
        have special (takesOver : (selection.run (context.quoted quote replies)).1 = true) :=
          selection_special_currentAcc takesOver
        rw [Context.step_pass running positive, run_bind]
        generalize selection.run (context.quoted quote replies) = result at opens special ⊢
        obtain ⟨takesOver, selected⟩ := result
        change ((runCase.run selected).2.mapInst writeBack).inst.currentAcc ≠ none
        have written := (writeBack_core (runCase.run selected).2.inst).2
        have ran : (runCase.run selected).2.inst.currentAcc = selected.inst.currentAcc :=
          runCase_currentAcc selected
        refine ne_of_eq_of_ne (written.trans ran) ?_
        cases takesOver with
        | true => exact ne_of_eq_of_ne (special rfl) chosen
        | false => exact opens rfl
      · rwa [hasChosen_of_core idle.2.1]

/-- A step that does not end the program leaves it so. -/
theorem Steady.step (steady : Steady context) (label : Label)
    (alive : (context.step label).crashed = false) : Steady (context.step label) where
  settled := step_settled context label steady.settled
  takenUp := step_takenUp steady.takenUp label
  proper := step_closesProperly steady.settled steady.proper label
  chosen := by
    have before : context.crashed = false := Context.alive_of_step alive
    rcases step_pass_or_core before label with ⟨quote, replies, rfl, running, positive⟩ | idle
    · rw [Context.step_pass running positive, run_bind] at alive ⊢
      generalize (selection.run (context.quoted quote replies)).2 = selected at alive ⊢
      have written := (writeBack_crashed (runCase.run selected).2).not.mp
        (ne_true_of_eq_false alive)
      intro held
      have same := writeBack_core (runCase.run selected).2.inst
      have sameChoice : ((runCase.run selected).2.mapInst writeBack).inst.HasChosen =
          (runCase.run selected).2.inst.HasChosen :=
        congrArg (· ≠ none) same.2
      by_contra notChosen
      exact written (Or.inr ⟨same.1 ▸ held, sameChoice ▸ notChosen⟩)
    · rw [held_isSome_of_core idle.2.1, hasChosen_of_core idle.2.1]
      exact steady.chosen

/-! ## Runs -/

theorem steady_of_construct {config : Config} {uninitialized : Uninitialized} {writer : RedisWriter}
    {inst : TradeInstance}
    (constructs : TradeInstance.construct config uninitialized writer = some inst) :
    Steady { inst, replies := [], log := [] } := by
  have settled := construct_settled constructs
  obtain ⟨restored, _, rfl⟩ := Option.map_eq_some_iff.mp constructs
  exact ⟨settled, ⟨nofun, nofun⟩, fun _ member _ => absurd member (Option.not_mem_none _),
    fun held => absurd rfl held⟩

/-- So it is in every run of a new instance. -/
theorem everyState_steady {config : Config} {uninitialized : Uninitialized} {writer : RedisWriter}
    {inst : TradeInstance}
    (constructs : TradeInstance.construct config uninitialized writer = some inst)
    (labels : List Label) :
    EveryState Context.step (fun context => context.crashed = false → Steady context)
      { inst, replies := [], log := [] } labels :=
  everyState_of_forall_step
    (fun _ label steady alive => (steady (Context.alive_of_step alive)).step label alive)
    (fun _ => steady_of_construct constructs) labels

/-- In every run of a new instance the program ends exactly in a pass that a close mode
takes over before a trigger was chosen. -/
theorem everyStep_crashes_iff {config : Config} {uninitialized : Uninitialized}
    {writer : RedisWriter} {inst : TradeInstance}
    (constructs : TradeInstance.construct config uninitialized writer = some inst)
    (labels : List Label) :
    EveryStep Context.step
      (fun context label => context.crashed = false →
        ((context.step label).crashed = true ↔
          ClosePass context label ∧ ¬ context.inst.HasChosen))
      { inst, replies := [], log := [] } labels :=
  everyStep_of_everyState (fun context label (steady : _ → Steady context) alive =>
    step_crashed_iff (steady alive) alive label) (everyState_steady constructs labels)

end TradingApp.Instance
