import TradingApp.Instance.Modes

/-!
# When the trading thread stops

The thread exits after a pass in which a panic or soft close is found done.
The test looks at the type of the held case, not at the mode flags, and the
case outlives them; but it was created in a pass that a close mode took over.
-/

namespace TradingApp.Instance

open TradingApp.Account TradingApp.Redis TradingApp.Transition

/-- A pass that a close mode takes over. -/
def ClosePass (context : Context) : Label → Prop
  | .pass quote replies =>
      context.Running ∧ 0 < (context.quoted quote replies).inst.priceEstimate ∧
        (selection.run (context.quoted quote replies)).1 = true
  | _ => False

instance (context : Context) : (label : Label) → Decidable (ClosePass context label)
  | .pass _ _ => inferInstanceAs (Decidable (_ ∧ _ ∧ _))
  | .callback _ | .enablePanicClose | .disablePanicClose | .enableSoftClose | .disableSoftClose
  | .resume | .pause | .avicennaToggle | .stopAction _ => inferInstanceAs (Decidable False)

/-- The thread only stops in a pass that a close mode takes over. -/
def StopsInCloseMode (context : Context) (label : Label) : Prop :=
  context.inst.isNotDone = false → (context.step label).inst.isNotDone = true →
    ClosePass context label

instance (context : Context) (label : Label) : Decidable (StopsInCloseMode context label) :=
  inferInstanceAs (Decidable (_ → _ → _))

/-- A pass creates a close case only if a close mode takes it over, and stops
the thread only of a close case that is done. -/
theorem pass_modes {context : Context} {quote : Quote} {replies : List Reply}
    (running : context.Running) (positive : 0 < (context.quoted quote replies).inst.priceEstimate) :
    let last := context.step (.pass quote replies)
    (∀ type, type.Closes → last.modes.held = some type →
        context.modes.held = some type ∨ ClosePass context (.pass quote replies)) ∧
      (last.modes.isNotDone = true → context.modes.isNotDone = true ∨
        ∃ case ∈ last.inst.tradeCase, case.type.Closes ∧ case.state = .done) := by
  obtain ⟨stays, selects⟩ := selection_modes (context.quoted quote replies)
  let selected := (selection.run (context.quoted quote replies)).2
  let ran := (runCase.run selected).2
  have stepped : context.step (.pass quote replies) = ran.mapInst writeBack :=
    Context.step_pass running positive
  have created (type : CaseType) (closes : type.Closes) (held : selected.modes.held = some type) :
      context.modes.held = some type ∨ ClosePass context (.pass quote replies) := by
    cases special : (selection.run (context.quoted quote replies)).1 with
    | true => exact Or.inr ⟨running, positive, special⟩
    | false => exact Or.inl (selects special type held closes)
  dsimp only
  rw [stepped, writeBack_modes]
  change (∀ type, type.Closes → ran.modes.held = some type → _) ∧
    (ran.modes.isNotDone = true → _ ∨ ∃ case ∈ (writeBack ran.inst).tradeCase, _)
  rw [writeBack_tradeCase]
  rcases runCase_modes selected with same | ⟨stopped, modes⟩ | ⟨⟨other, held, opens⟩, modes⟩
  · rw [same]
    exact ⟨created, fun stopped => Or.inl (stays ▸ stopped)⟩
  · rw [modes]
    exact ⟨created, fun _ => Or.inr stopped⟩
  · rw [modes]
    exact ⟨nofun, fun stopped => Or.inl (stays ▸ stopped)⟩

/-- What a step leaves of the held case and of the thread. -/
theorem step_modes (context : Context) (label : Label) :
    (∀ type, type.Closes → (context.step label).modes.held = some type →
        context.modes.held = some type ∨ ClosePass context label) ∧
      ((context.step label).modes.isNotDone = true → context.modes.isNotDone = true ∨
        (∃ quote replies, label = .pass quote replies) ∧
          ∃ case ∈ (context.step label).inst.tradeCase, case.type.Closes ∧ case.state = .done) := by
  refine Context.step_cases (P := fun after =>
    (∀ type, type.Closes → after.modes.held = some type →
        context.modes.held = some type ∨ ClosePass context label) ∧
      (after.modes.isNotDone = true → context.modes.isNotDone = true ∨
        (∃ quote replies, label = .pass quote replies) ∧
          ∃ case ∈ after.inst.tradeCase, case.type.Closes ∧ case.state = .done))
    (fun _ => ⟨fun _ _ => Or.inl, Or.inl⟩) fun _ => ?_
  cases label with
  | pass quote replies =>
      rw [Context.act_pass]
      by_cases active :
          context.Running ∧ 0 < (context.quoted quote replies).inst.priceEstimate
      · obtain ⟨held, stops⟩ := pass_modes active.1 active.2
        refine ⟨held, fun stopped => (stops stopped).imp id fun done => ?_⟩
        exact ⟨⟨quote, replies, rfl⟩, done⟩
      · rcases Context.step_pass_idle active with same | same
        · rw [same]
          exact ⟨fun _ _ => Or.inl, Or.inl⟩
        · rw [same]
          exact ⟨fun _ _ => Or.inl, Or.inl⟩
  | callback callback =>
      have same : (context.act (.callback callback)).modes = context.modes :=
        onCallback_modes context callback
      rw [same]
      exact ⟨fun _ _ => Or.inl, Or.inl⟩
  | stopAction replies =>
      rw [act_stopAction_modes]
      exact ⟨fun _ _ => Or.inl, Or.inl⟩
  | enablePanicClose | disablePanicClose | enableSoftClose | disableSoftClose | resume | pause
  | avicennaToggle => exact ⟨fun _ _ => Or.inl, Or.inl⟩

/-- In every run of a new instance the thread only stops in a pass in which a
panic or soft close is done, and a close of that type has been held since a
pass that a close mode took over. -/
theorem stops_with_close_case {config : Config} {uninitialized : Uninitialized}
    {writer : RedisWriter} {inst : TradeInstance}
    (constructs : TradeInstance.construct config uninitialized writer = some inst)
    (labels : List Label) (label : Label) :
    let start : Context := { inst, replies := [], log := [] }
    let context := run Context.step start labels
    let last := context.step label
    context.inst.isNotDone = false → last.inst.isNotDone = true →
      (∃ quote replies, label = .pass quote replies) ∧
        ∃ case ∈ last.inst.tradeCase, case.type.Closes ∧ case.state = .done ∧
          ∃ before since after, labels ++ [label] = before ++ since :: after ∧
            ClosePass (run Context.step start before) since ∧
            EveryState Context.step (fun context => context.modes.held = some case.type)
              (run Context.step start (before ++ [since])) after := by
  intro start context last running stopped
  have notStopped : ¬ context.modes.isNotDone = true := by
    change ¬ context.inst.isNotDone = true
    rw [running]
    exact Bool.false_ne_true
  obtain ⟨isPass, case, held, closes, done⟩ :=
    ((step_modes context label).2 stopped).resolve_left notStopped
  refine ⟨isPass, case, held, closes, done, ?_⟩
  have empty : ¬ start.modes.held = some case.type := by
    obtain ⟨restored, _, rfl⟩ := Option.map_eq_some_iff.mp constructs
    exact nofun
  have holds : (run Context.step start (labels ++ [label])).modes.held = some case.type := by
    rw [run_append]
    exact Option.map_eq_some_iff.mpr ⟨case, held, rfl⟩
  exact exists_since (P := fun context => context.modes.held = some case.type)
    (fun context label => (step_modes context label).1 case.type closes) empty holds

/-- A panic close of ten lots, filled and done after the mode was left. -/
def leftPanicClose : List Label :=
  [.pass (.around 10) [], .pass (.around 9) [], .enablePanicClose,
    .pass (.around 9) [{ callbacks := [], id := 1, cancelled := [] }], .disablePanicClose,
    .callback (.fill { side := .long, isOpen := false, orderId := 1, price := 9, size := 10 }),
    .callback (.counters .long 0 (-10) 10)]

theorem stops_with_close_case_left :
    ∃ inst, TradeInstance.construct .roundLots .zero tenLongLots = some inst ∧
      let start : Context := { inst, replies := [], log := [] }
      ∃ case ∈ (run Context.step start (leftPanicClose ++ [.pass (.around 9) []])).inst.tradeCase,
        case.type.Closes ∧ case.state = .done := by
  have stops : (TradeInstance.construct .roundLots .zero tenLongLots).map (fun inst =>
      let start : Context := { inst, replies := [], log := [] }
      ((run Context.step start leftPanicClose).inst.isNotDone,
        (run Context.step start (leftPanicClose ++ [.pass (.around 9) []])).inst.isNotDone)) =
      some (false, true) := by
    decide +kernel
  obtain ⟨inst, constructs, flags⟩ := Option.map_eq_some_iff.mp stops
  obtain ⟨running, stopped⟩ := Prod.mk.inj flags
  rw [run_append] at stopped
  obtain ⟨_, case, held, closes, done, _⟩ :=
    stops_with_close_case constructs leftPanicClose (.pass (.around 9) []) running stopped
  refine ⟨inst, constructs, case, ?_, closes, done⟩
  rw [run_append]
  exact held

/-- The pass that finds it done is not taken over by a close mode. -/
theorem not_stopsInCloseMode_left :
    ∃ inst, TradeInstance.construct .roundLots .zero tenLongLots = some inst ∧
      ¬ EveryStep Context.step StopsInCloseMode { inst, replies := [], log := [] }
        (leftPanicClose ++ [.pass (.around 9) []]) := by
  have stops : (TradeInstance.construct .roundLots .zero tenLongLots).map (fun inst =>
      decide (EveryStep Context.step StopsInCloseMode { inst, replies := [], log := [] }
        (leftPanicClose ++ [.pass (.around 9) []]))) = some false := by
    decide +kernel
  obtain ⟨inst, constructs, fails⟩ := Option.map_eq_some_iff.mp stops
  exact ⟨inst, constructs, of_decide_eq_false fails⟩

end TradingApp.Instance
