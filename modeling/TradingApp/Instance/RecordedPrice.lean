import TradingApp.Instance.Tracked

/-!
# The recorded price of a case's order

A case is run any number of times, with anything happening to the instance in
between.  A soft close and case 4 record the new price of a change even when
the gateway refuses it; the other cases, and these two while no change of
theirs is refused, record the price the gateway last accepted.
-/

namespace TradingApp.Instance

open TradingApp.Account TradingApp.Machine TradingApp.Redis TradingApp.Transition

/-! ## Runs of a case -/

/-- The recorded price of the held case is the price the gateway last accepted
for the order it tracks. -/
def RecordsPrice (context : Context) : Prop :=
  ∀ case ∈ context.inst.tradeCase, case.tracked.id ≠ 0 →
    ∃ side ∈ case.tracked.account,
      lastAccepted context.log side case.tracked.id = some case.tracked.price

instance (context : Context) : Decidable (RecordsPrice context) :=
  inferInstanceAs (Decidable (∀ _ ∈ _, _ → ∃ _ ∈ _, _))

/-- What can happen to a held case. -/
inductive CaseLabel where
  | run (replies : List Reply)
  /-- anything about the instance but its case -/
  | surroundings (inst : TradeInstance)
  | callback (callback : Callback)

/-- The held case is run, anything else of the instance changes, or it is called
back. -/
def Context.caseStep (context : Context) : CaseLabel → Context
  | .run replies =>
      match context.inst.tradeCase with
      | none => context
      | some case => context.exec replies case.run
  | .surroundings inst =>
      { context with inst := { inst with tradeCase := context.inst.tradeCase } }
  | .callback callback => context.onCallback callback

/-- The gateway's next reply refuses to change an order. -/
def Context.Refuses (context : Context) (account : Option OrderAccountType) (id : ℕ) : Prop :=
  account ≠ none ∧ id ≠ 0 ∧ context.takeReply.1.id = id

instance (context : Context) (account : Option OrderAccountType) (id : ℕ) :
    Decidable (context.Refuses account id) :=
  inferInstanceAs (Decidable (_ ∧ _ ∧ _))

/-- The change a soft close asks for is refused. -/
def SoftClose.RepriceRefused (case : TradeCase) (context : Context) : Prop :=
  let newPrice := context.inst.closePrice case.closeSize 0
  context.inst.position case.oppositeAcc ≠ context.inst.position case.currentAcc ∧
    ¬ (case.sendPrice = newPrice ∨ context.inst.oppositePnl case.oppositeAcc newPrice < 0) ∧
    context.Refuses case.oppositeAcc case.mainOrderId

instance (case : TradeCase) (context : Context) :
    Decidable (SoftClose.RepriceRefused case context) :=
  inferInstanceAs (Decidable (_ ∧ _ ∧ _))

/-- The change of its first order that case 4 asks for is refused. -/
def TradeCase4.RepriceRefused (case : TradeCase) (context : Context) : Prop :=
  let later := ((repriceRequote case).run context).2
  case.firstOrderPrice ≠ later.inst.openPrice case.firstOrderSize 0 ∧
    later.Refuses case.currentAcc case.firstOrder

instance (case : TradeCase) (context : Context) :
    Decidable (TradeCase4.RepriceRefused case context) :=
  inferInstanceAs (Decidable (_ ∧ _))

/-- A soft close or case 4 asks for a change of its order that is refused. -/
def TradeCase.RepriceRefused (case : TradeCase) (context : Context) : Prop :=
  case.type = .softClose ∧ SoftClose.RepriceRefused case context ∨
    case.type = .case4 ∧ TradeCase4.RepriceRefused case context

instance (case : TradeCase) (context : Context) : Decidable (case.RepriceRefused context) :=
  inferInstanceAs (Decidable (_ ∨ _))

/-- The held case is run and is refused a change. -/
def RunRefused (context : Context) : CaseLabel → Prop
  | .run replies =>
      ∃ case ∈ context.inst.tradeCase, case.state = .priceChange ∧
        case.RepriceRefused { context with replies }
  | .surroundings _ | .callback _ => False

instance (context : Context) : (label : CaseLabel) → Decidable (RunRefused context label)
  | .run _ => inferInstanceAs (Decidable (∃ _ ∈ _, _ ∧ _))
  | .surroundings _ | .callback _ => inferInstanceAs (Decidable False)

/-! ## The invariant -/

/-- The order a case tracks was accepted at its recorded price. -/
def TradeCase.Recorded (case : TradeCase) (log : List Event) : Prop :=
  Accepts case.tracked.account case.tracked.id case.tracked.price log

/-- The held case's order was accepted at its recorded price, and before its
first run it has none. -/
def Sound (context : Context) : Prop :=
  ∀ case ∈ context.inst.tradeCase,
    (case.state = .init → case.tracked.id = 0) ∧ case.Recorded context.log

theorem lasting_recorded (case : TradeCase) : Lasting case.Recorded :=
  lasting_accepts _ _ _

theorem recorded_of_idle {case : TradeCase} (idle : case.tracked.id = 0) (log : List Event) :
    case.Recorded log :=
  fun nonzero => absurd idle nonzero

section Sound

variable {case : TradeCase} {K : List Event → Prop} {context : Context}

/-- Only the case's own fields matter. -/
theorem Holds.sound (holds : Holds case K context)
    (starts : case.state = .init → case.tracked.id = 0)
    (recorded : K context.log → case.Recorded context.log) : Sound context := by
  intro held isHeld
  have same : held.withoutRequotes = case.withoutRequotes := by
    have kept := holds.1
    rw [isHeld] at kept
    exact Option.some.inj kept
  have state := congrArg TradeCase.state same
  have tracked := congrArg TradeCase.tracked same
  change held.state = case.state at state
  change held.tracked = case.tracked at tracked
  unfold TradeCase.Recorded
  rw [state, tracked]
  exact ⟨starts, recorded holds.2⟩

theorem Holds.sound_of_idle (holds : Holds case K context) (idle : case.tracked.id = 0) :
    Sound context :=
  holds.sound (fun _ => idle) fun _ => recorded_of_idle idle _

theorem Sound.holds (sound : Sound context) (held : context.inst.tradeCase = some case) :
    Holds case case.Recorded context :=
  ⟨congrArg (Option.map TradeCase.withoutRequotes) held, (sound case held).2⟩

end Sound

/-! ## What the first run records -/

theorem setTrigger_calls : Keeps Calls setTrigger :=
  keeps_modify fun context => ⟨rfl, List.suffix_refl context.log⟩

theorem crash_calls : Keeps Calls crash :=
  keeps_modify fun context => ⟨rfl, List.suffix_refl context.log⟩

section Init

variable {case : TradeCase}

theorem panicClose_init_sound (type : case.type = .panicClose) (idle : case.mainOrderId = 0) :
    Leads (Holds case fun _ => True) (PanicClose.init case) fun _ => Sound := by
  refine (holds_calls lasting_true keeps_getInst).bind fun inst => .ite (fun _ => ?_) fun _ => ?_
  · refine (holds_setState _).post fun _ context holds => holds.sound_of_idle ?_
    simp only [TradeCase.tracked, type, idle]
  · refine (holds_calls lasting_true setTrigger_calls).bind fun _ => ?_
    refine .bind (holds_modifyCase fun _ => rfl) fun _ => ?_
    refine (holds_closeOrder lasting_true _ _ _).bind fun id => ?_
    refine .bind (holds_modifyCase fun _ => rfl) fun _ => ?_
    refine (holds_setState _).post fun _ context holds => holds.sound ?_ fun accepts => ?_
    · split <;> exact nofun
    · simpa only [TradeCase.Recorded, TradeCase.tracked, type] using accepts.2

/-- Only the id and the price of the order matter, so it does not matter
whether the state was set to done first. -/
theorem softClose_init_sound (type : case.type = .softClose) (idle : case.mainOrderId = 0) :
    Leads (Holds case fun _ => True) (SoftClose.init case) fun _ => Sound := by
  have stateSet : ∀ C [Decidable C], Leads (Holds case fun _ => True) (whenever C (setState .done))
      fun _ context => ∃ state, Holds { case with state } (fun _ => True) context := fun C _ =>
    .whenever (fun _ => (holds_setState _).post fun _ _ holds => ⟨_, holds⟩)
      fun _ _ holds => ⟨case.state, holds⟩
  refine (holds_calls lasting_true keeps_getInst).bind fun inst => (stateSet _).bind fun _ => ?_
  refine .of_exists fun state => (holds_calls lasting_true setTrigger_calls).bind fun _ => ?_
  refine .ite (fun _ => ?_) fun _ => ?_
  · refine (holds_calls lasting_true crash_calls).post fun _ context holds => holds.sound_of_idle ?_
    simp only [TradeCase.tracked, type, idle]
  · refine .bind (holds_modifyCase fun _ => rfl) fun _ => ?_
    refine (holds_calls lasting_true keeps_getInst).bind fun inst => ?_
    refine .bind (holds_modifyCase fun _ => rfl) fun _ => .ite (fun _ => ?_) fun _ => ?_
    · refine leads_pure fun context holds => holds.sound_of_idle ?_
      simp only [TradeCase.tracked, type, idle]
    · refine (holds_closeOrder lasting_true _ _ _).bind fun id => ?_
      refine .bind (holds_modifyCase fun _ => rfl) fun _ => ?_
      refine (holds_setState _).post fun _ context holds => holds.sound nofun fun accepts => ?_
      simpa only [TradeCase.Recorded, TradeCase.tracked, type] using accepts.2

theorem case4_init_sound (type : case.type = .case4) (idle : case.firstOrder = 0) :
    Leads (Holds case fun _ => True) (TradeCase4.init case) fun _ => Sound := by
  refine (holds_calls lasting_true keeps_getInst).bind fun inst => ?_
  dsimp only
  split
  · refine (holds_setState _).post fun _ context holds => holds.sound_of_idle ?_
    simp only [TradeCase.tracked, type, idle]
  · refine .bind (holds_modifyCase fun _ => rfl) fun _ => ?_
    refine (holds_openOrder lasting_true _ _ _).bind fun id => ?_
    refine .bind (holds_modifyCase fun _ => rfl) fun _ => ?_
    have lasting := lasting_accepts case.currentAcc id
    refine (holds_calls ?_ (calls_frame.openRounds _ _ _ _)).bind fun _ => ?_
    · exact fun log later grows accepts => ⟨trivial, lasting _ _ _ grows accepts.2⟩
    · refine (holds_setState _).post fun _ context holds => holds.sound nofun fun accepts => ?_
      simpa only [TradeCase.Recorded, TradeCase.tracked, type] using accepts.2

theorem hedgeCurrent_init_sound (type : case.type = .hedgeCurrent) (idle : case.mainOrderId = 0) :
    Leads (Holds case fun _ => True) (HedgeCurrent.init case) fun _ => Sound := by
  refine (holds_calls lasting_true keeps_getInst).bind fun inst => ?_
  refine .bind (holds_modifyCase fun _ => rfl) fun _ => .ite (fun _ => ?_) fun _ => ?_
  · refine (holds_openOrder lasting_true _ _ _).bind fun id => ?_
    refine .bind (holds_modifyCase fun _ => rfl) fun _ => ?_
    refine (holds_setState _).post fun _ context holds => holds.sound nofun fun accepts => ?_
    simpa only [TradeCase.Recorded, TradeCase.tracked, type] using accepts.2
  · refine (holds_setState _).post fun _ context holds => holds.sound_of_idle ?_
    simp only [TradeCase.tracked, type, idle]

theorem case9_init_sound (type : case.type = .case9) (idle : case.mainOrderId = 0) :
    Leads (Holds case fun _ => True) (TradeCase9.init case) fun _ => Sound := by
  have fails {case : TradeCase} (type : case.type = .case9) (idle : case.mainOrderId = 0) :
      Leads (Holds case fun _ => True) (setState .failed) fun _ => Sound := by
    refine (holds_setState _).post fun _ context holds => holds.sound_of_idle ?_
    simp only [TradeCase.tracked, type, idle]
  refine (holds_calls lasting_true keeps_getInst).bind fun inst => ?_
  refine .bind (holds_modifyCase fun _ => rfl) fun _ => .ite (fun _ => fails type idle) fun _ => ?_
  refine .bind (holds_modifyCase fun _ => rfl) fun _ => .ite (fun _ => fails type idle) fun _ => ?_
  refine (holds_closeOrder lasting_true _ _ _).bind fun id => ?_
  refine .bind (holds_modifyCase fun _ => rfl) fun _ => ?_
  refine (holds_setState _).post fun _ context holds => holds.sound ?_ fun accepts => ?_
  · split <;> exact nofun
  · simpa only [TradeCase.Recorded, TradeCase.tracked, type] using accepts.2

theorem case10_init_sound (type : case.type = .case10) :
    Leads (Holds case fun _ => True) (TradeCase10.init case) fun _ => Sound := by
  refine (holds_calls lasting_true keeps_getInst).bind fun inst => ?_
  refine .bind (holds_modifyCase fun _ => rfl) fun _ => ?_
  refine (holds_closeOrder lasting_true _ _ _).bind fun id => ?_
  refine .bind (holds_modifyCase fun _ => rfl) fun _ => ?_
  refine (holds_setState _).post fun _ context holds => holds.sound ?_ fun accepts => ?_
  · split <;> exact nofun
  · simpa only [TradeCase.Recorded, TradeCase.tracked, type] using accepts.2

end Init

/-! ## What later runs record -/

section Later

variable {case : TradeCase}

theorem Holds.sound_of_started {context : Context} (holds : Holds case case.Recorded context)
    (started : case.state ≠ .init) : Sound context :=
  holds.sound (fun starts => absurd starts started) id

theorem setState_sound {state : CaseState} (started : state ≠ .init) :
    Leads (Holds case case.Recorded) (setState state) fun _ => Sound := by
  refine (holds_setState state).post fun _ context holds => ?_
  let later : TradeCase := { case with state }
  have holds : Holds later later.Recorded context := holds
  exact holds.sound_of_started started

/-- A new price is recorded if the gateway accepted it. -/
theorem changeOrder_sound (started : case.state ≠ .init) (account : Option OrderAccountType)
    (requestId : ℕ) (newPrice : ℚ) (newSize : ℕ) {store : ℕ → TradeCase → TradeCase}
    (commutes : ∀ id case, (store id case).withoutRequotes = store id case.withoutRequotes)
    (state : ∀ id, (store id case).state = case.state)
    (tracked : ∀ id, (store id case).tracked = { account, id, price := newPrice }) :
    Leads (Holds case case.Recorded)
      (changeOrder account requestId newPrice newSize >>= fun id =>
        if id = 0 ∨ id = requestId then setState .wait else modifyCase (store id))
      fun _ => Sound := by
  refine (holds_changeOrder (lasting_recorded case) _ _ _ _).bind fun id => .ite (fun _ => ?_) ?_
  · have waits : Leads (Holds case case.Recorded) (setState .wait) fun _ => Sound :=
      setState_sound nofun
    exact waits.weaken (fun _ holds => ⟨holds.1, holds.2.1⟩) fun _ _ sound => sound
  · intro accepted
    refine (holds_modifyCase (commutes id)).post fun _ context holds => holds.sound ?_ ?_
    · rw [state]
      exact fun starts => absurd starts started
    · rintro ⟨_, zero | same | accepts⟩
      · exact absurd (Or.inl zero) accepted
      · exact absurd (Or.inr same) accepted
      · unfold TradeCase.Recorded
        rw [tracked]
        exact accepts

theorem whenever_done_sound (started : case.state ≠ .init) (C : Prop) [Decidable C] :
    Leads (Holds case case.Recorded) (whenever C (setState .done)) fun _ => Sound :=
  .whenever (fun _ => setState_sound nofun) fun _ _ holds => holds.sound_of_started started

theorem waitEqual_sound (started : case.state ≠ .init) :
    Leads (Holds case case.Recorded) (waitEqual case) fun _ => Sound :=
  (holds_calls (lasting_recorded case) keeps_getInst).bind fun _ => whenever_done_sound started _

theorem panicClose_reprice_sound (type : case.type = .panicClose) (started : case.state ≠ .init) :
    Leads (Holds case case.Recorded) (PanicClose.reprice case) fun _ => Sound := by
  refine (holds_calls (lasting_recorded case) keeps_getInst).bind fun inst => ?_
  refine .ite (fun _ => setState_sound nofun) fun _ => .ite (fun _ => ?_) fun _ => ?_
  · exact leads_pure fun _ holds => holds.sound_of_started started
  · refine changeOrder_sound started _ _ _ _ (fun _ _ => rfl) (fun _ => rfl) fun id => ?_
    simp only [TradeCase.tracked, type]

theorem hedgeCurrent_reprice_sound (type : case.type = .hedgeCurrent)
    (started : case.state ≠ .init) :
    Leads (Holds case case.Recorded) (HedgeCurrent.reprice case) fun _ => Sound := by
  -- an equal position sets the state to done and goes on
  have waits : Leads (Holds case case.Recorded) (waitEqual case) fun _ context =>
      ∃ state, ∃ _ : state ≠ .init, Holds { case with state } case.Recorded context := by
    refine (holds_calls (lasting_recorded case) keeps_getInst).bind fun _ => ?_
    refine .whenever (fun _ => (holds_setState .done).post fun _ _ holds => ?_) fun _ _ holds => ?_
    · exact ⟨.done, nofun, holds⟩
    · exact ⟨case.state, started, holds⟩
  refine waits.bind fun _ => .of_exists fun state => .of_exists fun started => ?_
  let later : TradeCase := { case with state }
  have type : later.type = .hedgeCurrent := type
  change Leads (Holds later later.Recorded) _ _
  refine (holds_calls (lasting_recorded later) keeps_getInst).bind fun inst => ?_
  refine .ite (fun _ => ?_) fun _ => ?_
  · exact leads_pure fun _ holds => holds.sound_of_started started
  · refine changeOrder_sound started _ _ _ _ (fun _ _ => rfl) (fun _ => rfl) fun id => ?_
    simp only [TradeCase.tracked, type]
    rfl

theorem case9_reprice_sound (type : case.type = .case9) (started : case.state ≠ .init) :
    Leads (Holds case case.Recorded) (TradeCase9.reprice case) fun _ => Sound := by
  have stays : Leads (Holds case case.Recorded) (pure ()) fun _ => Sound :=
    leads_pure fun _ holds => holds.sound_of_started started
  refine (holds_calls (lasting_recorded case) keeps_getInst).bind fun inst => ?_
  refine .ite (fun _ => setState_sound nofun) fun _ => .ite (fun _ => stays) fun _ => ?_
  refine .ite (fun _ => stays) fun _ => ?_
  refine changeOrder_sound started _ _ _ _ (fun _ _ => rfl) (fun _ => rfl) fun id => ?_
  simp only [TradeCase.tracked, type]

theorem case10_reprice_sound (type : case.type = .case10) (started : case.state ≠ .init) :
    Leads (Holds case case.Recorded) (TradeCase10.reprice case) fun _ => Sound := by
  refine (holds_calls (lasting_recorded case) keeps_getInst).bind fun inst => ?_
  refine .bind (holds_modifyCase fun _ => rfl) fun _ => ?_
  let later : TradeCase := { case with error := inst.estimationError }
  have type : later.type = .case10 := type
  change Leads (Holds later later.Recorded) _ _
  refine .ite (fun _ => ?_) fun _ => ?_
  · exact leads_pure fun _ holds => holds.sound_of_started started
  · let newPrice := TradeCase10.closeAt inst case.accountToClose
    have changes : Leads (Holds later later.Recorded)
        (changeOrder case.accountToClose case.mainOrderId newPrice 0 >>= fun id =>
          if id = 0 ∨ id = case.mainOrderId then setState .wait
          else modifyCase fun case => { case with sendPrice := newPrice, mainOrderId := id })
        fun _ => Sound := by
      have started : later.state ≠ .init := started
      apply changeOrder_sound started
      · exact fun _ _ => rfl
      · exact fun _ => rfl
      · intro id
        simp only [TradeCase.tracked, type]
        rfl
    simpa only [or_comm] using changes

theorem case10_wait_sound (type : case.type = .case10) (started : case.state ≠ .init) :
    Leads (Holds case case.Recorded) (TradeCase10.wait case) fun _ => Sound := by
  refine (holds_calls (lasting_recorded case) keeps_getInst).bind fun inst => ?_
  refine .ite (fun _ => setState_sound nofun) fun _ => .whenever (fun _ => ?_) fun _ _ holds => ?_
  · exact (case10_init_sound type).weaken (fun _ holds => ⟨holds.1, trivial⟩) fun _ _ => id
  · exact holds.sound_of_started started

end Later

/-! ## Recording a refused price -/

/-- Accepted at its recorded price, a case's order has that price. -/
theorem Sound.recordsPrice {context : Context} (sound : Sound context)
    (fresh : FreshIds context.log) : RecordsPrice context := by
  intro case held nonzero
  obtain ⟨side, pointed, member⟩ := (sound case held).2 nonzero
  exact ⟨side, pointed, (lastAccepted_eq_some_iff fresh).mpr member⟩

theorem refuses_iff (context : Context) (account : Option OrderAccountType) (id : ℕ)
    (newPrice : ℚ) :
    context.Refuses account id ↔
      ((changeOrder account id newPrice 0).run context).1 = id ∧ id ≠ 0 := by
  cases account with
  | none => exact ⟨fun refuses => absurd rfl refuses.1, fun same => absurd same.1.symm same.2⟩
  | some side =>
      have answer : ((changeOrder (some side) id newPrice 0).run context).1 =
          context.takeReply.1.id := by
        unfold changeOrder
        simp only [run_getInst_bind, Nat.zero_div]
        rw [run_bind]
        split <;> rfl
      rw [answer]
      exact ⟨fun refuses => ⟨refuses.2.2, refuses.2.1⟩, fun same => ⟨nofun, same.2, same.1⟩⟩

section Stored

variable {case : TradeCase} {context : Context}

/-- A case that records whatever comes back from a change to another price is
right unless its order was refused the change. -/
theorem stored_answer (holds : Holds case case.Recorded context) {newPrice : ℚ}
    (differs : case.tracked.price ≠ newPrice) {store : ℕ → CaseM Unit} {later : ℕ → TradeCase}
    (stores : ∀ id K, Leads (Holds case K) (store id) fun _ => Holds (later id) K)
    (started : ∀ id, (later id).state ≠ .init)
    (tracked : ∀ id, (later id).tracked =
      { account := case.tracked.account, id, price := newPrice }) :
    let last := ((changeOrder case.tracked.account case.tracked.id newPrice 0 >>= store).run
      context).2
    (¬ context.Refuses case.tracked.account case.tracked.id → Sound last) ∧
      (context.Refuses case.tracked.account case.tracked.id → FreshIds last.log →
        ¬ RecordsPrice last) := by
  intro last
  let changed := (changeOrder case.tracked.account case.tracked.id newPrice 0).run context
  have answered := holds_changeOrder (lasting_recorded case) case.tracked.account case.tracked.id
    newPrice 0 context holds
  have stored : Holds (later changed.1) _ last := stores changed.1 _ changed.2 answered
  have refuses := refuses_iff context case.tracked.account case.tracked.id newPrice
  constructor
  · intro accepted
    refine stored.sound (fun starts => absurd starts (started _)) fun answer => ?_
    unfold TradeCase.Recorded
    rw [tracked]
    intro nonzero
    rcases answer.2 with zero | same | accepts
    · exact absurd zero nonzero
    · exact absurd (refuses.mpr ⟨same, same ▸ nonzero⟩) accepted
    · exact accepts nonzero
  · intro refused fresh records
    obtain ⟨same, nonzero⟩ := refuses.mp refused
    obtain ⟨side, pointed, member⟩ := stored.2.1 nonzero
    obtain ⟨held, isHeld, kept⟩ := Option.map_eq_some_iff.mp stored.1
    have order : held.tracked = (later changed.1).tracked := by
      have kept := congrArg TradeCase.tracked kept
      exact kept
    rw [tracked, show changed.1 = case.tracked.id from same] at order
    have recorded := records held isHeld
    rw [order] at recorded
    obtain ⟨side', pointed', last⟩ := recorded nonzero
    obtain rfl : side = side' := Option.mem_unique pointed pointed'
    rw [(lastAccepted_eq_some_iff fresh).mpr member] at last
    exact differs (Option.some.inj last)

theorem softClose_reprice_stored (type : case.type = .softClose) (started : case.state ≠ .init)
    (holds : Holds case case.Recorded context) :
    let last := ((SoftClose.reprice case).run context).2
    (¬ SoftClose.RepriceRefused case context → Sound last) ∧
      (SoftClose.RepriceRefused case context → FreshIds last.log → ¬ RecordsPrice last) := by
  unfold SoftClose.reprice SoftClose.RepriceRefused
  rw [run_getInst_bind]
  by_cases equal :
      context.inst.position case.oppositeAcc = context.inst.position case.currentAcc
  · rw [if_pos equal]
    have finishes : Leads (Holds case case.Recorded) (setState .done) fun _ => Sound :=
      setState_sound nofun
    refine ⟨fun _ => finishes context holds, ?_⟩
    exact fun refused => absurd equal refused.1
  · rw [if_neg equal]
    dsimp only
    split
    · rename_i stays
      exact ⟨fun _ => holds.sound_of_started started, fun refused => absurd stays refused.2.1⟩
    · rename_i asks
      let newPrice := context.inst.closePrice case.closeSize 0
      let store (id : ℕ) : CaseM Unit := do
        whenever (id = 0 ∨ id = case.mainOrderId) (setState .wait)
        modifyCase fun case => { case with mainOrderId := id, sendPrice := newPrice }
      let state (id : ℕ) : CaseState :=
        if id = 0 ∨ id = case.mainOrderId then .wait else case.state
      have stores (id : ℕ) (K : List Event → Prop) : Leads (Holds case K) (store id) fun _ =>
          Holds { case with state := state id, mainOrderId := id, sendPrice := newPrice } K := by
        refine .bind (Q := fun _ => Holds { case with state := state id } K) ?_ fun _ =>
          holds_modifyCase fun _ => rfl
        refine .whenever (fun C => ?_) fun C _ holds => ?_
        · rw [show state id = .wait from if_pos C]
          exact holds_setState .wait
        · rw [show state id = case.state from if_neg C]
          exact holds
      have order : case.tracked =
          { account := case.oppositeAcc, id := case.mainOrderId, price := case.sendPrice } := by
        simp only [TradeCase.tracked, type]
      have differs : case.tracked.price ≠ newPrice := by
        rw [order]
        exact fun same => asks (Or.inl same)
      have begun (id : ℕ) : state id ≠ .init := by
        unfold state
        split
        · exact nofun
        · exact started
      obtain ⟨right, wrong⟩ := stored_answer holds differs stores begun fun id => by
        simp only [TradeCase.tracked, type]
      rw [order] at right wrong
      exact ⟨fun accepted => right fun refuses => accepted ⟨equal, asks, refuses⟩,
        fun refused => wrong refused.2.2⟩

theorem case4_reprice_stored (type : case.type = .case4) (started : case.state ≠ .init)
    (holds : Holds case case.Recorded context) :
    let last := ((TradeCase4.reprice case).run context).2
    (¬ TradeCase4.RepriceRefused case context → Sound last) ∧
      (TradeCase4.RepriceRefused case context → FreshIds last.log → ¬ RecordsPrice last) := by
  have requoted := holds_calls (lasting_recorded case) (calls_frame.repriceRequote case) context
    holds
  unfold TradeCase4.reprice TradeCase4.RepriceRefused
  rw [run_bind]
  generalize ((repriceRequote case).run context).2 = later at requoted ⊢
  by_cases done : case.firstOrder = 0
  · rw [if_pos done]
    exact ⟨fun _ => requoted.sound_of_started started, fun refused => absurd done refused.2.2.1⟩
  · rw [if_neg done, run_getInst_bind]
    by_cases same : case.firstOrderPrice = later.inst.openPrice case.firstOrderSize 0
    · rw [if_pos same]
      exact ⟨fun _ => requoted.sound_of_started started, fun refused => absurd same refused.1⟩
    · rw [if_neg same]
      let newPrice := later.inst.openPrice case.firstOrderSize 0
      have order : case.tracked =
          { account := case.currentAcc, id := case.firstOrder, price := case.firstOrderPrice } := by
        simp only [TradeCase.tracked, type]
      have differs : case.tracked.price ≠ newPrice := by
        rw [order]
        exact same
      have stores (id : ℕ) (K : List Event → Prop) : Leads (Holds case K)
          (modifyCase fun case => { case with firstOrder := id, firstOrderPrice := newPrice })
          fun _ => Holds { case with firstOrder := id, firstOrderPrice := newPrice } K :=
        holds_modifyCase fun _ => rfl
      obtain ⟨right, wrong⟩ := stored_answer requoted differs stores
        (fun _ => started) fun id => by simp only [TradeCase.tracked, type]
      rw [order] at right wrong
      exact ⟨fun accepted => right fun refuses => accepted ⟨same, refuses⟩,
        fun refused => wrong refused.2⟩

end Stored

/-! ## A run of the held case -/

section Run

variable {case : TradeCase} {context : Context}

theorem init_sound (idle : case.tracked.id = 0) :
    Leads (Holds case fun _ => True) case.init fun _ => Sound := by
  unfold TradeCase.init
  unfold TradeCase.tracked at idle
  cases type : case.type with
  | none =>
      refine leads_pure fun context holds => holds.sound_of_idle ?_
      simp only [TradeCase.tracked, type]
  | case4 => exact case4_init_sound type (by simpa only [type] using idle)
  | hedgeCurrent => exact hedgeCurrent_init_sound type (by simpa only [type] using idle)
  | case9 => exact case9_init_sound type (by simpa only [type] using idle)
  | case10 => exact case10_init_sound type
  | panicClose => exact panicClose_init_sound type (by simpa only [type] using idle)
  | softClose => exact softClose_init_sound type (by simpa only [type] using idle)

theorem wait_sound (started : case.state ≠ .init) :
    Leads (Holds case case.Recorded) case.wait fun _ => Sound := by
  unfold TradeCase.wait
  cases type : case.type with
  | none => exact leads_pure fun context holds => holds.sound_of_started started
  | case4 =>
      refine (holds_calls (lasting_recorded case) keeps_getInst).bind fun _ => ?_
      exact whenever_done_sound started _
  | hedgeCurrent | panicClose | softClose => exact waitEqual_sound started
  | case9 =>
      refine (holds_calls (lasting_recorded case) keeps_getInst).bind fun _ => ?_
      exact whenever_done_sound started _
  | case10 => exact case10_wait_sound type started

theorem reprice_stored (started : case.state ≠ .init) (holds : Holds case case.Recorded context) :
    let last := (case.reprice.run context).2
    (¬ case.RepriceRefused context → Sound last) ∧
      (case.RepriceRefused context → FreshIds last.log → ¬ RecordsPrice last) := by
  have accepts (notSoft : case.type ≠ .softClose) (not4 : case.type ≠ .case4)
      {m : CaseM Unit} (leads : Leads (Holds case case.Recorded) m fun _ => Sound) :
      (¬ case.RepriceRefused context → Sound (m.run context).2) ∧
        (case.RepriceRefused context → FreshIds (m.run context).2.log →
          ¬ RecordsPrice (m.run context).2) := by
    refine ⟨fun _ => leads context holds, ?_⟩
    rintro (⟨soft, _⟩ | ⟨is4, _⟩)
    · exact absurd soft notSoft
    · exact absurd is4 not4
  unfold TradeCase.reprice
  cases type : case.type with
  | none =>
      refine accepts (by rw [type]; exact nofun) (by rw [type]; exact nofun) ?_
      exact leads_pure fun context holds => holds.sound_of_started started
  | case4 =>
      obtain ⟨right, wrong⟩ := case4_reprice_stored type started holds
      refine ⟨fun accepted => right fun refused => accepted (Or.inr ⟨type, refused⟩), ?_⟩
      rintro (⟨soft, _⟩ | ⟨_, refused⟩)
      · rw [type] at soft
        exact absurd soft nofun
      · exact wrong refused
  | hedgeCurrent =>
      exact accepts (by rw [type]; exact nofun) (by rw [type]; exact nofun)
        (hedgeCurrent_reprice_sound type started)
  | case9 =>
      exact accepts (by rw [type]; exact nofun) (by rw [type]; exact nofun)
        (case9_reprice_sound type started)
  | case10 =>
      exact accepts (by rw [type]; exact nofun) (by rw [type]; exact nofun)
        (case10_reprice_sound type started)
  | panicClose =>
      exact accepts (by rw [type]; exact nofun) (by rw [type]; exact nofun)
        (panicClose_reprice_sound type started)
  | softClose =>
      obtain ⟨right, wrong⟩ := softClose_reprice_stored type started holds
      refine ⟨fun accepted => right fun refused => accepted (Or.inl ⟨type, refused⟩), ?_⟩
      rintro (⟨_, refused⟩ | ⟨is4, _⟩)
      · exact wrong refused
      · rw [type] at is4
        exact absurd is4 nofun

/-- A run keeps the invariant unless a soft close or case 4 is refused a
change, and then the recorded price is wrong. -/
theorem run_stored (sound : Sound context) (held : context.inst.tradeCase = some case) :
    let last := (case.run.run context).2
    let refused := case.state = .priceChange ∧ case.RepriceRefused context
    (¬ refused → Sound last) ∧ (refused → FreshIds last.log → ¬ RecordsPrice last) := by
  have holds := sound.holds held
  unfold TradeCase.run
  cases state : case.state with
  | init =>
      have idle := (sound case held).1 state
      exact ⟨fun _ => init_sound idle context ⟨holds.1, trivial⟩, fun refused => nomatch refused.1⟩
  | priceChange =>
      have started : case.state ≠ .init := by
        rw [state]
        exact nofun
      obtain ⟨right, wrong⟩ := reprice_stored started holds
      exact ⟨fun accepted => right fun refused => accepted ⟨rfl, refused⟩,
        fun refused => wrong refused.2⟩
  | wait =>
      have started : case.state ≠ .init := by
        rw [state]
        exact nofun
      exact ⟨fun _ => wait_sound started context holds, fun refused => nomatch refused.1⟩
  | done | failed | notSelected =>
      exact ⟨fun _ => sound, fun refused => nomatch refused.1⟩

end Run

/-! ## Every run of a case -/

/-- The log only grows. -/
def Grows (context later : Context) : Prop :=
  context.log <:+ later.log

instance : Std.Refl Grows :=
  ⟨fun context => List.suffix_refl context.log⟩

instance : IsTrans Context Grows :=
  ⟨fun _ _ _ first second => List.IsSuffix.trans first second⟩

theorem grows_frame : ClosingFrame Grows where
  nextReply := calls_frame.nextReply.weaken fun _ _ calls => calls.log
  record event := fun context => List.suffix_cons event context.log
  modifyCase _ _ := fun context => List.suffix_refl context.log
  modifyAccount _ _ _ := fun context => List.suffix_refl context.log
  setTrigger := fun context => List.suffix_refl context.log
  modifyRoles _ _ := fun context => List.suffix_refl context.log
  crash := fun context => List.suffix_refl context.log

theorem caseStep_run_none {context : Context} (held : context.inst.tradeCase = none)
    (replies : List Reply) : context.caseStep (.run replies) = context := by
  unfold Context.caseStep
  rw [held]

theorem caseStep_run_some {context : Context} {case : TradeCase}
    (held : context.inst.tradeCase = some case) (replies : List Reply) :
    context.caseStep (.run replies) = (case.run.run { context with replies }).2 := by
  unfold Context.caseStep
  rw [held]
  rfl

theorem caseStep_grows (context : Context) (label : CaseLabel) :
    Grows context (context.caseStep label) := by
  cases label with
  | run replies =>
      cases held : context.inst.tradeCase with
      | none =>
          rw [caseStep_run_none held]
          exact List.suffix_refl context.log
      | some case =>
          rw [caseStep_run_some held]
          exact grows_frame.run case { context with replies }
  | surroundings inst => exact List.suffix_refl context.log
  | callback callback => exact (onCallback_calls context callback).log

/-- The invariant is about the case and the log. -/
theorem Sound.of_calls {context later : Context} (sound : Sound context)
    (calls : Calls context later) : Sound later := by
  intro held isHeld
  have kept := calls.held
  rw [isHeld] at kept
  obtain ⟨case, isCase, same⟩ := Option.map_eq_some_iff.mp kept.symm
  have holds := (sound.holds isCase).of_calls (lasting_recorded case) calls
  exact holds.sound (sound case isCase).1 id held isHeld

/-- A step keeps the invariant unless the case's change is refused, and then
the recorded price is wrong. -/
theorem caseStep_stored {context : Context} (sound : Sound context) (label : CaseLabel) :
    (¬ RunRefused context label → Sound (context.caseStep label)) ∧
      (RunRefused context label → FreshIds (context.caseStep label).log →
        ¬ RecordsPrice (context.caseStep label)) := by
  cases label with
  | run replies =>
      cases held : context.inst.tradeCase with
      | none =>
          rw [caseStep_run_none held]
          refine ⟨fun _ => sound, ?_⟩
          rintro ⟨case, isCase, _⟩
          rw [held] at isCase
          exact nomatch isCase
      | some case =>
          rw [caseStep_run_some held]
          have same : Sound { context with replies } := sound
          obtain ⟨right, wrong⟩ := run_stored same held
          refine ⟨fun accepted => right fun refused => accepted ⟨case, held, refused⟩, ?_⟩
          rintro ⟨other, isOther, refused⟩
          obtain rfl : case = other := Option.mem_unique held isOther
          exact wrong refused
  | surroundings inst => exact ⟨fun _ => sound, nofun⟩
  | callback callback => exact ⟨fun _ => sound.of_calls (onCallback_calls context callback), nofun⟩

/-- With fresh ids, a case records the price of its order throughout a run if
and only if no change that a soft close or case 4 asks for is refused. -/
theorem recordsPrice_iff_no_refusal {context : Context} {inst : TradeInstance} {type : CaseType}
    (created : context.inst.tradeCase = TradeCaseFactory.create inst type)
    {labels : List CaseLabel} (fresh : FreshIds (run Context.caseStep context labels).log) :
    EveryState Context.caseStep RecordsPrice context labels ↔
      EveryStep Context.caseStep (fun context label => ¬ RunRefused context label) context
        labels := by
  have start : Sound context := by
    intro case held
    rw [created] at held
    cases type <;> cases held <;> exact ⟨fun _ => rfl, recorded_of_idle rfl _⟩
  have allFresh : EveryState Context.caseStep (fun context => FreshIds context.log) context
      labels := by
    apply everyState_of_last _ fresh
    exact fun context label => FreshIds.of_suffix (caseStep_grows context label)
  obtain ⟨startFresh, stepsFresh⟩ := (everyState_iff_everyStep_next context labels).mp allFresh
  let Inv (context : Context) : Prop := Sound context ∧ FreshIds context.log
  have startInv : Inv context := ⟨start, startFresh⟩
  refine everyState_iff_everyStep ?_ ?_ ?_ startInv stepsFresh
  · rintro context label ⟨sound, _⟩ fresh accepted
    exact ⟨(caseStep_stored sound label).1 accepted, fresh⟩
  · rintro context ⟨sound, fresh⟩
    exact sound.recordsPrice fresh
  · rintro context label ⟨sound, _⟩ fresh records refused
    exact (caseStep_stored sound label).2 refused fresh records

/-! ## Case 4 after a change of the quote -/

/-- An instance that has just selected case 4 at an estimate of 10. -/
def selectsCase4 (inst : TradeInstance) : TradeInstance :=
  let inst := (inst.readSymbolData (.around 10)).updateTrigger.changeTrigger
  { inst with tradeCase := TradeCaseFactory.create inst .case4 }

/-- Case 4 is run, the quote falls to 9, and case 4 is run again. -/
def repricedCase4 (inst : TradeInstance) (answer : ℕ) : List CaseLabel :=
  [.run [acknowledged 1], .surroundings ((selectsCase4 inst).readSymbolData (.around 9)),
    .run [acknowledged answer]]

theorem recordsPrice_iff_no_refusal_case4 :
    ∃ inst, TradeInstance.construct .roundLots .zero nothingStored = some inst ∧
      EveryState Context.caseStep RecordsPrice
        { inst := selectsCase4 inst, replies := [], log := [] } (repricedCase4 inst 2) := by
  have accepted : (TradeInstance.construct .roundLots .zero nothingStored).map (fun inst =>
      let start : Context := { inst := selectsCase4 inst, replies := [], log := [] }
      decide (FreshIds (run Context.caseStep start (repricedCase4 inst 2)).log ∧
        EveryStep Context.caseStep (fun context label => ¬ RunRefused context label) start
          (repricedCase4 inst 2))) = some true := by
    decide +kernel
  obtain ⟨inst, constructs, holds⟩ := Option.map_eq_some_iff.mp accepted
  obtain ⟨fresh, accepts⟩ := of_decide_eq_true holds
  let creator := (inst.readSymbolData (.around 10)).updateTrigger.changeTrigger
  have created : (selectsCase4 inst).tradeCase = TradeCaseFactory.create creator .case4 := rfl
  exact ⟨inst, constructs, (recordsPrice_iff_no_refusal created fresh).mpr accepts⟩

/-- The gateway keeps the order at its price and the case records the new
one. -/
theorem not_recordsPrice_case4 :
    ∃ inst, TradeInstance.construct .roundLots .zero nothingStored = some inst ∧
      let start : Context := { inst := selectsCase4 inst, replies := [], log := [] }
      FreshIds (run Context.caseStep start (repricedCase4 inst 1)).log ∧
        ¬ EveryState Context.caseStep RecordsPrice start (repricedCase4 inst 1) := by
  have refused : (TradeInstance.construct .roundLots .zero nothingStored).map (fun inst =>
      let start : Context := { inst := selectsCase4 inst, replies := [], log := [] }
      decide (FreshIds (run Context.caseStep start (repricedCase4 inst 1)).log ∧
        ¬ EveryState Context.caseStep RecordsPrice start (repricedCase4 inst 1))) = some true := by
    decide +kernel
  obtain ⟨inst, constructs, holds⟩ := Option.map_eq_some_iff.mp refused
  exact ⟨inst, constructs, of_decide_eq_true holds⟩

end TradingApp.Instance
