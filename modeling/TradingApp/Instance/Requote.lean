import TradingApp.Instance.Requests
import TradingApp.Transition.Run

/-!
# Requote orders

A case sends its requote orders in steps of the minimum price variation away
from the market, and later changes the ones that are still live when the quote
moves.  Both loops count up; the one that sends subtracts the steps from the
requote price on the side of the trigger, the one that changes adds them.

The log shows the requests the gateway accepted.  A request does not depend on
the reply to it, so that what holds of the accepted ones in every run holds of
all.
-/

namespace TradingApp.Instance

open TradingApp.Account TradingApp.Machine TradingApp.Transition

/-! ## Prices of a batch -/

/-- The prices are whole steps from the requote price, none of them more
aggressive, and each is further away from the market than the one before. -/
structure StepsAway (sign : ℤ) (mpvValue requotePrice : ℚ) (prices : List ℚ) : Prop where
  ladder : ∀ price ∈ prices, ∃ k : ℕ, price = requotePrice - sign * mpvValue * k
  notAggressive : ∀ price ∈ prices, sign * (price - requotePrice) ≤ 0
  away : prices.Pairwise fun first second : ℚ => sign * second < sign * first

theorem stepsAway_nil (sign : ℤ) (mpvValue requotePrice : ℚ) :
    StepsAway sign mpvValue requotePrice [] where
  ladder _ member := nomatch member
  notAggressive _ member := nomatch member
  away := .nil

theorem sign_mul_step {sign : ℤ} (signed : sign = 1 ∨ sign = -1) (mpvValue requotePrice : ℚ)
    (k : ℕ) :
    sign * (requotePrice - sign * mpvValue * k) = sign * requotePrice - mpvValue * k := by
  rcases signed with rfl | rfl
  · push_cast
    ring
  · push_cast
    ring

/-- The ladder of increasing steps. -/
theorem stepsAway_ladder {sign : ℤ} (signed : sign = 1 ∨ sign = -1) {mpvValue : ℚ}
    (mpvPos : 0 < mpvValue) (requotePrice : ℚ) {ks : List ℕ} (increasing : ks.Pairwise (· < ·)) :
    StepsAway sign mpvValue requotePrice
      (ks.map fun k : ℕ => requotePrice - sign * mpvValue * k) where
  ladder price member := by
    obtain ⟨k, _, rfl⟩ := List.mem_map.mp member
    exact ⟨k, rfl⟩
  notAggressive price member := by
    obtain ⟨k, _, rfl⟩ := List.mem_map.mp member
    have step := sign_mul_step signed mpvValue requotePrice k
    have nonneg : 0 ≤ mpvValue * k := mul_nonneg mpvPos.le (Nat.cast_nonneg k)
    rw [mul_sub, step]
    linarith
  away := by
    refine List.pairwise_map.mpr (increasing.imp fun {first second} before => ?_)
    rw [sign_mul_step signed, sign_mul_step signed]
    have more : mpvValue * first < mpvValue * second :=
      mul_lt_mul_of_pos_left (by exact_mod_cast before) mpvPos
    linarith

/-- Increasing numbers in a range. -/
def Climbs (low high : ℕ) (ks : List ℕ) : Prop :=
  ks.Pairwise (· < ·) ∧ ∀ k ∈ ks, low ≤ k ∧ k < high

theorem climbs_nil (low high : ℕ) : Climbs low high [] :=
  ⟨.nil, fun _ member => nomatch member⟩

theorem Climbs.later {low high : ℕ} {ks : List ℕ} (climbs : Climbs (low + 1) high ks) :
    Climbs low high ks :=
  ⟨climbs.1, fun k member => ⟨Nat.le_of_succ_le (climbs.2 k member).1, (climbs.2 k member).2⟩⟩

theorem Climbs.cons {low high : ℕ} {ks : List ℕ} (climbs : Climbs (low + 1) high ks)
    (within : low < high) : Climbs low high (low :: ks) := by
  refine ⟨List.pairwise_cons.mpr ⟨fun k member => (climbs.2 k member).1, climbs.1⟩, ?_⟩
  intro k member
  rcases List.mem_cons.mp member with rfl | rest
  · exact ⟨le_refl k, within⟩
  · exact climbs.later.2 k rest

/-! ## Requests -/

/-- Requests at the prices were accepted, one after the other. -/
def Requested (prices : List ℚ) (context after : Context) : Prop :=
  after.accepted.map (·.price) = prices.reverse ++ context.accepted.map (·.price)

theorem requested_nil {context after : Context} (same : Unchanged Context.accepted context after) :
    Requested [] context after :=
  congrArg (List.map Acceptance.price) same

theorem Requested.trans {first second : List ℚ} {context middle after : Context}
    (one : Requested first context middle) (two : Requested second middle after) :
    Requested (first ++ second) context after := by
  unfold Requested at one two ⊢
  rw [two, one, List.reverse_append, List.append_assoc]

theorem openOrder_requested (account : Option OrderAccountType) (price : ℚ) (size : ℕ)
    (context : Context) :
    Requested [price] context ((openOrder account price size).run context).2 ∨
      Requested [] context ((openOrder account price size).run context).2 := by
  cases account with
  | none => exact Or.inr rfl
  | some side =>
      have accepted := openOrder_accepted side price size context
      split at accepted
      · exact Or.inl (congrArg (List.map Acceptance.price) accepted)
      · exact Or.inr (requested_nil accepted)

/-- An accepted change returns the id of the replacement. -/
theorem changeOrder_requested (account : Option OrderAccountType) (requestId : ℕ) (price : ℚ)
    (context : Context) :
    Requested [price] context ((changeOrder account requestId price 0).run context).2 ∧
        ((changeOrder account requestId price 0).run context).1 ≠ 0 ∨
      Requested [] context ((changeOrder account requestId price 0).run context).2 := by
  cases account with
  | none => exact Or.inr rfl
  | some side =>
      have accepted := changeOrder_accepted side requestId price context
      split at accepted
      · exact Or.inr (requested_nil accepted)
      · rename_i answered
        refine Or.inl ⟨congrArg (List.map Acceptance.price) accepted, ?_⟩
        have returned : ((changeOrder (some side) requestId price 0).run context).1 =
            context.answer := by
          unfold changeOrder
          simp only [run_getInst_bind, Nat.zero_div]
          rw [run_bind]
          split <;> rfl
        rw [returned]
        exact fun refused => answered (Or.inl refused)

/-- The loop that sends counts every order, accepted or not. -/
theorem sendRequoteLoop_requested (account : Option OrderAccountType) (baseQty : ℕ)
    (price : ℕ → ℚ) (fuel : ℕ) (remainder : ℤ) (i : ℕ) (context : Context) :
    ∃ ks, Climbs i (i + fuel) ks ∧
      Requested (ks.map price) context
        ((sendRequoteLoop account baseQty price fuel remainder i).run context).2 := by
  induction fuel generalizing remainder i context with
  | zero => exact ⟨[], climbs_nil _ _, rfl⟩
  | succ fuel ih =>
      unfold sendRequoteLoop
      split
      · rw [run_bind]
        have sent := openOrder_requested account (price i)
          (word32 (if remainder > (baseQty : ℤ) then (baseQty : ℤ) else remainder)) context
        obtain ⟨ks, climbs, rest⟩ := ih
          (remainder - if remainder > (baseQty : ℤ) then (baseQty : ℤ) else remainder) (i + 1)
          ((openOrder account (price i) (word32
            (if remainder > (baseQty : ℤ) then (baseQty : ℤ) else remainder))).run context).2
        rw [Nat.succ_add_eq_add_succ] at climbs
        rcases sent with accepted | refused
        · exact ⟨i :: ks, climbs.cons (by omega), accepted.trans rest⟩
        · exact ⟨ks, climbs.later, refused.trans rest⟩
      · exact ⟨[], climbs_nil _ _, rfl⟩

/-- The loop that changes counts every order, as long as its id is not zero. -/
theorem changeRequoteOrders_requested (account : Option OrderAccountType) (price : ℕ → ℚ)
    (orders : List ℕ) (i : ℕ) (context : Context) :
    ∃ ks, Climbs i (i + orders.length) ks ∧
      Requested (ks.map price) context
        ((changeRequoteOrders account price orders i).run context).2 := by
  induction orders generalizing i context with
  | nil => exact ⟨[], climbs_nil _ _, rfl⟩
  | cons order rest ih =>
      unfold changeRequoteOrders
      rw [run_bind]
      have asked := changeOrder_requested account order (price i) context
      split
      · obtain ⟨ks, climbs, later⟩ := ih (i + 1)
          ((changeOrder account order (price i) 0).run context).2
        rw [Nat.succ_add_eq_add_succ] at climbs
        rcases asked with ⟨accepted, -⟩ | refused
        · exact ⟨i :: ks, climbs.cons (by omega), accepted.trans later⟩
        · exact ⟨ks, climbs.later, refused.trans later⟩
      · rename_i unchanged
        rw [not_or, not_not, not_not] at unchanged
        obtain ⟨ks, climbs, later⟩ := ih i ((changeOrder account order (price i) 0).run context).2
        rcases asked with ⟨-, returned⟩ | refused
        · exact absurd unchanged.1 returned
        · refine ⟨ks, ⟨climbs.1, fun k member => ?_⟩, refused.trans later⟩
          have bounds := climbs.2 k member
          rw [List.length_cons]
          omega

/-! ## The held case -/

/-- The settings, and the sign and the requote price of the held case. -/
def Context.requoting (context : Context) : Config × Option (ℤ × ℚ) :=
  (context.inst.config, context.inst.tradeCase.map fun case => (case.sign, case.requotePrice))

/-- A callback leaves them alone. -/
theorem onCallback_requoting (context : Context) (callback : Callback) :
    Unchanged Context.requoting context (context.onCallback callback) := by
  cases callback with
  | fill | counters => rfl
  | requoteOrderDone =>
      unfold Unchanged Context.requoting Context.onCallback TradeInstance.onCallback
        TradeInstance.onRequoteOrderDone
      rw [Option.map_map]
      congr 2
      funext case
      simp only [Function.comp_apply]
      split <;> rfl
  | tradeSendClose price size =>
      unfold Unchanged Context.requoting Context.onCallback TradeInstance.onCallback
        TradeInstance.onTradeSendClose
      dsimp only
      split
      · rfl
      · split
        · split <;> rfl
        · rfl

/-- So does a call. -/
theorem requoting_frame : ReplyFrame (Unchanged Context.requoting) where
  nextReply := keeps_nextReply (fun _ _ => rfl) onCallback_requoting
  record _ _ := rfl
  modifyAccount _ _ _ _ := rfl

/-- The settings and the sign of the held case. -/
def Context.signed (context : Context) : Config × Option ℤ :=
  (context.inst.config, context.inst.tradeCase.map TradeCase.sign)

theorem signed_of_requoting {context after : Context}
    (same : Unchanged Context.requoting context after) :
    Unchanged Context.signed context after := by
  have signs := congrArg (fun both : Config × Option (ℤ × ℚ) => (both.1, both.2.map Prod.fst)) same
  simp only [Context.requoting, Option.map_map] at signs
  exact signs

/-- So do all functions that work on the requote orders, as far as the sign. -/
theorem signed_frame : CallFrame (Unchanged Context.signed) where
  nextReply := requoting_frame.nextReply.weaken fun _ _ => signed_of_requoting
  record _ _ := rfl
  modifyAccount _ _ _ _ := rfl
  modifyRequotes f same context := by
    refine Prod.ext rfl ?_
    change (context.inst.tradeCase.map f).map TradeCase.sign = _
    rw [Option.map_map]
    congr 1
    funext case
    have kept := congrArg TradeCase.sign (same case)
    exact kept

/-- The price variation is positive, and the held case has a sign, that of
`case`. -/
structure Signed (case : TradeCase) (context : Context) : Prop where
  mpvPos : 0 < context.inst.config.mpvValue
  signed : case.sign = 1 ∨ case.sign = -1
  held : ∀ held ∈ context.inst.tradeCase, held.sign = case.sign

theorem Signed.of_unchanged {case : TradeCase} {context after : Context}
    (signed : Signed case context) (same : Unchanged Context.signed context after) :
    Signed case after := by
  have config : after.inst.config = context.inst.config := congrArg Prod.fst same
  have signs : after.inst.tradeCase.map TradeCase.sign =
      context.inst.tradeCase.map TradeCase.sign := congrArg Prod.snd same
  refine ⟨config ▸ signed.mpvPos, signed.signed, fun held isHeld => ?_⟩
  rw [show after.inst.tradeCase = some held from isHeld, Option.map_some] at signs
  obtain ⟨before, isBefore, sign⟩ := Option.map_eq_some_iff.mp signs.symm
  rw [← sign]
  exact signed.held before isBefore

/-- The prices accepted since `context` step away from the requote price the
held case has now. -/
def BatchAway (context after : Context) : Prop :=
  ∃ prices, Requested prices context after ∧ ∀ held ∈ after.inst.tradeCase,
    StepsAway held.sign after.inst.config.mpvValue held.requotePrice prices

theorem batchAway_nil {context after : Context}
    (same : Unchanged Context.accepted context after) : BatchAway context after :=
  ⟨[], requested_nil same, fun _ _ => stepsAway_nil _ _ _⟩

/-- Before a batch nothing is asked. -/
theorem BatchAway.after_calls {context middle after : Context}
    (same : Unchanged Context.accepted context middle) (batch : BatchAway middle after) :
    BatchAway context after := by
  obtain ⟨prices, requested, away⟩ := batch
  exact ⟨prices, (requested_nil same).trans requested, away⟩

/-- A batch on the ladder of the requote price the held case was given before
it. -/
theorem batchAway_ladder {case : TradeCase} {context after : Context} (signed : Signed case context)
    {requotePrice : ℚ} {ks : List ℕ} (increasing : ks.Pairwise (· < ·))
    (requested : Requested
      (ks.map fun k : ℕ => requotePrice - case.sign * context.inst.config.mpvValue * k)
      context after)
    (same : Unchanged Context.signed context after)
    (priced : ∀ held ∈ after.inst.tradeCase, held.requotePrice = requotePrice) :
    BatchAway context after := by
  refine ⟨_, requested, fun held isHeld => ?_⟩
  have config : after.inst.config = context.inst.config := congrArg Prod.fst same
  rw [priced held isHeld, (signed.of_unchanged same).held held isHeld, config]
  exact stepsAway_ladder signed.signed signed.mpvPos _ increasing

/-! ## Sending and changing -/

/-- The held case is given a requote price. -/
def priceRequotes (requotePrice : ℚ) : CaseM Unit :=
  modifyCase fun case => { case with requotePrice }

theorem requotePrice_eq {requotePrice : ℚ} {context after : Context}
    (same : Unchanged Context.requoting ((priceRequotes requotePrice).run context).2 after) :
    ∀ held ∈ after.inst.tradeCase, held.requotePrice = requotePrice := by
  intro held isHeld
  have quotes := congrArg Prod.snd same
  simp only [Context.requoting] at quotes
  rw [show after.inst.tradeCase = some held from isHeld] at quotes
  obtain ⟨before, isBefore, pair⟩ := Option.map_eq_some_iff.mp quotes.symm
  obtain ⟨old, isOld, rfl⟩ := Option.map_eq_some_iff.mp isBefore
  exact (congrArg Prod.snd pair).symm

/-- A loop that asks along the ladder of a new requote price. -/
theorem batchAway_of_loop {case : TradeCase} {context : Context} (signed : Signed case context)
    {requotePrice : ℚ} {loop : CaseM (List ℕ)} {note : List ℕ → TradeCase → TradeCase}
    (keeps : Keeps (Unchanged Context.requoting) loop)
    (notes : ∀ ids case, (note ids case).sign = case.sign ∧
      (note ids case).requotePrice = case.requotePrice)
    (asks : ∃ ks : List ℕ, ks.Pairwise (· < ·) ∧
      Requested (ks.map fun k : ℕ => requotePrice - case.sign * context.inst.config.mpvValue * k)
        ((priceRequotes requotePrice).run context).2
        (loop.run ((priceRequotes requotePrice).run context).2).2) :
    BatchAway context
      ((priceRequotes requotePrice >>= fun _ => loop >>= fun ids => modifyCase (note ids)).run
        context).2 := by
  obtain ⟨ks, increasing, requested⟩ := asks
  have noted : ∀ ids, Keeps (Unchanged Context.requoting) (modifyCase (note ids)) := by
    intro ids context
    refine Prod.ext rfl ?_
    change (context.inst.tradeCase.map (note ids)).map _ = _
    rw [Option.map_map]
    congr 1
    funext case
    exact Prod.ext (notes ids case).1 (notes ids case).2
  have kept := (keeps.bind noted) ((priceRequotes requotePrice).run context).2
  have priced : Unchanged Context.signed context ((priceRequotes requotePrice).run context).2 := by
    refine Prod.ext rfl ?_
    change (context.inst.tradeCase.map _).map TradeCase.sign = _
    rw [Option.map_map]
    rfl
  refine batchAway_ladder signed increasing requested ?_ (requotePrice_eq kept)
  exact IsTrans.trans _ _ _ priced (signed_of_requoting kept)

theorem batchAway_ite {C : Prop} [Decidable C] {start first second : CaseM Unit} {context : Context}
    (holds : BatchAway context ((start >>= fun _ => first).run context).2)
    (fails : BatchAway context ((start >>= fun _ => second).run context).2) :
    BatchAway context ((start >>= fun _ => if C then first else second).run context).2 := by
  split
  · exact holds
  · exact fails

/-- What is sent steps away from the market. -/
theorem sendRequoteOrders_batchAway {case : TradeCase} {context : Context}
    (signed : Signed case context) :
    BatchAway context ((sendRequoteOrders case).run context).2 := by
  unfold sendRequoteOrders
  rw [run_getInst_bind]
  split
  · exact batchAway_nil rfl
  · dsimp only
    split
    · exact batchAway_nil rfl
    · refine batchAway_ite ?_ (batchAway_nil rfl)
      refine batchAway_of_loop signed (requoting_frame.sendRequoteLoop _ _ _ _ _ _)
        (fun _ _ => ⟨rfl, rfl⟩) ?_
      obtain ⟨ks, climbs, requested⟩ := sendRequoteLoop_requested _ _ _ _ _ _ _
      exact ⟨ks, climbs.1, requested⟩

theorem liveRequoteOrders_accepted (account : Option OrderAccountType) (orders : List ℕ) :
    Keeps (Unchanged Context.accepted) (liveRequoteOrders account orders) := by
  induction orders with
  | nil => exact keeps_pure []
  | cons order rest ih =>
      refine .ite (fun _ => ih) fun _ => ?_
      exact (checkOrderStatus_accepted account).bind fun _ => ih.bind fun _ => keeps_pure _

/-- The orders that `updateRequoteOrders` gives another price. -/
def repricedOrders (case : TradeCase) (context : Context) : List ℕ :=
  if context.inst.position case.currentAcc ≠ context.inst.position case.oppositeAcc then []
  else
    let checked := (liveRequoteOrders case.currentAcc case.requoteOrders).run context
    match movedRequotePrice checked.2.inst case with
    | none => []
    | some _ => checked.1

/-- So do the orders that are sent once all were cancelled. -/
theorem resendRequotes_batchAway {case : TradeCase} {context middle : Context}
    (signed : Signed case context) (accepted : Unchanged Context.accepted context middle)
    (signs : Unchanged Context.signed context middle) :
    BatchAway context
      ((cancelAll case.currentAcc >>= fun _ => sendRequoteOrders case).run middle).2 := by
  rw [run_bind]
  have cancels := cancelAll_accepted case.currentAcc middle
  have kept := signed_frame.cancelAll case.currentAcc middle
  refine .after_calls (IsTrans.trans _ _ _ accepted cancels) (sendRequoteOrders_batchAway ?_)
  exact signed.of_unchanged (IsTrans.trans _ _ _ signs kept)

/-- A single order is changed to the requote price itself. -/
theorem changeRequoteOrders_batchAway {case : TradeCase} {context : Context}
    (signed : Signed case context) {live : List ℕ} (one : live.length ≤ 1) (requotePrice mpv : ℚ) :
    BatchAway context
      ((priceRequotes requotePrice >>= fun _ =>
        changeRequoteOrders case.currentAcc (fun i => requotePrice + i * mpv * case.sign) live 0 >>=
          fun orders => modifyCase fun case => { case with requoteOrders := orders }).run
        context).2 := by
  refine batchAway_of_loop signed (requoting_frame.changeRequoteOrders _ _ _ _)
    (fun _ _ => ⟨rfl, rfl⟩) ?_
  obtain ⟨ks, climbs, requested⟩ := changeRequoteOrders_requested case.currentAcc
    (fun i => requotePrice + i * mpv * case.sign) live 0
    ((priceRequotes requotePrice).run context).2
  refine ⟨ks, climbs.1, ?_⟩
  have first : ks.map (fun k : ℕ => requotePrice + k * mpv * case.sign) =
      ks.map fun k : ℕ => requotePrice - case.sign * context.inst.config.mpvValue * k := by
    refine List.map_congr_left fun k member => ?_
    have bound := (climbs.2 k member).2
    obtain rfl : k = 0 := by omega
    simp
  rw [first] at requested
  exact requested

/-- What an update sends or changes steps away from the market as long as it
changes no more than one order. -/
theorem updateRequoteOrders_batchAway {case : TradeCase} {context : Context}
    (signed : Signed case context) (one : (repricedOrders case context).length ≤ 1) :
    BatchAway context ((updateRequoteOrders case).run context).2 := by
  unfold updateRequoteOrders
  unfold repricedOrders at one
  rw [run_getInst_bind]
  split
  · exact batchAway_nil rfl
  · rename_i equal
    split
    · exact resendRequotes_batchAway signed rfl rfl
    · rw [if_neg equal] at one
      dsimp only at one
      rw [run_bind]
      have checks := liveRequoteOrders_accepted case.currentAcc case.requoteOrders context
      have kept := signed_frame.liveRequoteOrders case.currentAcc case.requoteOrders context
      generalize (liveRequoteOrders case.currentAcc case.requoteOrders).run context = checked
        at one checks kept
      obtain ⟨live, later⟩ := checked
      dsimp only at one checks kept ⊢
      rw [run_bind]
      have noted := signed_frame.modifyRequotes (fun case => { case with requoteOrders := live })
        (fun _ => rfl) later
      have accepted := modifyCase_accepted (fun case => { case with requoteOrders := live }) later
      have sameInst : ∃ tradeCase, ((modifyCase fun case =>
          { case with requoteOrders := live }).run later).2.inst = later.inst.holding tradeCase :=
        ⟨_, rfl⟩
      generalize ((modifyCase fun case => { case with requoteOrders := live }).run later).2 = middle
        at noted accepted sameInst ⊢
      have calls := IsTrans.trans _ _ _ checks accepted
      have signs := IsTrans.trans _ _ _ kept noted
      split
      · exact resendRequotes_batchAway signed calls signs
      · rw [run_getInst_bind]
        obtain ⟨tradeCase, sameInst⟩ := sameInst
        have moved : movedRequotePrice middle.inst case = movedRequotePrice later.inst case := by
          rw [sameInst]
          rfl
        rw [moved]
        split
        · exact batchAway_nil calls
        · rename_i requotePrice isMoved
          rw [isMoved] at one
          exact .after_calls calls
            (changeRequoteOrders_batchAway (signed.of_unchanged signs) one requotePrice _)

/-! ## Runs -/

/-- What can happen to a held case and its requote orders. -/
inductive RequoteLabel where
  | send (replies : List Reply)
  | update (replies : List Reply)
  /-- anything about the instance but its settings and its case -/
  | surroundings (inst : TradeInstance)
  | callback (callback : Callback)

/-- The log is of one step. -/
def Context.requoteStep (context : Context) : RequoteLabel → Context
  | .send replies =>
      match context.inst.tradeCase with
      | none => { context with log := [] }
      | some case => { context with log := [] }.exec replies (sendRequoteOrders case)
  | .update replies =>
      match context.inst.tradeCase with
      | none => { context with log := [] }
      | some case => { context with log := [] }.exec replies (updateRequoteOrders case)
  | .surroundings inst =>
      { context with
        inst := { inst with config := context.inst.config, tradeCase := context.inst.tradeCase }
        log := [] }
  | .callback callback => { context with log := [] }.onCallback callback

/-- The prices a step asked for, and was given, step away from the requote
price. -/
def StepAway (context : Context) (label : RequoteLabel) : Prop :=
  let after := context.requoteStep label
  ∀ held ∈ after.inst.tradeCase,
    StepsAway held.sign after.inst.config.mpvValue held.requotePrice
      (after.accepted.map (·.price)).reverse

/-- An update changes no more than one order. -/
def RepricesOne (context : Context) : RequoteLabel → Prop
  | .update replies =>
      ∀ case ∈ context.inst.tradeCase,
        (repricedOrders case { context with replies, log := [] }).length ≤ 1
  | .send _ | .surroundings _ | .callback _ => True

instance (context : Context) : (label : RequoteLabel) → Decidable (RepricesOne context label)
  | .update _ => inferInstanceAs (Decidable (∀ _ ∈ _, _))
  | .send _ | .surroundings _ | .callback _ => inferInstanceAs (Decidable True)

/-- The price variation is positive, and the held case has a sign. -/
def Requotes (context : Context) : Prop :=
  ∀ case ∈ context.inst.tradeCase, Signed case context

theorem BatchAway.stepsAway {context after : Context} (batch : BatchAway context after)
    (empty : context.accepted = []) : ∀ held ∈ after.inst.tradeCase,
      StepsAway held.sign after.inst.config.mpvValue held.requotePrice
        (after.accepted.map (·.price)).reverse := by
  obtain ⟨prices, requested, away⟩ := batch
  unfold Requested at requested
  rw [empty, List.map_nil, List.append_nil] at requested
  rw [requested, List.reverse_reverse]
  exact away

/-- A step keeps the settings and the sign of the case. -/
theorem requoteStep_signed (context : Context) (label : RequoteLabel) :
    Unchanged Context.signed context (context.requoteStep label) := by
  cases label with
  | send replies =>
      cases held : context.inst.tradeCase with
      | none =>
          simp only [Context.requoteStep, held]
          rfl
      | some case =>
          simp only [Context.requoteStep, held]
          exact signed_frame.sendRequoteOrders case { context with replies, log := [] }
  | update replies =>
      cases held : context.inst.tradeCase with
      | none =>
          simp only [Context.requoteStep, held]
          rfl
      | some case =>
          simp only [Context.requoteStep, held]
          exact signed_frame.updateRequoteOrders case { context with replies, log := [] }
  | surroundings inst => rfl
  | callback callback =>
      exact signed_of_requoting (onCallback_requoting { context with log := [] } callback)

theorem requotes_step {context : Context} {label : RequoteLabel} (requotes : Requotes context) :
    Requotes (context.requoteStep label) := by
  have same := requoteStep_signed context label
  intro held isHeld
  have signs : (context.requoteStep label).inst.tradeCase.map TradeCase.sign =
      context.inst.tradeCase.map TradeCase.sign := congrArg Prod.snd same
  rw [show (context.requoteStep label).inst.tradeCase = some held from isHeld] at signs
  obtain ⟨before, isBefore, sign⟩ := Option.map_eq_some_iff.mp signs.symm
  have signed := (requotes before isBefore).of_unchanged same
  exact ⟨signed.mpvPos, sign ▸ signed.signed, fun other isOther => sign ▸ signed.held other isOther⟩

/-- A step whose update changes no more than one order steps away from the
market. -/
theorem stepAway_of_repricesOne {context : Context} {label : RequoteLabel}
    (requotes : Requotes context) (one : RepricesOne context label) : StepAway context label := by
  unfold StepAway
  cases label with
  | send replies =>
      cases isHeld : context.inst.tradeCase with
      | none =>
          simp only [Context.requoteStep, isHeld]
          exact fun held member => nomatch member
      | some case =>
          simp only [Context.requoteStep, isHeld]
          have signed : Signed case { context with replies, log := [] } :=
            (requotes case isHeld).of_unchanged rfl
          exact (sendRequoteOrders_batchAway signed).stepsAway rfl
  | update replies =>
      cases isHeld : context.inst.tradeCase with
      | none =>
          simp only [Context.requoteStep, isHeld]
          exact fun held member => nomatch member
      | some case =>
          simp only [Context.requoteStep, isHeld]
          have signed : Signed case { context with replies, log := [] } :=
            (requotes case isHeld).of_unchanged rfl
          exact (updateRequoteOrders_batchAway signed (one case isHeld)).stepsAway rfl
  | surroundings inst => exact fun _ _ => stepsAway_nil _ _ _
  | callback callback =>
      have nothing : (context.requoteStep (.callback callback)).accepted = [] := by
        cases callback <;> rfl
      dsimp only
      rw [nothing]
      exact fun _ _ => stepsAway_nil _ _ _

/-- In every run whose updates change no more than one order, no requote order
is sent or changed at a price more aggressive than the requote price, and the
prices of a batch step away from the market. -/
theorem everyStep_stepAway {context : Context} {trace : List RequoteLabel}
    (requotes : Requotes context)
    (repricesOne : EveryStep Context.requoteStep RepricesOne context trace) :
    EveryStep Context.requoteStep StepAway context trace :=
  everyStep_of_everyStep (fun _ _ held _ => requotes_step held)
    (fun _ _ => stepAway_of_repricesOne) requotes repricesOne

/-- A case that was just created has a sign. -/
theorem requotes_create {context : Context} {inst : TradeInstance} {type : CaseType}
    (mpvPos : 0 < context.inst.config.mpvValue)
    (created : context.inst.tradeCase = some (TradeCase.create inst type)) : Requotes context := by
  intro case isHeld
  obtain rfl : TradeCase.create inst type = case := Option.some.inj (created.symm.trans isHeld)
  refine ⟨mpvPos, ite_eq_or_eq _ _ _, fun held isHeld => ?_⟩
  exact congrArg TradeCase.sign (Option.some.inj (created.symm.trans isHeld)).symm

/-- The long account is to buy, at a positive skew. -/
def buying (inst : TradeInstance) (bidPrice : ℚ) : TradeInstance :=
  let inst :=
    { inst with
      currentAcc := some .long
      oppositeAcc := some .short
      triggerState := .positive
      bidPrice
      bar1 := { inst.bar1 with closePrice := 10 }
      config := { inst.config with instrumentSkew := 1 } }
  inst.holding (some (TradeCase.create inst .hedgeCurrent))

/-- Four requote orders are sent at 10, the bid moves to 11, and the gateway
tells which of them are live; every request is accepted. -/
def requoteRun (inst : TradeInstance) (statuses : List Reply) : List RequoteLabel :=
  [.send [acknowledged 1, acknowledged 2, acknowledged 3, acknowledged 4],
    .surroundings (buying inst 11),
    .update (statuses ++ [acknowledged 5, acknowledged 6, acknowledged 7, acknowledged 8])]

/-- Three of the orders are executed, and the last one is changed. -/
theorem everyStep_stepAway_oneLive :
    ∃ inst, TradeInstance.construct .roundLots .zero nothingStored = some inst ∧
      EveryStep Context.requoteStep StepAway ⟨buying inst 10, [], []⟩
        (requoteRun inst [.refused, .refused, .refused, acknowledged 4]) := by
  have one : (TradeInstance.construct .roundLots .zero nothingStored).map (fun inst =>
      decide (0 < inst.config.mpvValue ∧
        EveryStep Context.requoteStep RepricesOne ⟨buying inst 10, [], []⟩
          (requoteRun inst [.refused, .refused, .refused, acknowledged 4]))) = some true := by
    decide +kernel
  obtain ⟨inst, constructs, holds⟩ := Option.map_eq_some_iff.mp one
  obtain ⟨mpvPos, repricesOne⟩ := of_decide_eq_true holds
  exact ⟨inst, constructs, everyStep_stepAway (requotes_create mpvPos rfl) repricesOne⟩

/-- All four are live, and the second is changed to a bid of 11.01. -/
theorem not_everyStep_stepAway_fourLive :
    ∃ inst, TradeInstance.construct .roundLots .zero nothingStored = some inst ∧
      Requotes ⟨buying inst 10, [], []⟩ ∧
        ¬ EveryStep Context.requoteStep StepAway ⟨buying inst 10, [], []⟩
          (requoteRun inst [acknowledged 1, acknowledged 2, acknowledged 3, acknowledged 4]) := by
  have above : (TradeInstance.construct .roundLots .zero nothingStored).map (fun inst =>
      let last := run Context.requoteStep ⟨buying inst 10, [], []⟩
        (requoteRun inst [acknowledged 1, acknowledged 2, acknowledged 3, acknowledged 4])
      decide (0 < inst.config.mpvValue ∧ ¬ ∀ held ∈ last.inst.tradeCase,
        ∀ price ∈ (last.accepted.map Acceptance.price).reverse,
          held.sign * (price - held.requotePrice) ≤ 0)) = some true := by
    decide +kernel
  obtain ⟨inst, constructs, holds⟩ := Option.map_eq_some_iff.mp above
  obtain ⟨mpvPos, aggressive⟩ := of_decide_eq_true holds
  refine ⟨inst, constructs, requotes_create mpvPos rfl, ?_⟩
  rintro ⟨-, -, away, -⟩
  exact aggressive fun held isHeld => (away held isHeld).notAggressive

end TradingApp.Instance
