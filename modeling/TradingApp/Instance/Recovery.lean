import TradingApp.Instance.Restart

/-!
# Restarting after a crash

A pass writes both positions to the store when its case has run, and nothing else
writes them.  So what a new instance finds there is what the accounts held at
the end of the last such pass, however the run went on: fills that arrived
since then are lost, and the lots in any case.
-/

namespace TradingApp.Instance

open TradingApp.Account TradingApp.Decimal TradingApp.Redis TradingApp.Transition

/-! ## What only the end of a pass changes -/

/-- The type, the name and the symbol of the account on a side. -/
def accountFiling (accounts : TradeAccounts) (side : OrderAccountType) :
    OrderAccountType × Text × Text :=
  ((accounts.get side).accountType, (accounts.get side).accountName, (accounts.get side).symbol)

/-- The store, and how the accounts are filed in it. -/
def Context.filed (context : Context) :
    RedisWriter × (OrderAccountType → OrderAccountType × Text × Text) :=
  (context.inst.redisWriter, accountFiling context.inst.accounts)

/-- Two accounts are filed alike. -/
structure FiledAlike (account other : TradeAccount) : Prop where
  accountType : other.accountType = account.accountType
  accountName : other.accountName = account.accountName
  symbol : other.symbol = account.symbol

theorem FiledAlike.refl (account : TradeAccount) : FiledAlike account account :=
  ⟨rfl, rfl, rfl⟩

theorem FiledAlike.trans {first second third : TradeAccount} (one : FiledAlike first second)
    (two : FiledAlike second third) : FiledAlike first third where
  accountType := two.accountType.trans one.accountType
  accountName := two.accountName.trans one.accountName
  symbol := two.symbol.trans one.symbol

theorem filing_congr {accounts after : TradeAccounts}
    (alike : ∀ side, FiledAlike (accounts.get side) (after.get side)) :
    accountFiling after = accountFiling accounts := by
  funext side
  unfold accountFiling
  rw [(alike side).accountType, (alike side).accountName, (alike side).symbol]

section Fills

variable (account other : TradeAccount) (price : ℚ) (size : ℕ)

theorem calculateSpread_filedAlike (openClose : Bool) :
    FiledAlike account (account.calculateSpread other price size openClose).1 ∧
      FiledAlike other (account.calculateSpread other price size openClose).2 := by
  unfold TradeAccount.calculateSpread
  dsimp only
  split
  · exact ⟨⟨rfl, rfl, rfl⟩, ⟨rfl, rfl, rfl⟩⟩
  · split
    · exact ⟨⟨rfl, rfl, rfl⟩, ⟨rfl, rfl, rfl⟩⟩
    · exact ⟨.refl account, .refl other⟩

theorem onOpenFill_filedAlike (orderId : ℕ) :
    FiledAlike account (account.onOpenFill other orderId price size).1 ∧
      FiledAlike other (account.onOpenFill other orderId price size).2 := by
  have spread := calculateSpread_filedAlike account other price size true
  unfold TradeAccount.onOpenFill
  cases account.accountType with
  | long => exact ⟨spread.1.trans ⟨rfl, rfl, rfl⟩, spread.2⟩
  | short =>
      refine ⟨spread.1.trans ?_, spread.2⟩
      unfold TradeAccount.onOpenFillShort
      dsimp only
      split
      · exact ⟨rfl, rfl, rfl⟩
      · exact ⟨rfl, rfl, rfl⟩

theorem onCloseFill_filedAlike (orderId : ℕ) :
    FiledAlike account (account.onCloseFill orderId price size) := by
  unfold TradeAccount.onCloseFill
  dsimp only
  split
  · exact ⟨rfl, rfl, rfl⟩
  · exact ⟨rfl, rfl, rfl⟩

end Fills

theorem setBoth_filing {accounts : TradeAccounts} {side : OrderAccountType}
    {account other : TradeAccount} (own : FiledAlike (accounts.get side) account)
    (opposite : FiledAlike (accounts.get side.opposite) other) :
    accountFiling (TradeAccounts.setBoth side account other) =
      accountFiling accounts := by
  refine filing_congr fun at_ => ?_
  cases side <;> cases at_
  · exact own
  · exact opposite
  · exact opposite
  · exact own

theorem set_filing {accounts : TradeAccounts} {side : OrderAccountType} {account : TradeAccount}
    (alike : FiledAlike (accounts.get side) account) :
    accountFiling (accounts.set side account) = accountFiling accounts := by
  refine filing_congr fun at_ => ?_
  cases side <;> cases at_
  · exact alike
  · exact .refl _
  · exact .refl _
  · exact alike

theorem onFill_filing (accounts : TradeAccounts) (fill : TradeAccounts.Fill) :
    accountFiling (accounts.onFill fill) = accountFiling accounts := by
  unfold TradeAccounts.onFill
  dsimp only
  split
  · obtain ⟨own, opposite⟩ := onOpenFill_filedAlike (accounts.get fill.side)
      (accounts.get fill.side.opposite) fill.price fill.size fill.orderId
    exact setBoth_filing own opposite
  · exact setBoth_filing (onCloseFill_filedAlike _ _ _ _) (.refl _)

theorem onCallback_filed (context : Context) (callback : Callback) :
    (context.onCallback callback).filed = context.filed := by
  have writer : (context.inst.onCallback callback).redisWriter = context.inst.redisWriter := by
    obtain ⟨_, _, same, _⟩ := onCallback_eq context.inst callback
    rw [same]
  refine Prod.ext writer ?_
  change accountFiling (context.inst.onCallback callback).accounts =
    accountFiling context.inst.accounts
  cases callback with
  | fill fill => exact onFill_filing _ fill
  | counters side openBy closeBy executedBy => exact set_filing ⟨rfl, rfl, rfl⟩
  | requoteOrderDone => rfl
  | tradeSendClose price size =>
      change accountFiling (context.inst.onTradeSendClose price size).accounts = _
      unfold TradeInstance.onTradeSendClose
      split
      · rfl
      · split
        · dsimp only
          split
          · rfl
          · exact set_filing ⟨rfl, rfl, rfl⟩
        · rfl

/-- Until a pass writes them back, the positions in the store stay. -/
theorem filed_frame : LoopFrame (Unchanged Context.filed) where
  crash := keeps_modify fun _ => rfl
  nextReply := keeps_nextReply (fun _ _ => rfl) onCallback_filed
  record _ := keeps_modify fun _ => rfl
  modifyAccount side f same := fun context => by
    refine Prod.ext rfl ?_
    have holding := same (context.inst.accounts.get side)
    exact set_filing ⟨holding.accountType, holding.accountName, holding.symbol⟩
  modifyInst f same := fun context => by
    obtain ⟨accounts, writer, _⟩ := same context.inst
    refine Prod.ext writer ?_
    change accountFiling (f context.inst).accounts = _
    rw [accounts]
    rfl

/-- Only passes write the positions back. -/
theorem act_filed (context : Context) {label : Label}
    (notPass : ∀ quote replies, label ≠ .pass quote replies) :
    (context.act label).filed = context.filed := by
  cases label with
  | pass quote replies => exact absurd rfl (notPass quote replies)
  | callback callback => exact onCallback_filed context callback
  | stopAction replies =>
      exact Context.act_stopAction (R := Unchanged Context.filed) filed_frame.closing.cancelAll
        (filed_frame.modifyInst _ fun _ => ⟨rfl, rfl, rfl⟩) context replies
  | enablePanicClose | disablePanicClose | enableSoftClose | disableSoftClose | resume | pause
  | avicennaToggle => rfl

theorem filed_step (context : Context) {label : Label}
    (notPass : ∀ quote replies, label ≠ .pass quote replies) :
    (context.step label).filed = context.filed :=
  Context.step_cases (P := (·.filed = context.filed)) (fun _ => rfl) fun _ =>
    act_filed context notPass

/-! ## What is in the store -/

/-- A pass up to its write-back. -/
def Context.worked (context : Context) (quote : Quote) (replies : List Reply) : Context :=
  ((selection >>= fun _ => runCase).run (context.quoted quote replies)).2

/-- The pass comes to its write-back. -/
def Context.WritesBack (context : Context) : Label → Prop
  | .pass quote replies =>
      context.Running ∧ 0 < (context.quoted quote replies).inst.priceEstimate ∧
        (context.worked quote replies).inst.crashed = false
  | _ => False

instance (context : Context) : (label : Label) → Decidable (context.WritesBack label)
  | .pass _ _ => inferInstanceAs (Decidable (_ ∧ _ ∧ _))
  | .callback _ | .enablePanicClose | .disablePanicClose | .enableSoftClose | .disableSoftClose
  | .resume | .pause | .avicennaToggle | .stopAction _ => inferInstanceAs (Decidable False)

/-- The accounts at the end of the last pass that wrote them back, if there was one. -/
def lastWritten (written : Option TradeAccounts) (context : Context) (label : Label) :
    Option TradeAccounts :=
  if context.WritesBack label then some (context.step label).inst.accounts else written

/-- The store holds the positions of the accounts that were written last. -/
structure Stores (config : Config) (state : Context × Option TradeAccounts) : Prop where
  enabled : state.1.inst.redisWriter.isRedisEnabled = true
  filing : ∀ side, accountFiling state.1.inst.accounts side =
    (side, config.accountName side, config.symbolName)
  filed : ∀ accounts ∈ state.2, accountFiling accounts =
    accountFiling state.1.inst.accounts
  stored : ∀ accounts ∈ state.2, ∀ side, state.1.inst.redisWriter.store (config.key side) =
    some ((figuresOf (accounts.get side)).text (config.accountName side) config.symbolName)

variable {config : Config} {context : Context} {written : Option TradeAccounts}

theorem Stores.of_filed (stores : Stores config (context, written)) {next : Context}
    (same : next.filed = context.filed) : Stores config (next, written) := by
  obtain ⟨writer, filing⟩ := Prod.mk.inj same
  constructor
  · exact (congrArg RedisWriter.isRedisEnabled writer).trans stores.enabled
  · intro side
    exact (congrFun filing side).trans (stores.filing side)
  · intro accounts member
    exact (stores.filed accounts member).trans filing.symm
  · intro accounts member side
    rw [← stores.stored accounts member side]
    exact congrFun (congrArg RedisWriter.store writer) _

/-- Writing back stores both positions, if the accounts have different names. -/
theorem Stores.writePositions (stores : Stores config (context, written))
    (distinct : config.longAccountName ≠ config.shortAccountName) :
    Stores config (context.mapInst writePositions, some context.inst.accounts) := by
  have name (side : OrderAccountType) :
      (context.inst.accounts.get side).accountName = config.accountName side :=
    congrArg (fun filing => filing.2.1) (stores.filing side)
  have symbol (side : OrderAccountType) :
      (context.inst.accounts.get side).symbol = config.symbolName :=
    congrArg (fun filing => filing.2.2) (stores.filing side)
  have key (side : OrderAccountType) :
      keyToRead (context.inst.accounts.get side) = config.key side := by
    rw [keyToRead, name, symbol, Config.key]
  have enabled : context.inst.redisWriter.isRedisEnabled = true := stores.enabled
  have enabledLong : (writePosition (context.inst.accounts.get .long)
      context.inst.redisWriter).isRedisEnabled = true :=
    writePosition_enabled enabled
  have different : config.key .long ≠ config.key .short := Config.key_injective distinct
  constructor
  · exact writePosition_enabled enabledLong
  · exact stores.filing
  · rintro accounts ⟨⟩
    rfl
  · rintro accounts ⟨⟩ side
    change (writePosition (context.inst.accounts.get .short) (writePosition
      (context.inst.accounts.get .long) context.inst.redisWriter)).store (config.key side) = _
    rw [writePosition_eq _ enabledLong, writePosition_eq _ enabled, key, key, name, name, symbol,
      symbol]
    cases side with
    | long =>
        rw [RedisWriter.set_store_of_ne _ _ different, RedisWriter.set_store_self]
    | short => rw [RedisWriter.set_store_self]

/-- What is known of the store and the accounts written last stays known, if it
depends on nothing else and the write-back keeps it. -/
theorem recording_step {P : Context × Option TradeAccounts → Prop}
    (ofFiled : ∀ context written next, P (context, written) → next.filed = context.filed →
      P (next, written))
    (writes : ∀ context written, P (context, written) →
      P (context.mapInst writePositions, some context.inst.accounts))
    (holds : P (context, written)) (label : Label) :
    P (recording Context.step lastWritten (context, written) label) := by
  change P (_, lastWritten written context label)
  by_cases isPass : ∃ quote replies, label = .pass quote replies
  · obtain ⟨quote, replies, rfl⟩ := isPass
    by_cases active : context.Running ∧ 0 < (context.quoted quote replies).inst.priceEstimate
    · have passes : context.step (.pass quote replies) =
          (context.worked quote replies).mapInst writeBack :=
        Context.step_pass active.1 active.2
      have same : (context.worked quote replies).filed = context.filed :=
        (filed_frame.selection.bind fun _ => filed_frame.runCase) (context.quoted quote replies)
      have before := ofFiled context written _ holds same
      cases crashed : (context.worked quote replies).inst.crashed with
      | true =>
          have silent : ¬ context.WritesBack (.pass quote replies) := fun writesBack =>
            Bool.false_ne_true (writesBack.2.2.symm.trans crashed)
          rw [lastWritten, if_neg silent, passes, Context.mapInst, writeBack, if_pos crashed]
          exact before
      | false =>
          have writesBack : context.WritesBack (.pass quote replies) :=
            ⟨active.1, active.2, crashed⟩
          rw [lastWritten, if_pos writesBack, passes, Context.mapInst, writeBack,
            if_neg (ne_true_of_eq_false crashed)]
          have after := writes _ written before
          exact ofFiled _ _ _ after rfl
    · have silent : ¬ context.WritesBack (.pass quote replies) := fun writesBack =>
        active ⟨writesBack.1, writesBack.2.1⟩
      rw [lastWritten, if_neg silent]
      rcases Context.step_pass_idle active with same | same
      · rw [same]
        exact holds
      · rw [same]
        exact ofFiled context written _ holds rfl
  · have notPass : ∀ quote replies, label ≠ .pass quote replies :=
      fun quote replies is => isPass ⟨quote, replies, is⟩
    have silent : ¬ context.WritesBack label := by
      cases label with
      | pass quote replies => exact absurd rfl (notPass quote replies)
      | _ => exact id
    rw [lastWritten, if_neg silent]
    exact ofFiled context written _ holds (filed_step context notPass)

theorem Stores.step (stores : Stores config (context, written))
    (distinct : config.longAccountName ≠ config.shortAccountName) (label : Label) :
    Stores config (recording Context.step lastWritten (context, written) label) :=
  recording_step (fun _ _ _ stores same => stores.of_filed same)
    (fun _ _ stores => stores.writePositions distinct) stores label

/-! ## What a new instance starts with -/

section Enabled

variable {writer after : RedisWriter} {account restored : TradeAccount} {key : Text}

theorem writeToRedis_isRedisEnabled
    (user symbol quantity averagePrice rif pif liveBuy liveSell totalExecuted : Text) :
    (writer.writeToRedis user symbol quantity averagePrice rif pif liveBuy liveSell
      totalExecuted).isRedisEnabled = writer.isRedisEnabled := by
  unfold RedisWriter.writeToRedis
  split
  · rfl
  · rfl

theorem rewrite_isRedisEnabled {replace : Position → Position}
    (rewrites : writer.rewrite key replace = some after) :
    after.isRedisEnabled = writer.isRedisEnabled := by
  obtain ⟨current, _, rfl⟩ := Option.map_eq_some_iff.mp rewrites
  exact writeToRedis_isRedisEnabled _ _ _ _ _ _ _ _ _

theorem writePIFToRedis_isRedisEnabled {pif : Text}
    (writes : writer.writePIFToRedis key pif = some after) :
    after.isRedisEnabled = writer.isRedisEnabled := by
  unfold RedisWriter.writePIFToRedis at writes
  split at writes
  · rw [Option.some_inj.mp writes]
  · exact rewrite_isRedisEnabled writes

theorem writeRIFToRedis_isRedisEnabled {rif : Text}
    (writes : writer.writeRIFToRedis key rif = some after) :
    after.isRedisEnabled = writer.isRedisEnabled := by
  unfold RedisWriter.writeRIFToRedis at writes
  split at writes
  · rw [Option.some_inj.mp writes]
  · exact rewrite_isRedisEnabled writes

theorem writeLiveSharesInfo_isRedisEnabled {buyLive sellLive total : Text}
    (writes : writer.writeLiveSharesInfo key buyLive sellLive total = some after) :
    after.isRedisEnabled = writer.isRedisEnabled := by
  unfold RedisWriter.writeLiveSharesInfo at writes
  split at writes
  · rw [Option.some_inj.mp writes]
  · split at writes
    · split at writes
      · rw [← Option.some_inj.mp writes]
        exact writeToRedis_isRedisEnabled _ _ _ _ _ _ _ _ _
      · cases writes
    · exact rewrite_isRedisEnabled writes

theorem restorePIF_isRedisEnabled {pif : Text}
    (restores : restorePIF account writer pif = some (restored, after)) :
    after.isRedisEnabled = writer.isRedisEnabled := by
  unfold restorePIF at restores
  split at restores
  · rw [(Prod.mk.inj (Option.some_inj.mp restores)).2]
  · obtain ⟨_, _, sets⟩ := Option.bind_eq_some_iff.mp restores
    obtain ⟨_, writes, same⟩ := Option.map_eq_some_iff.mp sets
    rw [← (Prod.mk.inj same).2]
    exact writePIFToRedis_isRedisEnabled writes

theorem restoreRIF_isRedisEnabled {rif : Text}
    (restores : restoreRIF account writer rif = some (restored, after)) :
    after.isRedisEnabled = writer.isRedisEnabled := by
  unfold restoreRIF at restores
  split at restores
  · rw [(Prod.mk.inj (Option.some_inj.mp restores)).2]
  · obtain ⟨_, _, sets⟩ := Option.bind_eq_some_iff.mp restores
    obtain ⟨_, writes, same⟩ := Option.map_eq_some_iff.mp sets
    rw [← (Prod.mk.inj same).2]
    exact writeRIFToRedis_isRedisEnabled writes

theorem restorePosition_isRedisEnabled {position : Position}
    (restores : restorePosition account writer position = some (restored, after)) :
    after.isRedisEnabled = writer.isRedisEnabled := by
  simp only [restorePosition, Option.bind_eq_bind, Option.pure_def, Option.bind_eq_some_iff,
    Option.some.injEq, Prod.mk.injEq, Prod.exists] at restores
  obtain ⟨_, _, _, _, restoresPIF, _, _, restoresRIF, _, _, _, _, _, resets, _, rfl⟩ := restores
  rw [writeLiveSharesInfo_isRedisEnabled resets, restoreRIF_isRedisEnabled restoresRIF,
    restorePIF_isRedisEnabled restoresPIF]

theorem restore_isRedisEnabled (restores : restore account writer = some (restored, after)) :
    after.isRedisEnabled = writer.isRedisEnabled := by
  unfold restore at restores
  split at restores
  · rw [(Prod.mk.inj (Option.some_inj.mp restores)).2]
  · obtain ⟨_, _, restores⟩ := Option.bind_eq_some_iff.mp restores
    exact restorePosition_isRedisEnabled restores

theorem construct_isRedisEnabled {uninitialized : Uninitialized} {inst : TradeInstance}
    (constructs : TradeInstance.construct config uninitialized writer = some inst) :
    inst.redisWriter.isRedisEnabled = writer.isRedisEnabled := by
  obtain ⟨⟨accounts, last⟩, restores, rfl⟩ := Option.map_eq_some_iff.mp constructs
  simp only [restoreAccounts, Option.bind_eq_bind, Option.pure_def, Option.bind_eq_some_iff,
    Option.some.injEq, Prod.mk.injEq, Prod.exists] at restores
  obtain ⟨_, _, restoresLong, _, _, restoresShort, _, rfl⟩ := restores
  exact (restore_isRedisEnabled restoresShort).trans (restore_isRedisEnabled restoresLong)

end Enabled

/-- A new instance has stored nothing. -/
theorem stores_construct {uninitialized : Uninitialized} {writer : RedisWriter}
    {inst : TradeInstance} (enabled : writer.isRedisEnabled = true)
    (constructs : TradeInstance.construct config uninitialized writer = some inst) :
    Stores config ({ inst, replies := [], log := [] }, none) := by
  constructor
  · exact (construct_isRedisEnabled constructs).trans enabled
  · intro side
    have book := (construct_books constructs).2 side
    change ((inst.accounts.get side).accountType, (inst.accounts.get side).accountName,
      (inst.accounts.get side).symbol) = _
    rw [book.accountType, book.accountName, book.symbol]
    rfl
  · exact fun accounts member => absurd member (Option.not_mem_none accounts)
  · exact fun accounts member => absurd member (Option.not_mem_none accounts)

/-! ## What a new instance makes of it -/

/-- A restarted account holds what was written of the account before. -/
structure Recovers (before after : TradeAccount) : Prop where
  total : after.total = before.total
  totalExecuted : after.totalExecuted = before.totalExecuted
  rif : after.rif = before.rif
  pif : after.pif = roundTo 6 before.pif
  average : after.average = roundTo 6 before.getAverage
  lots : after.positionTable.records = []

/-- A position that the loop wrote can be restored. -/
theorem restore_written (lastOpenPrice : ℚ) (side : OrderAccountType) {writer : RedisWriter}
    {figures : Figures} (enabled : writer.isRedisEnabled = true)
    (nameFree : ',' ∉ config.accountName side) (symbolFree : ',' ∉ config.symbolName)
    (inRange : figures.InRange)
    (stored : writer.store (config.key side) =
      some (figures.text (config.accountName side) config.symbolName)) :
    ∃ after, restore (newAccount config lastOpenPrice side) writer =
      some (restoredAccount (newAccount config lastOpenPrice side) figures.read
        (roundTo 6 figures.pif), after) := by
  have holds : writer.Holds (figures.entry nameFree symbolFree) := ⟨enabled, stored⟩
  have restores := restore_holds (newAccount config lastOpenPrice side) (by rfl) holds
    (figures.holdsFigures inRange nameFree symbolFree)
  have pif : readDouble (figures.entry nameFree symbolFree).pif = some (roundTo 6 figures.pif) :=
    readDouble_doubleText _
  rw [pif] at restores
  exact ⟨_, restores⟩

/-- So can both. -/
theorem exists_construct {writer : RedisWriter} {figures : OrderAccountType → Figures}
    (loopStored : LoopStored config writer fun side => some (figures side))
    (distinct : config.longAccountName ≠ config.shortAccountName)
    (uninitialized : Uninitialized) :
    ∃ inst, TradeInstance.construct config uninitialized writer = some inst ∧
      ∀ side, inst.accounts.get side =
        restoredAccount (newAccount config (uninitialized.lastOpenPrice side) side)
          (figures side).read (roundTo 6 (figures side).pif) := by
  obtain ⟨afterLong, restoresLong⟩ := restore_written
    (uninitialized.lastOpenPrice .long) .long loopStored.enabled (loopStored.nameFree .long)
    loopStored.symbolFree (loopStored.inRange .long _ rfl)
    (loopStored.stored .long)
  have long := restores_of_stored loopStored.enabled (loopStored.nameFree .long)
    loopStored.symbolFree (loopStored.inRange .long) (loopStored.stored .long) restoresLong
  have others : afterLong.store (config.key .short) = writer.store (config.key .short) :=
    long.others _ (Config.key_injective (Ne.symm distinct))
  obtain ⟨after, restoresShort⟩ := restore_written
    (uninitialized.lastOpenPrice .short) .short long.enabled (loopStored.nameFree .short)
    loopStored.symbolFree (loopStored.inRange .short _ rfl)
    (others.trans (loopStored.stored .short))
  have restores : restoreAccounts config uninitialized.lastOpenPrice writer = some
      ({ longAcc := restoredAccount (newAccount config (uninitialized.lastOpenPrice .long) .long)
           (figures .long).read (roundTo 6 (figures .long).pif)
         shortAcc := restoredAccount
           (newAccount config (uninitialized.lastOpenPrice .short) .short)
           (figures .short).read (roundTo 6 (figures .short).pif) }, after) := by
    simp only [restoreAccounts, restoresLong, restoresShort, Option.bind_eq_bind,
      Option.bind_some, Option.pure_def]
  refine ⟨_, congrArg (Option.map _) restores, fun side => ?_⟩
  cases side <;> rfl

/-- What is restored from an account's figures is what they were. -/
theorem recovers_restoredAccount {account : TradeAccount} {side : OrderAccountType}
    (own : account.accountType = side) (lastOpenPrice : ℚ) :
    Recovers account
      (restoredAccount (newAccount config lastOpenPrice side) (figuresOf account).read
        (roundTo 6 (figuresOf account).pif)) := by
  constructor
  · change signedQuantity side (writtenQuantity account) = account.total
    unfold writtenQuantity
    rw [own]
    cases side with
    | long => rfl
    | short =>
        change (-1 : ℤ) * (-1 * account.total) = account.total
        omega
  · rfl
  · rfl
  · rfl
  · rfl
  · rfl

/-- Whenever a run ends, a new instance can be constructed on what it leaves in
the store, and both its accounts hold what they held at the end of the last
pass that wrote them back. -/
theorem everyState_recovers {uninitialized : Uninitialized} {writer : RedisWriter}
    {inst : TradeInstance}
    (constructs : TradeInstance.construct config uninitialized writer = some inst)
    (enabled : writer.isRedisEnabled = true)
    (distinct : config.longAccountName ≠ config.shortAccountName)
    (nameFree : ∀ side, ',' ∉ config.accountName side) (symbolFree : ',' ∉ config.symbolName)
    (labels : List Label) :
    EveryState (recording Context.step lastWritten)
      (fun state => ∀ accounts ∈ state.2,
        (∀ side, (figuresOf (accounts.get side)).InRange) →
          ∀ again : Uninitialized, ∃ restarted,
            TradeInstance.construct config again state.1.inst.redisWriter = some restarted ∧
              ∀ side, Recovers (accounts.get side) (restarted.accounts.get side))
      ({ inst, replies := [], log := [] }, none) labels := by
  have stores : EveryState (recording Context.step lastWritten) (Stores config)
      ({ inst, replies := [], log := [] }, none) labels :=
    everyState_of_forall_step (fun state label stores => stores.step distinct label)
      (stores_construct enabled constructs) labels
  refine stores.mono fun state stores accounts member inRange again => ?_
  have loopStored : LoopStored config state.1.inst.redisWriter fun side =>
      some (figuresOf (accounts.get side)) := by
    constructor
    · exact stores.enabled
    · exact nameFree
    · exact symbolFree
    · rintro side _ ⟨⟩
      exact inRange side
    · exact stores.stored accounts member
  obtain ⟨restarted, constructed, restored⟩ := exists_construct loopStored distinct again
  refine ⟨restarted, constructed, fun side => ?_⟩
  have own : (accounts.get side).accountType = side := by
    have filing := congrFun (stores.filed accounts member) side
    exact congrArg Prod.fst (filing.trans (stores.filing side))
  rw [restored side]
  exact recovers_restoredAccount own _

/-- Two passes, and a fill after them. -/
theorem everyState_recovers_roundLots : ∃ inst,
    TradeInstance.construct .roundLots .zero nothingStored = some inst ∧
      EveryState (recording Context.step lastWritten)
        (fun state => ∀ accounts ∈ state.2,
          (∀ side, (figuresOf (accounts.get side)).InRange) →
            ∀ again : Uninitialized, ∃ restarted,
              TradeInstance.construct .roundLots again state.1.inst.redisWriter = some restarted ∧
                ∀ side, Recovers (accounts.get side) (restarted.accounts.get side))
        ({ inst, replies := [], log := [] }, none)
        [.pass (.around 10) [], .pass (.around 9) [], .callback <|
          .fill { side := .long, isOpen := true, orderId := 1, price := 9, size := 1 }] := by
  have isSome : (TradeInstance.construct .roundLots .zero nothingStored).isSome = true := by
    decide +kernel
  obtain ⟨inst, constructs⟩ := Option.isSome_iff_exists.mp isSome
  refine ⟨inst, constructs,
    everyState_recovers constructs rfl (by decide) (fun side => ?_) (by decide) _⟩
  cases side <;> decide

end TradingApp.Instance
