import TradingApp.Instance.SharedStore

/-!
# One name for both accounts

An account of a single user leaves both names empty, so the long and the short
account have one position in the store.  A pass writes the long one first, and then
the short one over it.

So both accounts of a new instance start with what the old one was short, the long
one with a size below zero.  What was held long is forgotten.  As in the shared store,
records of other kinds leave the position alone if the symbol is a plain name.
-/

namespace TradingApp.Instance

open TradingApp.Account TradingApp.Decimal TradingApp.Redis TradingApp.Transition

variable {config : Config}

theorem key_eq (shared : config.longAccountName = config.shortAccountName) :
    config.key .long = config.key .short :=
  congrArg (positionKey · config.symbolName) shared

/-! ## Constructing -/

/-- A long account that starts with what was written of the short one. -/
structure StartsMirrored (filed : Filed) (account : TradeAccount) : Prop where
  total : account.total = -filed.account.total
  totalExecuted : account.totalExecuted = filed.account.totalExecuted
  rif : account.rif = filed.account.rif
  pif : account.pif = filed.pif
  average : account.average = roundTo 6 filed.account.getAverage
  lots : account.positionTable.records = []

theorem startsMirrored_restoredAccount {filed : Filed} (own : filed.account.accountType = .short)
    (config : Config) (lastOpenPrice : ℚ) :
    StartsMirrored filed (restoredAccount (newAccount config lastOpenPrice .long)
      (figuresOf filed.account).read filed.pif) := by
  constructor
  · change signedQuantity .long (writtenQuantity filed.account) = -filed.account.total
    unfold writtenQuantity
    rw [own]
    exact neg_one_mul _
  · rfl
  · rfl
  · rfl
  · rfl
  · rfl

/-- Both accounts are constructed from the short one's position, the long one first. -/
theorem construct_shared (shared : config.longAccountName = config.shortAccountName)
    {writer : RedisWriter} {filed : Filed} (storedAs : StoredAs config .short writer (some filed))
    (uninitialized : Uninitialized) :
    ∃ inst, TradeInstance.construct config uninitialized writer = some inst ∧
      StartsMirrored filed inst.accounts.longAcc ∧
        filed.again.StartsWith inst.accounts.shortAcc := by
  obtain ⟨own, entry, key, holds, figures, pif⟩ := storedAs
  have longKey : keyToRead (newAccount config (uninitialized.lastOpenPrice .long) .long) =
      entry.key :=
    (key_eq shared).trans key.symm
  have restoresLong := restore_holds _ longKey holds figures
  rw [pif, Option.map_some] at restoresLong
  have stored := storedAs_restored holds.enabled own key figures
  have enabled := (restoredWriter_holds holds.enabled entry (figuresOf filed.account).read
    filed.pif).enabled
  obtain ⟨shortAcc, after, restoresShort, startsShort, _⟩ :=
    restore_storedAs enabled stored (uninitialized.lastOpenPrice .short)
  have restores : restoreAccounts config uninitialized.lastOpenPrice writer = some
      ({ longAcc := restoredAccount (newAccount config (uninitialized.lastOpenPrice .long) .long)
           (figuresOf filed.account).read filed.pif
         shortAcc }, after) := by
    simp only [restoreAccounts, restoresLong, restoresShort, Option.bind_eq_bind,
      Option.bind_some, Option.pure_def]
  exact ⟨_, congrArg (Option.map _) restores, startsMirrored_restoredAccount own config _,
    startsShort⟩

/-! ## Runs -/

/-- The store holds the position of the short account that was written last. -/
structure StoresShort (config : Config) (state : Context × Option TradeAccounts) : Prop where
  enabled : state.1.inst.redisWriter.isRedisEnabled = true
  filing : ∀ side, accountFiling state.1.inst.accounts side =
    (side, config.accountName side, config.symbolName)
  stored : ∀ accounts ∈ state.2, (figuresOf accounts.shortAcc).InRange →
    StoredAs config .short state.1.inst.redisWriter
      (some { account := accounts.shortAcc, read := false })

variable {context : Context} {written : Option TradeAccounts}

theorem StoresShort.of_filed (stores : StoresShort config (context, written)) {next : Context}
    (same : next.filed = context.filed) : StoresShort config (next, written) := by
  obtain ⟨writer, filing⟩ := Prod.mk.inj same
  constructor
  · exact (congrArg RedisWriter.isRedisEnabled writer).trans stores.enabled
  · intro side
    exact (congrFun filing side).trans (stores.filing side)
  · intro accounts member inRange
    have stored := stores.stored accounts member inRange
    rw [← writer] at stored
    exact stored

/-- The short account's position is written last. -/
theorem StoresShort.writePositions (stores : StoresShort config (context, written))
    (nameFree : ',' ∉ config.accountName .short) (symbolFree : ',' ∉ config.symbolName) :
    StoresShort config (context.mapInst writePositions, some context.inst.accounts) := by
  have enabled : (writePosition context.inst.accounts.longAcc
      context.inst.redisWriter).isRedisEnabled = true :=
    writePosition_enabled stores.enabled
  constructor
  · exact writePosition_enabled enabled
  · exact stores.filing
  · rintro accounts ⟨⟩ inRange
    exact (writePosition_storedAs enabled nameFree symbolFree (stores.filing .short) inRange).1

/-- An instance with one name for both accounts: whenever its run ends, a new
instance can be constructed on what it leaves in the store, and both its accounts
start with what the short one was at the end of the last pass that wrote it back, the
long one with the opposite of its size. -/
theorem everyState_mirrors_short {uninitialized : Uninitialized} {writer : RedisWriter}
    {inst : TradeInstance}
    (constructs : TradeInstance.construct config uninitialized writer = some inst)
    (enabled : writer.isRedisEnabled = true)
    (shared : config.longAccountName = config.shortAccountName)
    (nameFree : ',' ∉ config.shortAccountName) (symbolFree : ',' ∉ config.symbolName)
    (labels : List Label) :
    EveryState (recording Context.step lastWritten)
      (fun state => ∀ accounts ∈ state.2, (figuresOf accounts.shortAcc).InRange →
        ∀ again : Uninitialized, ∃ restarted,
          TradeInstance.construct config again state.1.inst.redisWriter = some restarted ∧
            StartsMirrored { account := accounts.shortAcc, read := false }
              restarted.accounts.longAcc ∧
            Filed.StartsWith { account := accounts.shortAcc, read := true }
              restarted.accounts.shortAcc)
      ({ inst, replies := [], log := [] }, none) labels := by
  have start : StoresShort config ({ inst, replies := [], log := [] }, none) := by
    have stores := stores_construct enabled constructs
    constructor
    · exact stores.enabled
    · exact stores.filing
    · exact fun accounts member => absurd member (Option.not_mem_none accounts)
  have stores : EveryState (recording Context.step lastWritten) (StoresShort config)
      ({ inst, replies := [], log := [] }, none) labels :=
    everyState_of_forall_step
      (fun state label stores => recording_step (fun _ _ _ stores same => stores.of_filed same)
        (fun _ _ stores => stores.writePositions nameFree symbolFree) stores label)
      start labels
  exact stores.mono fun state stores accounts member inRange again =>
    construct_shared shared (stores.stored accounts member inRange) again

/-- The settings of a single user's account: no names. -/
def singleUser : Config :=
  { Config.roundLots with longAccountName := [], shortAccountName := [] }

/-- Ten lots are bought and four are sold before a pass. -/
def boughtAndSold : List Label :=
  [.callback (.fill { side := .long, isOpen := true, orderId := 1, price := 10, size := 10 }),
    .callback (.fill { side := .short, isOpen := true, orderId := 2, price := 10, size := 4 }),
    .pass (.around 10) []]

theorem everyState_mirrors_short_singleUser : ∃ inst,
    TradeInstance.construct singleUser .zero nothingStored = some inst ∧
      EveryState (recording Context.step lastWritten)
        (fun state => ∀ accounts ∈ state.2, (figuresOf accounts.shortAcc).InRange →
          ∀ again : Uninitialized, ∃ restarted,
            TradeInstance.construct singleUser again state.1.inst.redisWriter = some restarted ∧
              StartsMirrored { account := accounts.shortAcc, read := false }
                restarted.accounts.longAcc ∧
              Filed.StartsWith { account := accounts.shortAcc, read := true }
                restarted.accounts.shortAcc)
        ({ inst, replies := [], log := [] }, none) boughtAndSold := by
  have isSome : (TradeInstance.construct singleUser .zero nothingStored).isSome = true := by
    decide +kernel
  obtain ⟨inst, constructs⟩ := Option.isSome_iff_exists.mp isSome
  exact ⟨inst, constructs,
    everyState_mirrors_short constructs rfl rfl (by decide) (by decide) boughtAndSold⟩

/-- The ten lots are forgotten, and the four count twice. -/
example : ((TradeInstance.construct singleUser .zero nothingStored).bind fun inst =>
    TradeInstance.construct singleUser .zero
      (run Context.step { inst, replies := [], log := [] } boughtAndSold).inst.redisWriter).map
        (fun inst => (inst.accounts.longAcc.total, inst.accounts.shortAcc.total)) =
      some (-4, 4) := by
  decide +kernel

end TradingApp.Instance
