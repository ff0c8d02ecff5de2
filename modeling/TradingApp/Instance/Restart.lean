import TradingApp.Instance.Crash

/-!
# Restarting from a stored position

What the main loop stores for an account, what the constructor makes of it,
and what the first pass without callbacks writes back.  The average is
restored to the account, but the loop saves the average of the account's
lots, of which a new instance has none: only a position stored without an
average comes back as it was.
-/

namespace TradingApp.Instance

open TradingApp.Account TradingApp.Decimal TradingApp.Redis TradingApp.Transition

/-! ## Figures -/

/-- The figures the loop writes for an account. -/
structure Figures where
  quantity : ℤ
  average : ℚ
  rif : ℕ
  pif : ℚ
  liveBuy : ℤ
  liveSell : ℤ
  totalExecuted : ℤ
deriving DecidableEq, Repr

/-- The figures fit the types they are read into. -/
structure Figures.InRange (figures : Figures) : Prop where
  quantity : -2 ^ 63 ≤ figures.quantity ∧ figures.quantity < 2 ^ 63
  rif : figures.rif < 2 ^ 32
  totalExecuted : -2 ^ 63 ≤ figures.totalExecuted ∧ figures.totalExecuted < 2 ^ 63

namespace Figures

theorem comma_separates : Separates ',' := by
  decide

variable (figures : Figures) (user symbol : Text)

/-- The value the loop writes. -/
def text : Text :=
  positionValue user symbol (intText figures.quantity) (doubleText figures.average)
    (natText figures.rif) (doubleText figures.pif) (intText figures.liveBuy)
    (intText figures.liveSell) (intText figures.totalExecuted)

variable {user symbol} (userFree : ',' ∉ user) (symbolFree : ',' ∉ symbol)

/-- The figures as an entry of the store. -/
def entry : Entry where
  user := user
  symbol := symbol
  quantity := intText figures.quantity
  averagePrice := doubleText figures.average
  rif := natText figures.rif
  pif := doubleText figures.pif
  liveBuy := intText figures.liveBuy
  liveSell := intText figures.liveSell
  totalExecuted := intText figures.totalExecuted
  commaFree := by
    simp only [List.forall_mem_cons, List.not_mem_nil, false_imp_iff, implies_true, and_true]
    exact ⟨userFree, symbolFree, not_mem_intText comma_separates _,
      not_mem_fixedText comma_separates _ _, not_mem_natText comma_separates _,
      not_mem_fixedText comma_separates _ _, not_mem_intText comma_separates _,
      not_mem_intText comma_separates _, not_mem_intText comma_separates _⟩

end Figures

/-- The figures of an account. -/
def figuresOf (account : TradeAccount) : Figures where
  quantity := writtenQuantity account
  average := account.getAverage
  rif := account.rif
  pif := account.pif
  liveBuy :=
    match account.accountType with
    | .long => account.totalOpen
    | .short => account.totalClose
  liveSell :=
    match account.accountType with
    | .long => account.totalClose
    | .short => account.totalOpen
  totalExecuted := account.totalExecuted

/-- The loop writes an account's figures under its key. -/
theorem writePosition_eq (account : TradeAccount) {writer : RedisWriter}
    (enabled : writer.isRedisEnabled = true) :
    writePosition account writer =
      writer.set (keyToRead account)
        ((figuresOf account).text account.accountName account.symbol) := by
  rw [writePosition, RedisWriter.writeToRedis, if_pos enabled]
  unfold Figures.text figuresOf
  cases account.accountType <;> rfl

/-! ## Restoring -/

/-- An entry of the store holds the figures of a position, with the price in
force in whatever form. -/
structure HoldsFigures (entry : Entry) (figures : Figures) : Prop where
  inRange : figures.InRange
  quantity : entry.quantity = intText figures.quantity
  price : readDouble entry.averagePrice = some figures.average
  rif : entry.rif = natText figures.rif
  pif : entry.pif ≠ []
  totalExecuted : entry.totalExecuted = intText figures.totalExecuted

/-- The account that an entry restores. -/
def restoredAccount (account : TradeAccount) (figures : Figures) (pif : ℚ) : TradeAccount :=
  { account with
    average := figures.average
    pif
    rif := figures.rif
    total := signedQuantity account.accountType figures.quantity
    totalExecuted := figures.totalExecuted }

/-- The entry with a price in force as the setter prints it. -/
def printedPif (entry : Entry) (pif : ℚ) : Entry :=
  entry.withPif (ostreamText pif) (not_mem_ostreamText Figures.comma_separates pif)

/-- The entry with a round in force as the setter prints it. -/
def printedRif (entry : Entry) (rif : ℕ) : Entry :=
  entry.withRif (natText rif) (not_mem_natText Figures.comma_separates rif)

/-- The entry after its restoration. -/
def restoredEntry (entry : Entry) (figures : Figures) (pif : ℚ) : Entry :=
  (printedRif (printedPif entry pif) figures.rif).withoutLive

/-- The store after an entry's restoration: three puts under one key. -/
def restoredWriter (writer : RedisWriter) (entry : Entry) (figures : Figures) (pif : ℚ) :
    RedisWriter :=
  ((writer.put (printedPif entry pif)).put (printedRif (printedPif entry pif) figures.rif)).put
    (restoredEntry entry figures pif)

theorem restoredWriter_holds {writer : RedisWriter} (enabled : writer.isRedisEnabled = true)
    (entry : Entry) (figures : Figures) (pif : ℚ) :
    (restoredWriter writer entry figures pif).Holds (restoredEntry entry figures pif) :=
  RedisWriter.holds_put (by exact enabled) _

theorem restoredWriter_store_of_ne (writer : RedisWriter) {entry : Entry} (figures : Figures)
    (pif : ℚ) {other : Text} (different : other ≠ entry.key) :
    (restoredWriter writer entry figures pif).store other = writer.store other := by
  rw [restoredWriter, RedisWriter.put_store_of_ne, RedisWriter.put_store_of_ne,
    RedisWriter.put_store_of_ne]
  · exact different
  · exact different
  · exact different

/-- A restored entry still holds its figures. -/
theorem HoldsFigures.restored {entry : Entry} {figures : Figures}
    (holdsFigures : HoldsFigures entry figures) (pif : ℚ) :
    HoldsFigures (restoredEntry entry figures pif) figures where
  inRange := holdsFigures.inRange
  quantity := holdsFigures.quantity
  price := holdsFigures.price
  rif := rfl
  pif := ostreamText_ne_nil pif
  totalExecuted := holdsFigures.totalExecuted

section Restore

variable (account : TradeAccount) {writer : RedisWriter} {entry : Entry} {figures : Figures}

theorem restorePIF_holds (key : keyToRead account = entry.key) (holds : writer.Holds entry)
    (present : entry.pif ≠ []) :
    restorePIF account writer entry.pif = (readDouble entry.pif).map fun pif =>
      ({ account with pif }, writer.put (printedPif entry pif)) := by
  rw [restorePIF, if_neg present]
  cases readDouble entry.pif with
  | none => rfl
  | some pif =>
      rw [Option.bind_some, setPriceInForce, key, holds.writePIFToRedis]
      rfl

theorem restoreRIF_holds (key : keyToRead account = entry.key) (holds : writer.Holds entry)
    (inRange : figures.rif < 2 ^ 32) :
    restoreRIF account writer (natText figures.rif) =
      some ({ account with rif := figures.rif }, writer.put (printedRif entry figures.rif)) := by
  rw [restoreRIF, if_neg (natText_ne_nil _), readUint32_natText inRange, Option.bind_some,
    setRoundInForce, key, holds.writeRIFToRedis]
  rfl

/-- An account restores what its entry holds, if the price in force can be
read. -/
theorem restore_holds (key : keyToRead account = entry.key) (holds : writer.Holds entry)
    (holdsFigures : HoldsFigures entry figures) :
    restore account writer = (readDouble entry.pif).map fun pif =>
      (restoredAccount account figures pif, restoredWriter writer entry figures pif) := by
  rw [restore, key, holds.readKeyFromRedis, if_neg entry.text_ne_nonexistentKey,
    entry.parseStem1Value_text, Option.bind_some, restorePosition]
  have restoresPIF :=
    restorePIF_holds { account with average := figures.average } key holds holdsFigures.pif
  simp only [Entry.position, holdsFigures.price, restoresPIF, Option.bind_eq_bind,
    Option.bind_some]
  cases readDouble entry.pif with
  | none => rfl
  | some pif =>
      have holdsPif : (writer.put (printedPif entry pif)).Holds (printedPif entry pif) :=
        RedisWriter.holds_put holds.enabled _
      have holdsRif : ((writer.put (printedPif entry pif)).put
          (printedRif (printedPif entry pif) figures.rif)).Holds
            (printedRif (printedPif entry pif) figures.rif) :=
        RedisWriter.holds_put holdsPif.enabled _
      have keyPif : keyToRead { account with average := figures.average, pif } =
        (printedPif entry pif).key := key
      have restoresRIF := restoreRIF_holds { account with average := figures.average, pif } keyPif
        holdsPif holdsFigures.inRange.rif
      have sets := holdsRif.writeLiveSharesInfo
      have sameKey : (printedRif (printedPif entry pif) figures.rif).key =
        keyToRead { account with average := figures.average, pif, rif := figures.rif } := key.symm
      have sameTotal : (printedRif (printedPif entry pif) figures.rif).totalExecuted =
        intText figures.totalExecuted := holdsFigures.totalExecuted
      rw [sameKey, sameTotal] at sets
      simp only [Option.map_some, Option.bind_some, holdsFigures.rif, holdsFigures.quantity,
        holdsFigures.totalExecuted, restoresRIF, sets,
        readInt64_intText holdsFigures.inRange.quantity,
        readInt64_intText holdsFigures.inRange.totalExecuted]
      rfl

end Restore

/-! ## The stored values of both accounts -/

namespace Figures

variable (figures : Figures)

/-- The figures as they are read back, with six decimals. -/
def read : Figures :=
  { figures with average := roundTo 6 figures.average }

theorem holdsFigures (inRange : figures.InRange) {user symbol : Text} (userFree : ',' ∉ user)
    (symbolFree : ',' ∉ symbol) :
    HoldsFigures (figures.entry userFree symbolFree) figures.read where
  inRange := ⟨inRange.quantity, inRange.rif, inRange.totalExecuted⟩
  quantity := rfl
  price := readDouble_doubleText _
  rif := rfl
  pif := doubleText_ne_nil _
  totalExecuted := rfl

end Figures

/-- The key of an account's position. -/
def Config.key (config : Config) (side : OrderAccountType) : Text :=
  positionKey (config.accountName side) config.symbolName

theorem keyToRead_newAccount (config : Config) (lastOpenPrice : ℚ) (side : OrderAccountType) :
    keyToRead (newAccount config lastOpenPrice side) = config.key side :=
  rfl

theorem Config.key_injective {config : Config} {side other : OrderAccountType}
    (different : config.accountName side ≠ config.accountName other) :
    config.key side ≠ config.key other := by
  intro same
  exact different (List.append_cancel_right same)

/-- The store is in use, no name has a comma, and each account's value is one
the loop wrote, if it has one. -/
structure LoopStored (config : Config) (writer : RedisWriter)
    (figures : OrderAccountType → Option Figures) : Prop where
  enabled : writer.isRedisEnabled = true
  nameFree : ∀ side, ',' ∉ config.accountName side
  symbolFree : ',' ∉ config.symbolName
  inRange : ∀ side, ∀ stored ∈ figures side, stored.InRange
  stored : ∀ side, writer.store (config.key side) =
    (figures side).map fun stored => stored.text (config.accountName side) config.symbolName

/-- What one account restores, as far as the other account and the first pass
depend on it. -/
structure Restores (config : Config) (lastOpenPrice : ℚ) (side : OrderAccountType)
    (writer : RedisWriter) (figures : Option Figures) (account : TradeAccount)
    (after : RedisWriter) : Prop where
  enabled : after.isRedisEnabled = true
  others : ∀ key, key ≠ config.key side → after.store key = writer.store key
  account : ∀ stored ∈ figures,
    account = restoredAccount (newAccount config lastOpenPrice side) stored.read
      (roundTo 6 stored.pif)

theorem restores_of_stored {config : Config} {lastOpenPrice : ℚ} {side : OrderAccountType}
    {writer after : RedisWriter} {figures : Option Figures} {account : TradeAccount}
    (enabled : writer.isRedisEnabled = true) (nameFree : ',' ∉ config.accountName side)
    (symbolFree : ',' ∉ config.symbolName) (inRange : ∀ stored ∈ figures, stored.InRange)
    (stored : writer.store (config.key side) =
      figures.map fun stored => stored.text (config.accountName side) config.symbolName)
    (restores : restore (newAccount config lastOpenPrice side) writer = some (account, after)) :
    Restores config lastOpenPrice side writer figures account after := by
  cases figures with
  | none =>
      have missing : writer.readKeyFromRedis (config.key side) = nonexistentKey := by
        rw [RedisWriter.readKeyFromRedis, if_pos enabled, stored]
        rfl
      rw [restore, keyToRead_newAccount, if_pos missing] at restores
      cases restores
      exact ⟨enabled, fun _ _ => rfl, fun _ member => by cases member⟩
  | some figures =>
      have holds : writer.Holds (figures.entry nameFree symbolFree) := ⟨enabled, stored⟩
      have restored := restore_holds (newAccount config lastOpenPrice side) (by rfl) holds
        (figures.holdsFigures (inRange figures rfl) nameFree symbolFree)
      have pif : readDouble (figures.entry nameFree symbolFree).pif =
        some (roundTo 6 figures.pif) := readDouble_doubleText _
      rw [restored, pif] at restores
      cases restores
      refine ⟨(restoredWriter_holds enabled _ _ _).enabled, fun key different => ?_, ?_⟩
      · exact restoredWriter_store_of_ne writer _ _ different
      · intro stored member
        cases member
        rfl

/-- Two accounts under different names restore independently. -/
theorem restoreAccounts_distinct {config : Config} {lastOpenPrice : OrderAccountType → ℚ}
    {writer after : RedisWriter} {accounts : TradeAccounts}
    {figures : OrderAccountType → Option Figures} (loopStored : LoopStored config writer figures)
    (distinct : config.longAccountName ≠ config.shortAccountName)
    (restores : restoreAccounts config lastOpenPrice writer = some (accounts, after)) :
    after.isRedisEnabled = true ∧ ∀ side, ∀ stored ∈ figures side,
      accounts.get side = restoredAccount (newAccount config (lastOpenPrice side) side) stored.read
        (roundTo 6 stored.pif) := by
  simp only [restoreAccounts, Option.bind_eq_bind, Option.pure_def, Option.bind_eq_some_iff,
    Option.some.injEq, Prod.mk.injEq, Prod.exists] at restores
  obtain ⟨_, _, restoresLong, _, _, restoresShort, rfl, rfl⟩ := restores
  have long := restores_of_stored loopStored.enabled (loopStored.nameFree .long)
    loopStored.symbolFree (loopStored.inRange .long) (loopStored.stored .long) restoresLong
  have differentKeys : config.key .short ≠ config.key .long :=
    Config.key_injective (Ne.symm distinct)
  have storedShort := long.others _ differentKeys
  have short := restores_of_stored long.enabled (loopStored.nameFree .short)
    loopStored.symbolFree (loopStored.inRange .short)
    (storedShort.trans (loopStored.stored .short)) restoresShort
  refine ⟨short.enabled, fun side => ?_⟩
  cases side with
  | long => exact long.account
  | short => exact short.account

/-- Two accounts under one name: the short account reads what the long one
printed of the price in force. -/
theorem restoreAccounts_shared {config : Config} {lastOpenPrice : OrderAccountType → ℚ}
    {writer after : RedisWriter} {accounts : TradeAccounts}
    {figures : OrderAccountType → Option Figures} (loopStored : LoopStored config writer figures)
    (shared : config.longAccountName = config.shortAccountName) {stored : Figures}
    (present : figures .long = some stored)
    (restores : restoreAccounts config lastOpenPrice writer = some (accounts, after)) :
    after.isRedisEnabled = true ∧ ∃ pif,
      readDouble (ostreamText (roundTo 6 stored.pif)) = some pif ∧
        accounts.get .short =
          restoredAccount (newAccount config (lastOpenPrice .short) .short) stored.read pif := by
  simp only [restoreAccounts, Option.bind_eq_bind, Option.pure_def, Option.bind_eq_some_iff,
    Option.some.injEq, Prod.mk.injEq, Prod.exists] at restores
  obtain ⟨_, _, restoresLong, _, _, restoresShort, rfl, rfl⟩ := restores
  have inRange := loopStored.inRange .long stored present
  have nameFree := loopStored.nameFree .long
  have holdsFigures := stored.holdsFigures inRange nameFree loopStored.symbolFree
  have holds : writer.Holds (stored.entry nameFree loopStored.symbolFree) := by
    refine ⟨loopStored.enabled, ?_⟩
    have value := loopStored.stored .long
    rwa [present] at value
  have pif : readDouble (stored.entry nameFree loopStored.symbolFree).pif =
    some (roundTo 6 stored.pif) := readDouble_doubleText _
  rw [restore_holds (newAccount config (lastOpenPrice .long) .long) (by rfl) holds holdsFigures,
    pif] at restoresLong
  cases restoresLong
  have sameKey : keyToRead (newAccount config (lastOpenPrice .short) .short) =
      (restoredEntry (stored.entry nameFree loopStored.symbolFree) stored.read
        (roundTo 6 stored.pif)).key :=
    congrArg (positionKey · config.symbolName) shared.symm
  rw [restore_holds _ sameKey (restoredWriter_holds loopStored.enabled _ _ _)
    (holdsFigures.restored _)] at restoresShort
  obtain ⟨pif, reads, restored⟩ := Option.map_eq_some_iff.mp restoresShort
  cases restored
  exact ⟨(restoredWriter_holds (restoredWriter_holds loopStored.enabled _ _ _).enabled
    _ _ _).enabled, pif, reads, rfl⟩

/-! ## A pass without callbacks -/

/-- The replies still to come bring no callbacks, and accounts and store are
as they were. -/
structure Undisturbed (accounts : TradeAccounts) (writer : RedisWriter) (context : Context) :
    Prop where
  quiet : ∀ reply ∈ context.replies, reply.callbacks = []
  holding : ∀ side, SameHolding (accounts.get side) (context.inst.accounts.get side)
  redisWriter : context.inst.redisWriter = writer

theorem SameHolding.trans {first second third : TradeAccount} (one : SameHolding first second)
    (two : SameHolding second third) : SameHolding first third where
  accountType := two.accountType.trans one.accountType
  accountName := two.accountName.trans one.accountName
  symbol := two.symbol.trans one.symbol
  divisor := two.divisor.trans one.divisor
  total := two.total.trans one.total
  average := two.average.trans one.average
  rif := two.rif.trans one.rif
  pif := two.pif.trans one.pif
  totalExecuted := two.totalExecuted.trans one.totalExecuted

theorem sameHolding_modifyAccount (inst : TradeInstance) (side : OrderAccountType)
    {f : TradeAccount → TradeAccount} (same : ∀ account, SameHolding account (f account))
    (other : OrderAccountType) :
    SameHolding (inst.accounts.get other) ((inst.modifyAccount side f).accounts.get other) := by
  have refl (account : TradeAccount) : SameHolding account account :=
    ⟨rfl, rfl, rfl, rfl, rfl, rfl, rfl, rfl, rfl⟩
  cases side <;> cases other
  · exact same _
  · exact refl _
  · exact refl _
  · exact same _

theorem undisturbed_frame (accounts : TradeAccounts) (writer : RedisWriter) :
    LoopFrame (Preserves (Undisturbed accounts writer)) where
  nextReply := by
    intro context undisturbed
    change Undisturbed accounts writer
      ((context.takeReply.1.callbacks.foldl Context.onCallback context.takeReply.2))
    have quiet := undisturbed.quiet
    cases replies : context.replies with
    | nil =>
        simp only [Context.takeReply, replies]
        exact undisturbed
    | cons reply rest =>
        rw [replies, List.forall_mem_cons] at quiet
        simp only [Context.takeReply, replies, quiet.1]
        exact ⟨quiet.2, undisturbed.holding, undisturbed.redisWriter⟩
  record event := fun context undisturbed =>
    ⟨undisturbed.quiet, undisturbed.holding, undisturbed.redisWriter⟩
  modifyAccount side f same := fun context undisturbed =>
    { quiet := undisturbed.quiet
      holding := fun other =>
        (undisturbed.holding other).trans (sameHolding_modifyAccount context.inst side same other)
      redisWriter := undisturbed.redisWriter }
  modifyInst f same := fun context undisturbed =>
    { quiet := undisturbed.quiet
      holding := fun side => by
        change SameHolding _ ((f context.inst).accounts.get side)
        rw [(same context.inst).1]
        exact undisturbed.holding side
      redisWriter := (same context.inst).2.1.trans undisturbed.redisWriter }
  crash := fun _ undisturbed =>
    { quiet := undisturbed.quiet
      holding := undisturbed.holding
      redisWriter := undisturbed.redisWriter }

/-- A pass without callbacks and without a soft close writes back the positions it
started with, the long account's first. -/
theorem step_pass_writes {context : Context} {quote : Quote} {replies : List Reply}
    (running : context.Running) (quiet : ∀ reply ∈ replies, reply.callbacks = [])
    (mode : context.modes.isSoftClose = false) (held : context.modes.held ≠ some .softClose)
    (positive : 0 < (context.inst.readSymbolData quote).priceEstimate) :
    ∃ ends : TradeAccounts,
      (∀ side, SameHolding (context.inst.accounts.get side) (ends.get side)) ∧
        (context.step (.pass quote replies)).inst.redisWriter =
          writePosition (ends.get .short)
            (writePosition (ends.get .long) context.inst.redisWriter) := by
  have frame := undisturbed_frame context.inst.accounts context.inst.redisWriter
  have start : Undisturbed context.inst.accounts context.inst.redisWriter
      (context.quoted quote replies) :=
    ⟨quiet, fun side => ⟨rfl, rfl, rfl, rfl, rfl, rfl, rfl, rfl, rfl⟩, rfl⟩
  let selected := (selection.run (context.quoted quote replies)).2
  have ends : Undisturbed _ _ (runCase.run selected).2 :=
    (frame.selection.bind fun _ => frame.runCase) _ start
  have notSoft : ∀ case ∈ selected.inst.tradeCase, case.type ≠ .softClose :=
    selection_notSoft mode held
  have alive : (runCase.run selected).2.inst.crashed = false :=
    (runCase_crashed fun case member soft => absurd soft (notSoft case member)).trans
      ((crashed_selectionFrame.selection (context.quoted quote replies)).trans running.2.2)
  have written : (writeBack (runCase.run selected).2.inst).redisWriter =
      (writePositions (runCase.run selected).2.inst).redisWriter := by
    unfold writeBack
    rw [if_neg (ne_true_of_eq_false alive)]
    rfl
  refine ⟨_, ends.holding, ?_⟩
  rw [Context.step_pass running positive, ← ends.redisWriter]
  exact written

/-! ## What comes back -/

/-- The position stored under a key. -/
def storedPosition (writer : RedisWriter) (key : Text) : Option Position :=
  (writer.store key).bind parseStem1Value

/-- Two stored positions read as the same quantity, price, round and price in
force and executed shares. -/
structure SameFigures (before after : Position) : Prop where
  quantity : after.quantity = before.quantity
  price : readDouble after.price = readDouble before.price
  rif : after.rif = before.rif
  pif : readDouble after.pif = readDouble before.pif
  totalExecutedShares : after.totalExecutedShares = before.totalExecutedShares

instance (before after : Position) : Decidable (SameFigures before after) :=
  decidable_of_iff
    (after.quantity = before.quantity ∧ readDouble after.price = readDouble before.price ∧
      after.rif = before.rif ∧ readDouble after.pif = readDouble before.pif ∧
        after.totalExecutedShares = before.totalExecutedShares)
    ⟨fun ⟨quantity, price, rif, pif, totalExecutedShares⟩ =>
      { quantity, price, rif, pif, totalExecutedShares },
    fun same => ⟨same.quantity, same.price, same.rif, same.pif, same.totalExecutedShares⟩⟩

/-- A stored position comes back with the figures it had. -/
def ComesBack (key : Text) (before after : RedisWriter) : Prop :=
  ∃ position ∈ storedPosition before key, ∃ written ∈ storedPosition after key,
    SameFigures position written

instance (key : Text) (before after : RedisWriter) : Decidable (ComesBack key before after) :=
  inferInstanceAs (Decidable (∃ _ ∈ _, ∃ _ ∈ _, _))

theorem comesBack_iff {key : Text} {before after : RedisWriter} {position written : Position}
    (stored : storedPosition before key = some position)
    (writes : storedPosition after key = some written) :
    ComesBack key before after ↔ SameFigures position written := by
  simp [ComesBack, stored, writes]

namespace Figures

/-- The figures as the position they are parsed to. -/
def position (figures : Figures) (user symbol : Text) : Position where
  type := equity
  reserved := []
  account := user
  underlier := symbol
  root := symbol
  expiration := []
  strike := []
  quantity := intText figures.quantity
  putOrCall := []
  price := doubleText figures.average
  rif := natText figures.rif
  pif := doubleText figures.pif
  liveSharesBuy := intText figures.liveBuy
  liveSharesSell := intText figures.liveSell
  totalExecutedShares := intText figures.totalExecuted

theorem parseStem1Value_text (figures : Figures) {user symbol : Text} (userFree : ',' ∉ user)
    (symbolFree : ',' ∉ symbol) :
    parseStem1Value (figures.text user symbol) = some (figures.position user symbol) :=
  (figures.entry userFree symbolFree).parseStem1Value_text

end Figures

theorem sameFigures_iff {stored written : Figures} {user symbol : Text}
    (quantity : written.quantity = stored.quantity) (rif : written.rif = stored.rif)
    (totalExecuted : written.totalExecuted = stored.totalExecuted) :
    SameFigures (stored.position user symbol) (written.position user symbol) ↔
      roundTo 6 written.average = roundTo 6 stored.average ∧
        roundTo 6 written.pif = roundTo 6 stored.pif := by
  constructor
  · intro same
    have price := same.price
    have pif := same.pif
    simp only [Figures.position, readDouble_doubleText, Option.some.injEq] at price pif
    exact ⟨price, pif⟩
  · rintro ⟨price, pif⟩
    constructor
    · exact congrArg intText quantity
    · simp only [Figures.position, readDouble_doubleText, price]
    · exact congrArg natText rif
    · simp only [Figures.position, readDouble_doubleText, pif]
    · exact congrArg intText totalExecuted

section WriteBack

variable {account : TradeAccount} {writer : RedisWriter} (enabled : writer.isRedisEnabled = true)

include enabled

theorem writePosition_enabled : (writePosition account writer).isRedisEnabled = true := by
  rw [writePosition_eq account enabled]
  exact enabled

theorem storedPosition_writePosition (userFree : ',' ∉ account.accountName)
    (symbolFree : ',' ∉ account.symbol) :
    storedPosition (writePosition account writer) (keyToRead account) =
      some ((figuresOf account).position account.accountName account.symbol) := by
  rw [writePosition_eq account enabled, storedPosition, RedisWriter.set]
  simp only [if_true, Option.bind_some]
  exact Figures.parseStem1Value_text _ userFree symbolFree

theorem storedPosition_writePosition_of_ne {key : Text} (different : key ≠ keyToRead account) :
    storedPosition (writePosition account writer) key = storedPosition writer key := by
  rw [writePosition_eq account enabled, storedPosition, RedisWriter.set]
  simp only [if_neg different]
  rfl

end WriteBack

/-- The figures the loop writes for a restored account whose table is empty. -/
theorem figuresOf_restored {config : Config} {lastOpenPrice : ℚ} {side : OrderAccountType}
    {stored : Figures} {pif : ℚ} {account : TradeAccount}
    (same : SameHolding
      (restoredAccount (newAccount config lastOpenPrice side) stored.read pif) account) :
    (figuresOf account).quantity = stored.quantity ∧ (figuresOf account).average = 0 ∧
      (figuresOf account).rif = stored.rif ∧ (figuresOf account).pif = pif ∧
        (figuresOf account).totalExecuted = stored.totalExecuted := by
  refine ⟨?_, ?_, same.rif, same.pif, same.totalExecuted⟩
  · change signedQuantity account.accountType account.total = _
    rw [same.accountType, same.total]
    cases side with
    | long => rfl
    | short => exact (neg_one_mul (-1 * stored.quantity)).trans (by omega)
  · exact same.average.trans (by cases side <;> rfl)

/-- The account whose position a key holds after a pass. -/
def Config.lastWriter (config : Config) (side : OrderAccountType) : OrderAccountType :=
  if config.longAccountName = config.shortAccountName then .short else side

/-- Under a shared name the price in force is printed and read once more,
before the second account restores it. -/
def PifPrintsBack (config : Config) (stored : Figures) : Prop :=
  config.longAccountName = config.shortAccountName →
    (readDouble (ostreamText (roundTo 6 stored.pif))).map (roundTo 6) = some (roundTo 6 stored.pif)

/-- A position stored under a shared key is that of both accounts. -/
theorem LoopStored.of_shared {config : Config} {writer : RedisWriter}
    {figures : OrderAccountType → Option Figures} (loopStored : LoopStored config writer figures)
    (shared : config.longAccountName = config.shortAccountName) {side : OrderAccountType}
    {stored : Figures} (present : figures side = some stored) :
    LoopStored config writer fun _ => some stored where
  enabled := loopStored.enabled
  nameFree := loopStored.nameFree
  symbolFree := loopStored.symbolFree
  inRange _ _ := by
    rintro ⟨⟩
    exact loopStored.inRange side stored present
  stored other := by
    have value := loopStored.stored side
    have sameName : config.accountName other = config.accountName side := by
      cases side <;> cases other
      · rfl
      · exact shared.symm
      · exact shared
      · rfl
    rw [present] at value
    rw [Config.key, sameName]
    exact value

theorem restoreAccounts_lastWriter {config : Config} {lastOpenPrice : OrderAccountType → ℚ}
    {writer after : RedisWriter} {accounts : TradeAccounts}
    {figures : OrderAccountType → Option Figures} (loopStored : LoopStored config writer figures)
    (restores : restoreAccounts config lastOpenPrice writer = some (accounts, after))
    {side : OrderAccountType} {stored : Figures} (present : figures side = some stored) :
    after.isRedisEnabled = true ∧ ∃ pif,
      (roundTo 6 pif = roundTo 6 stored.pif ↔ PifPrintsBack config stored) ∧
        accounts.get (config.lastWriter side) =
          restoredAccount
            (newAccount config (lastOpenPrice (config.lastWriter side)) (config.lastWriter side))
            stored.read pif := by
  by_cases shared : config.longAccountName = config.shortAccountName
  · obtain ⟨enabled, pif, reads, restored⟩ :=
      restoreAccounts_shared (loopStored.of_shared shared present) shared rfl restores
    refine ⟨enabled, pif, ?_, ?_⟩
    · simp [PifPrintsBack, shared, reads]
    · rw [Config.lastWriter, if_pos shared]
      exact restored
  · obtain ⟨enabled, restored⟩ := restoreAccounts_distinct loopStored shared restores
    refine ⟨enabled, roundTo 6 stored.pif, ?_, ?_⟩
    · simp [PifPrintsBack, shared, roundTo_idem]
    · rw [Config.lastWriter, if_neg shared]
      exact restored side stored present

/-- After both write-backs a key holds the position of the account that
writes it last. -/
theorem storedPosition_writeBack {config : Config} {writer : RedisWriter}
    {accounts : OrderAccountType → TradeAccount} (enabled : writer.isRedisEnabled = true)
    (name : ∀ side, (accounts side).accountName = config.accountName side)
    (symbol : ∀ side, (accounts side).symbol = config.symbolName)
    (nameFree : ∀ side, ',' ∉ config.accountName side) (symbolFree : ',' ∉ config.symbolName)
    (side : OrderAccountType) :
    storedPosition (writePosition (accounts .short) (writePosition (accounts .long) writer))
        (config.key side) =
      some ((figuresOf (accounts (config.lastWriter side))).position (config.accountName side)
        config.symbolName) := by
  have key (side : OrderAccountType) : keyToRead (accounts side) = config.key side := by
    rw [keyToRead, name, symbol, Config.key]
  have written (side : OrderAccountType) {writer : RedisWriter}
      (enabled : writer.isRedisEnabled = true) :
      storedPosition (writePosition (accounts side) writer) (config.key side) =
        some ((figuresOf (accounts side)).position (config.accountName side)
          config.symbolName) := by
    rw [← key, ← name, ← symbol side]
    exact storedPosition_writePosition enabled (by rw [name]; exact nameFree side)
      (by rw [symbol]; exact symbolFree)
  have enabledLong : (writePosition (accounts .long) writer).isRedisEnabled = true :=
    writePosition_enabled enabled
  by_cases shared : config.longAccountName = config.shortAccountName
  · have sameName : config.accountName side = config.accountName .short := by
      cases side with
      | long => exact shared
      | short => rfl
    rw [Config.lastWriter, if_pos shared, Config.key, sameName]
    exact written .short enabledLong
  · rw [Config.lastWriter, if_neg shared]
    cases side with
    | long =>
        have different : config.key .long ≠ keyToRead (accounts .short) := by
          rw [key]
          exact Config.key_injective shared
        rw [storedPosition_writePosition_of_ne enabledLong different]
        exact written .long enabled
    | short => exact written .short enabledLong

/-- What a pass needs of the constructor: the restored accounts and store, and
that the trading thread is enabled, with no case and no close mode. -/
theorem restores_of_construct {config : Config} {uninitialized : Uninitialized}
    {writer : RedisWriter} {context : Context}
    (constructs : TradeInstance.construct config uninitialized writer = some context.inst) :
    restoreAccounts config uninitialized.lastOpenPrice writer =
        some (context.inst.accounts, context.inst.redisWriter) ∧
      context.Running ∧ context.modes.isSoftClose = false ∧ context.modes.held = none := by
  obtain ⟨⟨accounts, after⟩, restores, same⟩ := Option.map_eq_some_iff.mp constructs
  unfold Context.Running Context.modes
  rw [← same]
  exact ⟨restores, ⟨rfl, rfl, rfl⟩, rfl, rfl⟩

/-- Whatever the loop has stored for an account, a new instance and a pass
without callbacks keep the stored figures exactly when the average was zero
and the price in force survives its printing under a shared name. -/
theorem restart_comesBack_iff {config : Config} {uninitialized : Uninitialized}
    {writer : RedisWriter} {figures : OrderAccountType → Option Figures} {context : Context}
    (loopStored : LoopStored config writer figures)
    (constructs : TradeInstance.construct config uninitialized writer = some context.inst)
    {side : OrderAccountType} {stored : Figures} (present : figures side = some stored)
    {quote : Quote} {replies : List Reply} (quiet : ∀ reply ∈ replies, reply.callbacks = [])
    (positive : 0 < (context.inst.readSymbolData quote).priceEstimate) :
    ComesBack (config.key side) writer (context.step (.pass quote replies)).inst.redisWriter ↔
      roundTo 6 stored.average = 0 ∧ PifPrintsBack config stored := by
  obtain ⟨restores, running, mode, noCase⟩ := restores_of_construct constructs
  obtain ⟨enabled, pif, prints, restored⟩ :=
    restoreAccounts_lastWriter loopStored restores present
  obtain ⟨ends, holding, wrote⟩ :=
    step_pass_writes running quiet mode (noCase ▸ nofun) positive
  have name (side : OrderAccountType) : (ends.get side).accountName = config.accountName side :=
    (holding side).accountName.trans (restoreAccounts_get restores side).accountName
  have symbol (side : OrderAccountType) : (ends.get side).symbol = config.symbolName :=
    (holding side).symbol.trans (restoreAccounts_get restores side).symbol
  have before : storedPosition writer (config.key side) =
      some (stored.position (config.accountName side) config.symbolName) := by
    rw [storedPosition, loopStored.stored, present]
    exact stored.parseStem1Value_text (loopStored.nameFree side) loopStored.symbolFree
  have written := storedPosition_writeBack enabled name symbol loopStored.nameFree
    loopStored.symbolFree side
  have same := holding (config.lastWriter side)
  rw [restored] at same
  obtain ⟨quantity, average, rif, samePif, totalExecuted⟩ := figuresOf_restored same
  have zero : roundTo 6 0 = 0 := by
    decide +kernel
  rw [wrote, comesBack_iff before written, sameFigures_iff quantity rif totalExecuted, average,
    samePif, prints, zero, eq_comm]

/-! ## Ten lots -/

/-- Ten lots with an average. -/
def tenLots (average : ℚ) : Figures where
  quantity := 10
  average := average
  rif := 100
  pif := 21 / 4
  liveBuy := 0
  liveSell := 0
  totalExecuted := 10

/-- A store in which the loop has written ten lots for the long account. -/
def storedTenLots (average : ℚ) : RedisWriter :=
  RedisWriter.set { isRedisEnabled := true, store := fun _ => none } (Config.key .roundLots .long)
    ((tenLots average).text ['L'] ['X'])

theorem loopStored_tenLots (average : ℚ) :
    LoopStored .roundLots (storedTenLots average) fun side =>
      if side = .long then some (tenLots average) else none where
  enabled := rfl
  nameFree side := by
    cases side <;> decide
  symbolFree := by
    decide
  inRange := by
    rintro (long | short) stored ⟨⟩
    constructor <;> simp [tenLots]
  stored := by
    rintro (long | short) <;> rfl

theorem restart_comesBack_tenLots :
    ∃ inst, TradeInstance.construct .roundLots .zero (storedTenLots 0) = some inst ∧
      ComesBack (Config.key .roundLots .long) (storedTenLots 0)
        (Context.step { inst, replies := [], log := [] }
          (.pass (.around 5) [])).inst.redisWriter := by
  have isSome : (TradeInstance.construct .roundLots .zero (storedTenLots 0)).isSome = true := by
    decide +kernel
  obtain ⟨inst, constructs⟩ := Option.isSome_iff_exists.mp isSome
  have estimate : 0 < (inst.readSymbolData (.around 5)).priceEstimate := by
    simp [TradeInstance.readSymbolData, Quote.around]
  refine ⟨inst, constructs, (restart_comesBack_iff (loopStored_tenLots 0)
    (by exact constructs) rfl (List.forall_mem_nil _) (by exact estimate)).mpr ⟨?_, nofun⟩⟩
  decide +kernel

/-- Ten lots with an average of 5.25 come back without it. -/
theorem not_comesBack_tenLots :
    LoopStored .roundLots (storedTenLots (21 / 4))
        (fun side => if side = .long then some (tenLots (21 / 4)) else none) ∧
      ∃ inst, TradeInstance.construct .roundLots .zero (storedTenLots (21 / 4)) = some inst ∧
        ¬ ComesBack (Config.key .roundLots .long) (storedTenLots (21 / 4))
          (Context.step { inst, replies := [], log := [] }
            (.pass (.around 5) [])).inst.redisWriter := by
  refine ⟨loopStored_tenLots _, ?_⟩
  have stays : (TradeInstance.construct .roundLots .zero (storedTenLots (21 / 4))).map (fun inst =>
      decide (ComesBack (Config.key .roundLots .long) (storedTenLots (21 / 4))
        (Context.step { inst, replies := [], log := [] }
          (.pass (.around 5) [])).inst.redisWriter)) = some false := by
    decide +kernel
  obtain ⟨inst, constructs, lost⟩ := Option.map_eq_some_iff.mp stays
  exact ⟨inst, constructs, of_decide_eq_false lost⟩

end TradingApp.Instance
