import TradingApp.Instance.Recovery
import TradingApp.Redis.Keyspace
import TradingApp.Text.Significant

/-!
# Instances on one store

The program has an instance for each user and symbol, and all of them keep their
positions in one store.  A pass writes the long account's position and then the
short one's, and in between other instances run, callbacks arrive, or the program
is killed.  Only the store outlives it, and the constructors of the next program
read it again.

However often that happens, what an account starts with is what was written of
it last.  Its price in force is the exception: a constructor prints it once more,
with six significant digits.

Orders, trade cases and tables are in the store too, under keys with separators of
their own.  They are left out here, as they leave the positions of plain names alone.
A crash of an instance ends the program, so that what the others do after it and
before the next kill is more than they can.
-/

namespace TradingApp.Instance

open TradingApp.Account TradingApp.Decimal TradingApp.Redis TradingApp.Transition

/-! ## A pass and its writes -/

/-- One pass up to its writes, and the accounts it has to write. -/
def work (quote : Quote) : CaseM (List OrderAccountType) := do
  modifyInst fun inst => inst.readSymbolData quote
  if (← getInst).priceEstimate ≤ 0 then return []
  else
    let _ ← selection
    runCase
    if (← getInst).crashed then return [] else return [.long, .short]

/-- Write one account's position. -/
def TradeInstance.write (inst : TradeInstance) (side : OrderAccountType) : TradeInstance :=
  { inst with redisWriter := writePosition (inst.accounts.get side) inst.redisWriter }

/-- Write the positions that are due, and then the entry of the held case. -/
def TradeInstance.writeDue (inst : TradeInstance) : List OrderAccountType → TradeInstance
  | [] => inst
  | [side] => writeHeldCase (inst.write side)
  | side :: due => (inst.write side).writeDue due

/-- A pass is its work with the writes at once. -/
theorem run_pass_eq_work (quote : Quote) (context : Context) :
    ((pass quote).run context).2 =
      ((work quote).run context).2.mapInst (·.writeDue ((work quote).run context).1) := by
  unfold pass work
  rw [run_modifyInst_bind, run_getInst_bind, run_modifyInst_bind, run_getInst_bind]
  generalize context.mapInst (fun inst => inst.readSymbolData quote) = context
  split
  · rfl
  · rw [run_bind, run_bind, run_bind, run_bind]
    generalize (runCase.run (selection.run context).2).2 = ran
    change ran.mapInst writeBack = _
    rw [run_getInst_bind]
    unfold writeBack Context.mapInst
    split
    · rename_i crashed
      dsimp only
      rw [if_pos crashed]
      rfl
    · rename_i alive
      dsimp only
      rw [if_neg alive]
      rfl

/-- The work of a pass stores nothing. -/
theorem work_filed (quote : Quote) : Keeps (Unchanged Context.filed) (work quote) := by
  unfold work
  refine .bind (filed_frame.modifyInst _ fun _ => ⟨rfl, rfl, rfl⟩) fun _ => ?_
  refine keeps_getInst.bind fun inst => ?_
  apply Keeps.ite
  · intro _
    exact keeps_pure _
  · intro _
    refine filed_frame.selection.bind fun _ => filed_frame.runCase.bind fun _ => ?_
    exact keeps_getInst.bind fun _ => .ite (fun _ => keeps_pure _) fun _ => keeps_pure _

theorem work_due (quote : Quote) (context : Context) :
    ((work quote).run context).1 = [] ∨ ((work quote).run context).1 = [.long, .short] := by
  unfold work
  rw [run_modifyInst_bind, run_getInst_bind]
  split
  · exact Or.inl rfl
  · rw [run_bind, run_bind, run_getInst_bind]
    split
    · exact Or.inl rfl
    · exact Or.inr rfl

/-! ## The program -/

universe u

/-- The settings of each instance.  No two accounts share a position. -/
structure Settings (ι : Type u) where
  config : ι → Config
  nameFree : ∀ i side, ',' ∉ (config i).accountName side
  symbolFree : ∀ i, ',' ∉ (config i).symbolName
  key_injective : Function.Injective fun at_ : ι × OrderAccountType => (config at_.1).key at_.2

/-- Records of other kinds leave the positions of plain names alone. -/
theorem Config.store_key (config : Config) {side : OrderAccountType}
    (plainName : ∀ c ∈ config.accountName side, IsPlain c)
    (plainSymbol : ∀ c ∈ config.symbolName, IsPlain c) {call : StoreCall} {kind : Kind}
    (writes : call.kind = some kind) (other : kind ≠ .position) (keyspace : Keyspace) :
    (keyspace.step call).strings.store (config.key side) =
      keyspace.strings.store (config.key side) :=
  strings_step_position writes other ⟨_, plainName⟩ ⟨_, plainSymbol⟩

/-- A constructed instance, and the accounts its trading thread is about to write. -/
structure Slot where
  context : Context
  due : List OrderAccountType

namespace Slot

/-- What can happen to an instance, with the writes of a pass left to be made. -/
def step (slot : Slot) : Label → Slot
  | .pass quote replies =>
      if slot.due = [] ∧ slot.context.Running then
        let worked := (work quote).run { slot.context with replies }
        { context := worked.2, due := worked.1 }
      else slot
  | .callback callback => { slot with context := slot.context.step (.callback callback) }
  | .enablePanicClose => { slot with context := slot.context.step .enablePanicClose }
  | .disablePanicClose => { slot with context := slot.context.step .disablePanicClose }
  | .enableSoftClose => { slot with context := slot.context.step .enableSoftClose }
  | .disableSoftClose => { slot with context := slot.context.step .disableSoftClose }
  | .resume => { slot with context := slot.context.step .resume }
  | .pause => { slot with context := slot.context.step .pause }
  | .avicennaToggle => { slot with context := slot.context.step .avicennaToggle }
  | .stopAction replies => { slot with context := slot.context.step (.stopAction replies) }

/-- Only a pass waits for writes. -/
theorem step_of_not_pass (slot : Slot) {label : Label}
    (notPass : ∀ quote replies, label ≠ .pass quote replies) :
    slot.step label = { slot with context := slot.context.step label } := by
  cases label with
  | pass quote replies => exact absurd rfl (notPass quote replies)
  | callback | stopAction | enablePanicClose | disablePanicClose | enableSoftClose
  | disableSoftClose | resume | pause | avicennaToggle => rfl

/-- The next write; the entry of the held case comes with the last one. -/
def write (slot : Slot) : Slot :=
  match slot.due with
  | [] => slot
  | [side] =>
      { context := slot.context.mapInst fun inst => writeHeldCase (inst.write side), due := [] }
  | side :: due => { context := slot.context.mapInst (·.write side), due }

/-- Apart from the position that is written, only a crash is noted. -/
theorem write_cons (context : Context) (side : OrderAccountType) (due : List OrderAccountType) :
    ∃ crashed, ({ context, due := side :: due } : Slot).write =
      { context := context.mapInst fun inst => { inst.write side with crashed }, due } := by
  cases due with
  | nil => exact ⟨_, rfl⟩
  | cons => exact ⟨context.inst.crashed, rfl⟩

/-- The instance with a store that others have changed. -/
def onStore (slot : Slot) (writer : RedisWriter) : Slot :=
  { slot with context := slot.context.mapInst fun inst => { inst with redisWriter := writer } }

theorem step_pass_write_write {slot : Slot} (idle : slot.due = []) (quote : Quote)
    (replies : List Reply) :
    (slot.step (.pass quote replies)).write.write =
      { context := slot.context.step (.pass quote replies), due := [] } := by
  by_cases running : slot.context.Running
  · rw [step, if_pos ⟨idle, running⟩, ← Context.act_pass, Context.act, if_pos running,
      Context.exec, run_pass_eq_work]
    rcases work_due quote { slot.context with replies } with none | both
    · rw [none]
      dsimp only
      rw [none]
      rfl
    · rw [both]
      dsimp only
      rw [both]
      rfl
  · rw [step, if_neg fun both => running both.2, Context.step_pass_of_not running]
    cases slot
    cases idle
    rfl

end Slot

/-- The constructed instances, and the store. -/
structure Program (ι : Type u) where
  slots : ι → Option Slot
  redisWriter : RedisWriter

namespace Program

variable {ι : Type u}

/-- A step of the program. -/
inductive Label (ι : Type u) where
  | construct (i : ι) (uninitialized : Uninitialized)
  | step (i : ι) (label : Instance.Label)
  | write (i : ι)
  | kill

/-- Only the store is left. -/
def kill (program : Program ι) : Program ι :=
  { program with slots := fun _ => none }

variable [DecidableEq ι]

/-- Replace an instance, with what it wrote. -/
def put (program : Program ι) (i : ι) (slot : Slot) : Program ι where
  slots := Function.update program.slots i (some slot)
  redisWriter := slot.context.inst.redisWriter

/-- Something happens to an instance, on the store as it is. -/
def onSlot (program : Program ι) (i : ι) (f : Slot → Slot) : Program ι :=
  match program.slots i with
  | none => program
  | some slot => program.put i (f (slot.onStore program.redisWriter))

/-- An instance is constructed once; an exception in a constructor ends the
program. -/
def step (settings : Settings ι) (program : Program ι) : Label ι → Program ι
  | .construct i uninitialized =>
      match program.slots i with
      | some _ => program
      | none =>
          match TradeInstance.construct (settings.config i) uninitialized program.redisWriter with
          | none => program.kill
          | some inst => program.put i { context := { inst, replies := [], log := [] }, due := [] }
  | .step i label => program.onSlot i (·.step label)
  | .write i => program.onSlot i .write
  | .kill => program.kill

@[simp]
theorem put_slots_self (program : Program ι) (i : ι) (slot : Slot) :
    (program.put i slot).slots i = some slot :=
  Function.update_self ..

theorem put_slots_of_ne (program : Program ι) {i j : ι} (slot : Slot) (different : j ≠ i) :
    (program.put i slot).slots j = program.slots j :=
  Function.update_of_ne different ..

/-- What happens next to an instance happens to what it was left as. -/
theorem onSlot_put (program : Program ι) (i : ι) (slot : Slot) (f : Slot → Slot) :
    (program.put i slot).onSlot i f = program.put i (f slot) := by
  have same : slot.onStore (program.put i slot).redisWriter = slot := rfl
  rw [onSlot, put_slots_self]
  dsimp only
  rw [same, put, put, Program.mk.injEq]
  exact ⟨Function.update_idem .., rfl⟩

/-- A pass whose writes follow at once is the pass of the instance. -/
theorem run_pass_writes (settings : Settings ι) {program : Program ι} {i : ι} {slot : Slot}
    (constructed : program.slots i = some slot) (idle : slot.due = []) (quote : Quote)
    (replies : List Reply) :
    run (step settings) program [.step i (.pass quote replies), .write i, .write i] =
      program.put i
        { context := (slot.onStore program.redisWriter).context.step (.pass quote replies)
          due := [] } := by
  have visits : program.onSlot i (·.step (.pass quote replies)) =
      program.put i ((slot.onStore program.redisWriter).step (.pass quote replies)) := by
    rw [onSlot, constructed]
  change ((program.onSlot i (·.step (.pass quote replies))).onSlot i .write).onSlot i .write = _
  rw [visits, onSlot_put, onSlot_put]
  exact congrArg (program.put i) (Slot.step_pass_write_write (by exact idle) quote replies)

end Program

/-! ## What was written last -/

/-- An account as it was written last, and whether a constructor has read that
since. -/
structure Filed where
  account : TradeAccount
  read : Bool

namespace Filed

/-- The price in force that the store has for the account. -/
def pif (filed : Filed) : ℚ :=
  if filed.read then roundSignificant (roundTo 6 filed.account.pif)
  else roundTo 6 filed.account.pif

/-- After a constructor has read it. -/
def again (filed : Filed) : Filed :=
  { filed with read := true }

/-- Once read, it does not change any more. -/
theorem pif_again (filed : Filed) : filed.again.pif = roundSignificant filed.pif := by
  unfold pif again
  cases filed.read with
  | false => rfl
  | true => exact (roundSignificant_idem _).symm

/-- The account that a constructor makes of it. -/
structure StartsWith (filed : Filed) (account : TradeAccount) : Prop where
  total : account.total = filed.account.total
  totalExecuted : account.totalExecuted = filed.account.totalExecuted
  rif : account.rif = filed.account.rif
  pif : account.pif = filed.pif
  average : account.average = roundTo 6 filed.account.getAverage
  lots : account.positionTable.records = []

end Filed

/-- The store has what was written of an account last, and nothing if nothing
was. -/
def StoredAs (config : Config) (side : OrderAccountType) (writer : RedisWriter) :
    Option Filed → Prop
  | none => writer.store (config.key side) = none
  | some filed => filed.account.accountType = side ∧
      ∃ entry : Entry, entry.key = config.key side ∧ writer.Holds entry ∧
        HoldsFigures entry (figuresOf filed.account).read ∧ readDouble entry.pif = some filed.pif

/-- Only the account's own key matters. -/
theorem StoredAs.congr {config : Config} {side : OrderAccountType} {writer after : RedisWriter}
    {filed : Option Filed} (storedAs : StoredAs config side writer filed)
    (enabled : after.isRedisEnabled = true)
    (same : after.store (config.key side) = writer.store (config.key side)) :
    StoredAs config side after filed := by
  cases filed with
  | none => exact same.trans storedAs
  | some filed =>
      obtain ⟨own, entry, key, holds, figures, pif⟩ := storedAs
      refine ⟨own, entry, key, ⟨enabled, ?_⟩, figures, pif⟩
      rw [key, same, ← key]
      exact holds.stored

/-- What an account starts with. -/
def Starts (config : Config) (lastOpenPrice : ℚ) (side : OrderAccountType) :
    Option Filed → TradeAccount → Prop
  | none, account => account = newAccount config lastOpenPrice side
  | some filed, account => filed.StartsWith account

theorem startsWith_restoredAccount {filed : Filed} {side : OrderAccountType}
    (own : filed.account.accountType = side) (config : Config) (lastOpenPrice : ℚ) :
    filed.StartsWith (restoredAccount (newAccount config lastOpenPrice side)
      (figuresOf filed.account).read filed.pif) := by
  have recovers : Recovers filed.account
      (restoredAccount (newAccount config lastOpenPrice side) (figuresOf filed.account).read
        (roundTo 6 (figuresOf filed.account).pif)) :=
    recovers_restoredAccount own lastOpenPrice
  constructor
  · exact recovers.total
  · exact recovers.totalExecuted
  · exact recovers.rif
  · rfl
  · exact recovers.average
  · exact recovers.lots

/-- Restoring an account leaves in the store what a constructor has read. -/
theorem storedAs_restored {config : Config} {side : OrderAccountType} {writer : RedisWriter}
    {filed : Filed} {entry : Entry} (enabled : writer.isRedisEnabled = true)
    (own : filed.account.accountType = side) (key : entry.key = config.key side)
    (figures : HoldsFigures entry (figuresOf filed.account).read) :
    StoredAs config side
      (restoredWriter writer entry (figuresOf filed.account).read filed.pif)
      (some filed.again) := by
  refine ⟨own, restoredEntry entry (figuresOf filed.account).read filed.pif, key,
    restoredWriter_holds enabled entry _ filed.pif, figures.restored filed.pif, ?_⟩
  rw [Filed.pif_again]
  exact readDouble_ostreamText filed.pif

/-- Restoring one account gives what was written of it, and leaves the keys of
all others as they are. -/
theorem restore_storedAs {config : Config} {side : OrderAccountType} {writer : RedisWriter}
    {filed : Option Filed} (enabled : writer.isRedisEnabled = true)
    (storedAs : StoredAs config side writer filed) (lastOpenPrice : ℚ) :
    ∃ account after,
      restore (newAccount config lastOpenPrice side) writer = some (account, after) ∧
        Starts config lastOpenPrice side filed account ∧
          StoredAs config side after (filed.map .again) ∧ after.isRedisEnabled = true ∧
            ∀ other, other ≠ config.key side → after.store other = writer.store other := by
  cases filed with
  | none =>
      have missing : writer.readKeyFromRedis (config.key side) = nonexistentKey := by
        rw [RedisWriter.readKeyFromRedis, if_pos enabled, show writer.store _ = none from storedAs]
        rfl
      refine ⟨newAccount config lastOpenPrice side, writer, ?_, rfl, storedAs, enabled,
        fun _ _ => rfl⟩
      rw [restore, keyToRead_newAccount, if_pos missing]
  | some filed =>
      obtain ⟨own, entry, key, holds, figures, pif⟩ := storedAs
      have restores := restore_holds (newAccount config lastOpenPrice side)
        ((keyToRead_newAccount config lastOpenPrice side).trans key.symm) holds figures
      rw [pif] at restores
      have after := restoredWriter_holds enabled entry (figuresOf filed.account).read filed.pif
      refine ⟨_, _, restores, startsWith_restoredAccount own config lastOpenPrice,
        storedAs_restored enabled own key figures, after.enabled, fun other different => ?_⟩
      rw [← key] at different
      exact restoredWriter_store_of_ne writer _ _ different

/-- So does constructing both. -/
theorem construct_storedAs {config : Config} {writer : RedisWriter}
    {filed : OrderAccountType → Option Filed} (enabled : writer.isRedisEnabled = true)
    (distinct : config.key .long ≠ config.key .short)
    (storedAs : ∀ side, StoredAs config side writer (filed side))
    (uninitialized : Uninitialized) :
    ∃ inst, TradeInstance.construct config uninitialized writer = some inst ∧
      (∀ side, Starts config (uninitialized.lastOpenPrice side) side (filed side)
        (inst.accounts.get side)) ∧
      (∀ side, StoredAs config side inst.redisWriter ((filed side).map .again)) ∧
      ∀ other, (∀ side, other ≠ config.key side) →
        inst.redisWriter.store other = writer.store other := by
  obtain ⟨longAcc, afterLong, restoresLong, startsLong, storedLong, enabledLong, othersLong⟩ :=
    restore_storedAs enabled (storedAs .long) (uninitialized.lastOpenPrice .long)
  have short := (storedAs .short).congr enabledLong (othersLong _ distinct.symm)
  obtain ⟨shortAcc, after, restoresShort, startsShort, storedShort, enabledShort, othersShort⟩ :=
    restore_storedAs enabledLong short (uninitialized.lastOpenPrice .short)
  have restores : restoreAccounts config uninitialized.lastOpenPrice writer =
      some ({ longAcc, shortAcc }, after) := by
    simp only [restoreAccounts, restoresLong, restoresShort, Option.bind_eq_bind,
      Option.bind_some, Option.pure_def]
  refine ⟨_, congrArg (Option.map _) restores, ?_, ?_, fun other different => ?_⟩
  · rintro (long | short)
    · exact startsLong
    · exact startsShort
  · rintro (long | short)
    · exact storedLong.congr enabledShort (othersShort _ distinct)
    · exact storedShort
  · exact (othersShort _ (different .short)).trans (othersLong _ (different .long))

/-- Writing an account's position files it, and leaves the keys of all others as
they are. -/
theorem writePosition_storedAs {config : Config} {side : OrderAccountType} {writer : RedisWriter}
    {account : TradeAccount} (enabled : writer.isRedisEnabled = true)
    (nameFree : ',' ∉ config.accountName side) (symbolFree : ',' ∉ config.symbolName)
    (filing : (account.accountType, account.accountName, account.symbol) =
      (side, config.accountName side, config.symbolName))
    (inRange : (figuresOf account).InRange) :
    StoredAs config side (writePosition account writer) (some { account, read := false }) ∧
      ∀ other, other ≠ config.key side →
        (writePosition account writer).store other = writer.store other := by
  obtain ⟨own, rest⟩ := Prod.mk.inj filing
  obtain ⟨name, symbol⟩ := Prod.mk.inj rest
  have key : keyToRead account = config.key side := by
    rw [keyToRead, name, symbol, Config.key]
  rw [writePosition_eq account enabled, key, name, symbol]
  constructor
  · refine ⟨own, (figuresOf account).entry nameFree symbolFree, rfl, ⟨enabled, ?_⟩,
      (figuresOf account).holdsFigures inRange nameFree symbolFree, readDouble_doubleText _⟩
    exact RedisWriter.set_store_self _ _ _
  · intro other different
    exact RedisWriter.set_store_of_ne _ _ different

/-! ## Runs of the program -/

instance (figures : Figures) : Decidable figures.InRange :=
  decidable_of_iff
    ((-2 ^ 63 ≤ figures.quantity ∧ figures.quantity < 2 ^ 63) ∧ figures.rif < 2 ^ 32 ∧
      -2 ^ 63 ≤ figures.totalExecuted ∧ figures.totalExecuted < 2 ^ 63)
    ⟨fun fits => ⟨fits.1, fits.2.1, fits.2.2⟩,
      fun inRange => ⟨inRange.quantity, inRange.rif, inRange.totalExecuted⟩⟩

/-- Nothing but a write of its own changes how an instance is filed. -/
theorem Slot.step_filed (slot : Slot) (label : Label) :
    (slot.step label).context.filed = slot.context.filed := by
  by_cases isPass : ∃ quote replies, label = .pass quote replies
  · obtain ⟨quote, replies, rfl⟩ := isPass
    rw [Slot.step]
    split
    · exact work_filed quote { slot.context with replies }
    · rfl
  · have notPass : ∀ quote replies, label ≠ .pass quote replies :=
      fun quote replies is => isPass ⟨quote, replies, is⟩
    rw [slot.step_of_not_pass notPass]
    exact filed_step slot.context notPass

namespace Program

variable {ι : Type u}

/-- What an instance writes next. -/
def nextWrite (program : Program ι) (i : ι) : Option (OrderAccountType × TradeAccount) :=
  (program.slots i).bind fun slot =>
    slot.due.head?.map fun side => (side, slot.context.inst.accounts.get side)

/-- The figures that a step writes fit their types. -/
def WritesInRange (program : Program ι) : Label ι → Prop
  | .write i => ∀ next ∈ program.nextWrite i, (figuresOf next.2).InRange
  | .construct _ _ | .step _ _ | .kill => True

instance (program : Program ι) : (label : Label ι) → Decidable (program.WritesInRange label)
  | .write i => inferInstanceAs (Decidable (∀ next ∈ program.nextWrite i, _))
  | .construct _ _ | .step _ _ | .kill => inferInstanceAs (Decidable True)

variable [DecidableEq ι]

/-- What was written last of each account. -/
def lastFiled (written : ι → OrderAccountType → Option Filed) (program : Program ι) :
    Label ι → ι → OrderAccountType → Option Filed
  | .construct i _ =>
      match program.slots i with
      | some _ => written
      | none => Function.update written i fun side => (written i side).map .again
  | .write i =>
      match program.nextWrite i with
      | none => written
      | some (side, account) =>
          Function.update written i
            (Function.update (written i) side (some { account, read := false }))
  | .step _ _ | .kill => written

variable {settings : Settings ι} {program : Program ι}
  {written : ι → OrderAccountType → Option Filed}

/-- Every instance is filed under its own names, and the store has what was
written last. -/
structure Kept (settings : Settings ι) (program : Program ι)
    (written : ι → OrderAccountType → Option Filed) : Prop where
  enabled : program.redisWriter.isRedisEnabled = true
  filing : ∀ i, ∀ slot ∈ program.slots i, ∀ side,
    accountFiling slot.context.inst.accounts side =
      (side, (settings.config i).accountName side, (settings.config i).symbolName)
  storedAs : ∀ i side, StoredAs (settings.config i) side program.redisWriter (written i side)

namespace Kept

/-- The filing of an instance that is put in its place. -/
theorem filing_put (kept : Kept settings program written) {i : ι} {next : Slot}
    (filing : ∀ side, accountFiling next.context.inst.accounts side =
      (side, (settings.config i).accountName side, (settings.config i).symbolName)) (j : ι) :
    ∀ slot ∈ (program.put i next).slots j, ∀ side,
      accountFiling slot.context.inst.accounts side =
        (side, (settings.config j).accountName side, (settings.config j).symbolName) := by
  intro slot member
  by_cases same : j = i
  · subst same
    rw [put_slots_self, Option.mem_some_iff] at member
    rw [← member]
    exact filing
  · rw [put_slots_of_ne program next same] at member
    exact kept.filing j slot member

omit [DecidableEq ι] in
/-- Different accounts have different keys. -/
theorem key_ne (settings : Settings ι) {i j : ι} {side other : OrderAccountType}
    (different : (i, side) ≠ (j, other)) :
    (settings.config i).key side ≠ (settings.config j).key other :=
  fun same => different (settings.key_injective same)

/-- What leaves the store as it is. -/
theorem put (kept : Kept settings program written) {i : ι} {slot next : Slot}
    (constructed : program.slots i = some slot)
    (same : next.context.filed = (slot.onStore program.redisWriter).context.filed) :
    Kept settings (program.put i next) written := by
  obtain ⟨writer, filing⟩ := Prod.mk.inj same
  have sameWriter : (program.put i next).redisWriter = program.redisWriter := writer
  constructor
  · rw [sameWriter]
    exact kept.enabled
  · apply kept.filing_put
    intro side
    exact (congrFun filing side).trans (kept.filing i slot constructed side)
  · rw [sameWriter]
    exact kept.storedAs

omit [DecidableEq ι] in
theorem kill (kept : Kept settings program written) :
    Kept settings program.kill written where
  enabled := kept.enabled
  filing _ _ member := absurd member (Option.not_mem_none _)
  storedAs := kept.storedAs

/-- A new instance reads what was written of its accounts. -/
theorem construct (kept : Kept settings program written) {i : ι}
    (absent : program.slots i = none) (uninitialized : Uninitialized) :
    Kept settings (program.step settings (.construct i uninitialized))
      (lastFiled written program (.construct i uninitialized)) := by
  have different : (settings.config i).key .long ≠ (settings.config i).key .short :=
    key_ne settings (by simp)
  obtain ⟨inst, constructs, _, stored, others⟩ :=
    construct_storedAs kept.enabled different (kept.storedAs i) uninitialized
  have enabled : inst.redisWriter.isRedisEnabled = true :=
    (construct_isRedisEnabled constructs).trans kept.enabled
  have steps : program.step settings (.construct i uninitialized) =
      program.put i { context := { inst, replies := [], log := [] }, due := [] } := by
    rw [step, absent]
    dsimp only
    rw [constructs]
  have files : lastFiled written program (.construct i uninitialized) =
      Function.update written i fun side => (written i side).map .again := by
    rw [lastFiled, absent]
  rw [steps, files]
  constructor
  · exact enabled
  · apply kept.filing_put
    intro side
    have book := (construct_books constructs).2 side
    change ((inst.accounts.get side).accountType, (inst.accounts.get side).accountName,
      (inst.accounts.get side).symbol) = _
    rw [book.accountType, book.accountName, book.symbol]
    rfl
  · intro j side
    by_cases same : j = i
    · subst same
      rw [Function.update_self]
      exact stored side
    · rw [Function.update_of_ne same]
      refine (kept.storedAs j side).congr enabled (others _ fun other => key_ne settings ?_)
      exact fun both => same (Prod.mk.inj both).1

/-- An instance writes the next of its accounts. -/
theorem write (kept : Kept settings program written) {i : ι}
    (inRange : program.WritesInRange (.write i)) :
    Kept settings (program.step settings (.write i)) (lastFiled written program (.write i)) := by
  cases found : program.slots i with
  | none =>
      have steps : program.step settings (.write i) = program := by
        rw [step, onSlot, found]
      have files : lastFiled written program (.write i) = written := by
        rw [lastFiled, nextWrite, found]
        rfl
      rw [steps, files]
      exact kept
  | some slot =>
      obtain ⟨context, due⟩ := slot
      cases due with
      | nil =>
          have steps : program.step settings (.write i) =
              program.put i ({ context, due := [] : Slot }.onStore program.redisWriter) := by
            rw [step, onSlot, found]
            rfl
          have files : lastFiled written program (.write i) = written := by
            rw [lastFiled, nextWrite, found]
            rfl
          rw [steps, files]
          exact kept.put found rfl
      | cons side due =>
          let account := context.inst.accounts.get side
          have next : program.nextWrite i = some (side, account) := by
            rw [nextWrite, found]
            rfl
          have filing := kept.filing i _ found
          have enabled : program.redisWriter.isRedisEnabled = true := kept.enabled
          obtain ⟨stored, others⟩ := writePosition_storedAs enabled (settings.nameFree i side)
            (settings.symbolFree i) (filing side) (inRange _ next)
          let onStore := context.mapInst fun inst =>
            { inst with redisWriter := program.redisWriter }
          obtain ⟨crashed, writes⟩ := Slot.write_cons onStore side due
          have steps : program.step settings (.write i) = program.put i
              { context := onStore.mapInst fun inst => { inst.write side with crashed }, due } := by
            rw [step, onSlot, found, ← writes]
            rfl
          have files : lastFiled written program (.write i) =
              Function.update written i
                (Function.update (written i) side (some { account, read := false })) := by
            rw [lastFiled, next]
          rw [steps, files]
          have enabledAfter : (writePosition account program.redisWriter).isRedisEnabled = true :=
            writePosition_enabled enabled
          constructor
          · exact enabledAfter
          · exact kept.filing_put filing
          · intro j other
            by_cases same : (j, other) = (i, side)
            · obtain ⟨rfl, rfl⟩ := Prod.mk.inj same
              rw [Function.update_self, Function.update_self]
              exact stored
            · have kept := (kept.storedAs j other).congr enabledAfter
                (others _ (key_ne settings same))
              by_cases sameInstance : j = i
              · subst sameInstance
                have otherSide : other ≠ side := fun sameSide => same (by rw [sameSide])
                rw [Function.update_self, Function.update_of_ne otherSide]
                exact kept
              · rw [Function.update_of_ne sameInstance]
                exact kept

/-- Whatever happens, the store keeps what was written last. -/
theorem step (kept : Kept settings program written) {label : Label ι}
    (inRange : program.WritesInRange label) :
    Kept settings (program.step settings label) (lastFiled written program label) := by
  cases label with
  | construct i uninitialized =>
      cases found : program.slots i with
      | none => exact kept.construct found uninitialized
      | some slot =>
          have steps : program.step settings (.construct i uninitialized) = program := by
            rw [Program.step, found]
          have files : lastFiled written program (.construct i uninitialized) = written := by
            rw [lastFiled, found]
          rw [steps, files]
          exact kept
  | step i label =>
      cases found : program.slots i with
      | none =>
          have steps : program.step settings (.step i label) = program := by
            rw [Program.step, onSlot, found]
          rw [steps]
          exact kept
      | some slot =>
          have steps : program.step settings (.step i label) =
              program.put i ((slot.onStore program.redisWriter).step label) := by
            rw [Program.step, onSlot, found]
          rw [steps]
          exact kept.put found (Slot.step_filed _ label)
  | write i => exact kept.write inRange
  | kill => exact kept.kill

end Kept

/-- No instance is constructed. -/
def empty (writer : RedisWriter) : Program ι where
  slots _ := none
  redisWriter := writer

/-- Whatever the instances do, in whatever order they write and however often the
program is killed, a constructor always succeeds, and each of its accounts starts
with what was written of it last. -/
theorem everyState_restarts (settings : Settings ι) {writer : RedisWriter}
    (enabled : writer.isRedisEnabled = true)
    (nothing : ∀ i side, writer.store ((settings.config i).key side) = none)
    {labels : List (Label ι)}
    (inRange : EveryStep (recording (step settings) lastFiled)
      (fun state label => state.1.WritesInRange label) (empty writer, fun _ _ => none) labels) :
    EveryState (recording (step settings) lastFiled)
      (fun state => ∀ i uninitialized, ∃ inst,
        TradeInstance.construct (settings.config i) uninitialized state.1.redisWriter =
            some inst ∧
          ∀ side, Starts (settings.config i) (uninitialized.lastOpenPrice side) side
            (state.2 i side) (inst.accounts.get side))
      (empty writer, fun _ _ => none) labels := by
  have start : Kept settings (empty writer) fun _ _ => none := by
    constructor
    · exact enabled
    · exact fun _ _ member => absurd member (Option.not_mem_none _)
    · exact nothing
  have kept : EveryState (recording (step settings) lastFiled)
      (fun state => Kept settings state.1 state.2) (empty writer, fun _ _ => none) labels :=
    everyState_of_everyStep (fun _ _ kept inRange => kept.step inRange) start inRange
  refine kept.mono fun state kept i uninitialized => ?_
  have different : (settings.config i).key .long ≠ (settings.config i).key .short :=
    Kept.key_ne settings (by simp)
  obtain ⟨inst, constructs, starts, _⟩ :=
    construct_storedAs kept.enabled different (kept.storedAs i) uninitialized
  exact ⟨inst, constructs, starts⟩

/-! ## Two symbols -/

/-- Two instances of a user. -/
def twoSymbols : Settings Bool where
  config first := { Config.roundLots with symbolName := if first then ['X'] else ['Y'] }
  nameFree first side := by
    cases first <;> cases side <;> decide
  symbolFree := by decide
  key_injective := by
    rintro ⟨first, side⟩ ⟨other, otherSide⟩ same
    cases first <;> cases other <;> cases side <;> cases otherSide
    all_goals first | rfl | exact absurd same (by decide)

/-- The first is killed between its two writes, and both start again. -/
def killedBetween : List (Label Bool) :=
  [.construct true .zero, .construct false .zero, .step true (.pass (.around 10) []),
    .step false (.pass (.around 20) []), .write true, .kill, .construct true .zero,
    .construct false .zero]

theorem everyState_restarts_twoSymbols :
    EveryState (recording (step twoSymbols) lastFiled)
      (fun state => ∀ i uninitialized, ∃ inst,
        TradeInstance.construct (twoSymbols.config i) uninitialized state.1.redisWriter =
            some inst ∧
          ∀ side, Starts (twoSymbols.config i) (uninitialized.lastOpenPrice side) side
            (state.2 i side) (inst.accounts.get side))
      (empty nothingStored, fun _ _ => none) killedBetween :=
  everyState_restarts twoSymbols rfl (fun _ _ => rfl) (by decide +kernel)

end Program

end TradingApp.Instance
