import TradingApp.Redis.Updates
import TradingApp.Transition.SharedRecord

/-!
# The record of an order

An order's record is written once, after the order is acknowledged.  The times
of its execution, change and cancellation are put into it later, each by a
call that reads the record under the store's lock, and writes it back under
the lock taken once more.  The trading thread and the gateway's thread make
these calls, so they may overlap, and one may come before the record is there.
-/

namespace TradingApp.Redis

open TradingApp.Transition

/-- The fields of a stored order. -/
structure RedisOrderInfo where
  symbol : Text
  size : Text
  price : Text
  type : Text
  executionTime : Text
  ackTime : Text
  changeTime : Text
  cancelTime : Text
deriving DecidableEq

/-- The times that are written later. -/
inductive OrderTime where
  | execution
  | change
  | cancel
deriving DecidableEq, Repr

namespace RedisOrderInfo

/-- The value of an order. -/
def value (info : RedisOrderInfo) : Text :=
  [','].intercalate
    [info.symbol, info.size, info.price, info.type, info.executionTime, info.ackTime,
      info.changeTime, info.cancelTime]

/-- One of the three times of an order. -/
def time (info : RedisOrderInfo) : OrderTime → Text
  | .execution => info.executionTime
  | .change => info.changeTime
  | .cancel => info.cancelTime

/-- Set one of the three times. -/
def setTime (info : RedisOrderInfo) (which : OrderTime) (time : Text) : RedisOrderInfo :=
  match which with
  | .execution => { info with executionTime := time }
  | .change => { info with changeTime := time }
  | .cancel => { info with cancelTime := time }

end RedisOrderInfo

/-- The key of a user's order. -/
def orderKey (user requestId : Text) : Text :=
  user ++ ',' :: requestId

/-- Split a value into the fields of an order. -/
def parseRedisOrderInfo (value : Text) : Option RedisOrderInfo :=
  match value.splitOn ',' with
  | symbol :: size :: price :: type :: executionTime :: ackTime :: changeTime :: cancelTime :: _ =>
      some { symbol, size, price, type, executionTime, ackTime, changeTime, cancelTime }
  | _ => none

namespace RedisWriter

/-- The whole entry of an order is stored. -/
def writeOrderInfoToRedis (writer : RedisWriter) (user requestId : Text) (info : RedisOrderInfo) :
    RedisWriter :=
  if writer.isRedisEnabled then writer.set (orderKey user requestId) info.value else writer

/-- What an update does with the value it has read. -/
def rewriteOrder (writer : RedisWriter) (user requestId : Text) (which : OrderTime)
    (time result : Text) : Option RedisWriter :=
  (parseRedisOrderInfo result).map fun info =>
    writer.writeOrderInfoToRedis user requestId (info.setTime which time)

/-- An update with no other call in between. -/
def updateOrderTime (which : OrderTime) (writer : RedisWriter) (user requestId time : Text) :
    Option RedisWriter :=
  let result := writer.readKeyFromRedis (orderKey user requestId)
  if !writer.isRedisEnabled || result = nonexistentKey then some writer
  else writer.rewriteOrder user requestId which time result

/-- `updateOrderTime` for the order's execution. -/
def updateOrderExecTime : RedisWriter → Text → Text → Text → Option RedisWriter :=
  updateOrderTime .execution

/-- `updateOrderTime` for the order's change. -/
def updateOrderChangeTime : RedisWriter → Text → Text → Text → Option RedisWriter :=
  updateOrderTime .change

/-- `updateOrderTime` for the order's cancellation. -/
def updateOrderCancleTime : RedisWriter → Text → Text → Text → Option RedisWriter :=
  updateOrderTime .cancel

end RedisWriter

/-! ## Calls of several threads -/

/-- Where a call stands. -/
inductive CallPhase where
  | called
  | read (result : Text)
  | returned
deriving DecidableEq, Repr

/-- A call for one of the times. -/
structure OrderCall where
  which : OrderTime
  time : Field
deriving DecidableEq

/-- The fields that `open` and `close` write first; the times of execution,
change and cancellation are empty. -/
structure OpenedOrder where
  user : Text
  requestId : Text
  symbol : Field
  size : Field
  price : Field
  type : Field
  ackTime : Field

namespace OpenedOrder

/-- The key of the order. -/
def key (order : OpenedOrder) : Text :=
  orderKey order.user order.requestId

/-- The entry of an order that has just been acknowledged. -/
def info (order : OpenedOrder) : RedisOrderInfo where
  symbol := order.symbol
  size := order.size
  price := order.price
  type := order.type
  executionTime := []
  ackTime := order.ackTime
  changeTime := []
  cancelTime := []

end OpenedOrder

/-- The store, whether the order has been written, and the calls. -/
structure OrderStore (ι : Type) where
  writer : RedisWriter
  opened : Bool
  phase : ι → CallPhase

namespace OrderStore

open SharedRecord (Label)

variable {ι : Type} [DecidableEq ι] (order : OpenedOrder) (calls : ι → OrderCall)

/-- The order has not been written, and no call has made a step. -/
def start (writer : RedisWriter) : OrderStore ι where
  writer := writer
  opened := false
  phase _ := .called

/-- The order is written, or a call makes its next step: it reads the value
and returns if there is none, or it writes the value back. -/
def step (store : OrderStore ι) : Label ι → OrderStore ι
  | .create =>
      if store.opened then store
      else
        { store with
          writer := store.writer.writeOrderInfoToRedis order.user order.requestId order.info
          opened := true }
  | .advance call =>
      match store.phase call with
      | .called =>
          let result := store.writer.readKeyFromRedis order.key
          let next := if result = nonexistentKey then .returned else .read result
          { store with phase := Function.update store.phase call next }
      | .read result =>
          { store with
            writer :=
              (store.writer.rewriteOrder order.user order.requestId (calls call).which
                (calls call).time result).getD store.writer
            phase := Function.update store.phase call .returned }
      | .returned => store

/-- The order has been written and all calls have returned. -/
def Complete (store : OrderStore ι) : Prop :=
  store.opened = true ∧ ∀ call, store.phase call = .returned

/-- The stored order has the time of a call for each time that was updated,
and is otherwise as it was written first. -/
def Recorded (store : OrderStore ι) : Prop :=
  ∃ info, parseRedisOrderInfo (store.writer.readKeyFromRedis order.key) = some info ∧
    info.symbol = order.symbol ∧ info.size = order.size ∧ info.price = order.price ∧
    info.type = order.type ∧ info.ackTime = order.ackTime ∧
    ∀ which, (∃ call, (calls call).which = which ∧ info.time which = (calls call).time) ∨
      (∀ call, (calls call).which ≠ which) ∧ info.time which = []

/-- A call reads the order after it was first written, and while no call for
another time is between reading and writing. -/
def ReadsAlone (store : OrderStore ι) : Label ι → Prop
  | .create => True
  | .advance call =>
      store.phase call = .called →
        store.opened = true ∧
          ∀ other result, store.phase other = .read result →
            (calls other).which = (calls call).which

/-- A call whose steps follow each other is an update. -/
theorem advance_advance {store : OrderStore ι} (enabled : store.writer.isRedisEnabled = true)
    {call : ι} (phase : store.phase call = .called) :
    let once := step order calls store (.advance call)
    let last := step order calls once (.advance call)
    last.phase call = .returned ∧
      last.writer =
        (RedisWriter.updateOrderTime (calls call).which store.writer order.user order.requestId
          (calls call).time).getD store.writer := by
  have used : (!store.writer.isRedisEnabled) = false := by
    rw [enabled]
    rfl
  have once : step order calls store (.advance call) =
      { store with
        phase := Function.update store.phase call
          (if store.writer.readKeyFromRedis order.key = nonexistentKey then .returned
          else .read (store.writer.readKeyFromRedis order.key)) } := by
    simp only [step, phase]
  dsimp only
  rw [once]
  unfold RedisWriter.updateOrderTime
  change _ ∧ _ = Option.getD (if !store.writer.isRedisEnabled ||
    decide (store.writer.readKeyFromRedis order.key = nonexistentKey) then _ else _) _
  rw [used, Bool.false_or]
  by_cases missing : store.writer.readKeyFromRedis order.key = nonexistentKey
  · rw [if_pos missing, if_pos (decide_eq_true missing)]
    simp only [step, Function.update_self, Option.getD_some, and_self]
  · rw [if_neg missing, if_neg (by simpa using missing)]
    simp only [step, Function.update_self, true_and]
    rfl

/-! ## The shared record -/

end OrderStore

/-- The fields of an order's record. -/
inductive OrderField where
  | symbol
  | size
  | price
  | type
  | ackTime
  | time (which : OrderTime)
deriving DecidableEq, Repr

/-- The fields of an order as a structure. -/
def RedisOrderInfo.ofRecord (record : OrderField → Field) : RedisOrderInfo where
  symbol := record .symbol
  size := record .size
  price := record .price
  type := record .type
  executionTime := record (.time .execution)
  ackTime := record .ackTime
  changeTime := record (.time .change)
  cancelTime := record (.time .cancel)

/-- The record that is written first. -/
def OpenedOrder.record (order : OpenedOrder) : OrderField → Field
  | .symbol => order.symbol
  | .size => order.size
  | .price => order.price
  | .type => order.type
  | .ackTime => order.ackTime
  | .time _ => ⟨[], List.not_mem_nil⟩

namespace RedisOrderInfo

/-- Splitting the value of a record gives back its fields. -/
theorem parse_value (record : OrderField → Field) :
    parseRedisOrderInfo (ofRecord record).value = some (ofRecord record) := by
  have commaFree : ∀ field ∈ [record .symbol, record .size, record .price, record .type,
      record (.time .execution), record .ackTime, record (.time .change),
      record (.time .cancel)].map Subtype.val, ',' ∉ field := by
    intro field member
    obtain ⟨free, _, rfl⟩ := List.mem_map.mp member
    exact free.property
  have split : (ofRecord record).value.splitOn ',' = _ :=
    List.splitOn_intercalate ',' commaFree (List.cons_ne_nil _ _)
  rw [parseRedisOrderInfo, split]

theorem value_ne_nonexistentKey (record : OrderField → Field) :
    (ofRecord record).value ≠ nonexistentKey := by
  intro same
  have parses := parse_value record
  rw [same] at parses
  have fails : parseRedisOrderInfo nonexistentKey = none := by decide +kernel
  exact nomatch fails.symm.trans parses

/-- Setting a time sets a field of the record. -/
theorem setTime_ofRecord (record : OrderField → Field) (which : OrderTime) (time : Field) :
    (ofRecord record).setTime which time =
      ofRecord (Function.update record (.time which) time) := by
  cases which <;> rfl

end RedisOrderInfo

/-- A call that has read a record has read its value. -/
def CallPhase.ofPhase : SharedRecord.Phase OrderField Field → CallPhase
  | .called => .called
  | .read record => .read (RedisOrderInfo.ofRecord record).value
  | .returned => .returned

namespace CallPhase

variable {phase : SharedRecord.Phase OrderField Field}

theorem ofPhase_eq_called_iff : ofPhase phase = .called ↔ phase = .called := by
  cases phase <;> simp [ofPhase]

theorem ofPhase_eq_returned_iff : ofPhase phase = .returned ↔ phase = .returned := by
  cases phase <;> simp [ofPhase]

theorem ofPhase_eq_read_iff :
    (∃ result, ofPhase phase = .read result) ↔ ∃ record, phase = .read record := by
  cases phase <;> simp [ofPhase]

end CallPhase

namespace OrderCall

/-- The field a call sets. -/
def field (call : OrderCall) : OrderField :=
  .time call.which

end OrderCall

namespace OrderStore

open SharedRecord (Label Shared Phase)

variable {ι : Type} {order : OpenedOrder} {calls : ι → OrderCall}

/-- The store and the calls stand as a shared record does. -/
structure Represents (order : OpenedOrder) (store : OrderStore ι)
    (shared : Shared ι OrderField Field) : Prop where
  enabled : store.writer.isRedisEnabled = true
  opened : store.opened = shared.record.isSome
  stored : store.writer.store order.key =
    shared.record.map fun record => (RedisOrderInfo.ofRecord record).value
  phase : store.phase = fun call => CallPhase.ofPhase (shared.phase call)
  exists_record : ∀ call record, shared.phase call = .read record → shared.record.isSome

theorem represents_start {writer : RedisWriter} (enabled : writer.isRedisEnabled = true)
    (absent : writer.store order.key = none) :
    Represents order (start writer : OrderStore ι) SharedRecord.start :=
  ⟨enabled, rfl, absent, rfl, nofun⟩

variable {store : OrderStore ι} {shared : Shared ι OrderField Field}

theorem Represents.reads (represents : Represents order store shared) :
    store.writer.readKeyFromRedis order.key =
      (shared.record.map fun record => (RedisOrderInfo.ofRecord record).value).getD
        nonexistentKey := by
  rw [RedisWriter.readKeyFromRedis, if_pos represents.enabled, represents.stored]

/-- Writing a record's value. -/
theorem Represents.writeOrderInfoToRedis (represents : Represents order store shared)
    (record : OrderField → Field) :
    let writer := store.writer.writeOrderInfoToRedis order.user order.requestId
      (RedisOrderInfo.ofRecord record)
    writer.isRedisEnabled = true ∧
      writer.store order.key = some (RedisOrderInfo.ofRecord record).value := by
  unfold RedisWriter.writeOrderInfoToRedis
  rw [if_pos represents.enabled]
  exact ⟨represents.enabled, RedisWriter.set_store_self _ _ _⟩

variable [DecidableEq ι]

/-- The phases stay related when one of them changes. -/
theorem ofPhase_update (call : ι) (next : Phase OrderField Field) :
    Function.update (fun call => CallPhase.ofPhase (shared.phase call)) call (.ofPhase next) =
      fun other => CallPhase.ofPhase (Function.update shared.phase call next other) := by
  funext other
  rw [Function.update_apply, Function.update_apply]
  split <;> rfl

theorem Represents.step (represents : Represents order store shared) (label : Label ι) :
    Represents order (step order calls store label)
      (SharedRecord.step order.record (fun call => (calls call).field)
        (fun call => (calls call).time) shared label) := by
  cases label with
  | create =>
      cases record : shared.record with
      | none =>
          have closed : store.opened = false := by rw [represents.opened, record]; rfl
          obtain ⟨enabled, stored⟩ := represents.writeOrderInfoToRedis order.record
          rw [OrderStore.step, if_neg (by rw [closed]; exact Bool.false_ne_true),
            SharedRecord.step, record]
          exact ⟨enabled, rfl, stored, represents.phase, fun _ _ _ => rfl⟩
      | some present =>
          have opened : store.opened = true := by rw [represents.opened, record]; rfl
          rw [OrderStore.step, if_pos opened, SharedRecord.step_create_some record]
          exact represents
  | advance call =>
      have phase : store.phase call = CallPhase.ofPhase (shared.phase call) :=
        congrFun represents.phase call
      cases sharedPhase : shared.phase call with
      | called =>
          rw [sharedPhase] at phase
          have reads := represents.reads
          cases record : shared.record with
          | none =>
              rw [record] at reads
              have missing : store.writer.readKeyFromRedis order.key = nonexistentKey := reads
              rw [SharedRecord.step_called_none sharedPhase record]
              simp only [OrderStore.step, phase, CallPhase.ofPhase, missing, if_true]
              refine ⟨represents.enabled, represents.opened, represents.stored, ?_, ?_⟩
              · rw [represents.phase]
                exact ofPhase_update call .returned
              · intro reader snapshot reads
                rcases SharedRecord.update_phase_iff.mp reads with ⟨_, same⟩ | ⟨_, reads⟩
                · cases same
                · exact represents.exists_record reader snapshot reads
          | some present =>
              rw [record] at reads
              have found : store.writer.readKeyFromRedis order.key =
                  (RedisOrderInfo.ofRecord present).value := reads
              rw [SharedRecord.step_called_some sharedPhase record]
              simp only [OrderStore.step, phase, CallPhase.ofPhase, found,
                RedisOrderInfo.value_ne_nonexistentKey, if_false]
              refine ⟨represents.enabled, represents.opened, represents.stored, ?_, ?_⟩
              · rw [represents.phase]
                exact ofPhase_update call (.read present)
              · exact fun _ _ _ => Option.isSome_iff_exists.mpr ⟨present, record⟩
      | read record =>
          rw [sharedPhase] at phase
          rw [SharedRecord.step_read sharedPhase]
          simp only [OrderStore.step, phase, CallPhase.ofPhase, RedisWriter.rewriteOrder,
            RedisOrderInfo.parse_value, Option.map_some, Option.getD_some,
            RedisOrderInfo.setTime_ofRecord]
          obtain ⟨enabled, stored⟩ := represents.writeOrderInfoToRedis
            (Function.update record (calls call).field (calls call).time)
          refine ⟨enabled, ?_, stored, ?_, fun _ _ _ => rfl⟩
          · rw [represents.opened, represents.exists_record call record sharedPhase]
            rfl
          · rw [represents.phase]
            exact ofPhase_update call .returned
      | returned =>
          rw [sharedPhase] at phase
          rw [SharedRecord.step_returned sharedPhase]
          simp only [OrderStore.step, phase, CallPhase.ofPhase]
          exact represents

/-- Whatever is stored, writing the order first leaves its record. -/
theorem represents_create {writer : RedisWriter} (enabled : writer.isRedisEnabled = true) :
    Represents order (OrderStore.step order calls (start writer) .create)
      (SharedRecord.step order.record (fun call => (calls call).field)
        (fun call => (calls call).time) SharedRecord.start .create) := by
  change Represents order
    { start (writer.writeOrderInfoToRedis order.user order.requestId order.info) with
      opened := true } _
  unfold RedisWriter.writeOrderInfoToRedis
  rw [if_pos enabled]
  exact ⟨enabled, rfl, RedisWriter.set_store_self _ _ _, rfl, nofun⟩

omit [DecidableEq ι] in
theorem Represents.complete_iff (represents : Represents order store shared) :
    Complete store ↔ SharedRecord.Complete shared := by
  have phases (call : ι) :
      store.phase call = .returned ↔ shared.phase call = .returned := by
    rw [represents.phase, CallPhase.ofPhase_eq_returned_iff]
  unfold Complete SharedRecord.Complete
  rw [represents.opened]
  exact and_congr_right fun _ => forall_congr' phases

omit [DecidableEq ι] in
/-- A call reads alone if it starts alone on the record. -/
theorem Represents.readsAlone_iff (represents : Represents order store shared)
    (label : Label ι) :
    ReadsAlone calls store label ↔
      SharedRecord.StartsAlone (fun call => (calls call).field) shared label := by
  cases label with
  | create => exact Iff.rfl
  | advance call =>
      have called : store.phase call = .called ↔ shared.phase call = .called := by
        rw [represents.phase, CallPhase.ofPhase_eq_called_iff]
      have others (other : ι) :
          (∀ result, store.phase other = .read result → (calls other).which = (calls call).which) ↔
            ∀ record, shared.phase other = .read record →
              (calls other).field = (calls call).field := by
        rw [← forall_exists_index (p := fun result => store.phase other = .read result)
            (q := fun _ => (calls other).which = (calls call).which),
          ← forall_exists_index (p := fun record => shared.phase other = .read record)
            (q := fun _ => (calls other).field = (calls call).field),
          represents.phase, CallPhase.ofPhase_eq_read_iff, OrderCall.field, OrderCall.field,
          OrderField.time.injEq]
      change (store.phase call = .called → store.opened = true ∧ _) ↔
        (shared.phase call = .called → shared.record.isSome = true ∧ _)
      rw [called, represents.opened]
      exact imp_congr_right fun _ => and_congr_right fun _ => forall_congr' others

omit [DecidableEq ι] in
/-- The order is recorded if the record has kept the updates. -/
theorem Represents.recorded_iff (represents : Represents order store shared) :
    Recorded order calls store ↔
      SharedRecord.Kept order.record (fun call => (calls call).field)
        (fun call => (calls call).time) shared := by
  have reads := represents.reads
  cases record : shared.record with
  | none =>
      rw [record] at reads
      constructor
      · rintro ⟨info, parses, _⟩
        rw [reads] at parses
        have fails : parseRedisOrderInfo nonexistentKey = none := by decide +kernel
        exact nomatch fails.symm.trans parses
      · rintro ⟨present, isPresent, _⟩
        exact nomatch record.symm.trans isPresent
  | some present =>
      rw [record] at reads
      have parses : parseRedisOrderInfo (store.writer.readKeyFromRedis order.key) =
          some (RedisOrderInfo.ofRecord present) := by
        rw [reads]
        exact RedisOrderInfo.parse_value present
      have times (which : OrderTime) :
          (RedisOrderInfo.ofRecord present).time which = present (.time which) := by
        cases which <;> rfl
      constructor
      · rintro ⟨info, isInfo, symbol, size, price, type, ackTime, recorded⟩
        obtain rfl := Option.some.inj (parses.symm.trans isInfo)
        refine ⟨present, record, fun field => ?_⟩
        cases field with
        | symbol => exact Or.inr ⟨fun _ => nofun, Subtype.ext symbol⟩
        | size => exact Or.inr ⟨fun _ => nofun, Subtype.ext size⟩
        | price => exact Or.inr ⟨fun _ => nofun, Subtype.ext price⟩
        | type => exact Or.inr ⟨fun _ => nofun, Subtype.ext type⟩
        | ackTime => exact Or.inr ⟨fun _ => nofun, Subtype.ext ackTime⟩
        | time which =>
            rcases recorded which with ⟨call, isFor, written⟩ | ⟨nobody, empty⟩
            · rw [times] at written
              exact Or.inl ⟨call, congrArg OrderField.time isFor, Subtype.ext written⟩
            · rw [times] at empty
              exact Or.inr
                ⟨fun call isFor => nobody call (OrderField.time.inj isFor), Subtype.ext empty⟩
      · rintro ⟨isPresent, isRecord, kept⟩
        obtain rfl := Option.some.inj (record.symm.trans isRecord)
        have same {field : OrderField} (noTime : ∀ which, OrderField.time which ≠ field) :
            (present field : Text) = order.record field := by
          rcases kept field with ⟨call, isFor, _⟩ | ⟨_, same⟩
          · exact absurd isFor (noTime _)
          · exact congrArg Subtype.val same
        refine ⟨_, parses, same fun _ => nofun, same fun _ => nofun, same fun _ => nofun,
          same fun _ => nofun, same fun _ => nofun, fun which => ?_⟩
        rw [times]
        rcases kept (.time which) with ⟨call, isFor, written⟩ | ⟨nobody, empty⟩
        · exact Or.inl ⟨call, OrderField.time.inj isFor, congrArg Subtype.val written⟩
        · exact Or.inr ⟨fun call isFor => nobody call (congrArg OrderField.time isFor),
            congrArg Subtype.val empty⟩

/-! ## Runs -/

/-- Along a run the store and the calls stand as a shared record does. -/
theorem represents_run (related : Represents order store shared) (labels : List (Label ι)) :
    Represents order (run (OrderStore.step order calls) store labels)
      (run (SharedRecord.step order.record (fun call => (calls call).field)
        (fun call => (calls call).time)) shared labels) :=
  run_simulates (fun _ _ label related => related.step label) related labels

theorem everyStep_readsAlone_iff (related : Represents order store shared)
    (labels : List (Label ι)) :
    EveryStep (OrderStore.step order calls) (ReadsAlone calls) store labels ↔
      EveryStep (SharedRecord.step order.record (fun call => (calls call).field)
        (fun call => (calls call).time))
        (SharedRecord.StartsAlone fun call => (calls call).field) shared labels :=
  everyStep_iff_of_simulates (fun _ _ label related => related.step label)
    (fun _ _ label related => related.readsAlone_iff label) related labels

/-- When all calls read alone, writing the order is the first step. -/
theorem eq_create_of_readsAlone {writer : RedisWriter} {labels : List (Label ι)}
    (alone : EveryStep (OrderStore.step order calls) (ReadsAlone calls) (start writer) labels)
    (complete : Complete (run (OrderStore.step order calls) (start writer) labels)) :
    ∃ rest, labels = .create :: rest := by
  cases labels with
  | nil => exact absurd complete.1 Bool.false_ne_true
  | cons label rest =>
      cases label with
      | create => exact ⟨rest, rfl⟩
      | advance call => exact absurd (alone.1 rfl).1 Bool.false_ne_true

/-- Updates that read alone are not lost, whatever was stored before. -/
theorem recorded_of_readsAlone {writer : RedisWriter} (enabled : writer.isRedisEnabled = true)
    {labels : List (Label ι)}
    (alone : EveryStep (OrderStore.step order calls) (ReadsAlone calls) (start writer) labels)
    (complete : Complete (run (OrderStore.step order calls) (start writer) labels)) :
    Recorded order calls (run (OrderStore.step order calls) (start writer) labels) := by
  obtain ⟨rest, rfl⟩ := eq_create_of_readsAlone alone complete
  have created : Represents order (OrderStore.step order calls (start writer) .create) _ :=
    represents_create enabled
  have related : Represents order (run (OrderStore.step order calls) _ rest) _ :=
    represents_run created rest
  have startsAlone : EveryStep _ (SharedRecord.StartsAlone fun call => (calls call).field)
      SharedRecord.start (.create :: rest) :=
    ⟨trivial, (everyStep_readsAlone_iff created rest).mp alone.2⟩
  have kept := SharedRecord.kept_of_startsAlone order.record (fun call => (calls call).field)
    (fun call => (calls call).time) startsAlone (related.complete_iff.mp complete)
  exact related.recorded_iff.mpr kept

/-- If a store has no record of the order, each time has one call at most, and
no time is empty, updates are lost unless they all read alone. -/
theorem recorded_iff_readsAlone {writer : RedisWriter} (enabled : writer.isRedisEnabled = true)
    (absent : writer.store order.key = none)
    (distinct : Function.Injective fun call => (calls call).which)
    (times : ∀ call, (calls call).time.val ≠ []) {labels : List (Label ι)}
    (complete : Complete (run (OrderStore.step order calls) (start writer) labels)) :
    Recorded order calls (run (OrderStore.step order calls) (start writer) labels) ↔
      EveryStep (OrderStore.step order calls) (ReadsAlone calls) (start writer) labels := by
  have started : Represents order (start writer : OrderStore ι) SharedRecord.start :=
    represents_start enabled absent
  have related : Represents order (run (OrderStore.step order calls) _ labels) _ :=
    represents_run started labels
  have distinctFields : Function.Injective fun call => (calls call).field :=
    fun _ _ same => distinct (OrderField.time.inj same)
  have new (call : ι) : order.record (calls call).field ≠ (calls call).time :=
    fun same => times call (congrArg Subtype.val same).symm
  rw [related.recorded_iff, everyStep_readsAlone_iff started labels]
  exact SharedRecord.kept_iff_startsAlone order.record (fun call => (calls call).field)
    (fun call => (calls call).time) distinctFields new (related.complete_iff.mp complete)

/-- Updates that read alone are not lost.  Where each time has one call, no time
is empty and the order is new, no others are kept. -/
theorem order_updates_kept {writer : RedisWriter} (enabled : writer.isRedisEnabled = true)
    (labels : List (Label ι))
    (complete : Complete (run (OrderStore.step order calls) (start writer) labels)) :
    (EveryStep (OrderStore.step order calls) (ReadsAlone calls) (start writer) labels →
      Recorded order calls (run (OrderStore.step order calls) (start writer) labels)) ∧
    (writer.store order.key = none → (Function.Injective fun call => (calls call).which) →
      (∀ call, (calls call).time.val ≠ []) →
      (Recorded order calls (run (OrderStore.step order calls) (start writer) labels) ↔
        EveryStep (OrderStore.step order calls) (ReadsAlone calls) (start writer) labels)) :=
  ⟨fun alone => recorded_of_readsAlone enabled alone complete,
    fun absent distinct times => recorded_iff_readsAlone enabled absent distinct times complete⟩

/-- An order for ten shares. -/
def tenShares : OpenedOrder where
  user := ['L']
  requestId := ['7']
  symbol := ⟨['X'], by decide⟩
  size := ⟨['1', '0'], by decide⟩
  price := ⟨['5'], by decide⟩
  type := ⟨['O', 'B'], by decide⟩
  ackTime := ⟨['9'], by decide⟩

/-- The order is executed. -/
def executed : Unit → OrderCall
  | () => { which := .execution, time := ⟨['9'], by decide⟩ }

/-- A writer to an empty store. -/
def emptyWriter : RedisWriter where
  isRedisEnabled := true
  store _ := none

/-- The order is changed, and then executed. -/
def changedAndExecuted : Bool → OrderCall
  | false => { which := .change, time := ⟨['8'], by decide⟩ }
  | true => { which := .execution, time := ⟨['9'], by decide⟩ }

theorem order_updates_kept_tenShares :
    Recorded tenShares changedAndExecuted
      (run (OrderStore.step tenShares changedAndExecuted) (start emptyWriter)
        [.create, .advance false, .advance false, .advance true, .advance true]) := by
  let step := OrderStore.step tenShares changedAndExecuted
  let labels : List (Label Bool) :=
    [.create, .advance false, .advance false, .advance true, .advance true]
  have complete : Complete (run step (start emptyWriter) labels) := by
    refine ⟨by decide +kernel, ?_⟩
    rintro ⟨⟩
    · decide +kernel
    · decide +kernel
  have alone : EveryStep step (ReadsAlone changedAndExecuted) (start emptyWriter) labels := by
    refine ⟨trivial, fun _ => ⟨rfl, ?_⟩, fun again => absurd again (by decide +kernel),
      fun _ => ⟨by decide +kernel, ?_⟩, fun again => absurd again (by decide +kernel), trivial⟩
    · rintro ⟨⟩ result ⟨⟩
    · have changed : (run step (start emptyWriter)
          [.create, .advance false, .advance false]).phase false = .returned := by
        decide +kernel
      have waits : (run step (start emptyWriter)
          [.create, .advance false, .advance false]).phase true = .called := by
        decide +kernel
      rintro ⟨⟩ result reads
      · exact nomatch changed.symm.trans reads
      · exact nomatch waits.symm.trans reads
  have absent : emptyWriter.store tenShares.key = none := rfl
  have distinct : Function.Injective fun call => (changedAndExecuted call).which := by
    rintro ⟨⟩ ⟨⟩ same
    · rfl
    · cases same
    · cases same
    · rfl
  have times : ∀ call, (changedAndExecuted call).time.val ≠ [] := by
    decide
  exact ((order_updates_kept rfl labels complete).2 absent distinct times).mpr alone

/-- An order is done before it is written, and its execution time is lost. -/
theorem not_order_updates_kept_tenShares :
    ¬ ∀ labels : List (Label Unit),
      Complete (run (OrderStore.step tenShares executed) (start emptyWriter) labels) →
      Recorded tenShares executed
        (run (OrderStore.step tenShares executed) (start emptyWriter) labels) := by
  intro all
  have complete : Complete (run (OrderStore.step tenShares executed) (start emptyWriter)
      [.advance (), .create]) := by
    refine ⟨by decide +kernel, ?_⟩
    rintro ⟨⟩
    decide +kernel
  obtain ⟨info, parses, _, _, _, _, _, times⟩ := all _ complete
  have stored : parseRedisOrderInfo
      ((run (OrderStore.step tenShares executed) (start emptyWriter)
        [.advance (), .create]).writer.readKeyFromRedis tenShares.key) =
      some tenShares.info := by
    decide +kernel
  obtain rfl := Option.some.inj (stored.symm.trans parses)
  rcases times .execution with ⟨call, _, written⟩ | ⟨nobody, _⟩
  · exact nomatch written
  · exact nobody () rfl

end OrderStore

end TradingApp.Redis
