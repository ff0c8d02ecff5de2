import TradingApp.Threads.Calls

/-!
# No thread blocks another for good

The mutexes of an account and of a symbol are outer ones; those of tables, writers,
order hashes and stacks are inner ones, locked alone or inside the scope of an outer
one, and no thread sleeps in such a scope.  Whatever the threads are doing, those
that hold mutexes can go on until they hold none; and a callback, once begun, can be
finished without a signal from anyone.  Both fail only through an estimator whose
warm-up never ends.
-/

namespace TradingApp.Threads

open Computability Relation
open TradingApp.Account TradingApp.Instance TradingApp.Market TradingApp.Orders
open TradingApp.Transition.Locks

variable {ι κ : Type}

/-- Outer mutexes are locked before inner ones. -/
def Mutex.rank : Mutex ι κ → ℕ
  | account _ | accountValues _ | symbol _ => 0
  | table _ | redis _ | orderHash _ | symbolStack _ => 1

/-! ## Inner mutexes -/

/-- A call that locks inner mutexes only. -/
abbrev Inner (calls : Calls (Mutex ι κ)) : Prop :=
  Brief Mutex.rank 1 calls

/-- A call that is made with no mutex locked, and does not sleep. -/
abbrev Outer (calls : Calls (Mutex ι κ)) : Prop :=
  Brief Mutex.rank 0 calls

theorem Inner.outer {calls : Calls (Mutex ι κ)} (inner : Inner calls) : Outer calls :=
  inner.mono (Nat.zero_le 1)

/-- An outer mutex is locked around inner ones. -/
theorem Inner.guarded {calls : Calls (Mutex ι κ)} {mutex : Mutex ι κ} (inner : Inner calls)
    (outer : mutex.rank = 0) : Outer (guarded mutex calls) := by
  apply Brief.guarded
  · rw [outer]
    exact inner
  · exact Nat.zero_le _

namespace AsynchronousUnorderedMap

theorem inner_method (orderAccount : κ × OrderAccountType) :
    Inner (method orderAccount : Calls (Mutex ι κ)) :=
  Brief.one.guarded le_rfl

end AsynchronousUnorderedMap

namespace PositionRecordTable

theorem inner_method (account : ι × OrderAccountType) :
    Inner (method account : Calls (Mutex ι κ)) :=
  Brief.one.guarded le_rfl

end PositionRecordTable

namespace RedisWriter

theorem inner_command (inst : ι) : Inner (command inst : Calls (Mutex ι κ)) := by
  apply Brief.optional
  exact Brief.one.guarded le_rfl

theorem inner_rewrite {write : ι → Calls (Mutex ι κ)} (writes : ∀ inst, Inner (write inst))
    (inst : ι) : Inner (rewrite write inst) := by
  apply Brief.optional
  apply Brief.mul (inner_command inst)
  apply Brief.optional
  apply Brief.mul (writes inst)
  exact (inner_command inst).optional

end RedisWriter

namespace OrderAccount

theorem inner_limitOrder (orderAccount : κ × OrderAccountType) :
    Inner (limitOrder orderAccount : Calls (Mutex ι κ)) :=
  (AsynchronousUnorderedMap.inner_method orderAccount).optional

theorem inner_open (orderAccount : κ × OrderAccountType) :
    Inner («open» orderAccount : Calls (Mutex ι κ)) := by
  unfold «open»
  split <;> exact inner_limitOrder orderAccount

theorem inner_close (orderAccount : κ × OrderAccountType) :
    Inner (close orderAccount : Calls (Mutex ι κ)) := by
  unfold close
  split <;> exact inner_limitOrder orderAccount

theorem inner_change (orderAccount : κ × OrderAccountType) :
    Inner (change orderAccount : Calls (Mutex ι κ)) := by
  apply Brief.optional
  apply Brief.mul (AsynchronousUnorderedMap.inner_method orderAccount)
  exact (AsynchronousUnorderedMap.inner_method orderAccount).optional

end OrderAccount

/-! ## Callbacks -/

namespace Symbol

theorem inner_push (inst : ι) : Inner (push inst : Calls (Mutex ι κ)) :=
  Brief.one.guarded le_rfl

theorem outer_updatePrice (inst : ι) : Outer (updatePrice inst : Calls (Mutex ι κ)) :=
  Inner.guarded .one rfl

theorem outer_updateQuoteData (inst : ι) : Outer (updateQuoteData inst : Calls (Mutex ι κ)) :=
  Inner.guarded (inner_push inst).optional rfl

theorem outer_resetIntervalCallback {endless : ι → Estimator → Prop} {inst : ι}
    {estimator : Estimator} (ends : ¬ endless inst estimator) :
    Outer (resetIntervalCallback endless inst estimator : Calls (Mutex ι κ)) := by
  apply Inner.guarded _ rfl
  exact (Brief.iSup fun loops => absurd loops ends).optional.mul (inner_push inst).optional

end Symbol

namespace AbstractTradeAccount

variable (account : ι × OrderAccountType)

theorem outer_onNewOrderAcknowledgement :
    Outer (onNewOrderAcknowledgement account : Calls (Mutex ι κ)) :=
  Inner.guarded .one rfl

theorem outer_onOrderDone : Outer (onOrderDone account : Calls (Mutex ι κ)) :=
  Inner.guarded (RedisWriter.inner_rewrite RedisWriter.inner_command account.1) rfl

theorem outer_onOrderCancel : Outer (onOrderCancel account : Calls (Mutex ι κ)) :=
  Inner.guarded .one rfl

theorem outer_onOpenFill : Outer (onOpenFill account : Calls (Mutex ι κ)) := by
  apply Inner.guarded _ rfl
  exact .mul (PositionRecordTable.inner_method account) (PositionRecordTable.inner_method account)

theorem outer_onCloseFill : Outer (onCloseFill account : Calls (Mutex ι κ)) := by
  apply Inner.guarded _ rfl
  exact .mul (PositionRecordTable.inner_method account) (PositionRecordTable.inner_method account)

end AbstractTradeAccount

namespace OrderAccount

variable (owner : ι → κ) (orderAccount : κ × OrderAccountType)

theorem outer_notify {callback : ι × OrderAccountType → Calls (Mutex ι κ)}
    (outer : ∀ account, Outer (callback account)) : Outer (notify owner callback orderAccount) :=
  .iSup fun _ => outer _

theorem outer_onCondition (condition : OrderCondition) :
    Outer (onCondition owner orderAccount condition) := by
  have erase : Outer (AsynchronousUnorderedMap.erase orderAccount : Calls (Mutex ι κ)) :=
    (AsynchronousUnorderedMap.inner_method orderAccount).outer
  have told {callback : ι × OrderAccountType → Calls (Mutex ι κ)}
      (outer : ∀ account, Outer (callback account)) :
      Outer (1 + notify owner callback orderAccount) :=
    (outer_notify owner orderAccount outer).optional
  cases condition with
  | pendingNew | partiallyFilled | pendingChange | changeRejected | gatewayThrottle => exact .one
  | new => exact told AbstractTradeAccount.outer_onNewOrderAcknowledgement
  | done => exact (told AbstractTradeAccount.outer_onOrderDone).mul erase
  | canceled => exact (told AbstractTradeAccount.outer_onOrderCancel).mul erase
  | cancelRejected | tooLateToCancel => exact told AbstractTradeAccount.outer_onOrderCancel
  | changed => exact erase
  | denied | rejected | orderUnknown | other =>
      exact (told AbstractTradeAccount.outer_onNewOrderAcknowledgement).mul erase

theorem outer_onOrder : Outer (onOrder owner orderAccount) := by
  apply Brief.mul (AsynchronousUnorderedMap.inner_method orderAccount).outer
  exact (Brief.iSup (outer_onCondition owner orderAccount)).optional

theorem outer_onOrderCancel : Outer (onOrderCancel orderAccount : Calls (Mutex ι κ)) := by
  apply Brief.mul (AsynchronousUnorderedMap.inner_method orderAccount).outer
  exact (AsynchronousUnorderedMap.inner_method orderAccount).outer.optional

theorem outer_onOrderChange : Outer (onOrderChange orderAccount : Calls (Mutex ι κ)) := by
  apply Brief.mul (AsynchronousUnorderedMap.inner_method orderAccount).outer
  exact (AsynchronousUnorderedMap.inner_method orderAccount).outer.optional

theorem outer_onFill : Outer (onFill owner orderAccount) := by
  apply Brief.mul (AsynchronousUnorderedMap.inner_method orderAccount).outer
  apply Brief.optional
  apply Brief.add
  · exact outer_notify owner orderAccount AbstractTradeAccount.outer_onOpenFill
  · exact outer_notify owner orderAccount AbstractTradeAccount.outer_onCloseFill

end OrderAccount

/-- What is called back does not sleep. -/
theorem Role.outer_calls {owner : ι → κ} {endless : ι → Estimator → Prop} {role : Role ι κ}
    (callsBack : role.CallsBack) (ends : role.WarmUpsEnd owner endless) :
    Outer (role.calls owner endless) := by
  cases role with
  | gateway orderAccount =>
      apply Brief.add
      · apply Brief.add
        · exact .add (OrderAccount.outer_onOrder owner orderAccount)
            (OrderAccount.outer_onOrderCancel orderAccount)
        · exact OrderAccount.outer_onOrderChange orderAccount
      · exact OrderAccount.outer_onFill owner orderAccount
  | market =>
      apply Brief.add
      · exact (Brief.iSup Symbol.outer_updatePrice).kstar
      · exact (Brief.iSup Symbol.outer_updateQuoteData).kstar
  | timeout account estimator =>
      refine Brief.kstar (Brief.iSup fun own => ?_)
      exact Symbol.outer_resetIntervalCallback (ends own.1 own.2)
  | trading | console | main => exact callsBack.elim

/-! ## Calls that wait -/

/-- A call that locks mutexes in their order, and sleeps with none locked. -/
abbrev Ordered (calls : Calls (Mutex ι κ)) : Prop :=
  Nested Mutex.rank 0 calls

theorem Symbol.ordered_pop (inst : ι) : Ordered (Symbol.pop inst : Calls (Mutex ι κ)) :=
  nested_one.guarded_awaiting

namespace AbstractTradeAccount

variable (owner : ι → κ) (account : ι × OrderAccountType)

theorem ordered_wait : Ordered (wait account : Calls (Mutex ι κ)) :=
  nested_one.guarded_awaiting

/-- A request is posted, waited for and written. -/
theorem ordered_request {post write : Calls (Mutex ι κ)} (posts : Inner post)
    (writes : Inner write) :
    Ordered (1 + post * (1 + wait account * (1 + write))) := by
  apply Nested.optional
  apply Nested.mul posts.outer.nested
  apply Nested.optional
  exact (ordered_wait account).mul (Nested.optional writes.outer.nested)

theorem ordered_open : Ordered («open» owner account) :=
  ordered_request account (OrderAccount.inner_open _) (RedisWriter.inner_command _)

theorem ordered_close : Ordered (close owner account) :=
  ordered_request account (OrderAccount.inner_close _) (RedisWriter.inner_command _)

theorem ordered_change : Ordered (change owner account) :=
  ordered_request account (OrderAccount.inner_change _)
    (RedisWriter.inner_rewrite RedisWriter.inner_command _)

theorem ordered_cancel : Ordered (cancel account : Calls (Mutex ι κ)) := by
  apply Nested.optional
  apply (ordered_wait account).mul
  exact Nested.optional
    (RedisWriter.inner_rewrite RedisWriter.inner_command account.1).outer.nested

theorem ordered_cancelAll : Ordered (cancelAll account : Calls (Mutex ι κ)) :=
  (ordered_cancel account).kstar

theorem ordered_sendPendingOrders : Ordered (sendPendingOrders owner account) :=
  (Nested.optional (ordered_open owner account)).add (ordered_close owner account)

end AbstractTradeAccount

namespace PositionRecordTable

theorem ordered_method (account : ι × OrderAccountType) :
    Ordered (method account : Calls (Mutex ι κ)) :=
  (inner_method account).outer.nested

end PositionRecordTable

namespace TradeCase

open AbstractTradeAccount

variable (owner : ι → κ) (inst : ι) (current : OrderAccountType)

theorem ordered_reprice : Ordered (reprice owner inst current) := by
  apply Nested.mul
  · apply Nested.optional
    apply Nested.add
    · apply Nested.optional
      exact (ordered_cancelAll _).mul (ordered_open owner _).kstar
    · exact (ordered_change owner _).kstar
  · exact ordered_sendPendingOrders owner _

theorem ordered_run (type : CaseType) (state : CaseState) :
    Ordered (run owner inst current type state) := by
  have opens := ordered_open owner (inst, current)
  have closes (side : OrderAccountType) := ordered_close owner (inst, side)
  have changes (side : OrderAccountType) := ordered_change owner (inst, side)
  have table : Ordered (PositionRecordTable.method (inst, current) : Calls (Mutex ι κ)) :=
    PositionRecordTable.ordered_method (inst, current)
  unfold run
  split
  · exact (closes _).optional
  · exact (changes _).optional
  · exact (closes _).optional
  · exact (changes _).optional
  · exact opens.mul opens.kstar
  · exact (ordered_reprice owner inst current).mul (changes _).optional
  · exact opens.optional
  · exact (changes _).optional
  · exact (table.mul (closes _).optional).optional
  · exact (table.mul (changes _).optional).optional
  · exact .iSup closes
  · exact (Nested.iSup changes).optional
  · exact (Nested.iSup closes).optional
  · exact nested_one

theorem ordered_destroy (type : CaseType) :
    Ordered (destroy inst current type : Calls (Mutex ι κ)) := by
  have table (side : OrderAccountType) :
      Ordered (PositionRecordTable.method (inst, side) : Calls (Mutex ι κ)) :=
    PositionRecordTable.ordered_method (inst, side)
  apply Nested.mul
  · unfold destroyOwn
    split
    · exact (table current).optional
    · exact table current
    · exact nested_one
  · apply Nested.mul
    · exact ((ordered_cancelAll _).mul (ordered_cancelAll _)).optional
    · exact (table _).mul (table _)

end TradeCase

namespace TradeInstance

open AbstractTradeAccount

variable (owner : ι → κ) (inst : ι)

theorem ordered_replaceCase : Ordered (replaceCase inst : Calls (Mutex ι κ)) := by
  apply Nested.optional
  exact .iSup fun type => .iSup fun current => TradeCase.ordered_destroy inst current type

theorem ordered_specialCases : Ordered (specialCases inst : Calls (Mutex ι κ)) :=
  (Nested.optional (ordered_replaceCase inst)).add (ordered_replaceCase inst)

theorem ordered_runCase : Ordered (runCase owner inst) := by
  apply Nested.optional
  apply Nested.mul
  · exact .iSup fun type => .iSup fun state => .iSup fun current =>
      TradeCase.ordered_run owner inst current type state
  · exact (ordered_replaceCase inst).optional

theorem ordered_writeBack : Ordered (writeBack inst : Calls (Mutex ι κ)) := by
  have writes : Ordered (RedisWriter.command inst : Calls (Mutex ι κ)) :=
    (RedisWriter.inner_command inst).outer.nested
  have position (side : OrderAccountType) :
      Ordered (getPriceInForce (inst, side) * RedisWriter.writeToRedis inst : Calls (Mutex ι κ)) :=
    (Inner.guarded .one rfl).nested.mul writes
  exact ((position _).mul (position _)).mul (writes.optional.mul (writes.mul writes))

theorem ordered_triggerProcessing : Ordered (triggerProcessing owner inst) := by
  apply (Symbol.ordered_pop inst).mul
  apply Nested.optional
  apply Nested.mul
  · exact (ordered_specialCases inst).mul (ordered_replaceCase inst).optional.optional
  · exact (ordered_runCase owner inst).mul (ordered_writeBack inst)

theorem ordered_restore (side : OrderAccountType) :
    Ordered (restore inst side : Calls (Mutex ι κ)) := by
  have rewrites : Inner (RedisWriter.rewrite RedisWriter.writeToRedis inst : Calls (Mutex ι κ)) :=
    RedisWriter.inner_rewrite RedisWriter.inner_command inst
  apply (RedisWriter.inner_command inst).outer.nested.mul
  apply Nested.optional
  apply Nested.mul
  · apply Nested.mul
    · apply Nested.mul
      · exact (Inner.guarded .one rfl).nested
      · exact Nested.optional (Inner.guarded rewrites rfl).nested
    · exact Nested.optional rewrites.outer.nested
  · exact rewrites.outer.nested

theorem ordered_construct : Ordered (construct inst : Calls (Mutex ι κ)) :=
  (ordered_restore inst _).mul (ordered_restore inst _)

theorem ordered_stopAction : Ordered (stopAction inst : Calls (Mutex ι κ)) :=
  (ordered_cancelAll _).mul (ordered_cancelAll _)

end TradeInstance

/-- Whatever a thread is there for, it locks mutexes in their order. -/
theorem Role.ordered_calls {owner : ι → κ} {endless : ι → Estimator → Prop} {role : Role ι κ}
    (ends : role.WarmUpsEnd owner endless) : Ordered (role.calls owner endless) := by
  have stops : Ordered ((⨆ inst, TradeInstance.stopAction inst)∗ : Calls (Mutex ι κ)) :=
    (Nested.iSup TradeInstance.ordered_stopAction).kstar
  cases role with
  | trading inst => exact TradeInstance.ordered_triggerProcessing owner inst
  | gateway | market | timeout =>
      refine (Role.outer_calls ?_ ends).nested
      trivial
  | console => exact stops
  | main => exact (Nested.iSup TradeInstance.ordered_construct).kstar.add stops

/-! ## An endless warm-up -/

section Endless

variable {θ : Type} [DecidableEq θ] [DecidableEq ι] [DecidableEq κ] {owner : ι → κ}
  {endless : ι → Estimator → Prop} {role : θ → Role ι κ}

omit [DecidableEq ι] [DecidableEq κ] in
/-- A reset may be caught in an endless warm-up. -/
theorem endlessReset_mem {inst : ι} {estimator : Estimator} (loops : endless inst estimator) :
    [.acquire (.symbol inst), .forever, .release (.symbol inst)] ∈
      ((Role.timeout (owner inst) estimator).calls owner endless : Calls (Mutex ι κ)) := by
  have warms : [.forever] ∈ (Symbol.warmUp endless inst estimator : Calls (Mutex ι κ)) :=
    Or.inr (Language.mem_iSup.mpr ⟨loops, rfl⟩)
  have nothing : [] ∈ (1 + Symbol.push inst : Calls (Mutex ι κ)) := Or.inl Language.nil_mem_one
  have once : [.acquire (.symbol inst), .forever, .release (.symbol inst)] ∈
      (Symbol.resetIntervalCallback endless inst estimator : Calls (Mutex ι κ)) :=
    mem_guarded (Language.append_mem_mul warms nothing)
  have repeats : ∀ word ∈ [[.acquire (.symbol inst), .forever, .release (.symbol inst)]],
      word ∈ (⨆ own : { own // owner own = owner inst },
        Symbol.resetIntervalCallback endless own.1 estimator : Calls (Mutex ι κ)) := by
    intro word member
    rw [List.mem_singleton.mp member]
    exact Language.mem_iSup.mpr ⟨⟨inst, rfl⟩, once⟩
  exact Language.join_mem_kstar repeats

/-- If a timer can get into an endless warm-up, some state is reached in which its thread
holds the mutex of the symbol for good. -/
theorem exists_reachable_forever {thread : θ} {inst : ι} {estimator : Estimator}
    (isTimer : role thread = .timeout (owner inst) estimator) (loops : endless inst estimator) :
    ∃ pool, Pool.Reachable (fun thread => (role thread).calls owner endless) pool ∧
      pool thread = ⟨[.forever, .release (.symbol inst)], [.symbol inst]⟩ := by
  let word : List (Action (Mutex ι κ)) :=
    [.acquire (.symbol inst), .forever, .release (.symbol inst)]
  let called : Pool θ (Mutex ι κ) := Function.update Pool.idle thread ⟨word, []⟩
  have isCall : word ∈ (role thread).calls owner endless := isTimer ▸ endlessReset_mem loops
  have calls : Pool.Reachable (fun thread => (role thread).calls owner endless) called :=
    .single (.call thread word rfl isCall)
  have own : called thread = ⟨word, []⟩ := Function.update_self ..
  have enters : Pool.GoesOn (fun _ _ => True) called (called.goOn thread) := by
    apply Pool.GoesOn.act thread trivial
    · rw [own]
      exact nofun
    · rintro ⟨rest, sleeps⟩
      rw [own] at sleeps
      cases sleeps
    · rintro ⟨lock, rest, -, other, held⟩
      by_cases same : other = thread
      · rw [same, own] at held
        exact List.not_mem_nil held
      · rw [show called other = ⟨[], []⟩ from Function.update_of_ne same ..] at held
        exact List.not_mem_nil held
  refine ⟨called.goOn thread, calls.tail (.act enters), ?_⟩
  rw [Pool.goOn, Function.update_self, own]
  rfl

end Endless

/-! ## Progress -/

section Progress

variable {θ : Type} [DecidableEq θ] [DecidableEq ι] [DecidableEq κ] [Finite θ] (owner : ι → κ)
  (endless : ι → Estimator → Prop) (role : θ → Role ι κ)

/-- In every state that any threads reach, those that hold mutexes can go on by
themselves until no mutex is held, exactly if all warm-ups end. -/
theorem reachable_releases_iff :
    (∀ pool : Pool θ (Mutex ι κ),
        Pool.Reachable (fun thread => (role thread).calls owner endless) pool →
          ∃ next, ReflTransGen (Pool.GoesOn Pool.IsOwner) pool next ∧
            ∀ thread, (next thread).held = []) ↔
      ∀ thread, (role thread).WarmUpsEnd owner endless := by
  constructor
  · intro releases thread
    cases isTimer : role thread with
    | timeout account estimator =>
        rintro inst rfl loops
        obtain ⟨pool, reachable, caught⟩ := exists_reachable_forever isTimer loops
        obtain ⟨next, run, released⟩ := releases pool reachable
        have same := Pool.eq_of_forever (congrArg Thread.todo caught) run
        rw [caught] at same
        exact List.cons_ne_nil _ _ ((congrArg Thread.held same).symm.trans (released thread))
    | trading | gateway | market | console | main => trivial
  · intro ends pool reachable
    have orderly := Pool.orderly_of_reachable (fun thread => Role.ordered_calls (ends thread))
      reachable
    obtain ⟨next, run, -, released⟩ := orderly.exists_released
    exact ⟨next, run, released⟩

/-- A callback that has begun can be finished by its thread and by those that
hold mutexes, without anybody to be woken, exactly if all warm-ups end. -/
theorem reachable_callback_finishes_iff :
    (∀ pool : Pool θ (Mutex ι κ),
        Pool.Reachable (fun thread => (role thread).calls owner endless) pool →
          ∀ thread, (role thread).CallsBack →
            ∃ next, ReflTransGen
                (Pool.GoesOn fun pool other => pool.IsOwner other ∨ other = thread) pool next ∧
              (next thread).todo = []) ↔
      ∀ thread, (role thread).WarmUpsEnd owner endless := by
  constructor
  · intro finishes thread
    cases isTimer : role thread with
    | timeout account estimator =>
        rintro inst rfl loops
        obtain ⟨pool, reachable, caught⟩ := exists_reachable_forever isTimer loops
        have callsBack : (role thread).CallsBack := isTimer ▸ trivial
        obtain ⟨next, run, done⟩ := finishes pool reachable thread callsBack
        have same := Pool.eq_of_forever (congrArg Thread.todo caught) run
        rw [caught] at same
        exact List.cons_ne_nil _ _ ((congrArg Thread.todo same).symm.trans done)
    | trading | gateway | market | console | main => trivial
  · intro ends pool reachable thread callsBack
    have orderly := Pool.orderly_of_reachable (fun thread => Role.ordered_calls (ends thread))
      reachable
    apply orderly.exists_finished
    refine Pool.sleepless_of_reachable ?_ reachable
    exact (Role.outer_calls callsBack (ends thread)).sleepless

end Progress

/-! ## Two timers -/

/-- The timers of an account with one symbol. -/
def twoTimers (first : Bool) : Role Unit Unit :=
  .timeout () (if first then .first else .second)

/-- If only the first one's warm-up may be endless, it is enough to keep a mutex for good. -/
theorem reachable_releases_iff_twoTimers :
    (∀ pool, Pool.Reachable (fun thread => (twoTimers thread).calls id fun _ _ => False) pool →
        ∃ next, ReflTransGen (Pool.GoesOn Pool.IsOwner) pool next ∧
          ∀ thread, (next thread).held = []) ∧
      ¬ ∀ pool,
        Pool.Reachable (fun thread => (twoTimers thread).calls id fun _ timer => timer = .first)
            pool →
          ∃ next, ReflTransGen (Pool.GoesOn Pool.IsOwner) pool next ∧
            ∀ thread, (next thread).held = [] :=
  ⟨(reachable_releases_iff id (fun _ _ => False) twoTimers).mpr fun _ _ _ => id,
    fun all => (reachable_releases_iff id (fun _ timer => timer = .first) twoTimers).mp all true ()
      rfl rfl⟩

theorem reachable_callback_finishes_iff_twoTimers :
    (∀ pool, Pool.Reachable (fun thread => (twoTimers thread).calls id fun _ _ => False) pool →
        ∀ thread, (twoTimers thread).CallsBack →
          ∃ next, ReflTransGen
              (Pool.GoesOn fun pool other => pool.IsOwner other ∨ other = thread) pool next ∧
            (next thread).todo = []) ∧
      ¬ ∀ pool,
        Pool.Reachable (fun thread => (twoTimers thread).calls id fun _ timer => timer = .first)
            pool →
          ∀ thread, (twoTimers thread).CallsBack →
            ∃ next, ReflTransGen
                (Pool.GoesOn fun pool other => pool.IsOwner other ∨ other = thread) pool next ∧
              (next thread).todo = [] :=
  ⟨(reachable_callback_finishes_iff id (fun _ _ => False) twoTimers).mpr fun _ _ _ => id,
    fun all => (reachable_callback_finishes_iff id (fun _ timer => timer = .first) twoTimers).mp all
      true () rfl rfl⟩

end TradingApp.Threads
