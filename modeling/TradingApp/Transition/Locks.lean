import Mathlib.Algebra.BigOperators.Group.Finset.Basic
import Mathlib.Algebra.Order.BigOperators.Group.Finset
import Mathlib.Computability.Language
import Mathlib.Data.Set.Finite.Lemmas
import Mathlib.Data.Set.Finite.List
import Mathlib.Logic.Relation
import Mathlib.Order.CompletePartialOrder

/-!
# Threads and locks

A call acquires locks, releases them, may sleep until a condition is signalled
and may be caught in work that never ends; whatever else it does is left out.
The ways in which a call may go form a language, and the constructs of a program
are operations on languages: `*` for one after the other, `+` for a branch, `∗`
for a loop that ends.

When all calls acquire their locks in the order of a rank, release them in the
opposite order, sleep with no lock held and end, no threads can block each other:
those that hold locks can go on by themselves until they hold none.
-/

namespace TradingApp.Transition.Locks

open Computability Relation

universe u v

variable {L : Type u}

/-- What a call does that other threads notice. -/
inductive Action (L : Type u) where
  | acquire (lock : L)
  | release (lock : L)
  /-- sleep until a condition is signalled -/
  | sleep
  /-- work that never ends -/
  | forever

/-- The ways in which a call may go. -/
abbrev Calls (L : Type u) : Type u :=
  Language (Action L)

/-- A scope that holds a lock. -/
def guarded (lock : L) (body : Calls L) : Calls L :=
  {[.acquire lock]} * body * {[.release lock]}

theorem mem_guarded {lock : L} {body : Calls L} {word : List (Action L)} (member : word ∈ body) :
    .acquire lock :: (word ++ [.release lock]) ∈ guarded lock body := by
  have opens : [.acquire lock] ∈ ({[.acquire lock]} : Calls L) := rfl
  have closes : [.release lock] ∈ ({[.release lock]} : Calls L) := rfl
  exact Language.append_mem_mul (Language.append_mem_mul opens member) closes

/-- Wait for a condition: the lock is released while the thread sleeps. -/
def awaiting (lock : L) : Calls L :=
  ({[.release lock, .sleep, .acquire lock]} : Calls L)∗

/-! ## The order of the locks -/

/-- With some locks held, the innermost first, the actions acquire locks of
higher ranks only, release the innermost, sleep with none held and end; in the end
none is held. -/
def Follows (rank : L → ℕ) : List L → List (Action L) → Prop
  | held, [] => held = []
  | held, .acquire lock :: rest =>
      (∀ other ∈ held, rank other < rank lock) ∧ Follows rank (lock :: held) rest
  | [], .release _ :: _ => False
  | inner :: held, .release lock :: rest => inner = lock ∧ Follows rank held rest
  | held, .sleep :: rest => held = [] ∧ Follows rank [] rest
  | _, .forever :: _ => False

/-- A call may be made while all locks held have ranks below a bound. -/
def Nested (rank : L → ℕ) (bound : ℕ) (calls : Calls L) : Prop :=
  ∀ word ∈ calls, ∀ held rest, (∀ other ∈ held, rank other < bound) →
    Follows rank held rest → Follows rank held (word ++ rest)

section Nested

variable {rank : L → ℕ} {bound : ℕ} {first second : Calls L}

theorem nested_one : Nested rank bound 1 := by
  rintro word member held rest - follows
  rw [(Language.mem_one word).mp member]
  exact follows

theorem Nested.add (left : Nested rank bound first) (right : Nested rank bound second) :
    Nested rank bound (first + second) := by
  rintro word (member | member)
  · exact left word member
  · exact right word member

theorem Nested.optional (nested : Nested rank bound first) : Nested rank bound (1 + first) :=
  nested_one.add nested

theorem Nested.mul (left : Nested rank bound first) (right : Nested rank bound second) :
    Nested rank bound (first * second) := by
  intro word member held rest below follows
  obtain ⟨before, leftMember, after, rightMember, rfl⟩ := Language.mem_mul.mp member
  rw [List.append_assoc]
  apply left before leftMember held _ below
  exact right after rightMember held rest below follows

theorem Nested.kstar (nested : Nested rank bound first) : Nested rank bound first∗ := by
  intro word member held rest below follows
  obtain ⟨words, rfl, members⟩ := Language.mem_kstar.mp member
  clear member
  induction words with
  | nil => exact follows
  | cons one words ih =>
      rw [List.flatten_cons, List.append_assoc]
      apply nested one (members one List.mem_cons_self) held _ below
      exact ih fun other listed => members other (List.mem_cons_of_mem one listed)

theorem Nested.iSup {ι : Sort v} {family : ι → Calls L}
    (nested : ∀ index, Nested rank bound (family index)) :
    Nested rank bound (⨆ index, family index) := by
  intro word member
  obtain ⟨index, member⟩ := Language.mem_iSup.mp member
  exact nested index word member

theorem Nested.mono {lower : ℕ} (nested : Nested rank bound first) (le : lower ≤ bound) :
    Nested rank lower first := by
  intro word member held rest below
  apply nested word member held rest
  intro other listed
  exact (below other listed).trans_le le

/-- A scope may be entered from below the rank of its lock. -/
theorem Nested.guarded {lock : L} (nested : Nested rank (rank lock + 1) first)
    (le : bound ≤ rank lock) : Nested rank bound (guarded lock first) := by
  intro word member held rest below follows
  obtain ⟨_, opened, after, closes, rfl⟩ := Language.mem_mul.mp member
  obtain ⟨before, opens, inside, body, rfl⟩ := Language.mem_mul.mp opened
  rw [Set.mem_singleton_iff.mp opens, Set.mem_singleton_iff.mp closes]
  simp only [List.cons_append, List.nil_append, List.append_assoc]
  constructor
  · intro other listed
    exact (below other listed).trans_le le
  · apply nested inside body
    · simp only [List.mem_cons, forall_eq_or_imp]
      constructor
      · exact Nat.lt_succ_self _
      · intro other listed
        exact ((below other listed).trans_le le).trans (Nat.lt_succ_self _)
    · exact ⟨rfl, follows⟩

/-- With a single lock held a thread may wait on it. -/
theorem follows_awaiting {lock : L} {word rest : List (Action L)} (member : word ∈ awaiting lock)
    (follows : Follows rank [lock] rest) : Follows rank [lock] (word ++ rest) := by
  obtain ⟨words, rfl, members⟩ := Language.mem_kstar.mp member
  clear member
  induction words with
  | nil => exact follows
  | cons one words ih =>
      rw [List.flatten_cons, List.append_assoc,
        Set.mem_singleton_iff.mp (members one List.mem_cons_self)]
      have rest := ih fun other listed => members other (List.mem_cons_of_mem one listed)
      exact ⟨rfl, rfl, by simp, rest⟩

/-- A thread may wait in a scope that it enters with no lock held. -/
theorem Nested.guarded_awaiting {lock : L} (nested : Nested rank (rank lock + 1) first) :
    Nested rank 0 (Locks.guarded lock (awaiting lock * first)) := by
  intro word member held rest below follows
  obtain rfl : held = [] :=
    List.eq_nil_iff_forall_not_mem.mpr fun other listed => Nat.not_lt_zero _ (below other listed)
  obtain ⟨_, opened, after, closes, rfl⟩ := Language.mem_mul.mp member
  obtain ⟨before, opens, _, scope, rfl⟩ := Language.mem_mul.mp opened
  obtain ⟨waited, waits, inside, body, rfl⟩ := Language.mem_mul.mp scope
  rw [Set.mem_singleton_iff.mp opens, Set.mem_singleton_iff.mp closes]
  simp only [List.cons_append, List.nil_append, List.append_assoc]
  constructor
  · simp
  · apply follows_awaiting waits
    apply nested inside body
    · simp
    · exact ⟨rfl, follows⟩

end Nested

/-! ## Calls that do not sleep -/

/-- A call that goes on without a signal. -/
def Sleepless (calls : Calls L) : Prop :=
  ∀ word ∈ calls, Action.sleep ∉ word

section Sleepless

variable {first second : Calls L}

theorem sleepless_one : Sleepless (1 : Calls L) := by
  intro word member
  rw [(Language.mem_one word).mp member]
  exact List.not_mem_nil

theorem Sleepless.add (left : Sleepless first) (right : Sleepless second) :
    Sleepless (first + second) := by
  rintro word (member | member)
  · exact left word member
  · exact right word member

theorem Sleepless.mul (left : Sleepless first) (right : Sleepless second) :
    Sleepless (first * second) := by
  intro word member
  obtain ⟨before, leftMember, after, rightMember, rfl⟩ := Language.mem_mul.mp member
  simp [left before leftMember, right after rightMember]

theorem Sleepless.kstar (sleepless : Sleepless first) : Sleepless first∗ := by
  intro word member
  obtain ⟨words, rfl, members⟩ := Language.mem_kstar.mp member
  simp only [List.mem_flatten, not_exists, not_and]
  intro one listed
  exact sleepless one (members one listed)

theorem Sleepless.iSup {ι : Sort v} {family : ι → Calls L}
    (sleepless : ∀ index, Sleepless (family index)) : Sleepless (⨆ index, family index) := by
  intro word member
  obtain ⟨index, member⟩ := Language.mem_iSup.mp member
  exact sleepless index word member

theorem Sleepless.guarded {lock : L} (sleepless : Sleepless first) :
    Sleepless (guarded lock first) := by
  apply Sleepless.mul
  · apply Sleepless.mul
    · rintro word ⟨⟩
      simp
    · exact sleepless
  · rintro word ⟨⟩
    simp

end Sleepless

/-- A call that may be made while all locks held have ranks below a bound, and that
goes on without a signal. -/
structure Brief (rank : L → ℕ) (bound : ℕ) (calls : Calls L) : Prop where
  nested : Nested rank bound calls
  sleepless : Sleepless calls

namespace Brief

variable {rank : L → ℕ} {bound : ℕ} {first second : Calls L}

theorem one : Brief rank bound 1 :=
  ⟨nested_one, sleepless_one⟩

theorem add (left : Brief rank bound first) (right : Brief rank bound second) :
    Brief rank bound (first + second) :=
  ⟨left.nested.add right.nested, left.sleepless.add right.sleepless⟩

theorem optional (brief : Brief rank bound first) : Brief rank bound (1 + first) :=
  .add .one brief

theorem mul (left : Brief rank bound first) (right : Brief rank bound second) :
    Brief rank bound (first * second) :=
  ⟨left.nested.mul right.nested, left.sleepless.mul right.sleepless⟩

theorem kstar (brief : Brief rank bound first) : Brief rank bound first∗ :=
  ⟨brief.nested.kstar, brief.sleepless.kstar⟩

theorem iSup {ι : Sort v} {family : ι → Calls L}
    (brief : ∀ index, Brief rank bound (family index)) :
    Brief rank bound (⨆ index, family index) :=
  ⟨.iSup fun index => (brief index).nested, .iSup fun index => (brief index).sleepless⟩

theorem mono {lower : ℕ} (brief : Brief rank bound first) (le : lower ≤ bound) :
    Brief rank lower first :=
  ⟨brief.nested.mono le, brief.sleepless⟩

theorem guarded {lock : L} (brief : Brief rank (rank lock + 1) first) (le : bound ≤ rank lock) :
    Brief rank bound (guarded lock first) :=
  ⟨brief.nested.guarded le, brief.sleepless.guarded⟩

end Brief

/-! ## Threads -/

/-- Steps that keep an invariant and lower a measure reach a goal. -/
theorem exists_reaches {σ : Type u} {step : σ → σ → Prop} {Inv Goal : σ → Prop} (measure : σ → ℕ)
    (progress : ∀ s, Inv s → ¬ Goal s → ∃ t, step s t ∧ Inv t ∧ measure t < measure s) {s : σ}
    (inv : Inv s) : ∃ t, ReflTransGen step s t ∧ Inv t ∧ Goal t := by
  induction size : measure s using Nat.strong_induction_on generalizing s with
  | _ bound ih =>
      by_cases goal : Goal s
      · exact ⟨s, .refl, inv, goal⟩
      · obtain ⟨t, first, keeps, lower⟩ := progress s inv goal
        obtain ⟨last, rest, both⟩ := ih (measure t) (size ▸ lower) keeps rfl
        exact ⟨last, .head first rest, both⟩

/-- A thread in a call. -/
structure Thread (L : Type u) where
  /-- what is left of the call -/
  todo : List (Action L)
  /-- the locks held, the innermost first -/
  held : List L

/-- The threads, by their names. -/
abbrev Pool (θ : Type v) (L : Type u) : Type (max u v) :=
  θ → Thread L

/-- A thread after its next action; work that never ends is still to be done. -/
def Thread.next [DecidableEq L] (thread : Thread L) : Thread L :=
  match thread.todo with
  | [] => thread
  | .acquire lock :: rest => ⟨rest, lock :: thread.held⟩
  | .release lock :: rest => ⟨rest, thread.held.erase lock⟩
  | .sleep :: rest => ⟨rest, thread.held⟩
  | .forever :: _ => thread

namespace Pool

variable {θ : Type v} [DecidableEq θ] [DecidableEq L] {rank : L → ℕ} {calls : θ → Calls L}

/-- No thread has made a call yet. -/
def idle : Pool θ L :=
  fun _ => ⟨[], []⟩

/-- A lock that any thread holds, the one that asks for it included, is not to
be had. -/
def Blocked (pool : Pool θ L) (thread : θ) : Prop :=
  ∃ lock rest, (pool thread).todo = .acquire lock :: rest ∧ ∃ other, lock ∈ (pool other).held

/-- The thread sleeps on a condition. -/
def Asleep (pool : Pool θ L) (thread : θ) : Prop :=
  ∃ rest, (pool thread).todo = .sleep :: rest

/-- A thread does what is next in its call. -/
def goOn (pool : Pool θ L) (thread : θ) : Pool θ L :=
  Function.update pool thread (pool thread).next

/-- Of the threads in a call, neither blocked nor asleep, one that may do so goes
on. -/
inductive GoesOn (may : Pool θ L → θ → Prop) (pool : Pool θ L) : Pool θ L → Prop
  | act (thread : θ) (allowed : may pool thread) (busy : (pool thread).todo ≠ [])
      (awake : ¬ pool.Asleep thread) (free : ¬ pool.Blocked thread) :
      GoesOn may pool (pool.goOn thread)

/-- An idle thread makes a call, a thread goes on, or one that sleeps is woken,
by a signal or by itself. -/
inductive Step (calls : θ → Calls L) (pool : Pool θ L) : Pool θ L → Prop
  | call (thread : θ) (word : List (Action L)) (idle : (pool thread).todo = [])
      (goes : word ∈ calls thread) :
      Step calls pool (Function.update pool thread ⟨word, (pool thread).held⟩)
  | act {next : Pool θ L} (goes : GoesOn (fun _ _ => True) pool next) : Step calls pool next
  | wake (thread : θ) (asleep : pool.Asleep thread) : Step calls pool (pool.goOn thread)

/-- What can be reached when no thread is in a call at first. -/
def Reachable (calls : θ → Calls L) : Pool θ L → Prop :=
  ReflTransGen (Step calls) idle

/-- The thread holds a lock. -/
def IsOwner (pool : Pool θ L) (thread : θ) : Prop :=
  (pool thread).held ≠ []

/-- What is left of every call keeps the order of the locks. -/
def Orderly (rank : L → ℕ) (pool : Pool θ L) : Prop :=
  ∀ thread, Follows rank (pool thread).held (pool thread).todo

theorem GoesOn.mono {may more : Pool θ L → θ → Prop} {pool next : Pool θ L}
    (goes : GoesOn may pool next) (weaken : ∀ pool thread, may pool thread → more pool thread) :
    GoesOn more pool next := by
  cases goes with
  | act thread allowed busy awake free => exact .act thread (weaken _ _ allowed) busy awake free

/-! ## Runs keep the order -/

theorem follows_next {thread : Thread L} (follows : Follows rank thread.held thread.todo) :
    Follows rank thread.next.held thread.next.todo := by
  rcases thread with ⟨_ | ⟨action, rest⟩, held⟩
  · exact follows
  · cases action with
    | acquire lock => exact follows.2
    | release lock =>
        cases held with
        | nil => exact follows.elim
        | cons inner held =>
            rcases follows with ⟨rfl, follows⟩
            simpa [Thread.next] using follows
    | sleep =>
        cases held with
        | nil => exact follows.2
        | cons inner held => exact nomatch follows.1
    | forever => exact follows

omit [DecidableEq L] in
theorem Orderly.update {pool : Pool θ L} (orderly : Orderly rank pool) {thread : θ}
    {next : Thread L} (follows : Follows rank next.held next.todo) :
    Orderly rank (Function.update pool thread next) := by
  intro other
  by_cases same : other = thread
  · subst same
    simpa using follows
  · simpa [same] using orderly other

theorem Orderly.goOn {pool : Pool θ L} (orderly : Orderly rank pool) (thread : θ) :
    Orderly rank (pool.goOn thread) :=
  orderly.update (follows_next (orderly thread))

theorem Orderly.step (nested : ∀ thread, Nested rank 0 (calls thread)) {pool next : Pool θ L}
    (orderly : Orderly rank pool) (step : Step calls pool next) : Orderly rank next := by
  cases step with
  | call thread word idle goes =>
      apply orderly.update
      have held := orderly thread
      rw [idle] at held
      simp only [Follows] at held
      change Follows rank (pool thread).held word
      rw [held]
      simpa using nested thread word goes [] [] (by simp) rfl
  | act goes =>
      cases goes with
      | act thread => exact orderly.goOn thread
  | wake thread => exact orderly.goOn thread

theorem orderly_of_reachable (nested : ∀ thread, Nested rank 0 (calls thread)) {pool : Pool θ L}
    (reachable : Reachable calls pool) : Orderly rank pool := by
  induction reachable with
  | refl => exact fun _ => rfl
  | tail _ step ih => exact ih.step nested step

/-! ## Progress -/

omit [DecidableEq θ] [DecidableEq L] in
/-- What is left of a call ends. -/
theorem Orderly.ends {pool : Pool θ L} (orderly : Orderly rank pool) (thread : θ)
    (rest : List (Action L)) : (pool thread).todo ≠ .forever :: rest := by
  intro loops
  have follows := orderly thread
  rw [loops] at follows
  simp only [Follows] at follows

omit [DecidableEq θ] [DecidableEq L] in
/-- A thread that holds a lock is in a call, and awake. -/
theorem Orderly.busy {pool : Pool θ L} (orderly : Orderly rank pool) {thread : θ}
    (owner : pool.IsOwner thread) : (pool thread).todo ≠ [] ∧ ¬ pool.Asleep thread := by
  have follows := orderly thread
  constructor
  · intro done
    rw [done] at follows
    simp only [Follows] at follows
    exact owner follows
  · rintro ⟨rest, sleeps⟩
    rw [sleeps] at follows
    simp only [Follows] at follows
    exact owner follows.1

omit [DecidableEq θ] [DecidableEq L] in
/-- The owner of a lock of the highest rank is not blocked. -/
theorem Orderly.exists_unblocked [Finite θ] {pool : Pool θ L} (orderly : Orderly rank pool)
    {thread : θ} (owner : pool.IsOwner thread) :
    ∃ other, pool.IsOwner other ∧ ¬ pool.Blocked other := by
  have finite : (⋃ other, {lock | lock ∈ (pool other).held}).Finite :=
    Set.finite_iUnion fun other => List.finite_toSet (pool other).held
  obtain ⟨lock, held⟩ := List.exists_mem_of_ne_nil _ owner
  obtain ⟨highest, taken, above⟩ := Set.exists_max_image _ rank finite
    ⟨lock, Set.mem_iUnion.mpr ⟨thread, held⟩⟩
  obtain ⟨other, own⟩ := Set.mem_iUnion.mp taken
  use other
  constructor
  · exact List.ne_nil_of_mem own
  · rintro ⟨wanted, rest, asks, third, has⟩
    have follows := orderly other
    rw [asks] at follows
    simp only [Follows] at follows
    have higher := follows.1 highest own
    have lower := above wanted (Set.mem_iUnion.mpr ⟨third, has⟩)
    exact (higher.trans_le lower).false

theorem length_next_lt {thread : Thread L} (busy : thread.todo ≠ [])
    (ends : ∀ rest, thread.todo ≠ .forever :: rest) :
    thread.next.todo.length < thread.todo.length := by
  rcases thread with ⟨_ | ⟨action, rest⟩, held⟩
  · exact absurd rfl busy
  · cases action with
    | acquire | release | sleep => exact Nat.lt_succ_self _
    | forever => exact absurd rfl (ends rest)

/-- How much is left of all calls. -/
def work [Fintype θ] (pool : Pool θ L) : ℕ :=
  ∑ thread, (pool thread).todo.length

theorem work_goOn_lt [Fintype θ] {pool : Pool θ L} {thread : θ} (busy : (pool thread).todo ≠ [])
    (ends : ∀ rest, (pool thread).todo ≠ .forever :: rest) :
    (pool.goOn thread).work < pool.work := by
  apply Finset.sum_lt_sum
  · intro other _
    by_cases same : other = thread
    · subst same
      simpa [goOn] using (length_next_lt busy ends).le
    · simp [goOn, same]
  · use thread, Finset.mem_univ thread
    simpa [goOn] using length_next_lt busy ends

/-- The threads that hold locks can go on until none does. -/
theorem Orderly.exists_released [Finite θ] {pool : Pool θ L} (orderly : Orderly rank pool) :
    ∃ next, ReflTransGen (GoesOn IsOwner) pool next ∧ Orderly rank next ∧
      ∀ thread, (next thread).held = [] := by
  have := Fintype.ofFinite θ
  apply exists_reaches work _ orderly
  intro pool orderly held
  obtain ⟨thread, owner⟩ := not_forall.mp held
  obtain ⟨other, owns, free⟩ := orderly.exists_unblocked owner
  have busy := orderly.busy owns
  use pool.goOn other
  constructor
  · exact .act other owns busy.1 busy.2 free
  · exact ⟨orderly.goOn other, work_goOn_lt busy.1 (orderly.ends other)⟩

/-- What is left of a call is the end of what was left. -/
theorem suffix_goOn (pool : Pool θ L) (other thread : θ) :
    (pool.goOn other thread).todo <:+ (pool thread).todo := by
  by_cases same : thread = other
  · subst same
    simp only [goOn, Function.update_self]
    rcases pool thread with ⟨_ | ⟨action, rest⟩, held⟩
    · exact List.suffix_rfl
    · cases action with
      | acquire | release | sleep => exact List.suffix_cons _ _
      | forever => exact List.suffix_rfl
  · simp [goOn, same]

theorem suffix_of_goesOn {may : Pool θ L → θ → Prop} {pool next : Pool θ L}
    (run : ReflTransGen (GoesOn may) pool next) (thread : θ) :
    (next thread).todo <:+ (pool thread).todo := by
  induction run with
  | refl => exact List.suffix_rfl
  | tail _ step ih =>
      cases step with
      | act other => exact (suffix_goOn _ other thread).trans ih

/-- A thread that is caught in work that never ends stays as it is. -/
theorem eq_of_forever {may : Pool θ L → θ → Prop} {pool next : Pool θ L} {thread : θ}
    {rest : List (Action L)} (loops : (pool thread).todo = .forever :: rest)
    (run : ReflTransGen (GoesOn may) pool next) : next thread = pool thread := by
  induction run with
  | refl => rfl
  | @tail middle last _ step ih =>
      cases step with
      | act other =>
          by_cases same : thread = other
          · subst same
            have stays : (middle thread).next = middle thread := by
              unfold Thread.next
              rw [ih, loops]
            rw [goOn, Function.update_self, stays, ih]
          · rw [goOn, Function.update_of_ne same, ih]

/-- A thread that does not sleep finishes its call by itself when no other thread
holds a lock. -/
theorem Orderly.exists_finished_alone {pool : Pool θ L} (orderly : Orderly rank pool) {thread : θ}
    (sleepless : .sleep ∉ (pool thread).todo)
    (others : ∀ other, other ≠ thread → (pool other).held = []) :
    ∃ next, ReflTransGen (GoesOn fun _ other => other = thread) pool next ∧
      (next thread).todo = [] := by
  let Inv (pool : Pool θ L) : Prop := Orderly rank pool ∧ .sleep ∉ (pool thread).todo ∧
    ∀ other, other ≠ thread → (pool other).held = []
  have goes : ∀ pool, Inv pool → ¬ (pool thread).todo = [] → ∃ next,
      GoesOn (fun _ other => other = thread) pool next ∧ Inv next ∧
        (next thread).todo.length < (pool thread).todo.length := by
    rintro pool ⟨orderly, sleepless, others⟩ busy
    use pool.goOn thread
    constructor
    · apply GoesOn.act thread rfl busy
      · rintro ⟨rest, sleeps⟩
        rw [sleeps] at sleepless
        exact sleepless List.mem_cons_self
      · rintro ⟨lock, rest, asks, other, has⟩
        have follows := orderly thread
        rw [asks] at follows
        simp only [Follows] at follows
        by_cases same : other = thread
        · subst same
          exact (follows.1 lock has).false
        · rw [others other same] at has
          exact List.not_mem_nil has
    · constructor
      · constructor
        · exact orderly.goOn thread
        · constructor
          · exact fun sleeps => sleepless ((suffix_goOn pool thread thread).subset sleeps)
          · intro other different
            rw [Pool.goOn, Function.update_of_ne different]
            exact others other different
      · simpa [Pool.goOn] using length_next_lt busy (orderly.ends thread)
  obtain ⟨next, run, -, done⟩ := exists_reaches (fun pool : Pool θ L => (pool thread).todo.length)
    goes ⟨orderly, sleepless, others⟩
  exact ⟨next, run, done⟩

/-- A call that does not sleep can be finished by its thread and by those that
hold locks. -/
theorem Orderly.exists_finished [Finite θ] {pool : Pool θ L} (orderly : Orderly rank pool)
    {thread : θ} (sleepless : .sleep ∉ (pool thread).todo) :
    ∃ next, ReflTransGen (GoesOn fun pool other => pool.IsOwner other ∨ other = thread) pool next ∧
      (next thread).todo = [] := by
  obtain ⟨middle, run, order, released⟩ := orderly.exists_released
  obtain ⟨next, rest, done⟩ := order.exists_finished_alone
    (fun sleeps => sleepless ((suffix_of_goesOn run thread).subset sleeps))
    (fun other _ => released other)
  use next
  constructor
  · apply ReflTransGen.trans
    · exact ReflTransGen.mono (fun _ _ step => step.mono fun _ _ owns => .inl owns) _ _ run
    · exact ReflTransGen.mono (fun _ _ step => step.mono fun _ _ same => .inr same) _ _ rest
  · exact done

/-- The rest of a call that does not sleep does not sleep. -/
theorem sleepless_of_reachable {thread : θ} (sleepless : Sleepless (calls thread))
    {pool : Pool θ L} (reachable : Reachable calls pool) : .sleep ∉ (pool thread).todo := by
  induction reachable with
  | refl => exact List.not_mem_nil
  | tail _ step ih =>
      cases step with
      | call other word idle goes =>
          by_cases same : thread = other
          · subst same
            simpa using sleepless word goes
          · simpa [same] using ih
      | act goes =>
          cases goes with
          | act other => exact fun sleeps => ih ((suffix_goOn _ other thread).subset sleeps)
      | wake other => exact fun sleeps => ih ((suffix_goOn _ other thread).subset sleeps)

end Pool

end TradingApp.Transition.Locks
