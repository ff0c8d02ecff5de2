import Mathlib.Logic.Function.Basic
import TradingApp.Transition.Run

/-!
# Concurrent updates of a shared record

A record is created once, and calls of several threads each set one of its
fields.  A call reads the whole record in one step and writes it back with its
field set in another, so what is written in between is lost.  A call that finds
no record returns at once.

Nothing is lost if every call starts when the record is there and no call for
another field is between its two steps; and where every field has one call at
most and its value is a new one, nothing else will do.
-/

namespace TradingApp.Transition.SharedRecord

universe u v w

variable {ι : Type u} {κ : Type v} {ν : Type w}

/-- Where a call stands. -/
inductive Phase (κ : Type v) (ν : Type w) where
  | called
  | read (record : κ → ν)
  | returned

/-- A record that calls change, and where each call is. -/
structure Shared (ι : Type u) (κ : Type v) (ν : Type w) where
  record : Option (κ → ν)
  phase : ι → Phase κ ν

/-- The record is created, or a call makes its next step. -/
inductive Label (ι : Type u) where
  | create
  | advance (call : ι)
deriving DecidableEq, Repr

/-- No record yet, and no call has made a step. -/
def start : Shared ι κ ν where
  record := none
  phase _ := .called

variable [DecidableEq ι] [DecidableEq κ] (initial : κ → ν) (field : ι → κ) (value : ι → ν)

/-- A call reads the whole record, and writes it back later with its own field
changed. -/
def step (shared : Shared ι κ ν) : Label ι → Shared ι κ ν
  | .create => { shared with record := some (shared.record.getD initial) }
  | .advance call =>
      match shared.phase call, shared.record with
      | .called, none =>
          { shared with phase := Function.update shared.phase call .returned }
      | .called, some record =>
          { shared with phase := Function.update shared.phase call (.read record) }
      | .read record, _ =>
          { record := some (Function.update record (field call) (value call))
            phase := Function.update shared.phase call .returned }
      | .returned, _ => shared

/-- The record exists and all calls have returned. -/
def Complete (shared : Shared ι κ ν) : Prop :=
  shared.record.isSome ∧ ∀ call, shared.phase call = .returned

/-- Every field has the value of a call for it, or its initial one if there
was no such call. -/
def Kept (shared : Shared ι κ ν) : Prop :=
  ∃ record, shared.record = some record ∧
    ∀ k, (∃ call, field call = k ∧ record k = value call) ∨
      (∀ call, field call ≠ k) ∧ record k = initial k

/-- A call that starts finds a record, and no call for another field is
between its two steps. -/
def StartsAlone (shared : Shared ι κ ν) : Label ι → Prop
  | .create => True
  | .advance call =>
      shared.phase call = .called →
        shared.record.isSome ∧
          ∀ other record, shared.phase other = .read record → field other = field call

/-! ## Single steps -/

section Step

variable {initial field value} {shared : Shared ι κ ν} {call : ι}

theorem step_called_none (phase : shared.phase call = .called) (none : shared.record = none) :
    step initial field value shared (.advance call) =
      { shared with phase := Function.update shared.phase call .returned } := by
  simp only [step, phase, none]

theorem step_called_some {record : κ → ν} (phase : shared.phase call = .called)
    (some : shared.record = some record) :
    step initial field value shared (.advance call) =
      { shared with phase := Function.update shared.phase call (.read record) } := by
  simp only [step, phase, some]

theorem step_read {snapshot : κ → ν} (phase : shared.phase call = .read snapshot) :
    step initial field value shared (.advance call) =
      { record := some (Function.update snapshot (field call) (value call))
        phase := Function.update shared.phase call .returned } := by
  simp only [step, phase]

theorem step_returned (phase : shared.phase call = .returned) :
    step initial field value shared (.advance call) = shared := by
  simp only [step, phase]

theorem step_create_some {record : κ → ν} (some : shared.record = some record) :
    step initial field value shared .create = shared := by
  simp only [step, some, Option.getD_some]
  rw [← some]

end Step

/-! ## Calls that do not overlap -/

/-- What holds as long as calls start alone. -/
structure Ordered (shared : Shared ι κ ν) : Prop where
  called_of_none : shared.record = none → ∀ call, shared.phase call = .called
  kept : ∀ record, shared.record = some record → ∀ k,
    (∃ call, shared.phase call = .returned ∧ field call = k ∧ record k = value call) ∨
      (∀ call, field call = k → shared.phase call ≠ .returned) ∧ record k = initial k
  read : ∀ call snapshot, shared.phase call = .read snapshot →
    ∃ record, shared.record = some record ∧ ∀ k, k ≠ field call → snapshot k = record k
  alone : ∀ call other snapshot snapshot', shared.phase call = .read snapshot →
    shared.phase other = .read snapshot' → field call = field other

omit [DecidableEq ι] [DecidableEq κ] in
theorem ordered_start : Ordered initial field value (start : Shared ι κ ν) where
  called_of_none _ _ := rfl
  kept := nofun
  read := nofun
  alone := nofun

variable {initial field value} {shared : Shared ι κ ν}

omit [DecidableEq κ] in
/-- A call that starts alone reads the record as it stays for the others. -/
theorem Ordered.starts (ordered : Ordered initial field value shared) {call : ι} {record : κ → ν}
    (phase : shared.phase call = .called) (some : shared.record = some record)
    (alone : ∀ other snapshot, shared.phase other = .read snapshot → field other = field call) :
    Ordered initial field value
      { shared with phase := Function.update shared.phase call (.read record) } := by
  constructor
  · intro none
    exact absurd (some.symm.trans none) nofun
  · intro present isPresent k
    rcases ordered.kept present isPresent k with ⟨writer, returned, written⟩ | ⟨pending, same⟩
    · have other : writer ≠ call := by
        rintro rfl
        exact absurd (phase.symm.trans returned) nofun
      exact Or.inl ⟨writer, (Function.update_of_ne other _ _).trans returned, written⟩
    · refine Or.inr ⟨fun writer isFor => ?_, same⟩
      dsimp only
      by_cases other : writer = call
      · rw [other, Function.update_self]
        exact nofun
      · rw [Function.update_of_ne other]
        exact pending writer isFor
  · intro reader snapshot reads
    dsimp only at reads
    by_cases other : reader = call
    · rw [other, Function.update_self] at reads
      obtain rfl := Phase.read.inj reads
      exact ⟨record, some, fun _ _ => rfl⟩
    · rw [Function.update_of_ne other] at reads
      exact ordered.read reader snapshot reads
  · have toCall (reader : ι) (snapshot : κ → ν)
        (reads : Function.update shared.phase call (.read record) reader = .read snapshot) :
        field reader = field call := by
      by_cases other : reader = call
      · rw [other]
      · rw [Function.update_of_ne other] at reads
        exact alone reader snapshot reads
    intro first second snapshot snapshot' firstReads secondReads
    exact (toCall first snapshot firstReads).trans (toCall second snapshot' secondReads).symm

/-- A call's second step changes no field but its own. -/
theorem Ordered.writes (ordered : Ordered initial field value shared) {call : ι}
    {snapshot : κ → ν} (phase : shared.phase call = .read snapshot) :
    Ordered initial field value
      { record := some (Function.update snapshot (field call) (value call))
        phase := Function.update shared.phase call .returned } := by
  obtain ⟨record, some, agrees⟩ := ordered.read call snapshot phase
  constructor
  · exact nofun
  · intro present isPresent k
    obtain rfl := Option.some.inj isPresent
    by_cases own : k = field call
    · refine Or.inl ⟨call, Function.update_self .., own.symm, ?_⟩
      rw [own, Function.update_self]
    · rw [Function.update_of_ne own, agrees k own]
      rcases ordered.kept record some k with ⟨writer, returned, written⟩ | ⟨pending, same⟩
      · have other : writer ≠ call := by
          rintro rfl
          exact absurd (phase.symm.trans returned) nofun
        exact Or.inl ⟨writer, (Function.update_of_ne other _ _).trans returned, written⟩
      · refine Or.inr ⟨fun writer isFor => ?_, same⟩
        have other : writer ≠ call := by
          rintro rfl
          exact own isFor.symm
        dsimp only
        rw [Function.update_of_ne other]
        exact pending writer isFor
  · intro reader snapshot' reads
    dsimp only at reads
    have other : reader ≠ call := by
      rintro rfl
      rw [Function.update_self] at reads
      exact nomatch reads
    rw [Function.update_of_ne other] at reads
    have sameField := ordered.alone reader call _ _ reads phase
    obtain ⟨record', some', agrees'⟩ := ordered.read reader snapshot' reads
    obtain rfl := Option.some.inj (some.symm.trans some')
    refine ⟨_, rfl, fun k differs => ?_⟩
    rw [agrees' k differs, Function.update_of_ne (sameField ▸ differs),
      agrees k (sameField ▸ differs)]
  · have before (reader : ι) (snapshot' : κ → ν)
        (reads : Function.update shared.phase call .returned reader = .read snapshot') :
        shared.phase reader = .read snapshot' := by
      by_cases other : reader = call
      · rw [other, Function.update_self] at reads
        exact nomatch reads
      · rwa [Function.update_of_ne other] at reads
    intro first second _ _ firstReads secondReads
    exact ordered.alone first second _ _ (before _ _ firstReads) (before _ _ secondReads)

theorem Ordered.step (ordered : Ordered initial field value shared) {label : Label ι}
    (alone : StartsAlone field shared label) :
    Ordered initial field value (step initial field value shared label) := by
  cases label with
  | create =>
      cases record : shared.record with
      | some present =>
          rw [step_create_some record]
          exact ordered
      | none =>
          have called := ordered.called_of_none record
          constructor
          · exact nofun
          · intro present isPresent k
            rw [SharedRecord.step, record] at isPresent
            obtain rfl := Option.some.inj isPresent
            refine Or.inr ⟨fun writer _ returned => ?_, rfl⟩
            exact absurd ((called writer).symm.trans returned) nofun
          · intro reader snapshot reads
            exact absurd ((called reader).symm.trans reads) nofun
          · intro reader _ snapshot _ reads _
            exact absurd ((called reader).symm.trans reads) nofun
  | advance call =>
      cases phase : shared.phase call with
      | called =>
          obtain ⟨isSome, alone⟩ := alone phase
          obtain ⟨record, some⟩ := Option.isSome_iff_exists.mp isSome
          rw [step_called_some phase some]
          exact ordered.starts phase some alone
      | read snapshot =>
          rw [step_read phase]
          exact ordered.writes phase
      | returned =>
          rw [step_returned phase]
          exact ordered

omit [DecidableEq ι] [DecidableEq κ] in
/-- Once all calls have returned, nothing is lost. -/
theorem Ordered.keeps (ordered : Ordered initial field value shared) (complete : Complete shared) :
    Kept initial field value shared := by
  obtain ⟨record, some⟩ := Option.isSome_iff_exists.mp complete.1
  refine ⟨record, some, fun k => ?_⟩
  rcases ordered.kept record some k with ⟨call, _, written⟩ | ⟨pending, same⟩
  · exact Or.inl ⟨call, written⟩
  · exact Or.inr ⟨fun call isFor => pending call isFor (complete.2 call), same⟩

/-! ## Calls that overlap -/

section Overlap

variable (field value) in
/-- The value of a call that has not returned is nowhere yet. -/
structure Pending (shared : Shared ι κ ν) : Prop where
  exists_record : ∀ call snapshot, shared.phase call = .read snapshot → shared.record.isSome
  record : ∀ call, shared.phase call ≠ .returned → ∀ record, shared.record = some record →
    record (field call) ≠ value call
  snapshot : ∀ call, shared.phase call ≠ .returned → ∀ other snapshot,
    shared.phase other = .read snapshot → snapshot (field call) ≠ value call

variable (field value) in
/-- Whichever call writes last, the value of another one is lost. -/
structure Doomed (shared : Shared ι κ ν) : Prop where
  read : ∀ call snapshot, shared.phase call = .read snapshot →
    ∃ other, other ≠ call ∧ shared.phase other ≠ .called ∧ snapshot (field other) ≠ value other
  idle : (∀ call snapshot, shared.phase call ≠ .read snapshot) →
    ∃ call, shared.phase call = .returned ∧
      ∀ record, shared.record = some record → record (field call) ≠ value call

omit [DecidableEq ι] [DecidableEq κ] in
theorem pending_start : Pending field value (start : Shared ι κ ν) where
  exists_record := nofun
  record := nofun
  snapshot := nofun

omit [DecidableEq κ] in
/-- Of all calls only one changes its phase. -/
theorem update_phase_iff {phase : ι → Phase κ ν} {call other : ι} {next p : Phase κ ν} :
    Function.update phase call next other = p ↔
      other = call ∧ next = p ∨ other ≠ call ∧ phase other = p := by
  rw [Function.update_apply]
  split <;> tauto

omit [DecidableEq κ] in
/-- A call that had not returned makes a step: those that have not returned
now had not before. -/
theorem not_returned_of_update {phase : ι → Phase κ ν} {call other : ι} {next : Phase κ ν}
    (running : phase call ≠ .returned)
    (pending : Function.update phase call next other ≠ .returned) : phase other ≠ .returned := by
  by_cases same : other = call
  · rwa [same]
  · rwa [Function.update_of_ne same] at pending

omit [DecidableEq κ] in
/-- The first step of a call. -/
theorem Pending.starts (pending : Pending field value shared) {call : ι} {record : κ → ν}
    (phase : shared.phase call = .called) (some : shared.record = some record) :
    Pending field value
      { shared with phase := Function.update shared.phase call (.read record) } := by
  have running : shared.phase call ≠ .returned := by
    rw [phase]
    exact nofun
  constructor
  · exact fun _ _ _ => Option.isSome_iff_exists.mpr ⟨record, some⟩
  · exact fun writer waits => pending.record writer (not_returned_of_update running waits)
  · intro writer waits reader snapshot reads
    have waits := not_returned_of_update running waits
    rcases update_phase_iff.mp reads with ⟨_, same⟩ | ⟨_, reads⟩
    · obtain rfl := Phase.read.inj same
      exact pending.record writer waits record some
    · exact pending.snapshot writer waits reader snapshot reads

/-- The second step of a call. -/
theorem Pending.writes (pending : Pending field value shared) (distinct : Function.Injective field)
    {call : ι} {snapshot : κ → ν} (phase : shared.phase call = .read snapshot) :
    Pending field value
      { record := some (Function.update snapshot (field call) (value call))
        phase := Function.update shared.phase call .returned } := by
  have running : shared.phase call ≠ .returned := by
    rw [phase]
    exact nofun
  constructor
  · exact fun _ _ _ => rfl
  · intro writer waits record isRecord
    obtain rfl := Option.some.inj isRecord
    have other : writer ≠ call := fun same => waits (update_phase_iff.mpr (Or.inl ⟨same, rfl⟩))
    rw [Function.update_of_ne (distinct.ne other)]
    exact pending.snapshot writer (not_returned_of_update running waits) call snapshot phase
  · intro writer waits reader snapshot' reads
    rcases update_phase_iff.mp reads with ⟨_, same⟩ | ⟨_, reads⟩
    · exact nomatch same
    · exact pending.snapshot writer (not_returned_of_update running waits) reader snapshot' reads

theorem Pending.step (pending : Pending field value shared) (distinct : Function.Injective field)
    (new : ∀ call, initial (field call) ≠ value call) (label : Label ι) :
    Pending field value (step initial field value shared label) := by
  cases label with
  | create =>
      cases record : shared.record with
      | some present =>
          rw [step_create_some record]
          exact pending
      | none =>
          constructor
          · exact fun _ _ _ => rfl
          · intro call _ present isPresent
            rw [SharedRecord.step, record] at isPresent
            obtain rfl := Option.some.inj isPresent
            exact new call
          · exact pending.snapshot
  | advance call =>
      cases phase : shared.phase call with
      | called =>
          cases record : shared.record with
          | none =>
              have running : shared.phase call ≠ .returned := by
                rw [phase]
                exact nofun
              rw [step_called_none phase record]
              constructor
              · intro reader snapshot reads
                rcases update_phase_iff.mp reads with ⟨_, same⟩ | ⟨_, reads⟩
                · exact nomatch same
                · exact pending.exists_record reader snapshot reads
              · exact fun writer waits =>
                  pending.record writer (not_returned_of_update running waits)
              · intro writer waits reader snapshot reads
                rcases update_phase_iff.mp reads with ⟨_, same⟩ | ⟨_, reads⟩
                · exact nomatch same
                · exact pending.snapshot writer (not_returned_of_update running waits) reader
                    snapshot reads
          | some present =>
              rw [step_called_some phase record]
              exact pending.starts phase record
      | read snapshot =>
          rw [step_read phase]
          exact pending.writes distinct phase
      | returned =>
          rw [step_returned phase]
          exact pending

omit [DecidableEq κ] in
/-- A call finds no record. -/
theorem Pending.doomed_of_missing (pending : Pending field value shared) {call : ι}
    (none : shared.record = none) :
    Doomed field value
      { shared with phase := Function.update shared.phase call .returned } := by
  constructor
  · intro reader snapshot reads
    rcases update_phase_iff.mp reads with ⟨_, same⟩ | ⟨_, reads⟩
    · exact nomatch same
    · have isSome := pending.exists_record reader snapshot reads
      rw [none] at isSome
      exact nomatch isSome
  · intro _
    refine ⟨call, Function.update_self .., fun record isRecord => ?_⟩
    exact absurd (none.symm.trans isRecord) nofun

omit [DecidableEq κ] in
/-- A call that starts while another one is between its steps. -/
theorem Pending.doomed_of_overlap (pending : Pending field value shared) {call other : ι}
    {record snapshot : κ → ν} (phase : shared.phase call = .called)
    (some : shared.record = some record) (reads : shared.phase other = .read snapshot) :
    Doomed field value
      { shared with phase := Function.update shared.phase call (.read record) } := by
  constructor
  · intro reader snapshot' readerReads
    rcases update_phase_iff.mp readerReads with ⟨rfl, same⟩ | ⟨different, readerReads⟩
    · obtain rfl := Phase.read.inj same
      have different : other ≠ reader := by
        rintro rfl
        exact nomatch phase.symm.trans reads
      refine ⟨other, different, ?_, pending.record other (by rw [reads]; exact nofun) record some⟩
      dsimp only
      rw [Function.update_of_ne different, reads]
      exact nofun
    · refine ⟨call, different.symm, ?_, ?_⟩
      · dsimp only
        rw [Function.update_self]
        exact nofun
      · exact pending.snapshot call (by rw [phase]; exact nofun) reader snapshot' readerReads
  · exact fun idle => absurd (Function.update_self ..) (idle call record)

omit [DecidableEq κ] in
/-- The first step of a call leaves the record doomed. -/
theorem Doomed.starts (doomed : Doomed field value shared) (pending : Pending field value shared)
    {call : ι} {record : κ → ν} (phase : shared.phase call = .called)
    (some : shared.record = some record) :
    Doomed field value
      { shared with phase := Function.update shared.phase call (.read record) } := by
  by_cases overlaps : ∃ other snapshot, shared.phase other = .read snapshot
  · obtain ⟨other, snapshot, reads⟩ := overlaps
    exact pending.doomed_of_overlap phase some reads
  · have idle (other : ι) (snapshot : κ → ν) : shared.phase other ≠ .read snapshot :=
      fun reads => overlaps ⟨other, snapshot, reads⟩
    obtain ⟨other, returned, lost⟩ := doomed.idle idle
    have different : other ≠ call := by
      rintro rfl
      exact nomatch phase.symm.trans returned
    constructor
    · intro reader snapshot reads
      rcases update_phase_iff.mp reads with ⟨rfl, same⟩ | ⟨_, reads⟩
      · obtain rfl := Phase.read.inj same
        refine ⟨other, different, ?_, lost record some⟩
        dsimp only
        rw [Function.update_of_ne different, returned]
        exact nofun
      · exact absurd reads (idle reader snapshot)
    · exact fun idle => absurd (Function.update_self ..) (idle call record)

/-- So does the second one. -/
theorem Doomed.writes (doomed : Doomed field value shared) (distinct : Function.Injective field)
    {call : ι} {snapshot : κ → ν} (phase : shared.phase call = .read snapshot) :
    Doomed field value
      { record := some (Function.update snapshot (field call) (value call))
        phase := Function.update shared.phase call .returned } := by
  constructor
  · intro reader snapshot' reads
    rcases update_phase_iff.mp reads with ⟨_, same⟩ | ⟨_, reads⟩
    · exact nomatch same
    · obtain ⟨other, different, notCalled, lost⟩ := doomed.read reader snapshot' reads
      refine ⟨other, different, fun isCalled => ?_, lost⟩
      rcases update_phase_iff.mp isCalled with ⟨_, same⟩ | ⟨_, isCalled⟩
      · exact nomatch same
      · exact notCalled isCalled
  · intro idle
    obtain ⟨other, different, notCalled, lost⟩ := doomed.read call snapshot phase
    have stays := Function.update_of_ne different Phase.returned shared.phase
    refine ⟨other, ?_, fun record isRecord => ?_⟩
    · cases otherPhase : shared.phase other with
      | called => exact absurd otherPhase notCalled
      | read snapshot' => exact absurd (stays.trans otherPhase) (idle other snapshot')
      | returned => exact stays.trans otherPhase
    · obtain rfl := Option.some.inj isRecord
      rwa [Function.update_of_ne (distinct.ne different)]

/-- Once doomed, always doomed. -/
theorem Doomed.step (doomed : Doomed field value shared) (pending : Pending field value shared)
    (distinct : Function.Injective field) (new : ∀ call, initial (field call) ≠ value call)
    (label : Label ι) : Doomed field value (step initial field value shared label) := by
  cases label with
  | create =>
      cases record : shared.record with
      | some present =>
          rw [step_create_some record]
          exact doomed
      | none =>
          refine ⟨doomed.read, fun idle => ?_⟩
          obtain ⟨call, returned, _⟩ := doomed.idle idle
          refine ⟨call, returned, fun present isPresent => ?_⟩
          rw [SharedRecord.step, record] at isPresent
          obtain rfl := Option.some.inj isPresent
          exact new call
  | advance call =>
      cases phase : shared.phase call with
      | called =>
          cases record : shared.record with
          | none =>
              rw [step_called_none phase record]
              exact pending.doomed_of_missing record
          | some present =>
              rw [step_called_some phase record]
              exact doomed.starts pending phase record
      | read snapshot =>
          rw [step_read phase]
          exact doomed.writes distinct phase
      | returned =>
          rw [step_returned phase]
          exact doomed

/-- A call that does not start alone dooms the record. -/
theorem doomed_of_not_startsAlone (pending : Pending field value shared) {label : Label ι}
    (overlaps : ¬ StartsAlone field shared label) :
    Doomed field value (step initial field value shared label) := by
  cases label with
  | create => exact absurd trivial overlaps
  | advance call =>
      obtain ⟨phase, fails⟩ := Classical.not_imp.mp overlaps
      cases record : shared.record with
      | none =>
          rw [step_called_none phase record]
          exact pending.doomed_of_missing record
      | some present =>
          rw [step_called_some phase record]
          have reads : ∃ other snapshot, shared.phase other = .read snapshot := by
            by_contra nobody
            refine fails ⟨?_, fun other snapshot reads => ?_⟩
            · rw [record]
              rfl
            · exact absurd ⟨other, snapshot, reads⟩ nobody
          obtain ⟨other, snapshot, reads⟩ := reads
          exact pending.doomed_of_overlap phase record reads

omit [DecidableEq ι] [DecidableEq κ] in
theorem Doomed.not_kept (doomed : Doomed field value shared) (distinct : Function.Injective field)
    (complete : Complete shared) : ¬ Kept initial field value shared := by
  rintro ⟨record, some, kept⟩
  have idle (call : ι) (snapshot : κ → ν) : shared.phase call ≠ .read snapshot := by
    rw [complete.2 call]
    exact nofun
  obtain ⟨call, _, lost⟩ := doomed.idle idle
  rcases kept (field call) with ⟨writer, sameField, written⟩ | ⟨nobody, _⟩
  · obtain rfl := distinct sameField
    exact lost record some written
  · exact nobody call rfl

end Overlap

/-! ## Runs -/

section Runs

variable (initial field value)

/-- Updates are kept if all calls start alone. -/
theorem kept_of_startsAlone {labels : List (Label ι)}
    (alone : EveryStep (step initial field value) (StartsAlone field) start labels)
    (complete : Complete (run (step initial field value) start labels)) :
    Kept initial field value (run (step initial field value) start labels) := by
  have states : EveryState (step initial field value) (Ordered initial field value) start labels :=
    everyState_of_everyStep (fun _ _ ordered alone => ordered.step alone)
      (ordered_start initial field value) alone
  exact states.last.keeps complete

/-- With one call at most for each field, and new values, updates are kept in
no other case. -/
theorem kept_iff_startsAlone (distinct : Function.Injective field)
    (new : ∀ call, initial (field call) ≠ value call) {labels : List (Label ι)}
    (complete : Complete (run (step initial field value) start labels)) :
    Kept initial field value (run (step initial field value) start labels) ↔
      EveryStep (step initial field value) (StartsAlone field) start labels := by
  refine ⟨fun kept => ?_, fun alone => kept_of_startsAlone initial field value alone complete⟩
  have aloneOrDoomed (shared : Shared ι κ ν) (labels : List (Label ι))
      (pending : Pending field value shared) :
      EveryStep (step initial field value) (StartsAlone field) shared labels ∨
        Doomed field value (run (step initial field value) shared labels) := by
    induction labels generalizing shared with
    | nil => exact Or.inl trivial
    | cons label rest ih =>
        have next := pending.step distinct new label
        by_cases alone : StartsAlone field shared label
        · exact (ih _ next).imp (fun later => ⟨alone, later⟩) id
        · have states : EveryState (step initial field value)
              (fun shared => Doomed field value shared ∧ Pending field value shared)
              (step initial field value shared label) rest :=
            everyState_of_forall_step
              (fun shared label both =>
                ⟨both.1.step both.2 distinct new label, both.2.step distinct new label⟩)
              ⟨doomed_of_not_startsAlone pending alone, next⟩ rest
          exact Or.inr states.last.1
  rcases aloneOrDoomed start labels pending_start with alone | doomed
  · exact alone
  · exact absurd kept (doomed.not_kept distinct complete)

end Runs

end TradingApp.Transition.SharedRecord
