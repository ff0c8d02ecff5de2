import Mathlib.Algebra.BigOperators.Group.List.Basic
import Mathlib.Data.List.Basic
import Mathlib.Data.List.Infix

/-!
# Runs of labelled step functions

A system is a total step function on states and labels; whatever its
environment may choose is part of the label.  A trace is a list of labels.
The file relates three views of a trace: the state it ends in, a property of
every state it passes through, and a property of every step it takes.

The last section is the rule most safety results use: when an invariant
survives exactly the steps that meet a condition, a trace keeps the property
the invariant guards if and only if all its steps meet the condition.
-/

namespace TradingApp.Transition

universe u v

variable {σ : Type u} {α : Type v}

/-- State reached after executing the labels of a trace in order. -/
def run (step : σ → α → σ) : σ → List α → σ
  | state, [] => state
  | state, label :: rest => run step (step state label) rest

@[simp]
theorem run_nil (step : σ → α → σ) (state : σ) : run step state [] = state :=
  rfl

@[simp]
theorem run_cons (step : σ → α → σ) (state : σ) (label : α) (rest : List α) :
    run step state (label :: rest) = run step (step state label) rest :=
  rfl

/-- A concatenated trace runs its second part from where the first one ends. -/
theorem run_append (step : σ → α → σ) (state : σ) (first second : List α) :
    run step state (first ++ second) = run step (run step state first) second := by
  induction first generalizing state with
  | nil => rfl
  | cons label rest ih => exact ih (step state label)

/-- `P` holds of every state a trace passes through, the first and the last
included. -/
def EveryState (step : σ → α → σ) (P : σ → Prop) : σ → List α → Prop
  | state, [] => P state
  | state, label :: rest => P state ∧ EveryState step P (step state label) rest

/-- `C` holds of every step of a trace, at the state the step starts from. -/
def EveryStep (step : σ → α → σ) (C : σ → α → Prop) : σ → List α → Prop
  | _, [] => True
  | state, label :: rest => C state label ∧ EveryStep step C (step state label) rest

variable {step : σ → α → σ} {P Inv : σ → Prop} {A C Q : σ → α → Prop}

instance EveryState.decidable [DecidablePred P] :
    (state : σ) → (trace : List α) → Decidable (EveryState step P state trace)
  | state, [] => inferInstanceAs (Decidable (P state))
  | state, label :: rest =>
      letI := EveryState.decidable (step state label) rest
      inferInstanceAs (Decidable (P state ∧ EveryState step P (step state label) rest))

instance EveryStep.decidable [∀ state label, Decidable (C state label)] :
    (state : σ) → (trace : List α) → Decidable (EveryStep step C state trace)
  | _, [] => inferInstanceAs (Decidable True)
  | state, label :: rest =>
      letI := EveryStep.decidable (step state label) rest
      inferInstanceAs (Decidable (C state label ∧ EveryStep step C (step state label) rest))

@[simp]
theorem everyStep_nil (state : σ) : EveryStep step C state [] :=
  trivial

@[simp]
theorem everyStep_cons (state : σ) (label : α) (rest : List α) :
    EveryStep step C state (label :: rest) ↔
      C state label ∧ EveryStep step C (step state label) rest :=
  Iff.rfl

/-- Every prefix of a trace ends in a state with the property. -/
theorem everyState_iff_forall_initial (state : σ) (trace : List α) :
    EveryState step P state trace ↔
      ∀ before, before <+: trace → P (run step state before) := by
  induction trace generalizing state with
  | nil => simp [EveryState]
  | cons label rest ih =>
      simp only [EveryState, ih, List.prefix_cons_iff]
      constructor
      · rintro ⟨here, later⟩ before (rfl | ⟨before, rfl, isPrefix⟩)
        · exact here
        · exact later before isPrefix
      · intro all
        exact ⟨all [] (Or.inl rfl), fun before isPrefix =>
          all (label :: before) (Or.inr ⟨before, rfl, isPrefix⟩)⟩

/-- The state after a trace is one it passes through. -/
theorem EveryState.last {state : σ} {trace : List α}
    (every : EveryState step P state trace) : P (run step state trace) :=
  (everyState_iff_forall_initial state trace).mp every trace (List.prefix_refl trace)

/-- A property that no step brings back has held throughout if it holds at the
end. -/
theorem everyState_of_last (back : ∀ state label, P (step state label) → P state) {state : σ}
    {trace : List α} (last : P (run step state trace)) : EveryState step P state trace := by
  induction trace generalizing state with
  | nil => exact last
  | cons label rest ih =>
      have later := ih last
      refine ⟨back state label ?_, later⟩
      cases rest with
      | nil => exact later
      | cons _ _ => exact later.1

theorem EveryState.mono {P' : σ → Prop} (weaken : ∀ state, P state → P' state)
    {state : σ} {trace : List α} (every : EveryState step P state trace) :
    EveryState step P' state trace := by
  induction trace generalizing state with
  | nil => exact weaken state every
  | cons label rest ih => exact ⟨weaken state every.1, ih every.2⟩

theorem EveryStep.mono {C' : σ → α → Prop} (weaken : ∀ state label, C state label → C' state label)
    {state : σ} {trace : List α} (every : EveryStep step C state trace) :
    EveryStep step C' state trace := by
  induction trace generalizing state with
  | nil => trivial
  | cons label rest ih => exact ⟨weaken state label every.1, ih every.2⟩

theorem everyStep_and_iff (state : σ) (trace : List α) :
    EveryStep step (fun s a => C s a ∧ Q s a) state trace ↔
      EveryStep step C state trace ∧ EveryStep step Q state trace := by
  induction trace generalizing state with
  | nil => simp
  | cons label rest ih => simp only [everyStep_cons, ih]; tauto

/-- A property of all states is one of the first state and of the state each
step leads to. -/
theorem everyState_iff_everyStep_next (state : σ) (trace : List α) :
    EveryState step P state trace ↔
      P state ∧ EveryStep step (fun s a => P (step s a)) state trace := by
  induction trace generalizing state with
  | nil => simp [EveryState]
  | cons label rest ih => simp only [EveryState, everyStep_cons, ih]

/-- A trace extended by one label passes through one more state. -/
theorem everyState_concat (state : σ) (trace : List α) (label : α) :
    EveryState step P state (trace ++ [label]) ↔
      EveryState step P state trace ∧ P (run step state (trace ++ [label])) := by
  induction trace generalizing state with
  | nil => rfl
  | cons first rest ih => simp only [List.cons_append, EveryState, ih, run_cons, and_assoc]

/-- A property that only steps meeting `C` bring about, and that does not hold
at first, has held since such a step whenever it holds. -/
theorem exists_since (brings : ∀ state label, P (step state label) → P state ∨ C state label)
    {state : σ} (start : ¬ P state) {trace : List α} (holds : P (run step state trace)) :
    ∃ before label after, trace = before ++ label :: after ∧ C (run step state before) label ∧
      EveryState step P (run step state (before ++ [label])) after := by
  induction trace using List.reverseRecOn with
  | nil => exact absurd holds start
  | append_singleton trace last ih =>
      have holds' := holds
      rw [run_append, run_cons, run_nil] at holds'
      rcases brings _ last holds' with already | broughtAbout
      · obtain ⟨before, label, after, rfl, since, every⟩ := ih already
        refine ⟨before, label, after ++ [last], by simp, since, ?_⟩
        rw [everyState_concat, ← run_append]
        refine ⟨every, ?_⟩
        simpa using holds
      · exact ⟨trace, last, [], rfl, broughtAbout, holds⟩

/-- Every step of a trace is the last of one of its prefixes. -/
theorem everyStep_iff_forall_concat (state : σ) (trace : List α) :
    EveryStep step C state trace ↔
      ∀ before label, before ++ [label] <+: trace → C (run step state before) label := by
  induction trace generalizing state with
  | nil => simp
  | cons first rest ih =>
      rw [everyStep_cons, ih]
      constructor
      · rintro ⟨here, later⟩ before label isPrefix
        cases before with
        | nil =>
            obtain ⟨rfl, _⟩ := List.cons_prefix_cons.mp isPrefix
            exact here
        | cons head before =>
            rw [List.cons_append, List.cons_prefix_cons] at isPrefix
            obtain ⟨rfl, isPrefix⟩ := isPrefix
            exact later before label isPrefix
      · intro all
        refine ⟨all [] first (List.prefix_append [first] rest), fun before label isPrefix => ?_⟩
        exact all (first :: before) label (List.cons_prefix_cons.mpr ⟨rfl, isPrefix⟩)

/-! ## Counting steps -/

section Count

variable (step) (Q) [∀ state label, Decidable (Q state label)]

/-- Number of steps of a trace with a property. -/
def countSteps : σ → List α → ℕ
  | _, [] => 0
  | state, label :: rest =>
      (if Q state label then 1 else 0) + countSteps (step state label) rest

theorem countSteps_concat (state : σ) (trace : List α) (label : α) :
    countSteps step Q state (trace ++ [label]) =
      countSteps step Q state trace + if Q (run step state trace) label then 1 else 0 := by
  induction trace generalizing state with
  | nil => exact (Nat.add_zero _).trans (Nat.zero_add _).symm
  | cons first rest ih =>
      simp only [List.cons_append, countSteps, ih, Nat.add_assoc]
      rfl

end Count

/-! ## Invariants -/

/-- An invariant that every step meeting `C` preserves holds throughout a
trace of such steps. -/
theorem everyState_of_everyStep
    (keeps : ∀ state label, Inv state → C state label → Inv (step state label))
    {state : σ} {trace : List α} (start : Inv state)
    (every : EveryStep step C state trace) : EveryState step Inv state trace := by
  induction trace generalizing state with
  | nil => exact start
  | cons label rest ih => exact ⟨start, ih (keeps state label start every.1) every.2⟩

/-- An invariant that every step preserves holds throughout every trace. -/
theorem everyState_of_forall_step
    (keeps : ∀ state label, Inv state → Inv (step state label))
    {state : σ} (start : Inv state) (trace : List α) :
    EveryState step Inv state trace := by
  induction trace generalizing state with
  | nil => exact start
  | cons label rest ih => exact ⟨start, ih (keeps state label start)⟩

/-- Where an invariant holds throughout, what it implies of the steps from its
states holds of every step. -/
theorem everyStep_of_everyState (follows : ∀ state label, Inv state → Q state label)
    {state : σ} {trace : List α} (states : EveryState step Inv state trace) :
    EveryStep step Q state trace := by
  induction trace generalizing state with
  | nil => trivial
  | cons label rest ih => exact ⟨follows state label states.1, ih states.2⟩

/-- Where an invariant survives the steps that meet `C`, and with `C` implies
`Q` of a step, a trace whose steps all meet `C` has `Q` at every step. -/
theorem everyStep_of_everyStep
    (keeps : ∀ state label, Inv state → C state label → Inv (step state label))
    (follows : ∀ state label, Inv state → C state label → Q state label)
    {state : σ} {trace : List α} (start : Inv state) (every : EveryStep step C state trace) :
    EveryStep step Q state trace := by
  induction trace generalizing state with
  | nil => trivial
  | cons label rest ih =>
      exact ⟨follows state label start every.1, ih (keeps state label start every.1) every.2⟩

/-- A trace of two parts takes the steps of the first and then those of the
second. -/
theorem everyStep_append (state : σ) (first second : List α) :
    EveryStep step C state (first ++ second) ↔
      EveryStep step C state first ∧ EveryStep step C (run step state first) second := by
  induction first generalizing state with
  | nil => simp
  | cons label rest ih => simp only [List.cons_append, everyStep_cons, ih, run_cons, and_assoc]

/-- A condition on labels alone holds of every step if all labels meet it. -/
theorem everyStep_of_forall_mem {p : α → Prop} {trace : List α} (all : ∀ label ∈ trace, p label)
    (state : σ) : EveryStep step (fun _ label => p label) state trace := by
  induction trace generalizing state with
  | nil => trivial
  | cons label rest ih =>
      obtain ⟨here, later⟩ := List.forall_mem_cons.mp all
      exact ⟨here, ih later (step state label)⟩

/-! ## Amounts -/

section Amount

universe w

variable {M : Type w} [AddMonoid M] {measure : σ → M} {amount : α → M}

/-- A measure to which each step adds its label's amount has gained all their
amounts at the end of a trace. -/
theorem run_measure {state : σ} {trace : List α}
    (adds : EveryStep step (fun s a => measure (step s a) = measure s + amount a) state trace) :
    measure (run step state trace) = measure state + (trace.map amount).sum := by
  induction trace generalizing state with
  | nil => exact (add_zero _).symm
  | cons label rest ih => rw [run_cons, ih adds.2, adds.1, List.map_cons, List.sum_cons, add_assoc]

end Amount

/-! ## Simulations -/

section Simulation

universe w

variable {τ : Type w} {step' : τ → α → τ} {C' : τ → α → Prop} {R : σ → τ → Prop}

/-- Steps that keep two systems related keep them related throughout a run. -/
theorem run_simulates (keeps : ∀ s t label, R s t → R (step s label) (step' t label))
    {s : σ} {t : τ}
    (start : R s t) (trace : List α) : R (run step s trace) (run step' t trace) := by
  induction trace generalizing s t with
  | nil => exact start
  | cons label rest ih => exact ih (keeps s t label start)

/-- Conditions that agree on related states hold along the same traces. -/
theorem everyStep_iff_of_simulates
    (keeps : ∀ s t label, R s t → R (step s label) (step' t label))
    (same : ∀ s t label, R s t → (C s label ↔ C' t label)) {s : σ} {t : τ} (start : R s t)
    (trace : List α) : EveryStep step C s trace ↔ EveryStep step' C' t trace := by
  induction trace generalizing s t with
  | nil => rfl
  | cons label rest ih =>
      rw [everyStep_cons, everyStep_cons, same s t label start, ih (keeps s t label start)]

end Simulation

/-! ## Records -/

section Record

universe w

variable {γ : Type w} {record : γ → σ → α → γ}

/-- A system whose steps are recorded. -/
def recording (step : σ → α → σ) (record : γ → σ → α → γ) (state : σ × γ) (label : α) : σ × γ :=
  (step state.1 label, record state.2 state.1 label)

end Record

/-! ## Exact conditions -/

/-- Let an invariant survive every admissible step that meets `C`, and let
`Q` hold of exactly those steps.  Then all admissible steps of a trace have
`Q` if and only if they all meet `C`. -/
theorem everyStep_iff_everyStep
    (keeps : ∀ state label, Inv state → A state label → C state label →
      Inv (step state label))
    (exact : ∀ state label, Inv state → A state label → (Q state label ↔ C state label))
    {state : σ} {trace : List α} (start : Inv state)
    (admissible : EveryStep step A state trace) :
    EveryStep step Q state trace ↔ EveryStep step C state trace := by
  induction trace generalizing state with
  | nil => simp
  | cons label rest ih =>
      have here := exact state label start admissible.1
      constructor
      · rintro ⟨holds, later⟩
        have meets := here.mp holds
        exact ⟨meets, (ih (keeps _ _ start admissible.1 meets) admissible.2).mp later⟩
      · rintro ⟨meets, later⟩
        exact ⟨here.mpr meets,
          (ih (keeps _ _ start admissible.1 meets) admissible.2).mpr later⟩

/-- State form of `everyStep_iff_everyStep`: `P` holds in every state of a
trace if and only if every step meets `C`. -/
theorem everyState_iff_everyStep
    (keeps : ∀ state label, Inv state → A state label → C state label →
      Inv (step state label))
    (sound : ∀ state, Inv state → P state)
    (complete : ∀ state label, Inv state → A state label → P (step state label) →
      C state label)
    {state : σ} {trace : List α} (start : Inv state)
    (admissible : EveryStep step A state trace) :
    EveryState step P state trace ↔ EveryStep step C state trace := by
  rw [everyState_iff_everyStep_next]
  have steps := everyStep_iff_everyStep (Q := fun s a => P (step s a)) keeps
    (fun s a inv adm => ⟨complete s a inv adm, fun meets => sound _ (keeps s a inv adm meets)⟩)
    start admissible
  exact ⟨fun both => steps.mp both.2, fun meets => ⟨sound _ start, steps.mpr meets⟩⟩

/-- A step is asked nothing. -/
theorem everyStep_true (state : σ) (trace : List α) :
    EveryStep step (fun _ _ => True) state trace := by
  induction trace generalizing state with
  | nil => trivial
  | cons label rest ih => exact ⟨trivial, ih (step state label)⟩

/-- `everyStep_iff_everyStep` where every step is admissible. -/
theorem everyStep_iff_everyStep_of_forall
    (keeps : ∀ state label, Inv state → C state label → Inv (step state label))
    (exact : ∀ state label, Inv state → (Q state label ↔ C state label))
    {state : σ} (start : Inv state) (trace : List α) :
    EveryStep step Q state trace ↔ EveryStep step C state trace :=
  everyStep_iff_everyStep (fun s a inv _ => keeps s a inv) (fun s a inv _ => exact s a inv) start
    (everyStep_true state trace)

/-- `everyState_iff_everyStep` where every step is admissible. -/
theorem everyState_iff_everyStep_of_forall
    (keeps : ∀ state label, Inv state → C state label → Inv (step state label))
    (sound : ∀ state, Inv state → P state)
    (complete : ∀ state label, Inv state → P (step state label) → C state label)
    {state : σ} (start : Inv state) (trace : List α) :
    EveryState step P state trace ↔ EveryStep step C state trace :=
  everyState_iff_everyStep (fun s a inv _ => keeps s a inv) sound
    (fun s a inv _ => complete s a inv) start (everyStep_true state trace)

end TradingApp.Transition
