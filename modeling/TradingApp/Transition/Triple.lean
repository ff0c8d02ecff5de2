import TradingApp.Transition.Keeps

/-!
# Pre- and postconditions of a stateful computation

`Leads P m Q` says of a computation that it goes from a state with `P` to a
result and a state with `Q`.  The rules follow the structure of a program; a
part that keeps a relation keeps the properties the relation preserves.
-/

namespace TradingApp.Transition

universe u

variable {σ : Type u} {α β : Type u} {P P' : σ → Prop} {Q Q' : α → σ → Prop}

/-- From a state with `P` the computation ends in a result and state with `Q`. -/
def Leads (P : σ → Prop) (m : StateM σ α) (Q : α → σ → Prop) : Prop :=
  ∀ state, P state → Q (m.run state).1 (m.run state).2

theorem leads_pure {a : α} (holds : ∀ state, P state → Q a state) :
    Leads P (pure a : StateM σ α) Q :=
  holds

theorem leads_modify {f : σ → σ} {Q : PUnit → σ → Prop}
    (holds : ∀ state, P state → Q PUnit.unit (f state)) :
    Leads P (modify f : StateM σ PUnit) Q :=
  holds

theorem Leads.bind {m : StateM σ α} {f : α → StateM σ β} {S : β → σ → Prop}
    (first : Leads P m Q) (second : ∀ a, Leads (Q a) (f a) S) : Leads P (m >>= f) S := by
  intro state holds
  exact second (m.run state).1 (m.run state).2 (first state holds)

theorem Leads.ite {C : Prop} [Decidable C] {m n : StateM σ α} (first : C → Leads P m Q)
    (second : ¬ C → Leads P n Q) : Leads P (if C then m else n) Q := by
  split
  · rename_i holds
    exact first holds
  · rename_i fails
    exact second fails

theorem Leads.whenever {C : Prop} [Decidable C] {m : StateM σ PUnit} {Q : PUnit → σ → Prop}
    (first : C → Leads P m Q) (second : ¬ C → ∀ state, P state → Q PUnit.unit state) :
    Leads P (whenever C m) Q :=
  .ite first fun fails => leads_pure (second fails)

/-- A weaker precondition and a stronger postcondition suffice. -/
theorem Leads.weaken {m : StateM σ α} (leads : Leads P m Q) (before : ∀ state, P' state → P state)
    (after : ∀ a state, Q a state → Q' a state) : Leads P' m Q' := by
  intro state holds
  exact after _ _ (leads state (before state holds))

theorem Leads.post {m : StateM σ α} (leads : Leads P m Q)
    (after : ∀ a state, Q a state → Q' a state) : Leads P m Q' :=
  leads.weaken (fun _ => id) after

theorem Leads.of_exists {ι : Sort*} {P : ι → σ → Prop} {m : StateM σ α}
    (leads : ∀ i, Leads (P i) m Q) : Leads (fun state => ∃ i, P i state) m Q := by
  rintro state ⟨i, holds⟩
  exact leads i state holds

/-- What a computation preserves it ends with. -/
theorem Keeps.leads {R : σ → σ → Prop} {m : StateM σ α} (keeps : Keeps R m)
    (preserves : ∀ s t, R s t → P s → P t) : Leads P m fun _ => P := by
  intro state holds
  exact preserves _ _ (keeps state) holds

end TradingApp.Transition
