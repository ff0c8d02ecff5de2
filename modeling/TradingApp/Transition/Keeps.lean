import Mathlib.Order.Defs.Unbundled

/-!
# What a stateful computation keeps

A relation between the state a computation starts in and the state it ends
in, closed under doing one computation after another.  For a relation that is
reflexive and transitive the rules below follow the structure of a program,
so that a frame property of a long program is assembled from the calls that
touch the state.
-/

namespace TradingApp.Transition

universe u v

variable {σ : Type u} {α β : Type u} {R : σ → σ → Prop}

/-- Every run of the computation relates its first state to its last. -/
def Keeps (R : σ → σ → Prop) (m : StateM σ α) : Prop :=
  ∀ state, R state (m.run state).2

theorem Keeps.weaken {S : σ → σ → Prop} (implies : ∀ s t, R s t → S s t) {m : StateM σ α}
    (keeps : Keeps R m) : Keeps S m :=
  fun state => implies _ _ (keeps state)

theorem keeps_modify {f : σ → σ} (keeps : ∀ state, R state (f state)) :
    Keeps R (modify f : StateM σ PUnit) :=
  keeps

theorem keeps_modifyGet {f : σ → α × σ} (keeps : ∀ state, R state (f state).2) :
    Keeps R (modifyGet f : StateM σ α) :=
  keeps

section Reflexive

variable [Std.Refl R]

theorem keeps_pure (a : α) : Keeps R (pure a : StateM σ α) :=
  fun state => Std.Refl.refl state

theorem keeps_get : Keeps R (get : StateM σ σ) :=
  fun state => Std.Refl.refl state

end Reflexive

theorem Keeps.bind [IsTrans σ R] {m : StateM σ α} {f : α → StateM σ β} (first : Keeps R m)
    (second : ∀ a, Keeps R (f a)) : Keeps R (m >>= f) := by
  intro state
  exact IsTrans.trans _ _ _ (first state) (second (m.run state).1 (m.run state).2)

theorem Keeps.ite {P : Prop} [Decidable P] {m n : StateM σ α} (first : P → Keeps R m)
    (second : ¬ P → Keeps R n) : Keeps R (if P then m else n) := by
  split
  · rename_i holds
    exact first holds
  · rename_i fails
    exact second fails

/-- Do something only if a proposition holds. -/
def whenever (P : Prop) [Decidable P] (m : StateM σ PUnit) : StateM σ PUnit :=
  if P then m else pure ⟨⟩

theorem Keeps.whenever [Std.Refl R] {P : Prop} [Decidable P] {m : StateM σ PUnit}
    (keeps : Keeps R m) : Keeps R (whenever P m) :=
  .ite (fun _ => keeps) fun _ => keeps_pure PUnit.unit

theorem Keeps.map [IsTrans σ R] [Std.Refl R] {m : StateM σ α} (f : α → β) (keeps : Keeps R m) :
    Keeps R (f <$> m) :=
  fun state => keeps state

theorem keeps_foldl {β : Type*} [Std.Refl R] [IsTrans σ R] {f : σ → β → σ}
    (keeps : ∀ state b, R state (f state b)) (bs : List β) :
    Keeps R (modify fun state => bs.foldl f state : StateM σ PUnit) := by
  intro state
  change R state (bs.foldl f state)
  induction bs generalizing state with
  | nil => exact Std.Refl.refl state
  | cons b rest ih => exact IsTrans.trans _ _ _ (keeps state b) (ih (f state b))

/-! ## Two relations -/

/-- A function of the state has the value it had. -/
def Unchanged {β : Type*} (f : σ → β) (s t : σ) : Prop :=
  f t = f s

instance {β : Type*} (f : σ → β) : Std.Refl (Unchanged f) :=
  ⟨fun _ => rfl⟩

instance {β : Type*} (f : σ → β) : IsTrans σ (Unchanged f) :=
  ⟨fun _ _ _ first second => Eq.trans second first⟩

/-- A property of the state is kept. -/
def Preserves (P : σ → Prop) (s t : σ) : Prop :=
  P s → P t

instance (P : σ → Prop) : Std.Refl (Preserves P) :=
  ⟨fun _ holds => holds⟩

instance (P : σ → Prop) : IsTrans σ (Preserves P) :=
  ⟨fun _ _ _ first second holds => second (first holds)⟩

/-- A property of an unchanged value is kept. -/
theorem Keeps.preserves {β : Type*} {f : σ → β} {m : StateM σ α} (keeps : Keeps (Unchanged f) m)
    (P : β → Prop) : Keeps (Preserves fun state => P (f state)) m := by
  intro state holds
  rwa [keeps state]

/-- What holds after the first part of a computation and is kept by the rest
holds at its end. -/
theorem holds_bind {P : σ → Prop} {m : StateM σ α} {f : α → StateM σ β} {state : σ}
    (first : P (m.run state).2) (rest : ∀ a, Keeps (Preserves P) (f a)) :
    P ((m >>= f).run state).2 :=
  rest _ _ first

end TradingApp.Transition
