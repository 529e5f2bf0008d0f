import Longform.Error

/-!
# Actions

An action changes a state, and it may fail or never end.

`Action.on` runs an action on a state. The laws after it take the run of a
composed action apart, so that nothing else needs to look inside an action.
-/

namespace Longform

/-- An action on a state. It has no outcome when it never ends. -/
abbrev Action (S : Type) := ExceptT Error (StateT S Option)

namespace Action

variable {S α β : Type}

/-- An action that never ends. -/
def diverge : Action S α := ExceptT.mk fun _ => none

/-- The outcome of an action, a failure included. -/
def observe (a : Action S α) : Action S (Except Error α) :=
  ExceptT.mk do return .ok (← a.run)

/-- What an action makes of a state: its outcome, and the state after it. -/
def on (a : Action S α) (s : S) : Option (Except Error α × S) := a.run.run s

@[simp] theorem on_pure (x : α) (s : S) : (pure x : Action S α).on s = some (.ok x, s) := rfl

@[simp] theorem on_throw (e : Error) (s : S) :
    (throw e : Action S α).on s = some (.error e, s) := rfl

@[simp] theorem on_get (s : S) : (get : Action S S).on s = some (.ok s, s) := rfl

@[simp] theorem on_set (s s' : S) : (set s' : Action S PUnit).on s = some (.ok ⟨⟩, s') := rfl

@[simp] theorem on_modify (f : S → S) (s : S) :
    (modify f : Action S PUnit).on s = some (.ok ⟨⟩, f s) := rfl

@[simp] theorem on_ofExcept (x : Except Error α) (s : S) :
    (MonadExcept.ofExcept x : Action S α).on s = some (x, s) := by
  cases x <;> rfl

@[simp] theorem on_diverge (s : S) : (diverge : Action S α).on s = none := rfl

theorem on_observe (a : Action S α) (s : S) :
    (observe a).on s = (a.on s).map fun (x, s') => (.ok x, s') := by
  change (do let p ← a.on s; pure (Except.ok p.1, p.2)) = _
  cases a.on s <;> rfl

theorem on_bind (a : Action S α) (f : α → Action S β) (s : S) :
    (a >>= f).on s = (a.on s).bind fun (x, s') =>
      match x with
      | .ok x => (f x).on s'
      | .error e => some (.error e, s') := by
  change (a.on s).bind (fun p => (ExceptT.bindCont f p.1).run p.2) = _
  congr 1
  funext ⟨x, s'⟩
  cases x <;> rfl

/-- A composed action goes on after its first part where that succeeds. -/
theorem on_bind_of_ok {a : Action S α} {f : α → Action S β} {s s' : S} {x : α}
    (h : a.on s = some (.ok x, s')) : (a >>= f).on s = (f x).on s' := by
  rw [on_bind, h]
  rfl

/-- A composed action fails where its first part does. -/
theorem on_bind_of_error {a : Action S α} {f : α → Action S β} {s s' : S} {e : Error}
    (h : a.on s = some (.error e, s')) : (a >>= f).on s = some (.error e, s') := by
  rw [on_bind, h]
  rfl

/-- The first part of a composed action with an outcome has one. -/
theorem of_on_bind {a : Action S α} {f : α → Action S β} {s s'' : S} {y : Except Error β}
    (h : (a >>= f).on s = some (y, s'')) :
    (∃ x s', a.on s = some (.ok x, s') ∧ (f x).on s' = some (y, s'')) ∨
      ∃ e, a.on s = some (.error e, s'') ∧ y = .error e := by
  rw [on_bind] at h
  rcases ha : a.on s with _ | ⟨e | x, s'⟩
  · rw [ha] at h
    cases h
  · rw [ha] at h
    cases h
    exact Or.inr ⟨e, rfl, rfl⟩
  · rw [ha] at h
    exact Or.inl ⟨x, s', rfl, h⟩

/-- Both parts of a composed action that succeeds do. -/
theorem of_on_bind_ok {a : Action S α} {f : α → Action S β} {s s'' : S} {y : β}
    (h : (a >>= f).on s = some (.ok y, s'')) :
    ∃ x s', a.on s = some (.ok x, s') ∧ (f x).on s' = some (.ok y, s'') := by
  rcases of_on_bind h with both | ⟨e, -, impossible⟩
  · exact both
  · cases impossible

/-- A composed action goes on after its first part when that is known never to fail. -/
theorem of_on_bind_of_spec {a : Action S α} {f : α → Action S β} {s s'' : S} {y : Except Error β}
    {Q : α → S → Prop}
    (spec : ∀ {x s'}, a.on s = some (x, s') → ∃ v, x = .ok v ∧ Q v s')
    (h : (a >>= f).on s = some (y, s'')) :
    ∃ v s', Q v s' ∧ (f v).on s' = some (y, s'') := by
  rcases of_on_bind h with ⟨x, s', first, rest⟩ | ⟨e, failed, -⟩
  · obtain ⟨v, same, holds⟩ := spec first
    cases same
    exact ⟨x, s', holds, rest⟩
  · obtain ⟨_, impossible, _⟩ := spec failed
    cases impossible

/-- Whether an action ends without failure. -/
def succeeds (a : Action S α) (s : S) : Bool := (a.on s).any fun p => p.1.isOk

theorem exists_of_succeeds {a : Action S α} {s : S} (h : a.succeeds s = true) :
    ∃ x s', a.on s = some (.ok x, s') := by
  rw [succeeds] at h
  rcases run : a.on s with _ | ⟨e | x, s'⟩
  · rw [run] at h
    cases h
  · rw [run] at h
    cases h
  · exact ⟨x, s', rfl⟩

end Action

end Longform
