import Mathlib.Tactic.Common
import ByteMachine.Machine

/-!
# Actions that check before they change

An action is *checked* if it makes all its checks before it changes anything: it fails with the
first check that is not passed and leaves the state alone, or it comes to one fixed result. Checked
actions compose, as long as what comes before another check only reads.

* `Fault.unless`, `Action.Checked`: the fault of a check, and checked actions.
* `Action.Checked.bind_read`, `Action.Checked.bind`: reading before further checks, and anything
  that cannot fail after the last check.
* `Action.Checked.eq_of_ok`, **`Action.Checked.eq_of_error`**: a checked action that succeeds has
  come to its result, and one that fails has changed nothing.
-/

namespace ByteMachine

/-! ## Checks -/

/-- The fault of a check that is not passed. -/
def Fault.unless (fault : Fault) (passed : Prop) [Decidable passed] : Option Fault :=
  if passed then none else some fault

section Unless

variable {fault : Fault} {passed : Prop} [Decidable passed]

@[simp]
theorem Fault.unless_eq_none_iff : fault.unless passed = none ↔ passed := by
  simp [Fault.unless]

theorem Fault.unless_eq_some_iff {other : Fault} :
    fault.unless passed = some other ↔ ¬ passed ∧ fault = other := by
  simp [Fault.unless]

theorem Fault.unless_of_pos (h : passed) : fault.unless passed = none := if_pos h

theorem Fault.unless_of_neg (h : ¬ passed) : fault.unless passed = some fault := if_neg h

theorem Fault.unless_congr {other : Prop} [Decidable other] (h : passed ↔ other) :
    fault.unless passed = fault.unless other := by
  unfold Fault.unless
  split_ifs <;> simp_all

theorem Fault.unless_or (rest : Option Fault) :
    (fault.unless passed).or rest = if passed then rest else some fault := by
  unfold Fault.unless
  split_ifs <;> rfl

end Unless

namespace Action

variable {σ α β : Type}

theorem run_bind_congr {x y : Action σ α} {k l : α → Action σ β} {s : σ} (h : x.run s = y.run s)
    (hk : ∀ a s', y.run s = .ok a s' → (k a).run s' = (l a).run s') :
    (x >>= k).run s = (y >>= l).run s := by
  rw [EStateM.run_bind, EStateM.run_bind, h]
  cases hy : y.run s with
  | ok a s' => exact hk a s' hy
  | error fault s' => rfl

/-- **A checked action**: from the state `s` it makes the checks with the outcome `fault?`, and
comes to `result` if they are all passed. -/
def Checked (action : Action σ α) (s : σ) (fault? : Option Fault)
    (result : EStateM.Result Fault σ α) : Prop :=
  action.run s =
    match fault? with
    | some fault => .error fault s
    | none => result

namespace Checked

variable {x : Action σ α} {k : α → Action σ β} {s s' : σ} {a : α} {f g : Option Fault}
  {r : EStateM.Result Fault σ β}

/-- Further checks may follow an action that only reads. They are made knowing that the checks
before them were passed. -/
theorem bind_read (hx : x.Checked s f (.ok a s)) (hk : f = none → (k a).Checked s g r) :
    Action.Checked (x >>= k) s (f.or g) r := by
  unfold Checked at *
  rw [EStateM.run_bind, hx]
  cases f with
  | none => exact hk rfl
  | some fault => rfl

theorem bind_result {result : EStateM.Result Fault σ α} :
    x.Checked s f result → Action.Checked (x >>= k) s f
      (match result with
        | .ok a s' => (k a).run s'
        | .error fault s' => .error fault s') := by
  intro hx
  unfold Checked at *
  rw [EStateM.run_bind, hx]
  cases f with
  | none => cases result <;> rfl
  | some fault => rfl

theorem bind (hx : x.Checked s f (.ok a s')) (hk : (k a).run s' = r) :
    Action.Checked (x >>= k) s f r :=
  hk ▸ bind_result hx

theorem of_eq {result : EStateM.Result Fault σ α} {r : EStateM.Result Fault σ α}
    (hx : x.Checked s f result) (h : result = r) : x.Checked s f r :=
  h ▸ hx

theorem get_bind {k : σ → Action σ β} (hk : (k s).Checked s g r) :
    Action.Checked (get >>= k) s g r := hk

theorem guard {fault : Fault} {c : Prop} [Decidable c] {k : PUnit → Action σ β}
    (hk : (k ⟨⟩).Checked s g r) :
    Action.Checked (if c then throw fault >>= k else k ⟨⟩) s ((fault.unless ¬ c).or g) r := by
  by_cases h : c
  · rw [if_pos h, Fault.unless_of_neg (not_not.mpr h)]
    rfl
  · rw [if_neg h, Fault.unless_of_pos h]
    exact hk

section Outcome

variable {result : EStateM.Result Fault σ α} {fault : Fault} (hx : x.Checked s f result)
include hx

theorem run_of_passed (h : f = none) : x.run s = result := by
  unfold Checked at hx
  rw [hx, h]

theorem run_of_failed (h : f = some fault) : x.run s = .error fault s := by
  unfold Checked at hx
  rw [hx, h]

end Outcome

theorem eq_none_of_ok {result : EStateM.Result Fault σ α} {b : α} {t : σ}
    (hx : x.Checked s f result) (h : x.run s = .ok b t) : f = none := by
  cases hf : f with
  | none => rfl
  | some fault =>
    rw [hx.run_of_failed hf] at h
    cases h

theorem eq_of_ok {b : α} {t : σ} (hx : x.Checked s f (.ok a s')) (h : x.run s = .ok b t) :
    b = a ∧ t = s' := by
  rw [hx.run_of_passed (hx.eq_none_of_ok h)] at h
  cases h
  exact ⟨rfl, rfl⟩

theorem eq_some_of_error {fault : Fault} {t : σ} (hx : x.Checked s f (.ok a s'))
    (h : x.run s = .error fault t) : f = some fault := by
  cases hf : f with
  | none =>
    rw [hx.run_of_passed hf] at h
    cases h
  | some other =>
    rw [hx.run_of_failed hf] at h
    cases h
    rfl

/-- **A checked action that fails has changed nothing.** -/
theorem eq_of_error {fault : Fault} {t : σ} (hx : x.Checked s f (.ok a s'))
    (h : x.run s = .error fault t) : t = s := by
  rw [hx.run_of_failed (hx.eq_some_of_error h)] at h
  cases h
  rfl

end Checked

end Action

end ByteMachine
