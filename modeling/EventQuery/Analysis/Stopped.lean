import EventQuery.Diagnostic.Basic

/-!
Passes that change a tree and may stop on the way. A pass that stops tells the
diagnostic and leaves the tree as far as it was changed.
-/
namespace EventQuery

/-- A pass stopped with a diagnostic at a tree that may be partly changed. -/
structure Stopped (τ : Type) where
  diagnostic : Diagnostic
  tree : τ

namespace Stopped

/-- The result of a pass over a part, as a step of the pass over the whole that has
the part in `place`. -/
def within (result : Except (Stopped α) β) (place : α → τ) : Except (Stopped τ) β :=
  result.mapError fun stopped => ⟨stopped.diagnostic, place stopped.tree⟩

/-- A check of a tree that a pass has changed so far to `tree`. -/
def check (tree : τ) (result : Except Diagnostic α) : Except (Stopped τ) α :=
  result.mapError fun diagnostic => ⟨diagnostic, tree⟩

/-- The result of a pass without the tree that it left when it stopped. -/
def forget (result : Except (Stopped τ) α) : Except Diagnostic α :=
  result.mapError Stopped.diagnostic

/-! ### Success

None of these steps changes a result, so a pass succeeds exactly when its parts do.
-/

theorem mapError_eq_ok {result : Except ε α} {change : ε → ε'} {value : α} :
    result.mapError change = .ok value ↔ result = .ok value := by
  cases result with
  | ok found => exact ⟨fun h => congrArg _ (Except.ok.inj h), fun h => congrArg _ (Except.ok.inj h)⟩
  | error cause => exact ⟨nofun, nofun⟩

@[simp] theorem within_eq_ok {result : Except (Stopped α) β} {place : α → τ} {value : β} :
    within result place = .ok value ↔ result = .ok value := mapError_eq_ok

@[simp] theorem check_eq_ok {tree : τ} {result : Except Diagnostic α} {value : α} :
    check tree result = .ok value ↔ result = .ok value := mapError_eq_ok

@[simp] theorem forget_eq_ok {result : Except (Stopped τ) α} {value : α} :
    forget result = .ok value ↔ result = .ok value := mapError_eq_ok

/-! ### Forgetting the tree

What is left of a pass without its trees is the same pass over results without trees.
-/

theorem forget_pure (value : α) : forget (pure value : Except (Stopped τ) α) = pure value := rfl

theorem forget_bind (result : Except (Stopped τ) α) (next : α → Except (Stopped τ) β) :
    forget (result >>= next) = forget result >>= fun value => forget (next value) := by
  cases result <;> rfl

theorem forget_within (result : Except (Stopped α) β) (place : α → τ) :
    forget (within result place) = forget result := by
  cases result <;> rfl

theorem forget_check (tree : τ) (result : Except Diagnostic α) :
    forget (check tree result) = result := by
  cases result <;> rfl

end Stopped

end EventQuery
