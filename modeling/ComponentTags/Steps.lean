import ComponentTags.Failure

/-!
# Steps

Steps that read a state, write to it or end with a failure, one after another. What was written before a step
that fails stays written.
-/

namespace ComponentTags

/-- Steps on a state. -/
abbrev Steps (σ : Type) := EStateM Failure σ

namespace Steps

variable {σ α β : Type} {x : Steps σ α} {s t : σ} {a : α} {e : Failure}

/-- Goes on with a result or ends with its failure. -/
def check : Except Failure α → Steps σ α
  | .ok a => pure a
  | .error e => throw e

/-- How steps end: with a result and the state that they leave. -/
def ended (r : Except Failure α) (s : σ) : EStateM.Result Failure σ α :=
  match r with
  | .ok a => .ok a s
  | .error e => .error e s

/-- What steps give. -/
def given : EStateM.Result Failure σ α → Except Failure α
  | .ok a _ => .ok a
  | .error e _ => .error e

/-- What steps leave, whether they end with a failure or not. -/
def left : EStateM.Result Failure σ α → σ
  | .ok _ s | .error _ s => s

@[simp]
theorem check_eq (r : Except Failure α) (s : σ) : check r s = ended r s := by
  cases r <;> rfl

theorem bind_of_ok (h : x s = .ok a t) (next : α → Steps σ β) : (x >>= next) s = next a t := by
  simp only [Bind.bind, EStateM.bind, h]

theorem bind_of_error (h : x s = .error e t) (next : α → Steps σ β) :
    (x >>= next) s = .error e t := by
  simp only [Bind.bind, EStateM.bind, h]

theorem tryCatch_of_ok (h : x s = .ok a t) (handle : Failure → Steps σ α) :
    tryCatch x handle s = .ok a t := by
  simp only [tryCatch, tryCatchThe, MonadExceptOf.tryCatch]
  delta EStateM.tryCatch
  simp only [h]

/-- A failure that is caught undoes nothing. -/
theorem tryCatch_of_error (h : x s = .error e t) (handle : Failure → Steps σ α) :
    tryCatch x handle s = handle e t := by
  simp only [tryCatch, tryCatchThe, MonadExceptOf.tryCatch]
  delta EStateM.tryCatch
  simp only [h]
  rfl

end Steps

end ComponentTags
