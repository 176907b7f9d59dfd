import ComponentTags.Proofs.KeptSettings
import ComponentTags.Settings.Session.Procedure

/-!
# The steps of a session

The steps of an action answer what the session answers at once, and leave the session that the action leaves.
What a load writes before it fails stays in the draft.
-/

namespace ComponentTags.Settings

namespace Session

open Steps

variable {α β : Type} {x : Procedure α} {next : α → Procedure β} {w left : Work} {s last : Session}
  {a : α} {e : Failure} {r : Except Failure α} {checked : Bool} {fields : Fields} {draft : Draft}

/-! ## Ends of steps -/

/-- Steps on a session end with a result and leave a session, whatever draft they find. -/
def Gives (x : Procedure α) (s : Session) (r : Except Failure α) (last : Session) : Prop :=
  ∀ draft, ∃ redrafted, x ⟨s, draft⟩ = ended r ⟨last, redrafted⟩

/-- Steps go on where the steps before them have ended, if they gave a result. -/
theorem Gives.bind {rest : α → Except Failure β} (h : Gives x s r last)
    (hnext : ∀ a, r = .ok a → Gives (next a) last (rest a) last) :
    Gives (x >>= next) s (r >>= rest) last := by
  intro draft
  obtain ⟨redrafted, hx⟩ := h draft
  cases r with
  | error e => exact ⟨redrafted, bind_of_error hx next⟩
  | ok a =>
    obtain ⟨final, hrest⟩ := hnext a rfl redrafted
    exact ⟨final, (bind_of_ok hx next).trans hrest⟩

theorem Gives.bind_of_ok {rest : Except Failure β} (h : Gives x s (.ok a) last)
    (hnext : Gives (next a) last rest last) : Gives (x >>= next) s rest last := by
  change Gives (x >>= next) s (.ok a >>= fun _ : α => rest) last
  refine h.bind fun b hb => ?_
  cases hb
  exact hnext

/-- Steps that give no result make a draft of another one, or fail and leave any draft. -/
def Redrafts (x : Procedure Unit) (s : Session) (draft : Draft) (r : Except Failure Draft) : Prop :=
  ∃ redrafted, x ⟨s, draft⟩ = ended (r.map fun _ => ()) ⟨s, redrafted⟩ ∧ ∀ made, r = .ok made → redrafted = made

theorem Redrafts.bind {x y : Procedure Unit} {r : Except Failure Draft} {rest : Draft → Except Failure Draft}
    (h : Redrafts x s draft r) (hnext : ∀ made, r = .ok made → Redrafts y s made (rest made)) :
    Redrafts (x >>= fun _ => y) s draft (r >>= rest) := by
  obtain ⟨redrafted, hx, hmade⟩ := h
  cases r with
  | error e => exact ⟨redrafted, bind_of_error hx _, fun made h => by cases h⟩
  | ok made =>
    obtain rfl := hmade made rfl
    obtain ⟨final, hy, hfinal⟩ := hnext redrafted rfl
    exact ⟨final, (bind_of_ok hx _).trans hy, hfinal⟩

variable [Services]

end Session

end ComponentTags.Settings
