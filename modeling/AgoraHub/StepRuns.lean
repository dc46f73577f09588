/-
# Runs of a step function

A component that takes one call after another is a function from a state and a
call to the next state.  A run is a list of calls.  `Along` says that every call of
a run has a property of the state it is made in; an invariant kept by the calls
that meet a condition holds after every run whose calls all meet it.
-/
import Mathlib.Tactic

namespace StepRuns

open List

variable {σ α : Type*} (step : σ → α → σ)

/-- The state after a run. -/
def run (s : σ) (calls : List α) : σ := calls.foldl step s

@[simp] theorem run_nil (s : σ) : run step s [] = s := rfl

@[simp] theorem run_cons (s : σ) (a : α) (calls : List α) :
    run step s (a :: calls) = run step (step s a) calls := rfl

theorem run_append (s : σ) (calls calls' : List α) :
    run step s (calls ++ calls') = run step (run step s calls) calls' :=
  foldl_append

/-- Every call of the run has the property, in the state it is made in. -/
def Along (P : σ → α → Prop) : σ → List α → Prop
  | _, [] => True
  | s, a :: calls => P s a ∧ Along P (step s a) calls

instance decidableAlong (P : σ → α → Prop) [∀ s a, Decidable (P s a)] :
    ∀ (s : σ) (calls : List α), Decidable (Along step P s calls)
  | _, [] => isTrue trivial
  | s, a :: calls =>
    have := decidableAlong P (step s a) calls
    inferInstanceAs (Decidable (P s a ∧ Along step P (step s a) calls))

variable {step}

variable {P : σ → α → Prop} {calls : List α}

variable {s : σ}

theorem along_append {calls' : List α} : Along step P s (calls ++ calls') ↔
      Along step P s calls ∧ Along step P (run step s calls) calls' := by
  induction calls generalizing s with
  | nil => simp [Along]
  | cons a calls ih => simp [Along, ih, and_assoc]

theorem Along.and {Q : σ → α → Prop} (hP : Along step P s calls) (hQ : Along step Q s calls) :
    Along step (fun s a => P s a ∧ Q s a) s calls := by
  induction calls generalizing s with
  | nil => trivial
  | cons a calls ih => exact ⟨⟨hP.1, hQ.1⟩, ih hP.2 hQ.2⟩

/-- An invariant that every call meeting `C` keeps holds after a run of such calls. -/
theorem run_invariant {Inv : σ → Prop} {C : σ → α → Prop}
    (keep : ∀ s a, Inv s → C s a → Inv (step s a)) (hs : Inv s) (hC : Along step C s calls) :
    Inv (run step s calls) := by
  induction calls generalizing s with
  | nil => exact hs
  | cons a calls ih => exact ih (keep s a hs hC.1) hC.2

/-- What the invariant and the condition give for one call holds of every call of a run. -/
theorem along_of_invariant {Inv : σ → Prop} {C : σ → α → Prop}
    (keep : ∀ s a, Inv s → C s a → Inv (step s a)) (give : ∀ s a, Inv s → C s a → P s a)
    (hs : Inv s) (hC : Along step C s calls) : Along step P s calls := by
  induction calls generalizing s with
  | nil => trivial
  | cons a calls ih => exact ⟨give s a hs hC.1, ih (keep s a hs hC.1) hC.2⟩

/-- Calls that offer distinct items never offer one that is known already, where a step only adds
what its call offers. -/
theorem along_fresh {κ : Type*} {offer : α → Option κ} {known : σ → List κ}
    (adds : ∀ s a i, i ∈ known (step s a) → i ∈ known s ∨ offer a = some i) :
    ∀ {s : σ}, (calls.filterMap offer).Nodup →
      (∀ i ∈ calls.filterMap offer, i ∉ known s) →
        Along step (fun s a => ∀ i ∈ offer a, i ∉ known s) s calls := by
  induction calls with
  | nil =>
    intro s _ _
    trivial
  | cons a calls ih =>
    intro s hnodup hfresh
    have hsub : ∀ i ∈ calls.filterMap offer, i ∈ (a :: calls).filterMap offer := by
      intro i hi
      cases ha : offer a with
      | none => rwa [filterMap_cons_none ha]
      | some j =>
        rw [filterMap_cons_some ha]
        exact mem_cons_of_mem _ hi
    refine ⟨fun i hi => hfresh i ?_, ih ?_ fun i hi hknown => ?_⟩
    · rw [filterMap_cons_some hi]
      exact mem_cons_self
    · cases ha : offer a with
      | none => rwa [filterMap_cons_none ha] at hnodup
      | some j =>
        rw [filterMap_cons_some ha] at hnodup
        exact hnodup.of_cons
    · rcases adds s a i hknown with hold | hoffered
      · exact hfresh i (hsub i hi) hold
      · rw [filterMap_cons_some hoffered] at hnodup
        exact hnodup.notMem hi

/-! ## The state before something first happens -/

/-- The last state of a run in which nothing has the property yet. -/
def beforeFirst (step : σ → α → σ) (p : σ → Bool) : σ → List α → σ
  | s, [] => s
  | s, a :: calls => if p (step s a) then s else beforeFirst step p (step s a) calls

section BeforeFirst

variable {p : σ → Bool}

/-- A property that no call takes away from a state that meets the invariant. -/
theorem run_keeps {I : σ → Prop} (hinv : ∀ s a, I s → I (step s a))
    (keep : ∀ s a, I s → p s = true → p (step s a) = true) (hs : I s) (calls : List α)
    (h : p s = true) : p (run step s calls) = true := by
  induction calls generalizing s with
  | nil => exact h
  | cons a calls ih => exact ih (hinv s a hs) (keep s a hs h)

/-- What came before the first state with a property is settled once there is one. -/
theorem beforeFirst_concat_of_true {a : α} (hs : p s = false) (h : p (run step s calls) = true) :
    beforeFirst step p s (calls ++ [a]) = beforeFirst step p s calls := by
  induction calls generalizing s with
  | nil => cases hs.symm.trans h
  | cons b calls ih =>
    rw [cons_append, beforeFirst, beforeFirst]
    by_cases hb : p (step s b) = true
    · rw [if_pos hb, if_pos hb]
    · rw [if_neg hb, if_neg hb]
      exact ih (by simpa using hb) h

/-- The call that brings the property first is made in the state before it. -/
theorem beforeFirst_concat_of_false {I : σ → Prop} (hinv : ∀ s a, I s → I (step s a))
    (keep : ∀ s a, I s → p s = true → p (step s a) = true) (hs : I s) {a : α}
    (h : p (run step s calls) = false) (h' : p (run step s (calls ++ [a])) = true) :
    beforeFirst step p s (calls ++ [a]) = run step s calls := by
  induction calls generalizing s with
  | nil => exact if_pos h'
  | cons b calls ih =>
    have hb : ¬ p (step s b) = true := fun hb => by
      have := run_keeps hinv keep (hinv s b hs) calls hb
      rw [run_cons] at h
      rw [h] at this
      cases this
    rw [cons_append, beforeFirst, if_neg hb]
    exact ih (hinv s b hs) h h'

end BeforeFirst

end StepRuns
