/-
# What a fallible computation ensures

A triple for computations that can raise: what holds of the value that is returned, and
what holds of the error that is raised.  There is one rule for each way to put a
computation together, so that a proof goes through its steps in their order.  The rules
about the error alone are equivalences, by which `simp` goes through the steps.
-/
import AgoraHub.Fallible

namespace Fallible

variable {ε α β σ : Type}

/-- Every error that is raised meets `E`. -/
def Raises (E : ε → Prop) (x : Except ε α) : Prop := ∀ e, x = .error e → E e

/-- The value that is returned meets `P`, and the error that is raised meets `E`. -/
structure Ensures (P : α → Prop) (E : ε → Prop) (x : Except ε α) : Prop where
  ok : ∀ {a}, x = .ok a → P a
  error : Raises E x

variable {P Q : α → Prop} {E : ε → Prop}

theorem ensures_ok {a : α} (h : P a) : Ensures P E (.ok a) where
  ok := fun ha => by
    cases ha
    exact h
  error := nofun

theorem ensures_error {e : ε} (h : E e) : Ensures P E (.error e) where
  ok := fun ha => by cases ha
  error := fun _ he => by
    cases he
    exact h

theorem Ensures.imp {F : ε → Prop} {x : Except ε α} (h : Ensures P E x) (hP : ∀ a, P a → Q a)
    (hE : ∀ e, E e → F e) : Ensures Q F x :=
  ⟨fun ha => hP _ (h.ok ha), fun e he => hE e (h.error e he)⟩

theorem Ensures.bind {R : β → Prop} {x : Except ε α} {f : α → Except ε β} (hx : Ensures P E x)
    (hf : ∀ a, P a → Ensures R E (f a)) : Ensures R E (x >>= f) := by
  cases x with
  | ok a => exact hf a (hx.ok rfl)
  | error e => exact ensures_error (hx.error e rfl)

theorem Ensures.map {R : β → Prop} {x : Except ε α} {g : α → β}
    (h : Ensures (fun a => R (g a)) E x) : Ensures R E (x.map g) := by
  cases x with
  | ok a => exact ensures_ok (h.ok rfl)
  | error e => exact ensures_error (h.error e rfl)

theorem ensures_mapError {ε' : Type} {x : Except ε' α} {g : ε' → ε} (hE : ∀ e, E (g e)) :
    Ensures (fun a => x = .ok a) E (x.mapError g) := by
  cases x with
  | ok a => exact ensures_ok rfl
  | error e => exact ensures_error (hE e)

/-- A check raises its own error, and only where its condition fails. -/
theorem ensures_require {cond : Prop} [Decidable cond] {err : ε} (h : ¬ cond → E err) :
    Ensures (fun _ : Unit => cond) E (require cond err) := by
  by_cases hcond : cond
  · rw [require_of_pos _ hcond]
    exact ensures_ok hcond
  · rw [require_of_neg _ hcond]
    exact ensures_error (h hcond)

theorem ensures_orRaise {x : Option α} {err : ε} (h : x = none → E err) :
    Ensures (fun a => x = some a) E (orRaise x err) := by
  cases x with
  | none => exact ensures_error (h rfl)
  | some a => exact ensures_ok rfl

/-- A loop ensures what each of its steps keeps. -/
theorem ensures_foldlM {I : σ → Prop} {f : σ → α → Except ε σ} {xs : List α} :
    ∀ {start : σ}, I start → (∀ a ∈ xs, ∀ s, I s → Ensures I E (f s a)) →
      Ensures I E (xs.foldlM f start) := by
  induction xs with
  | nil =>
    intro start hstart _
    exact ensures_ok hstart
  | cons a xs ih =>
    intro start hstart hstep
    rw [List.foldlM_cons]
    exact (hstep a List.mem_cons_self start hstart).bind fun s hs =>
      ih hs fun b hb => hstep b (List.mem_cons_of_mem _ hb)

/-! ## Errors -/

theorem Raises.ensures {x : Except ε α} (h : Raises E x) : Ensures (fun _ => True) E x :=
  ⟨fun _ => trivial, h⟩

@[simp] theorem raises_ok (a : α) : Raises E (.ok a) := nofun

@[simp] theorem raises_pure (a : α) : Raises E (pure a) := nofun

variable {err : ε} {x : Except ε α} {xs : List α}

@[simp] theorem raises_error : Raises E (.error err : Except _ α) ↔ E err := by simp [Raises]

@[simp] theorem raises_require {cond : Prop} [Decidable cond] :
    Raises E (require cond err) ↔ ¬ cond → E err := by
  by_cases h : cond <;> simp [h]

@[simp] theorem raises_orRaise {o : Option α} : Raises E (orRaise o err) ↔ o = none → E err := by
  cases o <;> simp

@[simp] theorem raises_raiseFirst {f : α → ε} (h : ∀ a, E (f a)) : Raises E (raiseFirst f xs) := by
  cases xs <;> simp [raiseFirst, h]

@[simp] theorem raises_bind {f : α → Except ε β} :
    Raises E (x >>= f) ↔ Raises E x ∧ ∀ a, x = .ok a → Raises E (f a) := by
  cases x <;> simp

@[simp] theorem raises_map {f : α → β} : Raises E (f <$> x) ↔ Raises E x := by
  cases x <;> simp

@[simp] theorem raises_forM {f : α → Except ε Unit} (h : ∀ a ∈ xs, Raises E (f a)) :
    Raises E (forM xs f) := by
  induction xs <;> simp_all

@[simp] theorem raises_mapM {f : α → Except ε β} (h : ∀ a ∈ xs, Raises E (f a)) :
    Raises E (xs.mapM f) := by
  induction xs <;> simp_all

/-- A loop raises such errors exactly when each turn that is reached does. -/
theorem raises_foldlM_iff {f : σ → α → Except ε σ} {start : σ} :
    Raises E (xs.foldlM f start) ↔ ∀ done a todo s, xs = done ++ a :: todo →
      done.foldlM f start = .ok s → Raises E (f s a) := by
  induction xs generalizing start with
  | nil => simp
  | cons x xs ih =>
    simp only [List.foldlM_cons, raises_bind, ih]
    constructor
    · rintro ⟨hx, hxs⟩ (_ | ⟨y, done⟩) a todo s heq hs
      · cases heq
        cases hs
        exact hx
      · cases heq
        obtain ⟨s₁, hs₁, hs⟩ := bind_inv hs
        exact hxs s₁ hs₁ done a todo s rfl hs
    · intro h
      refine ⟨h [] x xs start rfl rfl, fun s₁ hs₁ done a todo s heq hs => ?_⟩
      exact h (x :: done) a todo s (congrArg _ heq) (bind_intro hs₁ hs)

@[simp] theorem raises_foldlM {f : σ → α → Except ε σ} {start : σ} (h : ∀ s a, Raises E (f s a)) :
    Raises E (xs.foldlM f start) :=
  raises_foldlM_iff.mpr fun _ _ _ _ _ _ => h _ _

end Fallible
