/-
# Threads over a shared state

Threads that take atomic actions on one shared state, in any order.  A thread is
a local state; a move lets a new thread in or lets one thread act.  An action
that is not enabled (a lock is held by another thread) changes nothing.

The rules are about counts of the shared state.  Where every action changes a count
by what it changes in the acting thread's own share, the count is the sum of the
shares (`count_eq_sum`), and what one thread has changed it by is its own share
(`changeBy_eq`).
-/
import AgoraHub.StepRuns

namespace ThreadPool

open StepRuns List

/-- A shared state with the local state of each thread. -/
@[ext] structure Pool (σ τ : Type*) where
  shared : σ
  threads : List τ

/-- A move of a schedule: a new thread, or an action of thread `i`. -/
inductive Move (β α : Type*) where
  | spawn (b : β)
  | act (i : ℕ) (a : α)
  deriving DecidableEq

variable {σ τ α β : Type*} (enter : β → τ) (act : σ → τ → α → Option (σ × τ))

/-- One action of a thread. -/
def actOf (p : Pool σ τ) (i : ℕ) (a : α) : Pool σ τ :=
  match p.threads[i]? with
  | none => p
  | some t =>
    match act p.shared t a with
    | none => p
    | some (s, t') => ⟨s, p.threads.set i t'⟩

/-- One move of a schedule. -/
def step (p : Pool σ τ) : Move β α → Pool σ τ
  | .spawn b => { p with threads := p.threads ++ [enter b] }
  | .act i a => actOf act p i a

variable {enter act}

/-- An action does nothing, or it is an enabled action of a thread that is there. -/
theorem actOf_cases (act : σ → τ → α → Option (σ × τ)) (p : Pool σ τ) (i : ℕ) (a : α) :
    actOf act p i a = p ∨ ∃ t s t', p.threads[i]? = some t ∧ act p.shared t a = some (s, t') ∧
      actOf act p i a = ⟨s, p.threads.set i t'⟩ := by
  unfold actOf
  cases hget : p.threads[i]? with
  | none => exact Or.inl rfl
  | some t =>
    cases hact : act p.shared t a with
    | none => exact Or.inl (by simp [hact])
    | some out => exact Or.inr ⟨t, out.1, out.2, rfl, hact, by simp [hact]⟩

/-! ## Invariants -/

/-- What a new thread and every enabled action keep holds after every schedule. -/
theorem run_keeps (enter : β → τ) (act : σ → τ → α → Option (σ × τ)) (Inv : Pool σ τ → Prop)
    (spawn : ∀ p b, Inv p → Inv { p with threads := p.threads ++ [enter b] })
    (acts : ∀ p i a t s t', Inv p → p.threads[i]? = some t → act p.shared t a = some (s, t') →
      Inv ⟨s, p.threads.set i t'⟩) {p : Pool σ τ} (moves : List (Move β α)) (hp : Inv p) :
    Inv (run (step enter act) p moves) := by
  apply run_invariant (C := fun _ _ => True) _ hp
  · induction moves generalizing p with
    | nil => trivial
    | cons m moves ih =>
      refine ⟨trivial, ih ?_⟩
      cases m with
      | spawn b => exact spawn p b hp
      | act i a =>
        rcases actOf_cases act p i a with h | ⟨t, s, t', hget, hact, h⟩
        · exact (congrArg Inv h).mpr hp
        · exact (congrArg Inv h).mpr (acts p i a t s t' hp hget hact)
  · rintro p (b | ⟨i, a⟩) hp -
    · exact spawn p b hp
    · show Inv (actOf act p i a)
      rcases actOf_cases act p i a with h | ⟨t, s, t', hget, hact, h⟩
      · rwa [h]
      · rw [h]
        exact acts p i a t s t' hp hget hact

/-! ## Shares -/

/-- The sum of the threads' shares. -/
def total (w : τ → ℤ) (threads : List τ) : ℤ := (threads.map w).sum

@[simp] theorem total_nil (w : τ → ℤ) : total w [] = 0 := rfl

@[simp] theorem total_cons (w : τ → ℤ) (t : τ) (ts : List τ) :
    total w (t :: ts) = w t + total w ts := rfl

@[simp] theorem total_append (w : τ → ℤ) (ts us : List τ) :
    total w (ts ++ us) = total w ts + total w us := by simp [total]

variable {ts : List τ}

/-- A thread's share is replaced in the sum. -/
theorem total_set (w : τ → ℤ) {i : ℕ} {t : τ} (h : ts[i]? = some t) (t' : τ) :
    total w (ts.set i t') = total w ts + (w t' - w t) := by
  induction ts generalizing i with
  | nil => simp at h
  | cons u ts ih =>
    cases i with
    | zero =>
      obtain rfl : u = t := by simpa using h
      simp only [set_cons_zero, total_cons]
      omega
    | succ i =>
      simp only [set_cons_succ, total_cons, ih (by simpa using h)]
      omega

variable {w : τ → ℤ}

theorem total_nonneg {ts : List τ} (hw : ∀ t ∈ ts, 0 ≤ w t) : 0 ≤ total w ts := by
  induction ts with
  | nil => simp
  | cons t ts ih =>
    have h₁ := hw t (by simp)
    have h₂ := ih fun u hu => hw u (mem_cons_of_mem _ hu)
    simp only [total_cons]
    omega

/-- One share is at most the sum. -/
theorem le_total (hw : ∀ t, 0 ≤ w t) {t : τ} (ht : t ∈ ts) : w t ≤ total w ts := by
  induction ts with
  | nil => simp at ht
  | cons u ts ih =>
    have h₁ := hw u
    have h₂ := @total_nonneg _ _ ts fun t _ => hw t
    simp only [total_cons]
    rcases mem_cons.mp ht with rfl | ht
    · omega
    · have h₃ := ih ht
      omega

/-- Two threads' shares are together at most the sum. -/
theorem add_le_total (hw : ∀ t, 0 ≤ w t) {i j : ℕ} {t u : τ} (hij : i ≠ j) (ht : ts[i]? = some t)
    (hu : ts[j]? = some u) : w t + w u ≤ total w ts := by
  induction ts generalizing i j with
  | nil => simp at ht
  | cons v ts ih =>
    cases i with
    | zero =>
      cases j with
      | zero => exact absurd rfl hij
      | succ j =>
        obtain rfl : v = t := by simpa using ht
        have h := le_total hw (mem_of_getElem? (show ts[j]? = some u by simpa using hu))
        simp only [total_cons]
        omega
    | succ i =>
      have hv := hw v
      cases j with
      | zero =>
        obtain rfl : v = u := by simpa using hu
        have h := le_total hw (mem_of_getElem? (show ts[i]? = some t by simpa using ht))
        simp only [total_cons]
        omega
      | succ j =>
        have h := @ih i j (by omega) (by simpa using ht) (by simpa using hu)
        simp only [total_cons]
        omega

theorem total_le_total {w w' : τ → ℤ} (h : ∀ t ∈ ts, w t ≤ w' t) : total w ts ≤ total w' ts := by
  induction ts with
  | nil => simp
  | cons t ts ih =>
    have h₁ := h t (by simp)
    have h₂ := ih fun u hu => h u (mem_cons_of_mem _ hu)
    simp only [total_cons]
    omega

theorem total_congr {w w' : τ → ℤ} (h : ∀ t ∈ ts, w t = w' t) : total w ts = total w' ts :=
  le_antisymm (total_le_total fun t ht => (h t ht).le) (total_le_total fun t ht => (h t ht).ge)

/-- Shares of one for the threads that satisfy a test are counted. -/
theorem total_ite (P : τ → Prop) [DecidablePred P] (ts : List τ) :
    total (fun t => if P t then 1 else 0) ts = ts.countP (fun t => decide (P t)) := by
  induction ts with
  | nil => simp
  | cons t ts ih =>
    rw [total_cons, ih, countP_cons]
    by_cases h : P t
    · simp only [h, if_true, decide_true, Nat.cast_add, Nat.cast_one]
      omega
    · simp [h]

/-! ## Counts -/

/-- Every action changes the count by what it changes in the acting thread's share. -/
def Shares (act : σ → τ → α → Option (σ × τ)) (f : σ → ℤ) (w : τ → ℤ) : Prop :=
  ∀ s t a s' t', act s t a = some (s', t') → f s' - f s = w t' - w t

variable {f : σ → ℤ}

/-- One move changes the count by what it changes in the sum of the shares. -/
theorem count_step (h : Shares act f w) (henter : ∀ b, w (enter b) = 0) (p : Pool σ τ)
    (m : Move β α) : f (step enter act p m).shared - total w (step enter act p m).threads =
      f p.shared - total w p.threads := by
  cases m with
  | spawn b => simp [step, henter]
  | act i a =>
    show f (actOf act p i a).shared - total w (actOf act p i a).threads = _
    rcases actOf_cases act p i a with heq | ⟨t, s, t', hget, hact, heq⟩
    · rw [heq]
    · have hshare := h _ _ _ _ _ hact
      rw [heq, total_set w hget]
      show f s - _ = _
      omega

/-- The count is the sum of the shares, after every schedule from no threads. -/
theorem count_eq_sum (enter : β → τ) (h : Shares act f w) (henter : ∀ b, w (enter b) = 0) (s : σ)
    (moves : List (Move β α)) : f (run (step enter act) ⟨s, []⟩ moves).shared =
      f s + total w (run (step enter act) ⟨s, []⟩ moves).threads := by
  suffices hgen : ∀ p : Pool σ τ, f (run (step enter act) p moves).shared -
      total w (run (step enter act) p moves).threads = f p.shared - total w p.threads by
    have hrun := hgen ⟨s, []⟩
    simp only [total_nil] at hrun
    omega
  induction moves with
  | nil => intro p; rfl
  | cons m moves ih =>
    intro p
    rw [run_cons, ih, count_step h henter]

/-- The share of thread `i`, none where it is not there yet. -/
def shareOf (w : τ → ℤ) (p : Pool σ τ) (i : ℕ) : ℤ := (p.threads[i]?.map w).getD 0

/-- What one move changes the count by, where it is an action of thread `i`. -/
def changeOf (act : σ → τ → α → Option (σ × τ)) (f : σ → ℤ) (i : ℕ) (p : Pool σ τ) : Move β α → ℤ
  | .spawn _ => 0
  | .act j a => if j = i then f (actOf act p j a).shared - f p.shared else 0

/-- What the actions of thread `i` change the count by, over a schedule. -/
def changeBy (enter : β → τ) (act : σ → τ → α → Option (σ × τ)) (f : σ → ℤ) (i : ℕ) :
    Pool σ τ → List (Move β α) → ℤ
  | _, [] => 0
  | p, m :: moves => changeOf act f i p m + changeBy enter act f i (step enter act p m) moves

theorem shareOf_spawn (henter : ∀ b, w (enter b) = 0) (p : Pool σ τ) (b : β) (i : ℕ) :
    shareOf w ({ p with threads := p.threads ++ [enter b] } : Pool σ τ) i = shareOf w p i := by
  unfold shareOf
  rcases lt_trichotomy i p.threads.length with hlt | heq | hgt
  · rw [getElem?_append_left hlt]
  · subst heq
    simp [henter]
  · rw [getElem?_eq_none (by simp; omega), getElem?_eq_none (by omega)]

/-- What a thread has changed a count by is what its share has grown by. -/
theorem changeBy_eq (h : Shares act f w) (henter : ∀ b, w (enter b) = 0) (i : ℕ)
    (moves : List (Move β α)) (p : Pool σ τ) : changeBy enter act f i p moves =
      shareOf w (run (step enter act) p moves) i - shareOf w p i := by
  induction moves generalizing p with
  | nil => simp [changeBy]
  | cons m moves ih =>
    rw [changeBy, ih, run_cons]
    cases m with
    | spawn b =>
      show 0 + (_ - shareOf w { p with threads := p.threads ++ [enter b] } i) = _
      rw [shareOf_spawn henter]
      omega
    | act j a =>
      show (if j = i then f (actOf act p j a).shared - f p.shared else 0) +
        (_ - shareOf w (actOf act p j a) i) = _
      rcases actOf_cases act p j a with heq | ⟨t, s, t', hget, hact, heq⟩
      · rw [heq]
        split <;> omega
      · have hshare := h _ _ _ _ _ hact
        have hlt : j < p.threads.length := (List.getElem?_eq_some_iff.mp hget).1
        rw [heq]
        show (if j = i then f s - f p.shared else 0) + _ = _
        by_cases hji : j = i
        · subst hji
          have hnew : shareOf w (⟨s, p.threads.set j t'⟩ : Pool σ τ) j = w t' := by
            simp [shareOf, hlt]
          have hold : shareOf w p j = w t := by simp [shareOf, hget]
          rw [if_pos rfl, hnew, hold]
          omega
        · have hsame : shareOf w (⟨s, p.threads.set j t'⟩ : Pool σ τ) i = shareOf w p i := by
            simp [shareOf, getElem?_set_ne hji]
          rw [if_neg hji, hsame]
          omega

theorem changeBy_eq_zero (h : Shares act f w) (henter : ∀ b, w (enter b) = 0) {s : σ}
    {moves : List (Move β α)} {i : ℕ} {t : τ}
    (hget : (run (step enter act) ⟨s, []⟩ moves).threads[i]? = some t) (ht : w t = 0) :
    changeBy enter act f i ⟨s, []⟩ moves = 0 := by
  rw [changeBy_eq h henter, shareOf, hget, shareOf]
  simp [ht]

end ThreadPool
