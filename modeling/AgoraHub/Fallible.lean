/-
# Fallible steps

A source function that can raise is modelled in `Except ε`.  This file holds the
inversion facts that take such a computation apart: a sequence returns exactly
when its steps do, and a guard passes exactly when its condition holds.
-/
import Mathlib.Tactic

namespace Fallible

open List

universe u v

variable {ε : Type u} {α β : Type v}

/-- `if not cond: raise err`. -/
def require (cond : Prop) [Decidable cond] (err : ε) : Except ε Unit :=
  if cond then .ok () else .error err

variable {cond : Prop}

@[simp] theorem require_of_pos [Decidable cond] (err : ε) (h : cond) :
    require cond err = .ok () := if_pos h

@[simp] theorem require_of_neg [Decidable cond] (err : ε) (h : ¬ cond) :
    require cond err = .error err := if_neg h

variable {err : ε}

theorem require_eq_ok [Decidable cond] {u : Unit} : require cond err = .ok u ↔ cond := by
  by_cases h : cond <;> simp [require, h]

theorem of_require [Decidable cond] {u : Unit} (h : require cond err = .ok u) :
    cond := require_eq_ok.mp h

variable {f : α → Except ε β}

variable {a : α}

theorem ok_inj {b : α} (h : (.ok a : Except ε α) = .ok b) : a = b := Except.ok.inj h

variable {x : Except ε α}

/-- The bind inversion: a sequence returns exactly when both of its steps do. -/
theorem bind_eq_ok {b : β} : (x >>= f) = .ok b ↔ ∃ a, x = .ok a ∧ f a = .ok b := by
  cases x with
  | error e | ok a => simp [bind, Except.bind]

theorem check_bind_eq_ok {β : Type} {x : Except ε Unit} {f : Unit → Except ε β} {b : β} :
    (x >>= f) = .ok b ↔ x = .ok () ∧ f () = .ok b := by
  rw [bind_eq_ok]
  exact ⟨fun ⟨_, h⟩ => h, fun h => ⟨(), h⟩⟩

theorem bind_inv {b : β} (h : (x >>= f) = .ok b) : ∃ a, x = .ok a ∧ f a = .ok b :=
  bind_eq_ok.mp h

theorem check_inv {β : Type} {x : Except ε Unit} {f : Unit → Except ε β} {b : β}
    (h : (x >>= f) = .ok b) : x = .ok () ∧ f () = .ok b :=
  check_bind_eq_ok.mp h

theorem bind_intro {b : β} (hx : x = .ok a) (h : f a = .ok b) :
    (x >>= f) = .ok b := bind_eq_ok.mpr ⟨a, hx, h⟩

theorem check_intro {β : Type} {x : Except ε Unit} {f : Unit → Except ε β} {b : β}
    (hx : x = .ok ()) (h : f () = .ok b) : (x >>= f) = .ok b := bind_intro hx h

theorem require_intro {β : Type} [Decidable cond] {f : Unit → Except ε β} {b : β} (hc : cond)
    (h : f () = .ok b) : (require cond err >>= f) = .ok b :=
  check_intro (require_of_pos _ hc) h

theorem check_of_pos {β : Type} [Decidable cond] (h : cond) {f : Unit → Except ε β} :
    (require cond err >>= f) = f () := by
  rw [require_of_pos _ h]
  rfl

theorem require_eq_error [Decidable cond] {e : ε} :
    require cond err = .error e ↔ ¬ cond ∧ err = e := by
  by_cases h : cond <;> simp [require, h]

@[simp] theorem ok_bind (a : α) (f : α → Except ε β) : (Except.ok a >>= f) = f a := rfl

@[simp] theorem error_bind (e : ε) (f : α → Except ε β) :
    ((Except.error e : Except ε α) >>= f) = .error e := rfl

theorem pure_eq_ok_iff {b : α} : (pure a : Except ε α) = .ok b ↔ a = b := by
  simp [pure, Except.pure]

theorem throw_ne_ok {e : ε} : (throw e : Except ε α) ≠ .ok a := by
  simp [throw, throwThe, MonadExceptOf.throw]

/-- `raise err if the value is missing`: the lookup `mapping[key]`. -/
def orRaise (x : Option α) (err : ε) : Except ε α :=
  match x with
  | some a => .ok a
  | none => .error err

@[simp] theorem orRaise_some (a : α) (err : ε) : orRaise (some a) err = .ok a := rfl

@[simp] theorem orRaise_none (err : ε) : orRaise (none : Option α) err = .error err := rfl

theorem orRaise_eq_ok {x : Option α} : orRaise x err = .ok a ↔ x = some a := by
  cases x <;> simp

/-- `if values: raise err(values[0])`. -/
def raiseFirst {γ : Type} (err : γ → ε) : List γ → Except ε Unit
  | [] => .ok ()
  | a :: _ => .error (err a)

theorem raiseFirst_eq_ok {γ : Type} {err : γ → ε} {xs : List γ} {u : Unit} :
    raiseFirst err xs = .ok u ↔ xs = [] := by
  cases xs <;> simp [raiseFirst]

theorem toOption_eq_some : x.toOption = some a ↔ x = .ok a := by
  cases x <;> simp [Except.toOption]

theorem mapError_eq_ok {ε' : Type u} {f : ε → ε'} : x.mapError f = .ok a ↔ x = .ok a := by
  cases x <;> simp [Except.mapError]

/-- A fold whose steps all return from related states returns a related state. -/
theorem foldlM_eq_ok_of_steps {σ : Type v} {P : List α → σ → Prop} {f : σ → α → Except ε σ}
    (xs : List α) (start : σ) (hstart : P [] start)
    (step : ∀ done a s, a ∈ xs → P done s → ∃ s', f s a = .ok s' ∧ P (done ++ [a]) s') :
    ∃ s', xs.foldlM f start = .ok s' ∧ P xs s' := by
  suffices h : ∀ (todo done : List α) (s : σ), (∀ a ∈ todo, a ∈ xs) → P done s →
      ∃ s', todo.foldlM f s = .ok s' ∧ P (done ++ todo) s' from
    h xs [] start (fun _ ha => ha) hstart
  intro todo
  induction todo with
  | nil => intro done s _ h; exact ⟨s, rfl, by simpa using h⟩
  | cons a todo ih =>
    intro done s hsub h
    obtain ⟨s₁, hs₁, h₁⟩ := step done a s (hsub a (by simp)) h
    obtain ⟨s₂, hs₂, h₂⟩ := ih (done ++ [a]) s₁ (fun b hb => hsub b (mem_cons_of_mem _ hb)) h₁
    refine ⟨s₂, ?_, by simpa using h₂⟩
    rw [foldlM_cons, hs₁, ok_bind, hs₂]

/-- A comprehension whose items all return, each carrying its source as a key. -/
theorem exists_mapM_key (key : β → α) (xs : List α) (h : ∀ a ∈ xs, ∃ b, f a = .ok b ∧ key b = a) :
    ∃ bs, xs.mapM f = .ok bs ∧ bs.map key = xs ∧ ∀ b ∈ bs, f (key b) = .ok b := by
  induction xs with
  | nil => exact ⟨[], rfl, rfl, by simp⟩
  | cons a xs ih =>
    obtain ⟨b, hb, hkey⟩ := h a (by simp)
    obtain ⟨bs, hbs, hmap, hall⟩ := ih fun x hx => h x (mem_cons_of_mem _ hx)
    refine ⟨b :: bs, ?_, by rw [map_cons, hkey, hmap], ?_⟩
    · rw [mapM_cons, hb, ok_bind, hbs, ok_bind]
      rfl
    · intro x hx
      rcases mem_cons.mp hx with rfl | hx
      · rw [hkey]; exact hb
      · exact hall x hx

variable {xs : List α}

theorem mapM_map_eq_ok {f : β → Except ε α} {g : α → β} (h : ∀ a ∈ xs, f (g a) = .ok a) :
    (xs.map g).mapM f = .ok xs := by
  induction xs with
  | nil => rfl
  | cons a xs ih =>
    rw [map_cons, mapM_cons, h a mem_cons_self, ok_bind,
      ih fun x hx => h x (mem_cons_of_mem a hx), ok_bind]
    rfl

theorem forM_ok {γ : Type} {f : γ → Except ε Unit} {xs : List γ} (h : ∀ a ∈ xs, f a = .ok ()) :
    xs.forM f = .ok () := by
  induction xs with
  | nil => rfl
  | cons a xs ih =>
    show (f a >>= fun _ => xs.forM f) = .ok ()
    rw [h a (by simp), ok_bind]
    exact ih fun x hx => h x (mem_cons_of_mem _ hx)

/-- A loop of checks that returns has passed every check. -/
theorem of_forM {γ : Type} {f : γ → Except ε Unit} {xs : List γ} (h : xs.forM f = .ok ()) :
    ∀ a ∈ xs, f a = .ok () := by
  induction xs with
  | nil => simp
  | cons x xs ih =>
    rcases check_bind_eq_ok.mp (show (f x >>= fun _ => xs.forM f) = .ok () from h) with ⟨hx, hrest⟩
    intro a ha
    rcases mem_cons.mp ha with rfl | ha
    · exact hx
    · exact ih hrest a ha

/-- A comprehension that returns has run on every item. -/
theorem forall₂_of_mapM : ∀ {ys : List β},
    xs.mapM f = .ok ys → List.Forall₂ (fun x y => f x = .ok y) xs ys := by
  induction xs with
  | nil =>
    intro ys h
    rw [mapM_nil] at h
    cases h
    exact List.Forall₂.nil
  | cons x xs ih =>
    intro ys h
    rw [mapM_cons] at h
    rcases bind_eq_ok.mp h with ⟨y, hy, h₁⟩
    rcases bind_eq_ok.mp h₁ with ⟨rest, hrest, h₂⟩
    cases h₂
    exact List.Forall₂.cons hy (ih hrest)

/-- A fold that returns has run its step on every element. -/
theorem exists_step_of_foldlM {σ : Type v} {f : σ → α → Except ε σ} :
    ∀ {start out : σ}, xs.foldlM f start = .ok out → ∀ a ∈ xs, ∃ s s', f s a = .ok s' := by
  induction xs with
  | nil => simp
  | cons x xs ih =>
    intro start out h
    rw [foldlM_cons] at h
    rcases bind_eq_ok.mp h with ⟨mid, hmid, hrest⟩
    intro a ha
    rcases mem_cons.mp ha with rfl | ha
    · exact ⟨start, mid, hmid⟩
    · exact ih hrest a ha

/-- A fold that returns keeps what every step of it keeps, from the elements that are left. -/
theorem of_foldlM_keeps {σ : Type v} {P : List α → σ → Prop} {f : σ → α → Except ε σ}
    (step : ∀ a rest s s', P (a :: rest) s → f s a = .ok s' → P rest s') :
    ∀ {start out : σ}, P xs start → xs.foldlM f start = .ok out → P [] out := by
  induction xs with
  | nil =>
    intro start out hstart h
    obtain rfl : start = out := pure_eq_ok_iff.mp h
    exact hstart
  | cons a xs ih =>
    intro start out hstart h
    rw [foldlM_cons] at h
    rcases bind_eq_ok.mp h with ⟨mid, hmid, hrest⟩
    exact ih (step a xs start mid hstart hmid) hrest

/-- A fold that returns has what every step of it extends, from the elements that are done. -/
theorem of_foldlM_done {σ : Type v} {P : List α → σ → Prop} {f : σ → α → Except ε σ} {start out : σ}
    (hstart : P [] start)
    (step : ∀ done, ∀ a ∈ xs, ∀ s s', P done s → f s a = .ok s' → P (done ++ [a]) s')
    (h : xs.foldlM f start = .ok out) : P xs out := by
  induction xs using List.reverseRecOn generalizing out with
  | nil =>
    obtain rfl : start = out := pure_eq_ok_iff.mp h
    exact hstart
  | append_singleton xs a ih =>
    rw [foldlM_append] at h
    obtain ⟨s, hs, h⟩ := bind_inv h
    obtain ⟨s', hs', h⟩ := bind_inv h
    obtain rfl : s' = out := pure_eq_ok_iff.mp h
    have hdone := ih (fun done b hb => step done b (mem_append_left _ hb)) hs
    exact step xs a (mem_append_right _ mem_cons_self) s s' hdone hs'

/-- A fold that appends what `f` returns has run `f` on every element. -/
theorem of_foldlM_append {γ : Type v} {f : α → Except ε (List γ)} : ∀ {start out : List γ},
      xs.foldlM (fun acc a => f a >>= fun b => .ok (acc ++ b)) start = .ok out →
        start ⊆ out ∧ ∀ a ∈ xs, ∃ b, f a = .ok b ∧ b ⊆ out := by
  induction xs with
  | nil =>
    intro start out h
    obtain rfl : start = out := by simpa [pure, Except.pure] using h
    exact ⟨List.Subset.refl _, by simp⟩
  | cons x xs ih =>
    intro start out h
    rw [foldlM_cons, bind_eq_ok] at h
    obtain ⟨mid, hmid, hrest⟩ := h
    obtain ⟨b, hb, hmid⟩ := bind_eq_ok.mp hmid
    cases hmid
    obtain ⟨hsub, hall⟩ := ih hrest
    refine ⟨fun y hy => hsub (mem_append_left _ hy), fun a ha => ?_⟩
    rcases mem_cons.mp ha with rfl | ha
    · exact ⟨b, hb, fun y hy => hsub (mem_append_right _ hy)⟩
    · exact hall a ha

/-- When `f` returns on every element, so does the fold, with the items of every answer. -/
theorem exists_foldlM_append {γ : Type v} {f : α → Except ε (List γ)}
    (h : ∀ a ∈ xs, ∃ b, f a = .ok b) : ∀ start : List γ, ∃ out,
      xs.foldlM (fun acc a => f a >>= fun b => .ok (acc ++ b)) start = .ok out ∧
        ∀ y, y ∈ out ↔ y ∈ start ∨ ∃ a ∈ xs, ∃ b, f a = .ok b ∧ y ∈ b := by
  induction xs with
  | nil => exact fun start => ⟨start, rfl, by simp⟩
  | cons a xs ih =>
    intro start
    obtain ⟨b, hb⟩ := h a mem_cons_self
    obtain ⟨out, hout, hmem⟩ := ih (fun x hx => h x (mem_cons_of_mem _ hx)) (start ++ b)
    refine ⟨out, by rw [foldlM_cons, hb]; exact hout, fun y => (hmem y).trans ?_⟩
    simp [hb, or_assoc]

/-- A search that has found nothing has looked at every element. -/
theorem of_foldlM_search {f : α → Except ε Bool} : ∀ {start : Bool},
      xs.foldlM (fun found a => if found then .ok true else f a) start = .ok false →
        start = false ∧ ∀ a ∈ xs, f a = .ok false := by
  induction xs with
  | nil =>
    intro start h
    exact ⟨by simpa [pure, Except.pure] using h, by simp⟩
  | cons x xs ih =>
    intro start h
    rw [foldlM_cons, bind_eq_ok] at h
    obtain ⟨mid, hmid, hrest⟩ := h
    obtain ⟨rfl, hall⟩ := ih hrest
    cases start with
    | true => simp at hmid
    | false =>
      refine ⟨rfl, fun a ha => ?_⟩
      rcases mem_cons.mp ha with rfl | ha
      · simpa using hmid
      · exact hall a ha

theorem exists_eq_ok_of_isOk (h : x.isOk = true) : ∃ a, x = .ok a := by
  cases x with
  | error e => cases h
  | ok a => exact ⟨a, rfl⟩

theorem eq_ok_of_isOk {x : Except ε PUnit} (h : x.isOk = true) : x = .ok ⟨⟩ := by
  rcases exists_eq_ok_of_isOk h with ⟨⟨⟩, h⟩
  exact h

/-! ## Loops that check each item against the items before it -/

/-- A loop that checks an item against what it has collected, then collects it. -/
theorem of_foldlM_check {σ γ : Type} {check : σ → γ → Except ε Unit} {add : σ → γ → σ}
    {xs : List γ} : ∀ {start out : σ},
      xs.foldlM (fun s a => do check s a; .ok (add s a)) start = .ok out →
        out = xs.foldl add start ∧
          ∀ done a rest, xs = done ++ a :: rest → check (done.foldl add start) a = .ok () := by
  induction xs with
  | nil =>
    intro start out h
    refine ⟨(pure_eq_ok_iff.mp h).symm, ?_⟩
    intro done a rest hsplit
    simp at hsplit
  | cons x xs ih =>
    intro start out h
    rw [foldlM_cons, bind_eq_ok] at h
    rcases h with ⟨mid, hmid, hrest⟩
    rcases check_bind_eq_ok.mp hmid with ⟨hcheck, hadd⟩
    cases hadd
    rcases ih hrest with ⟨hout, hall⟩
    refine ⟨hout, ?_⟩
    intro done a rest hsplit
    cases done with
    | nil =>
      rw [nil_append] at hsplit
      obtain ⟨rfl, -⟩ := List.cons.inj hsplit
      exact hcheck
    | cons y done =>
      rw [cons_append] at hsplit
      rcases List.cons.inj hsplit with ⟨rfl, htail⟩
      exact hall done a rest htail

/-- Items whose contributions avoid what came before contribute without repetition. -/
theorem nodup_flatMap_of_splits {γ δ : Type*} {g : γ → List δ} {xs : List γ}
    (h : ∀ done a rest, xs = done ++ a :: rest →
      (g a).Nodup ∧ ∀ b ∈ g a, b ∉ done.flatMap g) : (xs.flatMap g).Nodup := by
  induction xs using List.reverseRecOn with
  | nil => exact nodup_nil
  | append_singleton xs x ih =>
    have hx := h xs x [] rfl
    rw [flatMap_append, flatMap_singleton, nodup_append]
    refine ⟨ih fun done a rest hsplit => ?_, hx.1, ?_⟩
    · apply h done a (rest ++ [x])
      rw [hsplit, append_assoc, cons_append]
    · intro b hb c hc heq
      exact hx.2 c hc (heq ▸ hb)

end Fallible

/-! ## Steps that change a state and can raise

A Python method that raises keeps what it has already assigned, so the state is
part of the result of a raising step too. -/

/-- A computation over a mutable state that can raise. -/
def Stateful (σ ε α : Type) := σ → Except ε α × σ

namespace Stateful

variable {σ ε α β : Type}

instance : Monad (Stateful σ ε) where
  pure a := fun s => (.ok a, s)
  bind x f := fun s =>
    match x s with
    | (.ok a, s') => f a s'
    | (.error e, s') => (.error e, s')

/-- Run a computation: what it returned or raised, and the state it left. -/
def exec (x : Stateful σ ε α) (s : σ) : Except ε α × σ := x s

/-- A pure fallible step. -/
def lift (x : Except ε α) : Stateful σ ε α := fun s => (x, s)

/-- An assignment. -/
def assign (f : σ → σ) : Stateful σ ε Unit := fun s => (.ok (), f s)

@[simp] theorem exec_pure (a : α) (s : σ) : exec (pure a : Stateful σ ε α) s = (.ok a, s) := rfl

@[simp] theorem exec_lift (x : Except ε α) (s : σ) : exec (lift x) s = (x, s) := rfl

@[simp] theorem exec_assign (f : σ → σ) (s : σ) :
    exec (assign f : Stateful σ ε Unit) s = (.ok (), f s) := rfl

variable {x : Stateful σ ε α} {f : α → Stateful σ ε β}

theorem exec_bind_ok {s s' : σ} {a : α} (h : exec x s = (.ok a, s')) :
    exec (x >>= f) s = exec (f a) s' := by
  show (match x s with
    | (.ok a, s') => f a s'
    | (.error e, s') => (.error e, s')) = _
  rw [show x s = (.ok a, s') from h]
  rfl

theorem exec_bind_error {s s' : σ} {e : ε} (h : exec x s = (.error e, s')) :
    exec (x >>= f) s = (.error e, s') := by
  show (match x s with
    | (.ok a, s') => f a s'
    | (.error e, s') => (.error e, s')) = _
  rw [show x s = (.error e, s') from h]

theorem exec_bind_eq_ok {s s' : σ} {b : β} (h : exec (x >>= f) s = (.ok b, s')) :
    ∃ a t, exec x s = (.ok a, t) ∧ exec (f a) t = (.ok b, s') := by
  rcases hx : exec x s with ⟨e | a, t⟩
  · rw [exec_bind_error hx] at h
    simp at h
  · rw [exec_bind_ok hx] at h
    exact ⟨a, t, rfl, h⟩

end Stateful
