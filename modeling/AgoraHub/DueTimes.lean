/-
# Due times read off at ticks

A ticker remembers the last time that it ran.  At each tick it puts out some due times
after that one and remembers the last of them, or it puts out nothing and remembers a
due time or what it remembered before.  Whatever it leaves out, what it puts out over
all ticks increases strictly.
-/
import Mathlib.Tactic
import Mathlib.Order.Basic

namespace DueTimes

open List

variable {τ : Type*} [LinearOrder τ]

/-- One tick at `now`, with the due times `D`: `out` is put out, and `update` is what the ticker
remembers instead of `last`, if it remembers something new. -/
structure Tick (D : Set τ) (last : Option τ) (now : τ) (out : List τ) (update : Option τ) :
    Prop where
  sorted : out.Pairwise (· < ·)
  due : ∀ d ∈ out, d ∈ D ∧ d ≤ now ∧ ∀ l ∈ last, l < d
  remembered : out ≠ [] → update = out.getLast?
  advanced : ∀ u ∈ update, u ∈ D ∧ u ≤ now ∧ ∀ l ∈ last, l < u

theorem Tick.skip {D : Set τ} {last : Option τ} {now u : τ} (hu : u ∈ D) (hnow : u ≤ now)
    (hlast : ∀ l ∈ last, l < u) : Tick D last now [] (some u) :=
  ⟨List.Pairwise.nil, by simp, by simp, by simpa using ⟨hu, hnow, hlast⟩⟩

theorem Tick.fire {D : Set τ} {last : Option τ} {now u : τ} {out : List τ}
    (hsorted : out.Pairwise (· < ·)) (hdue : ∀ d ∈ out, d ∈ D ∧ d ≤ now ∧ ∀ l ∈ last, l < d)
    (hu : out.getLast? = some u) : Tick D last now out (some u) := by
  refine ⟨hsorted, hdue, fun _ => hu.symm, ?_⟩
  intro v hv
  obtain rfl := Option.mem_some_iff.mp hv
  exact hdue u (mem_of_getLast? hu)

/-- What was put out increases strictly, and nothing of it is after what is remembered. -/
def Ordered (log : List τ) (last : Option τ) : Prop :=
  log.Pairwise (· < ·) ∧ ∀ d ∈ log, ∃ l ∈ last, d ≤ l

theorem ordered_nil (last : Option τ) : Ordered [] last := ⟨List.Pairwise.nil, by simp⟩

/-- The last of increasing times is the greatest. -/
theorem le_getLast? {out : List τ} (h : out.Pairwise (· < ·)) {d u : τ} (hd : d ∈ out)
    (hu : out.getLast? = some u) : d ≤ u := by
  rcases eq_nil_or_concat out with rfl | ⟨init, v, rfl⟩
  · simp at hd
  · have huv : v = u := by simpa using hu
    subst huv
    rw [concat_eq_append, pairwise_append] at h
    rw [concat_eq_append, mem_append, mem_singleton] at hd
    rcases hd with hd | rfl
    · exact (h.2.2 d hd v (mem_singleton_self v)).le
    · exact le_refl d

/-- A tick keeps the order. -/
theorem Tick.ordered {D : Set τ} {last : Option τ} {now : τ} {out : List τ} {update : Option τ}
    (h : Tick D last now out update) {log : List τ} (hlog : Ordered log last) :
    Ordered (log ++ out) (update.or last) := by
  rcases hlog with ⟨hsorted, hbefore⟩
  refine ⟨pairwise_append.mpr ⟨hsorted, h.sorted, ?_⟩, ?_⟩
  · intro d hd e he
    rcases hbefore d hd with ⟨l, hl, hdl⟩
    exact lt_of_le_of_lt hdl ((h.due e he).2.2 l hl)
  · intro d hd
    rcases mem_append.mp hd with hd | hd
    · rcases hbefore d hd with ⟨l, hl, hdl⟩
      cases hupdate : update with
      | none => exact ⟨l, hl, hdl⟩
      | some u => exact ⟨u, rfl, hdl.trans ((h.advanced u hupdate).2.2 l hl).le⟩
    · have hne : out ≠ [] := ne_nil_of_mem hd
      rw [h.remembered hne]
      cases hlast : out.getLast? with
      | none => exact absurd (getLast?_eq_none_iff.mp hlast) hne
      | some u => exact ⟨u, rfl, le_getLast? h.sorted hd hlast⟩

end DueTimes
