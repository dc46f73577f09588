/-
# The frontier of finished work

Items stand at distinct positions, counted from one, and each is done or not.  The
frontier is the greatest position of a done item below which everything is done.  It is
found from an older one by running over the items behind it, in their order, for as long
as they are done.
-/
import AgoraHub.RelatedLists

namespace Frontier

open List Option

variable {α β : Type*}

/-- The item at the position is done, and so is everything below it. -/
def Reached (position : α → ℕ) (done : α → Bool) (items : List α) (n : ℕ) : Prop :=
  (∃ x ∈ items, position x = n ∧ done x = true) ∧
    ∀ x ∈ items, position x < n → done x = true

/-- The greatest position that is reached, where there is one. -/
def IsFrontier (position : α → ℕ) (done : α → Bool) (items : List α) : Option ℕ → Prop
  | none => ∀ n, ¬ Reached position done items n
  | some n => IsGreatest {m | Reached position done items m} n

/-- The last item of the run of done items behind a position. -/
def last? (position : α → ℕ) (done : α → Bool) (items : List α) (frontier : ℕ) : Option α :=
  (((items.filter fun x => decide (frontier < position x)).insertionSort
    fun a b => position a ≤ position b).takeWhile done).getLast?

variable {position : α → ℕ} {done : α → Bool} {items : List α}

/-! ## Runs of done items -/

/-- In order, the run of done items holds what has nothing undone at or below it. -/
theorem mem_takeWhile_iff (h : items.Pairwise fun a b => position a < position b) {x : α} :
    x ∈ items.takeWhile done ↔ x ∈ items ∧ ∀ y ∈ items, position y ≤ position x → done y = true := by
  induction items with
  | nil => simp
  | cons a items ih =>
    rw [pairwise_cons] at h
    by_cases ha : done a = true
    · rw [takeWhile_cons_of_pos ha, mem_cons, ih h.2]
      constructor
      · rintro (rfl | ⟨hx, hbelow⟩)
        · refine ⟨mem_cons_self, fun y hy hle => ?_⟩
          rcases mem_cons.mp hy with rfl | hy
          · exact ha
          · exact absurd hle (Nat.not_le.mpr (h.1 y hy))
        · refine ⟨mem_cons_of_mem _ hx, fun y hy hle => ?_⟩
          rcases mem_cons.mp hy with rfl | hy
          · exact ha
          · exact hbelow y hy hle
      · rintro ⟨hx, hbelow⟩
        rcases mem_cons.mp hx with rfl | hx
        · exact Or.inl rfl
        · exact Or.inr ⟨hx, fun y hy => hbelow y (mem_cons_of_mem _ hy)⟩
    · rw [takeWhile_cons_of_neg ha]
      refine iff_of_false not_mem_nil ?_
      rintro ⟨hx, hbelow⟩
      refine ha (hbelow a mem_cons_self ?_)
      rcases mem_cons.mp hx with rfl | hx
      · exact le_rfl
      · exact (h.1 x hx).le

theorem le_of_getLast? (h : items.Pairwise fun a b => position a < position b) {x : α}
    (hlast : items.getLast? = some x) : x ∈ items ∧ ∀ y ∈ items, position y ≤ position x := by
  rcases getLast?_eq_some_iff.mp hlast with ⟨front, rfl⟩
  refine ⟨by simp, fun y hy => ?_⟩
  rcases mem_append.mp hy with hy | hy
  · exact ((pairwise_append.mp h).2.2 y hy x (by simp)).le
  · rw [mem_singleton.mp hy]

/-- The items behind a position, in their order. -/
theorem pairwise_sort (hdistinct : (items.map position).Nodup) (frontier : ℕ) :
    ((items.filter fun x => decide (frontier < position x)).insertionSort
      fun a b => position a ≤ position b).Pairwise fun a b => position a < position b := by
  set behind := items.filter fun x => decide (frontier < position x)
  have hsorted : (behind.insertionSort fun a b => position a ≤ position b).Pairwise
      fun a b => position a ≤ position b := by
    have : Std.Total fun a b : α => position a ≤ position b := ⟨fun a b => le_total _ _⟩
    have : IsTrans α fun a b => position a ≤ position b := ⟨fun a b c => le_trans⟩
    exact pairwise_insertionSort _ behind
  have hnodup : ((behind.insertionSort fun a b => position a ≤ position b).map position).Nodup := by
    rw [((perm_insertionSort _ behind).map position).nodup_iff]
    exact hdistinct.sublist (filter_sublist.map position)
  exact (hsorted.and (pairwise_map.mp hnodup)).imp fun h => lt_of_le_of_ne h.1 h.2

/-! ## The next frontier -/

theorem Reached.done_of_le (hdistinct : (items.map position).Nodup) {n : ℕ}
    (h : Reached position done items n) {x : α} (hx : x ∈ items) (hle : position x ≤ n) :
    done x = true := by
  rcases h with ⟨⟨y, hy, hat, hdone⟩, hbelow⟩
  rcases hle.lt_or_eq with hlt | heq
  · exact hbelow x hx hlt
  · rwa [inj_on_of_nodup_map hdistinct hx hy (heq.trans hat.symm)]

variable {old : Option ℕ}

/-- The run behind a reached position ends at the frontier. -/
theorem isFrontier_last? (hdistinct : (items.map position).Nodup)
    (hpositive : ∀ x ∈ items, 1 ≤ position x) (hold : ∀ n ∈ old, Reached position done items n) :
    IsFrontier position done items
      (((last? position done items (old.getD 0)).map position).or old) := by
  set frontier := old.getD 0 with hfrontier
  have hdone : ∀ x ∈ items, position x ≤ frontier → done x = true := by
    intro x hx hle
    cases hcase : old with
    | none =>
      have := hpositive x hx
      rw [hfrontier, hcase, getD_none] at hle
      omega
    | some n =>
      rw [hfrontier, hcase] at hle
      exact (hold n hcase).done_of_le hdistinct hx hle
  have horder := pairwise_sort hdistinct frontier
  unfold last?
  set rows := (items.filter fun x => decide (frontier < position x)).insertionSort
    fun a b => position a ≤ position b
  have hrows : ∀ x, x ∈ rows ↔ x ∈ items ∧ frontier < position x := by
    intro x
    rw [(perm_insertionSort _ _).mem_iff, mem_filter, decide_eq_true_eq]
  -- a reached position behind the old frontier is one of the run
  have hrun : ∀ n, Reached position done items n → n ≤ frontier ∨
      ∃ x ∈ rows.takeWhile done, position x = n := by
    intro n hreached
    rcases Nat.lt_or_ge frontier n with hlt | hle
    · rcases hreached.1 with ⟨x, hx, rfl, -⟩
      refine Or.inr ⟨x, (mem_takeWhile_iff horder).mpr ⟨(hrows x).mpr ⟨hx, hlt⟩, ?_⟩, rfl⟩
      intro y hy hyx
      exact hreached.done_of_le hdistinct ((hrows y).mp hy).1 hyx
    · exact Or.inl hle
  cases hlast : (rows.takeWhile done).getLast? with
  | none =>
    have hempty : rows.takeWhile done = [] := getLast?_eq_none_iff.mp hlast
    have hbound : ∀ n, Reached position done items n → n ≤ frontier := by
      intro n hreached
      rcases hrun n hreached with hle | ⟨x, hx, -⟩
      · exact hle
      · rw [hempty] at hx
        cases hx
    rw [map_none, none_or]
    cases hcase : old with
    | none =>
      intro n hreached
      rcases hreached.1 with ⟨x, hx, rfl, -⟩
      have hle := hbound _ hreached
      have := hpositive x hx
      rw [hfrontier, hcase, getD_none] at hle
      omega
    | some n =>
      refine ⟨hold n hcase, fun m hm => ?_⟩
      have hle := hbound m hm
      rwa [hfrontier, hcase] at hle
  | some x =>
    have hinitial := horder.sublist (takeWhile_sublist (p := done))
    rcases le_of_getLast? hinitial hlast with ⟨hx, hmost⟩
    rcases (mem_takeWhile_iff horder).mp hx with ⟨hxrows, hbelow⟩
    rcases (hrows x).mp hxrows with ⟨hxitems, hbehind⟩
    rw [map_some, some_or]
    refine ⟨⟨⟨x, hxitems, rfl, hbelow x hxrows le_rfl⟩, fun y hy hlt => ?_⟩, fun n hreached => ?_⟩
    · rcases Nat.lt_or_ge frontier (position y) with hyfrontier | hyfrontier
      · exact hbelow y ((hrows y).mpr ⟨hy, hyfrontier⟩) hlt.le
      · exact hdone y hy hyfrontier
    · rcases hrun n hreached with hle | ⟨y, hy, rfl⟩
      · exact hle.trans hbehind.le
      · exact hmost y hy

/-! ## Items that change -/

variable {items' : List α}

theorem Reached.mono {R : α → α → Prop} {n : ℕ}
    (hposition : ∀ a b, R a b → position b = position a)
    (hdone : ∀ a b, R a b → done a = true → done b = true) (h : List.Forall₂ R items items')
    (hreached : Reached position done items n) : Reached position done items' n := by
  rcases hreached with ⟨⟨x, hx, hat, hxdone⟩, hbelow⟩
  rcases RelatedLists.exists_right h hx with ⟨x', hx', hr⟩
  refine ⟨⟨x', hx', (hposition x x' hr).trans hat, hdone x x' hr hxdone⟩, fun y' hy' hlt => ?_⟩
  rcases RelatedLists.exists_left h hy' with ⟨y, hy, hr'⟩
  exact hdone y y' hr' (hbelow y hy (hposition y y' hr' ▸ hlt))

theorem reached_congr {R : α → α → Prop} (hposition : ∀ a b, R a b → position b = position a)
    (hdone : ∀ a b, R a b → done b = done a) (h : List.Forall₂ R items items') (n : ℕ) :
    Reached position done items' n ↔ Reached position done items n := by
  refine ⟨fun hreached => ?_, Reached.mono hposition (fun a b hr ha => (hdone a b hr).trans ha) h⟩
  refine Reached.mono (R := fun a b => R b a) (fun a b hr => (hposition b a hr).symm)
    (fun a b hr ha => (hdone b a hr).symm.trans ha) ?_ hreached
  exact h.flip

/-- Items that are not done and lie behind all others. -/
theorem reached_append {later : List α} (hopen : ∀ x ∈ later, done x = false)
    (hlater : ∀ x ∈ later, ∀ y ∈ items, position y < position x) (n : ℕ) :
    Reached position done (items ++ later) n ↔ Reached position done items n := by
  constructor
  · rintro ⟨⟨x, hx, hat, hdone⟩, hbelow⟩
    rcases mem_append.mp hx with hx | hx
    · exact ⟨⟨x, hx, hat, hdone⟩, fun y hy => hbelow y (mem_append_left _ hy)⟩
    · rw [hopen x hx] at hdone
      cases hdone
  · rintro ⟨⟨x, hx, rfl, hdone⟩, hbelow⟩
    refine ⟨⟨x, mem_append_left _ hx, rfl, hdone⟩, fun y hy hlt => ?_⟩
    rcases mem_append.mp hy with hy | hy
    · exact hbelow y hy hlt
    · have := hlater y hy x hx
      omega

theorem isFrontier_congr (h : ∀ n, Reached position done items' n ↔ Reached position done items n)
    (old : Option ℕ) :
    IsFrontier position done items' old ↔ IsFrontier position done items old := by
  cases old with
  | none => exact forall_congr' fun n => not_congr (h n)
  | some n =>
    have hset : {m | Reached position done items' m} = {m | Reached position done items m} :=
      Set.ext h
    show IsGreatest _ n ↔ IsGreatest _ n
    rw [hset]

theorem IsFrontier.reached (h : IsFrontier position done items old) :
    ∀ n ∈ old, Reached position done items n := by
  rintro n rfl
  exact h.1

/-- Where every reached position stays reached, the frontier does not fall. -/
theorem IsFrontier.le {new : Option ℕ} (hold : IsFrontier position done items old)
    (hnew : IsFrontier position done items' new)
    (h : ∀ n, Reached position done items n → Reached position done items' n) :
    ∀ n ∈ old, ∃ m ∈ new, n ≤ m := by
  intro n hn
  have hreached := h n (hold.reached n hn)
  cases new with
  | none => exact absurd hreached (hnew n)
  | some m => exact ⟨m, rfl, hnew.2 hreached⟩

end Frontier
