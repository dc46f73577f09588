/-
# Searching a finite graph

A worklist search for what is reachable, and the counting of in-degrees that
processes every node exactly when nothing is on a cycle.  Both are loops with an
explicit bound; the results here say that the bound is enough.  A second search
marks what the roots lead to, and a node hangs on a root when a chain of nodes that
stay leads to it.
-/
import Mathlib.Tactic
import Mathlib.Data.List.Perm.Basic

namespace GraphSearch

open List Function

variable {α : Type} [DecidableEq α]

/-! ## Reachability -/

/-- A path along the successors that are known nodes. -/
inductive Reaches (known : α → Bool) (next : α → List α) : α → α → Prop where
  | refl (x : α) : Reaches known next x x
  | step {x y z : α} : Reaches known next x y → z ∈ next y → known z = true →
      Reaches known next x z

/-- The worklist loop: take the first queued node, skip it when it is visited, else
visit it and queue its successors that are known and not visited. -/
def explore (known : α → Bool) (next : α → List α) : ℕ → List α → List α → List α
  | 0, _, visited => visited
  | _ + 1, [], visited => visited
  | n + 1, x :: queue, visited =>
    if x ∈ visited then explore known next n queue visited
    else explore known next n
      (queue ++ (next x).filter fun y => known y && !decide (y ∈ visited ++ [x])) (visited ++ [x])

/-- The successors that are still to be queued, over the nodes of a list. -/
def pending (next : α → List α) (visited : List α) (nodes : List α) : ℕ :=
  ((nodes.filter fun x => decide (x ∉ visited)).map fun x => (next x).length).sum

variable {nodes : List α} {x : α}

/-- Visiting a node takes its successors out of what is pending. -/
theorem pending_visit (next : α → List α) {visited : List α} (hnodes : nodes.Nodup)
    (hx : x ∈ nodes) (hnew : x ∉ visited) :
    pending next (visited ++ [x]) nodes + (next x).length = pending next visited nodes := by
  unfold pending
  induction nodes with
  | nil => cases hx
  | cons y nodes ih =>
    obtain ⟨hy, hrest⟩ := nodup_cons.mp hnodes
    rcases mem_cons.mp hx with rfl | hx
    · -- the other nodes are not the visited one
      have hsame : nodes.filter (fun z => decide (z ∉ visited ++ [x])) =
          nodes.filter fun z => decide (z ∉ visited) := by
        apply filter_congr
        intro z hz
        have hne : z ≠ x := fun h => hy (h ▸ hz)
        simp [hne]
      rw [filter_cons_of_neg (by simp), filter_cons_of_pos (by simpa using hnew), hsame,
        map_cons, sum_cons, Nat.add_comm]
    · have hne : y ≠ x := fun h => hy (h ▸ hx)
      by_cases hvisited : y ∈ visited
      · rw [filter_cons_of_neg (by simp [hvisited]),
          filter_cons_of_neg (by simpa using hvisited)]
        exact ih hrest hx
      · rw [filter_cons_of_pos (by simp [hvisited, hne]),
          filter_cons_of_pos (by simpa using hvisited), map_cons, map_cons,
          sum_cons, sum_cons, Nat.add_assoc, ih hrest hx]

variable {next : α → List α}

/-- With enough turns the search ends in a set that contains what it started from and
is closed under known successors. -/
theorem explore_closed {known : α → Bool} (hnodes : nodes.Nodup)
    (hknown : ∀ x ∈ nodes, ∀ y ∈ next x, known y = true → y ∈ nodes) :
    ∀ (n : ℕ) (queue visited : List α), (∀ x ∈ queue, x ∈ nodes) →
      (∀ x ∈ visited, ∀ y ∈ next x, known y = true → y ∈ visited ∨ y ∈ queue) →
      queue.length + pending next visited nodes ≤ n →
      (∀ x ∈ visited, x ∈ explore known next n queue visited) ∧
        (∀ x ∈ queue, x ∈ explore known next n queue visited) ∧
        ∀ x ∈ explore known next n queue visited, ∀ y ∈ next x, known y = true →
          y ∈ explore known next n queue visited := by
  intro n
  induction n with
  | zero =>
    intro queue visited _ hclosed hbound
    have hempty : queue = [] := length_eq_zero_iff.mp (by omega)
    subst hempty
    refine ⟨fun x hx => hx, by simp, ?_⟩
    intro x hx y hy hky
    rcases hclosed x hx y hy hky with h | h
    · exact h
    · cases h
  | succ n ih =>
    intro queue visited hqueue hclosed hbound
    cases queue with
    | nil =>
      refine ⟨fun x hx => hx, by simp, ?_⟩
      intro x hx y hy hky
      rcases hclosed x hx y hy hky with h | h
      · exact h
      · cases h
    | cons x queue =>
      rw [length_cons] at hbound
      unfold explore
      by_cases hx : x ∈ visited
      · -- a visited node is skipped
        rw [if_pos hx]
        have hclosed' : ∀ z ∈ visited, ∀ y ∈ next z, known y = true → y ∈ visited ∨ y ∈ queue := by
          intro z hz y hy hky
          rcases hclosed z hz y hy hky with h | h
          · exact Or.inl h
          · rcases mem_cons.mp h with rfl | h
            · exact Or.inl hx
            · exact Or.inr h
        rcases ih queue visited (fun z hz => hqueue z (mem_cons_of_mem _ hz)) hclosed'
          (by omega) with ⟨h₁, h₂, h₃⟩
        refine ⟨h₁, ?_, h₃⟩
        intro z hz
        rcases mem_cons.mp hz with rfl | hz
        · exact h₁ z hx
        · exact h₂ z hz
      · rw [if_neg hx]
        have hin : x ∈ nodes := hqueue x mem_cons_self
        have hpending := pending_visit next hnodes hin hx
        have hlength : ((next x).filter fun y =>
            known y && !decide (y ∈ visited ++ [x])).length ≤ (next x).length :=
          length_filter_le _ _
        have hqueue' : ∀ z ∈ queue ++ (next x).filter (fun y =>
            known y && !decide (y ∈ visited ++ [x])), z ∈ nodes := by
          intro z hz
          rcases mem_append.mp hz with hz | hz
          · exact hqueue z (mem_cons_of_mem _ hz)
          · obtain ⟨hnext, hz⟩ := mem_filter.mp hz
            rw [Bool.and_eq_true] at hz
            exact hknown x hin z hnext hz.1
        have hclosed' : ∀ z ∈ visited ++ [x], ∀ y ∈ next z, known y = true →
            y ∈ visited ++ [x] ∨ y ∈ queue ++ (next x).filter (fun y =>
              known y && !decide (y ∈ visited ++ [x])) := by
          intro z hz y hy hky
          by_cases hyv : y ∈ visited ++ [x]
          · exact Or.inl hyv
          refine Or.inr (mem_append.mpr ?_)
          rcases mem_append.mp hz with hz | hz
          · rcases hclosed z hz y hy hky with h | h
            · exact absurd (mem_append_left _ h) hyv
            · rcases mem_cons.mp h with rfl | h
              · exact absurd (mem_append_right _ (mem_singleton_self _)) hyv
              · exact Or.inl h
          · obtain rfl := mem_singleton.mp hz
            refine Or.inr (mem_filter.mpr ⟨hy, ?_⟩)
            simp [hky, hyv]
        obtain ⟨h₁, h₂, h₃⟩ := ih _ _ hqueue' hclosed' (by rw [length_append]; omega)
        refine ⟨fun z hz => h₁ z (mem_append_left _ hz), ?_, h₃⟩
        intro z hz
        rcases mem_cons.mp hz with rfl | hz
        · exact h₁ z (mem_append_right _ (mem_singleton_self _))
        · exact h₂ z (mem_append_left _ hz)

/-- The number of turns that always suffices. -/
def turns (next : α → List α) (nodes starts : List α) : ℕ :=
  starts.length + pending next [] nodes

/-- The search visits everything that is reachable from its starting nodes. -/
theorem mem_explore_of_reaches {known : α → Bool} {starts : List α} (hnodes : nodes.Nodup)
    (hknown : ∀ x ∈ nodes, ∀ y ∈ next x, known y = true → y ∈ nodes)
    (hstarts : ∀ x ∈ starts, x ∈ nodes) {y : α} (hx : x ∈ starts)
    (hreach : Reaches known next x y) :
    y ∈ explore known next (turns next nodes starts) starts [] := by
  rcases explore_closed hnodes hknown (turns next nodes starts) starts [] hstarts (by simp)
    (le_refl _) with ⟨-, hstart, hclosed⟩
  induction hreach with
  | refl => exact hstart _ hx
  | step _ hz hknown ih => exact hclosed _ ih _ hz hknown

/-- In a list without repetition, the position of an element that comes first is less. -/
theorem idxOf_lt_of_sublist {l : List α} {y : α} (hl : l.Nodup) (h : [x, y].Sublist l) :
    l.idxOf x < l.idxOf y := by
  obtain ⟨before, after, rfl, hx, hy⟩ := cons_sublist_iff.mp h
  have hyafter : y ∈ after := singleton_sublist.mp hy
  have hnot : y ∉ before := fun hmem => (nodup_append.mp hl).2.2 y hmem y hyafter rfl
  rw [idxOf_append_of_mem hx, idxOf_append_of_notMem hnot]
  exact Nat.lt_of_lt_of_le (idxOf_lt_length_of_mem hx) (Nat.le_add_right _ _)

/-! ## Descendants -/

/-- A node is marked, and queued, the first time it is met. -/
def mark (state : List α × List α) (y : α) : List α × List α :=
  if y ∈ state.1 then state else (state.1 ++ [y], state.2 ++ [y])

/-- The loop that marks the successors of the queued nodes and queues the new ones. -/
def spread (next : α → List α) : ℕ → List α → List α → List α
  | 0, seen, _ => seen
  | _ + 1, seen, [] => seen
  | n + 1, seen, x :: queue =>
    let marked := (next x).foldl mark (seen, queue)
    spread next n marked.1 marked.2

/-- The successors that are new are marked and queued, in the same order. -/
theorem foldl_mark (ys : List α) : ∀ (seen queue : List α), ∃ fresh : List α,
    ys.foldl mark (seen, queue) = (seen ++ fresh, queue ++ fresh) ∧ fresh.Nodup ∧
      (∀ y ∈ fresh, y ∈ ys ∧ y ∉ seen) ∧ ∀ y ∈ ys, y ∈ seen ++ fresh := by
  induction ys with
  | nil =>
    intro seen queue
    exact ⟨[], by simp, nodup_nil, by simp, by simp⟩
  | cons y ys ih =>
    intro seen queue
    rw [foldl_cons]
    by_cases hy : y ∈ seen
    · have hmark : mark (seen, queue) y = (seen, queue) := if_pos hy
      obtain ⟨fresh, hfold, hnodup, hfresh, hall⟩ := ih seen queue
      refine ⟨fresh, by rw [hmark, hfold], hnodup, ?_, ?_⟩
      · exact fun z hz => ⟨mem_cons_of_mem _ (hfresh z hz).1, (hfresh z hz).2⟩
      · intro z hz
        rcases mem_cons.mp hz with rfl | hz
        · exact mem_append_left _ hy
        · exact hall z hz
    · have hmark : mark (seen, queue) y = (seen ++ [y], queue ++ [y]) := if_neg hy
      obtain ⟨fresh, hfold, hnodup, hfresh, hall⟩ := ih (seen ++ [y]) (queue ++ [y])
      have hnot : y ∉ fresh := fun hmem =>
        (hfresh y hmem).2 (mem_append_right _ (mem_singleton_self y))
      refine ⟨y :: fresh, ?_, nodup_cons.mpr ⟨hnot, hnodup⟩, ?_, ?_⟩
      · rw [hmark, hfold, append_assoc, append_assoc, singleton_append]
      · intro z hz
        rcases mem_cons.mp hz with rfl | hz
        · exact ⟨mem_cons_self, hy⟩
        · obtain ⟨hin, hnew⟩ := hfresh z hz
          exact ⟨mem_cons_of_mem _ hin, fun hmem => hnew (mem_append_left _ hmem)⟩
      · intro z hz
        rcases mem_cons.mp hz with rfl | hz
        · exact mem_append_right _ mem_cons_self
        · have hmem := hall z hz
          rwa [append_assoc, singleton_append] at hmem

/-- The nodes of a list that are not marked. -/
def unmarked (nodes seen : List α) : List α := nodes.filter fun x => decide (x ∉ seen)

/-- Marking new nodes leaves that many fewer. -/
theorem length_unmarked_append {seen fresh : List α} (hnodes : nodes.Nodup) (hfresh : fresh.Nodup)
    (hnew : ∀ y ∈ fresh, y ∈ nodes ∧ y ∉ seen) :
    fresh.length + (unmarked nodes (seen ++ fresh)).length ≤ (unmarked nodes seen).length := by
  have hnodup : (fresh ++ unmarked nodes (seen ++ fresh)).Nodup := by
    refine List.Nodup.append hfresh (hnodes.filter _) ?_
    intro y hy hmem
    have hout := of_decide_eq_true (mem_filter.mp hmem).2
    exact hout (mem_append_right _ hy)
  have hsubset : fresh ++ unmarked nodes (seen ++ fresh) ⊆ unmarked nodes seen := by
    intro y hy
    apply mem_filter.mpr
    rcases mem_append.mp hy with hy | hy
    · exact ⟨(hnew y hy).1, decide_eq_true (hnew y hy).2⟩
    · obtain ⟨hin, hout⟩ := mem_filter.mp hy
      refine ⟨hin, decide_eq_true fun hseen => ?_⟩
      exact of_decide_eq_true hout (mem_append_left _ hseen)
  have hlength := (hnodup.subperm hsubset).length_le
  rwa [length_append] at hlength

/-- With enough turns everything that a queued node leads to is marked. -/
theorem spread_closed {next : α → List α} (hnodes : nodes.Nodup)
    (hnext : ∀ x, ∀ y ∈ next x, y ∈ nodes) : ∀ (n : ℕ) (seen queue : List α),
      queue.length + (unmarked nodes seen).length ≤ n → (∀ x ∈ seen, x ∈ spread next n seen queue) ∧
        (∀ x ∈ queue, ∀ y ∈ next x, y ∈ spread next n seen queue) ∧
        ∀ x ∈ spread next n seen queue, x ∉ seen → ∀ y ∈ next x, y ∈ spread next n seen queue := by
  intro n
  induction n with
  | zero =>
    intro seen queue hbound
    have hempty : queue = [] := length_eq_zero_iff.mp (by omega)
    subst hempty
    exact ⟨fun x hx => hx, by simp, fun x hx hnot => absurd hx hnot⟩
  | succ n ih =>
    intro seen queue hbound
    cases queue with
    | nil => exact ⟨fun x hx => hx, by simp, fun x hx hnot => absurd hx hnot⟩
    | cons x queue =>
      obtain ⟨fresh, hfold, hnodup, hfresh, hall⟩ := foldl_mark (next x) seen queue
      have hspread : spread next (n + 1) seen (x :: queue) =
          spread next n (seen ++ fresh) (queue ++ fresh) := by
        show spread next n ((next x).foldl mark (seen, queue)).1
          ((next x).foldl mark (seen, queue)).2 = _
        rw [hfold]
      have hcount := length_unmarked_append hnodes hnodup
        fun y hy => ⟨hnext x y (hfresh y hy).1, (hfresh y hy).2⟩
      rw [length_cons] at hbound
      rcases ih (seen ++ fresh) (queue ++ fresh) (by rw [length_append]; omega) with
        ⟨hseen, hqueue, hclosed⟩
      rw [hspread]
      refine ⟨fun z hz => hseen z (mem_append_left _ hz), ?_, ?_⟩
      · intro z hz y hy
        rcases mem_cons.mp hz with rfl | hz
        · exact hseen y (hall y hy)
        · exact hqueue z (mem_append_left _ hz) y hy
      · intro z hz hnot y hy
        by_cases hz' : z ∈ fresh
        · -- a node that was new here is queued
          exact hqueue z (mem_append_right _ hz') y hy
        · refine hclosed z hz (fun hmem => ?_) y hy
          rcases mem_append.mp hmem with h | h
          · exact hnot h
          · exact hz' h

/-- The nodes that the roots lead to, in at least one step. -/
def descendants (next : α → List α) (nodes roots : List α) : List α :=
  spread next (roots.length + nodes.length) [] roots

/-- Everything that a root leads to is found. -/
theorem mem_descendants {roots : List α} (hnodes : nodes.Nodup)
    (hnext : ∀ x, ∀ y ∈ next x, y ∈ nodes) {y : α} (hx : x ∈ roots)
    (hpath : Relation.TransGen (fun a b => b ∈ next a) x y) : y ∈ descendants next nodes roots := by
  have hbound : roots.length + (unmarked nodes []).length ≤ roots.length + nodes.length :=
    Nat.add_le_add_left (length_filter_le _ _) _
  rcases spread_closed hnodes hnext (roots.length + nodes.length) [] roots hbound with
    ⟨-, hroots, hclosed⟩
  induction hpath with
  | single hy => exact hroots x hx _ hy
  | tail _ hy ih => exact hclosed _ ih not_mem_nil _ hy

/-! ## Causes -/

/-- A node hangs on a root: directly, or through a node that stays and hangs on one. -/
inductive Hangs (next : α → List α) (root stays : α → Prop) : α → Prop where
  | direct {x d : α} : d ∈ next x → root d → Hangs next root stays x
  | through {x d : α} : d ∈ next x → stays d → Hangs next root stays d → Hangs next root stays x

omit [DecidableEq α] in
theorem Hangs.mono {next : α → List α} {root stays root' stays' : α → Prop} {x : α}
    (h : Hangs next root stays x) (hroot : ∀ d, root d → root' d)
    (hstays : ∀ d, stays d → Hangs next root stays d → stays' d) : Hangs next root' stays' x := by
  induction h with
  | direct hd hr => exact .direct hd (hroot _ hr)
  | through hd hs hrest ih => exact .through hd (hstays _ hs hrest) ih

omit [DecidableEq α] in
theorem Hangs.exists_path {root stays : α → Prop} {x : α} (h : Hangs next root stays x) :
    ∃ r, root r ∧ Relation.TransGen (fun a b => a ∈ next b) r x := by
  induction h with
  | direct hd hr => exact ⟨_, hr, .single hd⟩
  | through hd _ _ ih =>
    obtain ⟨r, hr, hpath⟩ := ih
    exact ⟨r, hr, hpath.tail hd⟩

section Closure

variable {next : α → List α} {failed blocked waiting closed : α → Prop}

omit [DecidableEq α] in
/-- What hangs on a failure through blocked and waiting nodes hangs, through waiting nodes, on a
failed or a blocked one. -/
theorem Hangs.shorten {x : α} (h : Hangs next failed (fun d => blocked d ∨ waiting d) x) :
    Hangs next (fun d => failed d ∨ blocked d) waiting x := by
  induction h with
  | direct hd hfailed => exact .direct hd (Or.inl hfailed)
  | through hd hstays _ ih =>
    rcases hstays with hblocked | hwaiting
    · exact .direct hd (Or.inr hblocked)
    · exact .through hd hwaiting ih

omit [DecidableEq α] in
/-- The other way round, where every blocked node hangs on a failure. -/
theorem Hangs.extend
    (hcause : ∀ d, blocked d → Hangs next failed (fun d => blocked d ∨ waiting d) d) {x : α}
    (h : Hangs next (fun d => failed d ∨ blocked d) waiting x) :
    Hangs next failed (fun d => blocked d ∨ waiting d) x := by
  induction h with
  | direct hd hroot =>
    rcases hroot with hfailed | hblocked
    · exact .direct hd hfailed
    · exact .through hd (Or.inl hblocked) (hcause _ hblocked)
  | through hd hwaiting _ ih => exact .through hd (Or.inr hwaiting) ih

omit [DecidableEq α] in
/-- Where the blocked nodes are closed under what hangs on them, each of them has a failure behind
it exactly if each of the first ones has. -/
theorem hangs_closed_iff (hclosed : ∀ d, closed d ↔
      blocked d ∨ (waiting d ∧ Hangs next (fun d => failed d ∨ blocked d) waiting d)) :
    (∀ x, closed x → Hangs next failed closed x) ↔
      ∀ d, blocked d → Hangs next failed (fun d => blocked d ∨ waiting d) d := by
  constructor
  · intro hall d hblocked
    refine (hall d ((hclosed d).mpr (Or.inl hblocked))).mono (fun _ h => h) fun e he _ => ?_
    exact ((hclosed e).mp he).imp_right And.left
  · intro hcause x hx
    have hhangs : Hangs next failed (fun d => blocked d ∨ waiting d) x := by
      rcases (hclosed x).mp hx with hblocked | ⟨-, hwaits⟩
      · exact hcause x hblocked
      · exact hwaits.extend hcause
    -- a waiting node on the way hangs on the same failure, and is blocked for it
    refine hhangs.mono (fun _ h => h) fun d hd hrest => ?_
    apply (hclosed d).mpr
    rcases hd with hblocked | hwaiting
    · exact Or.inl hblocked
    · exact Or.inr ⟨hwaiting, hrest.shorten⟩

end Closure

/-! ## Counting in-degrees -/

/-- Take one edge to a node away; a node without edges left becomes ready. -/
def arrive (state : (α → ℕ) × List α) (target : α) : (α → ℕ) × List α :=
  let degree := state.1 target - 1
  (Function.update state.1 target degree, if degree = 0 then state.2 ++ [target] else state.2)

/-- Process ready nodes, and count them. -/
def process (outgoing : α → List α) : ℕ → (α → ℕ) → List α → ℕ → ℕ
  | 0, _, _, processed => processed
  | _ + 1, _, [], processed => processed
  | n + 1, indegree, x :: ready, processed =>
    let state := (outgoing x).foldl arrive (indegree, ready)
    process outgoing n state.1 state.2 (processed + 1)

/-- What taking away several edges does. -/
theorem foldl_arrive (targets : List α) : ∀ (indegree : α → ℕ) (ready : List α),
    (∀ t, targets.count t ≤ indegree t) →
    (∀ t, (targets.foldl arrive (indegree, ready)).1 t = indegree t - targets.count t) ∧
      ∃ added, (targets.foldl arrive (indegree, ready)).2 = ready ++ added ∧ added.Nodup ∧
        ∀ t, t ∈ added ↔ t ∈ targets ∧ indegree t = targets.count t := by
  induction targets with
  | nil =>
    intro indegree ready _
    exact ⟨fun t => rfl, [], by simp, nodup_nil, by simp⟩
  | cons u targets ih =>
    intro indegree ready hcount
    have hrest : ∀ t, targets.count t ≤ Function.update indegree u (indegree u - 1) t := by
      intro t
      have h := hcount t
      by_cases htu : t = u
      · subst htu
        rw [count_cons_self] at h
        rw [update_self]
        omega
      · rw [count_cons_of_ne (Ne.symm htu)] at h
        rw [update_of_ne htu]
        exact h
    have hu : targets.count u + 1 ≤ indegree u := by
      have h := hcount u
      rw [count_cons_self] at h
      exact h
    rw [foldl_cons]
    rcases ih (Function.update indegree u (indegree u - 1))
      (if indegree u - 1 = 0 then ready ++ [u] else ready) hrest with ⟨hdegree, added, hready, hnodup,
        hadded⟩
    constructor
    · intro t
      refine (hdegree t).trans ?_
      by_cases htu : t = u
      · subst htu
        rw [update_self, count_cons_self]
        omega
      · rw [update_of_ne htu, count_cons_of_ne (Ne.symm htu)]
    · by_cases hzero : indegree u - 1 = 0
      · -- the last edge to `u`
        rw [if_pos hzero] at hready
        have hnone : u ∉ targets := fun hmem => by
          have := count_pos_iff.mpr hmem
          omega
        refine ⟨u :: added, ?_, ?_, ?_⟩
        · refine (show _ = _ from ?_).trans (hready.trans (append_assoc ..))
          unfold arrive
          dsimp only
          rw [if_pos hzero]
        · refine nodup_cons.mpr ⟨?_, hnodup⟩
          intro hmem
          exact hnone ((hadded u).mp hmem).1
        · intro t
          by_cases htu : t = u
          · subst htu
            simp only [mem_cons_self, true_and, true_iff, count_cons_self]
            omega
          · rw [mem_cons, mem_cons, hadded, update_of_ne htu,
              count_cons_of_ne (Ne.symm htu)]
            simp [htu]
      · rw [if_neg hzero] at hready
        refine ⟨added, ?_, hnodup, ?_⟩
        · refine (show _ = _ from ?_).trans hready
          unfold arrive
          dsimp only
          rw [if_neg hzero]
        · intro t
          rw [hadded]
          by_cases htu : t = u
          · subst htu
            rw [update_self, count_cons_self]
            constructor
            · rintro ⟨-, h⟩
              exact ⟨mem_cons_self, by omega⟩
            · rintro ⟨-, h⟩
              refine ⟨?_, by omega⟩
              exact count_pos_iff.mp (by omega)
          · rw [update_of_ne htu, count_cons_of_ne (Ne.symm htu), mem_cons]
            simp [htu]

/-- The edges to a node from nodes that are not processed yet. -/
def waiting (edges : List (α × α)) (done : List α) (t : α) : ℕ :=
  edges.countP fun e => decide (e.2 = t ∧ e.1 ∉ done)

/-- The edges to a node that one more processed node takes away. -/
theorem waiting_process (edges : List (α × α)) {done : List α} (hx : x ∉ done) (t : α) :
    waiting edges (done ++ [x]) t +
      (edges.filterMap fun e => if e.1 = x then some e.2 else none).count t =
        waiting edges done t := by
  unfold waiting
  induction edges with
  | nil => rfl
  | cons e edges ih =>
    rw [countP_cons, countP_cons, filterMap_cons]
    by_cases hsource : e.1 = x
    · rw [if_pos hsource]
      by_cases htarget : e.2 = t
      · have hnew : e.1 ∉ done := hsource ▸ hx
        simp [hsource, htarget, hx] at ih ⊢
        omega
      · simp [hsource, htarget] at ih ⊢
        exact ih
    · rw [if_neg hsource]
      by_cases htarget : e.2 = t <;> by_cases hdone : e.1 ∈ done <;>
        simp [hsource, htarget, hdone] at ih ⊢ <;> omega

/-- The state of the loop after some nodes are processed. -/
structure Processed (nodes : List α) (edges : List (α × α)) (indegree : α → ℕ)
    (ready done : List α) : Prop where
  nodup : (done ++ ready).Nodup
  subset : ∀ x ∈ done ++ ready, x ∈ nodes
  degree : ∀ t ∈ nodes, indegree t = waiting edges done t
  settled : ∀ x ∈ done, waiting edges done x = 0
  ready_iff : ∀ x ∈ nodes, x ∉ done → (x ∈ ready ↔ waiting edges done x = 0)

variable {edges : List (α × α)}

/-- The state of the loop before the first node. -/
theorem processed_start {indegree : α → ℕ} {ready : List α} (hnodes : nodes.Nodup)
    (hdegree : ∀ t ∈ nodes, indegree t = waiting edges [] t)
    (hready : ready.Perm (nodes.filter fun x => decide (indegree x = 0))) :
    Processed nodes edges indegree ready [] := by
  refine ⟨hready.nodup_iff.mpr (hnodes.filter _), ?_, hdegree, by simp, ?_⟩
  · intro x hx
    exact (mem_filter.mp (hready.mem_iff.mp hx)).1
  · intro x hx _
    rw [hready.mem_iff, mem_filter, decide_eq_true_eq, hdegree x hx]
    exact ⟨fun h => h.2, fun h => ⟨hx, h⟩⟩

/-- Processing a ready node keeps the state of the loop. -/
theorem processed_step {indegree : α → ℕ} {ready done : List α} {targets : List α}
    (hedges : ∀ e ∈ edges, e.1 ∈ nodes ∧ e.2 ∈ nodes)
    (htargets : targets.Perm (edges.filterMap fun e => if e.1 = x then some e.2 else none))
    (h : Processed nodes edges indegree (x :: ready) done) :
    Processed nodes edges (targets.foldl arrive (indegree, ready)).1
      (targets.foldl arrive (indegree, ready)).2 (done ++ [x]) := by
  have hsplit := nodup_append.mp h.nodup
  have hx : x ∉ done := fun hmem => hsplit.2.2 x hmem x mem_cons_self rfl
  have hcount : ∀ t, targets.count t =
      (edges.filterMap fun e => if e.1 = x then some e.2 else none).count t :=
    fun t => htargets.count_eq t
  have hnodes : ∀ t ∈ targets, t ∈ nodes := by
    intro t ht
    obtain ⟨e, he, heq⟩ := mem_filterMap.mp (htargets.mem_iff.mp ht)
    by_cases hsource : e.1 = x
    · rw [if_pos hsource] at heq
      exact Option.some.inj heq ▸ (hedges e he).2
    · rw [if_neg hsource] at heq
      cases heq
  have hle : ∀ t, targets.count t ≤ indegree t := by
    intro t
    by_cases ht : t ∈ targets
    · have := waiting_process edges hx t
      rw [h.degree t (hnodes t ht), hcount t]
      omega
    · rw [count_eq_zero.mpr ht]
      exact Nat.zero_le _
  obtain ⟨hdegree, added, hready, haddedNodup, hadded⟩ := foldl_arrive targets indegree ready hle
  rw [hready]
  -- a node that loses its last edge was neither processed nor ready
  have hfresh : ∀ t ∈ added, t ∉ done ++ x :: ready := by
    intro t ht hmem
    obtain ⟨hin, heq⟩ := (hadded t).mp ht
    have hpos : 0 < waiting edges done t := by
      rw [← h.degree t (hnodes t hin), heq]
      exact count_pos_iff.mpr hin
    rcases mem_append.mp hmem with hdone | hqueue
    · rw [h.settled t hdone] at hpos
      exact absurd hpos (lt_irrefl 0)
    · have hnotdone : t ∉ done := fun hdone => hsplit.2.2 t hdone t hqueue rfl
      rw [(h.ready_iff t (hnodes t hin) hnotdone).mp hqueue] at hpos
      exact absurd hpos (lt_irrefl 0)
  refine ⟨?_, ?_, ?_, ?_, ?_⟩
  · have hperm : (done ++ [x] ++ (ready ++ added)).Perm ((done ++ x :: ready) ++ added) := by
      rw [append_assoc, append_assoc]
      exact List.Perm.refl _
    refine hperm.nodup_iff.mpr (nodup_append.mpr ⟨h.nodup, haddedNodup, ?_⟩)
    rintro a ha b hb rfl
    exact hfresh a hb ha
  · intro y hy
    rcases mem_append.mp hy with hy | hy
    · rcases mem_append.mp hy with hy | hy
      · exact h.subset y (mem_append_left _ hy)
      · obtain rfl := mem_singleton.mp hy
        exact h.subset y (mem_append_right _ mem_cons_self)
    · rcases mem_append.mp hy with hy | hy
      · exact h.subset y (mem_append_right _ (mem_cons_of_mem _ hy))
      · exact hnodes y ((hadded y).mp hy).1
  · intro t ht
    have := waiting_process edges hx t
    rw [hdegree t, h.degree t ht, hcount t]
    omega
  · intro y hy
    have hle' := waiting_process edges hx y
    rcases mem_append.mp hy with hy | hy
    · have := h.settled y hy
      omega
    · obtain rfl := mem_singleton.mp hy
      have hin := h.subset y (mem_append_right _ mem_cons_self)
      have := (h.ready_iff y hin hx).mp mem_cons_self
      omega
  · intro y hy hnot
    have hle' := waiting_process edges hx y
    have hydone : y ∉ done := fun hmem => hnot (mem_append_left _ hmem)
    have hyx : y ≠ x := fun heq =>
      hnot (heq ▸ mem_append_right _ (mem_singleton_self _))
    have hold := h.ready_iff y hy hydone
    rw [mem_cons] at hold
    rw [mem_append, hadded, h.degree y hy]
    constructor
    · rintro (hready' | ⟨-, heq⟩)
      · have := hold.mp (Or.inr hready')
        omega
      · rw [hcount y] at heq
        omega
    · intro hzero
      by_cases hcount0 : targets.count y = 0
      · -- it was ready before
        left
        have hwait : waiting edges done y = 0 := by
          rw [hcount y] at hcount0
          omega
        rcases hold.mpr hwait with heq | hmem
        · exact absurd heq hyx
        · exact hmem
      · right
        refine ⟨count_pos_iff.mp (Nat.pos_of_ne_zero hcount0), ?_⟩
        rw [hcount y]
        omega

/-- On a graph whose edges all go up in some rank, every node is processed. -/
theorem process_eq_length {outgoing : α → List α} (hnodes : nodes.Nodup)
    (hedges : ∀ e ∈ edges, e.1 ∈ nodes ∧ e.2 ∈ nodes) (houtgoing : ∀ x, (outgoing x).Perm
      (edges.filterMap fun e => if e.1 = x then some e.2 else none)) (rank : α → ℕ)
    (hrank : ∀ e ∈ edges, rank e.1 < rank e.2) : ∀ (n : ℕ) (indegree : α → ℕ)
      (ready done : List α), Processed nodes edges indegree ready done →
      nodes.length ≤ n + done.length →
      process outgoing n indegree ready done.length = nodes.length := by
  intro n
  induction n with
  | zero =>
    intro indegree ready done h hbound
    have hle : done.length ≤ nodes.length := by
      apply List.Subperm.length_le
      apply subperm_of_subset (nodup_append.mp h.nodup).1
      exact fun x hx => h.subset x (mem_append_left _ hx)
    show done.length = nodes.length
    omega
  | succ n ih =>
    intro indegree ready done h hbound
    cases ready with
    | nil =>
      -- a node of least rank that is not processed would be ready
      have hall : ∀ x ∈ nodes, x ∈ done := by
        by_contra hmiss
        rw [not_forall] at hmiss
        have hex : ∃ k, ∃ x ∈ nodes, x ∉ done ∧ rank x = k := by
          obtain ⟨x, hx⟩ := hmiss
          rw [Classical.not_imp] at hx
          exact ⟨rank x, x, hx.1, hx.2, rfl⟩
        obtain ⟨x, hx, hnot, hr⟩ := Nat.find_spec hex
        have hwait : waiting edges done x ≠ 0 := fun hzero =>
          absurd ((h.ready_iff x hx hnot).mpr hzero) not_mem_nil
        obtain ⟨e, he, hcond⟩ := countP_pos_iff.mp (Nat.pos_of_ne_zero hwait)
        have hcond := of_decide_eq_true hcond
        have hlt : rank e.1 < Nat.find hex := by
          rw [← hr, ← hcond.1]
          exact hrank e he
        exact Nat.find_min hex hlt ⟨e.1, (hedges e he).1, hcond.2, rfl⟩
      show done.length = nodes.length
      apply Nat.le_antisymm
      · apply List.Subperm.length_le
        apply subperm_of_subset (nodup_append.mp h.nodup).1
        exact fun x hx => h.subset x (mem_append_left _ hx)
      · exact (subperm_of_subset hnodes hall).length_le
    | cons x ready =>
      have hnext := processed_step hedges (houtgoing x) h
      have hlength : (done ++ [x]).length = done.length + 1 := by
        rw [length_append]
        rfl
      show process outgoing n _ _ (done.length + 1) = nodes.length
      rw [← hlength]
      exact ih _ _ _ hnext (by rw [hlength]; omega)

end GraphSearch
