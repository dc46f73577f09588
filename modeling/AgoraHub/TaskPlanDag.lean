/-
# Dependency depths

The analysis of the dependencies of a plan: every dependency is a task, there is no
cycle, every task is reached from a task without dependencies, and no chain of
dependencies is longer than a limit.  A plan is accepted exactly when its dependencies
are known and acyclic and within the limit, and the result is the length of the longest
chain below each task.
-/
import AgoraHub.ChainDepth
import AgoraHub.GraphSearch
import AgoraHub.TaskPlanCanonical

namespace TaskPlan

open Fallible List PyDict PyText
open PyText (sorted)

/-- The dependencies of the tasks of a plan. -/
abbrev Dependencies := PyDict String (List String)

namespace Dependencies

section

variable (dependencies : Dependencies)

/-- `dependencies[task_id]` of a task that is known. -/
def of (taskId : String) : List String :=
  (dependencies.get? taskId).getD []

/-- The tasks that name a task among their dependencies, in the order of the plan. -/
def dependents (taskId : String) : List String :=
  dependencies.flatMap fun p => (p.2.filter fun d => decide (d = taskId)).map fun _ => p.1

/-- The check that a task names known tasks only. -/
def checkKnown (taskId : String) : Except HarnessValidationError Unit :=
  raiseFirst (fun unknown => ⟨"TaskPlan references an unknown dependency",
      "task_plan_unknown_dependency", [("task_id", .str taskId), ("dependency", .str unknown)]⟩)
    (sortedSet ((dependencies.of taskId).filter fun d => decide (d ∉ dependencies.keys)))

end

/-- The error of a task that depends on itself. -/
def cycle (taskId : String) : HarnessValidationError :=
  ⟨"TaskPlan dependency graph contains a cycle", "task_plan_dependency_cycle",
    [("task_id", .str taskId)]⟩

/-- `visit`, with the tasks that are being visited and the depths that are known.  The visited tasks
are distinct, so that one turn more than there are tasks is never taken. -/
def visit (dependencies : Dependencies) : ℕ → List String → PyDict String ℕ → String →
    Except HarnessValidationError (ℕ × PyDict String ℕ)
  | 0, _, _, taskId => .error (cycle taskId)
  | turns + 1, visiting, memo, taskId =>
    match memo.get? taskId with
    | some depth => .ok (depth, memo)
    | none =>
      if taskId ∈ visiting then .error (cycle taskId)
      else do
        let (depths, memo) ← (dependencies.of taskId).foldlM
          (fun (state : List ℕ × PyDict String ℕ) dependency => do
            let (depth, memo) ← visit dependencies turns (taskId :: visiting) state.2 dependency
            return (state.1 ++ [depth], memo)) ([], memo)
        let depth := match depths with
          | [] => 0
          | first :: rest => rest.foldl max first + 1
        return (depth, memo.set taskId depth)

section

variable (dependencies : Dependencies)

/-- The tasks without dependencies. -/
def roots : List String :=
  sorted (dependencies.keys.filter fun taskId => decide (dependencies.of taskId = []))

/-- The tasks that are reached from the tasks without dependencies. -/
def reachable : List String :=
  let next taskId := sorted (dependencies.dependents taskId)
  GraphSearch.explore (fun _ => true) next
    (GraphSearch.turns next dependencies.keys dependencies.roots) dependencies.roots []

/-- The check that every task is reached. -/
def checkReachable : Except HarnessValidationError Unit :=
  raiseFirst (fun unreachable => ⟨"TaskPlan contains a task unreachable from any root",
      "task_plan_unreachable_task", [("task_id", .str unreachable)]⟩)
    (sorted (dependencies.keys.filter fun taskId =>
      decide (taskId ∉ dependencies.reachable)))

end

/-- The check that no depth is greater than the limit. -/
def checkDepths (memo : PyDict String ℕ) : Option ℕ → Except HarnessValidationError Unit
  | none => .ok ()
  | some limit =>
    raiseFirst (fun taskId => ⟨"TaskPlan dependency depth exceeds policy",
        "task_plan_depth_exceeded", [("task_id", .str taskId),
          ("depth", .int ((memo.get? taskId).getD 0)), ("max_depth", .int limit)]⟩)
      (sorted ((memo.filter fun p => decide (limit < p.2)).map Prod.fst))

/-- `dict(sorted(memo.items()))`. -/
def inOrder (memo : PyDict String ℕ) : PyDict String ℕ :=
  PyDict.ofItems id (fun taskId => (memo.get? taskId).getD 0) (sorted memo.keys)

def taskDependencyDepths (dependencies : Dependencies) (maxDepth : Option ℕ) :
    Except HarnessValidationError (PyDict String ℕ) := do
  dependencies.forM fun p => do
    identifier p.1 "task_id"
    p.2.forM (identifier · "dependency")
  (sorted dependencies.keys).forM dependencies.checkKnown
  let memo ← (sorted dependencies.keys).foldlM
    (fun memo taskId => do
      let (_, memo) ← dependencies.visit (dependencies.length + 1) [] memo taskId
      return memo) []
  require (dependencies = [] ∨ dependencies.roots ≠ [])
    ⟨"TaskPlan has no executable root task", "task_plan_no_executable_root", []⟩
  dependencies.checkReachable
  checkDepths memo maxDepth
  return inOrder memo

/-! ## Depths that are known -/

open ChainDepth

/-- What is known is the depth of a task, and no task is known twice. -/
structure Known (dependencies : Dependencies) (memo : PyDict String ℕ) : Prop where
  nodup : memo.keys.Nodup
  isTask : ∀ taskId ∈ memo.keys, taskId ∈ dependencies.keys
  isDepth : ∀ {taskId n}, memo.get? taskId = some n → IsDepth dependencies.of taskId n

variable {dependencies : Dependencies}

theorem Known.nil : Known dependencies [] :=
  ⟨nodup_nil, nofun, fun h => by cases h⟩

variable {memo : PyDict String ℕ}

variable {taskId : String}

/-- A depth that is found is known from then on. -/
theorem Known.set {n : ℕ} (h : Known dependencies memo) (htask : taskId ∈ dependencies.keys)
    (hn : IsDepth dependencies.of taskId n) : Known dependencies (memo.set taskId n) := by
  refine ⟨nodup_keys_set h.nodup _ _, ?_, ?_⟩
  · intro id hid
    obtain ⟨m, hm⟩ := (mem_keys_iff _ _).mp hid
    rw [get?_set] at hm
    split at hm
    · next heq => exact heq ▸ htask
    · exact h.isTask id ((mem_keys_iff _ _).mpr ⟨m, hm⟩)
  · intro id m hm
    rw [get?_set] at hm
    split at hm
    · next heq => exact heq ▸ Option.some.inj hm ▸ hn
    · exact h.isDepth hm

theorem mem_keys_of_mem_of {d : String} (h : d ∈ dependencies.of taskId) :
    taskId ∈ dependencies.keys := by
  unfold of at h
  cases hget : dependencies.get? taskId with
  | none => rw [hget] at h; cases h
  | some ds => exact (mem_keys_iff _ _).mpr ⟨ds, hget⟩

/-- The visit of a task that returns makes its depth known, and forgets none. -/
theorem of_visit (hknown : ∀ taskId, ∀ d ∈ dependencies.of taskId, d ∈ dependencies.keys) :
    ∀ {turns : ℕ} {visiting : List String} {memo memo' : PyDict String ℕ} {taskId : String} {n : ℕ},
      Known dependencies memo → taskId ∈ dependencies.keys →
      dependencies.visit turns visiting memo taskId = .ok (n, memo') →
      Known dependencies memo' ∧ memo'.get? taskId = some n ∧ memo.keys ⊆ memo'.keys := by
  intro turns
  induction turns with
  | zero => intro _ _ _ _ _ _ _ h; cases h
  | succ turns ih =>
    intro visiting memo memo' taskId n hmemo htask h
    unfold visit at h
    cases hget : memo.get? taskId with
    | some depth =>
      rw [hget] at h
      cases h
      exact ⟨hmemo, hget, fun _ h => h⟩
    | none =>
      rw [hget] at h
      by_cases hvisiting : taskId ∈ visiting
      · rw [if_pos hvisiting] at h
        cases h
      rw [if_neg hvisiting] at h
      obtain ⟨⟨depths, found⟩, hfold, h⟩ := bind_inv h
      -- the depths of the dependencies that the loop has visited, in order
      obtain ⟨hfound, hdepths, hsub⟩ := of_foldlM_done (P := fun done state =>
        Known dependencies state.2 ∧ List.Forall₂ (IsDepth dependencies.of) done state.1 ∧
          memo.keys ⊆ state.2.keys) ⟨hmemo, List.Forall₂.nil, fun _ h => h⟩
        (by
          rintro done d hd ⟨depths, found⟩ state ⟨hfound, hdepths, hsub⟩ hstep
          obtain ⟨⟨m, found'⟩, hvisit, hstep⟩ := bind_inv hstep
          cases hstep
          obtain ⟨hfound', hm, hsub'⟩ := ih hfound (hknown _ d hd) hvisit
          refine ⟨hfound', ?_, List.Subset.trans hsub hsub'⟩
          exact rel_append hdepths (List.Forall₂.cons (hfound'.isDepth hm) List.Forall₂.nil)) hfold
      cases pure_eq_ok_iff.mp h
      refine ⟨hfound.set htask ?_, get?_set_self _ _ _, fun id hid => ?_⟩
      · cases depths with
        | nil => exact isDepth_zero.mpr (forall₂_nil_right_iff.mp hdepths)
        | cons first rest => exact isDepth_succ hdepths rfl
      · rw [keys_set]
        split
        · exact hsub hid
        · exact mem_append_left _ (hsub hid)

/-- Without a cycle the visit of a task returns: the tasks that are being visited are distinct and
depend on it. -/
theorem exists_visit (hknown : ∀ taskId, ∀ d ∈ dependencies.of taskId, d ∈ dependencies.keys)
    (hacyclic : Acyclic dependencies.of) :
    ∀ {turns : ℕ} {visiting : List String} {memo : PyDict String ℕ} {taskId : String},
      Known dependencies memo → taskId ∈ dependencies.keys → visiting.Nodup →
      (∀ v ∈ visiting, v ∈ dependencies.keys ∧
        Relation.TransGen (fun x y => y ∈ dependencies.of x) v taskId) →
      dependencies.length < visiting.length + turns →
      ∃ n memo', dependencies.visit turns visiting memo taskId = .ok (n, memo') := by
  intro turns
  induction turns with
  | zero =>
    intro visiting _ _ _ _ hnodup hvisiting hturns
    have hlength := (hnodup.subperm fun v hv => (hvisiting v hv).1).length_le
    rw [PyDict.keys, length_map] at hlength
    omega
  | succ turns ih =>
    intro visiting memo taskId hmemo htask hnodup hvisiting hturns
    unfold visit
    cases hget : memo.get? taskId with
    | some depth => exact ⟨depth, memo, rfl⟩
    | none =>
      have hnew : taskId ∉ visiting := fun h => hacyclic taskId (hvisiting taskId h).2
      rcases foldlM_eq_ok_of_steps (P := fun _ state => Known dependencies state.2)
        (f := fun (state : List ℕ × PyDict String ℕ) dependency => do
          let (depth, memo) ← dependencies.visit turns (taskId :: visiting) state.2 dependency
          return (state.1 ++ [depth], memo)) (dependencies.of taskId) ([], memo) hmemo
        (by
          intro done d state hd hstate
          rcases ih hstate (hknown _ d hd) (nodup_cons.mpr ⟨hnew, hnodup⟩)
            (by
              intro v hv
              rcases mem_cons.mp hv with rfl | hv
              · exact ⟨htask, Relation.TransGen.single hd⟩
              · exact ⟨(hvisiting v hv).1, (hvisiting v hv).2.tail hd⟩)
            (by rw [length_cons]; omega) with ⟨n, memo', hvisit⟩
          refine ⟨_, by rw [hvisit]; rfl, ?_⟩
          exact (of_visit hknown hstate (hknown _ d hd) hvisit).1) with ⟨⟨depths, found⟩, hfold, -⟩
      rw [if_neg hnew, hfold]
      exact ⟨_, _, rfl⟩

/-! ## Acceptance -/

section

variable (dependencies : Dependencies)

/-- Every task and every dependency is a task identifier. -/
def Identified : Prop :=
  ∀ p ∈ dependencies, identifier p.1 "task_id" = .ok () ∧
    ∀ d ∈ p.2, identifier d "dependency" = .ok ()

/-- Every dependency is a task. -/
def AllKnown : Prop :=
  ∀ taskId, ∀ d ∈ dependencies.of taskId, d ∈ dependencies.keys

/-- No chain of dependencies is longer than the limit. -/
def Within (maxDepth : Option ℕ) : Prop :=
  ∀ limit, maxDepth = some limit → ∀ taskId ∈ dependencies.keys, ∀ n,
    Chain dependencies.of taskId n → n ≤ limit

end

/-- The same tasks have the same dependencies, in any order and any number of times. -/
def SameTasks (dependencies other : Dependencies) : Prop :=
  (∀ taskId, taskId ∈ dependencies.keys ↔ taskId ∈ other.keys) ∧
    ∀ taskId d, d ∈ dependencies.of taskId ↔ d ∈ other.of taskId

theorem checkKnown_eq_ok {u : Unit} : dependencies.checkKnown taskId = .ok u ↔
      ∀ d ∈ dependencies.of taskId, d ∈ dependencies.keys := by
  rw [checkKnown, raiseFirst_eq_ok, sortedSet_eq_nil_iff, filter_eq_nil_iff]
  simp

theorem checkReachable_eq_ok {u : Unit} : dependencies.checkReachable = .ok u ↔
    ∀ taskId ∈ dependencies.keys, taskId ∈ dependencies.reachable := by
  rw [checkReachable, raiseFirst_eq_ok, sorted_eq_nil_iff, filter_eq_nil_iff]
  simp

variable {maxDepth : Option ℕ}

theorem checkDepths_eq_ok {u : Unit} :
    checkDepths memo maxDepth = .ok u ↔ ∀ limit, maxDepth = some limit → ∀ p ∈ memo, p.2 ≤ limit := by
  cases maxDepth with
  | none => simp [checkDepths]
  | some limit =>
    rw [checkDepths, raiseFirst_eq_ok, sorted_eq_nil_iff, map_eq_nil_iff, filter_eq_nil_iff]
    simp

/-- The loop over the tasks makes the depth of each of them known. -/
theorem of_foldlM_visit (hknown : AllKnown dependencies) {turns : ℕ}
    (h : (sorted dependencies.keys).foldlM (fun memo taskId => do
      let (_, memo) ← dependencies.visit turns [] memo taskId
      return memo) [] = .ok memo) : Known dependencies memo ∧ dependencies.keys ⊆ memo.keys := by
  have hdone := of_foldlM_keeps (P := fun rest memo =>
    rest ⊆ dependencies.keys ∧ Known dependencies memo ∧
      ∀ taskId ∈ dependencies.keys, taskId ∈ rest ∨ taskId ∈ memo.keys)
    (by
      rintro taskId rest memo memo₁ ⟨htasks, hmemo, hall⟩ hstep
      obtain ⟨⟨n, memo'⟩, hvisit, hstep⟩ := bind_inv hstep
      cases hstep
      obtain ⟨hmemo', hn, hsub⟩ := of_visit hknown hmemo (htasks mem_cons_self) hvisit
      refine ⟨fun id hid => htasks (mem_cons_of_mem _ hid), hmemo', fun id hid => ?_⟩
      rcases hall id hid with h | h
      · rcases mem_cons.mp h with rfl | h
        · exact Or.inr ((mem_keys_iff _ _).mpr ⟨n, hn⟩)
        · exact Or.inl h
      · exact Or.inr (hsub h))
    ⟨fun _ h => mem_sorted.mp h, Known.nil, fun _ h => Or.inl (mem_sorted.mpr h)⟩ h
  exact ⟨hdone.2.1, fun id hid => (hdone.2.2 id hid).resolve_left not_mem_nil⟩

theorem exists_foldlM_visit (hknown : AllKnown dependencies) (hacyclic : Acyclic dependencies.of) :
    ∃ memo, (sorted dependencies.keys).foldlM (fun memo taskId => do
      let (_, memo) ← dependencies.visit (dependencies.length + 1) [] memo taskId
      return memo) [] = .ok memo := by
  rcases foldlM_eq_ok_of_steps (P := fun _ memo => Known dependencies memo)
    (f := fun memo taskId => do
      let (_, memo) ← dependencies.visit (dependencies.length + 1) [] memo taskId
      return memo) (sorted dependencies.keys) [] Known.nil
    (by
      intro _ taskId memo htask hmemo
      have htask := mem_sorted.mp htask
      rcases exists_visit hknown hacyclic hmemo htask nodup_nil
        (fun v hv => absurd hv not_mem_nil) (Nat.lt_of_lt_of_le (Nat.lt_succ_self _)
          (Nat.le_add_left _ _)) with ⟨n, memo', hvisit⟩
      exact ⟨memo', by rw [hvisit]; rfl, (of_visit hknown hmemo htask hvisit).1⟩) with
    ⟨memo, hmemo, -⟩
  exact ⟨memo, hmemo⟩

/-- A task whose depth is known is reached from a task without dependencies. -/
theorem exists_reaches (hkeys : dependencies.keys.Nodup) (hknown : AllKnown dependencies)
    (htask : taskId ∈ dependencies.keys) {n : ℕ} (hn : IsDepth dependencies.of taskId n) :
    ∃ root ∈ dependencies.roots, taskId ∈ dependencies.reachable := by
  obtain ⟨root, hroot, hpath⟩ := hn.exists_root
  let next taskId := sorted (dependencies.dependents taskId)
  have hnext : ∀ {x y}, y ∈ dependencies.of x → x ∈ next y := by
    intro x y hy
    have hx := mem_keys_of_mem_of hy
    obtain ⟨ds, hds⟩ := (mem_keys_iff _ _).mp hx
    rw [of, hds] at hy
    refine mem_sorted.mpr (mem_flatMap.mpr ⟨(x, ds), mem_of_get? hds, ?_⟩)
    exact mem_map.mpr ⟨y, mem_filter.mpr ⟨hy, decide_eq_true rfl⟩, rfl⟩
  have hback : root ∈ dependencies.keys ∧
      GraphSearch.Reaches (fun _ => true) next root taskId := by
    clear hn
    induction hpath using Relation.ReflTransGen.head_induction_on with
    | refl => exact ⟨htask, GraphSearch.Reaches.refl root⟩
    | head hd _ ih =>
      obtain ⟨hmem, hreach⟩ := ih (hknown _ _ hd)
      exact ⟨hmem, GraphSearch.Reaches.step hreach (hnext hd) rfl⟩
  have hmem : root ∈ dependencies.roots :=
    mem_sorted.mpr (mem_filter.mpr ⟨hback.1, decide_eq_true hroot⟩)
  refine ⟨root, hmem, GraphSearch.mem_explore_of_reaches hkeys ?_ ?_ hmem hback.2⟩
  · intro x _ y hy _
    obtain ⟨p, hp, hy⟩ := mem_flatMap.mp (mem_sorted.mp hy)
    rcases mem_map.mp hy with ⟨_, -, rfl⟩
    exact mem_map_of_mem hp
  · exact fun x hx => (mem_filter.mp (mem_sorted.mp hx)).1

theorem get?_inOrder (h : memo.keys.Nodup) (taskId : String) (n : ℕ) :
    (inOrder memo).get? taskId = some n ↔ memo.get? taskId = some n := by
  have hnodup : ((sorted memo.keys).map id).Nodup := by
    rw [map_id]
    exact (perm_insertionSort _ _).nodup_iff.mpr h
  rw [inOrder, get?_ofItems hnodup]
  constructor
  · rintro ⟨id, hid, rfl, hn⟩
    rcases (mem_keys_iff _ _).mp (mem_sorted.mp hid) with ⟨m, hm⟩
    rw [hm] at hn
    exact hm.trans (congrArg some hn)
  · intro hn
    refine ⟨taskId, mem_sorted.mpr ((mem_keys_iff _ _).mpr ⟨n, hn⟩), rfl, ?_⟩
    rw [hn, Option.getD_some]

/-- The depths of all tasks, in order, are the same however they were found. -/
theorem inOrder_eq {memo memo' : PyDict String ℕ} (h : Known dependencies memo)
    (h' : Known dependencies memo') (hall : dependencies.keys ⊆ memo.keys)
    (hall' : dependencies.keys ⊆ memo'.keys) : inOrder memo = inOrder memo' := by
  have hget : ∀ taskId, memo'.get? taskId = memo.get? taskId := by
    intro taskId
    by_cases htask : taskId ∈ dependencies.keys
    · rcases (mem_keys_iff _ _).mp (hall htask) with ⟨n, hn⟩
      rcases (mem_keys_iff _ _).mp (hall' htask) with ⟨m, hm⟩
      rw [hn, hm, (h.isDepth hn).unique (h'.isDepth hm)]
    · rw [(get?_eq_none_iff _ _).mpr fun hmem => htask (h'.isTask _ hmem),
        (get?_eq_none_iff _ _).mpr fun hmem => htask (h.isTask _ hmem)]
  have hkeys := sorted_eq ((perm_of_get?_eq h.nodup h'.nodup hget).map Prod.fst)
  unfold inOrder
  rw [show sorted memo.keys = sorted memo'.keys from hkeys.symm, funext hget]

/-- The analysis returns exactly for known, acyclic dependencies within the limit, and then
returns the depths of all tasks. -/
theorem taskDependencyDepths_eq_ok_iff (hkeys : dependencies.keys.Nodup)
    (hids : Identified dependencies) {depths : PyDict String ℕ} :
    taskDependencyDepths dependencies maxDepth = .ok depths ↔
      AllKnown dependencies ∧ Acyclic dependencies.of ∧ Within dependencies maxDepth ∧
        ∃ memo, Known dependencies memo ∧ dependencies.keys ⊆ memo.keys ∧ depths = inOrder memo := by
  have hidentified : dependencies.forM (fun p => do
      identifier p.1 "task_id"
      p.2.forM (identifier · "dependency")) = .ok () := by
    apply forM_ok
    intro p hp
    rw [check_bind_eq_ok]
    exact ⟨(hids p hp).1, forM_ok (hids p hp).2⟩
  have hcheck : (sorted dependencies.keys).forM dependencies.checkKnown = .ok () ↔
      AllKnown dependencies := by
    constructor
    · intro h taskId d hd
      have htask := mem_sorted.mpr (mem_keys_of_mem_of hd)
      exact checkKnown_eq_ok.mp (of_forM h taskId htask) d hd
    · exact fun h => forM_ok fun taskId _ => checkKnown_eq_ok.mpr (h taskId)
  unfold taskDependencyDepths
  rw [hidentified, ok_bind, check_bind_eq_ok, hcheck]
  constructor
  · rintro ⟨hknown, h⟩
    obtain ⟨memo, hfold, h⟩ := bind_inv h
    rcases of_foldlM_visit hknown hfold with ⟨hmemo, hall⟩
    have hdepth : ∀ taskId ∈ dependencies.keys, ∃ n, memo.get? taskId = some n :=
      fun taskId htask => (mem_keys_iff _ _).mp (hall htask)
    simp only [check_bind_eq_ok] at h
    obtain ⟨-, -, hlimit, h⟩ := h
    cases h
    refine ⟨hknown, acyclic_of_isDepth fun taskId d hd => ?_, ?_, memo, hmemo, hall, rfl⟩
    · rcases hdepth taskId (mem_keys_of_mem_of hd) with ⟨n, hn⟩
      exact ⟨n, hmemo.isDepth hn⟩
    · rintro limit rfl taskId htask m hm
      rcases hdepth taskId htask with ⟨n, hn⟩
      exact ((hmemo.isDepth hn).2 m hm).trans
        (checkDepths_eq_ok.mp hlimit limit rfl _ (mem_of_get? hn))
  · rintro ⟨hknown, hacyclic, hwithin, memo, hmemo, hall, rfl⟩
    refine ⟨hknown, ?_⟩
    rcases exists_foldlM_visit hknown hacyclic with ⟨memo', hfold⟩
    rcases of_foldlM_visit hknown hfold with ⟨hmemo', hall'⟩
    have hreached : ∀ taskId ∈ dependencies.keys,
        ∃ root ∈ dependencies.roots, taskId ∈ dependencies.reachable := by
      intro taskId htask
      rcases (mem_keys_iff _ _).mp (hall htask) with ⟨n, hn⟩
      exact exists_reaches hkeys hknown htask (hmemo.isDepth hn)
    have hroots : dependencies = [] ∨ dependencies.roots ≠ [] := by
      cases hdict : dependencies with
      | nil => exact Or.inl rfl
      | cons p rest =>
        rw [← hdict]
        rcases hreached p.1 (by rw [hdict]; exact mem_cons_self) with ⟨root, hroot, -⟩
        exact Or.inr (ne_nil_of_mem hroot)
    have hreachable := (checkReachable_eq_ok (u := ())).mpr fun taskId htask =>
      (hreached taskId htask).elim fun _ h => h.2
    have hdepths : checkDepths memo' maxDepth = .ok () := by
      apply checkDepths_eq_ok.mpr
      intro limit hlimit p hp
      exact hwithin limit hlimit p.1 (hmemo'.isTask _ (mem_map_of_mem hp)) p.2
        (hmemo'.isDepth (get?_of_mem hmemo'.nodup hp)).1
    rw [hfold, ok_bind, check_of_pos hroots, hreachable, ok_bind, hdepths, ok_bind,
      inOrder_eq hmemo hmemo' hall hall']
    rfl

variable {other : Dependencies}

theorem SameTasks.symm (h : SameTasks dependencies other) : SameTasks other dependencies :=
  ⟨fun taskId => (h.1 taskId).symm, fun taskId d => (h.2 taskId d).symm⟩

theorem SameTasks.isDepth (h : SameTasks dependencies other) {n : ℕ}
    (hn : IsDepth dependencies.of taskId n) : IsDepth other.of taskId n :=
  ⟨hn.1.congr fun x y => (h.2 x y).mp, fun m hm => hn.2 m (hm.congr fun x y => (h.2 x y).mpr)⟩

theorem SameTasks.identified (h : SameTasks dependencies other) (hother : other.keys.Nodup)
    (hids : Identified dependencies) : Identified other := by
  rintro ⟨taskId, ds⟩ hp
  have hds : other.of taskId = ds := by rw [of, get?_of_mem hother hp, Option.getD_some]
  rcases (mem_keys_iff _ _).mp ((h.1 taskId).mpr (mem_map_of_mem hp)) with ⟨es, hes⟩
  rcases hids _ (mem_of_get? hes) with ⟨hid, hdependencies⟩
  refine ⟨hid, fun d hd => hdependencies d ?_⟩
  have hmem := (h.2 taskId d).mpr (hds.symm ▸ hd)
  rwa [of, hes, Option.getD_some] at hmem

theorem SameTasks.eq_ok_of_eq_ok (h : SameTasks dependencies other)
    (hkeys : dependencies.keys.Nodup) (hother : other.keys.Nodup) (hids : Identified dependencies)
    {depths : PyDict String ℕ} (hok : taskDependencyDepths dependencies maxDepth = .ok depths) :
    taskDependencyDepths other maxDepth = .ok depths := by
  rcases (taskDependencyDepths_eq_ok_iff hkeys hids).mp hok with
    ⟨hknown, hacyclic, hwithin, memo, hmemo, hall, hdepths⟩
  apply (taskDependencyDepths_eq_ok_iff hother (h.identified hother hids)).mpr
  refine ⟨?_, ?_, ?_, memo, ⟨hmemo.nodup, ?_, fun hn => h.isDepth (hmemo.isDepth hn)⟩, ?_, hdepths⟩
  · exact fun taskId d hd => (h.1 d).mp (hknown taskId d ((h.2 taskId d).mpr hd))
  · exact fun taskId hcycle => hacyclic taskId
      (Relation.TransGen.mono (fun x y => (h.2 x y).mpr) _ _ hcycle)
  · intro limit hlimit taskId htask n hn
    exact hwithin limit hlimit taskId ((h.1 taskId).mpr htask) n (hn.congr fun x y => (h.2 x y).mpr)
  · exact fun taskId hmem => (h.1 taskId).mp (hmemo.isTask taskId hmem)
  · exact fun taskId hmem => hall ((h.1 taskId).mpr hmem)

/-- The analysis accepts exactly the known, acyclic dependencies within the limit, gives every task
the length of the longest chain below it, and depends on what the dependencies of each task are
only. -/
theorem taskDependencyDepths_spec (hkeys : dependencies.keys.Nodup)
    (hids : Identified dependencies) (maxDepth : Option ℕ) :
    ((∃ depths, taskDependencyDepths dependencies maxDepth = .ok depths) ↔
        AllKnown dependencies ∧ Acyclic dependencies.of ∧ Within dependencies maxDepth) ∧
      (∀ depths, taskDependencyDepths dependencies maxDepth = .ok depths → ∀ taskId n,
        depths.get? taskId = some n ↔
          taskId ∈ dependencies.keys ∧ IsDepth dependencies.of taskId n) ∧
      ∀ other : Dependencies, other.keys.Nodup → SameTasks dependencies other → ∀ depths,
        taskDependencyDepths dependencies maxDepth = .ok depths ↔
          taskDependencyDepths other maxDepth = .ok depths := by
  refine ⟨⟨?_, ?_⟩, ?_, ?_⟩
  · rintro ⟨depths, hok⟩
    rcases (taskDependencyDepths_eq_ok_iff hkeys hids).mp hok with ⟨hknown, hacyclic, hwithin, -⟩
    exact ⟨hknown, hacyclic, hwithin⟩
  · rintro ⟨hknown, hacyclic, hwithin⟩
    rcases exists_foldlM_visit hknown hacyclic with ⟨memo, hfold⟩
    rcases of_foldlM_visit hknown hfold with ⟨hmemo, hall⟩
    exact ⟨inOrder memo, (taskDependencyDepths_eq_ok_iff hkeys hids).mpr
      ⟨hknown, hacyclic, hwithin, memo, hmemo, hall, rfl⟩⟩
  · intro depths hok taskId n
    rcases (taskDependencyDepths_eq_ok_iff hkeys hids).mp hok with
      ⟨-, -, -, memo, hmemo, hall, rfl⟩
    rw [get?_inOrder hmemo.nodup]
    constructor
    · exact fun hn => ⟨hmemo.isTask _ ((mem_keys_iff _ _).mpr ⟨n, hn⟩), hmemo.isDepth hn⟩
    · rintro ⟨htask, hn⟩
      rcases (mem_keys_iff _ _).mp (hall htask) with ⟨m, hm⟩
      rw [hm, (hmemo.isDepth hm).unique hn]
  · intro other hother hsame depths
    constructor
    · exact hsame.eq_ok_of_eq_ok hkeys hother hids
    · exact hsame.symm.eq_ok_of_eq_ok hother hkeys (hsame.identified hother hids)

/-- Two ways to a root, the longer one through a dependency that is named twice. -/
def diamond : Dependencies :=
  [("report", ["draft", "fetch"]), ("draft", ["fetch", "fetch"]), ("fetch", [])]

theorem taskDependencyDepths_spec_diamond :
    AllKnown diamond ∧ Acyclic diamond.of ∧ IsDepth diamond.of "report" 2 := by
  have hids : Identified diamond := by
    have hok : ∀ p ∈ diamond, (identifier p.1 "task_id").isOk = true ∧
        ∀ d ∈ p.2, (identifier d "dependency").isOk = true := by decide +kernel
    exact fun p hp => ⟨eq_ok_of_isOk (hok p hp).1, fun d hd => eq_ok_of_isOk ((hok p hp).2 d hd)⟩
  rcases @taskDependencyDepths_spec diamond (by decide) hids (some 2) with
    ⟨haccepts, hdepths, -⟩
  rcases exists_eq_ok_of_isOk (x := taskDependencyDepths diamond (some 2)) (by decide +kernel) with
    ⟨depths, hok⟩
  have hreport : (taskDependencyDepths diamond (some 2)).toOption.bind (·.get? "report") =
      some 2 := by decide +kernel
  rw [hok] at hreport
  rcases haccepts.mp ⟨depths, hok⟩ with ⟨hknown, hacyclic, -⟩
  exact ⟨hknown, hacyclic, ((hdepths depths hok "report" 2).mp hreport).2⟩

end Dependencies

end TaskPlan
