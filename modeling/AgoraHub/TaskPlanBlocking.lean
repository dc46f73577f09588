/-
# What blocking does

A task is blocked after all blocks are made exactly if it was blocked before, or if it was
waiting and hangs, through waiting tasks, on one that failed for good or was blocked.
-/
import AgoraHub.TaskPlanReplanSpec

namespace TaskPlan

open Fallible List TaskLifecycle TaskPlanProjection

variable {sha256 : String → HexDigest} {contracts : PlanContracts} {plan : ValidatedTaskPlan}

/-! ## States of tasks -/

/-- A task is in a state. -/
def TaskPlanProjection.InState (p : TaskPlanProjection) (status : TaskLifecycle)
    (taskId : String) : Prop :=
  ∃ t, p.state? taskId = some t ∧ t.status = status

/-- A task is in a state that nothing but a patch changes, and that fails its dependents. -/
def FailedForGood (contracts : PlanContracts) (plan : ValidatedTaskPlan) (p : TaskPlanProjection)
    (taskId : String) : Prop :=
  ∃ t, p.state? taskId = some t ∧ terminalTaskFailure contracts plan t = .ok true ∧
    t.status ≠ .blockedDependency

/-- A task that was not admitted waits. -/
def Waits (p : TaskPlanProjection) (taskId : String) : Prop :=
  ∃ t, p.state? taskId = some t ∧ t.isUnadmittedForDependencyBlock = true

/-- A task blocks those that depend on it. -/
def BlocksOthers (contracts : PlanContracts) (plan : ValidatedTaskPlan) (p : TaskPlanProjection)
    (taskId : String) : Prop :=
  FailedForGood contracts plan p taskId ∨ p.InState .blockedDependency taskId

/-- A task hangs, through tasks that wait, on one that blocks others. -/
abbrev HangsOnCause (contracts : PlanContracts) (plan : ValidatedTaskPlan) (p : TaskPlanProjection) :
    String → Prop :=
  GraphSearch.Hangs plan.dependenciesOf (BlocksOthers contracts plan p) (Waits p)

variable {t : TaskProjection}

/-- A terminal failure of a state that is checked. -/
theorem terminalTaskFailure_of_status {b : Bool} (h : terminalTaskFailure contracts plan t = .ok b)
    (hstatus : t.status ≠ .failed) : b = decide (t.status ∈ dependencyFailure) := by
  unfold terminalTaskFailure at h
  obtain ⟨definition, -, h⟩ := bind_inv h
  by_cases hin : t.status ∈ dependencyFailure
  · rw [if_neg (not_not_intro hin), if_pos hstatus] at h
    rw [← pure_eq_ok_iff.mp h, decide_eq_true hin]
  · rw [if_pos hin] at h
    rw [← pure_eq_ok_iff.mp h, decide_eq_false hin]

theorem mem_of_terminalTaskFailure (h : terminalTaskFailure contracts plan t = .ok true) :
    t.status ∈ dependencyFailure := by
  by_cases hfailed : t.status = .failed
  · rw [hfailed]
    decide
  · exact of_decide_eq_true (terminalTaskFailure_of_status h hfailed).symm

theorem of_isCausalRoot (h : isCausalRoot contracts plan t = .ok true) :
    terminalTaskFailure contracts plan t = .ok true ∨ t.status = .blockedDependency := by
  unfold isCausalRoot at h
  obtain ⟨terminal, hterminal, h⟩ := bind_inv h
  have hor := pure_eq_ok_iff.mp h
  rw [Bool.or_eq_true] at hor
  rcases hor with rfl | hrecorded
  · exact Or.inl hterminal
  · exact Or.inr (of_decide_eq_true hrecorded).1

/-- What failed for good or is blocked is a cause of blocks, if it can be judged. -/
theorem isCausalRoot_of_blocksOthers {b : Bool} (h : isCausalRoot contracts plan t = .ok b)
    (hcause : terminalTaskFailure contracts plan t = .ok true ∨ t.status = .blockedDependency) :
    b = true := by
  unfold isCausalRoot at h
  obtain ⟨terminal, hterminal, h⟩ := bind_inv h
  have htrue : terminal = true := by
    rcases hcause with hcause | hblocked
    · rw [hterminal] at hcause
      exact ok_inj hcause
    · have hstatus : t.status ≠ .failed := by
        rw [hblocked]
        decide
      rw [terminalTaskFailure_of_status hterminal hstatus, hblocked]
      decide
  rw [← pure_eq_ok_iff.mp h, htrue, Bool.true_or]

variable {taskId : String}

/-- The state of a task is a cause of blocks exactly if the task blocks others. -/
theorem blocksOthers_of_isCausalRoot {p : TaskPlanProjection} (hstate : p.state? taskId = some t)
    (h : isCausalRoot contracts plan t = .ok true) : BlocksOthers contracts plan p taskId := by
  by_cases hblocked : t.status = .blockedDependency
  · exact Or.inr ⟨t, hstate, hblocked⟩
  · exact Or.inl ⟨t, hstate, (of_isCausalRoot h).resolve_right hblocked, hblocked⟩

/-! ## One block -/

/-- A later projection differs in tasks that waited and are blocked. -/
structure Later (p p' : TaskPlanProjection) : Prop where
  unique : (p.tasks.map TaskProjection.taskId).Nodup → (p'.tasks.map TaskProjection.taskId).Nodup
  states : ∀ taskId, p'.state? taskId = p.state? taskId ∨
    ∃ t, p.state? taskId = some t ∧ t.isUnadmittedForDependencyBlock = true ∧
      p'.state? taskId = some t.blocked

theorem Later.refl (p : TaskPlanProjection) : Later p p := ⟨fun h => h, fun _ => Or.inl rfl⟩

theorem status_of_isUnadmitted (h : t.isUnadmittedForDependencyBlock = true) :
    t.status = .pending ∨ t.status = .ready := by
  have hstatus := (of_decide_eq_true h).1
  simpa using hstatus

theorem Later.trans {p p' p'' : TaskPlanProjection} (h : Later p p') (h' : Later p' p'') :
    Later p p'' := by
  refine ⟨fun hunique => h'.unique (h.unique hunique), fun taskId => ?_⟩
  rcases h.states taskId with hsame | ⟨t, ht, hwaits, hblocked⟩
  · rw [← hsame]
    exact h'.states taskId
  · rcases h'.states taskId with hsame | ⟨t', ht', hwaits', -⟩
    · exact Or.inr ⟨t, ht, hwaits, hsame.trans hblocked⟩
    · -- a blocked task does not wait
      rw [hblocked] at ht'
      cases ht'
      rcases status_of_isUnadmitted hwaits' with hstatus | hstatus <;> cases hstatus

variable {p p' : TaskPlanProjection}

theorem Later.state?_eq (h : Later p p') (hstate : p.state? taskId = some t)
    (hnot : t.status ≠ .pending ∧ t.status ≠ .ready) : p'.state? taskId = some t := by
  rcases h.states taskId with hsame | ⟨u, hu, hwaits, -⟩
  · exact hsame.trans hstate
  · rw [hstate] at hu
    cases hu
    rcases status_of_isUnadmitted hwaits with hstatus | hstatus
    · exact absurd hstatus hnot.1
    · exact absurd hstatus hnot.2

/-- A later projection has the same failures for good. -/
theorem Later.failedForGood_iff (h : Later p p') (taskId : String) :
    FailedForGood contracts plan p' taskId ↔ FailedForGood contracts plan p taskId := by
  constructor
  · rintro ⟨t, ht, hterminal, hnot⟩
    rcases h.states taskId with hsame | ⟨u, -, -, hu⟩
    · exact ⟨t, hsame ▸ ht, hterminal, hnot⟩
    · rw [hu] at ht
      cases ht
      exact absurd rfl hnot
  · rintro ⟨t, ht, hterminal, hnot⟩
    have hin := mem_of_terminalTaskFailure hterminal
    refine ⟨t, h.state?_eq ht ?_, hterminal, hnot⟩
    constructor <;>
      · intro hstatus
        rw [hstatus] at hin
        exact absurd hin (by decide)

/-- The causal predecessors of a task are dependencies of it that are causes of blocks. -/
theorem of_mem_causalPredecessors : ∀ {dependencies predecessors : List String},
      causalPredecessors contracts plan p dependencies = .ok predecessors →
      ∀ d ∈ predecessors, d ∈ dependencies ∧
        ∃ t, (statesOf p).get? d = some t ∧ isCausalRoot contracts plan t = .ok true := by
  intro dependencies
  induction dependencies with
  | nil =>
    intro predecessors h d hd
    cases h
    cases hd
  | cons dependencyId dependencies ih =>
    intro predecessors h d hd
    unfold causalPredecessors at h
    simp only [bind_eq_ok] at h
    obtain ⟨t, ht, root, hroot, rest, hrest, h⟩ := h
    cases h
    have htail : ∀ d ∈ rest, d ∈ dependencyId :: dependencies ∧
        ∃ t, (statesOf p).get? d = some t ∧ isCausalRoot contracts plan t = .ok true :=
      fun d hd => ⟨mem_cons_of_mem _ (ih hrest d hd).1, (ih hrest d hd).2⟩
    cases root with
    | true =>
      rcases mem_cons.mp hd with rfl | hd
      · exact ⟨mem_cons_self, t, orRaise_eq_ok.mp ht, hroot⟩
      · exact htail d hd
    | false => exact htail d hd

/-- The tasks that are blocked after one step: the one that is named, for a cause. -/
structure Blocks (contracts : PlanContracts) (plan : ValidatedTaskPlan) (taskId : String)
    (p p' : TaskPlanProjection) : Prop where
  later : Later p p'
  blocked : p'.InState .blockedDependency taskId
  cause : ∀ k, p'.InState .blockedDependency k → p.InState .blockedDependency k ∨
    ∃ d ∈ plan.dependenciesOf k, BlocksOthers contracts plan p d

/-- `block_dependency_task` blocks the task that it is given. -/
theorem blocks_of_blockDependencyTask (hunique : (p.tasks.map TaskProjection.taskId).Nodup)
    (h : blockDependencyTask contracts plan p sha256 taskId = .ok p') :
    Blocks contracts plan taskId p p' := by
  unfold blockDependencyTask at h
  simp only [bind_eq_ok] at h
  obtain ⟨_, -, definition, hdefinition, t, ht, h⟩ := h
  have hstate : p.state? taskId = some t :=
    (get?_statesOf hunique taskId).symm.trans (orRaise_eq_ok.mp ht)
  split at h
  · rename_i hrecorded
    cases h
    exact ⟨Later.refl p, ⟨t, hstate, (of_decide_eq_true hrecorded).1⟩, fun k hk => Or.inl hk⟩
  · obtain ⟨hwaits, h⟩ := check_inv h
    obtain ⟨predecessors, hpredecessors, h⟩ := bind_inv h
    obtain ⟨hsome, h⟩ := check_inv h
    obtain ⟨blocked, hblocked, hconstruct⟩ := bind_inv h
    replace hwaits := of_require hwaits
    have hvalue : blocked = t.blocked := by
      unfold TaskProjection.transitionedBlocked at hblocked
      replace hblocked := (check_inv (check_inv hblocked).2).2
      exact (pure_eq_ok_iff.mp hblocked).symm
    subst hvalue
    have hid : t.taskId = taskId := (of_state? hstate).2
    -- only the state of this task changes
    have hkey : ∀ u : TaskProjection,
        (if u.taskId = taskId then t.blocked else u).taskId = u.taskId := by
      intro u
      split
      · rename_i hu
        exact hid.trans hu.symm
      · rfl
    have hstates : ∀ k, p'.state? k = if k = taskId then some t.blocked else p.state? k := by
      intro k
      have hfind : p'.state? k =
          (p.state? k).map fun u => if u.taskId = taskId then t.blocked else u := by
        rw [state?_of_construct hconstruct, state?_eq,
          state?_eq]
        exact KeyedList.find?_map hkey p.tasks k
      rw [hfind]
      by_cases hk : k = taskId
      · rw [if_pos hk, hk, hstate, Option.map_some, if_pos hid]
      · rw [if_neg hk]
        cases hother : p.state? k with
        | none => rfl
        | some u =>
          have hu := (of_state? hother).2
          rw [Option.map_some, if_neg (fun heq => hk (hu.symm.trans heq))]
    refine ⟨⟨fun _ => nodup_of_construct hconstruct, fun k => ?_⟩, ?_, ?_⟩
    · rw [hstates k]
      by_cases hk : k = taskId
      · rw [if_pos hk, hk]
        exact Or.inr ⟨t, hstate, hwaits, rfl⟩
      · rw [if_neg hk]
        exact Or.inl rfl
    · exact ⟨t.blocked, by rw [hstates taskId, if_pos rfl], rfl⟩
    · rintro k ⟨u, hu, hstatus⟩
      rw [hstates k] at hu
      by_cases hk : k = taskId
      · -- the task was blocked for one of its predecessors
        subst hk
        unfold dependencyBlockingPredecessorIds at hpredecessors
        obtain ⟨_, -, hpredecessors⟩ := bind_inv hpredecessors
        rw [orRaise_eq_ok.mp hdefinition] at hpredecessors
        rcases exists_mem_of_ne_nil _ (of_require hsome) with ⟨d, hd⟩
        rcases of_mem_causalPredecessors hpredecessors d hd with ⟨hmem, s, hs, hroot⟩
        rw [get?_statesOf hunique] at hs
        refine Or.inr ⟨d, ?_, blocksOthers_of_isCausalRoot hs hroot⟩
        have hfound : plan.definition? k = some definition := orRaise_eq_ok.mp hdefinition
        unfold ValidatedTaskPlan.dependenciesOf
        rw [hfound]
        exact hmem
      · rw [if_neg hk] at hu
        exact Or.inl ⟨u, hu, hstatus⟩

/-! ## All blocks -/

theorem Later.blocked (h : Later p p') (hblocked : p.InState .blockedDependency taskId) :
    p'.InState .blockedDependency taskId := by
  rcases hblocked with ⟨t, hstate, hstatus⟩
  refine ⟨t, h.state?_eq hstate ?_, hstatus⟩
  rw [hstatus]
  decide

/-- What blocks others later blocked them before, or waited. -/
theorem Later.blocksOthers_or_waits (h : Later p p')
    (hcause : BlocksOthers contracts plan p' taskId) : BlocksOthers contracts plan p taskId ∨
      (Waits p taskId ∧ p'.InState .blockedDependency taskId) := by
  rcases h.states taskId with hsame | ⟨t, ht, hwaits, hblocked⟩
  · refine Or.inl (hcause.imp ?_ ?_)
    · rintro ⟨u, hu, hrest⟩
      exact ⟨u, hsame ▸ hu, hrest⟩
    · rintro ⟨u, hu, hrest⟩
      exact ⟨u, hsame ▸ hu, hrest⟩
  · exact Or.inr ⟨⟨t, ht, hwaits⟩, t.blocked, hblocked, rfl⟩

/-- The tasks that are blocked one after the other are blocked at the end, and hang on a cause. -/
theorem of_foldlM_blocks {targets : List String}
    (hunique : (p.tasks.map TaskProjection.taskId).Nodup)
    (h : targets.foldlM (fun p taskId => blockDependencyTask contracts plan p sha256 taskId) p =
      .ok p') : Later p p' ∧ (∀ taskId ∈ targets, p'.InState .blockedDependency taskId) ∧
      ∀ taskId, p'.InState .blockedDependency taskId →
        p.InState .blockedDependency taskId ∨ HangsOnCause contracts plan p taskId := by
  -- at each turn: the targets behind are blocked, and whatever is blocked hangs on a cause
  have hkeeps := of_foldlM_keeps (P := fun rest q => Later p q ∧
      (∀ taskId ∈ targets, taskId ∈ rest ∨ q.InState .blockedDependency taskId) ∧
      ∀ taskId, q.InState .blockedDependency taskId →
        p.InState .blockedDependency taskId ∨ HangsOnCause contracts plan p taskId) ?_
    ⟨Later.refl p, fun _ hmem => Or.inl hmem, fun _ hblocked => Or.inl hblocked⟩ h
  · rcases hkeeps with ⟨hlater, htargets, hcause⟩
    exact ⟨hlater, fun taskId hmem => (htargets taskId hmem).resolve_left not_mem_nil, hcause⟩
  · rintro taskId rest q q' ⟨hlater, htargets, hcause⟩ hstep
    have hblocks := blocks_of_blockDependencyTask (hlater.unique hunique) hstep
    refine ⟨hlater.trans hblocks.later, fun k hk => ?_, fun k hk => ?_⟩
    · rcases htargets k hk with hmem | hblocked
      · rcases mem_cons.mp hmem with rfl | hmem
        · exact Or.inr hblocks.blocked
        · exact Or.inl hmem
      · exact Or.inr (hblocks.later.blocked hblocked)
    · rcases hblocks.cause k hk with hblocked | ⟨d, hd, hothers⟩
      · exact hcause k hblocked
      · -- the cause was one from the beginning, or was blocked in between
        rcases hlater.blocksOthers_or_waits hothers with hfirst | ⟨hwaits, hblocked⟩
        · exact Or.inr (.direct hd hfirst)
        · rcases hcause d hblocked with hfirst | hhangs
          · exact Or.inr (.direct hd (Or.inr hfirst))
          · exact Or.inr (.through hd hwaits hhangs)

/-- A task is among the dependents of what it depends on. -/
theorem mem_reverseDependencies {d : String} (h : d ∈ plan.dependenciesOf taskId) :
    taskId ∈ reverseDependencies plan d := by
  apply PyText.mem_sorted.mpr
  unfold ValidatedTaskPlan.dependenciesOf at h
  cases hdefinition : plan.definition? taskId with
  | none =>
    rw [hdefinition] at h
    cases h
  | some r =>
    rw [hdefinition] at h
    have hmem : (taskId, r) ∈ definitionsOf plan := PyDict.mem_of_get? hdefinition
    apply mem_flatMap.mpr
    refine ⟨(taskId, r.dependsOn), mem_map.mpr ⟨(taskId, r), hmem, rfl⟩, ?_⟩
    exact mem_map.mpr ⟨d, mem_filter.mpr ⟨h, decide_eq_true rfl⟩, rfl⟩

theorem mem_keys_of_mem_reverseDependencies {d : String} (h : taskId ∈ reverseDependencies plan d) :
    taskId ∈ (definitionsOf plan).keys := by
  rcases mem_flatMap.mp (PyText.mem_sorted.mp h) with ⟨q, hq, hmem⟩
  rcases mem_map.mp hmem with ⟨_, -, rfl⟩
  rcases mem_map.mp hq with ⟨r, hr, rfl⟩
  exact mem_map.mpr ⟨r, hr, rfl⟩

/-- Every state is judged, and the causes are found. -/
theorem mem_causalRoots : ∀ {states roots : List TaskProjection},
    causalRoots contracts plan states = .ok roots →
      ∀ t ∈ states, ∃ b, isCausalRoot contracts plan t = .ok b ∧ (b = true → t ∈ roots) := by
  intro states
  induction states with
  | nil =>
    intro roots _ t ht
    cases ht
  | cons u states ih =>
    intro roots h t ht
    unfold causalRoots at h
    obtain ⟨root, hroot, h⟩ := bind_inv h
    obtain ⟨rest, hrest, h⟩ := bind_inv h
    cases h
    rcases mem_cons.mp ht with rfl | ht
    · refine ⟨root, hroot, ?_⟩
      rintro rfl
      exact mem_cons_self
    · rcases ih hrest t ht with ⟨b, hb, hmem⟩
      refine ⟨b, hb, fun htrue => ?_⟩
      cases root with
      | true => exact mem_cons_of_mem _ (hmem htrue)
      | false => exact hmem htrue

/-- A waiting task that hangs on a cause is found. -/
theorem mem_dependencyBlockedTaskIds {targets : List String}
    (hunique : (p.tasks.map TaskProjection.taskId).Nodup)
    (h : dependencyBlockedTaskIds contracts plan p = .ok targets) (hwaits : Waits p taskId)
    (hhangs : HangsOnCause contracts plan p taskId) : taskId ∈ targets := by
  unfold dependencyBlockedTaskIds at h
  obtain ⟨depths, -, h⟩ := bind_inv h
  obtain ⟨roots, hroots, h⟩ := bind_inv h
  cases h
  rcases hwaits with ⟨t, hstate, hunadmitted⟩
  have hget := get?_statesOf hunique taskId
  refine mem_filter.mpr ⟨?_, ?_⟩
  · rw [mem_insertionSort]
    rcases hhangs.exists_path with ⟨d, hcause, hpath⟩
    have hroot : d ∈ roots.map TaskProjection.taskId := by
      have hjudge : ∀ u, p.state? d = some u →
          terminalTaskFailure contracts plan u = .ok true ∨ u.status = .blockedDependency →
          d ∈ roots.map TaskProjection.taskId := by
        intro u hu hwhy
        have hvalue := PyDict.mem_values_of_get? ((get?_statesOf hunique d).trans hu)
        rcases mem_causalRoots hroots u hvalue with ⟨b, hb, hmem⟩
        have htrue := isCausalRoot_of_blocksOthers hb hwhy
        exact mem_map.mpr ⟨u, hmem htrue, (of_state? hu).2⟩
      rcases hcause with ⟨u, hu, hterminal, -⟩ | ⟨u, hu, hblocked⟩
      · exact hjudge u hu (Or.inl hterminal)
      · exact hjudge u hu (Or.inr hblocked)
    refine GraphSearch.mem_descendants (keyedDefinitions_ofItems plan.tasks).1
      (fun x y hy => mem_keys_of_mem_reverseDependencies hy) (PyText.mem_sorted.mpr hroot) ?_
    exact Relation.TransGen.mono (fun a b hab => mem_reverseDependencies hab) _ _ hpath
  · rw [hget, hstate]
    exact hunadmitted

/-- What is blocked later was blocked before, or waited. -/
theorem Later.blocked_or_waits (h : Later p p') (hblocked : p'.InState .blockedDependency taskId) :
    p.InState .blockedDependency taskId ∨ Waits p taskId := by
  obtain ⟨t, hstate, hstatus⟩ := hblocked
  rcases h.states taskId with hsame | ⟨u, hu, hwaits, -⟩
  · exact .inl ⟨t, hsame ▸ hstate, hstatus⟩
  · exact .inr ⟨u, hu, hwaits⟩

/-- The tasks that are blocked after blocks that reach all that hang on a cause. -/
theorem inState_of_foldlM_blocks {targets : List String}
    (hunique : (p.tasks.map TaskProjection.taskId).Nodup)
    (h : targets.foldlM (fun p taskId => blockDependencyTask contracts plan p sha256 taskId) p =
      .ok p') (hcovers : ∀ taskId, Waits p taskId → HangsOnCause contracts plan p taskId →
        p'.InState .blockedDependency taskId) :
    Later p p' ∧ ∀ taskId, p'.InState .blockedDependency taskId ↔
      p.InState .blockedDependency taskId ∨
        (Waits p taskId ∧ HangsOnCause contracts plan p taskId) := by
  rcases of_foldlM_blocks hunique h with ⟨hlater, -, hcause⟩
  refine ⟨hlater, fun taskId => ⟨fun hafter => ?_, ?_⟩⟩
  · rcases hcause taskId hafter with hbefore | hhangs
    · exact .inl hbefore
    · exact (hlater.blocked_or_waits hafter).imp_right fun hwaits => ⟨hwaits, hhangs⟩
  · rintro (hbefore | ⟨hwaits, hhangs⟩)
    · exact hlater.blocked hbefore
    · exact hcovers taskId hwaits hhangs

/-- The tasks that are blocked after all blocks are made. -/
theorem inState_of_blockDependencies (hunique : (p.tasks.map TaskProjection.taskId).Nodup)
    (h : blockDependencies sha256 contracts plan p = .ok p') :
    Later p p' ∧ ∀ taskId, p'.InState .blockedDependency taskId ↔
      p.InState .blockedDependency taskId ∨
        (Waits p taskId ∧ HangsOnCause contracts plan p taskId) := by
  unfold blockDependencies at h
  obtain ⟨targets, htargets, hfold⟩ := bind_inv h
  exact inState_of_foldlM_blocks hunique hfold fun taskId hwaits hhangs =>
    (of_foldlM_blocks hunique hfold).2.1 taskId
      (mem_dependencyBlockedTaskIds hunique htargets hwaits hhangs)

/-! ## One block at a time -/

theorem Later.waits_or_blocked (h : Later p p') (hwaits : Waits p taskId) :
    Waits p' taskId ∨ p'.InState .blockedDependency taskId := by
  obtain ⟨t, hstate, hunadmitted⟩ := hwaits
  rcases h.states taskId with hsame | ⟨u, -, -, hblocked⟩
  · exact .inl ⟨t, hsame.trans hstate, hunadmitted⟩
  · exact .inr ⟨u.blocked, hblocked, rfl⟩

/-- What hangs on a cause still does when some of the tasks in between are blocked. -/
theorem Later.hangs (h : Later p p') (hhangs : HangsOnCause contracts plan p taskId) :
    HangsOnCause contracts plan p' taskId := by
  induction hhangs with
  | direct hd hcause => exact .direct hd (hcause.imp (h.failedForGood_iff _).mpr h.blocked)
  | through hd hwaits _ ih =>
    rcases h.waits_or_blocked hwaits with hwaits' | hblocked
    · exact .through hd hwaits' ih
    · exact .direct hd (.inr hblocked)

/-- In whatever order tasks are blocked, once none is left to be blocked the same tasks are. -/
theorem blocked_of_none_left {done : List String}
    (hunique : (p.tasks.map TaskProjection.taskId).Nodup)
    (hdone : done.foldlM (fun p taskId => blockDependencyTask contracts plan p sha256 taskId) p =
      .ok p') (hnone : dependencyBlockedTaskIds contracts plan p' = .ok []) :
    Later p p' ∧ ∀ taskId, p'.InState .blockedDependency taskId ↔
      p.InState .blockedDependency taskId ∨
        (Waits p taskId ∧ HangsOnCause contracts plan p taskId) := by
  refine inState_of_foldlM_blocks hunique hdone fun taskId hwaits hhangs => ?_
  obtain ⟨hlater, -, -⟩ := of_foldlM_blocks hunique hdone
  refine (hlater.waits_or_blocked hwaits).resolve_left fun hwaits' => ?_
  -- a task that still waits would be found
  exact not_mem_nil (mem_dependencyBlockedTaskIds (hlater.unique hunique) hnone hwaits'
    (hlater.hangs hhangs))

end TaskPlan
