/-
# Execution of a plan as a whole

A plan is applied exactly when it can be executed: what was used before and what the plan uses
fit together into what is left of the budgets, and every action of it can be applied.
-/
import AgoraHub.ContextExecutionSteps

namespace ContextCompaction

open Fallible ContextCompactionActionExecutor List ContextGroup ContextCompactionPlanner

variable {sha256 : String → HexDigest} {V : Type} [PyDynamic V]
variable {C : Type} [Zero C] [LT C]

namespace ContextCompactionPlanningRequest

section Actions

variable [Sub C] [DecidableLT C]
variable (request : ContextCompactionPlanningRequest sha256 C V) (port : ArtifactPort)

/-! ## One action -/

/-- An action of a plan can be applied. -/
structure ActionExecutable (action : ContextCompactionAction V) : Prop where
  spans : ∀ group ∈ request.classOf .selectEvidenceSpans, action = request.selectionOf group →
    group.Rebuilds sha256
  refs : action.actionType = .replaceWithReference →
    ((request.classOf .replaceWithReference).map fun group =>
      PyText.strip (request.artifactOf port group).text).Nodup

variable {request port} {done rest : List (ContextCompactionAction V)}
variable {action : ContextCompactionAction V}

theorem executable_of_class (htype : action.actionType ≠ .selectEvidenceSpans)
    (hrefs : action.actionType ≠ .replaceWithReference) : request.ActionExecutable port action where
  spans := fun _ _ h => absurd (h ▸ rfl) htype
  refs := fun h => absurd h hrefs

/-- The refs that are recorded for the groups that are dropped. -/
theorem dropped_refs : ((request.classOf .dropReconstructableGroup).filterMap fun group =>
      group.reconstructionRef.map Ref.val) =
        (request.classOf .dropReconstructableGroup).map reconstructionText ∧
    NotBlank ((request.classOf .dropReconstructableGroup).map reconstructionText) ∧
    ((request.classOf .dropReconstructableGroup).map reconstructionText).map
      PyText.strip =
        (request.classOf .dropReconstructableGroup).map reconstructionText := by
  have hsome : ∀ group ∈ request.classOf .dropReconstructableGroup, ∃ ref,
      group.reconstructionRef = some ref := fun group hgroup => Option.isSome_iff_exists.mp
    (Bool.and_eq_true_iff.mp (request.hasReconstruction_of_mem (Or.inl rfl) hgroup)).2
  have htrimmed : ∀ s ∈ (request.classOf .dropReconstructableGroup).map
      reconstructionText, PyText.strip s = s ∧ s ≠ "" := by
    intro s hs
    rcases mem_map.mp hs with ⟨group, hgroup, rfl⟩
    rcases hsome group hgroup with ⟨ref, href⟩
    unfold reconstructionText
    rw [href]
    exact ⟨ref.trimmed, ref.nonempty⟩
  refine ⟨?_, fun s hs => ?_, map_strip_of_trimmed fun s hs => (htrimmed s hs).1⟩
  · rw [← filterMap_eq_map]
    refine filterMap_congr fun group hgroup => ?_
    rcases hsome group hgroup with ⟨ref, href⟩
    simp only [reconstructionText, href, Option.map_some, Function.comp_apply,
      Option.getD_some]
  · rw [(htrimmed s hs).1]
    exact (htrimmed s hs).2

variable [LawfulPyDynamic V]

/-- The step: the next action of a plan is applied exactly when it can be and what it makes has
not the identity of another group; then it leaves the groups that were foreseen. -/
theorem applyAction_eq_ok (hvalid : port.Valid) (hclean : request.Clean)
    (hplan : request.plannedActions = done ++ action :: rest)
    (hsummary : action.actionType ≠ .summarizeGroups)
    (hdistinct : ((request.groupsAfter port done).map (groupId sha256)).Nodup)
    {calls : ℕ} (hcalls : action.actionType = .replaceWithReference → calls = 0) :
    ((∃ applied, applyAction sha256 port request.sourceSnapshot.snapshotId action
        (request.groupsAfter port done) calls = .ok applied) ↔
      request.ActionExecutable port action ∧
        ((request.groupsAfter port (done ++ [action])).map (groupId sha256)).Nodup) ∧
    ∀ applied, applyAction sha256 port request.sourceSnapshot.snapshotId action
      (request.groupsAfter port done) calls = .ok applied →
        applied.groups = request.groupsAfter port (done ++ [action]) ∧
          (action.actionType ≠ .replaceWithReference → applied.calls = calls) := by
  have hmem := mem_allActions hplan
  have hactionClean := request.clean_iff.mpr hclean action
    (hplan ▸ mem_append_right done mem_cons_self)
  unfold ActionClean at hactionClean
  -- the targets are looked up among the groups that are left
  have hlookup : ∀ groups ⊆ request.sourceSnapshot.groups,
      action.targetGroupIds = groups.map (groupId sha256) →
        action.targetGroupIds.mapM (groupById sha256 (request.groupsAfter port done)) =
          .ok groups := by
    intro groups hsub htargets
    rw [htargets]
    refine mapM_presentById hdistinct fun group hgroup => mem_groupsAfter hplan (hsub hgroup) ?_
    rw [htargets]
    exact mem_map_of_mem hgroup
  rcases request.class_or_selection hmem with ⟨htype, hclass⟩ | ⟨group, hgroup, rfl⟩
  · rw [if_neg htype] at hactionClean
    have htargets := hlookup _ (request.classOf_subset action.actionType) (by
      conv_lhs => rw [hclass]
      rfl)
    -- an action that leaves its targets out is always applied
    have hremoves : ∀ {refs : List String} {lossRisk : ContextLossRisk} {reasonCode : String},
        action.actionType ≠ .replaceWithReference → NotBlank refs →
        (refs.map PyText.strip).Nodup →
        ((∃ applied, removeTargets sha256 request.sourceSnapshot.snapshotId action
            (request.groupsAfter port done) refs lossRisk reasonCode calls = .ok applied) ↔
          request.ActionExecutable port action ∧ ((request.groupsAfter port
            (done ++ [action])).map (groupId sha256)).Nodup) ∧
        ∀ applied, removeTargets sha256 request.sourceSnapshot.snapshotId action
          (request.groupsAfter port done) refs lossRisk reasonCode calls = .ok applied →
            applied.groups = request.groupsAfter port (done ++ [action]) ∧
              (action.actionType ≠ .replaceWithReference → applied.calls = calls) := by
      intro refs lossRisk reasonCode hreplace hblank hnodup
      have hfate : ∀ group, request.owner group = some action.actionType →
          request.fate port group = none := by
        intro group howner
        unfold fate
        rw [howner]
        split
        · rename_i h
          exact absurd (Option.some.inj h) hreplace
        · rename_i h
          exact absurd (Option.some.inj h) htype
        · rfl
      rcases removeTargets_eq hplan hdistinct hfate hblank hnodup lossRisk reasonCode calls with
        ⟨hleft, result, hresult⟩
      refine ⟨⟨fun _ => ⟨executable_of_class htype hreplace, hleft⟩, fun _ => ⟨_, hresult⟩⟩, ?_⟩
      intro applied happlied
      rw [hresult] at happlied
      rw [← ok_inj happlied]
      exact ⟨rfl, fun _ => rfl⟩
    have hnone : NotBlank [] := nofun
    unfold applyAction
    rw [htargets, ok_bind]
    generalize hsame : action.actionType = t at *
    cases t with
    | dropReconstructableGroup =>
      rcases @dropped_refs _ _ _ _ _ _ _ _ request with ⟨hrefs, hblank, hstrip⟩
      rw [hrefs]
      exact hremoves (by decide) hblank (hstrip.symm ▸ hactionClean)
    | replaceWithReference =>
      obtain rfl := hcalls rfl
      rcases replaceTargets_eq_ok hvalid hplan hclass hdistinct with ⟨hiff, happlied⟩
      refine ⟨hiff.trans (and_congr_left fun _ => ⟨fun h => ?_, fun h => h.refs hsame⟩),
        fun applied h => ⟨happlied applied h, fun h => absurd rfl h⟩⟩
      exact ⟨fun _ _ h => absurd (h ▸ hsame : ActionType.selectEvidenceSpans = _) (by decide),
        fun _ => h⟩
    | reduceAuthorizedToolSet | compactOldConversation => exact hremoves (by decide) hnone nodup_nil
    | selectEvidenceSpans => exact absurd rfl htype
    | summarizeGroups => exact absurd rfl hsummary
  · rw [if_pos (show (request.selectionOf group).actionType = .selectEvidenceSpans from rfl)]
      at hactionClean
    have hevidence := hactionClean group hgroup rfl
    have htargets := hlookup [group] (fun other h => mem_singleton.mp h ▸
      request.classOf_subset _ hgroup) rfl
    rcases selectSpans_eq_ok hgroup hevidence hplan hdistinct calls with ⟨hiff, happlied⟩
    unfold applyAction
    rw [htargets, ok_bind]
    refine ⟨hiff.trans (and_congr_left fun _ => ⟨fun h => ⟨?_, fun h => nomatch h⟩,
      fun h => h.spans group hgroup rfl⟩), fun applied h => ⟨(happlied applied h).1,
        fun _ => (happlied applied h).2⟩⟩
    intro other hother hsame
    have hid := List.cons.inj (congrArg ContextCompactionAction.targetGroupIds hsame)
    rwa [← request.sourceSnapshot.eq_of_groupId (request.classOf_subset _ hgroup)
      (request.classOf_subset _ hother) hid.1]

/-! ## The actions of a plan -/

variable (request port) in
/-- What execution has reached after some actions. -/
structure Reached (done : List (ContextCompactionAction V)) (s : Execution C V) : Prop where
  groups : s.groups = request.groupsAfter port done
  actions : s.usage.actions = request.budgetUsage.actions + done.length
  turns : s.usage.turns = request.budgetUsage.turns + done.length
  calls : (∀ action ∈ done, action.actionType ≠ .replaceWithReference) → s.calls = 0
  distinct : ((request.groupsAfter port done).map (groupId sha256)).Nodup

omit [LawfulPyDynamic V] in
/-- Only one action replaces groups. -/
theorem not_replaced_before (hplan : request.plannedActions = done ++ action :: rest)
    (htype : action.actionType = .replaceWithReference) :
    ∀ other ∈ done, other.actionType ≠ .replaceWithReference := by
  intro other hother hsame
  have hmem : other ∈ request.allActions :=
    mem_of_mem_take (hplan ▸ mem_append_left _ hother : other ∈ request.plannedActions)
  have hclass : ∀ a ∈ request.allActions, a.actionType = .replaceWithReference →
      a = request.classAction .replaceWithReference := by
    intro a ha hreplaces
    rcases request.class_or_selection ha with ⟨-, h⟩ | ⟨group, -, rfl⟩
    · rwa [hreplaces] at h
    · cases hreplaces
  have heq := (hclass other hmem hsame).trans
    (hclass action (mem_allActions hplan) htype).symm
  -- two places of one action would be about the same groups
  have hdisjoint := request.pairwise_disjoint.sublist
    (take_sublist request.remaining.actions request.allActions)
  rw [show request.allActions.take request.remaining.actions = done ++ action :: rest from hplan,
    pairwise_append] at hdisjoint
  have hapart := hdisjoint.2.2 other hother action mem_cons_self
  rw [heq] at hapart
  have hhas := hclass action (mem_allActions hplan) htype
  rcases mem_actionsOf_of_mem (mem_allActions hplan) with ⟨-, hof⟩
  rw [htype] at hof
  have hnil : request.classOf .replaceWithReference = [] := by
    rw [hhas] at hapart
    exact map_eq_nil_iff.mp (eq_nil_iff_forall_not_mem.mpr fun id h => hapart h h)
  unfold actionsOf at hof
  rw [if_neg (by decide), if_pos hnil] at hof
  cases hof

omit [LawfulPyDynamic V] in
/-- What is reached behind one more action. -/
theorem Reached.step {s : Execution C V} (h : request.Reached port done s) {applied : Applied V}
    (hgroups : applied.groups = request.groupsAfter port (done ++ [action]))
    (hcalls : action.actionType ≠ .replaceWithReference → applied.calls = s.calls)
    (hdistinct : ((request.groupsAfter port (done ++ [action])).map
      (groupId sha256)).Nodup) (results : List (ContextCompactionActionResult V))
    (refs : List String) : request.Reached port (done ++ [action])
      ⟨applied.groups, results, refs, countAction s.usage, applied.calls⟩ where
  groups := hgroups
  actions := by
    rw [length_append, length_singleton, ← Nat.add_assoc, ← h.actions]
    rfl
  turns := by
    rw [length_append, length_singleton, ← Nat.add_assoc, ← h.turns]
    rfl
  calls := fun hnone => by
    have hlast := hnone action (mem_append_right _ (mem_singleton_self _))
    exact (hcalls hlast).trans (h.calls fun other hother =>
      hnone other (mem_append_left _ hother))
  distinct := hdistinct

/-- The run: the rest of a plan is applied exactly when the budgets allow for all of it, each of
its actions can be applied, and no group that is made has the identity of another that is still
there. -/
theorem runActions_eq_applied (hvalid : port.Valid) (hclean : request.Clean)
    (hsummary : ∀ a ∈ request.plannedActions, a.actionType ≠ .summarizeGroups)
    (plan : ContextCompactionPlan C V) : ∀ {rest done : List (ContextCompactionAction V)}
    {s : Execution C V}, request.plannedActions = done ++ rest → request.Reached port done s →
    ((∃ s', runActions sha256 port request.sourceSnapshot.snapshotId plan rest s =
        .ok (.applied, s')) ↔
      (rest ≠ [] → request.budgetUsage.actions + request.plannedActions.length ≤ plan.maxActions ∧
        request.budgetUsage.turns + request.plannedActions.length ≤ plan.maxTurns) ∧
      (∀ a ∈ rest, request.ActionExecutable port a) ∧ ∀ front, front <+: rest →
        ((request.groupsAfter port (done ++ front)).map (groupId sha256)).Nodup) ∧
    ∀ s', runActions sha256 port request.sourceSnapshot.snapshotId plan rest s =
      .ok (.applied, s') → request.Reached port request.plannedActions s' := by
  intro rest
  induction rest with
  | nil =>
    intro done s hplan hreached
    refine ⟨⟨fun _ => ⟨fun h => absurd rfl h, by simp, ?_⟩,
      fun _ => ⟨s, rfl⟩⟩, fun s' h => ?_⟩
    · intro front hfront
      rw [prefix_nil.mp hfront, append_nil]
      exact hreached.distinct
    · obtain ⟨-, rfl⟩ := Prod.mk.inj (ok_inj h)
      rw [hplan, append_nil]
      exact hreached
  | cons action rest ih =>
    intro done s hplan hreached
    have hlength : request.plannedActions.length = done.length + rest.length + 1 := by
      rw [hplan, length_append, length_cons, Nat.add_assoc]
    have htype := hsummary action (hplan ▸ mem_append_right done mem_cons_self)
    have hstep := @applyAction_eq_ok _ _ _ _ _ _ _ _ request port done rest action _ hvalid
      hclean hplan htype hreached.distinct s.calls fun h =>
        hreached.calls (not_replaced_before hplan h)
    have hplan' : request.plannedActions = (done ++ [action]) ++ rest := by
      rw [hplan, append_assoc]
      rfl
    unfold runActions
    by_cases hactions : plan.maxActions ≤ s.usage.actions
    · rw [if_pos hactions]
      rw [hreached.actions] at hactions
      refine ⟨⟨?_, fun h => ?_⟩, fun s' h => by cases h⟩
      · rintro ⟨s', h⟩
        cases h
      · have := (h.1 (cons_ne_nil _ _)).1
        omega
    by_cases hturns : plan.maxTurns ≤ s.usage.turns
    · rw [if_neg hactions, if_pos hturns]
      rw [hreached.turns] at hturns
      refine ⟨⟨?_, fun h => ?_⟩, fun s' h => by cases h⟩
      · rintro ⟨s', h⟩
        cases h
      · have := (h.1 (cons_ne_nil _ _)).2
        omega
    rw [if_neg hactions, if_neg hturns, if_neg htype, hreached.groups]
    rw [hreached.actions] at hactions
    rw [hreached.turns] at hturns
    constructor
    · constructor
      · rintro ⟨s', h⟩
        obtain ⟨applied, happlied, hrest⟩ := bind_inv h
        rcases hstep.2 applied happlied with ⟨hgroups, hcalls⟩
        rcases hstep.1.mp ⟨applied, happlied⟩ with ⟨hexecutable, hdistinct⟩
        have hnext := hreached.step hgroups hcalls hdistinct
          (s.actionResults ++ [applied.result])
          (s.reconstructionRefs ++ applied.result.reconstructionRefs.map Ref.val)
        rcases (ih hplan' hnext).1.mp ⟨s', hrest⟩ with ⟨hbudgets, hothers, hlater⟩
        refine ⟨fun _ => ?_, ?_, ?_⟩
        · by_cases hnil : rest = []
          · rw [hnil, length_nil] at hlength
            omega
          · exact hbudgets hnil
        · rintro a (_ | ⟨_, ha⟩)
          · exact hexecutable
          · exact hothers a ha
        · intro front hfront
          cases front with
          | nil =>
            rw [append_nil]
            exact hreached.distinct
          | cons first front =>
            obtain ⟨rfl, htail⟩ := cons_prefix_cons.mp hfront
            have := hlater front htail
            rwa [append_assoc] at this
      · rintro ⟨hbudgets, hothers, hlater⟩
        have hdistinct := hlater [action] (cons_prefix_cons.mpr ⟨rfl, nil_prefix⟩)
        rcases hstep.1.mpr ⟨hothers action mem_cons_self, hdistinct⟩ with ⟨applied, happlied⟩
        rcases hstep.2 applied happlied with ⟨hgroups, hcalls⟩
        have hnext := hreached.step hgroups hcalls hdistinct
          (s.actionResults ++ [applied.result])
          (s.reconstructionRefs ++ applied.result.reconstructionRefs.map Ref.val)
        rcases (ih hplan' hnext).1.mpr ⟨fun _ => hbudgets (cons_ne_nil _ _),
          fun a ha => hothers a (mem_cons_of_mem _ ha), fun front hfront => by
            rw [append_assoc]
            exact hlater (action :: front) (cons_prefix_cons.mpr ⟨rfl, hfront⟩)⟩ with
          ⟨s', hrest⟩
        exact ⟨s', bind_intro happlied hrest⟩
    · intro s' h
      obtain ⟨applied, happlied, hrest⟩ := bind_inv h
      rcases hstep.2 applied happlied with ⟨hgroups, hcalls⟩
      rcases hstep.1.mp ⟨applied, happlied⟩ with ⟨-, hdistinct⟩
      exact (ih hplan' (hreached.step hgroups hcalls hdistinct _ _)).2 s' hrest

end Actions

/-! ## The result -/

section Result

variable (source : ContextSemanticSnapshot sha256 V)

/-- A snapshot is left when groups with distinct identities are. -/
theorem resultSnapshot_eq_ok (groups : List (ContextGroup V)) :
    (∃ snapshot, resultSnapshot source groups = .ok snapshot) ↔
      groups ≠ [] ∧ (groups.map (groupId sha256)).Nodup := by
  rcases requiredText_snapshotId source "parent_snapshot_id" with ⟨parent, hparent⟩
  unfold resultSnapshot
  rw [hparent, ok_bind]
  unfold ContextSemanticSnapshot.construct
  constructor
  · rintro ⟨snapshot, h⟩
    split at h
    · rename_i hcheck
      unfold SnapshotFields.check at hcheck
      simp only [check_bind_eq_ok, require_eq_ok] at hcheck
      exact ⟨hcheck.1, hcheck.2.1⟩
    · cases h
  · rintro ⟨hne, hdistinct⟩
    split
    · exact ⟨_, rfl⟩
    · rename_i e hcheck
      unfold SnapshotFields.check at hcheck
      rw [check_of_pos hne, check_of_pos hdistinct] at hcheck
      cases hcheck

variable {snapshot : ContextSemanticSnapshot sha256 V}

theorem snapshotKind_of_resultSnapshot {groups : List (ContextGroup V)}
    (h : resultSnapshot source groups = .ok snapshot) : snapshot.snapshotKind = .result := by
  obtain ⟨parent, -, h⟩ := bind_inv h
  unfold ContextSemanticSnapshot.construct at h
  split at h
  · rw [← ok_inj h]
  · cases h

/-- A result has the status and the usage that it is made with. -/
theorem of_executionResult {status : ContextCompactionExecutionStatus}
    {snapshot : Option (ContextSemanticSnapshot sha256 V)} {s : Execution C V}
    {refs : List String} {result : ContextCompactionExecutionResult sha256 C V}
    (h : executionResult source status snapshot s refs = .ok result) :
    result.status = status ∧ result.usage = s.usage := by
  unfold executionResult at h
  obtain ⟨-, h⟩ := check_inv h
  rw [← ok_inj h]
  exact ⟨rfl, rfl⟩

/-- What was applied has a result. -/
theorem exists_executionResult (hkind : snapshot.snapshotKind = .result) (s : Execution C V)
    (refs : List String) :
    ∃ result, executionResult source .applied (some snapshot) s refs = .ok result := by
  have hchecksum : source.checksum ≠ "" := by
    intro h
    have hlist := congrArg String.toList h
    unfold ContextSemanticSnapshot.checksum at hlist
    rw [String.toList_append] at hlist
    exact HexDigest.toList_ne_nil _ (append_eq_nil_iff.mp hlist).2
  unfold executionResult
  refine ⟨_, check_intro ?_ rfl⟩
  unfold ContextCompactionExecutionResult.check
  simp only [check_bind_eq_ok, require_eq_ok]
  refine ⟨identity_ne_empty sha256 _ _, hchecksum, ?_, fun _ => rfl, fun _ => rfl,
    fun h => absurd rfl h⟩
  rintro other hother
  rwa [← Option.some.inj hother]

end Result

/-! ## The plan of a request -/

section Whole

variable [Sub C] [DecidableLT C] [DecidableEq C] [LawfulPyDynamic V]
variable {request : ContextCompactionPlanningRequest sha256 C V} {port : ArtifactPort}

omit [DecidableEq C] [LawfulPyDynamic V] in
theorem groupsAfter_nil : request.groupsAfter port [] = request.sourceSnapshot.groups := by
  unfold groupsAfter
  rw [show request.after port [] = some from funext fun group => if_neg Bool.false_ne_true,
    filterMap_some]

omit [DecidableEq C] [LawfulPyDynamic V] in
theorem plannedActions_ne_nil (h : request.GetsPlan) : request.plannedActions ≠ [] := by
  have hroom := h.evaluates.2.2.2.1
  unfold plannedActions
  rw [Ne, take_eq_nil_iff]
  rintro (hnone | hnil)
  · omega
  · exact h.nonempty hnil

/-- The plan of a request is applied exactly when it can be executed. -/
theorem execute_eq_applied (hvalid : port.Valid) (h : request.GetsPlan)
    (hsummary : ∀ a ∈ request.plannedActions, a.actionType ≠ .summarizeGroups) :
    (∃ result, execute .standard port (planOf request
        request.plannedActions) request = .ok result ∧ result.status = .applied) ↔
      request.CanExecute port := by
  have hnil : request.groupsAfter port [] = request.sourceSnapshot.groups := groupsAfter_nil
  have hdistinct : ((request.groupsAfter port []).map (groupId sha256)).Nodup := by
    rw [hnil]
    exact request.sourceSnapshot.nodup_groupIds
  have hstart : request.Reached port [] ⟨request.sourceSnapshot.groups, [], [],
      request.budgetUsage, 0⟩ := ⟨hnil.symm, rfl, rfl, fun _ => rfl, hdistinct⟩
  rcases runActions_eq_applied hvalid h.clean hsummary (planOf request
    request.plannedActions) (nil_append _).symm hstart with ⟨hiff, hreached⟩
  have hvalidates := (request.validate_planOf h.registered h.readable).mpr h.clean
  have hne := plannedActions_ne_nil h
  constructor
  · rintro ⟨result, hexecute, hstatus⟩
    unfold execute at hexecute
    rw [hvalidates, ok_bind] at hexecute
    obtain ⟨⟨status, s'⟩, hrun, hexecute⟩ := bind_inv hexecute
    cases status with
    | applied =>
      obtain ⟨snapshot, hsnapshot, -⟩ := bind_inv hexecute
      rcases hiff.mp ⟨s', hrun⟩ with ⟨hbudgets, hactions, hdistinct⟩
      have hremains := ((resultSnapshot_eq_ok _ _).mp ⟨snapshot, hsnapshot⟩).1
      rw [(hreached s' hrun).groups] at hremains
      exact {
        actions := (hbudgets hne).1
        turns := (hbudgets hne).2
        spans := fun action haction => (hactions action haction).spans
        refs := fun ⟨action, haction, htype⟩ => (hactions action haction).refs htype
        distinct := hdistinct
        remains := hremains }
    | actionBudgetExhausted | summaryRejected | turnBudgetExhausted =>
      rw [(of_executionResult _ hexecute).1] at hstatus
      cases hstatus
  · intro hcan
    rcases hiff.mpr ⟨fun _ => ⟨hcan.actions, hcan.turns⟩, fun action haction =>
      ⟨hcan.spans action haction, fun htype => hcan.refs ⟨action, haction, htype⟩⟩,
      hcan.distinct⟩ with ⟨s', hrun⟩
    have hgroups := (hreached s' hrun).groups
    rcases (resultSnapshot_eq_ok request.sourceSnapshot s'.groups).mpr ⟨by
      rw [hgroups]
      exact hcan.remains, by
      rw [hgroups]
      exact hcan.distinct _ (prefix_refl _)⟩ with ⟨snapshot, hsnapshot⟩
    rcases exists_executionResult request.sourceSnapshot
      (snapshotKind_of_resultSnapshot _ hsnapshot) s' s'.reconstructionRefs with ⟨result, hresult⟩
    refine ⟨result, ?_, (of_executionResult _ hresult).1⟩
    unfold execute
    rw [hvalidates, ok_bind]
    dsimp only
    rw [show runActions sha256 port request.sourceSnapshot.snapshotId _
      (planOf request request.plannedActions).actions _ = _ from hrun,
      ok_bind, hsnapshot, ok_bind, hresult]

end Whole

end ContextCompactionPlanningRequest

end ContextCompaction
