/-
# Planning ends in a plan that is accepted

The planner raises exactly when metadata that it looks at cannot be read, or when the
actions that there is room for have refs that its own validator does not accept.  In every
other case its plan is accepted, and it leaves no eligible group behind that its budget
allows for.
-/
import AgoraHub.ContextPlanValidity
import AgoraHub.Sha256

namespace ContextCompaction

open Fallible ContextCompactionPlanValidator ContextCompactionPlanner ContextCompactionActionRegistry List
  ContextGroup

/-! ## Lists of lists -/

/-- The first items of a list of lists. -/
theorem mem_take_flatMap {α β : Type*} {f : α → List β} {b : β} (l : List α) : ∀ n : ℕ,
    b ∈ (l.flatMap f).take n ↔ ∃ done a rest, l = done ++ a :: rest ∧
      b ∈ (f a).take (n - (done.flatMap f).length) := by
  induction l with
  | nil =>
    intro n
    rw [flatMap_nil, take_nil]
    constructor
    · intro h
      cases h
    · rintro ⟨done, a, rest, h, -⟩
      cases done <;> cases h
  | cons x l ih =>
    intro n
    rw [flatMap_cons, take_append, mem_append, ih]
    constructor
    · rintro (h | ⟨done, a, rest, rfl, h⟩)
      · exact ⟨[], x, l, rfl, h⟩
      · refine ⟨x :: done, a, rest, rfl, ?_⟩
        rwa [flatMap_cons, length_append, ← Nat.sub_sub]
    · rintro ⟨done, a, rest, hsplit, h⟩
      cases done with
      | nil =>
        cases hsplit
        exact Or.inl h
      | cons y done =>
        cases hsplit
        refine Or.inr ⟨done, a, rest, rfl, ?_⟩
        rwa [flatMap_cons, length_append, ← Nat.sub_sub] at h

/-- The items of a list without duplicates are in the order of their places. -/
theorem pairwise_idxOf {α : Type*} [DecidableEq α] {l : List α} (h : l.Nodup) :
    l.Pairwise fun a b => l.idxOf a ≤ l.idxOf b := by
  rw [pairwise_iff_getElem]
  intro i j hi hj hij
  rw [h.idxOf_getElem i hi, h.idxOf_getElem j hj]
  exact hij.le

variable {sha256 : String → HexDigest} {V : Type} [PyDynamic V]
variable {C : Type} [Zero C] [LT C] [Sub C] [DecidableLT C]

namespace ContextCompactionPlanningRequest

variable (request : ContextCompactionPlanningRequest sha256 C V)

/-! ## The actions of a policy -/

/-- Every action on the classes of a policy, in its order. -/
def allActions : List (ContextCompactionAction V) :=
  request.policy.actionOrder.flatMap request.actionsOf

variable {request}

variable {action : ContextCompactionAction V}

theorem mem_actionsOf_of_mem (h : action ∈ request.allActions) :
    action.actionType ∈ request.policy.actionOrder ∧
      action ∈ request.actionsOf action.actionType := by
  obtain ⟨t, ht, haction⟩ := mem_flatMap.mp h
  rw [request.actionType_of_mem haction]
  exact ⟨ht, haction⟩

variable {t : ActionType}

theorem exists_of_mem_targets (h : action ∈ request.actionsOf t) {id : String}
    (hid : id ∈ action.targetGroupIds) : ∃ group ∈ request.classOf t, group.groupId sha256 = id :=
  mem_map.mp (request.targets_actionsOf t ▸ mem_flatMap.mpr ⟨action, h, hid⟩)

variable (request)

theorem pairwise_order : request.allActions.Pairwise fun a b =>
    request.policy.actionOrder.idxOf a.actionType ≤
      request.policy.actionOrder.idxOf b.actionType := by
  refine pairwise_flatMap.mpr ⟨fun t _ => ?_, ?_⟩
  · refine pairwise_of_forall_mem_list fun a ha b hb => ?_
    rw [request.actionType_of_mem ha, request.actionType_of_mem hb]
  · refine (pairwise_idxOf request.policy.order_distinct).imp fun h a ha b hb => ?_
    rwa [request.actionType_of_mem ha, request.actionType_of_mem hb]

/-- No group is the target of two actions. -/
theorem pairwise_disjoint : request.allActions.Pairwise fun a b =>
    List.Disjoint a.targetGroupIds b.targetGroupIds := by
  refine pairwise_flatMap.mpr ⟨fun t _ => ?_, ?_⟩
  · unfold actionsOf
    split
    · have hdistinct := request.sourceSnapshot.nodup_groupIds.sublist (request.sublist_classOf t)
      refine pairwise_map.mpr ((pairwise_map.mp hdistinct).imp fun hne id ha hb => ?_)
      exact hne ((mem_singleton.mp ha).symm.trans (mem_singleton.mp hb))
    · split
      · exact List.Pairwise.nil
      · exact pairwise_singleton _ _
  · refine request.policy.order_distinct.imp fun hne a ha b hb id hida hidb => hne ?_
    obtain ⟨group, hgroup, hid⟩ := exists_of_mem_targets ha hida
    obtain ⟨other, hother, hid'⟩ := exists_of_mem_targets hb hidb
    obtain ⟨hin, howner⟩ := request.mem_classOf.mp hgroup
    obtain ⟨hin', howner'⟩ := request.mem_classOf.mp hother
    obtain rfl := request.sourceSnapshot.eq_of_groupId hin hin' (hid.trans hid'.symm)
    exact Option.some.inj (howner.symm.trans howner')

theorem targets_subset (h : action ∈ request.actionsOf t) :
    action.targetGroupIds ⊆ request.sourceSnapshot.groupIds := by
  intro id hid
  obtain ⟨group, hgroup, rfl⟩ := exists_of_mem_targets h hid
  exact request.sourceSnapshot.mem_groupIds (request.classOf_subset t hgroup)

/-! ## One action -/

/-- The refs of an action of a type are clean. -/
def ActionClean (action : ContextCompactionAction V) : Prop :=
  if action.actionType = .selectEvidenceSpans then
    ∀ group ∈ request.classOf .selectEvidenceSpans, action = request.selectionOf group →
      EvidenceClean group
  else request.ClassClean action.actionType

omit [PyDynamic V] [Zero C] [LT C] [Sub C] [DecidableLT C] in
/-- Parameters with the right names have the right shape. -/
theorem validateActionShape_of_names {names : List String}
    (hdefinition : standard.definitionFor action.actionType =
      .ok names) (hknown : action.parameters.keys ⊆ names)
    (hpresent : names ⊆ action.parameters.keys) : standard.validateActionShape action = .ok () := by
  have hunknown : action.parameters.keys.filter (fun name => !names.contains name) = [] :=
    filter_eq_nil_iff.mpr fun name hname => by
      simp [hknown hname]
  have hmissing : names.filter (fun name => !action.parameters.keys.contains name) = [] :=
    filter_eq_nil_iff.mpr fun name hname => by
      simp [hpresent hname]
  unfold validateActionShape
  rw [hdefinition, ok_bind]
  unfold shapeDetails
  rw [hunknown, hmissing]
  rfl

/-- The parameters of an action are those that the registry asks for. -/
theorem validateActionShape_eq (h : action ∈ request.actionsOf t) :
    standard.validateActionShape action = .ok () := by
  unfold actionsOf at h
  split at h
  · obtain ⟨group, -, rfl⟩ := mem_map.mp h
    have hkeys : (request.selectionOf group).parameters.keys = ["selected_span_refs",
        "required_span_refs", "query_binding_ref", "source_refs", "lineage_refs",
        "conflict_refs", "required_citation_refs"] := rfl
    refine validateActionShape_of_names rfl ?_ ?_
    · rw [hkeys]
      decide
    · rw [hkeys]
      decide
  · split at h
    · cases h
    · rw [mem_singleton.mp h]
      have hkeys : ∃ names, standard.definitionFor t = .ok names ∧
          (request.classParameters t).keys.Perm names := by
        cases t with
        | dropReconstructableGroup | replaceWithReference | compactOldConversation
        | summarizeGroups => exact ⟨_, rfl, List.Perm.refl _⟩
        | reduceAuthorizedToolSet => exact ⟨_, rfl, List.Perm.swap _ _ _⟩
        | selectEvidenceSpans => contradiction
      obtain ⟨names, hdefinition, hperm⟩ := hkeys
      exact validateActionShape_of_names hdefinition hperm.subset hperm.symm.subset

/-- The groups that an action is about, and when it passes. -/
theorem exists_targets (h : action ∈ request.allActions) (hread : request.Readable) :
    ∃ groups ⊆ request.sourceSnapshot.groups,
      action.targetGroupIds = groups.map (groupId sha256) ∧
      (validateAction request.sourceSnapshot request.policy request.protectedIds action groups =
        .ok () ↔ request.ActionClean action) := by
  obtain ⟨horder, haction⟩ := mem_actionsOf_of_mem h
  have hreadAt := request.readable_iff.mp hread _ horder
  generalize htype : action.actionType = t at horder haction hreadAt
  unfold actionsOf at haction
  unfold ActionClean
  rw [htype]
  by_cases hselect : t = .selectEvidenceSpans
  · subst hselect
    rw [if_pos rfl] at haction ⊢
    obtain ⟨group, hgroup, rfl⟩ := mem_map.mp haction
    refine ⟨[group], fun other h =>
      mem_singleton.mp h ▸ request.classOf_subset _ hgroup, rfl, ?_⟩
    refine (request.validateEvidenceGroup_eq_ok hgroup hreadAt).trans ⟨fun hclean other hother h =>
      ?_, fun h => h group hgroup rfl⟩
    have hid := List.cons.inj (congrArg ContextCompactionAction.targetGroupIds h)
    rwa [← request.sourceSnapshot.eq_of_groupId (request.classOf_subset _ hgroup)
      (request.classOf_subset _ hother) hid.1]
  · rw [if_neg hselect] at haction ⊢
    split at haction
    · cases haction
    · rw [mem_singleton.mp haction]
      exact ⟨request.classOf t, request.classOf_subset t, rfl,
        request.validateAction_eq_ok hselect hreadAt⟩

/-- The step: an action that targets no group twice passes when its refs are clean. -/
theorem validateStep_eq_ok (h : action ∈ request.allActions) (hread : request.Readable)
    {progress progress' : Progress} (hindex : progress.previousOrderIndex ≤
      (request.policy.actionOrder.idxOf action.actionType : ℕ))
    (hnew : ∀ id ∈ action.targetGroupIds, id ∉ progress.claimed) :
    validateStep .standard request.sourceSnapshot request.policy request.protectedIds progress
        action = .ok progress' ↔ request.ActionClean action ∧
      progress' = ⟨progress.claimed ++ action.targetGroupIds,
        (request.policy.actionOrder.idxOf action.actionType : ℕ)⟩ := by
  obtain ⟨horder, haction⟩ := mem_actionsOf_of_mem h
  obtain ⟨groups, hsub, htargets, hclean⟩ := request.exists_targets h hread
  have hgroups : action.targetGroupIds.mapM (groupById request.sourceSnapshot) = .ok groups :=
    htargets ▸ request.mapM_groupById hsub
  unfold validateStep
  rw [request.validateActionShape_eq haction, ok_bind, check_of_pos horder]
  rw [check_of_pos hindex, check_of_pos (request.targets_subset haction),
    check_of_pos hnew, hgroups, ok_bind, check_bind_eq_ok, hclean]
  exact and_congr_right fun _ => ⟨fun h => (ok_inj h).symm, fun h => congrArg Except.ok h.symm⟩

/-- The run: actions that target disjoint sets in order pass when all their refs are clean. -/
theorem foldlM_validateStep (hread : request.Readable) {actions : List (ContextCompactionAction V)} :
    ∀ {progress : Progress}, actions ⊆ request.allActions →
      (actions.Pairwise fun a b => request.policy.actionOrder.idxOf a.actionType ≤
        request.policy.actionOrder.idxOf b.actionType) →
      (actions.Pairwise fun a b => List.Disjoint a.targetGroupIds b.targetGroupIds) →
      (∀ action ∈ actions, progress.previousOrderIndex ≤
        (request.policy.actionOrder.idxOf action.actionType : ℕ) ∧
        ∀ id ∈ action.targetGroupIds, id ∉ progress.claimed) →
      ((∃ progress', actions.foldlM (validateStep .standard request.sourceSnapshot request.policy
        request.protectedIds) progress = .ok progress') ↔
          ∀ action ∈ actions, request.ActionClean action) := by
  induction actions with
  | nil =>
    intro progress _ _ _ _
    exact ⟨fun _ _ h => absurd h not_mem_nil, fun _ => ⟨progress, rfl⟩⟩
  | cons action actions ih =>
    intro progress hsub horder hdisjoint hbefore
    obtain ⟨hlater, horder⟩ := pairwise_cons.mp horder
    obtain ⟨hapart, hdisjoint⟩ := pairwise_cons.mp hdisjoint
    have hstep := @validateStep_eq_ok _ _ _ _ _ _ _ _ request action (hsub mem_cons_self)
      hread progress
    have hfirst := hbefore action mem_cons_self
    -- the groups of this action are claimed for those behind it
    have hnext : ∀ other ∈ actions,
        ((request.policy.actionOrder.idxOf action.actionType : ℕ) : ℤ) ≤
          (request.policy.actionOrder.idxOf other.actionType : ℕ) ∧
        ∀ id ∈ other.targetGroupIds, id ∉ progress.claimed ++ action.targetGroupIds := by
      intro other hother
      refine ⟨Int.ofNat_le.mpr (hlater other hother), fun id hid hclaimed => ?_⟩
      rcases mem_append.mp hclaimed with hclaimed | hclaimed
      · exact (hbefore other (mem_cons_of_mem _ hother)).2 id hid hclaimed
      · exact hapart other hother hclaimed hid
    have hrest := @ih ⟨progress.claimed ++ action.targetGroupIds,
      (request.policy.actionOrder.idxOf action.actionType : ℕ)⟩
      (fun a ha => hsub (mem_cons_of_mem _ ha)) horder hdisjoint hnext
    rw [forall_mem_cons]
    constructor
    · rintro ⟨progress', hrun⟩
      rw [foldlM_cons] at hrun
      obtain ⟨progress₁, hone, hrun⟩ := bind_inv hrun
      obtain ⟨hclean, rfl⟩ := (hstep hfirst.1 hfirst.2).mp hone
      exact ⟨hclean, hrest.mp ⟨progress', hrun⟩⟩
    · rintro ⟨hclean, hothers⟩
      obtain ⟨progress', hrun⟩ := hrest.mpr hothers
      refine ⟨progress', ?_⟩
      rw [foldlM_cons, (hstep hfirst.1 hfirst.2).mpr ⟨hclean, rfl⟩, ok_bind, hrun]

/-! ## The actions there is room for -/

/-- The actions of a plan. -/
def plannedActions : List (ContextCompactionAction V) :=
  request.allActions.take request.remaining.actions

theorem length_actionsOf (t : ActionType) :
    (request.actionsOf t).length = request.actionCount t := by
  unfold actionsOf actionCount
  by_cases hselect : t = .selectEvidenceSpans
  · rw [if_pos hselect, if_pos hselect, length_map]
  · rw [if_neg hselect, if_neg hselect]
    by_cases hnil : request.classOf t = []
    · rw [if_pos hnil, hnil]
      rfl
    · rw [if_neg hnil, length_singleton]
      have := length_pos_iff.mpr hnil
      omega

theorem room_eq {done rest : List ActionType}
    (horder : request.policy.actionOrder = done ++ t :: rest) :
    request.room t = request.remaining.actions - (done.flatMap request.actionsOf).length := by
  have hdistinct := request.policy.order_distinct
  rw [horder] at hdistinct
  have hdone : ∀ t' ∈ done, (t' != t) = true := fun t' ht' => by
    refine bne_iff_ne.mpr fun heq => ?_
    exact disjoint_of_nodup_append hdistinct (heq ▸ ht') mem_cons_self
  have hbefore : request.policy.actionOrder.takeWhile (· != t) = done := by
    rw [horder, takeWhile_append_of_pos hdone, takeWhile_cons_of_neg (by simp),
      append_nil]
  unfold room
  rw [hbefore, length_flatMap]
  congr 2
  exact map_congr_left fun t' _ => (request.length_actionsOf t').symm

/-- The actions of a plan, type by type. -/
theorem mem_plannedActions : action ∈ request.plannedActions ↔ ∃ t ∈ request.policy.actionOrder,
      action ∈ (request.actionsOf t).take (request.room t) := by
  unfold plannedActions allActions
  rw [mem_take_flatMap]
  constructor
  · rintro ⟨done, t, rest, horder, h⟩
    refine ⟨t, horder ▸ mem_append_right _ mem_cons_self, ?_⟩
    rwa [request.room_eq horder]
  · rintro ⟨t, ht, h⟩
    obtain ⟨done, rest, horder⟩ := append_of_mem ht
    refine ⟨done, t, rest, horder, ?_⟩
    rwa [← request.room_eq horder]

theorem classAction_mem_plannedActions (ht : t ≠ .selectEvidenceSpans)
    (hclass : request.classOf t ≠ []) (hroom : 1 ≤ request.room t) :
    request.classAction t ∈ request.plannedActions := by
  obtain ⟨group, hgroup⟩ := exists_mem_of_ne_nil _ hclass
  refine request.mem_plannedActions.mpr ⟨t, request.mem_order_of_mem_classOf hgroup, ?_⟩
  unfold actionsOf
  rw [if_neg ht, if_neg hclass, take_of_length_le (by simpa using hroom)]
  exact mem_singleton_self _

/-- The plan's refs are clean when those of each class that there is room for are. -/
theorem clean_iff : (∀ action ∈ request.plannedActions, request.ActionClean action) ↔
    request.Clean := by
  constructor
  · intro h
    -- the action on a class is planned, or the class is empty
    have hclass : ∀ t, t ≠ .selectEvidenceSpans → 1 ≤ request.room t → request.ClassClean t := by
      intro t ht hroom
      by_cases hnil : request.classOf t = []
      · cases t with
        | selectEvidenceSpans => exact absurd rfl ht
        | reduceAuthorizedToolSet =>
          unfold ClassClean
          rw [hnil]
          exact ⟨⟨nofun, nodup_nil⟩,
            ⟨nofun, nodup_nil⟩⟩
        | dropReconstructableGroup | replaceWithReference =>
          unfold ClassClean
          rw [hnil]
          exact nodup_nil
        | compactOldConversation => trivial
        | summarizeGroups => trivial
      · have hclean := h _ (request.classAction_mem_plannedActions ht hnil hroom)
        unfold ActionClean at hclean
        rwa [if_neg (show ¬ (request.classAction t).actionType = _ from ht)] at hclean
    refine ⟨hclass _ (by decide), hclass _ (by decide), hclass _ (by decide), fun group hgroup => ?_⟩
    have hin := mem_of_mem_take hgroup
    have hmem : request.selectionOf group ∈ request.plannedActions := by
      refine request.mem_plannedActions.mpr
        ⟨.selectEvidenceSpans, request.mem_order_of_mem_classOf hin, ?_⟩
      unfold actionsOf
      rw [if_pos rfl, ← map_take]
      exact mem_map_of_mem hgroup
    have hclean := h _ hmem
    unfold ActionClean at hclean
    rw [if_pos (show (request.selectionOf group).actionType = .selectEvidenceSpans from rfl)]
      at hclean
    exact hclean group hin rfl
  · intro h action haction
    obtain ⟨t, ht, htake⟩ := request.mem_plannedActions.mp haction
    have hin := mem_of_mem_take htake
    have htype := request.actionType_of_mem hin
    have hroom : 1 ≤ request.room t := by
      by_contra hzero
      rw [show request.room t = 0 by omega, take_zero] at htake
      cases htake
    unfold ActionClean
    rw [htype]
    cases t with
    | dropReconstructableGroup => exact h.dropped hroom
    | replaceWithReference => exact h.replaced hroom
    | reduceAuthorizedToolSet => exact h.tools hroom
    | compactOldConversation => trivial
    | summarizeGroups => trivial
    | selectEvidenceSpans =>
      rw [if_pos rfl]
      intro group hgroup heq
      unfold actionsOf at htake
      rw [if_pos rfl, ← map_take] at htake
      obtain ⟨other, hother, hsame⟩ := mem_map.mp htake
      have hid := List.cons.inj (congrArg ContextCompactionAction.targetGroupIds (hsame.trans heq))
      rw [← request.sourceSnapshot.eq_of_groupId (request.classOf_subset _
        (mem_of_mem_take hother)) (request.classOf_subset _ hgroup) hid.1]
      exact h.evidence other hother

/-! ## What is left -/

/-- An eligible group falls to its type or to an earlier one. -/
theorem exists_owner (ht : t ∈ request.policy.actionOrder) (haffords : request.affords t = true)
    {group : ContextGroup V} (heligible : request.eligible t group = true) :
    ∃ t' ∈ request.policy.actionOrder, request.owner group = some t' ∧
      request.policy.actionOrder.idxOf t' ≤ request.policy.actionOrder.idxOf t := by
  have htest : (request.affords t && request.eligible t group) = true := by
    rw [haffords, heligible]
    rfl
  rcases howner : request.owner group with _ | t'
  · exact absurd htest (find?_eq_none.mp howner t ht)
  · obtain ⟨htest', before, after, horder, hbefore⟩ := find?_eq_some_iff_append.mp howner
    have hnot : t ∉ before := fun hmem => by
      have := hbefore t hmem
      rw [htest] at this
      cases this
    have hnot' : t' ∉ before := fun hmem => by
      have := hbefore t' hmem
      rw [htest'] at this
      cases this
    refine ⟨t', mem_of_find?_eq_some howner, rfl, ?_⟩
    rw [horder, idxOf_append_of_notMem hnot, idxOf_append_of_notMem hnot', idxOf_cons_self]
    omega

/-- The actions on the classes leave no eligible group. -/
theorem exists_action (ht : t ∈ request.policy.actionOrder) (haffords : request.affords t = true)
    {group : ContextGroup V} (hgroup : group ∈ request.sourceSnapshot.groups)
    (heligible : request.eligible t group = true) :
    ∃ action ∈ request.allActions, group.groupId sha256 ∈ action.targetGroupIds ∧
      request.policy.actionOrder.idxOf action.actionType ≤ request.policy.actionOrder.idxOf t := by
  obtain ⟨t', ht', howner, hle⟩ := request.exists_owner ht haffords heligible
  have hmem := mem_map_of_mem (f := groupId sha256)
    (request.mem_classOf.mpr ⟨hgroup, howner⟩)
  rw [← request.targets_actionsOf] at hmem
  obtain ⟨action, haction, hid⟩ := mem_flatMap.mp hmem
  refine ⟨action, mem_flatMap.mpr ⟨t', ht', haction⟩, hid, ?_⟩
  rwa [request.actionType_of_mem haction]

/-! ## The plan -/

omit [Sub C] [DecidableLT C] in
theorem cleanRefs_protectedIds : CleanRefs (request.protectedIds.map some) :=
  request.sourceSnapshot.cleanRefs_of_sublist (filter_sublist.map _)

omit [Sub C] [DecidableLT C] in
/-- A result is made, with a plan exactly when it is ready. -/
theorem result_eq (status : ContextCompactionPlanningStatus) (reasonCode : String)
    (plan : Option (ContextCompactionPlan C V)) (hplan : status = .planReady ↔ plan.isSome = true) :
    ∃ result, ContextCompactionPlanner.result request status request.protectedIds reasonCode plan =
      .ok result ∧ result.status = status ∧ result.plan = plan := by
  rcases textTuple_of_clean request.cleanRefs_protectedIds "protected_group_ids" false
    (fun h => absurd h Bool.false_ne_true) with ⟨refs, hrefs, -⟩
  have hnone : status ≠ .planReady → plan.isNone = true := fun h => by
    cases plan with
    | none => rfl
    | some plan => exact absurd (hplan.mpr rfl) h
  refine ⟨⟨status, request.sourceSnapshot.snapshotId, request.sourceSnapshot.checksum,
    request.initialAdmission.evidenceId sha256, request.protectedIds, reasonCode, plan⟩, ?_,
    rfl, rfl⟩
  unfold ContextCompactionPlanner.result ContextCompactionPlanningResult.check
  dsimp only
  rw [hrefs, ok_bind, check_of_pos hplan.mp, check_of_pos hnone]

omit [Sub C] [DecidableLT C] in
theorem maxZero_nonneg [DecidableLT C] [Std.Asymm (α := C) (· < ·)] (value : C) :
    ¬ maxZero value < 0 := by
  unfold maxZero
  split
  · rename_i hpos
    exact Std.Asymm.asymm _ _ hpos
  · exact fun h => Std.Asymm.asymm _ _ h h

/-- The summaries among the actions come from one class. -/
theorem filter_summarize : (request.allActions.filter fun a =>
    a.actionType == .summarizeGroups).Sublist (request.actionsOf .summarizeGroups) := by
  -- an action of another type is no summary
  have hother : ∀ types : List ActionType, ActionType.summarizeGroups ∉ types →
      (types.flatMap request.actionsOf).filter (fun a => a.actionType == .summarizeGroups) = [] := by
    intro types htypes
    refine filter_eq_nil_iff.mpr fun action haction htype => htypes ?_
    obtain ⟨t, ht, hmem⟩ := mem_flatMap.mp haction
    rw [request.actionType_of_mem hmem] at htype
    exact beq_iff_eq.mp htype ▸ ht
  unfold allActions
  by_cases hmem : ActionType.summarizeGroups ∈ request.policy.actionOrder
  · obtain ⟨done, rest, horder⟩ := append_of_mem hmem
    have hdistinct := request.policy.order_distinct
    rw [horder] at hdistinct
    have hdone : ActionType.summarizeGroups ∉ done := fun h =>
      disjoint_of_nodup_append hdistinct h mem_cons_self
    have hrest : ActionType.summarizeGroups ∉ rest :=
      (nodup_cons.mp (nodup_append.mp hdistinct).2.1).1
    rw [horder, flatMap_append, flatMap_cons, filter_append, filter_append,
      hother done hdone, hother rest hrest, nil_append, append_nil]
    exact filter_sublist
  · rw [hother _ hmem]
    exact nil_sublist _

/-- There is at most one summary among the actions, and only when it can be afforded. -/
theorem length_filter_summarize :
    (request.plannedActions.filter fun a => a.actionType == .summarizeGroups).length ≤
      request.remaining.summaryCalls := by
  refine (((take_sublist _ _).filter _).trans request.filter_summarize).length_le.trans ?_
  rw [request.length_actionsOf]
  unfold actionCount
  rw [if_neg (by decide)]
  by_cases hnil : request.classOf .summarizeGroups = []
  · rw [hnil]
    exact Nat.zero_le _
  · obtain ⟨group, hgroup⟩ := exists_mem_of_ne_nil _ hnil
    have haffords := request.affords_summarize.mp (request.eligible_of_mem_classOf hgroup).1
    omega

/-- The plan with the actions there is room for can be made. -/
theorem check_planOf [Std.Asymm (α := C) (· < ·)] (h : request.Evaluates) :
    (planOf request request.plannedActions).check = .ok () := by
  obtain ⟨htarget, -, -, hactions, hturns⟩ := h
  rcases textTuple_of_clean request.cleanRefs_protectedIds "protected_group_ids" false
    (fun h => absurd h Bool.false_ne_true) with ⟨refs, hrefs, -⟩
  have hlength : request.plannedActions.length ≤ request.remaining.actions :=
    length_take_le _ _
  unfold ContextCompactionPlan.check
  simp only [check_bind_eq_ok, require_eq_ok]
  exact ⟨htarget, hactions, maxZero_nonneg _, hturns, hlength, request.length_filter_summarize,
    bind_intro hrefs rfl⟩

variable [DecidableEq C]

/-- The validator accepts the plan exactly when its refs are clean. -/
theorem validate_planOf (hpolicy : standard.validatePolicy request.policy = .ok ())
    (hread : request.Readable) :
    validate .standard (planOf request request.plannedActions) request = .ok () ↔
      request.Clean := by
  have hheader : validateHeader (planOf request request.plannedActions) request = .ok () := by
    unfold validateHeader planOf
    simp [require_of_pos]
  have hsub : request.plannedActions.Sublist request.allActions := take_sublist _ _
  have hrun := @foldlM_validateStep _ _ _ _ _ _ _ _ request hread request.plannedActions {}
    hsub.subset (request.pairwise_order.sublist hsub) (request.pairwise_disjoint.sublist hsub)
    (fun action _ => ⟨by simp, fun _ _ h => absurd h not_mem_nil⟩)
  rw [← request.clean_iff, ← hrun]
  unfold validate
  rw [hpolicy, ok_bind, hheader, ok_bind, bind_eq_ok]
  exact exists_congr fun progress => and_iff_left rfl

/-- An accepted plan is what is asked for. -/
theorem ready_planOf
    (hvalid : validate .standard (planOf request request.plannedActions) request = .ok ()) :
    request.Ready (planOf request request.plannedActions) := by
  have hsub : request.plannedActions.Sublist request.allActions := take_sublist _ _
  refine ⟨hvalid, request.pairwise_disjoint.sublist hsub, request.pairwise_order.sublist hsub,
    fun action haction => (mem_actionsOf_of_mem (hsub.subset haction)).1, ?_, ?_⟩
  · intro action haction htype id hid
    rcases exists_of_mem_targets (mem_actionsOf_of_mem (hsub.subset haction)).2 hid with
      ⟨group, hgroup, rfl⟩
    exact request.isOpen_of_eligible htype (request.eligible_of_mem_classOf hgroup).2
  · by_cases hcut : request.allActions.length ≤ request.remaining.actions
    · right
      intro t ht haffords group hgroup heligible
      have hall : (planOf request request.plannedActions).actions = request.allActions :=
        take_of_length_le hcut
      rw [hall]
      exact request.exists_action ht haffords hgroup heligible
    · left
      exact length_take_of_le (Nat.le_of_not_le hcut)

omit [DecidableEq C] in
/-- The groups that stay, as the planner and as the request tell them. -/
theorem fits_iff : request.Fits ↔ ¬ request.targetInputTokens <
    request.initialAdmission.fixedInputTokens + inputTokensOf request.initialAdmission
      (request.protectedIds.filter fun id =>
        !(evidenceSelectionTargets request.allActions).contains id) := by
  have hsame : request.protectedIds.filter (fun id =>
      !((request.classOf .selectEvidenceSpans).map (groupId sha256)).contains id) =
        request.protectedIds.filter fun id =>
          !(evidenceSelectionTargets request.allActions).contains id := by
    refine filter_congr fun id _ => ?_
    congr 1
    rw [Bool.eq_iff_iff, contains_iff_mem, contains_iff_mem, ← targets_actionsOf]
    unfold evidenceSelectionTargets
    rw [mem_flatMap, mem_flatMap]
    constructor
    · rintro ⟨action, haction, hid⟩
      obtain ⟨group, hgroup, -⟩ := exists_of_mem_targets haction hid
      refine ⟨action, mem_filter.mpr ⟨mem_flatMap.mpr ⟨.selectEvidenceSpans,
        request.mem_order_of_mem_classOf hgroup, haction⟩, ?_⟩, hid⟩
      exact beq_iff_eq.mpr (request.actionType_of_mem haction)
    · rintro ⟨action, haction, hid⟩
      obtain ⟨hall, htype⟩ := mem_filter.mp haction
      have hmem := (mem_actionsOf_of_mem hall).2
      rw [beq_iff_eq.mp htype] at hmem
      exact ⟨action, hmem, hid⟩
  unfold Fits
  rw [hsame, not_lt]

theorem planCandidates_of_not_fits (h : ¬ request.Fits) :
    planCandidates .standard request request.allActions = result request
      .protectedContextExceedsWindow request.protectedIds "hard_protected_context_exceeds_target"
      none :=
  if_pos (not_not.mp fun hnot => h (request.fits_iff.mpr hnot))

theorem planCandidates_of_nil (h : request.Fits) (hnone : request.allActions = []) :
    planCandidates .standard request request.allActions = result request .noAllowedCompaction
      request.protectedIds "no_registered_action_has_satisfied_preconditions" none :=
  (if_neg (request.fits_iff.mp h)).trans (if_pos hnone)

theorem planCandidates_of_fits (h : request.Fits) (hne : request.allActions ≠ []) :
    planCandidates .standard request request.allActions = (do
      (planOf request request.plannedActions).check
      validate .standard (planOf request request.plannedActions) request
      result request .planReady request.protectedIds "deterministic_plan_ready"
        (some (planOf request request.plannedActions))) :=
  (if_neg (request.fits_iff.mp h)).trans (if_neg hne)

section

variable (hpolicy : standard.validatePolicy request.policy = .ok ())

include hpolicy

/-- Planning from the candidates returns when their refs are clean or they do not matter. -/
theorem exists_planCandidates [Std.Asymm (α := C) (· < ·)]
    (h : request.Evaluates) (hread : request.Readable) (hclean : request.Fits → request.Clean) :
    ∃ result, planCandidates .standard request request.allActions = .ok result ∧
      (result.status = .planReady → ∃ plan, result.plan = some plan ∧ request.Ready plan) := by
  by_cases hfits : request.Fits
  · by_cases hnone : request.allActions = []
    · rcases request.result_eq .noAllowedCompaction
        "no_registered_action_has_satisfied_preconditions" none (by simp) with
        ⟨result, hresult, hstatus, -⟩
      refine ⟨result, (request.planCandidates_of_nil hfits hnone).trans hresult, fun hready => ?_⟩
      rw [hstatus] at hready
      cases hready
    · rcases request.result_eq .planReady "deterministic_plan_ready"
        (some (planOf request request.plannedActions)) (by simp) with ⟨result, hresult, -, hplan⟩
      have hvalid := (request.validate_planOf hpolicy hread).mpr (hclean hfits)
      refine ⟨result, ?_, fun _ => ⟨_, hplan, request.ready_planOf hvalid⟩⟩
      rw [request.planCandidates_of_fits hfits hnone, request.check_planOf h, ok_bind, hvalid,
        ok_bind, hresult]
  · rcases request.result_eq .protectedContextExceedsWindow
      "hard_protected_context_exceeds_target" none (by simp) with ⟨result, hresult, hstatus, -⟩
    refine ⟨result, (request.planCandidates_of_not_fits hfits).trans hresult, fun hready => ?_⟩
    rw [hstatus] at hready
    cases hready

/-- A plan that was made from the candidates had clean refs. -/
theorem clean_of_planCandidates
    (hread : request.Readable) {result : ContextCompactionPlanningResult C V}
    (h : planCandidates .standard request request.allActions = .ok result)
    (hfits : request.Fits) : request.Clean := by
  by_cases hnone : request.allActions = []
  · refine request.clean_iff.mp fun action haction => ?_
    have hmem := mem_of_mem_take haction
    rw [hnone] at hmem
    cases hmem
  · rw [request.planCandidates_of_fits hfits hnone] at h
    obtain ⟨-, h⟩ := check_inv h
    obtain ⟨hvalid, -⟩ := check_inv h
    exact (request.validate_planOf hpolicy hread).mp hvalid

/-! ## The request as a whole -/

/-- Where the metadata are looked at, planning goes through the candidates. -/
theorem plan_of_evaluates
    (h : request.Evaluates) : ContextCompactionPlanner.plan .standard request = (do
      let candidates ← candidateActions request.sourceSnapshot request.policy request.remaining
        request.protectedIds
      planCandidates .standard request candidates) := by
  obtain ⟨htarget, hfits, hadmission, hactions, hturns⟩ := h
  have hcompactable : ¬ (request.initialAdmission.admitted = false ∧
      request.initialAdmission.admissionStatus.val ≠ "input_limit_exceeded") := by
    rintro ⟨hnot, hstatus⟩
    rcases hadmission with h | h
    · rw [hnot] at h
      cases h
    · exact hstatus h
  unfold ContextCompactionPlanner.plan
  rw [hpolicy, ok_bind]
  exact (if_neg (Nat.not_lt.mpr htarget)).trans ((if_neg hfits).trans
    ((if_neg hcompactable).trans ((if_neg (Nat.not_lt.mpr hactions)).trans
      (if_neg (Nat.not_lt.mpr hturns)))))

/-- Where they are not looked at, planning returns and nothing is ready. -/
theorem plan_of_not_evaluates (h : ¬ request.Evaluates) : ∃ result,
      ContextCompactionPlanner.plan .standard request = .ok result ∧
        result.status ≠ .planReady := by
  have hresult : ∀ status : ContextCompactionPlanningStatus, status ≠ .planReady →
      ∀ reasonCode, ∃ result, ContextCompactionPlanner.result request status request.protectedIds
        reasonCode none = .ok result ∧ result.status ≠ .planReady := by
    intro status hstatus reasonCode
    rcases request.result_eq status reasonCode none (by simp [hstatus]) with
      ⟨result, hresult, hsame, -⟩
    exact ⟨result, hresult, hsame ▸ hstatus⟩
  unfold ContextCompactionPlanner.plan
  rw [hpolicy, ok_bind]
  dsimp only
  split
  · exact hresult .noAllowedCompaction (by decide) _
  · rename_i htarget
    split
    · exact hresult .noCompactionRequired (by decide) _
    · rename_i hfits
      split
      · exact hresult .noAllowedCompaction (by decide) _
      · rename_i hcompactable
        split
        · exact hresult .actionBudgetExhausted (by decide) _
        · rename_i hactions
          split
          · exact hresult .noAllowedCompaction (by decide) _
          · rename_i hturns
            refine absurd ⟨Nat.le_of_not_lt htarget, hfits, ?_, Nat.le_of_not_lt hactions,
              Nat.le_of_not_lt hturns⟩ h
            cases hadmitted : request.initialAdmission.admitted with
            | true => exact Or.inl rfl
            | false => exact Or.inr (not_not.mp fun hne => hcompactable ⟨hadmitted, hne⟩)

end

variable [LawfulPyDynamic V] [Std.Asymm (α := C) (· < ·)]

omit [Std.Asymm (α := C) (· < ·)] in
theorem plannable_of_plansWell (hpolicy : standard.validatePolicy request.policy = .ok ())
    (h : request.PlansWell) : request.Plannable := by
  intro hevaluates
  obtain ⟨result, hplan⟩ := h.returns
  rw [request.plan_of_evaluates hpolicy hevaluates] at hplan
  obtain ⟨candidates, hcandidates, hplan⟩ := bind_inv hplan
  obtain ⟨hread, rfl⟩ := request.candidateActions_eq_ok.mp hcandidates
  exact ⟨hread, request.clean_of_planCandidates hpolicy hread hplan⟩

/-- What can be planned is planned well. -/
theorem plansWell_of_plannable (hpolicy : standard.validatePolicy request.policy = .ok ())
    (h : request.Plannable) : request.PlansWell := by
  by_cases hevaluates : request.Evaluates
  · obtain ⟨hread, hclean⟩ := h hevaluates
    rcases request.exists_planCandidates hpolicy hevaluates hread hclean with
      ⟨result, hresult, hready⟩
    have hplan : ContextCompactionPlanner.plan .standard request = .ok result := by
      rw [request.plan_of_evaluates hpolicy hevaluates,
        request.candidateActions_eq_ok.mpr ⟨hread, rfl⟩, ok_bind]
      exact hresult
    refine ⟨⟨result, hplan⟩, fun other hother hstatus => ?_⟩
    obtain rfl := ok_inj (hplan.symm.trans hother)
    exact hready hstatus
  · obtain ⟨result, hplan, hstatus⟩ := request.plan_of_not_evaluates hpolicy hevaluates
    refine ⟨⟨result, hplan⟩, fun other hother hready => ?_⟩
    obtain rfl := ok_inj (hplan.symm.trans hother)
    exact absurd hready hstatus

/-- The planner does what is asked of it exactly for the requests whose metadata can be read
where it looks, and whose refs are clean where it plans. -/
theorem plansWell_iff
    (hpolicy : ContextCompactionActionRegistry.standard.validatePolicy request.policy = .ok ()) :
    request.PlansWell ↔ request.Plannable :=
  ⟨request.plannable_of_plansWell hpolicy, request.plansWell_of_plannable hpolicy⟩

/-! ## Two requests -/

/-- Metadata of plain values. -/
local instance plainMetadata : PyDynamic PyValue := PyDynamic.ofJson fun _ => true

local instance lawful_plainMetadata : LawfulPyDynamic PyValue :=
  PyDynamic.lawful_ofJson fun _ => true

/-- A message. -/
def message (content : Ref) : ContextGroupMember PyValue where
  memberKind := .message
  contentRef := content
  ordinal := 0
  role := none
  toolCallId := none
  sourceRefs := []
  semanticMetadata := []
  schemaRevision := .ofLiteral "newsroom.context-group-member/v1" (.refl true)
  sourcesDistinct := nodup_nil
  writable := nofun

/-- A group with one message that can be reconstructed from the page. -/
def pageGroup (content : Ref) : ContextGroup PyValue where
  groupKind := .reconstructable
  members := [message content]
  sourceRefs := [content]
  protectionReasons := []
  reconstructionPolicy := .durableRef
  reconstructionRef := some (.ofLiteral "page://1" (.refl true))
  toolTransactionState := .notApplicable
  queryBindingRef := none
  requiredCitationRefs := []
  semanticMetadata := []
  schemaRevision := .ofLiteral "newsroom.context-group/v1" (.refl true)
  valid := rfl

/-- A span of evidence. -/
def span (content : Ref) (ordinal : ℕ) : ContextGroupMember PyValue where
  memberKind := .evidenceSpan
  contentRef := content
  ordinal := ordinal
  role := none
  toolCallId := none
  sourceRefs := []
  semanticMetadata := []
  schemaRevision := .ofLiteral "newsroom.context-group-member/v1" (.refl true)
  sourcesDistinct := nodup_nil
  writable := nofun

/-- Two spans of evidence for the task, the first of which is selected; its lineage names one
ref twice. -/
def evidenceGroup : ContextGroup PyValue where
  groupKind := .evidence
  members := [span (.ofLiteral "span://1" (.refl true)) 0, span (.ofLiteral "span://2" (.refl true)) 1]
  sourceRefs := [.ofLiteral "page://1" (.refl true)]
  protectionReasons := []
  reconstructionPolicy := .none
  reconstructionRef := none
  toolTransactionState := .notApplicable
  queryBindingRef := some (.ofLiteral "task" (.refl true))
  requiredCitationRefs := []
  semanticMetadata := [("selected_span_refs", .arr [.str "span://1"]),
    ("lineage_refs", .arr [.str "page://1", .str "page://1"])]
  schemaRevision := .ofLiteral "newsroom.context-group/v1" (.refl true)
  valid := rfl

/-- A context of this group. -/
def pageSnapshot (group : ContextGroup PyValue) : SnapshotFields PyValue where
  runId := .ofLiteral "run" (.refl true)
  stageId := none
  taskBindingRef := .ofLiteral "task" (.refl true)
  groups := [group]
  policyRevision := .ofLiteral "policy/v1" (.refl true)
  physicalProfileRevision := some (.ofLiteral "profile/v1" (.refl true))
  parentSnapshotId := none
  snapshotKind := .source
  schemaRevision := .ofLiteral "newsroom.context-semantic-snapshot/v1" (.refl true)

/-- The policy that allows for one type of actions. -/
def pagePolicy (actionType : ActionType) : ContextCompactionPolicy ℚ where
  policyRevision := .ofLiteral "policy/v1" (.refl true)
  actionOrder := [actionType]
  maxActions := 4
  maxSummaryCalls := 0
  maxReplans := 0
  maxLlmCalls := 0
  maxInputTokens := 5
  maxCostUsd := 0
  maxTurns := 4
  keepRecentCompleteTurns := 2
  protectedGroupKinds := []
  protectedReasons := []
  allowedLossRisks := []
  order_nonempty := cons_ne_nil _ _
  order_distinct := nodup_singleton _
  actions_pos := by decide
  inputTokens_pos := (by decide : 5 ≥ 1)
  turns_pos := by decide
  cost_nonneg := lt_irrefl 0
  kinds_distinct := nodup_nil
  reasons_distinct := nodup_nil
  risks_distinct := nodup_nil

/-- The evidence that a context of ten tokens a group is too long for five tokens. -/
def pageAdmission (snapshot : ContextSemanticSnapshot sha256Hex PyValue) :
    ContextPhysicalAdmissionEvidence where
  sourceSnapshotId := snapshot.snapshotId
  sourceSnapshotChecksum := snapshot.checksum
  preparedFingerprint := .ofLiteral "prepared" (.refl true)
  physicalProfileRevision := .ofLiteral "profile/v1" (.refl true)
  tokenizerRevision := .ofLiteral "tokenizer/v1" (.refl true)
  normalizerRevision := .ofLiteral "normalizer/v1" (.refl true)
  materializationRevision := .ofLiteral "materialization/v1" (.refl true)
  admissionStatus := .ofLiteral "input_limit_exceeded" (.refl true)
  admitted := false
  inputTokens := 0 + (PyDict.values (snapshot.groupIds.map fun id => (id, 10))).sum
  maxInputTokens := 5
  fixedInputTokens := 0
  groupInputTokens := snapshot.groupIds.map fun id => (id, 10)
  schemaRevision := .ofLiteral "newsroom.context-physical-admission-evidence/v1" (.refl true)
  admitted_iff := by decide
  groups_distinct := by
    have hkeys : PyDict.keys (snapshot.groupIds.map fun id => (id, 10)) = snapshot.groupIds := by
      simp [PyDict.keys, Function.comp_def]
    rw [hkeys]
    exact snapshot.nodup_groupIds
  tokens_sum := rfl

theorem check_pageSnapshot (group : ContextGroup PyValue) :
    (pageSnapshot group).check sha256Hex = .ok () := by
  unfold SnapshotFields.check
  simp only [check_bind_eq_ok, require_eq_ok]
  exact ⟨cons_ne_nil _ _, nodup_singleton _, fun _ => rfl, fun h => absurd rfl h⟩

/-- A request about a context of one group, after some actions. -/
def pageRequest (actionType : ActionType) (used : ℕ) (group : ContextGroup PyValue) :
    ContextCompactionPlanningRequest sha256Hex ℚ PyValue where
  sourceSnapshot := ⟨pageSnapshot group, check_pageSnapshot group⟩
  initialAdmission := pageAdmission ⟨pageSnapshot group, check_pageSnapshot group⟩
  policy := pagePolicy actionType
  budgetUsage := { actions := used, cost_nonneg := lt_irrefl 0 }
  kind_source := rfl
  admission_snapshot := rfl
  admission_checksum := rfl
  policy_revision := rfl
  profile_revision := rfl
  admission_groups := fun id => by
    simp [pageAdmission, PyDict.keys, Function.comp_def]

theorem classOf_pageRequest {t t' : ActionType} (used : ℕ) (group : ContextGroup PyValue)
    (h : t' ≠ t) : (pageRequest t used group).classOf t' = [] :=
  eq_nil_iff_forall_not_mem.mpr fun _ hgroup =>
    h (mem_singleton.mp ((pageRequest t used group).mem_order_of_mem_classOf hgroup))

/-- A context with one group that can be reconstructed is planned well. -/
theorem plansWell_pageGroup : (pageRequest .dropReconstructableGroup 0
    (pageGroup (.ofLiteral "a" (.refl true)))).PlansWell := by
  have hempty := fun t ht => @classOf_pageRequest .dropReconstructableGroup t 0
    (pageGroup (.ofLiteral "a" (.refl true))) ht
  refine (plansWell_iff _ rfl).mpr fun _ => ⟨⟨?_, ?_, ?_, ?_⟩, fun _ => ⟨?_, ?_, ?_, ?_⟩⟩
  · exact fun h => absurd h (by decide)
  · rw [hempty _ (by decide)]
    exact fun _ h => absurd h not_mem_nil
  · exact fun h => absurd h (by decide)
  · rw [hempty _ (by decide)]
    exact fun _ h => absurd h not_mem_nil
  · exact fun _ => (nodup_singleton _).sublist (filter_sublist.map _)
  · rw [hempty _ (by decide)]
    exact fun _ => nodup_nil
  · rw [hempty _ (by decide)]
    exact fun _ => ⟨⟨nofun, nodup_nil⟩,
      nofun, nodup_nil⟩
  · rw [hempty _ (by decide)]
    exact fun _ h => absurd (mem_of_mem_take h) not_mem_nil

/-- Evidence whose lineage names one ref twice is not: the plan that selects its spans is not
accepted. -/
theorem not_plansWell_evidenceGroup :
    ¬ (pageRequest .selectEvidenceSpans 0 evidenceGroup).PlansWell := by
  intro h
  have hclass : (pageRequest .selectEvidenceSpans 0 evidenceGroup).classOf .selectEvidenceSpans =
      [evidenceGroup] := rfl
  rcases plannable_of_plansWell _ rfl h ⟨by decide, by decide, Or.inr rfl, by decide,
    by decide⟩ with ⟨-, hclean⟩
  have hfits : (pageRequest .selectEvidenceSpans 0 evidenceGroup).Fits := Nat.zero_le _
  have hmem : evidenceGroup ∈ ((pageRequest .selectEvidenceSpans 0 evidenceGroup).classOf
      .selectEvidenceSpans).take
        ((pageRequest .selectEvidenceSpans 0 evidenceGroup).room .selectEvidenceSpans) := by
    rw [hclass]
    exact mem_cons_self
  exact absurd ((hclean hfits).evidence _ hmem).2.2.1.2 (by decide)

end ContextCompactionPlanningRequest

end ContextCompaction
