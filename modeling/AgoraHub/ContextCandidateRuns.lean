/-
# Going through the action types

One action type makes its actions of the groups that fall to it, unless what it looks at
cannot be read; and so do all types of a policy in turn.
-/
import AgoraHub.ContextCandidates

namespace ContextCompaction

open Fallible List ContextGroup

variable {sha256 : String → HexDigest} {V : Type} [PyDynamic V]
variable {C : Type} [Zero C] [LT C]

namespace ContextCompactionPlanningRequest

variable (request : ContextCompactionPlanningRequest sha256 C V)

/-! ## Selecting spans -/

/-- The refs that a selection copies from the metadata of a group can be written. -/
def Written (group : ContextGroup V) : Prop :=
  ∀ v ∈ group.items "lineage_refs" ++ group.items "conflict_refs",
    (PyDynamic.json? v).isSome = true

variable {group : ContextGroup V}

/-- What is selected and required is made of texts. -/
theorem isSome_of_selectionFits (h : group.selectionFits = true) :
    (∀ v ∈ group.items "selected_span_refs", (PyDynamic.text? v).isSome = true) ∧
      ∀ v ∈ group.items "required_span_refs", (PyDynamic.text? v).isSome = true := by
  unfold selectionFits at h
  simp only [Bool.and_eq_true] at h
  rcases h with ⟨⟨-, hselected⟩, hrequired⟩
  constructor
  · intro v hv
    have hmem := contains_iff_mem.mp
      (all_eq_true.mp hselected _ (mem_map_of_mem hv))
    rcases mem_map.mp hmem with ⟨s, -, hs⟩
    rw [← hs]
    rfl
  · intro v hv
    exact (Bool.and_eq_true_iff.mp (all_eq_true.mp hrequired _ (mem_map_of_mem hv))).1

section Selecting

variable [LawfulPyDynamic V]

/-- A selection can be written when the refs it copies can. -/
theorem writable_selectionParameters (h : group.selectionFits = true) :
    (∀ p ∈ request.selectionParameters group, p.2.writable = true) ↔ Written group := by
  rcases isSome_of_selectionFits h with ⟨hselected, hrequired⟩
  have hwrites : ∀ items : List V, (∀ v ∈ items, (PyDynamic.text? v).isSome = true) →
      ∀ v ∈ items, (PyDynamic.json? v).isSome = true := fun items hitems v hv =>
    PyDynamic.json?_of_text (hitems v hv)
  unfold selectionParameters Written
  simp only [forall_mem_cons, forall_mem_append, ActionParameter.writable, all_eq_true, true_and]
  constructor
  · rintro ⟨-, -, hlineage, hconflict, -⟩
    exact ⟨hlineage, hconflict⟩
  · rintro ⟨hlineage, hconflict⟩
    exact ⟨hwrites _ hselected, hwrites _ hrequired, hlineage, hconflict,
      nofun⟩

/-- The group is selected from, unless it is claimed. -/
def picks (claimed : List String) (group : ContextGroup V) : Bool :=
  request.selectsSpans group && !claimed.contains (group.groupId sha256)

/-- The selection of the spans of one group. -/
theorem addSelection_eq_ok {c c' : Candidates V} (hgroup : group ∈ request.sourceSnapshot.groups) :
    addSelection request.sourceSnapshot request.policy c group = .ok c' ↔
      (isSelectable request.policy group = true → request.ReadableEvidence group) ∧
      (request.picks c.claimed group = true → Written group) ∧
      c' = if request.picks c.claimed group then c.add (request.selectionOf group) else c := by
  have hclean : CleanRefs ([group.groupId sha256].map some) :=
    request.sourceSnapshot.cleanRefs_of_sublist
      (singleton_sublist.mpr (request.sourceSnapshot.mem_groupIds hgroup))
  by_cases hread : isSelectable request.policy group = true → request.ReadableEvidence group
  · unfold addSelection picks
    rw [request.evidenceSelectionParameters_eq hread, ok_bind]
    cases hselects : request.selectsSpans group with
    | false =>
      exact ⟨fun h => ⟨hread, fun h => absurd h Bool.false_ne_true, (ok_inj h).symm⟩,
        fun h => congrArg Except.ok h.2.2.symm⟩
    | true =>
      have hselectable : isSelectable request.policy group = true :=
        (Bool.and_eq_true_iff.mp hselects).1
      rw [if_pos rfl, Bool.true_and]
      dsimp only
      cases hclaimed : c.claimed.contains (group.groupId sha256) with
      | true =>
        exact ⟨fun h => ⟨hread, fun h => absurd h Bool.false_ne_true, (ok_inj h).symm⟩,
          fun h => congrArg Except.ok h.2.2.symm⟩
      | false =>
        rw [if_neg Bool.false_ne_true, ContextCompactionAction.construct_eq _ _ hclean
          (cons_ne_nil _ _)]
        have hfits : group.selectionFits = true := by
          rw [request.selectsSpans_of_selectable hselectable] at hselects
          exact (Bool.and_eq_true_iff.mp hselects).1
        have hwritable := request.writable_selectionParameters hfits
        by_cases hwritten : Written group
        · rw [if_pos (hwritable.mpr hwritten), ok_bind]
          simp only [Bool.not_false, if_true, Except.ok.injEq]
          exact ⟨fun h => ⟨hread, fun _ => hwritten, h.symm⟩, fun h => h.2.2.symm⟩
        · rw [if_neg (fun h => hwritten (hwritable.mp h)), error_bind]
          constructor
          · intro h
            cases h
          · rintro ⟨-, h, -⟩
            exact absurd (h rfl) hwritten
  · constructor
    · intro h
      obtain ⟨found, hfound, -⟩ := bind_inv h
      exact absurd (request.readable_of_evidenceSelectionParameters hfound) hread
    · rintro ⟨h, -⟩
      exact absurd h hread

/-- The selections of the groups that nothing claimed before. -/
theorem foldlM_addSelection_eq_ok {claimed : List String} {groups : List (ContextGroup V)} :
    ∀ {c c' : Candidates V}, groups ⊆ request.sourceSnapshot.groups →
      (groups.map (groupId sha256)).Nodup →
      (∀ group ∈ groups, group.groupId sha256 ∈ c.claimed ↔ group.groupId sha256 ∈ claimed) →
      (groups.foldlM (addSelection request.sourceSnapshot request.policy) c = .ok c' ↔
        (∀ group ∈ groups, isSelectable request.policy group = true →
          request.ReadableEvidence group) ∧
        (∀ group ∈ groups, request.picks claimed group = true → Written group) ∧
        c' = ⟨c.actions ++ (groups.filter (request.picks claimed)).map request.selectionOf,
          c.claimed ++ (groups.filter (request.picks claimed)).map
            (groupId sha256)⟩) := by
  induction groups with
  | nil =>
    intro c c' _ _ _
    rw [foldlM_nil, filter_nil, map_nil, map_nil, append_nil, append_nil]
    exact ⟨fun h => ⟨fun _ h => absurd h not_mem_nil, fun _ h => absurd h not_mem_nil,
      (ok_inj h).symm⟩, fun h => congrArg Except.ok h.2.2.symm⟩
  | cons group groups ih =>
    intro c c' hsub hdistinct hclaimed
    have hpicks : request.picks c.claimed group = request.picks claimed group := by
      unfold picks
      congr 2
      rw [Bool.eq_iff_iff, contains_iff_mem, contains_iff_mem]
      exact hclaimed group mem_cons_self
    rcases nodup_cons.mp hdistinct with ⟨hnew, hrest⟩
    -- a selection claims no other group
    have hstep : ∀ other ∈ groups, (other.groupId sha256 ∈ (if request.picks claimed group then
        c.add (request.selectionOf group) else c).claimed ↔ other.groupId sha256 ∈ claimed) := by
      intro other hother
      have hne : other.groupId sha256 ≠ group.groupId sha256 := fun h =>
        hnew (h ▸ mem_map_of_mem hother)
      rw [← hclaimed other (mem_cons_of_mem _ hother)]
      split
      · exact ⟨fun h => (mem_append.mp h).resolve_right fun h =>
          hne (mem_singleton.mp h), mem_append_left _⟩
      · rfl
    have ih' := @ih (if request.picks claimed group then c.add (request.selectionOf group) else c)
      c' (fun g hg => hsub (mem_cons_of_mem _ hg)) hrest hstep
    rw [foldlM_cons, bind_eq_ok, forall_mem_cons, forall_mem_cons, filter_cons]
    constructor
    · rintro ⟨c₁, hfirst, hthen⟩
      rcases (request.addSelection_eq_ok (hsub mem_cons_self)).mp hfirst with
        ⟨hread, hwritten, rfl⟩
      rw [hpicks] at hwritten hthen
      rcases ih'.mp hthen with ⟨hreads, hwrites, rfl⟩
      refine ⟨⟨hread, hreads⟩, ⟨hwritten, hwrites⟩, ?_⟩
      cases request.picks claimed group with
      | true => simp [Candidates.add, selectionOf]
      | false => rfl
    · rintro ⟨⟨hread, hreads⟩, ⟨hwritten, hwrites⟩, rfl⟩
      refine ⟨_, (request.addSelection_eq_ok (hsub mem_cons_self)).mpr
        ⟨hread, hpicks ▸ hwritten, rfl⟩, ?_⟩
      rw [hpicks]
      refine ih'.mpr ⟨hreads, hwrites, ?_⟩
      cases request.picks claimed group with
      | true => simp [Candidates.add, selectionOf]
      | false => rfl

end Selecting

/-! ## Old turns -/

/-- The units of a conversation are made of groups, each in its place. -/
theorem flatten_unitsFrom_sublist (groups : List (ContextGroup V)) :
    ∀ current : List String, (unitsFrom sha256 groups current).flatten.Sublist
      (current ++ groups.map (groupId sha256)) := by
  induction groups with
  | nil => exact fun current => nil_sublist _
  | cons group groups ih =>
    intro current
    have hskip : (unitsFrom sha256 groups current).flatten.Sublist
        (current ++ (group :: groups).map (groupId sha256)) :=
      (ih current).trans ((sublist_cons_self _ _).append_left current)
    unfold unitsFrom
    split
    · split
      · exact (ih _).trans (sublist_append_right _ _)
      · split
        · rw [flatten_cons, map_cons, append_assoc]
          exact ((ih []).cons_cons (group.groupId sha256)).append_left current
        · exact hskip
    · split
      · have hnext := ih (current ++ [group.groupId sha256])
        rwa [append_assoc] at hnext
      · exact hskip

theorem sublist_oldTurnGroupIds : (oldTurnGroupIds request.sourceSnapshot request.policy).Sublist
      request.sourceSnapshot.groupIds :=
  filter_sublist.trans (flatten_unitsFrom_sublist request.sourceSnapshot.groups [])

/-- Some of distinct items, in their order, are those that are among them. -/
theorem filter_contains_of_sublist {ids all : List String} (h : ids.Sublist all)
    (hdistinct : all.Nodup) : all.filter ids.contains = ids := by
  induction h with
  | slnil => rfl
  | @cons ids all id h ih =>
    rcases nodup_cons.mp hdistinct with ⟨hnew, hrest⟩
    have hnot : ids.contains id = false := by
      rw [Bool.eq_false_iff]
      exact fun hmem => hnew (h.subset (contains_iff_mem.mp hmem))
    rw [filter_cons, hnot, if_neg Bool.false_ne_true, ih hrest]
  | @cons_cons ids all id h ih =>
    rcases nodup_cons.mp hdistinct with ⟨hnew, hrest⟩
    rw [filter_cons, contains_iff_mem.mpr mem_cons_self, if_pos rfl]
    congr 1
    refine Eq.trans (filter_congr fun other hother => ?_) (ih hrest)
    have hne : other ≠ id := fun heq => hnew (heq ▸ hother)
    rw [Bool.eq_iff_iff, contains_iff_mem, contains_iff_mem, mem_cons, or_iff_right hne]

/-! ## One action type -/

theorem isFree_eq_true {claimed : List String} :
    isFree sha256 request.protectedIds claimed group = true ↔
      request.isOpen group = true ∧ group.groupId sha256 ∉ claimed := by
  unfold isFree isOpen
  simp

variable [Sub C] [DecidableLT C]

theorem writable_classParameters (t : ActionType) :
    ∀ p ∈ request.classParameters t, p.2.writable = true := by
  cases t <;> simp [classParameters, ActionParameter.writable]

theorem found_of_classOf_eq_nil {t : ActionType} (h : request.classOf t = [])
    (done : List ActionType) : request.found (done ++ [t]) = request.found done := by
  have hnone : request.actionsOf t = [] := by
    unfold actionsOf
    rw [h]
    split <;> rfl
  rw [found_append, hnone]
  simp

/-- An action on a whole class. -/
theorem addUnlessEmpty_eq_ok {t : ActionType} (ht : t ≠ .selectEvidenceSpans)
    (done : List ActionType) {P : Prop}
    (parameters : Except CompactionError (PyDict String (ActionParameter V)))
    (hparameters : ∀ ps, parameters = .ok ps ↔ P ∧ ps = request.classParameters t)
    (hnil : request.classOf t = [] → P) {c' : Candidates V} :
    addUnlessEmpty (request.found done) t ((request.classOf t).map (groupId sha256))
      parameters = .ok c' ↔ P ∧ c' = request.found (done ++ [t]) := by
  unfold addUnlessEmpty
  by_cases hempty : request.classOf t = []
  · rw [hempty, map_nil, if_pos rfl, request.found_of_classOf_eq_nil hempty]
    exact ⟨fun h => ⟨hnil hempty, (ok_inj h).symm⟩, fun h => congrArg Except.ok h.2.symm⟩
  · have hne : (request.classOf t).map (groupId sha256) ≠ [] :=
      fun h => hempty (map_eq_nil_iff.mp h)
    have hactions : request.actionsOf t = [⟨t, (request.classOf t).map
        (groupId sha256), request.classParameters t⟩] := by
      unfold actionsOf
      rw [if_neg ht, if_neg hempty]
    rw [if_neg hne, bind_eq_ok, found_append, hactions]
    have hconstruct := ContextCompactionAction.construct_eq t (request.classParameters t)
      (request.sourceSnapshot.cleanRefs_of_sublist (request.sublist_classOf t)) hne
    rw [if_pos (request.writable_classParameters t)] at hconstruct
    constructor
    · rintro ⟨ps, hps, h⟩
      rcases (hparameters ps).mp hps with ⟨hP, rfl⟩
      rw [hconstruct, ok_bind] at h
      refine ⟨hP, (ok_inj h).symm.trans ?_⟩
      simp [Candidates.add]
    · rintro ⟨hP, rfl⟩
      refine ⟨_, (hparameters _).mpr ⟨hP, rfl⟩, ?_⟩
      rw [hconstruct, ok_bind]
      simp [Candidates.add]

/-- What one action type looks at can be read. -/
def ReadableAt (t : ActionType) : Prop :=
  match t with
  | .reduceAuthorizedToolSet => ComparableTools request.sourceSnapshot.groups ∧
    ∀ group ∈ request.classOf .reduceAuthorizedToolSet,
      (group.semanticMetadata.get? "tool_id").isSome = true ∧
      (group.semanticMetadata.get? "authorization_ref").isSome = true
  | .selectEvidenceSpans => (∀ group ∈ request.sourceSnapshot.groups,
      isSelectable request.policy group = true → request.ReadableEvidence group) ∧
    ∀ group ∈ request.classOf .selectEvidenceSpans, Written group
  | _ => True

theorem addUnlessEmpty_found {t : ActionType} (ht : t ≠ .selectEvidenceSpans)
    (done : List ActionType) {c' : Candidates V} :
    addUnlessEmpty (request.found done) t ((request.classOf t).map (groupId sha256))
      (.ok (request.classParameters t)) = .ok c' ↔ c' = request.found (done ++ [t]) := by
  have h := @addUnlessEmpty_eq_ok _ _ _ _ _ _ request _ _ t ht done True
    (.ok (request.classParameters t))
    (fun ps => ⟨fun h => ⟨trivial, (ok_inj h).symm⟩, fun h => congrArg Except.ok h.2.symm⟩)
    (fun _ => trivial) c'
  rwa [true_and] at h

theorem affords_summarize : request.affords .summarizeGroups = true ↔
    ¬ (request.remaining.summaryCalls < 1 ∨ request.remaining.llmCalls < 1 ∨
      ¬ 0 < request.remaining.costUsd) := by
  simp [affords, Nat.one_le_iff_ne_zero, and_assoc]

section Step

variable {done rest : List ActionType} {c' : Candidates V}

theorem addCandidates_drop
    (horder : request.policy.actionOrder = done ++ .dropReconstructableGroup :: rest) :
    addCandidates request.sourceSnapshot request.policy request.remaining request.protectedIds
        (request.found done) .dropReconstructableGroup = .ok c' ↔
      c' = request.found (done ++ [.dropReconstructableGroup]) := by
  have hclass := request.filter_eq_classOf horder rfl (fun group =>
      group.groupKind == .reconstructable && group.hasReconstruction &&
        isFree sha256 request.protectedIds (request.found done).claimed group) (by
    intro group
    simp only [Bool.and_eq_true, request.isFree_eq_true, eligible]
    tauto)
  unfold addCandidates addReferenceAction
  dsimp only
  rw [hclass]
  exact request.addUnlessEmpty_found (by decide) done

theorem addCandidates_replace
    (horder : request.policy.actionOrder = done ++ .replaceWithReference :: rest) :
    addCandidates request.sourceSnapshot request.policy request.remaining request.protectedIds
        (request.found done) .replaceWithReference = .ok c' ↔
      c' = request.found (done ++ [.replaceWithReference]) := by
  have hclass := request.filter_eq_classOf horder rfl (fun group =>
      group.groupKind != .reconstructable && group.groupKind != .authorizedToolSchema &&
        group.hasReconstruction &&
          isFree sha256 request.protectedIds (request.found done).claimed group) (by
    intro group
    simp only [Bool.and_eq_true, request.isFree_eq_true, eligible]
    tauto)
  unfold addCandidates addReferenceAction
  dsimp only
  rw [hclass]
  exact request.addUnlessEmpty_found (by decide) done

theorem addCandidates_reduce
    (horder : request.policy.actionOrder = done ++ .reduceAuthorizedToolSet :: rest) :
    addCandidates request.sourceSnapshot request.policy request.remaining request.protectedIds
        (request.found done) .reduceAuthorizedToolSet = .ok c' ↔
      request.ReadableAt .reduceAuthorizedToolSet ∧
        c' = request.found (done ++ [.reduceAuthorizedToolSet]) := by
  have hclass := request.filter_eq_classOf horder rfl (isReducible sha256
      (pendingToolNames request.sourceSnapshot) request.protectedIds
        (request.found done).claimed) (by
    intro group
    unfold isReducible
    simp only [Bool.and_eq_true, request.isFree_eq_true, eligible, hasPendingTool,
      decide_eq_true_eq, beq_iff_eq]
    tauto)
  unfold addCandidates
  by_cases htools : ComparableTools request.sourceSnapshot.groups
  · rw [reducibleTools_eq _ _ _ htools, ok_bind, hclass]
    have hstep := @addUnlessEmpty_eq_ok _ _ _ _ _ _ request _ _ .reduceAuthorizedToolSet
      (by decide) done
      (∀ group ∈ request.classOf .reduceAuthorizedToolSet,
        (group.semanticMetadata.get? "tool_id").isSome = true ∧
        (group.semanticMetadata.get? "authorization_ref").isSome = true)
      (toolParameters (request.classOf .reduceAuthorizedToolSet)) (by
        intro ps
        constructor
        · intro h
          have hkeys := isSome_of_toolParameters h
          rw [toolParameters_eq hkeys] at h
          exact ⟨hkeys, (ok_inj h).symm⟩
        · rintro ⟨hkeys, rfl⟩
          exact toolParameters_eq hkeys)
      (fun hnil group hgroup => absurd (hnil ▸ hgroup) not_mem_nil) c'
    rw [hstep]
    exact and_congr_left fun _ => ⟨fun h => ⟨htools, h⟩, fun h => h.2⟩
  · constructor
    · intro h
      obtain ⟨targets, htargets, -⟩ := bind_inv h
      exact absurd (comparable_of_reducibleTools _ _ _ htargets) htools
    · rintro ⟨⟨h, -⟩, -⟩
      exact absurd h htools

theorem addCandidates_compact
    (horder : request.policy.actionOrder = done ++ .compactOldConversation :: rest) :
    addCandidates request.sourceSnapshot request.policy request.remaining request.protectedIds
        (request.found done) .compactOldConversation = .ok c' ↔
      c' = request.found (done ++ [.compactOldConversation]) := by
  have hclass := request.filter_eq_classOf horder rfl (fun group =>
      (oldTurnGroupIds request.sourceSnapshot request.policy).contains (group.groupId sha256) &&
        isFree sha256 request.protectedIds (request.found done).claimed group) (by
    intro group
    simp only [Bool.and_eq_true, request.isFree_eq_true, eligible]
    tauto)
  have hold := filter_contains_of_sublist request.sublist_oldTurnGroupIds
    request.sourceSnapshot.nodup_groupIds
  have htargets : (oldTurnGroupIds request.sourceSnapshot request.policy).filter (fun id =>
      !request.protectedIds.contains id && !(request.found done).claimed.contains id) =
        (request.classOf .compactOldConversation).map (groupId sha256) := by
    rw [← hclass]
    conv_lhs => rw [← hold]
    rw [filter_filter]
    unfold ContextSemanticSnapshot.groupIds
    rw [filter_map]
    congr 1
    refine filter_congr fun group _ => ?_
    rw [Function.comp_apply, Bool.and_comm]
    rfl
  unfold addCandidates
  rw [htargets]
  exact request.addUnlessEmpty_found (by decide) done

theorem addCandidates_summarize
    (horder : request.policy.actionOrder = done ++ .summarizeGroups :: rest) :
    addCandidates request.sourceSnapshot request.policy request.remaining request.protectedIds
        (request.found done) .summarizeGroups = .ok c' ↔
      c' = request.found (done ++ [.summarizeGroups]) := by
  unfold addCandidates
  dsimp only
  cases haffords : request.affords .summarizeGroups with
  | false =>
    have hbudget : request.remaining.summaryCalls < 1 ∨ request.remaining.llmCalls < 1 ∨
        ¬ 0 < request.remaining.costUsd := by
      by_contra h
      rw [request.affords_summarize.mpr h] at haffords
      cases haffords
    have hnil : request.classOf .summarizeGroups = [] := by
      refine filter_eq_nil_iff.mpr fun group _ howner => ?_
      rcases (request.owner_eq_some_iff horder group).mp (beq_iff_eq.mp howner) with ⟨h, -⟩
      rw [haffords] at h
      cases h
    rw [if_pos hbudget, request.found_of_classOf_eq_nil hnil]
    exact ⟨fun h => (ok_inj h).symm, fun h => congrArg Except.ok h.symm⟩
  | true =>
    have hbudget := request.affords_summarize.mp haffords
    have hclass := request.filter_eq_classOf horder haffords (fun group =>
        isFree sha256 request.protectedIds (request.found done).claimed group &&
          group.summaryEligible) (by
      intro group
      simp only [Bool.and_eq_true, request.isFree_eq_true, eligible]
      tauto)
    rw [if_neg hbudget, hclass]
    exact request.addUnlessEmpty_found (by decide) done

theorem addCandidates_select [LawfulPyDynamic V]
    (horder : request.policy.actionOrder = done ++ .selectEvidenceSpans :: rest) :
    addCandidates request.sourceSnapshot request.policy request.remaining request.protectedIds
        (request.found done) .selectEvidenceSpans = .ok c' ↔
      request.ReadableAt .selectEvidenceSpans ∧
        c' = request.found (done ++ [.selectEvidenceSpans]) := by
  have hclass := request.filter_eq_classOf horder rfl
    (request.picks (request.found done).claimed) (by
      intro group
      unfold picks
      rw [Bool.and_eq_true, Bool.not_eq_true', ← Bool.not_eq_true, contains_iff_mem]
      rfl)
  have hactions : request.actionsOf .selectEvidenceSpans =
      (request.classOf .selectEvidenceSpans).map request.selectionOf := if_pos rfl
  have hpicked : (∀ group ∈ request.sourceSnapshot.groups,
      request.picks (request.found done).claimed group = true → Written group) ↔
        ∀ group ∈ request.classOf .selectEvidenceSpans, Written group := by
    rw [← hclass]
    simp only [mem_filter, and_imp]
  have hfold := @foldlM_addSelection_eq_ok _ _ _ _ _ _ request _ (request.found done).claimed
    request.sourceSnapshot.groups (request.found done) c' (List.Subset.refl _) request.sourceSnapshot.nodup_groupIds (fun _ _ => Iff.rfl)
  rw [hclass, hpicked] at hfold
  unfold addCandidates
  rw [hfold, found_append, targets_actionsOf, hactions, ← and_assoc]
  rfl

/-- The step: an action type whose metadata can be read makes its actions. -/
theorem addCandidates_eq_ok [LawfulPyDynamic V] {t : ActionType}
    (horder : request.policy.actionOrder = done ++ t :: rest) :
    addCandidates request.sourceSnapshot request.policy request.remaining request.protectedIds
        (request.found done) t = .ok c' ↔
      request.ReadableAt t ∧ c' = request.found (done ++ [t]) := by
  cases t with
  | dropReconstructableGroup =>
    exact (request.addCandidates_drop horder).trans (iff_and_self.mpr fun _ => trivial)
  | replaceWithReference =>
    exact (request.addCandidates_replace horder).trans (iff_and_self.mpr fun _ => trivial)
  | reduceAuthorizedToolSet => exact request.addCandidates_reduce horder
  | selectEvidenceSpans => exact request.addCandidates_select horder
  | compactOldConversation =>
    exact (request.addCandidates_compact horder).trans (iff_and_self.mpr fun _ => trivial)
  | summarizeGroups =>
    exact (request.addCandidates_summarize horder).trans (iff_and_self.mpr fun _ => trivial)

end Step

/-! ## All action types -/

/-- The run: the types of a policy in turn. -/
theorem foldlM_addCandidates_eq_ok [LawfulPyDynamic V] {rest : List ActionType} :
    ∀ (done : List ActionType) {c' : Candidates V}, request.policy.actionOrder = done ++ rest →
        (rest.foldlM (addCandidates request.sourceSnapshot request.policy request.remaining
            request.protectedIds) (request.found done) = .ok c' ↔
          (∀ t ∈ rest, request.ReadableAt t) ∧ c' = request.found (done ++ rest)) := by
  induction rest with
  | nil =>
    intro done c' _
    rw [foldlM_nil, append_nil]
    exact ⟨fun h => ⟨nofun, (ok_inj h).symm⟩,
      fun h => congrArg Except.ok h.2.symm⟩
  | cons t rest ih =>
    intro done c' horder
    have hnext : request.policy.actionOrder = (done ++ [t]) ++ rest := by
      rw [horder, append_assoc, singleton_append]
    rw [foldlM_cons, bind_eq_ok, forall_mem_cons]
    constructor
    · rintro ⟨c, hfirst, hthen⟩
      rcases (request.addCandidates_eq_ok horder).mp hfirst with ⟨hread, rfl⟩
      rcases (ih (done ++ [t]) hnext).mp hthen with ⟨hreads, rfl⟩
      exact ⟨⟨hread, hreads⟩, by rw [append_assoc, singleton_append]⟩
    · rintro ⟨⟨hread, hreads⟩, rfl⟩
      refine ⟨_, (request.addCandidates_eq_ok horder).mpr ⟨hread, rfl⟩, ?_⟩
      exact (ih (done ++ [t]) hnext).mpr ⟨hreads, by rw [append_assoc, singleton_append]⟩

theorem readable_iff : request.Readable ↔
    ∀ t ∈ request.policy.actionOrder, request.ReadableAt t := by
  constructor
  · intro h t ht
    cases t with
    | reduceAuthorizedToolSet => exact ⟨h.tools ht, h.keys⟩
    | selectEvidenceSpans => exact ⟨h.evidence ht, h.written⟩
    | _ => trivial
  · intro h
    refine ⟨fun ht => (h _ ht).1, fun group hgroup => ?_, fun ht => (h _ ht).1,
      fun group hgroup => ?_⟩
    · by_cases ht : ActionType.reduceAuthorizedToolSet ∈ request.policy.actionOrder
      · exact (h _ ht).2 group hgroup
      · rw [request.classOf_eq_nil ht] at hgroup
        cases hgroup
    · by_cases ht : ActionType.selectEvidenceSpans ∈ request.policy.actionOrder
      · exact (h _ ht).2 group hgroup
      · rw [request.classOf_eq_nil ht] at hgroup
        cases hgroup

/-- The candidates are found exactly when the metadata can be read, and then they are the
actions on the classes. -/
theorem candidateActions_eq_ok [LawfulPyDynamic V] {actions : List (ContextCompactionAction V)} :
    candidateActions request.sourceSnapshot request.policy request.remaining
        request.protectedIds = .ok actions ↔
      request.Readable ∧ actions = request.policy.actionOrder.flatMap request.actionsOf := by
  unfold candidateActions
  rw [bind_eq_ok, readable_iff]
  constructor
  · rintro ⟨c, hfold, hactions⟩
    rcases (request.foldlM_addCandidates_eq_ok [] rfl).mp hfold with ⟨hread, rfl⟩
    exact ⟨hread, (ok_inj hactions).symm⟩
  · rintro ⟨hread, rfl⟩
    exact ⟨_, (request.foldlM_addCandidates_eq_ok [] rfl).mpr ⟨hread, rfl⟩, rfl⟩

end ContextCompactionPlanningRequest

end ContextCompaction
