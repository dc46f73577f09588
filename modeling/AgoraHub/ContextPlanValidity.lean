/-
# When the validator accepts a plan

An action on a class passes the validator exactly when the refs among its parameters are
clean.  A plan made of such actions, in the order of the policy, passes when each of them
does.
-/
import AgoraHub.ContextCandidateRuns
import AgoraHub.KeyedList

namespace ContextCompaction

open Fallible ContextCompactionPlanValidator List ContextGroup

variable {sha256 : String → HexDigest} {V : Type} [PyDynamic V]
variable {C : Type} [Zero C] [LT C]

/-! ## Refs among the parameters -/

namespace ContextCompactionAction

variable (action : ContextCompactionAction V) (name : String)

omit [PyDynamic V] in
theorem parameter_eq {value : ActionParameter V} (h : action.parameters.get? name = some value) :
    action.parameter name = .ok value := by
  unfold parameter
  rw [h, orRaise_some]

/-- The texts of a parameter that has the expected ones pass when they are clean. -/
theorem assertParameterRefs_eq_ok (value : ActionParameter V) (values : List (Option String))
    (hget : action.parameters.get? name = some value)
    (hvalue : value.textTuple name = textTuple values name) :
    action.assertParameterRefs name values = .ok () ↔ CleanRefs values := by
  unfold assertParameterRefs parameterTextTuple
  rw [parameter_eq action name hget, ok_bind, hvalue]
  constructor
  · intro h
    obtain ⟨refs, hrefs, hsame⟩ := bind_inv h
    exact clean_of_textTuple hrefs (of_require hsame)
  · intro h
    rcases textTuple_of_clean h name false (fun h => absurd h Bool.false_ne_true) with
      ⟨refs, hrefs, hsame⟩
    rw [hrefs, ok_bind, require_of_pos _ hsame]

end ContextCompactionAction

theorem textTuple_texts (refs : List Ref) (name : String) :
    (ActionParameter.texts (refs.map Ref.val) : ActionParameter V).textTuple name =
      textTuple (refs.map fun ref => some ref.val) name := by
  unfold ActionParameter.textTuple
  dsimp only
  rw [map_map]
  rfl

theorem ContextLossRisk.value_injective : Function.Injective ContextLossRisk.value := by
  intro a b h
  cases a <;> cases b <;> first | rfl | exact absurd h (by decide)

theorem cleanRefs_risks {risks : List ContextLossRisk} (h : risks.Nodup) :
    CleanRefs ((risks.map ContextLossRisk.value).map some) := by
  refine ⟨fun value hvalue => ?_,
    (h.map ContextLossRisk.value_injective).map (Option.some_injective _)⟩
  rcases mem_map.mp hvalue with ⟨text, htext, rfl⟩
  rcases mem_map.mp htext with ⟨risk, -, rfl⟩
  refine ⟨_, rfl, ?_⟩
  cases risk <;> decide

namespace ContextCompactionPlanningRequest

variable (request : ContextCompactionPlanningRequest sha256 C V)

/-! ## Targets -/

/-- The groups of the identities of some groups are these groups. -/
theorem mapM_groupById {groups : List (ContextGroup V)}
    (h : groups ⊆ request.sourceSnapshot.groups) :
    (groups.map (groupId sha256)).mapM (groupById request.sourceSnapshot) =
      .ok groups := by
  induction groups with
  | nil => rfl
  | cons group groups ih =>
    have hgroup := h mem_cons_self
    have hfind : request.sourceSnapshot.groups.find? (fun other =>
        other.groupId sha256 == group.groupId sha256) = some group :=
      KeyedList.find?_of_unique hgroup (beq_self_eq_true _) fun _ hother hid =>
        request.sourceSnapshot.eq_of_groupId hother hgroup (beq_iff_eq.mp hid)
    rw [map_cons, mapM_cons, groupById, hfind, orRaise_some, ok_bind,
      ih fun g hg => h (mem_cons_of_mem _ hg), ok_bind]
    rfl

variable [Sub C] [DecidableLT C]

theorem classOf_subset (t : ActionType) :
    request.classOf t ⊆ request.sourceSnapshot.groups := fun _ h =>
  (request.mem_classOf.mp h).1

variable {t : ActionType}

theorem eligible_of_mem_classOf {group : ContextGroup V} (h : group ∈ request.classOf t) :
    request.affords t = true ∧
      request.eligible t group = true := by
  have hfound := find?_some (request.mem_classOf.mp h).2
  exact Bool.and_eq_true_iff.mp hfound

theorem mem_order_of_mem_classOf {group : ContextGroup V} (h : group ∈ request.classOf t) :
    t ∈ request.policy.actionOrder :=
  mem_of_find?_eq_some (request.mem_classOf.mp h).2

omit [Sub C] [DecidableLT C] in
/-- Only a selection of spans may be about a protected group. -/
theorem isOpen_of_eligible {t : ActionType} (ht : t ≠ .selectEvidenceSpans)
    {group : ContextGroup V} (h : request.eligible t group = true) :
    group.groupId sha256 ∉ request.protectedIds := by
  have hopen : request.isOpen group = true := by
    cases t with
    | selectEvidenceSpans => exact absurd rfl ht
    | _ =>
      simp only [eligible, Bool.and_eq_true] at h
      tauto
  unfold isOpen at hopen
  intro hmem
  rw [contains_iff_mem.mpr hmem] at hopen
  cases hopen

/-! ## Clean actions -/

/-- The refs of an action on a whole class are clean. -/
def ClassClean (t : ActionType) : Prop :=
  match t with
  | .dropReconstructableGroup | .replaceWithReference =>
    ((request.classOf t).map reconstructionText).Nodup
  | .reduceAuthorizedToolSet =>
    CleanRefs ((request.classOf t).map fun group => some (group.fieldStr "tool_id")) ∧
    CleanRefs ((request.classOf t).map fun group => some (group.fieldStr "authorization_ref"))
  | _ => True

/-- The refs of the selection of the spans of a group are clean. -/
def EvidenceClean (group : ContextGroup V) : Prop :=
  CleanRefs (group.itemTexts "selected_span_refs") ∧
    CleanRefs (group.itemTexts "required_span_refs") ∧
    CleanRefs (group.itemTexts "lineage_refs") ∧ CleanRefs (group.itemTexts "conflict_refs")

/-- The action on a whole class. -/
def classAction (t : ActionType) : ContextCompactionAction V :=
  ⟨t, (request.classOf t).map (groupId sha256), request.classParameters t⟩

/-- The recorded ways back to groups that have one. -/
theorem reconstructionRefs_eq {groups : List (ContextGroup V)}
    (h : ∀ group ∈ groups, group.hasReconstruction = true) :
    reconstructionRefs groups = (groups.map reconstructionText).map some ∧
      ((groups.map reconstructionText).Nodup ↔
        CleanRefs (reconstructionRefs groups)) := by
  have hsame : reconstructionRefs groups =
      (groups.map reconstructionText).map some := by
    unfold reconstructionRefs
    rw [map_map]
    refine map_congr_left fun group hgroup => ?_
    have hsome := (Bool.and_eq_true_iff.mp (h group hgroup)).2
    rcases Option.isSome_iff_exists.mp hsome with ⟨ref, href⟩
    simp only [reconstructionText, href, Option.map_some, Function.comp_apply,
      Option.getD_some]
  refine ⟨hsame, ?_⟩
  rw [hsame]
  constructor
  · intro hdistinct
    refine ⟨fun value hvalue => ?_, hdistinct.map (Option.some_injective _)⟩
    rcases mem_map.mp hvalue with ⟨text, htext, rfl⟩
    rcases mem_map.mp htext with ⟨group, hgroup, rfl⟩
    have hsome := (Bool.and_eq_true_iff.mp (h group hgroup)).2
    rcases Option.isSome_iff_exists.mp hsome with ⟨ref, href⟩
    refine ⟨_, rfl, ?_⟩
    simp only [reconstructionText, href, Option.map_some, Option.getD_some]
    exact ⟨ref.trimmed, ref.nonempty⟩
  · exact fun hclean => List.Nodup.of_map _ hclean.2

theorem hasReconstruction_of_mem (ht : t = .dropReconstructableGroup ∨ t = .replaceWithReference)
    {group : ContextGroup V} (h : group ∈ request.classOf t) : group.hasReconstruction = true := by
  have heligible := (request.eligible_of_mem_classOf h).2
  rcases ht with rfl | rfl
  · exact (Bool.and_eq_true_iff.mp heligible).2
  · exact (Bool.and_eq_true_iff.mp heligible).2

/-- The refs of a reference action pass when no two groups have the same. -/
theorem assert_reconstructionRefs (ht : t = .dropReconstructableGroup ∨ t = .replaceWithReference) :
    (request.classAction t).assertParameterRefs "reconstruction_refs"
        (reconstructionRefs (request.classOf t)) = .ok () ↔
      ((request.classOf t).map reconstructionText).Nodup := by
  rcases reconstructionRefs_eq fun group hgroup => request.hasReconstruction_of_mem ht hgroup with
    ⟨hsame, hclean⟩
  rw [hclean]
  refine ContextCompactionAction.assertParameterRefs_eq_ok _ _ (.texts
    ((request.classOf t).map reconstructionText)) _ ?_ ?_
  · rcases ht with rfl | rfl
    · rfl
    · rfl
  · rw [hsame]
    rfl

/-- The refs of a tool reduction pass when they are clean. -/
theorem validateToolReduction_eq_ok (hread : request.ReadableAt .reduceAuthorizedToolSet) :
    validateToolReduction request.sourceSnapshot (request.classAction .reduceAuthorizedToolSet)
        (request.classOf .reduceAuthorizedToolSet) = .ok () ↔
      request.ClassClean .reduceAuthorizedToolSet := by
  rcases hread with ⟨htools, hkeys⟩
  have hstays : anyStays (pendingToolNames request.sourceSnapshot)
      (request.classOf .reduceAuthorizedToolSet) = .ok false := by
    have hclass : ∀ group ∈ request.classOf .reduceAuthorizedToolSet,
        mustStay (pendingToolNames request.sourceSnapshot) group = .ok false := by
      intro group hgroup
      have heligible := (request.eligible_of_mem_classOf hgroup).2
      simp only [eligible, Bool.and_eq_true, beq_iff_eq, Bool.not_eq_true'] at heligible
      rcases heligible with ⟨⟨⟨-, hkind⟩, hreachable⟩, hpending⟩
      unfold mustStay
      rw [if_neg (by simp [hkind, hreachable]), toolIsPending_eq
        (htools group (request.classOf_subset _ hgroup) hkind hreachable)]
      exact congrArg Except.ok hpending
    generalize request.classOf .reduceAuthorizedToolSet = groups at hclass
    induction groups with
    | nil => rfl
    | cons group groups ih =>
      unfold anyStays
      rw [hclass group mem_cons_self, ok_bind, if_neg Bool.false_ne_true]
      exact ih fun g hg => hclass g (mem_cons_of_mem _ hg)
  have hids := (request.classAction .reduceAuthorizedToolSet).assertParameterRefs_eq_ok
    "tool_ids" (.texts ((request.classOf .reduceAuthorizedToolSet).map
      (fieldStr · "tool_id"))) _ rfl rfl
  have hrefs := (request.classAction .reduceAuthorizedToolSet).assertParameterRefs_eq_ok
    "authorization_refs" (.texts ((request.classOf .reduceAuthorizedToolSet).map
      (fieldStr · "authorization_ref"))) _ rfl rfl
  unfold validateToolReduction
  rw [hstays, ok_bind, check_of_pos rfl,
    mapM_metadataStr fun g hg => (hkeys g hg).1, ok_bind, check_bind_eq_ok, hids,
    mapM_metadataStr fun g hg => (hkeys g hg).2, ok_bind, hrefs]
  unfold ClassClean
  rw [map_map, map_map]
  rfl

omit [Zero C] [LT C] [Sub C] [DecidableLT C] in
/-- The units of a conversation are made of turns and of complete tool transactions. -/
theorem exists_of_mem_unitsFrom (groups : List (ContextGroup V)) :
    ∀ current : List String, ∀ id ∈ (unitsFrom sha256 groups current).flatten,
      id ∈ current ∨ ∃ group ∈ groups, group.groupId sha256 = id ∧
        (group.groupKind = .conversationTurn ∨
          group.groupKind = .toolTransaction ∧ group.toolTransactionState = .completed) := by
  induction groups with
  | nil => exact fun _ _ h => absurd h not_mem_nil
  | cons group groups ih =>
    intro current id hid
    -- a group that is not the first
    have hlater : ∀ {current}, id ∈ (unitsFrom sha256 groups current).flatten →
        id ∈ current ∨ ∃ other ∈ group :: groups, other.groupId sha256 = id ∧
          (other.groupKind = .conversationTurn ∨
            other.groupKind = .toolTransaction ∧ other.toolTransactionState = .completed) := by
      intro current h
      rcases ih current id h with h | ⟨other, hother, h⟩
      · exact Or.inl h
      · exact Or.inr ⟨other, mem_cons_of_mem _ hother, h⟩
    unfold unitsFrom at hid
    split at hid
    · rename_i hturn
      split at hid
      · rcases hlater hid with h | h
        · exact Or.inr ⟨group, mem_cons_self, (mem_singleton.mp h).symm, Or.inl hturn⟩
        · exact Or.inr h
      · split at hid
        · rw [flatten_cons, mem_append, mem_append] at hid
          rcases hid with (h | h) | h
          · exact Or.inl h
          · exact Or.inr ⟨group, mem_cons_self, (mem_singleton.mp h).symm, Or.inl hturn⟩
          · exact Or.inr ((hlater h).resolve_left not_mem_nil)
        · exact hlater hid
    · split at hid
      · rename_i htool
        rcases hlater hid with h | h
        · rcases mem_append.mp h with h | h
          · exact Or.inl h
          · exact Or.inr ⟨group, mem_cons_self, (mem_singleton.mp h).symm,
              Or.inr ⟨htool.1, htool.2.1⟩⟩
        · exact Or.inr h
      · exact hlater hid

/-- What a compaction of old turns is about: complete turns that are not recent. -/
theorem old_of_mem_classOf {group : ContextGroup V}
    (h : group ∈ request.classOf .compactOldConversation) :
    (group.groupKind = .conversationTurn ∨ group.groupKind = .toolTransaction) ∧
      group.groupId sha256 ∉ recentCompleteTailGroupIds request.sourceSnapshot
        request.policy.keepRecentCompleteTurns ∧
      (group.groupKind = .toolTransaction → group.toolTransactionState = .completed) := by
  have heligible := (Bool.and_eq_true_iff.mp (request.eligible_of_mem_classOf h).2).2
  rcases mem_filter.mp (contains_iff_mem.mp heligible) with ⟨hunit, hrecent⟩
  rcases exists_of_mem_unitsFrom _ _ _ hunit with h' | ⟨other, hother, hid, hkind⟩
  · cases h'
  obtain rfl := request.sourceSnapshot.eq_of_groupId hother (request.classOf_subset _ h) hid
  refine ⟨?_, fun hmem => ?_, fun htool => ?_⟩
  · rcases hkind with hkind | ⟨hkind, -⟩
    · exact Or.inl hkind
    · exact Or.inr hkind
  · rw [contains_iff_mem.mpr hmem] at hrecent
    cases hrecent
  · rcases hkind with hkind | ⟨-, hstate⟩
    · rw [hkind] at htool
      cases htool
    · exact hstate

/-- An action on a class passes when its refs are clean. -/
theorem validateAction_eq_ok (ht : t ≠ .selectEvidenceSpans) (hread : request.ReadableAt t) :
    validateAction request.sourceSnapshot request.policy request.protectedIds
        (request.classAction t) (request.classOf t) = .ok () ↔ request.ClassClean t := by
  have hopen : ∀ group ∈ request.classOf t, group.groupId sha256 ∉ request.protectedIds :=
    fun group hgroup => request.isOpen_of_eligible ht (request.eligible_of_mem_classOf hgroup).2
  unfold validateAction
  rw [if_neg (show ¬ (request.classAction t).actionType = _ from ht), check_of_pos hopen]
  unfold validateUnprotected
  cases t with
  | selectEvidenceSpans => exact absurd rfl ht
  | dropReconstructableGroup =>
    have hall : ∀ group ∈ request.classOf .dropReconstructableGroup,
        group.groupKind = .reconstructable ∧ group.hasReconstruction = true := by
      intro group hgroup
      have heligible := (request.eligible_of_mem_classOf hgroup).2
      simp only [eligible, Bool.and_eq_true, beq_iff_eq] at heligible
      exact ⟨heligible.1.2, heligible.2⟩
    dsimp only [classAction]
    rw [check_of_pos hall]
    exact request.assert_reconstructionRefs (Or.inl rfl)
  | replaceWithReference =>
    have hall : ∀ group ∈ request.classOf .replaceWithReference,
        group.hasReconstruction = true := fun group hgroup =>
      request.hasReconstruction_of_mem (Or.inr rfl) hgroup
    dsimp only [classAction]
    rw [check_of_pos hall]
    exact request.assert_reconstructionRefs (Or.inr rfl)
  | reduceAuthorizedToolSet => exact request.validateToolReduction_eq_ok hread
  | compactOldConversation =>
    have hall : ∀ group ∈ request.classOf .compactOldConversation, _ := fun group hgroup =>
      request.old_of_mem_classOf hgroup
    have hids := (request.classAction .compactOldConversation).assertParameterRefs_eq_ok
      "complete_turn_group_ids" (.texts ((request.classOf .compactOldConversation).map
        (groupId sha256))) _ rfl rfl
    have hclean := request.sourceSnapshot.cleanRefs_of_sublist
      (request.sublist_classOf .compactOldConversation)
    have hkeep : (request.classAction .compactOldConversation).parameter
        "keep_recent_complete_turns" = .ok (.count request.policy.keepRecentCompleteTurns) := rfl
    dsimp only [classAction]
    dsimp only [classAction] at hids hkeep
    rw [check_of_pos hall, hids.mpr hclean, ok_bind, hkeep, ok_bind]
    exact ⟨fun _ => trivial, fun _ => require_of_pos _ (beq_self_eq_true _)⟩
  | summarizeGroups =>
    have hrisks : CleanRefs ((request.policy.allowedLossRisks.map
        ContextLossRisk.value).map some) := cleanRefs_risks request.policy.risks_distinct
    rcases textTuple_of_clean hrisks "allowed_loss_risks" false
      (fun h => absurd h Bool.false_ne_true) with ⟨refs, hrefs, hsame⟩
    have hparameter : (request.classAction .summarizeGroups).parameterTextTuple
        "allowed_loss_risks" = .ok refs := hrefs
    have hmap : refs.map Ref.val = request.policy.allowedLossRisks.map ContextLossRisk.value := by
      refine map_injective_iff.mpr (Option.some_injective _) ?_
      rw [← hsame, map_map]
      rfl
    dsimp only [classAction]
    dsimp only [classAction] at hparameter
    rw [hparameter, ok_bind]
    exact ⟨fun _ => trivial, fun _ => require_of_pos _ hmap⟩

/-! ## Selections -/

section Evidence

variable {group : ContextGroup V}

theorem expectedRefs_eq {name : String} (h : group.Iterable name) :
    expectedRefs group name = .ok (group.itemTexts name) := by
  unfold expectedRefs
  rw [iterate_of_iterable h, ok_bind]
  rfl

/-- A selection of the spans of a group passes when its refs are clean. -/
theorem validateEvidenceGroup_eq_ok (hgroup : group ∈ request.classOf .selectEvidenceSpans)
    (hread : request.ReadableAt .selectEvidenceSpans) :
    validateEvidenceGroup request.sourceSnapshot request.policy (request.selectionOf group)
      group = .ok () ↔ EvidenceClean group := by
  have hselects : request.selectsSpans group = true := (request.eligible_of_mem_classOf hgroup).2
  have hselectable : isSelectable request.policy group = true :=
    (Bool.and_eq_true_iff.mp hselects).1
  have hevidence := hread.1 group (request.classOf_subset _ hgroup) hselectable
  rcases hevidence.lineage hselects with ⟨hlineage, hconflict⟩
  rw [request.selectsSpans_of_selectable hselectable, Bool.and_eq_true, beq_iff_eq] at hselects
  rcases hselects with ⟨hfits, hquery⟩
  unfold isSelectable at hselectable
  simp only [Bool.and_eq_true, beq_iff_eq, Bool.not_eq_true', contains_eq_mem,
    decide_eq_false_iff_not] at hselectable
  rcases hselectable with ⟨⟨⟨hkind, hpolicy⟩, hreasons⟩, hwhole⟩
  unfold selectionFits at hfits
  simp only [Bool.and_eq_true] at hfits
  rcases hfits with ⟨⟨⟨hempty, -⟩, hknown⟩, hkept⟩
  -- what is read back from the parameters
  have hselectedRefs : (request.selectionOf group).parameterTextTuple "selected_span_refs" =
      textTuple (group.itemTexts "selected_span_refs") "selected_span_refs" := rfl
  have hrequiredRefs : (request.selectionOf group).parameterTextTuple "required_span_refs" =
      textTuple (group.itemTexts "required_span_refs") "required_span_refs" := rfl
  have hbinding : parameterText (request.selectionOf group) "query_binding_ref" =
      .ok request.sourceSnapshot.taskBindingRef :=
    requiredText_of_trimmed request.sourceSnapshot.taskBindingRef.trimmed
      request.sourceSnapshot.taskBindingRef.nonempty
  have hsources := (request.selectionOf group).assertParameterRefs_eq_ok "source_refs"
    (.texts (group.sourceRefs.map Ref.val)) _ rfl (textTuple_texts group.sourceRefs _)
  have hcitations := (request.selectionOf group).assertParameterRefs_eq_ok
    "required_citation_refs" (.texts (group.requiredCitationRefs.map Ref.val)) _ rfl
    (textTuple_texts group.requiredCitationRefs _)
  have hlineageRefs := (request.selectionOf group).assertParameterRefs_eq_ok "lineage_refs"
    (.values (group.items "lineage_refs")) (group.itemTexts "lineage_refs") rfl rfl
  have hconflictRefs := (request.selectionOf group).assertParameterRefs_eq_ok "conflict_refs"
    (.values (group.items "conflict_refs")) (group.itemTexts "conflict_refs") rfl rfl
  unfold validateEvidenceGroup
  rw [check_of_pos hkind, check_of_pos hpolicy,
    check_of_pos hreasons, check_of_pos hwhole, hselectedRefs,
    hrequiredRefs, expectedRefs_eq hevidence.selected, expectedRefs_eq hevidence.required,
    hbinding, expectedRefs_eq hlineage, expectedRefs_eq hconflict]
  simp only [ok_bind]
  constructor
  · intro h
    obtain ⟨selected, hselected, h⟩ := bind_inv h
    obtain ⟨required, hrequired, h⟩ := bind_inv h
    iterate 2 rcases check_inv h with ⟨-, h⟩
    obtain ⟨hsameSelected, h⟩ := check_inv h
    obtain ⟨hsameRequired, h⟩ := check_inv h
    iterate 2 rcases check_inv h with ⟨-, h⟩
    obtain ⟨hlineageClean, h⟩ := check_inv h
    obtain ⟨hconflictClean, -⟩ := check_inv h
    exact ⟨clean_of_textTuple hselected (of_require hsameSelected),
      clean_of_textTuple hrequired (of_require hsameRequired),
      hlineageRefs.mp hlineageClean, hconflictRefs.mp hconflictClean⟩
  · rintro ⟨hselectedClean, hrequiredClean, hlineageClean, hconflictClean⟩
    rcases textTuple_of_clean hselectedClean "selected_span_refs" false
      (fun h => absurd h Bool.false_ne_true) with ⟨selected, hselected, hsameSelected⟩
    rcases textTuple_of_clean hrequiredClean "required_span_refs" false
      (fun h => absurd h Bool.false_ne_true) with ⟨required, hrequired, hsameRequired⟩
    have hspans : selected ≠ [] ∧ ∀ ref ∈ selected, ref.val ∈ group.allSpans := by
      constructor
      · rintro rfl
        have hnil : group.items "selected_span_refs" = [] :=
          map_eq_nil_iff.mp hsameSelected.symm
        rw [hnil] at hempty
        cases hempty
      · intro ref href
        have hmem : some ref.val ∈ group.itemTexts "selected_span_refs" :=
          hsameSelected ▸ mem_map_of_mem href
        rcases mem_map.mp (contains_iff_mem.mp
          (all_eq_true.mp hknown _ hmem)) with ⟨span, hspan, hsame⟩
        exact Option.some.inj hsame ▸ hspan
    have hsub : required ⊆ selected := by
      intro ref href
      have hmem : some ref.val ∈ group.itemTexts "required_span_refs" :=
        hsameRequired ▸ mem_map_of_mem href
      have hin := contains_iff_mem.mp
        (Bool.and_eq_true_iff.mp (all_eq_true.mp hkept _ hmem)).2
      rw [← hsameSelected] at hin
      rcases mem_map.mp hin with ⟨other, hother, hsame⟩
      exact Ref.ext (Option.some.inj hsame) ▸ hother
    rw [hselected, ok_bind, hrequired, ok_bind, check_of_pos hspans,
      check_of_pos hsub, check_of_pos hsameSelected,
      check_of_pos hsameRequired, check_of_pos ⟨trivial, hquery.symm⟩,
      hsources.mpr (cleanRefs_map_val.mpr group.isValid.sources_distinct), ok_bind,
      hlineageRefs.mpr hlineageClean, ok_bind, hconflictRefs.mpr hconflictClean, ok_bind,
      hcitations.mpr (cleanRefs_map_val.mpr group.isValid.citations_distinct)]

end Evidence

end ContextCompactionPlanningRequest

end ContextCompaction
