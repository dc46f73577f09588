/-
# The candidates of a plan

What the planner finds when it goes through the action types of a policy: each group falls
to the first type it is eligible for, and the type makes its actions of the groups that fall
to it.  It raises exactly when metadata that it looks at cannot be read.
-/
import AgoraHub.ContextPlanSpec

namespace ContextCompaction

open Fallible List ContextGroup ContextCompactionAction
open PyDynamic (text?)

variable {sha256 : String → HexDigest} {V : Type} [PyDynamic V]

/-! ## Lists of texts -/

theorem requiredText_of_trimmed {s field : String} (htrimmed : PyText.strip s = s) (hne : s ≠ "") :
    requiredText (some s) field = .ok ⟨s, htrimmed, hne⟩ := by
  unfold requiredText
  simp only [htrimmed, hne, dif_neg, not_false_eq_true]

/-- Clean refs are accepted as they are. -/
theorem textTuple_of_clean {values : List (Option String)} (h : CleanRefs values)
    (field : String) (required : Bool) (hrequired : required = true → values ≠ []) :
    ∃ refs, textTuple values field required = .ok refs ∧
      refs.map (fun ref => some ref.val) = values := by
  rcases exists_mapM_key (fun ref : Ref => some ref.val) values (f := fun item =>
    requiredText item field) (by
      intro value hvalue
      rcases h.1 value hvalue with ⟨s, rfl, htrimmed, hne⟩
      exact ⟨_, requiredText_of_trimmed htrimmed hne, rfl⟩) with ⟨refs, hrefs, hsame, -⟩
  have hdistinct : refs.Nodup := List.Nodup.of_map _ (hsame ▸ h.2)
  have hne : required = true → refs ≠ [] := by
    rintro hrequired' rfl
    exact hrequired hrequired' hsame.symm
  refine ⟨refs, ?_, hsame⟩
  unfold textTuple
  rw [hrefs, ok_bind, check_of_pos hne, check_of_pos hdistinct]

/-- Refs that are accepted and come back as they are were clean. -/
theorem clean_of_textTuple {values : List (Option String)} {field : String} {required : Bool}
    {refs : List Ref} (h : textTuple values field required = .ok refs)
    (hsame : refs.map (fun ref => some ref.val) = values) : CleanRefs values := by
  unfold textTuple at h
  obtain ⟨result, -, h⟩ := bind_inv h
  obtain ⟨-, h⟩ := check_inv h
  obtain ⟨hdistinct, h⟩ := check_inv h
  cases h
  subst hsame
  refine ⟨fun value hvalue => ?_, ?_⟩
  · rcases mem_map.mp hvalue with ⟨ref, -, rfl⟩
    exact ⟨ref.val, rfl, ref.trimmed, ref.nonempty⟩
  · exact (of_require hdistinct).map fun a b hab => Ref.ext (Option.some.inj hab)

theorem cleanRefs_map_val {refs : List Ref} :
    CleanRefs (refs.map fun ref => some ref.val) ↔ refs.Nodup := by
  constructor
  · intro h
    exact List.Nodup.of_map _ h.2
  · intro h
    refine ⟨fun value hvalue => ?_, h.map fun a b hab => Ref.ext (Option.some.inj hab)⟩
    rcases mem_map.mp hvalue with ⟨ref, -, rfl⟩
    exact ⟨ref.val, rfl, ref.trimmed, ref.nonempty⟩

namespace ContextCompactionAction

/-- An action on distinct groups is made unless its parameters cannot be written. -/
theorem construct_eq (actionType : ActionType) {targets : List String}
    (parameters : PyDict String (ActionParameter V)) (hclean : CleanRefs (targets.map some))
    (hne : targets ≠ []) : construct actionType targets parameters =
      if ∀ p ∈ parameters, p.2.writable = true then .ok ⟨actionType, targets, parameters⟩
      else .error .typeError := by
  rcases textTuple_of_clean hclean "target_group_ids" true
    (fun _ h => hne (map_eq_nil_iff.mp h)) with ⟨refs, hrefs, hsame⟩
  have htargets : refs.map Ref.val = targets := by
    have hmap : (refs.map Ref.val).map some = targets.map some := by
      rw [← hsame, map_map]
      rfl
    exact map_injective_iff.mpr (Option.some_injective _) hmap
  unfold construct
  rw [hrefs, ok_bind, htargets]
  by_cases hwritable : ∀ p ∈ parameters, p.2.writable = true
  · rw [check_of_pos hwritable, if_pos hwritable]
  · rw [require_of_neg _ hwritable, error_bind, if_neg hwritable]

end ContextCompactionAction

/-! ## Identities of a snapshot -/

namespace ContextSemanticSnapshot

variable (snapshot : ContextSemanticSnapshot sha256 V)

theorem eq_of_groupId {a b : ContextGroup V} (ha : a ∈ snapshot.groups) (hb : b ∈ snapshot.groups)
    (hid : a.groupId sha256 = b.groupId sha256) : a = b :=
  inj_on_of_nodup_map snapshot.nodup_groupIds ha hb hid

theorem mem_groupIds {group : ContextGroup V} (h : group ∈ snapshot.groups) :
    group.groupId sha256 ∈ snapshot.groupIds := mem_map_of_mem h

theorem cleanRefs_of_sublist {ids : List String} (h : ids.Sublist snapshot.groupIds) :
    CleanRefs (ids.map some) := by
  refine ⟨fun value hvalue => ?_, (snapshot.nodup_groupIds.sublist h).map
    (Option.some_injective _)⟩
  rcases mem_map.mp hvalue with ⟨id, hid, rfl⟩
  rcases mem_map.mp (h.subset hid) with ⟨group, -, rfl⟩
  exact ⟨_, rfl, group.strip_groupId sha256, group.groupId_ne_empty sha256⟩

end ContextSemanticSnapshot

/-! ## Metadata -/

namespace ContextGroup

variable {group : ContextGroup V} {name : String}

theorem iterate_of_iterable (h : group.Iterable name) :
    group.iterate name = .ok (group.items name) := by
  unfold iterate items
  unfold Iterable at h
  cases hget : group.semanticMetadata.get? name with
  | none => rfl
  | some value =>
    rw [hget] at h
    rcases Option.isSome_iff_exists.mp (h value rfl) with ⟨items, hitems⟩
    simp only [hitems, orRaise_some, Option.getD_some]

theorem iterable_of_iterate {items : List V} (h : group.iterate name = .ok items) :
    group.Iterable name := by
  intro value hvalue
  unfold iterate at h
  rw [Option.mem_def.mp hvalue] at h
  rw [orRaise_eq_ok.mp h]
  rfl

theorem metadataStr_eq (h : (group.semanticMetadata.get? name).isSome = true) :
    group.metadataStr name = .ok (group.fieldStr name) := by
  rcases Option.isSome_iff_exists.mp h with ⟨value, hvalue⟩
  unfold metadataStr fieldStr
  rw [hvalue, orRaise_some, ok_bind]
  rfl

theorem isSome_of_metadataStr {text : String} (h : group.metadataStr name = .ok text) :
    (group.semanticMetadata.get? name).isSome = true := by
  obtain ⟨value, hvalue, -⟩ := bind_inv h
  rw [orRaise_eq_ok.mp hvalue]
  rfl

theorem mapM_metadataStr {groups : List (ContextGroup V)}
    (h : ∀ group ∈ groups, (group.semanticMetadata.get? name).isSome = true) :
    groups.mapM (metadataStr · name) = .ok (groups.map (fieldStr · name)) := by
  induction groups with
  | nil => rfl
  | cons group groups ih =>
    rw [mapM_cons, metadataStr_eq (h group mem_cons_self), ok_bind,
      ih fun g hg => h g (mem_cons_of_mem _ hg), ok_bind]
    rfl

theorem isSome_of_mapM_metadataStr {groups : List (ContextGroup V)} {texts : List String}
    (h : groups.mapM (metadataStr · name) = .ok texts) :
    ∀ group ∈ groups, (group.semanticMetadata.get? name).isSome = true := by
  intro group hgroup
  have hforall := forall₂_of_mapM h
  rcases forall₂_iff_get.mp hforall with ⟨hlength, hget⟩
  rcases mem_iff_get.mp hgroup with ⟨i, rfl⟩
  exact isSome_of_metadataStr (hget i.val i.isLt (hlength ▸ i.isLt))

end ContextGroup

variable {C : Type} [Zero C] [LT C] [Sub C] [DecidableLT C]

/-! ## Classes -/

namespace ContextCompactionPlanningRequest

variable (request : ContextCompactionPlanningRequest sha256 C V)

variable {t : ActionType}

/-- A group falls to an action type when it is eligible and fell to none before. -/
theorem owner_eq_some_iff {done rest : List ActionType}
    (horder : request.policy.actionOrder = done ++ t :: rest) (group : ContextGroup V) :
    request.owner group = some t ↔ request.affords t = true ∧ request.eligible t group = true ∧
      ∀ t' ∈ done, request.owner group ≠ some t' := by
  have hdistinct := request.policy.order_distinct
  rw [horder] at hdistinct
  have hdone : t ∉ done := fun h =>
    disjoint_of_nodup_append hdistinct h mem_cons_self
  have hrest : t ∉ rest := (nodup_cons.mp (nodup_append.mp hdistinct).2.1).1
  unfold owner
  rw [horder, find?_append]
  cases hfind : done.find? fun t => request.affords t && request.eligible t group with
  | some t₀ =>
    have hmem : t₀ ∈ done := mem_of_find?_eq_some hfind
    rw [Option.some_or]
    constructor
    · intro h
      exact absurd (Option.some.inj h ▸ hmem) hdone
    · rintro ⟨-, -, hnone⟩
      exact absurd rfl (hnone t₀ hmem)
  | none =>
    rw [Option.none_or, find?_cons]
    cases htest : request.affords t && request.eligible t group with
    | true =>
      rcases Bool.and_eq_true_iff.mp htest with ⟨haffords, heligible⟩
      refine ⟨fun _ => ⟨haffords, heligible, fun t' ht' h => ?_⟩, fun _ => rfl⟩
      exact hdone (Option.some.inj h ▸ ht')
    | false =>
      constructor
      · intro h
        exact absurd (mem_of_find?_eq_some h) hrest
      · rintro ⟨haffords, heligible, -⟩
        rw [haffords, heligible] at htest
        cases htest

theorem mem_classOf {group : ContextGroup V} : group ∈ request.classOf t ↔
      group ∈ request.sourceSnapshot.groups ∧ request.owner group = some t := by
  unfold classOf
  rw [mem_filter, beq_iff_eq]

theorem classOf_eq_nil (h : t ∉ request.policy.actionOrder) : request.classOf t = [] := by
  refine filter_eq_nil_iff.mpr fun group _ howner => ?_
  exact h (mem_of_find?_eq_some (beq_iff_eq.mp howner))

theorem sublist_classOf (t : ActionType) :
    ((request.classOf t).map (groupId sha256)).Sublist
      request.sourceSnapshot.groupIds :=
  filter_sublist.map _

/-! ## Actions of a class -/

/-- The parameters of the selection of the spans of a group. -/
def selectionParameters (group : ContextGroup V) : PyDict String (ActionParameter V) :=
  [("selected_span_refs", .values (group.items "selected_span_refs")),
    ("required_span_refs", .values (group.items "required_span_refs")),
    ("query_binding_ref", .text request.sourceSnapshot.taskBindingRef.val),
    ("source_refs", .texts (group.sourceRefs.map Ref.val)),
    ("lineage_refs", .values (group.items "lineage_refs")),
    ("conflict_refs", .values (group.items "conflict_refs")),
    ("required_citation_refs", .texts (group.requiredCitationRefs.map Ref.val))]

/-- The parameters of an action on a whole class. -/
def classParameters (t : ActionType) : PyDict String (ActionParameter V) :=
  match t with
  | .dropReconstructableGroup | .replaceWithReference =>
    [("reconstruction_refs", .texts ((request.classOf t).map reconstructionText))]
  | .reduceAuthorizedToolSet =>
    [("tool_ids", .texts ((request.classOf t).map (ContextGroup.fieldStr · "tool_id"))),
      ("authorization_refs",
        .texts ((request.classOf t).map (ContextGroup.fieldStr · "authorization_ref")))]
  | .selectEvidenceSpans => []
  | .compactOldConversation =>
    [("complete_turn_group_ids", .texts ((request.classOf t).map (groupId sha256))),
      ("keep_recent_complete_turns", .count request.policy.keepRecentCompleteTurns)]
  | .summarizeGroups =>
    [("allowed_loss_risks", .texts (request.policy.allowedLossRisks.map ContextLossRisk.value))]

/-- The selection of the spans of a group. -/
def selectionOf (group : ContextGroup V) : ContextCompactionAction V :=
  ⟨.selectEvidenceSpans, [group.groupId sha256], request.selectionParameters group⟩

/-- The actions that a type makes of its class. -/
def actionsOf (t : ActionType) : List (ContextCompactionAction V) :=
  if t = .selectEvidenceSpans then (request.classOf t).map request.selectionOf
  else if request.classOf t = [] then []
  else [⟨t, (request.classOf t).map (groupId sha256), request.classParameters t⟩]

/-- The candidates of some action types. -/
def found (types : List ActionType) : Candidates V where
  actions := types.flatMap request.actionsOf
  claimed := (types.flatMap request.actionsOf).flatMap targetGroupIds

theorem found_append (done : List ActionType) (t : ActionType) : request.found (done ++ [t]) =
      ⟨(request.found done).actions ++ request.actionsOf t, (request.found done).claimed ++
        (request.actionsOf t).flatMap targetGroupIds⟩ := by
  unfold found
  simp only [flatMap_append, flatMap_cons, flatMap_nil, append_nil]

/-- The actions of a type target its class. -/
theorem targets_actionsOf (t : ActionType) :
    (request.actionsOf t).flatMap targetGroupIds =
      (request.classOf t).map (groupId sha256) := by
  unfold actionsOf
  by_cases hselect : t = .selectEvidenceSpans
  · rw [if_pos hselect, flatMap_map]
    exact flatMap_pure_eq_map _ _
  · rw [if_neg hselect]
    by_cases hnil : request.classOf t = []
    · rw [if_pos hnil, hnil]
      rfl
    · rw [if_neg hnil, flatMap_cons, flatMap_nil, append_nil]

theorem actionType_of_mem {action : ContextCompactionAction V} (h : action ∈ request.actionsOf t) :
    action.actionType = t := by
  unfold actionsOf at h
  by_cases hselect : t = .selectEvidenceSpans
  · rw [if_pos hselect] at h
    rcases mem_map.mp h with ⟨group, -, rfl⟩
    exact hselect.symm
  · rw [if_neg hselect] at h
    split at h
    · cases h
    · rw [mem_singleton.mp h]

/-- A group is claimed when it fell to one of the types. -/
theorem mem_claimed {types : List ActionType} {group : ContextGroup V}
    (hgroup : group ∈ request.sourceSnapshot.groups) :
    group.groupId sha256 ∈ (request.found types).claimed ↔
      ∃ t ∈ types, request.owner group = some t := by
  have hclaimed : (request.found types).claimed = types.flatMap fun t =>
      (request.classOf t).map (groupId sha256) := by
    unfold found
    rw [flatMap_assoc]
    exact flatMap_congr fun t _ => request.targets_actionsOf t
  rw [hclaimed, mem_flatMap]
  refine exists_congr fun t => and_congr_right fun _ => ?_
  constructor
  · intro h
    rcases mem_map.mp h with ⟨other, hother, hid⟩
    rcases request.mem_classOf.mp hother with ⟨hin, howner⟩
    rwa [← request.sourceSnapshot.eq_of_groupId hin hgroup hid]
  · intro howner
    exact mem_map_of_mem (request.mem_classOf.mpr ⟨hgroup, howner⟩)

/-- The class of the next type, as the eligible groups that are not claimed. -/
theorem filter_eq_classOf {done rest : List ActionType}
    (horder : request.policy.actionOrder = done ++ t :: rest)
    (haffords : request.affords t = true) (test : ContextGroup V → Bool)
    (htest : ∀ group, test group = true ↔
      request.eligible t group = true ∧ group.groupId sha256 ∉ (request.found done).claimed) :
    request.sourceSnapshot.groups.filter test = request.classOf t := by
  refine filter_congr fun group hgroup => ?_
  rw [Bool.eq_iff_iff, htest, beq_iff_eq, request.owner_eq_some_iff horder,
    request.mem_claimed hgroup]
  push Not
  exact ⟨fun h => ⟨haffords, h⟩, fun h => h.2⟩

end ContextCompactionPlanningRequest

/-! ## Looking for tools -/

theorem toolIsPending_eq {pending : List String} {group : ContextGroup V}
    (h : ∀ toolId ∈ group.semanticMetadata.get? "tool_id", PyDynamic.hashable toolId = true) :
    toolIsPending pending group =
      .ok (((group.semanticMetadata.get? "tool_id").bind text?).any
        pending.contains) := by
  unfold toolIsPending
  cases hget : group.semanticMetadata.get? "tool_id" with
  | none => rfl
  | some toolId =>
    dsimp only
    rw [check_of_pos (h toolId hget)]
    rfl

theorem hashable_of_toolIsPending {pending : List String} {group : ContextGroup V}
    {isPending : Bool} (h : toolIsPending pending group = .ok isPending) :
    ∀ toolId ∈ group.semanticMetadata.get? "tool_id", PyDynamic.hashable toolId = true := by
  intro toolId hget
  unfold toolIsPending at h
  rw [Option.mem_def.mp hget] at h
  exact of_require (check_inv h).1

/-- The tools that are looked at have identities that can be compared. -/
def ComparableTools (groups : List (ContextGroup V)) : Prop :=
  ∀ group ∈ groups, group.groupKind = .authorizedToolSchema →
    group.saysBool "reachable" false = true →
      ∀ toolId ∈ group.semanticMetadata.get? "tool_id", PyDynamic.hashable toolId = true

/-- A tool that may be reduced. -/
def isReducible (sha256 : String → HexDigest) (pending protectedIds claimed : List String)
    (group : ContextGroup V) : Bool :=
  decide (group.groupKind = .authorizedToolSchema ∧ group.saysBool "reachable" false = true) &&
    !((group.semanticMetadata.get? "tool_id").bind text?).any pending.contains &&
    isFree sha256 protectedIds claimed group

variable {groups : List (ContextGroup V)}

theorem reducibleTools_eq (pending protectedIds claimed : List String)
    (h : ComparableTools groups) : reducibleTools sha256 pending protectedIds claimed groups =
      .ok (groups.filter (isReducible sha256 pending protectedIds claimed)) := by
  induction groups with
  | nil => rfl
  | cons group groups ih =>
    have hrest := ih fun g hg => h g (mem_cons_of_mem _ hg)
    unfold reducibleTools
    by_cases htool : group.groupKind = .authorizedToolSchema ∧
        group.saysBool "reachable" false = true
    · rw [if_pos htool, toolIsPending_eq (h group mem_cons_self htool.1 htool.2), ok_bind,
        hrest, ok_bind, filter_cons]
      unfold isReducible
      rw [decide_eq_true htool, Bool.true_and]
    · rw [if_neg htool, hrest, filter_cons]
      unfold isReducible
      rw [decide_eq_false htool, Bool.false_and, Bool.false_and, if_neg Bool.false_ne_true]

theorem comparable_of_reducibleTools (pending protectedIds claimed : List String) :
    ∀ {targets : List (ContextGroup V)},
      reducibleTools sha256 pending protectedIds claimed groups = .ok targets →
        ComparableTools groups := by
  induction groups with
  | nil => exact fun _ _ hg => absurd hg not_mem_nil
  | cons group groups ih =>
    intro targets h g hg hkind hreachable
    unfold reducibleTools at h
    rcases mem_cons.mp hg with rfl | hg
    · rw [if_pos ⟨hkind, hreachable⟩] at h
      obtain ⟨isPending, hpending, -⟩ := bind_inv h
      exact hashable_of_toolIsPending hpending
    · split at h
      · obtain ⟨isPending, -, h⟩ := bind_inv h
        obtain ⟨rest, hrest, -⟩ := bind_inv h
        exact ih hrest g hg hkind hreachable
      · exact ih h g hg hkind hreachable

theorem toolParameters_eq
    (h : ∀ group ∈ groups, (group.semanticMetadata.get? "tool_id").isSome = true ∧
      (group.semanticMetadata.get? "authorization_ref").isSome = true) :
    toolParameters groups = .ok [("tool_ids", .texts (groups.map (ContextGroup.fieldStr · "tool_id"))),
      ("authorization_refs",
        .texts (groups.map (ContextGroup.fieldStr · "authorization_ref")))] := by
  unfold toolParameters
  rw [ContextGroup.mapM_metadataStr fun g hg => (h g hg).1, ok_bind,
    ContextGroup.mapM_metadataStr fun g hg => (h g hg).2, ok_bind]

theorem isSome_of_toolParameters {parameters : PyDict String (ActionParameter V)}
    (h : toolParameters groups = .ok parameters) :
    ∀ group ∈ groups, (group.semanticMetadata.get? "tool_id").isSome = true ∧
      (group.semanticMetadata.get? "authorization_ref").isSome = true := by
  obtain ⟨toolIds, hids, h⟩ := bind_inv h
  obtain ⟨refs, hrefs, -⟩ := bind_inv h
  exact fun group hgroup => ⟨ContextGroup.isSome_of_mapM_metadataStr hids group hgroup,
    ContextGroup.isSome_of_mapM_metadataStr hrefs group hgroup⟩

/-! ## Looking at evidence -/

theorem isSubset_eq {items : List V} (texts : List (Option String))
    (h : ∀ v ∈ items, PyDynamic.hashable v = true) :
    isSubset items texts = .ok ((items.map text?).all fun text =>
      text.isSome && texts.contains text) := by
  unfold isSubset
  rw [check_of_pos h, all_map]
  congr 1
  rw [Bool.eq_iff_iff]
  simp [all_eq_true]

theorem hashable_of_isSubset {items : List V} {texts : List (Option String)} {b : Bool}
    (h : isSubset items texts = .ok b) : ∀ v ∈ items, PyDynamic.hashable v = true :=
  of_require (check_inv h).1

theorem all_isSome_and_contains (texts : List (Option String)) (spans : List String) :
    (texts.all fun text => text.isSome && (spans.map some).contains text) =
      texts.all (spans.map some).contains := by
  congr 1
  funext text
  cases text with
  | none => simp
  | some s => rfl

namespace ContextGroup

variable {group : ContextGroup V}

/-- The comparison of the spans that are selected, where it returns. -/
theorem canSelect_eq (h : group.Comparable) :
    canSelect (group.items "selected_span_refs") (group.items "required_span_refs")
      group.allSpans = .ok group.selectionFits := by
  have htexts : (group.items "selected_span_refs").map text? =
      group.itemTexts "selected_span_refs" := rfl
  have hrequired : (group.items "required_span_refs").map text? =
      group.itemTexts "required_span_refs" := rfl
  unfold canSelect selectionFits
  rw [htexts]
  by_cases hempty : group.items "selected_span_refs" = []
  · rw [hempty]
    rfl
  by_cases hsame : group.itemTexts "selected_span_refs" = group.allSpans.map some
  · rw [hsame]
    simp
  have hisEmpty : (group.items "selected_span_refs").isEmpty = false := by
    simpa using hempty
  have hbeq : (group.itemTexts "selected_span_refs" == group.allSpans.map some) = false := by
    simpa using hsame
  have hbne : (group.itemTexts "selected_span_refs" != group.allSpans.map some) = true := by
    simpa using hsame
  rcases h hempty hsame with ⟨hselected, hkept⟩
  rw [hisEmpty, hbeq, hbne, Bool.or_false, if_neg Bool.false_ne_true, isSubset_eq _ hselected,
    ok_bind, htexts, all_isSome_and_contains]
  cases hknown : (group.itemTexts "selected_span_refs").all (group.allSpans.map some).contains with
  | false => rfl
  | true =>
    have hsub : group.itemTexts "selected_span_refs" ⊆ group.allSpans.map some := fun text htext =>
      contains_iff_mem.mp (all_eq_true.mp hknown text htext)
    rw [if_pos rfl, isSubset_eq _ (hkept hsub), hrequired]
    rfl

/-- Spans that were compared can be. -/
theorem comparable_of_canSelect {fits : Bool}
    (h : canSelect (group.items "selected_span_refs") (group.items "required_span_refs")
      group.allSpans = .ok fits) : group.Comparable := by
  intro hempty hsame
  have hisEmpty : (group.items "selected_span_refs").isEmpty = false := by
    simpa using hempty
  have hbeq : ((group.items "selected_span_refs").map text? ==
      group.allSpans.map some) = false := by
    simpa [itemTexts] using hsame
  unfold canSelect at h
  rw [hisEmpty, hbeq, Bool.or_false, if_neg Bool.false_ne_true] at h
  obtain ⟨known, hknown, h⟩ := bind_inv h
  have hselected := hashable_of_isSubset hknown
  refine ⟨hselected, fun hsub => ?_⟩
  rw [isSubset_eq _ hselected] at hknown
  have htrue : known = true := by
    rw [← ok_inj hknown, all_isSome_and_contains]
    exact all_eq_true.mpr fun text htext => contains_iff_mem.mpr (hsub htext)
  rw [htrue, if_pos rfl] at h
  exact hashable_of_isSubset h

end ContextGroup

namespace ContextCompactionPlanningRequest

omit [Sub C] [DecidableLT C]

variable (request : ContextCompactionPlanningRequest sha256 C V) {group : ContextGroup V}

theorem selectsSpans_of_selectable (h : isSelectable request.policy group = true) :
    request.selectsSpans group = (group.selectionFits &&
      group.queryBindingRef == some request.sourceSnapshot.taskBindingRef) := by
  unfold selectsSpans
  rw [h, Bool.true_and]

theorem selectsSpans_of_not_selectable (h : ¬ isSelectable request.policy group = true) :
    request.selectsSpans group = false := by
  unfold selectsSpans
  rw [Bool.eq_false_iff.mpr h, Bool.false_and]

/-- The parameters of a selection, where the metadata can be read. -/
theorem evidenceSelectionParameters_eq
    (h : isSelectable request.policy group = true → request.ReadableEvidence group) :
    evidenceSelectionParameters request.sourceSnapshot request.policy group =
      .ok (if request.selectsSpans group then some (request.selectionParameters group)
        else none) := by
  unfold evidenceSelectionParameters
  by_cases hselectable : isSelectable request.policy group = true
  · have hread := h hselectable
    rw [if_pos hselectable, ContextGroup.iterate_of_iterable hread.selected, ok_bind,
      ContextGroup.iterate_of_iterable hread.required, ok_bind,
      ContextGroup.canSelect_eq hread.comparable, ok_bind,
      ← request.selectsSpans_of_selectable hselectable]
    by_cases hfits : request.selectsSpans group = true
    · rcases hread.lineage hfits with ⟨hlineage, hconflict⟩
      rw [if_pos hfits, if_pos hfits, ContextGroup.iterate_of_iterable hlineage, ok_bind,
        ContextGroup.iterate_of_iterable hconflict, ok_bind]
      rfl
    · rw [if_neg hfits, if_neg hfits]
  · rw [if_neg hselectable, request.selectsSpans_of_not_selectable hselectable,
      if_neg Bool.false_ne_true]

/-- Evidence that was looked at could be read. -/
theorem readable_of_evidenceSelectionParameters {found : Option (PyDict String (ActionParameter V))}
    (h : evidenceSelectionParameters request.sourceSnapshot request.policy group = .ok found)
    (hselectable : isSelectable request.policy group = true) : request.ReadableEvidence group := by
  unfold evidenceSelectionParameters at h
  rw [if_pos hselectable] at h
  simp only [bind_eq_ok] at h
  obtain ⟨selected, hselected, required, hrequired, fits, hfits, h⟩ := h
  have hiterable := ContextGroup.iterable_of_iterate hselected
  have hiterable' := ContextGroup.iterable_of_iterate hrequired
  rw [ContextGroup.iterate_of_iterable hiterable] at hselected
  rw [ContextGroup.iterate_of_iterable hiterable'] at hrequired
  cases hselected
  cases hrequired
  have hcomparable := ContextGroup.comparable_of_canSelect hfits
  rw [ContextGroup.canSelect_eq hcomparable] at hfits
  cases hfits
  refine ⟨hiterable, hiterable', hcomparable, fun hselects => ?_⟩
  rw [request.selectsSpans_of_selectable hselectable] at hselects
  rw [if_pos hselects] at h
  obtain ⟨lineage, hlineage, h⟩ := bind_inv h
  obtain ⟨conflict, hconflict, -⟩ := bind_inv h
  exact ⟨ContextGroup.iterable_of_iterate hlineage, ContextGroup.iterable_of_iterate hconflict⟩

end ContextCompactionPlanningRequest

end ContextCompaction
