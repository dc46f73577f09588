/-
# One action of a plan

An action of a plan is applied exactly when its groups can be rebuilt, the refs that are
written for it are distinct, and no group that it makes has the identity of another.  Then it
leaves the groups that were foreseen.
-/
import Mathlib.Data.List.TakeWhile
import AgoraHub.ContextExecutionSpec

namespace ContextCompaction

open Fallible ContextCompactionActionExecutor ContextGroup List PyDict PyText ContextGroupFields
open PyText (strip)

variable {sha256 : String → HexDigest} {V : Type} [PyDynamic V]

/-! ## Texts that are not blank -/

/-- Texts none of which is blank. -/
def NotBlank (texts : List String) : Prop := ∀ s ∈ texts, strip s ≠ ""

/-- Texts none of which is blank are trimmed. -/
theorem mapM_requiredText {texts : List String} (h : NotBlank texts) (field : String) :
    ∃ refs, (texts.map some).mapM (fun item => requiredText item field) = .ok refs ∧
      refs.map Ref.val = texts.map strip := by
  induction texts with
  | nil => exact ⟨[], rfl, rfl⟩
  | cons s texts ih =>
    obtain ⟨refs, hrefs, hsame⟩ := ih fun s' hs' => h s' (mem_cons_of_mem _ hs')
    have hfirst : requiredText (some s) field =
        .ok ⟨strip s, strip_strip s, h s mem_cons_self⟩ :=
      dif_neg (h s mem_cons_self)
    refine ⟨⟨strip s, strip_strip s, h s mem_cons_self⟩ :: refs, ?_, ?_⟩
    · rw [map_cons, mapM_cons, hfirst, ok_bind, hrefs]
      rfl
    · rw [map_cons, map_cons, hsame]

/-- They are accepted exactly when they are distinct once they are trimmed. -/
theorem textTuple_eq_ok {texts : List String} (h : NotBlank texts) (field : String) :
    (∃ refs, textTuple (texts.map some) field = .ok refs) ↔ (texts.map strip).Nodup := by
  obtain ⟨refs, hrefs, hsame⟩ := mapM_requiredText h field
  have hnodup : refs.Nodup ↔ (texts.map strip).Nodup := by
    rw [← hsame]
    exact (nodup_map_iff fun a b hab => Ref.ext hab).symm
  unfold textTuple
  rw [hrefs, ok_bind, check_of_pos (fun h => absurd h Bool.false_ne_true), ← hnodup]
  constructor
  · rintro ⟨result, hresult⟩
    exact of_require (check_inv hresult).1
  · intro hdistinct
    exact ⟨refs, bind_intro (require_of_pos _ hdistinct) rfl⟩

theorem map_strip_of_trimmed {texts : List String} (h : ∀ s ∈ texts, strip s = s) :
    texts.map strip = texts := by
  conv_rhs => rw [← map_id texts]
  exact map_congr_left h

section Identities

variable (sha256) (groups : List (ContextGroup V))

theorem notBlank_groupIds : NotBlank (groups.map (groupId sha256)) := by
  intro s hs
  obtain ⟨group, -, rfl⟩ := mem_map.mp hs
  rw [group.strip_groupId sha256]
  exact group.groupId_ne_empty sha256

theorem map_strip_groupIds : (groups.map (groupId sha256)).map strip =
    groups.map (groupId sha256) := by
  refine map_strip_of_trimmed fun s hs => ?_
  obtain ⟨group, -, rfl⟩ := mem_map.mp hs
  exact group.strip_groupId sha256

end Identities

/-! ## Reports and results -/

/-- A report is made when its refs are distinct. -/
theorem lossReport_eq_ok {removed replaced omitted : List String} (hremoved : NotBlank removed)
    (hreplaced : NotBlank replaced) (homitted : NotBlank omitted) (lossRisk : ContextLossRisk) :
    (∃ report, ContextLossReport.construct removed replaced omitted lossRisk = .ok report) ↔
      (removed.map strip).Nodup ∧ (replaced.map strip).Nodup ∧
        (omitted.map strip).Nodup := by
  unfold ContextLossReport.construct
  rw [← textTuple_eq_ok hremoved "removed_group_ids", ← textTuple_eq_ok hreplaced
    "replaced_group_ids", ← textTuple_eq_ok homitted "omitted_span_refs"]
  constructor
  · rintro ⟨report, h⟩
    simp only [bind_eq_ok] at h
    obtain ⟨a, ha, b, hb, c, hc, -⟩ := h
    exact ⟨⟨a, ha⟩, ⟨b, hb⟩, ⟨c, hc⟩⟩
  · rintro ⟨⟨a, ha⟩, ⟨b, hb⟩, ⟨c, hc⟩⟩
    exact ⟨⟨a, b, c, lossRisk⟩, by rw [ha, ok_bind, hb, ok_bind, hc, ok_bind]⟩

theorem strip_snapshotId (snapshot : ContextSemanticSnapshot sha256 V) :
    strip snapshot.snapshotId = snapshot.snapshotId :=
  strip_identity sha256 (show _ = some 'c' by decide) (by decide)

theorem requiredText_snapshotId (snapshot : ContextSemanticSnapshot sha256 V) (field : String) :
    ∃ ref, requiredText (some snapshot.snapshotId) field = .ok ref :=
  ⟨_, requiredText_of_trimmed (strip_snapshotId snapshot) (identity_ne_empty sha256 _ _)⟩

/-- The result of an action is made when the groups that are left and the refs that it names
are distinct. -/
theorem actionResult_eq_ok (snapshot : ContextSemanticSnapshot sha256 V)
    (action : ContextCompactionAction V) (groups : List (ContextGroup V)) {refs : List String}
    (hrefs : NotBlank refs) (lossReport : ContextLossReport) (reasonCode : String) :
    (∃ result, ContextCompactionActionResult.construct action snapshot.snapshotId
        (groups.map (groupId sha256)) refs lossReport reasonCode = .ok result) ↔
      (groups.map (groupId sha256)).Nodup ∧ (refs.map strip).Nodup := by
  obtain ⟨source, hsource⟩ := requiredText_snapshotId snapshot "source_snapshot_id"
  have hids := textTuple_eq_ok (notBlank_groupIds sha256 groups) "result_group_ids"
  rw [map_strip_groupIds] at hids
  unfold ContextCompactionActionResult.construct
  rw [hsource, ok_bind, ← textTuple_eq_ok hrefs "reconstruction_refs", ← hids]
  constructor
  · rintro ⟨result, h⟩
    obtain ⟨a, ha, h⟩ := bind_inv h
    obtain ⟨b, hb, -⟩ := bind_inv h
    exact ⟨⟨a, ha⟩, ⟨b, hb⟩⟩
  · rintro ⟨⟨a, ha⟩, ⟨b, hb⟩⟩
    exact ⟨⟨action, source, a, b, lossReport, reasonCode⟩, by rw [ha, ok_bind, hb, ok_bind]⟩

/-! ## Groups that are made -/

theorem ContextGroup.construct_eq {fields : ContextGroupFields V} (h : fields.check = .ok ()) :
    ∃ group, construct fields = .ok group := by
  refine ⟨⟨fields, h⟩, ?_⟩
  unfold construct
  split
  · rfl
  · rename_i e hcheck
    rw [h] at hcheck
    cases hcheck

theorem ContextGroup.check_of_construct {fields : ContextGroupFields V} {group : ContextGroup V}
    (h : construct fields = .ok group) : fields.check = .ok () := by
  unfold construct at h
  split at h
  · assumption
  · cases h


/-- A text with a character that is not white space is not blank. -/
theorem strip_ne_empty {s : String} {c : Char} (hc : c ∈ s.toList)
    (hspace : isSpace c = false) : strip s ≠ "" := by
  intro h
  have hnil : trimList isSpace s.toList = [] := by
    have hlist := congrArg String.toList h
    rwa [strip, String.toList_ofList] at hlist
  rw [trimList, reverse_eq_nil_iff, dropWhile_eq_nil_iff] at hnil
  rw [← @takeWhile_append_dropWhile _ isSpace s.toList] at hc
  rcases mem_append.mp hc with hc | hc
  · exact absurd (mem_takeWhile_imp hc) (by simp [hspace])
  · exact absurd (hnil c (mem_reverse.mpr hc)) (by simp [hspace])

theorem strip_text_ne_empty (artifact : ArtifactRef) : strip artifact.text ≠ "" := by
  have hmem : '#' ∈ artifact.text.toList := by
    unfold ArtifactRef.text
    rw [String.toList_append, String.toList_append]
    exact mem_append_left _ (mem_append_right _ (by decide))
  exact strip_ne_empty hmem (by decide)

section Lawful

variable [LawfulPyDynamic V] (sha256)

/-- A reference to a group can be made from any text that is not blank. -/
theorem exists_referenceGroup (group : ContextGroup V) {text : String}
    (htext : strip text ≠ "") : ∃ reference, referenceGroup sha256 group text =
      .ok reference := by
  have hcontent : requiredText (some text) "content_ref" =
      .ok ⟨strip text, strip_strip text, htext⟩ := dif_neg htext
  have hreplaced : Writable ([("replaced_group_id", PyDynamic.ofText (group.groupId sha256)),
      ("replaced_group_kind", PyDynamic.ofText group.groupKind.value)] : PyDict String V) := by
    intro p hp
    simp only [mem_cons, not_mem_nil, or_false] at hp
    rcases hp with rfl | rfl <;> simp
  unfold referenceGroup
  rw [hcontent, ok_bind]
  rw [dif_pos hreplaced]
  refine construct_eq (check_eq_ok.mpr {
    members_nonempty := cons_ne_nil _ _
    ordinals := rfl
    sources_nonempty := group.isValid.sources_nonempty
    sources_distinct := group.isValid.sources_distinct
    reasons_distinct := nodup_nil
    ref_none := fun h => nomatch h
    ref_some := fun _ h => nomatch h
    transaction := rfl
    citations_distinct := nodup_nil
    writable := ?_ })
  intro p hp
  rcases mem_append.mp hp with hp | hp
  · exact hreplaced p hp
  · rw [mem_singleton.mp hp]
    simp

end Lawful

/-! ## Groups with distinct identities -/

/-- Two items of a list that become values with distinct keys have distinct keys. -/
theorem ne_of_nodup_filterMap {α β κ : Type*} {l : List α} {f : α → Option β} {key : β → κ}
    (h : ((l.filterMap f).map key).Nodup) {a b : α} (ha : a ∈ l) (hb : b ∈ l) (hne : a ≠ b)
    {x y : β} (hx : f a = some x) (hy : f b = some y) : key x ≠ key y := by
  rw [nodup_iff_pairwise_ne, pairwise_map, pairwise_filterMap] at h
  have hsymm : Std.Symm fun a a' => ∀ b, f a = some b → ∀ b', f a' = some b' →
      key b ≠ key b' := ⟨fun a a' hab b hb b' hb' => (hab b' hb' b hb).symm⟩
  exact h.forall ha hb hne x hx y hy

/-- The groups of the identities of some present groups are these groups. -/
theorem mapM_presentById {present : List (ContextGroup V)}
    (h : (present.map (groupId sha256)).Nodup) {groups : List (ContextGroup V)}
    (hsub : groups ⊆ present) :
    (groups.map (groupId sha256)).mapM (groupById sha256 present) = .ok groups := by
  induction groups with
  | nil => rfl
  | cons group groups ih =>
    have hgroup := hsub mem_cons_self
    have hfind : present.reverse.find? (fun other =>
        other.groupId sha256 == group.groupId sha256) = some group :=
      KeyedList.find?_of_unique (mem_reverse.mpr hgroup) (beq_self_eq_true _) fun _ hother hid =>
        inj_on_of_nodup_map h (mem_reverse.mp hother) hgroup (beq_iff_eq.mp hid)
    rw [map_cons, mapM_cons, groupById, hfind, orRaise_some, ok_bind,
      ih fun g hg => hsub (mem_cons_of_mem _ hg), ok_bind]
    rfl

namespace ContextCompactionPlanningRequest

variable {C : Type} [Zero C] [LT C] [Sub C] [DecidableLT C]
variable (request : ContextCompactionPlanningRequest sha256 C V) (port : ArtifactPort)

/-! ## Targets -/

variable {action : ContextCompactionAction V}

/-- An action is about a class as a whole, or selects the spans of one group. -/
theorem class_or_selection (h : action ∈ request.allActions) :
    (action.actionType ≠ .selectEvidenceSpans ∧ action = request.classAction action.actionType) ∨
    ∃ group ∈ request.classOf .selectEvidenceSpans, action = request.selectionOf group := by
  obtain ⟨-, haction⟩ := mem_actionsOf_of_mem h
  generalize htype : action.actionType = t at haction
  unfold actionsOf at haction
  split at haction
  · rename_i hselect
    subst hselect
    obtain ⟨group, hgroup, rfl⟩ := mem_map.mp haction
    exact Or.inr ⟨group, hgroup, rfl⟩
  · rename_i hselect
    split at haction
    · cases haction
    · exact Or.inl ⟨hselect, mem_singleton.mp haction⟩

theorem exists_owned (h : action ∈ request.allActions) :
    ∃ groups ⊆ request.classOf action.actionType,
      action.targetGroupIds = groups.map (groupId sha256) := by
  rcases request.class_or_selection h with ⟨-, haction⟩ | ⟨group, hgroup, rfl⟩
  · refine ⟨request.classOf action.actionType, List.Subset.refl _, ?_⟩
    conv_lhs => rw [haction]
    rfl
  · exact ⟨[group], fun other hother => mem_singleton.mp hother ▸ hgroup, rfl⟩

theorem owner_of_target (h : action ∈ request.allActions) {group : ContextGroup V}
    (hgroup : group ∈ request.sourceSnapshot.groups)
    (htarget : group.groupId sha256 ∈ action.targetGroupIds) :
    request.owner group = some action.actionType := by
  obtain ⟨groups, hsub, htargets⟩ := request.exists_owned h
  rw [htargets] at htarget
  obtain ⟨other, hother, hid⟩ := mem_map.mp htarget
  obtain ⟨hin, howner⟩ := request.mem_classOf.mp (hsub hother)
  rwa [← request.sourceSnapshot.eq_of_groupId hin hgroup hid]

/-! ## The groups that are left -/

variable {request port} {done rest : List (ContextCompactionAction V)}
variable {action : ContextCompactionAction V}

section

variable (hplan : request.plannedActions = done ++ action :: rest)

include hplan

theorem mem_allActions : action ∈ request.allActions :=
  mem_of_mem_take (hplan ▸ mem_append_right done mem_cons_self : action ∈ request.plannedActions)

/-- No group was the target of an action before. -/
theorem not_isTarget
    {group : ContextGroup V} (htarget : group.groupId sha256 ∈ action.targetGroupIds) :
    isTarget sha256 done group = false := by
  have hdisjoint := request.pairwise_disjoint.sublist
    (take_sublist request.remaining.actions request.allActions)
  rw [show request.allActions.take request.remaining.actions = done ++ action :: rest from hplan,
    pairwise_append] at hdisjoint
  refine Bool.eq_false_iff.mpr fun h => ?_
  obtain ⟨other, hother, hid⟩ := any_eq_true.mp h
  exact hdisjoint.2.2 other hother action mem_cons_self (contains_iff_mem.mp hid) htarget

theorem mem_groupsAfter {group : ContextGroup V} (hgroup : group ∈ request.sourceSnapshot.groups)
    (htarget : group.groupId sha256 ∈ action.targetGroupIds) :
    group ∈ request.groupsAfter port done := by
  refine mem_filterMap.mpr ⟨group, hgroup, ?_⟩
  unfold after
  rw [not_isTarget hplan htarget]
  rfl

/-- The next action lets its targets meet their fate, and nothing else changes. -/
theorem groupsAfter_append
    (hdistinct : ((request.groupsAfter port done).map (groupId sha256)).Nodup)
    (act : ContextGroup V → Option (ContextGroup V))
    (hact : ∀ group ∈ request.sourceSnapshot.groups,
      group.groupId sha256 ∈ action.targetGroupIds → act group = request.fate port group) :
    (request.groupsAfter port done).filterMap (fun group =>
        if group.groupId sha256 ∈ action.targetGroupIds then act group else some group) =
      request.groupsAfter port (done ++ [action]) := by
  unfold groupsAfter
  rw [filterMap_filterMap]
  refine filterMap_congr fun group hgroup => ?_
  have hsplit : isTarget sha256 (done ++ [action]) group =
      (isTarget sha256 done group || decide (group.groupId sha256 ∈ action.targetGroupIds)) := by
    unfold isTarget
    rw [any_append, any_cons, any_nil, Bool.or_false, contains_eq_mem]
  by_cases hbefore : isTarget sha256 done group = true
  · -- what became of a target of an earlier action is no target of this one
    have hafter : request.after port done group = request.fate port group := if_pos hbefore
    have hlater : request.after port (done ++ [action]) group = request.fate port group :=
      if_pos (by rw [hsplit, hbefore, Bool.true_or])
    rw [hafter, hlater]
    rcases hfate : request.fate port group with _ | made
    · rfl
    · refine if_neg fun hmade => ?_
      obtain ⟨groups, hsub, htargets⟩ := request.exists_owned (mem_allActions hplan)
      rw [htargets] at hmade
      obtain ⟨other, hother, hid⟩ := mem_map.mp hmade
      have hin := request.classOf_subset _ (hsub hother)
      have htarget : other.groupId sha256 ∈ action.targetGroupIds := by
        rw [htargets]
        exact mem_map_of_mem hother
      have hfree := not_isTarget hplan htarget
      refine ne_of_nodup_filterMap hdistinct hin hgroup ?_ ?_ (hafter.trans hfate) hid
      · rintro rfl
        rw [hbefore] at hfree
        cases hfree
      · unfold after
        rw [hfree]
        rfl
  · have hafter : request.after port done group = some group := if_neg hbefore
    rw [hafter, Option.bind_some]
    unfold after
    rw [hsplit, Bool.eq_false_iff.mpr hbefore, Bool.false_or]
    by_cases htarget : group.groupId sha256 ∈ action.targetGroupIds
    · rw [if_pos htarget, if_pos (decide_eq_true htarget), hact group hgroup htarget]
    · rw [if_neg htarget, if_neg (by simpa using htarget)]

/-! ## Actions that leave groups out -/

/-- Leaving out its targets is what an action lets become of them. -/
theorem filter_groupsAfter
    (hdistinct : ((request.groupsAfter port done).map (groupId sha256)).Nodup)
    (hfate : ∀ group, request.owner group = some action.actionType →
      request.fate port group = none) : ((request.groupsAfter port done).filter fun group =>
      !action.targetGroupIds.contains (group.groupId sha256)) =
        request.groupsAfter port (done ++ [action]) := by
  rw [← groupsAfter_append hplan hdistinct (fun _ => none) fun group hgroup htarget =>
    (hfate group (request.owner_of_target (mem_allActions hplan) hgroup htarget)).symm,
    ← filterMap_eq_filter]
  refine filterMap_congr fun group _ => ?_
  by_cases htarget : group.groupId sha256 ∈ action.targetGroupIds
  · rw [if_pos htarget]
    exact if_neg (by simpa using htarget)
  · rw [if_neg htarget]
    exact if_pos (by simpa using htarget)

end

/-- The targets of an action are distinct texts. -/
theorem targets_clean (h : action ∈ request.allActions) : NotBlank action.targetGroupIds ∧
    (action.targetGroupIds.map strip).Nodup := by
  obtain ⟨groups, -, htargets⟩ := request.exists_owned h
  have hnodup : action.targetGroupIds.Nodup := by
    rcases request.class_or_selection h with ⟨-, haction⟩ | ⟨group, -, rfl⟩
    · rw [haction]
      exact request.sourceSnapshot.nodup_groupIds.sublist (request.sublist_classOf _)
    · exact nodup_singleton _
  rw [htargets] at hnodup ⊢
  exact ⟨notBlank_groupIds sha256 groups, (map_strip_groupIds sha256 groups).symm ▸ hnodup⟩

/-- Targets are left out when the refs that are recorded for them are distinct. -/
theorem removeTargets_eq (hplan : request.plannedActions = done ++ action :: rest)
    (hdistinct : ((request.groupsAfter port done).map (groupId sha256)).Nodup)
    (hfate : ∀ group, request.owner group = some action.actionType → request.fate port group = none)
    {refs : List String} (hrefs : NotBlank refs) (hnodup : (refs.map strip).Nodup)
    (lossRisk : ContextLossRisk) (reasonCode : String) (calls : ℕ) :
    ((request.groupsAfter port (done ++ [action])).map (groupId sha256)).Nodup ∧
      ∃ result, removeTargets sha256 request.sourceSnapshot.snapshotId action
        (request.groupsAfter port done) refs lossRisk reasonCode calls =
          .ok ⟨request.groupsAfter port (done ++ [action]), result, calls⟩ := by
  have hgroups := filter_groupsAfter hplan hdistinct hfate
  have hleft : ((request.groupsAfter port (done ++ [action])).map (groupId sha256)).Nodup := by
    rw [← hgroups]
    exact hdistinct.sublist (filter_sublist.map _)
  obtain ⟨hblank, htargets⟩ := targets_clean (mem_allActions hplan)
  have hnone : NotBlank [] := nofun
  rcases (lossReport_eq_ok hblank hnone hnone lossRisk).mpr ⟨htargets, nodup_nil,
    nodup_nil⟩ with ⟨report, hreport⟩
  rcases (actionResult_eq_ok request.sourceSnapshot action _ hrefs report reasonCode).mpr
    ⟨hleft, hnodup⟩ with ⟨result, hresult⟩
  refine ⟨hleft, result, ?_⟩
  unfold removeTargets
  rw [hgroups, hreport, ok_bind, hresult, ok_bind]

/-! ## Replacement by references -/

section Replacing

theorem fate_of_replaced {group : ContextGroup V}
    (h : request.owner group = some .replaceWithReference) {reference : ContextGroup V}
    (hreference : referenceGroup sha256 group (request.artifactOf port group).text =
      .ok reference) : request.fate port group = some reference := by
  unfold fate
  rw [h]
  rw [hreference]
  rfl

variable [LawfulPyDynamic V]

variable (request) in
/-- The references that are written for the groups of a class, one call after the other. -/
theorem replacements_eq (hvalid : port.Valid) {groups : List (ContextGroup V)} :
    ∀ front : List (ContextGroup V), request.classOf .replaceWithReference = front ++ groups →
      ∃ written, replacements sha256 port front.length groups = .ok written ∧
        written.map Prod.fst = groups.map (fun group => (request.artifactOf port group).text) ∧
        written.map (fun w => some w.2) = groups.map (request.fate port) := by
  induction groups with
  | nil => exact fun _ _ => ⟨[], rfl, rfl, rfl⟩
  | cons group groups ih =>
    intro front hclass
    have hmem : group ∈ request.classOf .replaceWithReference := by
      rw [hclass]
      exact mem_append_right _ mem_cons_self
    have hids : ((request.classOf .replaceWithReference).map (groupId sha256)).Nodup :=
      request.sourceSnapshot.nodup_groupIds.sublist (request.sublist_classOf _)
    -- the number of the calls before is the place of the group in its class
    have hplace : ((request.classOf .replaceWithReference).map
        (groupId sha256)).idxOf (group.groupId sha256) = front.length := by
      rw [hclass, map_append, map_cons] at hids ⊢
      rw [idxOf_append_of_notMem, idxOf_cons_self, length_map, Nat.add_zero]
      exact fun h => disjoint_of_nodup_append hids h mem_cons_self
    have hartifact : port.writeArtifact front.length (writeRequest sha256 group) =
        request.artifactOf port group := by
      unfold artifactOf
      rw [hplace]
    rcases exists_referenceGroup sha256 group (strip_text_ne_empty
      (request.artifactOf port group)) with ⟨reference, hreference⟩
    rcases ih (front ++ [group]) (by rw [hclass, append_assoc]; rfl) with
      ⟨written, hwritten, hrefs, hfates⟩
    rw [length_append, length_singleton] at hwritten
    refine ⟨((request.artifactOf port group).text, reference) :: written, ?_, ?_, ?_⟩
    · unfold replacements writeReconstructionRef
      rw [hartifact, check_of_pos (hartifact ▸ hvalid _ _), ok_bind, hreference,
        ok_bind, hwritten, ok_bind]
    · rw [map_cons, map_cons, hrefs]
    · rw [map_cons, map_cons, hfates, fate_of_replaced (request.mem_classOf.mp hmem).2 hreference]

omit [LawfulPyDynamic V] in
/-- The entry of a group in a mapping of values to the identities of groups. -/
theorem get?_zip {ν : Type*} {groups : List (ContextGroup V)} {value : ContextGroup V → Option ν}
    (h : (groups.map (groupId sha256)).Nodup) {values : List ν}
    (hvalues : values.map some = groups.map value) {group : ContextGroup V}
    (hgroup : group ∈ groups) : PyDict.get? ((groups.map (groupId sha256)).zip values)
      (group.groupId sha256) = value group := by
  induction groups generalizing values with
  | nil => cases hgroup
  | cons first groups ih =>
    cases values with
    | nil => cases hvalues
    | cons v values =>
      rw [map_cons, map_cons] at hvalues
      obtain ⟨hfirst, hvalues⟩ := List.cons.inj hvalues
      rw [map_cons, nodup_cons] at h
      rw [map_cons, zip_cons_cons, get?_cons]
      rcases mem_cons.mp hgroup with rfl | hgroup
      · rw [if_pos rfl, ← hfirst]
      · have hne : first.groupId sha256 ≠ group.groupId sha256 := by
          intro heq
          rw [heq] at h
          exact h.1 (mem_map_of_mem hgroup)
        rw [if_neg hne, ih h.2 hvalues hgroup]

/-- A class is replaced exactly when the refs that are written for it are distinct and no
reference has the identity of another group. -/
theorem replaceTargets_eq_ok (hvalid : port.Valid)
    (hplan : request.plannedActions = done ++ action :: rest)
    (hclass : action = request.classAction .replaceWithReference)
    (hdistinct : ((request.groupsAfter port done).map (groupId sha256)).Nodup) :
    ((∃ applied, replaceTargets sha256 port request.sourceSnapshot.snapshotId action
        (request.groupsAfter port done) (request.classOf .replaceWithReference) 0 = .ok applied) ↔
      ((request.classOf .replaceWithReference).map fun group =>
        strip (request.artifactOf port group).text).Nodup ∧
      ((request.groupsAfter port (done ++ [action])).map (groupId sha256)).Nodup) ∧
    ∀ applied, replaceTargets sha256 port request.sourceSnapshot.snapshotId action
      (request.groupsAfter port done) (request.classOf .replaceWithReference) 0 = .ok applied →
        applied.groups = request.groupsAfter port (done ++ [action]) := by
  rcases replacements_eq request hvalid [] (nil_append _).symm with
    ⟨written, hwritten, hrefs, hfates⟩
  have htargets : action.targetGroupIds = (request.classOf .replaceWithReference).map
      (groupId sha256) := by
    rw [hclass]
    rfl
  have hids : ((request.classOf .replaceWithReference).map (groupId sha256)).Nodup :=
    request.sourceSnapshot.nodup_groupIds.sublist (request.sublist_classOf _)
  have hkeys : PyDict.keys (((request.classOf .replaceWithReference).map
      (groupId sha256)).zip (written.map Prod.snd)) =
        (request.classOf .replaceWithReference).map (groupId sha256) := by
    have hlength := congrArg List.length hfates
    rw [length_map, length_map] at hlength
    exact map_fst_zip (by rw [length_map, length_map, hlength])
  have hitems : (PyDict.keys (((request.classOf .replaceWithReference).map
      (groupId sha256)).zip (written.map Prod.snd))).Nodup := by
    rw [hkeys]
    exact hids
  -- the groups that are left, as the executor makes them
  have hgroups : ((request.groupsAfter port done).map fun group =>
      ((PyDict.update [] (((request.classOf .replaceWithReference).map
        (groupId sha256)).zip (written.map Prod.snd))).get?
          (group.groupId sha256)).getD group) = request.groupsAfter port (done ++ [action]) := by
    rw [← groupsAfter_append hplan hdistinct (fun group => some
      (((PyDict.update [] (((request.classOf .replaceWithReference).map
        (groupId sha256)).zip (written.map Prod.snd))).get?
          (group.groupId sha256)).getD group)) ?_, ← filterMap_eq_map]
    · refine filterMap_congr fun group _ => ?_
      by_cases htarget : group.groupId sha256 ∈ action.targetGroupIds
      · rw [if_pos htarget]
        rfl
      · rw [if_neg htarget, Function.comp_apply, get?_update hitems,
          (get?_eq_none_iff _ _).mpr fun h => htarget (by rwa [hkeys, ← htargets] at h)]
        rfl
    · intro group hgroup htarget
      have howner := request.owner_of_target (mem_allActions hplan) hgroup htarget
      rw [hclass] at howner
      rcases exists_referenceGroup sha256 group (strip_text_ne_empty
        (request.artifactOf port group)) with ⟨reference, hreference⟩
      have hfate := fate_of_replaced howner hreference
      rw [get?_update hitems, get?_zip hids (by
        rw [map_map]
        exact hfates) (request.mem_classOf.mpr ⟨hgroup, howner⟩), hfate]
      rfl
  have hblank : NotBlank (written.map Prod.fst) := by
    rw [hrefs]
    intro s hs
    obtain ⟨group, -, rfl⟩ := mem_map.mp hs
    exact strip_text_ne_empty _
  have hnone : NotBlank [] := nofun
  obtain ⟨hnames, hnodup⟩ := targets_clean (mem_allActions hplan)
  rcases (lossReport_eq_ok hnone hnames hnone .none).mpr ⟨nodup_nil, hnodup,
    nodup_nil⟩ with ⟨report, hreport⟩
  have hresult := actionResult_eq_ok request.sourceSnapshot action
    (request.groupsAfter port (done ++ [action])) hblank report "groups_replaced_with_durable_refs"
  rw [hrefs, map_map] at hresult
  change _ ↔ _ ∧ ((request.classOf .replaceWithReference).map fun group =>
    strip (request.artifactOf port group).text).Nodup at hresult
  unfold replaceTargets
  rw [show replacements sha256 port 0 _ = _ from hwritten, ok_bind]
  dsimp only
  rw [hgroups, hreport, ok_bind, hrefs]
  constructor
  · rw [and_comm, ← hresult]
    constructor
    · rintro ⟨applied, h⟩
      obtain ⟨result, h, -⟩ := bind_inv h
      exact ⟨result, h⟩
    · rintro ⟨result, h⟩
      exact ⟨_, bind_intro h rfl⟩
  · intro applied h
    obtain ⟨result, -, h⟩ := bind_inv h
    rw [← ok_inj h]

end Replacing

/-! ## Selection of spans -/

section Selecting

variable {group : ContextGroup V}

theorem fate_of_selected (h : request.owner group = some .selectEvidenceSpans)
    {made : ContextGroup V} (hmade : construct (group.selectedGroupFields sha256) = .ok made) :
    request.fate port group = some made := by
  unfold fate
  rw [h]
  rw [hmade]
  rfl

/-- The fields of a group of evidence with the spans that were selected are checked exactly when
these come first and the metadata can be written. -/
theorem check_selectedGroupFields (hkind : group.groupKind = .evidence)
    (hfits : group.selectionFits = true) : (group.selectedGroupFields sha256).check = .ok () ↔
      (group.selectedGroupFields sha256).members.map ContextGroupMember.ordinal =
        List.range (group.selectedGroupFields sha256).members.length ∧
      Writable (group.selectedGroupFields sha256).semanticMetadata := by
  have hvalid := group.isValid
  rw [check_eq_ok]
  constructor
  · exact fun h => ⟨h.ordinals, h.writable⟩
  · rintro ⟨hordinals, hwritable⟩
    have hnonempty : (group.selectedGroupFields sha256).members ≠ [] := by
      -- one of the spans that are selected is the ref of a member
      simp only [selectionFits, Bool.and_eq_true] at hfits
      obtain ⟨⟨⟨hsome, -⟩, hknown⟩, -⟩ := hfits
      obtain ⟨v, hv⟩ := exists_mem_of_ne_nil _ (by simpa using hsome)
      have htext := all_eq_true.mp hknown _ (mem_map_of_mem hv)
      obtain ⟨span, hspan, hsame⟩ := mem_map.mp (contains_iff_mem.mp htext)
      obtain ⟨member, hmember, rfl⟩ := mem_map.mp hspan
      refine ne_nil_of_mem (mem_filter.mpr ⟨hmember, ?_⟩)
      unfold isSelected
      rw [contains_iff_mem, hsame]
      exact mem_map_of_mem hv
    exact {
      members_nonempty := hnonempty
      ordinals := hordinals
      sources_nonempty := hvalid.sources_nonempty
      sources_distinct := hvalid.sources_distinct
      reasons_distinct := hvalid.reasons_distinct
      ref_none := hvalid.ref_none
      ref_some := hvalid.ref_some
      transaction := by
        unfold validateTransactionState
        have hkind' : (group.selectedGroupFields sha256).groupKind = .evidence := hkind
        rw [hkind', if_neg (by decide)]
        exact require_of_pos _ rfl
      citations_distinct := hvalid.citations_distinct
      writable := hwritable }

theorem notBlank_omittedSpans (selected : List V) : NotBlank (omittedSpans group selected) ∧
    (omittedSpans group selected).map strip = omittedSpans group selected := by
  have htrimmed : ∀ s ∈ omittedSpans group selected, strip s = s ∧ s ≠ "" := by
    intro s hs
    obtain ⟨member, -, rfl⟩ := mem_map.mp hs
    exact ⟨member.contentRef.trimmed, member.contentRef.nonempty⟩
  refine ⟨fun s hs => ?_, map_strip_of_trimmed fun s hs => (htrimmed s hs).1⟩
  rw [(htrimmed s hs).1]
  exact (htrimmed s hs).2

variable [LawfulPyDynamic V]

/-- The spans of a group are selected exactly when it can be rebuilt from them and what it
becomes has not the identity of another group. -/
theorem selectSpans_eq_ok (hgroup : group ∈ request.classOf .selectEvidenceSpans)
    (hclean : EvidenceClean group)
    (hplan : request.plannedActions = done ++ request.selectionOf group :: rest)
    (hdistinct : ((request.groupsAfter port done).map (groupId sha256)).Nodup) (calls : ℕ) :
    ((∃ applied, selectSpans sha256 request.sourceSnapshot.snapshotId (request.selectionOf group)
        (request.groupsAfter port done) group calls = .ok applied) ↔
      group.Rebuilds sha256 ∧ ((request.groupsAfter port (done ++ [request.selectionOf group])).map
        (groupId sha256)).Nodup) ∧
    ∀ applied, selectSpans sha256 request.sourceSnapshot.snapshotId (request.selectionOf group)
      (request.groupsAfter port done) group calls = .ok applied →
        applied.groups = request.groupsAfter port (done ++ [request.selectionOf group]) ∧
          applied.calls = calls := by
  have howner := (request.mem_classOf.mp hgroup).2
  have heligible := (request.eligible_of_mem_classOf hgroup).2
  have hselects : request.selectsSpans group = true := heligible
  unfold selectsSpans isSelectable at hselects
  simp only [Bool.and_eq_true, beq_iff_eq] at hselects
  obtain ⟨⟨⟨⟨hkind, -⟩, -⟩, -⟩, hfits, -⟩ := hselects
  have hcheck := @check_selectedGroupFields sha256 _ _ group hkind hfits
  have hselected : selectedSpans (request.selectionOf group) =
      .ok (group.items "selected_span_refs") := rfl
  have hhashable : ∀ v ∈ group.items "selected_span_refs", PyDynamic.hashable v = true := by
    intro v hv
    obtain ⟨s, hs, -⟩ := hclean.1.1 _ (mem_map_of_mem hv)
    exact PyDynamic.hashable_of_text (by rw [hs]; rfl)
  have htargets : ∀ other : ContextGroup V, other.groupId sha256 ∈
      (request.selectionOf group).targetGroupIds ↔ other.groupId sha256 = group.groupId sha256 :=
    fun _ => mem_singleton
  -- the groups that are left, as the executor makes them
  have hgroups : ∀ made, construct (group.selectedGroupFields sha256) = .ok made →
      ((request.groupsAfter port done).map fun other =>
        if other.groupId sha256 = group.groupId sha256 then made else other) =
          request.groupsAfter port (done ++ [request.selectionOf group]) := by
    intro made hmade
    rw [← groupsAfter_append hplan hdistinct (fun _ => some made) ?_, ← filterMap_eq_map]
    · refine filterMap_congr fun other _ => ?_
      by_cases hsame : other.groupId sha256 = group.groupId sha256
      · rw [if_pos ((htargets other).mpr hsame), Function.comp_apply, if_pos hsame]
      · rw [if_neg fun h => hsame ((htargets other).mp h), Function.comp_apply, if_neg hsame]
    · intro other hother htarget
      have hsame := request.sourceSnapshot.eq_of_groupId hother
        (request.classOf_subset _ hgroup) ((htargets other).mp htarget)
      rw [hsame, fate_of_selected howner hmade]
  obtain ⟨hblank, hstrip⟩ := @notBlank_omittedSpans _ _ group (group.items "selected_span_refs")
  have hnone : NotBlank [] := nofun
  have hreport := lossReport_eq_ok hnone hnone hblank .low
  rw [hstrip] at hreport
  -- what was done when the spans were selected
  have happlied : ∀ applied, selectSpans sha256 request.sourceSnapshot.snapshotId
      (request.selectionOf group) (request.groupsAfter port done) group calls = .ok applied →
      group.Rebuilds sha256 ∧ ((request.groupsAfter port (done ++ [request.selectionOf group])).map
        (groupId sha256)).Nodup ∧
      applied.groups = request.groupsAfter port (done ++ [request.selectionOf group]) ∧
        applied.calls = calls := by
    intro applied h
    unfold selectSpans at h
    rw [hselected, ok_bind, check_of_pos hhashable] at h
    obtain ⟨covered, hcovered, hrest⟩ := bind_inv h
    have hiterable := iterable_of_iterate hcovered
    obtain rfl := ok_inj ((iterate_of_iterable hiterable).symm.trans hcovered)
    obtain ⟨hhash, hrest⟩ := check_inv hrest
    obtain ⟨made, hmade, hrest⟩ := bind_inv hrest
    rw [hgroups made hmade] at hrest
    obtain ⟨report, hrep, hrest⟩ := bind_inv hrest
    obtain ⟨result, hresult, hrest⟩ := bind_inv hrest
    obtain ⟨hfirst, hwritable⟩ := hcheck.mp (check_of_construct hmade)
    rw [← ok_inj hrest]
    exact ⟨⟨hiterable, of_require hhash, hfirst, (hreport.mp ⟨report, hrep⟩).2.2,
      hwritable⟩, ((actionResult_eq_ok request.sourceSnapshot _ _ hnone report _).mp
        ⟨result, hresult⟩).1, rfl, rfl⟩
  refine ⟨⟨?_, ?_⟩, fun applied h => (happlied applied h).2.2⟩
  · rintro ⟨applied, h⟩
    exact ⟨(happlied applied h).1, (happlied applied h).2.1⟩
  · rintro ⟨hrebuilds, hleft⟩
    rcases construct_eq (hcheck.mpr ⟨hrebuilds.first, hrebuilds.writable⟩) with
      ⟨made, hmade⟩
    rcases hreport.mpr ⟨nodup_nil, nodup_nil, hrebuilds.omitted⟩ with ⟨report, hrep⟩
    rcases (actionResult_eq_ok request.sourceSnapshot (request.selectionOf group) _ hnone report
      "evidence_spans_selected_extractively").mpr ⟨hleft, nodup_nil⟩ with ⟨result, hresult⟩
    refine ⟨⟨request.groupsAfter port (done ++ [request.selectionOf group]), result, calls⟩, ?_⟩
    unfold selectSpans
    rw [hselected, ok_bind, check_of_pos hhashable, iterate_of_iterable hrebuilds.covered, ok_bind,
      check_of_pos hrebuilds.hashable,
      show construct (selectedFields sha256 group _ _) = _ from hmade, ok_bind]
    rw [hgroups made hmade, hrep, ok_bind, hresult, ok_bind]

end Selecting

end ContextCompactionPlanningRequest

end ContextCompaction
