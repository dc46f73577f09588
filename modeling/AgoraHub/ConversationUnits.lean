/-
# Complete turns in a compaction

A unit of the conversation is a user turn, its completed tool transactions and the answer
that closes it.  The compaction of old turns takes the groups that fall to it one by one,
so it takes a unit in part when another group of the unit is protected or fell to an
earlier type.
-/
import AgoraHub.ContextPlanRuns

namespace ContextCompaction

open Fallible List ContextGroup

variable {sha256 : String → HexDigest} {V : Type} [PyDynamic V]
variable {C : Type} [Zero C] [LT C] [Sub C] [DecidableLT C]

namespace ContextCompactionPlanningRequest

variable (request : ContextCompactionPlanningRequest sha256 C V)

/-- The groups that fall to the compaction of old turns. -/
def compactedIds : List String :=
  (request.classOf .compactOldConversation).map (groupId sha256)

/-- Targets that are whole units: none of the tail that is kept, and none protected. -/
structure WholeUnits (targets : List String) : Prop where
  covered : ∀ id ∈ targets, ∃ unit ∈ completeConversationUnits request.sourceSnapshot, id ∈ unit
  whole : ∀ unit ∈ completeConversationUnits request.sourceSnapshot,
    (∀ id ∈ unit, id ∈ targets) ∨ ∀ id ∈ unit, id ∉ targets
  tail : ∀ id ∈ targets, id ∉
    recentCompleteTailGroupIds request.sourceSnapshot request.policy.keepRecentCompleteTurns
  unprotected : ∀ id ∈ targets, id ∉ request.protectedIds

/-- No unit has a group that falls to the compaction beside one that does not. -/
def Unmixed : Prop :=
  ∀ unit ∈ completeConversationUnits request.sourceSnapshot,
    (∀ id ∈ unit, id ∈ request.compactedIds) ∨ ∀ id ∈ unit, id ∉ request.compactedIds

variable {request}

/-- A group that falls to the compaction is an open one of an old unit. -/
theorem of_mem_compactedIds {id : String} (h : id ∈ request.compactedIds) :
    id ∈ oldTurnGroupIds request.sourceSnapshot request.policy ∧ id ∉ request.protectedIds := by
  obtain ⟨group, hgroup, rfl⟩ := mem_map.mp h
  have howner := find?_some (request.mem_classOf.mp hgroup).2
  obtain ⟨-, heligible⟩ := Bool.and_eq_true_iff.mp howner
  obtain ⟨hopen, hold⟩ := Bool.and_eq_true_iff.mp heligible
  exact ⟨contains_iff_mem.mp hold, by simpa [isOpen] using hopen⟩

theorem wholeUnits_of_unmixed (h : request.Unmixed) : request.WholeUnits request.compactedIds where
  covered id hid := mem_flatten.mp (mem_filter.mp (of_mem_compactedIds hid).1).1
  whole := h
  tail id hid := by simpa using (mem_filter.mp (of_mem_compactedIds hid).1).2
  unprotected id hid := (of_mem_compactedIds hid).2

/-- The one action of that type targets the groups that fall to it. -/
theorem targets_compact {action : ContextCompactionAction V} (h : action ∈ request.allActions)
    (htype : action.actionType = .compactOldConversation) :
    action.targetGroupIds = request.compactedIds := by
  have haction := (mem_actionsOf_of_mem h).2
  rw [htype, actionsOf, if_neg (by decide)] at haction
  split at haction
  · cases haction
  · rw [mem_singleton.mp haction]
    rfl

theorem exists_compact (h : request.compactedIds ≠ []) : ∃ action ∈ request.allActions,
    action.actionType = .compactOldConversation ∧
      action.targetGroupIds = request.compactedIds := by
  have hclass : request.classOf .compactOldConversation ≠ [] := fun hnil => h (by
    rw [compactedIds, hnil]
    rfl)
  obtain ⟨group, hgroup⟩ := exists_mem_of_ne_nil _ hclass
  refine ⟨request.classAction .compactOldConversation,
    mem_flatMap.mpr ⟨_, request.mem_order_of_mem_classOf hgroup, ?_⟩, rfl, rfl⟩
  rw [actionsOf, if_neg (by decide), if_neg hclass]
  exact mem_singleton_self _

theorem unmixed_of_wholeUnits (h : ∀ action ∈ request.allActions,
    action.actionType = .compactOldConversation → request.WholeUnits action.targetGroupIds) :
    request.Unmixed := by
  by_cases hnil : request.compactedIds = []
  · intro unit _
    right
    intro id _ hid
    rw [hnil] at hid
    cases hid
  · obtain ⟨action, hmem, htype, htargets⟩ := exists_compact hnil
    have hwhole := (h action hmem htype).whole
    rwa [htargets] at hwhole

/-- The compaction removes whole units exactly when no unit is mixed. -/
theorem wholeUnits_iff [LawfulPyDynamic V] : (∀ actions, candidateActions request.sourceSnapshot
      request.policy request.remaining request.protectedIds = .ok actions →
    ∀ action ∈ actions, action.actionType = .compactOldConversation →
      request.WholeUnits action.targetGroupIds) ↔ (request.Readable → request.Unmixed) := by
  constructor
  · intro h hread
    exact unmixed_of_wholeUnits (h _ (request.candidateActions_eq_ok.mpr ⟨hread, rfl⟩))
  · intro h actions hactions action hmem htype
    obtain ⟨hread, rfl⟩ := request.candidateActions_eq_ok.mp hactions
    rw [targets_compact hmem htype]
    exact wholeUnits_of_unmixed (h hread)

/-! ## A protected question -/

section Turns

local instance turnMetadata : PyDynamic PyValue := plainMetadata

local instance lawful_turnMetadata : LawfulPyDynamic PyValue := lawful_plainMetadata

/-- A turn of one message. -/
def turn (role : String) (reasons : List ContextProtectionReason) (h : reasons.Nodup) :
    ContextGroup PyValue where
  groupKind := .conversationTurn
  members := [message (.ofLiteral "message://1" (.refl true))]
  sourceRefs := [.ofLiteral "message://1" (.refl true)]
  protectionReasons := reasons
  reconstructionPolicy := .none
  reconstructionRef := none
  toolTransactionState := .notApplicable
  queryBindingRef := none
  requiredCitationRefs := []
  semanticMetadata := [("role", .str role)]
  schemaRevision := .ofLiteral "newsroom.context-group/v1" (.refl true)
  valid := ContextGroupFields.check_eq_ok.mpr {
    members_nonempty := cons_ne_nil _ _
    ordinals := rfl
    sources_nonempty := cons_ne_nil _ _
    sources_distinct := nodup_singleton _
    reasons_distinct := h
    ref_none := fun _ => rfl
    ref_some := fun h => absurd rfl h
    transaction := rfl
    citations_distinct := nodup_nil
    writable := fun _ _ => rfl }

def question : ContextGroup PyValue := turn "user" [.currentTask] (nodup_singleton _)

def answer : ContextGroup PyValue := turn "assistant" [] nodup_nil

/-- A digest that tells the two turns apart. -/
def turnDigest (text : String) : HexDigest :=
  HexDigest.ofNat (if text = answer.identityProjection then 0 else 1)

theorem questionId_ne : question.groupId turnDigest ≠ answer.groupId turnDigest := by
  have htext : question.identityProjection ≠ answer.identityProjection := by decide +kernel
  rw [groupId, groupId, identity, identity, turnDigest, turnDigest,
    if_neg htext, if_pos rfl]
  decide +kernel

/-- A context of both; the question is protected as the current task. -/
def turnSnapshot : ContextSemanticSnapshot turnDigest PyValue where
  toSnapshotFields := { pageSnapshot question with groups := [question, answer] }
  valid := by
    unfold SnapshotFields.check
    simp only [check_bind_eq_ok, require_eq_ok]
    exact ⟨cons_ne_nil _ _, by simp [questionId_ne], fun _ => rfl, fun h => absurd rfl h⟩

def turnRequest : ContextCompactionPlanningRequest turnDigest ℚ PyValue where
  sourceSnapshot := turnSnapshot
  initialAdmission := {
    pageAdmission ⟨pageSnapshot question, check_pageSnapshot question⟩ with
    sourceSnapshotId := turnSnapshot.snapshotId
    sourceSnapshotChecksum := turnSnapshot.checksum
    inputTokens := 20
    groupInputTokens := turnSnapshot.groupIds.map fun id => (id, 10)
    admitted_iff := by decide
    groups_distinct := by
      simpa [PyDict.keys, Function.comp_def] using turnSnapshot.nodup_groupIds
    tokens_sum := rfl }
  policy := { pagePolicy .compactOldConversation with keepRecentCompleteTurns := 0 }
  budgetUsage := { cost_nonneg := (by simp : ¬ (0 : ℚ) < 0) }
  kind_source := rfl
  admission_snapshot := rfl
  admission_checksum := rfl
  policy_revision := rfl
  profile_revision := rfl
  admission_groups := fun id => by
    simp [PyDict.keys, Function.comp_def]

theorem protectedIds_turnRequest :
    turnRequest.protectedIds = [question.groupId turnDigest] := rfl

theorem units_turnRequest : completeConversationUnits turnRequest.sourceSnapshot =
    [[question.groupId turnDigest, answer.groupId turnDigest]] := rfl

/-- The answer falls to the compaction, the question does not. -/
theorem not_unmixed_turnRequest : ¬ turnRequest.Unmixed := by
  have hquestion : question.groupId turnDigest ∉ turnRequest.compactedIds := fun h =>
    (of_mem_compactedIds h).2 (protectedIds_turnRequest ▸ mem_singleton_self _)
  have hanswer : answer.groupId turnDigest ∈ turnRequest.compactedIds := by
    refine mem_map.mpr ⟨answer, turnRequest.mem_classOf.mpr
      ⟨mem_cons_of_mem _ (mem_singleton_self _), ?_⟩, rfl⟩
    have hopen : turnRequest.isOpen answer = true := by
      rw [isOpen, protectedIds_turnRequest]
      simp [questionId_ne.symm]
    have hold : answer.groupId turnDigest ∈
        oldTurnGroupIds turnRequest.sourceSnapshot turnRequest.policy := by
      have htail : recentCompleteTailGroupIds turnRequest.sourceSnapshot
          turnRequest.policy.keepRecentCompleteTurns = [] := rfl
      rw [oldTurnGroupIds, htail, units_turnRequest]
      simp
    have heligible : turnRequest.eligible .compactOldConversation answer = true := by
      unfold eligible
      rw [hopen, contains_iff_mem.mpr hold]
      rfl
    exact find?_cons_of_pos (Bool.and_eq_true_iff.mpr ⟨rfl, heligible⟩)
  intro h
  rcases h _ (units_turnRequest ▸ mem_singleton_self _) with h | h
  · exact hquestion (h _ mem_cons_self)
  · exact h _ (mem_cons_of_mem _ (mem_singleton_self _)) hanswer

/-- The answer is removed and the question stays. -/
theorem not_wholeUnits_turns : ¬ ∀ (sha256 : String → HexDigest)
      (request : ContextCompactionPlanningRequest sha256 ℚ PyValue) actions,
    candidateActions request.sourceSnapshot request.policy request.remaining
        request.protectedIds = .ok actions →
      ∀ action ∈ actions, action.actionType = .compactOldConversation →
        request.WholeUnits action.targetGroupIds := by
  intro h
  have hread : turnRequest.Readable := by
    refine ⟨fun h => absurd h (by decide), ?_, fun h => absurd h (by decide), ?_⟩
    · rw [turnRequest.classOf_eq_nil (by decide)]
      exact fun _ h => absurd h not_mem_nil
    · rw [turnRequest.classOf_eq_nil (by decide)]
      exact fun _ h => absurd h not_mem_nil
  exact not_unmixed_turnRequest (unmixed_of_wholeUnits
    (h _ turnRequest _ (turnRequest.candidateActions_eq_ok.mpr ⟨hread, rfl⟩)))

/-- A context of the answer alone has no unit to take in part. -/
theorem wholeUnits_iff_answer : (∀ actions, candidateActions
      (pageRequest .compactOldConversation 0 answer).sourceSnapshot
      (pageRequest .compactOldConversation 0 answer).policy
      (pageRequest .compactOldConversation 0 answer).remaining
      (pageRequest .compactOldConversation 0 answer).protectedIds = .ok actions →
    ∀ action ∈ actions, action.actionType = .compactOldConversation →
      (pageRequest .compactOldConversation 0 answer).WholeUnits action.targetGroupIds) ↔
    ((pageRequest .compactOldConversation 0 answer).Readable →
      (pageRequest .compactOldConversation 0 answer).Unmixed) :=
  wholeUnits_iff

end Turns

end ContextCompactionPlanningRequest

end ContextCompaction
