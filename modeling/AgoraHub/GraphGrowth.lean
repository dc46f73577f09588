/-
# What the compiler appends

Each step of the compiler appends nodes and edges to its context; the identifier of
an edge carries its position, so no two edges share one.
-/
import AgoraHub.GraphCompiler
import AgoraHub.GraphPieces

namespace HarnessGraph

open Fallible List CompilerContext
open TaskPlan (HarnessValidationError)

/-! ## Edge identifiers -/

/-- The position that the identifier of an edge carries. -/
def ordinalOfId (edgeId : String) : ℕ :=
  Nat.ofDigitChars 10 ((edgeId.toList.drop 5).takeWhile Char.isDigit) 0

theorem toList_ordinalText (n : ℕ) : (ordinalText n).toList =
    List.replicate (6 - (toString n).length) '0' ++ Nat.toDigits 10 n := by
  unfold ordinalText
  rw [String.toList_append, String.toList_ofList]
  congr 1
  exact Nat.toList_repr

/-- The position can be read off an identifier. -/
theorem ordinalOfId_edgeId (n : ℕ) (kind : EdgeKind) (sourceId targetId : String) :
    ordinalOfId (CompilerContext.edgeId n kind sourceId targetId) = n := by
  have hdigits : ∀ c ∈ (ordinalText n).toList, c.isDigit = true := by
    intro c hc
    rw [toList_ordinalText, mem_append] at hc
    rcases hc with hc | hc
    · obtain rfl := eq_of_mem_replicate hc
      rfl
    · exact Nat.isDigit_of_mem_toDigits (by omega) (by omega) hc
  have hedge : "edge:".toList = ['e', 'd', 'g', 'e', ':'] := by decide
  have hcolon : ":".toList = [':'] := by decide
  have hlist : (CompilerContext.edgeId n kind sourceId targetId).toList.drop 5 =
      (ordinalText n).toList ++
        ':' :: (kind.value.toList ++ ([':'] ++ (sourceId.toList ++ ([':'] ++ targetId.toList)))) := by
    unfold CompilerContext.edgeId
    simp only [String.toList_append, append_assoc, hedge, hcolon]
    rw [drop_append_of_le_length (by simp)]
    simp
  unfold ordinalOfId
  rw [hlist, takeWhile_append_of_pos hdigits, takeWhile_cons_of_neg (by decide),
    append_nil, toList_ordinalText, Nat.ofDigitChars_append, Nat.ofDigitChars_replicate_zero,
    Nat.mul_zero, Nat.ofDigitChars_ten_toDigits]

/-! ## Growth -/

/-- What a compilation step has appended. -/
structure Grows (c c' : CompilerContext) (nodes : List HarnessGraphNode) (arrows : List Arrow) :
    Prop where
  nodes : c'.nodes = c.nodes ++ nodes
  edges : ∃ edges, c'.edges = c.edges ++ edges ∧ edges.map HarnessGraphEdge.arrow = arrows ∧
    edges.map (fun e => ordinalOfId e.edgeId) = List.range' c.edgeOrder arrows.length
  order : c'.edgeOrder = c.edgeOrder + arrows.length

namespace Grows

variable {c c' c'' : CompilerContext} {nodes nodes' : List HarnessGraphNode}
  {arrows arrows' : List Arrow}

theorem refl (c : CompilerContext) : Grows c c [] [] :=
  ⟨(append_nil _).symm, ⟨[], (append_nil _).symm, rfl, rfl⟩, rfl⟩

theorem trans (h : Grows c c' nodes arrows) (h' : Grows c' c'' nodes' arrows') :
    Grows c c'' (nodes ++ nodes') (arrows ++ arrows') := by
  rcases h.edges with ⟨E, hE, harrows, hordinals⟩
  rcases h'.edges with ⟨E', hE', harrows', hordinals'⟩
  refine ⟨?_, ⟨E ++ E', ?_, ?_, ?_⟩, ?_⟩
  · rw [h'.nodes, h.nodes, append_assoc]
  · rw [hE', hE, append_assoc]
  · rw [map_append, harrows, harrows']
  · rw [map_append, hordinals, hordinals', h.order, length_append, range'_append_1]
  · rw [h'.order, h.order, length_append, Nat.add_assoc]

theorem of_eq (hnodes : c'.nodes = c.nodes) (hedges : c'.edges = c.edges)
    (horder : c'.edgeOrder = c.edgeOrder) : Grows c c' [] [] :=
  ⟨hnodes.trans (append_nil _).symm, ⟨[], hedges.trans (append_nil _).symm, rfl, rfl⟩, horder⟩

theorem addEdgeWith (c : CompilerContext) (sourceId targetId : String) (kind : EdgeKind)
    (priority : ℤ) (condition : Option HarnessCondition) (branchId loopId : Option String) :
    Grows c (c.addEdgeWith sourceId targetId kind priority condition branchId loopId) []
      [⟨sourceId, targetId, kind, branchId, loopId⟩] := by
  refine ⟨(append_nil _).symm, ⟨_, rfl, rfl, ?_⟩, rfl⟩
  rw [map_singleton, ordinalOfId_edgeId]
  rfl

theorem addEdge (c : CompilerContext) (sourceId targetId : String) (kind : EdgeKind)
    (branchId loopId : Option String) :
    Grows c (c.addEdge sourceId targetId kind branchId loopId) []
      [⟨sourceId, targetId, kind, branchId, loopId⟩] :=
  addEdgeWith c sourceId targetId kind 0 none branchId loopId

theorem foldl {α : Type} {f : CompilerContext → α → CompilerContext} {g : α → List Arrow}
    (h : ∀ c x, Grows c (f c x) [] (g x)) : ∀ (xs : List α) (c : CompilerContext),
      Grows c (xs.foldl f c) [] (xs.flatMap g)
  | [], c => refl c
  | x :: xs, c => (h c x).trans (foldl h xs (f c x))

end Grows

/-! ## Nodes -/

/-- A control node as the graph keeps it: its branches are sorted. -/
def placed (n : HarnessControlNode) (order : ℕ) : HarnessControlNode :=
  { n with
    declarationOrder := order
    branches := n.branches.insertionSort HarnessControlNode.branchLe }

@[simp] theorem nodeId_placed (n : HarnessControlNode) (order : ℕ) :
    (placed n order).nodeId = n.nodeId := rfl

@[simp] theorem nodeKind_placed (n : HarnessControlNode) (order : ℕ) :
    (placed n order).nodeKind = n.nodeKind := rfl

theorem mem_branches_placed (n : HarnessControlNode) (order : ℕ) (b : HarnessBranch) :
    b ∈ (placed n order).branches ↔ b ∈ n.branches :=
  (perm_insertionSort _ n.branches).mem_iff

/-- Adding a control node appends it, with the contract its kind asks for. -/
theorem addControl_eq_ok {c c' : CompilerContext} {n : HarnessControlNode}
    (h : c.addControl n = .ok c') : n.present = HarnessControlNode.expectedContract n.nodeKind ∧
      Grows c c' [.control (placed n c.nodeOrder)] [] := by
  unfold addControl at h
  obtain ⟨node, hnode, h₁⟩ := bind_inv h
  cases h₁
  unfold HarnessControlNode.construct at hnode
  obtain ⟨-, h₂⟩ := check_inv hnode
  obtain ⟨hpresent, h₃⟩ := check_inv h₂
  cases h₃
  exact ⟨of_require hpresent, rfl, ⟨[], (append_nil _).symm, rfl, rfl⟩, rfl⟩

/-- Adding an executable node appends it. -/
theorem addExecutable_eq_ok {d : HarnessGraphDefinition} {c c' : CompilerContext}
    {activityId nodeId : String} (h : d.addExecutable c activityId nodeId = .ok c') :
    ∃ node : HarnessExecutableNode, node.nodeId = nodeId ∧ Grows c c' [.executable node] [] := by
  unfold HarnessGraphDefinition.addExecutable at h
  obtain ⟨a, -, h⟩ := bind_inv h
  iterate 2 rcases check_inv h with ⟨-, h⟩
  obtain ⟨⟨workerRef, activityRef, stepMetadata⟩, -, h⟩ := bind_inv h
  obtain ⟨gateRefs, -, h⟩ := bind_inv h
  obtain ⟨sideEffectRef, -, h⟩ := bind_inv h
  obtain ⟨stepRef, -, h⟩ := bind_inv h
  iterate 2 rcases check_inv h with ⟨-, h⟩
  obtain ⟨inputKeys, -, h⟩ := bind_inv h
  obtain ⟨outputKeys, -, h⟩ := bind_inv h
  cases h
  exact ⟨_, rfl, rfl, ⟨[], (append_nil _).symm, rfl, rfl⟩, rfl⟩

end HarnessGraph
