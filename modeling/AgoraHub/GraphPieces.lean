/-
# Pieces of a compiled graph

What every expression of the definition language compiles to, whatever it is nested
in: a set of nodes with an order that all edges but the loop-back ones follow, whose
joins are paired with their openings, entered at one node and left at another.
-/
import AgoraHub.GraphStructure

namespace HarnessGraph

open NormalizedHarnessGraph List NodeKind

/-! ## Arrows -/

/-- An edge without its identifier, its priority and its condition. -/
structure Arrow where
  sourceId : String
  targetId : String
  edgeKind : EdgeKind
  branchId : Option String
  loopId : Option String

/-- The arrow of an edge. -/
def HarnessGraphEdge.arrow (e : HarnessGraphEdge) : Arrow :=
  ⟨e.sourceId, e.targetId, e.edgeKind, e.branchId, e.loopId⟩

/-- One arrow leads from a node to another. -/
def Linked (arrows : List Arrow) (x y : String) : Prop :=
  ∃ a ∈ arrows, a.sourceId = x ∧ a.targetId = y

/-- A path along arrows. -/
abbrev Path (arrows : List Arrow) : String → String → Prop := Relation.ReflTransGen (Linked arrows)

theorem Path.mono {arrows arrows' : List Arrow} (h : arrows ⊆ arrows') {x y : String}
    (hpath : Path arrows x y) : Path arrows' x y := by
  refine Relation.ReflTransGen.mono ?_ x y hpath
  rintro u v ⟨a, ha, hends⟩
  exact ⟨a, h ha, hends⟩

/-! ## Joins -/

/-- The kinds of joins that must see exactly the edges they expect. -/
def NodeKind.covered (kind : NodeKind) : Prop := kind = .choiceJoin ∨ kind = .loopJoin

/-- The dependency arrows into a node, as pairs of a source and a branch. -/
def Enters (arrows : List Arrow) (nodeId : String) (test : Arrow → Prop)
    (pair : String × Option String) : Prop :=
  ∃ a ∈ arrows, a.targetId = nodeId ∧ a.edgeKind = .dependency ∧ test a ∧
    (a.sourceId, a.branchId) = pair

section

variable (nodes : List HarnessGraphNode)

/-- A choice join refers to a choice with its branches, and is entered from their ends. -/
def ChoiceJoinOk (arrows : List Arrow) (join : HarnessControlNode) : Prop :=
  ∃ choice, HarnessGraphNode.control choice ∈ nodes ∧ choice.nodeKind = .choice ∧
    join.metadata.get? "choice_node_id" = some (.str choice.nodeId) ∧
    join.branches = choice.branches ∧
    ∀ pair, Enters arrows join.nodeId (fun _ => True) pair ↔ pair ∈ expectedEdges choice.branches

/-- A loop join refers to a loop guard with its routes, and is entered from their ends. -/
def LoopJoinOk (arrows : List Arrow) (join : HarnessControlNode) : Prop :=
  ∃ guard loop, HarnessGraphNode.control guard ∈ nodes ∧ loopContract? guard = some loop ∧
    join.metadata.get? "loop_node_id" = some (.str guard.nodeId) ∧
    SameSet (PyDict.keys (PyDict.ofItems HarnessBranch.branchId id join.branches))
      (expectedLoopBranchIds loop) ∧
    loopRoutesMatch (PyDict.ofItems HarnessBranch.branchId id join.branches) loop ∧
    ∀ pair, Enters arrows join.nodeId (fun a => a.loopId = some guard.nodeId) pair ↔
      pair ∈ expectedEdges
        (PyDict.values (PyDict.ofItems HarnessBranch.branchId id join.branches))

/-- A parallel join refers to a fork of its kind with its branches. -/
def ForkJoinOk (join : HarnessControlNode) : Prop :=
  ∀ contract ∈ join.join, ∃ fork, HarnessGraphNode.control fork ∈ nodes ∧
    fork.nodeId = contract.forkNodeId ∧ fork.nodeKind = forkKindOf join.nodeKind ∧
    SameSet (fork.branches.map HarnessBranch.branchId) contract.requiredBranchIds

end

/-- What holds of a control node, by its kind. -/
structure JoinOk (nodes : List HarnessGraphNode) (arrows : List Arrow)
    (n : HarnessControlNode) : Prop where
  choice : n.nodeKind = .choiceJoin → ChoiceJoinOk nodes arrows n
  loop : n.nodeKind = .loopJoin → LoopJoinOk nodes arrows n
  fork : n.nodeKind = .joinAll ∨ n.nodeKind = .joinAny → ForkJoinOk nodes n

theorem enters_congr {arrows arrows' : List Arrow} {nodeId : String} (hsub : arrows ⊆ arrows')
    (hnew : ∀ a ∈ arrows', a ∈ arrows ∨ a.targetId ≠ nodeId) (test : Arrow → Prop)
    (pair : String × Option String) :
    Enters arrows' nodeId test pair ↔ Enters arrows nodeId test pair := by
  constructor
  · rintro ⟨a, ha, htarget, hrest⟩
    rcases hnew a ha with hold | hne
    · exact ⟨a, hold, htarget, hrest⟩
    · exact absurd htarget hne
  · rintro ⟨a, ha, hrest⟩
    exact ⟨a, hsub ha, hrest⟩

/-- More nodes and arrows keep what holds of a join, when none of the arrows enters one
that must see exactly its own. -/
theorem JoinOk.mono {nodes nodes' : List HarnessGraphNode} {arrows arrows' : List Arrow}
    {n : HarnessControlNode} (h : JoinOk nodes arrows n) (hnodes : nodes ⊆ nodes')
    (hsub : arrows ⊆ arrows')
    (hnew : n.nodeKind.covered → ∀ a ∈ arrows', a ∈ arrows ∨ a.targetId ≠ n.nodeId) :
    JoinOk nodes' arrows' n := by
  refine ⟨?_, ?_, ?_⟩
  · intro hkind
    obtain ⟨choice, hmem, hchoice, href, hbranches, henters⟩ := h.choice hkind
    refine ⟨choice, hnodes hmem, hchoice, href, hbranches, fun pair => ?_⟩
    rw [enters_congr hsub (hnew (Or.inl hkind)), henters]
  · intro hkind
    obtain ⟨guard, loop, hmem, hloop, href, hkeys, hroutes, henters⟩ := h.loop hkind
    refine ⟨guard, loop, hnodes hmem, hloop, href, hkeys, hroutes, fun pair => ?_⟩
    rw [enters_congr hsub (hnew (Or.inr hkind)), henters]
  · intro hkind contract hcontract
    obtain ⟨fork, hmem, hrest⟩ := h.fork hkind contract hcontract
    exact ⟨fork, hnodes hmem, hrest⟩

theorem JoinOk.of_kind {nodes : List HarnessGraphNode} {arrows : List Arrow}
    {n : HarnessControlNode}
    (hkind : n.nodeKind ∉ [choiceJoin, .loopJoin, .joinAll, .joinAny]) :
    JoinOk nodes arrows n := by
  simp only [mem_cons, not_mem_nil, or_false, not_or] at hkind
  refine ⟨fun h => absurd h hkind.1, fun h => absurd h hkind.2.1, ?_⟩
  rintro (h | h)
  · exact absurd h hkind.2.2.1
  · exact absurd h hkind.2.2.2

/-! ## Pairs -/

/-- A text in the metadata of a node. -/
def metadataText (n : HarnessControlNode) (key : String) : Option String :=
  match n.metadata.get? key with
  | some (.str text) => some text
  | _ => none

/-- The kind and the identifier of the node that a join refers to. -/
def partner? : HarnessGraphNode → Option (NodeKind × String)
  | .executable _ => none
  | .control n =>
    match n.nodeKind with
    | .choiceJoin => (metadataText n "choice_node_id").map fun choiceId => (.choice, choiceId)
    | .loopJoin => (metadataText n "loop_node_id").map fun loopId => (.loopGuard, loopId)
    | .joinAll => n.join.map fun join => (.forkAll, join.forkNodeId)
    | .joinAny => n.join.map fun join => (.forkAny, join.forkNodeId)
    | _ => none

/-- The kind and the identifier of a node that needs a join. -/
def owner? : HarnessGraphNode → Option (NodeKind × String)
  | .executable _ => none
  | .control n =>
    if n.nodeKind ∈ [NodeKind.choice, .loopGuard, .forkAll, .forkAny] then
      some (n.nodeKind, n.nodeId)
    else none

/-! ## Pieces -/

/-- A loop arrow is one that the contract of a guard declares. -/
def LoopArrow (nodes : List HarnessGraphNode) (a : Arrow) : Prop :=
  a.edgeKind ∈ loopEdgeKinds → ∃ guard loop, HarnessGraphNode.control guard ∈ nodes ∧
    loopContract? guard = some loop ∧ a.loopId = some guard.nodeId ∧
    loopEdgeValid a.edgeKind a.sourceId a.targetId guard.nodeId loop

theorem LoopArrow.mono {nodes nodes' : List HarnessGraphNode} {a : Arrow}
    (h : LoopArrow nodes a) (hnodes : nodes ⊆ nodes') : LoopArrow nodes' a := by
  intro hkind
  obtain ⟨guard, loop, hmem, hrest⟩ := h hkind
  exact ⟨guard, loop, hnodes hmem, hrest⟩

/-- Nodes and arrows that belong together, over a list of their identifiers in the
order the arrows follow. -/
structure Piece (ids : List String) (nodes : List HarnessGraphNode) (arrows : List Arrow) :
    Prop where
  perm : (nodes.map HarnessGraphNode.nodeId).Perm ids
  order : ∀ a ∈ arrows, a.edgeKind ≠ .loopBack → [a.sourceId, a.targetId].Sublist ids
  back : ∀ a ∈ arrows, a.edgeKind = .loopBack → a.sourceId ∈ ids ∧ a.targetId ∈ ids
  forward : ∀ a ∈ arrows, ¬ a.edgeKind.nonForward
  loops : ∀ a ∈ arrows, LoopArrow nodes a
  joins : ∀ n, HarnessGraphNode.control n ∈ nodes → JoinOk nodes arrows n
  paired : (nodes.filterMap partner?).Perm (nodes.filterMap owner?)

namespace Piece

variable {ids : List String} {nodes : List HarnessGraphNode} {arrows : List Arrow}

theorem ends (h : Piece ids nodes arrows) {a : Arrow} (ha : a ∈ arrows) :
    a.sourceId ∈ ids ∧ a.targetId ∈ ids := by
  by_cases hback : a.edgeKind = .loopBack
  · exact h.back a ha hback
  · have hsub := (h.order a ha hback).subset
    exact ⟨hsub (by simp), hsub (by simp)⟩

theorem nodeId_mem (h : Piece ids nodes arrows) {n : HarnessGraphNode} (hn : n ∈ nodes) :
    n.nodeId ∈ ids :=
  h.perm.mem_iff.mp (mem_map_of_mem hn)

theorem nil : Piece [] [] [] := by
  refine ⟨List.Perm.refl _, ?_, ?_, ?_, ?_, ?_, List.Perm.refl _⟩ <;> simp

/-- Two pieces without a node in common stand side by side. -/
theorem append {ids' : List String} {nodes' : List HarnessGraphNode} {arrows' : List Arrow}
    (h : Piece ids nodes arrows) (h' : Piece ids' nodes' arrows') (hnodup : (ids ++ ids').Nodup) :
    Piece (ids ++ ids') (nodes ++ nodes') (arrows ++ arrows') := by
  have hdisjoint := (nodup_append.mp hnodup).2.2
  refine ⟨?_, ?_, ?_, ?_, ?_, ?_, ?_⟩
  · rw [map_append]
    exact h.perm.append h'.perm
  · intro a ha hkind
    rcases mem_append.mp ha with ha | ha
    · exact (h.order a ha hkind).trans (sublist_append_left _ _)
    · exact (h'.order a ha hkind).trans (sublist_append_right _ _)
  · intro a ha hkind
    rcases mem_append.mp ha with ha | ha
    · have := h.back a ha hkind
      exact ⟨mem_append_left _ this.1, mem_append_left _ this.2⟩
    · have := h'.back a ha hkind
      exact ⟨mem_append_right _ this.1, mem_append_right _ this.2⟩
  · intro a ha
    rcases mem_append.mp ha with ha | ha
    · exact h.forward a ha
    · exact h'.forward a ha
  · intro a ha
    rcases mem_append.mp ha with ha | ha
    · exact (h.loops a ha).mono (subset_append_left _ _)
    · exact (h'.loops a ha).mono (subset_append_right _ _)
  · -- the arrows of one piece do not enter the other
    intro n hn
    rcases mem_append.mp hn with hn | hn
    · apply (h.joins n hn).mono (subset_append_left _ _) (subset_append_left _ _)
      intro _ a ha
      rcases mem_append.mp ha with ha | ha
      · exact Or.inl ha
      · exact Or.inr (Ne.symm (hdisjoint _ (h.nodeId_mem hn) _ (h'.ends ha).2))
    · apply (h'.joins n hn).mono (subset_append_right _ _) (subset_append_right _ _)
      intro _ a ha
      rcases mem_append.mp ha with ha | ha
      · exact Or.inr (hdisjoint _ (h.ends ha).2 _ (h'.nodeId_mem hn))
      · exact Or.inl ha
  · rw [filterMap_append, filterMap_append]
    exact h.paired.append h'.paired

/-- More nodes, and arrows between all of them. -/
theorem extend {ids' : List String} (nodes' : List HarnessGraphNode) (arrows' : List Arrow)
    (h : Piece ids nodes arrows) (hsub : ids.Sublist ids')
    (hperm : (ids ++ nodes'.map HarnessGraphNode.nodeId).Perm ids')
    (horder : ∀ a ∈ arrows', a.edgeKind ≠ .loopBack → [a.sourceId, a.targetId].Sublist ids')
    (hback : ∀ a ∈ arrows', a.edgeKind = .loopBack → a.sourceId ∈ ids' ∧ a.targetId ∈ ids')
    (hforward : ∀ a ∈ arrows', ¬ a.edgeKind.nonForward)
    (hloops : ∀ a ∈ arrows', LoopArrow (nodes ++ nodes') a)
    (hold : ∀ n, HarnessGraphNode.control n ∈ nodes → n.nodeKind.covered →
      ∀ a ∈ arrows', a.targetId ≠ n.nodeId) (hjoins : ∀ n, HarnessGraphNode.control n ∈ nodes' →
      JoinOk (nodes ++ nodes') (arrows ++ arrows') n)
    (hpaired : (nodes'.filterMap partner?).Perm (nodes'.filterMap owner?)) :
    Piece ids' (nodes ++ nodes') (arrows ++ arrows') := by
  refine ⟨?_, ?_, ?_, ?_, ?_, ?_, ?_⟩
  · rw [map_append]
    exact (h.perm.append_right _).trans hperm
  · intro a ha hkind
    rcases mem_append.mp ha with ha | ha
    · exact (h.order a ha hkind).trans hsub
    · exact horder a ha hkind
  · intro a ha hkind
    rcases mem_append.mp ha with ha | ha
    · have := h.back a ha hkind
      exact ⟨hsub.subset this.1, hsub.subset this.2⟩
    · exact hback a ha hkind
  · intro a ha
    rcases mem_append.mp ha with ha | ha
    · exact h.forward a ha
    · exact hforward a ha
  · intro a ha
    rcases mem_append.mp ha with ha | ha
    · exact (h.loops a ha).mono (subset_append_left _ _)
    · exact hloops a ha
  · intro n hn
    rcases mem_append.mp hn with hn | hn
    · apply (h.joins n hn).mono (subset_append_left _ _) (subset_append_left _ _)
      intro hkind a ha
      rcases mem_append.mp ha with ha | ha
      · exact Or.inl ha
      · exact Or.inr (hold n hn hkind a ha)
    · exact hjoins n hn
  · rw [filterMap_append, filterMap_append]
    exact h.paired.append hpaired

end Piece

/-! ## Parts -/

/-- A piece with the node it is entered by and the node it is left by. -/
structure Part where
  ids : List String
  nodes : List HarnessGraphNode
  arrows : List Arrow
  entry : String
  terminal : String

/-- A part is entered at one node, which leads to all its nodes, and nothing leaves
the node it is left by. -/
structure Part.Ok (p : Part) : Prop extends Piece p.ids p.nodes p.arrows where
  reach : ∀ x ∈ p.ids, Path p.arrows p.entry x
  last : ∀ a ∈ p.arrows, a.sourceId ≠ p.terminal
  entry_mem : p.entry ∈ p.ids
  terminal_mem : p.terminal ∈ p.ids
  entry_kind : ∀ n, HarnessGraphNode.control n ∈ p.nodes → n.nodeId = p.entry →
    ¬ n.nodeKind.covered

namespace Part

variable {parts : List Part}

/-- Parts without a node in common stand side by side. -/
theorem piece_of_parts : ∀ {parts : List Part}, (∀ p ∈ parts, p.Ok) →
    (parts.flatMap ids).Nodup → Piece (parts.flatMap ids) (parts.flatMap nodes)
      (parts.flatMap arrows)
  | [], _, _ => Piece.nil
  | p :: parts, hok, hnodup => by
    rw [flatMap_cons] at hnodup
    have hrest := piece_of_parts (fun q hq => hok q (mem_cons_of_mem _ hq))
      (nodup_append.mp hnodup).2.1
    exact (hok p mem_cons_self).toPiece.append hrest hnodup

theorem eq_of_mem_ids (hnodup : (parts.flatMap ids).Nodup) {p q : Part} (hp : p ∈ parts)
    (hq : q ∈ parts) {x : String} (hxp : x ∈ p.ids) (hxq : x ∈ q.ids) : p = q := by
  by_contra hne
  have hpairwise := (nodup_flatMap.mp hnodup).2
  have hsymm : Std.Symm (Function.onFun List.Disjoint ids) := ⟨fun _ _ h => h.symm⟩
  exact hpairwise.forall hp hq hne hxp hxq

/-- The part of a single node. -/
def leaf (n : HarnessGraphNode) : Part := ⟨[n.nodeId], [n], [], n.nodeId, n.nodeId⟩

/-- A single node that is no join and needs none. -/
theorem leaf_ok {n : HarnessGraphNode}
    (hkind : n.nodeKind ∈ [NodeKind.executable, .wait, .merge, .terminal]) : (leaf n).Ok := by
  have hpartner : partner? n = none ∧ owner? n = none := by
    cases n with
    | executable n => exact ⟨rfl, rfl⟩
    | control n =>
      simp only [HarnessGraphNode.nodeKind, mem_cons, not_mem_nil, or_false] at hkind
      rcases hkind with h | h | h | h <;> simp [partner?, owner?, h]
  have hcontrol : ∀ m, HarnessGraphNode.control m ∈ [n] →
      m.nodeKind ∉ [choiceJoin, .loopJoin, .joinAll, .joinAny] := by
    intro m hm
    obtain rfl := mem_singleton.mp hm
    simp only [HarnessGraphNode.nodeKind, mem_cons, not_mem_nil, or_false] at hkind
    rcases hkind with h | h | h | h <;> simp [h]
  refine ⟨⟨List.Perm.refl _, ?_, ?_, ?_, ?_, ?_, ?_⟩, ?_, ?_, ?_, ?_, ?_⟩
  · simp [leaf]
  · simp [leaf]
  · simp [leaf]
  · simp [leaf]
  · exact fun m hm => JoinOk.of_kind (hcontrol m hm)
  · simp [leaf, hpartner]
  · intro x hx
    obtain rfl := mem_singleton.mp hx
    exact Relation.ReflTransGen.refl
  · simp [leaf]
  · exact mem_singleton_self _
  · exact mem_singleton_self _
  · rintro m hm - (h | h)
    · exact hcontrol m hm (by simp [h])
    · exact hcontrol m hm (by simp [h])

/-- Only which arrows a part has matters. -/
theorem Ok.congr {p : Part} (h : p.Ok) (arrows' : List Arrow)
    (hmem : ∀ a, a ∈ arrows' ↔ a ∈ p.arrows) : Ok { p with arrows := arrows' } := by
  have hto : p.arrows ⊆ arrows' := fun a ha => (hmem a).mpr ha
  refine ⟨⟨h.perm, ?_, ?_, ?_, ?_, ?_, h.paired⟩, ?_, ?_, h.entry_mem, h.terminal_mem, h.entry_kind⟩
  · exact fun a ha => h.order a ((hmem a).mp ha)
  · exact fun a ha => h.back a ((hmem a).mp ha)
  · exact fun a ha => h.forward a ((hmem a).mp ha)
  · exact fun a ha => h.loops a ((hmem a).mp ha)
  · exact fun n hn => (h.joins n hn).mono (List.Subset.refl _) hto
      fun _ a ha => Or.inl ((hmem a).mp ha)
  · exact fun x hx => (h.reach x hx).mono hto
  · exact fun a ha => h.last a ((hmem a).mp ha)

/-- One part after another, with an arrow between them. -/
def seq (p q : Part) (link : Arrow) : Part :=
  ⟨p.ids ++ q.ids, p.nodes ++ q.nodes, p.arrows ++ q.arrows ++ [link], p.entry, q.terminal⟩

theorem seq_ok {p q : Part} (link : Arrow) (hp : p.Ok) (hq : q.Ok)
    (hnodup : (p.ids ++ q.ids).Nodup) (hsource : link.sourceId = p.terminal)
    (htarget : link.targetId = q.entry) (hkind : link.edgeKind ∈ [EdgeKind.dependency, .waitResume]) :
    (seq p q link).Ok := by
  have hdisjoint := (nodup_append.mp hnodup).2.2
  have hloop : link.edgeKind ∉ loopEdgeKinds ∧ link.edgeKind ≠ .loopBack ∧
      ¬ link.edgeKind.nonForward := by
    simp only [mem_cons, not_mem_nil, or_false] at hkind
    rcases hkind with h | h <;> rw [h] <;> decide
  have hboth := hp.toPiece.append hq.toPiece hnodup
  have hpiece : Piece (p.ids ++ q.ids) (p.nodes ++ q.nodes) (p.arrows ++ q.arrows ++ [link]) := by
    have h := hboth.extend [] [link] (List.Sublist.refl _) (by simp)
      ?_ ?_ ?_ ?_ ?_ (by simp) (List.Perm.refl _)
    · rwa [append_nil] at h
    · intro a ha _
      obtain rfl := mem_singleton.mp ha
      rw [hsource, htarget]
      exact List.Sublist.append (singleton_sublist.mpr hp.terminal_mem)
        (singleton_sublist.mpr hq.entry_mem)
    · intro a ha hback
      obtain rfl := mem_singleton.mp ha
      exact absurd hback hloop.2.1
    · intro a ha
      obtain rfl := mem_singleton.mp ha
      exact hloop.2.2
    · intro a ha hmem
      obtain rfl := mem_singleton.mp ha
      exact absurd hmem hloop.1
    · -- the second part is not entered at a join
      intro n hn hcovered a ha heq
      obtain rfl := mem_singleton.mp ha
      rw [htarget] at heq
      rcases mem_append.mp hn with hn | hn
      · exact hdisjoint _ (hp.nodeId_mem hn) _ hq.entry_mem heq.symm
      · exact hq.entry_kind n hn heq.symm hcovered
  refine ⟨hpiece, ?_, ?_, ?_, ?_, ?_⟩
  · intro x hx
    have hfirst : ∀ y ∈ p.ids, Path (p.arrows ++ q.arrows ++ [link]) p.entry y := fun y hy =>
      (hp.reach y hy).mono (by simp)
    rcases mem_append.mp hx with hx | hx
    · exact hfirst x hx
    · have hlink : Linked (p.arrows ++ q.arrows ++ [link]) p.terminal q.entry :=
        ⟨link, by simp, hsource, htarget⟩
      have hrest : Path (p.arrows ++ q.arrows ++ [link]) q.entry x :=
        (hq.reach x hx).mono (fun a ha => by simp [ha])
      exact ((hfirst _ hp.terminal_mem).tail hlink).trans hrest
  · intro a ha heq
    rcases mem_append.mp ha with ha | ha
    · rcases mem_append.mp ha with ha | ha
      · exact hdisjoint _ (hp.ends ha).1 _ hq.terminal_mem heq
      · exact hq.last a ha heq
    · obtain rfl := mem_singleton.mp ha
      rw [hsource] at heq
      exact hdisjoint _ hp.terminal_mem _ hq.terminal_mem heq
  · exact mem_append_left _ hp.entry_mem
  · exact mem_append_right _ hq.terminal_mem
  · intro n hn heq
    rcases mem_append.mp hn with hn | hn
    · exact hp.entry_kind n hn heq
    · exact absurd heq.symm (hdisjoint _ hp.entry_mem _ (hq.nodeId_mem hn))

/-! ## Parts between an opening and a closing node -/

/-- The arrows between an opening node, the parts and a closing node. -/
structure Frame (parts : List Part) (opener closer : String) (arrows : List Arrow) : Prop where
  ends : ∀ a ∈ arrows, (a.sourceId = opener ∧ ∃ p ∈ parts, a.targetId = p.entry) ∨
    ((∃ p ∈ parts, a.sourceId = p.terminal) ∧ a.targetId = closer) ∨
    (a.edgeKind = .loopBack ∧ (∃ p ∈ parts, a.sourceId = p.terminal) ∧ a.targetId = opener)
  opens : ∀ p ∈ parts, ∃ a ∈ arrows, a.sourceId = opener ∧ a.targetId = p.entry
  closes : ∃ p ∈ parts, ∃ a ∈ arrows, a.sourceId = p.terminal ∧ a.targetId = closer
  forward : ∀ a ∈ arrows, ¬ a.edgeKind.nonForward

/-- The parts with the two nodes around them. -/
def bracket (parts : List Part) (opener closer : HarnessControlNode) (arrows : List Arrow) : Part :=
  ⟨opener.nodeId :: (parts.flatMap ids ++ [closer.nodeId]),
    parts.flatMap nodes ++ [.control opener, .control closer], parts.flatMap Part.arrows ++ arrows,
    opener.nodeId, closer.nodeId⟩

theorem mem_flatMap_ids {p : Part} (hp : p ∈ parts) {x : String} (hx : x ∈ p.ids) :
    x ∈ parts.flatMap ids := mem_flatMap.mpr ⟨p, hp, hx⟩

variable {opener closer : HarnessControlNode} {arrows : List Arrow}
    (hok : ∀ p ∈ parts, p.Ok)
    (hnodup : (opener.nodeId :: (parts.flatMap ids ++ [closer.nodeId])).Nodup)
    (hframe : Frame parts opener.nodeId closer.nodeId arrows)
    (hloops : ∀ a ∈ arrows, LoopArrow [.control opener, .control closer] a)
    (hopener : opener.nodeKind ∉ [choiceJoin, .loopJoin, .joinAll, .joinAny])
    (hcloser : JoinOk [.control opener, .control closer] arrows closer)
    (hpaired : ([.control opener, .control closer].filterMap partner?).Perm
      ([.control opener, .control closer].filterMap owner?))
include hok hnodup hframe hloops hopener hcloser hpaired

/-- The pieces of a bracket. -/
theorem piece_bracket : Piece (bracket parts opener closer arrows).ids
    (bracket parts opener closer arrows).nodes (bracket parts opener closer arrows).arrows := by
  obtain ⟨hopenerNot, hnodup'⟩ := nodup_cons.mp hnodup
  have hinner := (nodup_append.mp hnodup').1
  have hcloserNot : closer.nodeId ∉ parts.flatMap ids := fun h =>
    (nodup_append.mp hnodup').2.2 _ h _ (mem_singleton_self _) rfl
  have hopenerInner : opener.nodeId ∉ parts.flatMap ids := fun h =>
    hopenerNot (mem_append_left _ h)
  have hpieces := piece_of_parts hok hinner
  apply hpieces.extend [.control opener, .control closer] arrows
  · exact (sublist_append_left _ _).trans (sublist_cons_self _ _)
  · show (parts.flatMap ids ++ [opener.nodeId, closer.nodeId]).Perm
      (opener.nodeId :: (parts.flatMap ids ++ [closer.nodeId]))
    exact perm_middle
  · intro a ha hback
    rcases hframe.ends a ha with ⟨hs, p, hp, ht⟩ | ⟨⟨p, hp, hs⟩, ht⟩ | ⟨hkind, -⟩
    · rw [hs, ht]
      exact List.Sublist.cons_cons _ (singleton_sublist.mpr
        (mem_append_left _ (mem_flatMap_ids hp (hok p hp).entry_mem)))
    · rw [hs, ht]
      exact (List.Sublist.append (singleton_sublist.mpr
        (mem_flatMap_ids hp (hok p hp).terminal_mem)) (List.Sublist.refl _)).trans
          (sublist_cons_self _ _)
    · exact absurd hkind hback
  · intro a ha _
    have hterminal : ∀ p ∈ parts, p.terminal ∈ (bracket parts opener closer arrows).ids :=
      fun p hp => mem_cons_of_mem _
        (mem_append_left _ (mem_flatMap_ids hp (hok p hp).terminal_mem))
    rcases hframe.ends a ha with ⟨hs, p, hp, ht⟩ | ⟨⟨p, hp, hs⟩, ht⟩ | ⟨-, ⟨p, hp, hs⟩, ht⟩
    · rw [hs, ht]
      exact ⟨mem_cons_self, mem_cons_of_mem _
        (mem_append_left _ (mem_flatMap_ids hp (hok p hp).entry_mem))⟩
    · rw [hs, ht]
      exact ⟨hterminal p hp, mem_cons_of_mem _ (mem_append_right _ (mem_singleton_self _))⟩
    · rw [hs, ht]
      exact ⟨hterminal p hp, mem_cons_self⟩
  · exact hframe.forward
  · exact fun a ha => (hloops a ha).mono (subset_append_right _ _)
  · -- the parts are entered at nodes that are not such joins
    intro n hn hcovered a ha heq
    obtain ⟨q, hq, hnq⟩ := mem_flatMap.mp hn
    have hnid := (hok q hq).nodeId_mem hnq
    rcases hframe.ends a ha with ⟨-, p, hp, ht⟩ | ⟨-, ht⟩ | ⟨-, -, ht⟩
    · have hentry : n.nodeId = p.entry := heq.symm.trans ht
      obtain rfl : q = p := eq_of_mem_ids hinner hq hp hnid
        (show n.nodeId ∈ p.ids from hentry ▸ (hok p hp).entry_mem)
      exact (hok q hq).entry_kind n hnq hentry hcovered
    · exact hcloserNot (mem_flatMap_ids hq (show closer.nodeId ∈ q.ids from ht ▸ heq ▸ hnid))
    · exact hopenerInner (mem_flatMap_ids hq (show opener.nodeId ∈ q.ids from ht ▸ heq ▸ hnid))
  · intro n hn
    simp only [mem_cons, HarnessGraphNode.control.injEq, not_mem_nil, or_false] at hn
    rcases hn with rfl | rfl
    · exact JoinOk.of_kind hopener
    · apply hcloser.mono (subset_append_right _ _) (subset_append_right _ _)
      intro _ a ha
      rcases mem_append.mp ha with ha | ha
      · exact Or.inr (ne_of_mem_of_not_mem (hpieces.ends ha).2 hcloserNot)
      · exact Or.inl ha
  · exact hpaired

variable (opener closer) in
/-- A bracket is entered by its opening node and left by its closing node. -/
theorem bracket_ok : (bracket parts opener closer arrows).Ok := by
  have hpiece := piece_bracket hok hnodup hframe hloops hopener hcloser hpaired
  obtain ⟨hopenerNot, hnodup'⟩ := nodup_cons.mp hnodup
  have hcloserNot : closer.nodeId ∉ parts.flatMap ids := fun h =>
    (nodup_append.mp hnodup').2.2 _ h _ (mem_singleton_self _) rfl
  have hne : opener.nodeId ≠ closer.nodeId := fun h =>
    hopenerNot (mem_append_right _ (mem_singleton.mpr h))
  have hsub : arrows ⊆ parts.flatMap Part.arrows ++ arrows := subset_append_right _ _
  -- every part is entered from the opening node
  have hinside : ∀ p ∈ parts, ∀ x ∈ p.ids,
      Path (parts.flatMap Part.arrows ++ arrows) opener.nodeId x := by
    intro p hp x hx
    obtain ⟨a, ha, hs, ht⟩ := hframe.opens p hp
    refine Relation.ReflTransGen.head ⟨a, hsub ha, hs, ht⟩ (((hok p hp).reach x hx).mono ?_)
    exact fun b hb => mem_append_left _ (mem_flatMap.mpr ⟨p, hp, hb⟩)
  refine ⟨hpiece, ?_, ?_, mem_cons_self, ?_, ?_⟩
  · intro x hx
    rcases mem_cons.mp hx with rfl | hx
    · exact Relation.ReflTransGen.refl
    · rcases mem_append.mp hx with hx | hx
      · obtain ⟨p, hp, hxp⟩ := mem_flatMap.mp hx
        exact hinside p hp x hxp
      · obtain rfl := mem_singleton.mp hx
        obtain ⟨p, hp, a, ha, hs, ht⟩ := hframe.closes
        exact (hinside p hp _ (hok p hp).terminal_mem).tail ⟨a, hsub ha, hs, ht⟩
  · intro a ha heq
    have hterminal : ∀ p ∈ parts, p.terminal ≠ closer.nodeId := fun p hp =>
      ne_of_mem_of_not_mem (mem_flatMap_ids hp (hok p hp).terminal_mem) hcloserNot
    rcases mem_append.mp ha with ha | ha
    · obtain ⟨p, hp, hap⟩ := mem_flatMap.mp ha
      have hsource := mem_flatMap_ids hp ((hok p hp).ends hap).1
      rw [show a.sourceId = closer.nodeId from heq] at hsource
      exact hcloserNot hsource
    · rcases hframe.ends a ha with ⟨hs, -⟩ | ⟨⟨p, hp, hs⟩, -⟩ | ⟨-, ⟨p, hp, hs⟩, -⟩
      · exact hne (hs.symm.trans heq)
      · exact hterminal p hp (hs.symm.trans heq)
      · exact hterminal p hp (hs.symm.trans heq)
  · exact mem_cons_of_mem _ (mem_append_right _ (mem_singleton_self _))
  · intro n hn heq
    rcases mem_append.mp hn with hn | hn
    · obtain ⟨p, hp, hnp⟩ := mem_flatMap.mp hn
      have hmem := mem_flatMap_ids hp ((hok p hp).nodeId_mem hnp)
      rw [show (HarnessGraphNode.control n).nodeId = opener.nodeId from heq] at hmem
      exact absurd (mem_append_left _ hmem) hopenerNot
    · simp only [mem_cons, HarnessGraphNode.control.injEq, not_mem_nil, or_false] at hn
      rcases hn with rfl | rfl
      · rintro (h | h)
        · exact hopener (by simp [h])
        · exact hopener (by simp [h])
      · exact absurd heq.symm hne

end Part

end HarnessGraph
