/-
# A whole graph passes the structural checks

A graph that consists of one part, and of auxiliary nodes that only repair and
compensation edges lead to, has nothing for `validate_structure` to report.
-/
import AgoraHub.GraphPieces

namespace HarnessGraph

open NormalizedHarnessGraph GraphSearch HarnessGraphNode List PyDict PyText

/-- A graph is a part with auxiliary nodes. -/
structure Whole (g : NormalizedHarnessGraph) (p : Part) (extra : List HarnessExecutableNode)
    (aux : List Arrow) : Prop where
  ok : p.Ok
  nodes : g.nodes.Perm (p.nodes ++ extra.map HarnessGraphNode.executable)
  arrows : (g.edges.map HarnessGraphEdge.arrow).Perm (p.arrows ++ aux)
  edgeIds : (g.edges.map HarnessGraphEdge.edgeId).Nodup
  nodup : (p.ids ++ extra.map HarnessExecutableNode.nodeId).Nodup
  entry : g.entryNodeIds = [p.entry]
  terminal : g.terminalNodeIds = [p.terminal]
  auxKind : ∀ a ∈ aux, a.edgeKind.nonForward
  auxEnds : ∀ a ∈ aux, a.sourceId ∈ p.ids ++ extra.map HarnessExecutableNode.nodeId ∧
    a.targetId ∈ extra.map HarnessExecutableNode.nodeId
  reach : ∀ n ∈ extra, Path (p.arrows ++ aux) p.entry n.nodeId

namespace Whole

variable {g : NormalizedHarnessGraph} {p : Part} {extra : List HarnessExecutableNode}
  {aux : List Arrow}

/-! ## Nodes and edges -/

section

variable (w : Whole g p extra aux)

include w

theorem perm_nodeIds : g.nodeIds.Perm (p.ids ++ extra.map HarnessExecutableNode.nodeId) := by
  have h := w.nodes.map nodeId
  rw [map_append, map_map] at h
  exact h.trans (w.ok.perm.append_right _)

theorem nodup_nodeIds : g.nodeIds.Nodup :=
  w.perm_nodeIds.nodup_iff.mpr w.nodup

theorem uniqueNodeIds_eq : g.uniqueNodeIds = g.nodeIds :=
  w.nodup_nodeIds.dedup

theorem mem_uniqueNodeIds {x : String} :
    x ∈ g.uniqueNodeIds ↔ x ∈ p.ids ∨ x ∈ extra.map HarnessExecutableNode.nodeId := by
  rw [w.uniqueNodeIds_eq, w.perm_nodeIds.mem_iff, mem_append]

theorem nodup_ids : p.ids.Nodup := (nodup_append.mp w.nodup).1

end

variable {n : HarnessControlNode}

theorem control_mem (w : Whole g p extra aux) : control n ∈ g.nodes ↔ control n ∈ p.nodes := by
  rw [w.nodes.mem_iff, mem_append]
  simp

variable {e : HarnessGraphEdge}

theorem arrow_mem (w : Whole g p extra aux) (he : e ∈ g.edges) :
    e.arrow ∈ p.arrows ∨ e.arrow ∈ aux :=
  mem_append.mp (w.arrows.mem_iff.mp (mem_map_of_mem he))

theorem arrow_mem_part (w : Whole g p extra aux) (he : e ∈ g.edges)
    (hkind : ¬ e.edgeKind.nonForward) : e.arrow ∈ p.arrows := by
  rcases w.arrow_mem he with h | h
  · exact h
  · exact absurd (w.auxKind _ h) hkind

theorem exists_edge (w : Whole g p extra aux) {a : Arrow} (ha : a ∈ p.arrows ++ aux) :
    ∃ e ∈ g.edges, e.arrow = a :=
  mem_map.mp (w.arrows.mem_iff.mpr ha)

theorem edge_ends (w : Whole g p extra aux) (he : e ∈ g.edges) :
    e.sourceId ∈ g.uniqueNodeIds ∧ e.targetId ∈ g.uniqueNodeIds := by
  rcases w.arrow_mem he with h | h
  · have hends := w.ok.ends h
    exact ⟨w.mem_uniqueNodeIds.mpr (Or.inl hends.1), w.mem_uniqueNodeIds.mpr (Or.inl hends.2)⟩
  · have hends := w.auxEnds _ h
    exact ⟨w.mem_uniqueNodeIds.mpr (mem_append.mp hends.1),
      w.mem_uniqueNodeIds.mpr (Or.inr hends.2)⟩

/-! ## Identities -/

theorem duplicates_eq_nil {ids : List String} (h : ids.Nodup) : duplicates ids = [] := by
  unfold duplicates
  rw [sortedSet_eq_nil_iff, filter_eq_nil_iff]
  intro x hx
  rw [count_eq_one_of_mem h hx]
  decide

theorem reportNodes_eq_nil {ids : List String} {fails : String → Bool} {code message : String}
    (h : ∀ x ∈ ids, fails x = false) : reportNodes ids fails code message = [] := by
  unfold reportNodes
  rw [map_eq_nil_iff, filter_eq_nil_iff]
  intro x hx
  rw [h x hx]
  decide

theorem validateIdentities_eq_nil (w : Whole g p extra aux) : g.validateIdentities = [] := by
  have hendpoints : g.validateEndpoints = [] := by
    unfold validateEndpoints
    rw [flatMap_eq_nil_iff]
    intro e he
    rw [if_pos (w.edge_ends he).1, if_pos (w.edge_ends he).2]
    rfl
  have hentry : ∀ x ∈ g.entryNodeIds, decide (x ∉ g.uniqueNodeIds) = false := by
    intro x hx
    rw [w.entry] at hx
    obtain rfl := mem_singleton.mp hx
    exact decide_eq_false (not_not_intro (w.mem_uniqueNodeIds.mpr (Or.inl w.ok.entry_mem)))
  have hterminal : ∀ x ∈ g.terminalNodeIds, decide (x ∉ g.uniqueNodeIds) = false := by
    intro x hx
    rw [w.terminal] at hx
    obtain rfl := mem_singleton.mp hx
    exact decide_eq_false (not_not_intro (w.mem_uniqueNodeIds.mpr (Or.inl w.ok.terminal_mem)))
  unfold validateIdentities
  dsimp only
  rw [duplicates_eq_nil w.nodup_nodeIds, duplicates_eq_nil w.edgeIds, hendpoints,
    reportNodes_eq_nil hentry, reportNodes_eq_nil hterminal]
  rfl

/-! ## Reachability -/

/-- A path of arrows is a search path, when the search follows their edges. -/
theorem reaches_of_path {arrows : List Arrow} {a : Adjacency}
    (hknown : ∀ arrow ∈ arrows, arrow.targetId ∈ a.keys)
    (hnext : ∀ arrow ∈ arrows, arrow.targetId ∈ a.targets arrow.sourceId) {x y : String}
    (h : Path arrows x y) : Reaches (fun n => decide (n ∈ a.keys)) a.targets x y := by
  induction h with
  | refl => exact Reaches.refl x
  | tail _ hlink ih =>
    obtain ⟨arrow, harrow, rfl, rfl⟩ := hlink
    exact ih.step (hnext arrow harrow) (decide_eq_true (hknown arrow harrow))

theorem reaches_reverse_of_path {arrows : List Arrow} {a : Adjacency}
    (hknown : ∀ arrow ∈ arrows, arrow.sourceId ∈ a.keys)
    (hnext : ∀ arrow ∈ arrows, arrow.sourceId ∈ a.targets arrow.targetId) {x y : String}
    (h : Path arrows x y) : Reaches (fun n => decide (n ∈ a.keys)) a.targets y x := by
  induction h using Relation.ReflTransGen.head_induction_on with
  | refl => exact Reaches.refl y
  | head hlink _ ih =>
    obtain ⟨arrow, harrow, rfl, rfl⟩ := hlink
    exact ih.step (hnext arrow harrow) (decide_eq_true (hknown arrow harrow))

theorem mem_reachable {a : Adjacency} {startIds : List String} (hkeys : a.keys.Nodup)
    {x y : String} (hx : x ∈ startIds) (hkey : x ∈ a.keys)
    (h : Reaches (fun n => decide (n ∈ a.keys)) a.targets x y) : y ∈ a.reachable startIds := by
  have hstarts : ∀ z ∈ a.starts startIds, z ∈ a.keys := by
    intro z hz
    exact of_decide_eq_true (mem_filter.mp (mem_sorted.mp hz)).2
  have hstart : x ∈ a.starts startIds :=
    mem_sorted.mpr (mem_filter.mpr ⟨hx, decide_eq_true hkey⟩)
  exact mem_explore_of_reaches hkeys (fun _ _ z _ hz => of_decide_eq_true hz) hstarts hstart h

theorem mem_targets {includeAuxiliary : Bool} (he : e ∈ g.edges)
    (hkind : includeAuxiliary = true ∨ ¬ e.edgeKind.nonForward) :
    e.targetId ∈ (g.adjacency includeAuxiliary).targets e.sourceId :=
  mem_sorted.mpr (mem_map_of_mem (mem_filter.mpr ⟨he, decide_eq_true ⟨hkind, rfl⟩⟩))

section

variable (w : Whole g p extra aux)

include w

theorem nodup_keys (includeAuxiliary : Bool) : (g.adjacency includeAuxiliary).keys.Nodup := by
  show g.uniqueNodeIds.Nodup
  rw [w.uniqueNodeIds_eq]
  exact w.nodup_nodeIds

theorem part_targets {a : Arrow} (ha : a ∈ p.arrows)
    (includeAuxiliary : Bool) : a.targetId ∈ (g.adjacency includeAuxiliary).targets a.sourceId := by
  obtain ⟨e, he, rfl⟩ := w.exists_edge (mem_append_left _ ha)
  exact mem_targets he (Or.inr (w.ok.forward _ ha))

theorem reachable_of_mem {x : String} (hx : x ∈ g.uniqueNodeIds) :
    x ∈ (g.adjacency true).reachable g.entryNodeIds := by
  have hpath : Path (p.arrows ++ aux) p.entry x := by
    rcases w.mem_uniqueNodeIds.mp hx with hx | hx
    · exact (w.ok.reach x hx).mono (subset_append_left _ _)
    · obtain ⟨n, hn, rfl⟩ := mem_map.mp hx
      exact w.reach n hn
  have hentry : p.entry ∈ g.uniqueNodeIds := w.mem_uniqueNodeIds.mpr (Or.inl w.ok.entry_mem)
  apply mem_reachable (w.nodup_keys true) (w.entry ▸ mem_singleton_self _) hentry
  apply reaches_of_path _ _ hpath
  · intro a ha
    obtain ⟨e, he, rfl⟩ := w.exists_edge ha
    exact (w.edge_ends he).2
  · intro a ha
    obtain ⟨e, he, rfl⟩ := w.exists_edge ha
    exact mem_targets he (Or.inl rfl)

theorem terminal_reachable : p.terminal ∈ (g.adjacency false).reachable g.entryNodeIds := by
  have hentry : p.entry ∈ g.uniqueNodeIds := w.mem_uniqueNodeIds.mpr (Or.inl w.ok.entry_mem)
  apply mem_reachable (w.nodup_keys false) (w.entry ▸ mem_singleton_self _) hentry
  apply reaches_of_path _ _ (w.ok.reach _ w.ok.terminal_mem)
  · intro a ha
    exact w.mem_uniqueNodeIds.mpr (Or.inl (w.ok.ends ha).2)
  · exact fun a ha => w.part_targets ha false

theorem entry_reaches_terminal :
    p.entry ∈ (g.adjacency false).reverse.reachable g.terminalNodeIds := by
  have hterminal : p.terminal ∈ g.uniqueNodeIds :=
    w.mem_uniqueNodeIds.mpr (Or.inl w.ok.terminal_mem)
  have hkeys : (g.adjacency false).reverse.keys.Nodup := w.nodup_keys false
  apply mem_reachable hkeys (w.terminal ▸ mem_singleton_self _) hterminal
  apply reaches_reverse_of_path _ _ (w.ok.reach _ w.ok.terminal_mem)
  · intro a ha
    exact w.mem_uniqueNodeIds.mpr (Or.inl (w.ok.ends ha).1)
  · intro a ha
    refine mem_sorted.mpr (mem_flatMap.mpr ⟨a.sourceId, ?_, ?_⟩)
    · exact w.mem_uniqueNodeIds.mpr (Or.inl (w.ok.ends ha).1)
    · exact mem_map.mpr ⟨a.targetId, mem_filter.mpr
        ⟨w.part_targets ha false, decide_eq_true rfl⟩, rfl⟩

theorem validateReachability_eq_nil : g.validateReachability = [] := by
  unfold validateReachability
  dsimp only
  rw [w.entry, w.terminal, reportNodes_eq_nil, reportNodes_eq_nil, reportNodes_eq_nil,
    reportNodes_eq_nil]
  · rfl
  · -- nothing leaves the terminal
    intro x hx
    obtain rfl := mem_singleton.mp hx
    refine decide_eq_false fun hmem => ?_
    obtain ⟨e, he, heq⟩ := mem_map.mp hmem
    obtain ⟨he, hkind⟩ := mem_filter.mp he
    exact w.ok.last _ (w.arrow_mem_part he (of_decide_eq_true hkind)) heq
  · intro x hx
    obtain rfl := mem_singleton.mp hx
    exact decide_eq_false fun h => h.2 (w.terminal ▸ w.entry_reaches_terminal)
  · intro x hx
    obtain rfl := mem_singleton.mp hx
    exact decide_eq_false fun h => h.2 (w.entry ▸ w.terminal_reachable)
  · intro x hx
    exact decide_eq_false fun h => h (w.entry ▸ w.reachable_of_mem (mem_sorted.mp hx))

/-! ## Control nodes -/

/-- The control nodes have different identifiers. -/
theorem nodup_controls : ((g.nodes.filterMap control?).map HarnessControlNode.nodeId).Nodup := by
  have hsub : ∀ l : List HarnessGraphNode,
      ((l.filterMap control?).map HarnessControlNode.nodeId).Sublist
        (l.map nodeId) := by
    intro l
    induction l with
    | nil => exact List.Sublist.refl _
    | cons n l ih =>
      cases n with
      | executable n => exact ih.cons _
      | control n => exact ih.cons_cons _
  exact w.nodup_nodeIds.sublist (hsub g.nodes)

end

theorem mem_controls : n ∈ g.nodes.filterMap control? ↔ control n ∈ g.nodes := by
  rw [mem_filterMap]
  constructor
  · rintro ⟨m, hm, heq⟩
    cases m with
    | executable m => cases heq
    | control m =>
      cases heq
      exact hm
  · exact fun h => ⟨_, h, rfl⟩

section

variable (w : Whole g p extra aux)

include w

theorem controls_get (hn : control n ∈ p.nodes) : g.controls.get? n.nodeId = some n :=
  (get?_ofItems w.nodup_controls _ _).mpr
    ⟨n, mem_controls.mpr (w.control_mem.mpr hn), rfl, rfl⟩

theorem controls_values : g.controls.values = g.nodes.filterMap control? := by
  unfold controls PyDict.values
  rw [ofItems_eq_map w.nodup_controls, map_map]
  exact map_id _

theorem mem_controlsOf {kind : NodeKind} :
    n ∈ g.controlsOf kind ↔ control n ∈ p.nodes ∧ n.nodeKind = kind := by
  unfold controlsOf
  rw [w.controls_values, mem_filter, mem_controls, w.control_mem, decide_eq_true_eq]

theorem control_unique {m n : HarnessControlNode}
    (hm : control m ∈ p.nodes) (hn : control n ∈ p.nodes) (h : m.nodeId = n.nodeId) : m = n := by
  have hget := w.controls_get hm
  rw [h, w.controls_get hn] at hget
  exact (Option.some.inj hget).symm

/-! ## Loop edges -/

theorem loopNodes_get {loop : HarnessLoopContract}
    (hn : control n ∈ p.nodes) (hloop : loopContract? n = some loop) :
    g.loopNodes.get? n.nodeId = some (n, loop) := by
  have hsub : ∀ l : List HarnessControlNode,
      ((l.filterMap fun n => (loopContract? n).map fun loop => (n, loop)).map
        fun q => q.1.nodeId).Sublist (l.map HarnessControlNode.nodeId) := by
    intro l
    induction l with
    | nil => exact List.Sublist.refl _
    | cons n l ih =>
      rw [filterMap_cons]
      cases loopContract? n with
      | none => exact ih.cons _
      | some loop => exact ih.cons_cons _
  refine (get?_ofItems (w.nodup_controls.sublist (hsub _)) _ _).mpr ⟨(n, loop), ?_, rfl, rfl⟩
  refine mem_filterMap.mpr ⟨n, mem_controls.mpr (w.control_mem.mpr hn), ?_⟩
  rw [hloop]
  rfl

end

theorem forward_of_mem_loopEdgeKinds {kind : EdgeKind} (h : kind ∈ loopEdgeKinds) :
    ¬ kind.nonForward := by
  rintro (hkind | hkind) <;> rw [hkind] at h <;> exact absurd h (by decide)

theorem validateLoopEdges_eq_nil (w : Whole g p extra aux) : g.validateLoopEdges = [] := by
  unfold validateLoopEdges
  rw [flatMap_eq_nil_iff]
  intro e he
  unfold validateLoopEdge
  by_cases hkind : e.edgeKind ∈ loopEdgeKinds
  · rw [if_neg (not_not_intro hkind)]
    have harrow := w.arrow_mem_part he (forward_of_mem_loopEdgeKinds hkind)
    obtain ⟨guard, loop, hguard, hloop, hid, hvalid⟩ := w.ok.loops _ harrow hkind
    have hloopId : e.loopId = some guard.nodeId := hid
    have hvalid' : loopEdgeValid e.edgeKind e.sourceId e.targetId guard.nodeId loop := hvalid
    rw [hloopId, Option.getD_some, w.loopNodes_get hguard hloop]
    simp only [hvalid', if_true]
  · rw [if_pos hkind]

/-! ## Pairs -/

/-- The owners of joins are different. -/
theorem nodup_owners (w : Whole g p extra aux) : (p.nodes.filterMap owner?).Nodup := by
  have hsub : ∀ l : List HarnessGraphNode,
      ((l.filterMap owner?).map Prod.snd).Sublist (l.map nodeId) := by
    intro l
    induction l with
    | nil => exact List.Sublist.refl _
    | cons n l ih =>
      cases n with
      | executable n => exact ih.cons _
      | control n =>
        rw [filterMap_cons, owner?]
        by_cases hkind : n.nodeKind ∈ [NodeKind.choice, .loopGuard, .forkAll, .forkAny]
        · rw [if_pos hkind]
          exact ih.cons_cons _
        · rw [if_neg hkind]
          exact ih.cons _
  exact ((w.ok.perm.nodup_iff.mpr w.nodup_ids).sublist (hsub p.nodes)).of_map _

/-- A node that needs a join is the partner of exactly one. -/
theorem count_partners (w : Whole g p extra aux) (hn : control n ∈ p.nodes)
    (hkind : n.nodeKind ∈ [NodeKind.choice, .loopGuard, .forkAll, .forkAny]) :
    (g.nodes.filterMap partner?).count (n.nodeKind, n.nodeId) = 1 := by
  have hexecutable : (extra.map executable).filterMap partner? = [] := by
    rw [filterMap_map, filterMap_eq_nil_iff]
    exact fun _ _ => rfl
  have hperm := w.nodes.filterMap partner?
  rw [filterMap_append, hexecutable, append_nil] at hperm
  rw [(hperm.trans w.ok.paired).count_eq]
  apply count_eq_one_of_mem w.nodup_owners
  refine mem_filterMap.mpr ⟨_, hn, ?_⟩
  rw [owner?, if_pos hkind]

/-- Counting the references of joins to one node. -/
theorem count_references {f : HarnessControlNode → Option String} (key : NodeKind × String)
    {nodeId : String} : ∀ nodes : List HarnessGraphNode, (∀ j, control j ∈ nodes →
        (f j = some nodeId ↔ partner? (.control j) = some key)) →
      ((nodes.filterMap control?).filterMap f).count nodeId = (nodes.filterMap partner?).count key
  | [], _ => rfl
  | .executable n :: nodes, h =>
    count_references key nodes fun j hj => h j (mem_cons_of_mem _ hj)
  | .control n :: nodes, h => by
    have ih := count_references key nodes fun j hj => h j (mem_cons_of_mem _ hj)
    have hn := h n mem_cons_self
    rw [filterMap_cons_some (show control? (.control n) = some n from rfl),
      filterMap_cons, filterMap_cons]
    cases hf : f n with
    | none =>
      cases hp : partner? (.control n) with
      | none => exact ih
      | some other =>
        have hne : other ≠ key := by
          rintro rfl
          have := hn.mpr hp
          rw [hf] at this
          cases this
        rw [count_cons_of_ne hne]
        exact ih
    | some other =>
      cases hp : partner? (.control n) with
      | none =>
        have hne : other ≠ nodeId := by
          rintro rfl
          have := hn.mp hf
          rw [hp] at this
          cases this
        rw [count_cons_of_ne hne]
        exact ih
      | some other' =>
        rw [hf, hp, Option.some.injEq, Option.some.injEq] at hn
        by_cases heq : other = nodeId
        · rw [heq, hn.mp heq, count_cons_self, count_cons_self, ih]
        · have hne : other' ≠ key := fun h => heq (hn.mpr h)
          rw [count_cons_of_ne heq, count_cons_of_ne hne]
          exact ih

/-- The kind of the join that refers to a node of a kind. -/
def joinKindOf : NodeKind → NodeKind
  | .choice => .choiceJoin
  | .loopGuard => .loopJoin
  | .forkAll => .joinAll
  | _ => .joinAny

theorem join_kind_of_partner {j : HarnessControlNode} {kind : NodeKind} {nodeId : String}
    (h : partner? (.control j) = some (kind, nodeId)) : j.nodeKind = joinKindOf kind := by
  have hmap : ∀ {α : Type} {x : Option α} {owner : NodeKind} {f : α → String},
      x.map (fun a => (owner, f a)) = some (kind, nodeId) → kind = owner := by
    intro α x owner f hx
    obtain ⟨a, -, heq⟩ := Option.map_eq_some_iff.mp hx
    exact (congrArg Prod.fst heq).symm
  cases hkind : j.nodeKind <;> simp only [partner?, hkind] at h
  case choiceJoin => rw [hmap h]; rfl
  case loopJoin => rw [hmap h]; rfl
  case joinAll => rw [hmap h]; rfl
  case joinAny => rw [hmap h]; rfl
  all_goals cases h

/-! ## Choice joins -/

section

variable (w : Whole g p extra aux)

include w

/-- The dependency edges into a node are its dependency arrows. -/
theorem mem_edgesInto (nodeId : String) (test : HarnessGraphEdge → Bool)
    (test' : Arrow → Prop) (htest : ∀ e, test e = true ↔ test' e.arrow)
    (pair : String × Option String) :
    pair ∈ g.edgesInto nodeId test ↔ Enters p.arrows nodeId test' pair := by
  unfold edgesInto
  rw [mem_map]
  constructor
  · rintro ⟨e, he, rfl⟩
    obtain ⟨he, hcond⟩ := mem_filter.mp he
    rw [Bool.and_eq_true, decide_eq_true_eq] at hcond
    have hforward : ¬ e.edgeKind.nonForward := by
      rw [hcond.1.2]
      decide
    exact ⟨e.arrow, w.arrow_mem_part he hforward, hcond.1.1, hcond.1.2, (htest e).mp hcond.2, rfl⟩
  · rintro ⟨a, ha, htarget, hkind, hcond, rfl⟩
    obtain ⟨e, he, rfl⟩ := w.exists_edge (mem_append_left _ ha)
    refine ⟨e, mem_filter.mpr ⟨he, ?_⟩, rfl⟩
    rw [Bool.and_eq_true, decide_eq_true_eq]
    exact ⟨⟨htarget, hkind⟩, (htest e).mpr hcond⟩

variable {join : HarnessControlNode}

theorem choiceOf_eq {choice : HarnessControlNode} (hchoice : control choice ∈ p.nodes)
    (hkind : choice.nodeKind = .choice)
    (href : join.metadata.get? "choice_node_id" = some (.str choice.nodeId)) :
    g.choiceOf? join = some choice := by
  unfold choiceOf?
  rw [href]
  dsimp only
  rw [w.controls_get hchoice]
  simp [hkind]

theorem validateChoiceJoin_eq_nil (hjoin : control join ∈ p.nodes)
    (hkind : join.nodeKind = .choiceJoin) : g.validateChoiceJoin join = [] := by
  obtain ⟨choice, hmem, hchoice, href, hbranches, henters⟩ := (w.ok.joins join hjoin).choice hkind
  unfold validateChoiceJoin
  rw [w.choiceOf_eq hmem hchoice href]
  have hinto := w.mem_edgesInto join.nodeId (fun _ => true) (fun _ => True) (by simp)
  have hsame : SameSet (g.edgesInto join.nodeId fun _ => true) (expectedEdges choice.branches) :=
    ⟨fun pair hpair => (henters pair).mp ((hinto pair).mp hpair),
      fun pair hpair => (hinto pair).mpr ((henters pair).mpr hpair)⟩
  simp only [hbranches, hsame, if_true, append_nil]

/-- The choice joins refer to each choice once. -/
theorem count_choicesOfJoins (hn : control n ∈ p.nodes) (hkind : n.nodeKind = .choice) :
    g.choicesOfJoins.count n.nodeId = 1 := by
  have heq : g.choicesOfJoins = (g.nodes.filterMap control?).filterMap fun j =>
      if j.nodeKind = .choiceJoin then (g.choiceOf? j).map HarnessControlNode.nodeId else none := by
    unfold choicesOfJoins controlsOf
    rw [w.controls_values, filterMap_filter, map_filterMap]
    apply filterMap_congr
    intro j _
    by_cases hj : j.nodeKind = .choiceJoin <;> simp [hj]
  rw [heq, count_references (.choice, n.nodeId) g.nodes, ← hkind]
  · exact w.count_partners hn (by simp [hkind])
  · intro j hj
    have hjp := w.control_mem.mp hj
    by_cases hjoin : j.nodeKind = .choiceJoin
    · obtain ⟨choice, hmem, hchoice, href, -⟩ := (w.ok.joins j hjp).choice hjoin
      rw [if_pos hjoin, w.choiceOf_eq hmem hchoice href]
      simp [partner?, metadataText, hjoin, href]
    · rw [if_neg hjoin]
      refine ⟨fun h => (by cases h), fun h => absurd ?_ hjoin⟩
      exact join_kind_of_partner h

theorem validateChoiceJoinPairs_eq_nil : g.validateChoiceJoinPairs = [] := by
  unfold validateChoiceJoinPairs validatePairCounts
  rw [append_eq_nil_iff]
  constructor
  · rw [flatMap_eq_nil_iff]
    intro join hjoin
    obtain ⟨hmem, hkind⟩ := w.mem_controlsOf.mp hjoin
    exact w.validateChoiceJoin_eq_nil hmem hkind
  · rw [map_eq_nil_iff, filter_eq_nil_iff]
    intro n hn
    obtain ⟨hmem, hkind⟩ := w.mem_controlsOf.mp hn
    rw [w.count_choicesOfJoins hmem hkind]
    decide

/-! ## Loop joins -/

/-- The loop of a loop join. -/
theorem loopOf_eq {guard : HarnessControlNode} {loop : HarnessLoopContract}
    (hguard : control guard ∈ p.nodes) (hloop : loopContract? guard = some loop)
    (href : join.metadata.get? "loop_node_id" = some (.str guard.nodeId)) :
    g.loopOf? join = some (guard, loop) := by
  unfold loopOf?
  rw [href]
  dsimp only
  rw [w.controls_get hguard, Option.bind_some, hloop]
  rfl

theorem validateLoopJoin_eq_nil (hjoin : control join ∈ p.nodes)
    (hkind : join.nodeKind = .loopJoin) : g.validateLoopJoin join = [] := by
  rcases (w.ok.joins join hjoin).loop hkind with
    ⟨guard, loop, hguard, hloop, href, hkeys, hroutes, henters⟩
  unfold validateLoopJoin
  rw [w.loopOf_eq hguard hloop href]
  have hinto := w.mem_edgesInto join.nodeId (fun e => decide (e.loopId = some guard.nodeId))
    (fun a => a.loopId = some guard.nodeId) (fun e => decide_eq_true_iff)
  have hsame : SameSet
      (g.edgesInto join.nodeId fun e => decide (e.loopId = some guard.nodeId))
      (expectedEdges (PyDict.values (PyDict.ofItems HarnessBranch.branchId id join.branches))) :=
    ⟨fun pair hpair => (henters pair).mp ((hinto pair).mp hpair),
      fun pair hpair => (hinto pair).mpr ((henters pair).mpr hpair)⟩
  simp only [hkeys, hroutes, hsame, not_true_eq_false, if_true, if_false, append_nil]

/-- The loop joins refer to each guard once. -/
theorem count_loopsOfJoins (hn : control n ∈ p.nodes) (hkind : n.nodeKind = .loopGuard) :
    g.loopsOfJoins.count n.nodeId = 1 := by
  have heq : g.loopsOfJoins = (g.nodes.filterMap control?).filterMap fun j =>
      if j.nodeKind = .loopJoin then (g.loopOf? j).map fun q => q.1.nodeId else none := by
    unfold loopsOfJoins controlsOf
    rw [w.controls_values, filterMap_filter, map_filterMap]
    apply filterMap_congr
    intro j _
    by_cases hj : j.nodeKind = .loopJoin <;> simp [hj]
  rw [heq, count_references (.loopGuard, n.nodeId) g.nodes, ← hkind]
  · exact w.count_partners hn (by simp [hkind])
  · intro j hj
    have hjp := w.control_mem.mp hj
    by_cases hjoin : j.nodeKind = .loopJoin
    · obtain ⟨guard, loop, hguard, hloop, href, -⟩ := (w.ok.joins j hjp).loop hjoin
      rw [if_pos hjoin, w.loopOf_eq hguard hloop href]
      simp [partner?, metadataText, hjoin, href]
    · rw [if_neg hjoin]
      refine ⟨fun h => (by cases h), fun h => absurd ?_ hjoin⟩
      exact join_kind_of_partner h

theorem validateLoopJoinPairs_eq_nil : g.validateLoopJoinPairs = [] := by
  unfold validateLoopJoinPairs validatePairCounts
  rw [append_eq_nil_iff]
  constructor
  · rw [flatMap_eq_nil_iff]
    intro join hjoin
    obtain ⟨hmem, hkind⟩ := w.mem_controlsOf.mp hjoin
    exact w.validateLoopJoin_eq_nil hmem hkind
  · rw [map_eq_nil_iff, filter_eq_nil_iff]
    intro n hn
    obtain ⟨hmem, hkind⟩ := w.mem_controlsOf.mp hn
    rw [w.count_loopsOfJoins hmem hkind]
    decide

/-! ## Parallel joins -/

theorem forkOf_eq {fork : HarnessControlNode} {contract : HarnessJoinContract}
    (hfork : control fork ∈ p.nodes) (hid : fork.nodeId = contract.forkNodeId)
    (hkind : fork.nodeKind = forkKindOf join.nodeKind) : g.forkOf? join contract = some fork := by
  unfold forkOf?
  rw [← hid, w.controls_get hfork]
  simp [hkind]

variable {q : HarnessControlNode × HarnessJoinContract}

theorem mem_joins : q ∈ g.joins ↔ control q.1 ∈ p.nodes ∧
      (q.1.nodeKind = .joinAll ∨ q.1.nodeKind = .joinAny) ∧ q.1.join = some q.2 := by
  unfold joins
  rw [w.controls_values, mem_filterMap]
  constructor
  · rintro ⟨n, hn, heq⟩
    obtain ⟨hn, hkind⟩ := mem_filter.mp hn
    obtain ⟨contract, hcontract, rfl⟩ := Option.map_eq_some_iff.mp heq
    exact ⟨w.control_mem.mp (mem_controls.mp hn), of_decide_eq_true hkind, hcontract⟩
  · rintro ⟨hn, hkind, hcontract⟩
    refine ⟨q.1, mem_filter.mpr ⟨mem_controls.mpr (w.control_mem.mpr hn), decide_eq_true hkind⟩, ?_⟩
    rw [hcontract]
    rfl

theorem validateJoin_eq_nil (hq : q ∈ g.joins) : g.validateJoin q = [] := by
  obtain ⟨hmem, hkind, hcontract⟩ := w.mem_joins.mp hq
  obtain ⟨fork, hfork, hid, hforkKind, hsame⟩ := (w.ok.joins q.1 hmem).fork hkind q.2 hcontract
  unfold validateJoin
  rw [w.forkOf_eq hfork hid hforkKind]
  simp only [hsame, if_true]

/-- The parallel joins refer to each fork once. -/
theorem count_forksOfJoins (hn : control n ∈ p.nodes)
    (hkind : n.nodeKind = .forkAll ∨ n.nodeKind = .forkAny) :
    g.forksOfJoins.count n.nodeId = 1 := by
  have heq : g.forksOfJoins = (g.nodes.filterMap control?).filterMap fun j =>
      if j.nodeKind = .joinAll ∨ j.nodeKind = .joinAny then
        j.join.bind fun contract => (g.forkOf? j contract).map HarnessControlNode.nodeId
      else none := by
    unfold forksOfJoins joins
    rw [w.controls_values, filterMap_filter, filterMap_filterMap, map_filterMap]
    apply filterMap_congr
    intro j _
    by_cases hj : j.nodeKind = .joinAll ∨ j.nodeKind = .joinAny
    · cases hjoin : j.join <;> simp [hj]
    · simp [hj]
  rw [heq, count_references (n.nodeKind, n.nodeId) g.nodes]
  · apply w.count_partners hn
    rcases hkind with h | h <;> simp [h]
  · intro j hj
    have hjp := w.control_mem.mp hj
    by_cases hjoin : j.nodeKind = .joinAll ∨ j.nodeKind = .joinAny
    · rw [if_pos hjoin]
      cases hcontract : j.join with
      | none =>
        rcases hjoin with h | h <;> simp [partner?, h, hcontract]
      | some contract =>
        rcases (w.ok.joins j hjp).fork hjoin contract hcontract with
          ⟨fork, hfork, hid, hforkKind, -⟩
        rw [Option.bind_some, w.forkOf_eq hfork hid hforkKind]
        have hpartner : partner? (.control j) = some (fork.nodeKind, fork.nodeId) := by
          rw [hforkKind, hid]
          rcases hjoin with h | h <;> simp [partner?, h, hcontract, forkKindOf]
        rw [hpartner, Option.map_some, Option.some.injEq, Option.some.injEq, Prod.mk.injEq]
        constructor
        · intro h
          rw [w.control_unique hfork hn h]
          exact ⟨rfl, rfl⟩
        · exact fun h => h.2
    · rw [if_neg hjoin]
      refine ⟨fun h => (by cases h), fun h => absurd ?_ hjoin⟩
      have hjkind := join_kind_of_partner h
      rcases hkind with h' | h' <;> rw [h'] at hjkind
      · exact Or.inl hjkind
      · exact Or.inr hjkind

theorem validateForkJoinPairs_eq_nil : g.validateForkJoinPairs = [] := by
  unfold validateForkJoinPairs validateForkCounts
  rw [append_eq_nil_iff]
  constructor
  · rw [flatMap_eq_nil_iff]
    exact fun q hq => w.validateJoin_eq_nil hq
  · rw [map_eq_nil_iff, filter_eq_nil_iff]
    intro n hn
    obtain ⟨hmem, hkind⟩ := mem_filter.mp hn
    rw [w.controls_values, mem_controls, w.control_mem] at hmem
    rw [w.count_forksOfJoins hmem (of_decide_eq_true hkind)]
    decide

/-! ## Cycles -/

/-- A loop-back edge is a declared one. -/
theorem isDeclaredLoopBack_of_kind (he : e ∈ g.edges)
    (hkind : e.edgeKind = .loopBack) : g.isDeclaredLoopBack e := by
  have hmem : e.edgeKind ∈ loopEdgeKinds := by
    rw [hkind]
    decide
  have harrow := w.arrow_mem_part he (forward_of_mem_loopEdgeKinds hmem)
  obtain ⟨guard, loop, hguard, hloop, hid, hvalid⟩ := w.ok.loops _ harrow hmem
  have hvalid' : e.targetId = guard.nodeId ∧ e.sourceId ∈ loop.bodyTerminalNodeIds := by
    have h : loopEdgeValid e.edgeKind e.sourceId e.targetId guard.nodeId loop := hvalid
    rw [hkind] at h
    exact h
  -- the guard is the only candidate
  let candidates := (g.nodes.filterMap control?).filterMap fun n =>
    if n.nodeId = guard.nodeId then (loopContract? n).map fun loop => (n.nodeId, loop) else none
  have hguardMem : (guard.nodeId, loop) ∈ candidates := by
    refine mem_filterMap.mpr ⟨guard, mem_controls.mpr (w.control_mem.mpr hguard), ?_⟩
    rw [if_pos rfl, hloop]
    rfl
  have honly : ∀ q ∈ candidates, q = (guard.nodeId, loop) := by
    intro q hq
    obtain ⟨n, hn, heq⟩ := mem_filterMap.mp hq
    by_cases hn' : n.nodeId = guard.nodeId
    · have hsame := w.control_unique (w.control_mem.mp (mem_controls.mp hn)) hguard hn'
      subst hsame
      rw [if_pos rfl, hloop] at heq
      exact (Option.some.inj heq).symm
    · rw [if_neg hn'] at heq
      cases heq
  refine ⟨hkind, guard.nodeId, hid, (guard.nodeId, loop), ?_, hvalid'⟩
  cases hcandidates : candidates with
  | nil =>
    rw [hcandidates] at hguardMem
    cases hguardMem
  | cons q rest =>
    have hq : q = (guard.nodeId, loop) := honly q (hcandidates ▸ mem_cons_self)
    show (guard.nodeId, loop) ∈ candidates.head?
    rw [hcandidates, hq]
    rfl

/-- The edges that may not close a cycle go up in the order of the part. -/
theorem rank_lt (he : e ∈ g.acyclicEdges) : p.ids.idxOf e.sourceId < p.ids.idxOf e.targetId := by
  obtain ⟨he, hcond⟩ := mem_filter.mp he
  obtain ⟨hforward, hback, -⟩ := of_decide_eq_true hcond
  have harrow := w.arrow_mem_part he hforward
  have hkind : e.edgeKind ≠ .loopBack := fun h => hback (w.isDeclaredLoopBack_of_kind he h)
  exact idxOf_lt_of_sublist w.nodup_ids (w.ok.order _ harrow hkind)

theorem not_containsUndeclaredCycle : ¬ g.containsUndeclaredCycle := by
  let edges := g.acyclicEdges.map fun e => (e.sourceId, e.targetId)
  have hnodup : g.uniqueNodeIds.Nodup := by
    rw [w.uniqueNodeIds_eq]
    exact w.nodup_nodeIds
  have hedges : ∀ q ∈ edges, q.1 ∈ g.uniqueNodeIds ∧ q.2 ∈ g.uniqueNodeIds := by
    intro q hq
    obtain ⟨e, he, rfl⟩ := mem_map.mp hq
    exact w.edge_ends (mem_filter.mp he).1
  have hrank : ∀ q ∈ edges, p.ids.idxOf q.1 < p.ids.idxOf q.2 := by
    intro q hq
    rcases mem_map.mp hq with ⟨e, he, rfl⟩
    exact w.rank_lt he
  have houtgoing : ∀ x, (g.outgoing x).Perm
      (edges.filterMap fun q => if q.1 = x then some q.2 else none) := by
    intro x
    refine (perm_insertionSort _ _).trans (List.Perm.of_eq ?_)
    rw [filterMap_map]
    induction g.acyclicEdges with
    | nil => rfl
    | cons e rest ih =>
      by_cases h : e.sourceId = x
      · simp [h, ih]
      · simp [h, ih]
  have hdegree : ∀ t ∈ g.uniqueNodeIds, g.indegree t = waiting edges [] t := by
    intro t _
    unfold indegree waiting
    rw [countP_map]
    apply countP_congr
    intro e _
    simp
  have hstart := processed_start hnodup hdegree (perm_insertionSort (· ≤ ·)
    (g.uniqueNodeIds.filter fun x => decide (g.indegree x = 0)))
  have hcount := process_eq_length hnodup hedges houtgoing (fun x => p.ids.idxOf x) hrank
    g.uniqueNodeIds.length g.indegree _ [] hstart (by simp)
  exact fun h => h hcount

/-! ## The whole check -/

theorem validateStructure_eq_nil : g.validateStructure = [] := by
  unfold validateStructure validateCycles
  rw [w.validateIdentities_eq_nil, w.validateReachability_eq_nil, w.validateLoopEdges_eq_nil,
    w.validateLoopJoinPairs_eq_nil, w.validateChoiceJoinPairs_eq_nil,
    w.validateForkJoinPairs_eq_nil, if_neg w.not_containsUndeclaredCycle]
  rfl

end

end Whole

end HarnessGraph
