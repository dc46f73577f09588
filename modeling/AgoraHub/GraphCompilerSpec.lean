/-
# What the compiler guarantees

A definition whose nodes are distinct compiles to a graph with one entry and one
terminal node that passes all structural checks, provided every compensation is
anchored: the structural compiler does not look up the node it compensates.
-/
import AgoraHub.GraphCompilerPieces
import AgoraHub.GraphWhole

namespace HarnessGraph

open Fallible List HarnessGraphRepairBinding
open TaskPlan (HarnessValidationError)

/-- One entry, one terminal, and nothing to report. -/
def NormalizedHarnessGraph.WellFormed (g : NormalizedHarnessGraph) : Prop :=
  (∃ entry, g.entryNodeIds = [entry]) ∧ (∃ terminal, g.terminalNodeIds = [terminal]) ∧
    g.validateStructure = []

variable {b : HarnessGraphRepairBinding}

namespace HarnessGraphDefinition

variable (d : HarnessGraphDefinition)

/-- The nodes of the compiled graph: of the root, the compensations and the repairs. -/
def allNodeIds : List String :=
  d.root.root.nodeIds ++ (d.root.compensations.map compensationNodeId ++
    d.repairBindings.map repairNodeId)

/-- A compensation of a node of the graph, which another compensation must not leave
hanging in the air. -/
inductive Anchored : CompensationBinding → Prop where
  | root {b : CompensationBinding} : b.forNodeId ∈ d.root.root.nodeIds → Anchored b
  | repair {b : CompensationBinding} :
      b.forNodeId ∈ d.repairBindings.map repairNodeId → Anchored b
  | compensation {b b' : CompensationBinding} : b' ∈ d.root.compensations → Anchored b' →
      b.forNodeId = compensationNodeId b' → Anchored b

/-! ## Auxiliary nodes -/

/-- A loop that adds an executable node and an edge for each binding. -/
theorem foldlM_grows {β : Type}
    {f : CompilerContext → β → Except HarnessValidationError CompilerContext} {nodeId : β → String}
    {arrow : β → Arrow} (hstep : ∀ c c' b, f c b = .ok c' → ∃ node : HarnessExecutableNode,
      node.nodeId = nodeId b ∧ Grows c c' [.executable node] [arrow b]) :
    ∀ (bs : List β) (c c' : CompilerContext), bs.foldlM f c = .ok c' →
      ∃ nodes : List HarnessExecutableNode, nodes.map HarnessExecutableNode.nodeId = bs.map nodeId ∧
          Grows c c' (nodes.map HarnessGraphNode.executable) (bs.map arrow)
  | [], c, c', h => by
    cases h
    exact ⟨[], rfl, Grows.refl c⟩
  | b :: bs, c, c', h => by
    rw [foldlM_cons] at h
    obtain ⟨c₁, hfirst, hrest⟩ := bind_inv h
    rcases hstep c c₁ b hfirst with ⟨node, hnode, hgrows⟩
    rcases foldlM_grows hstep bs c₁ c' hrest with ⟨nodes, hnodes, hgrows'⟩
    refine ⟨node :: nodes, ?_, hgrows.trans hgrows'⟩
    rw [map_cons, map_cons, hnode, hnodes]

/-- The arrow of a compensation. -/
def compensationArrow (b : CompensationBinding) : Arrow :=
  ⟨b.forNodeId, compensationNodeId b, .compensation, none, none⟩

/-- The arrow of a repair. -/
def repairArrow (b : HarnessGraphRepairBinding) : Arrow :=
  ⟨b.sourceNodeId, b.repairNodeId, .repair, none, none⟩

theorem compileCompensation_grows (c c' : CompilerContext) (b : CompensationBinding)
    (h : d.compileCompensation c b = .ok c') : ∃ node : HarnessExecutableNode,
      node.nodeId = compensationNodeId b ∧ Grows c c' [.executable node] [compensationArrow b] := by
  unfold compileCompensation at h
  obtain ⟨c₁, hnode, h⟩ := bind_inv h
  obtain ⟨executable, -, h⟩ := bind_inv h
  obtain ⟨declared, -, h⟩ := bind_inv h
  obtain ⟨-, h⟩ := check_inv h
  obtain ⟨handlerRef, -, h⟩ := bind_inv h
  cases h
  rcases addExecutable_eq_ok hnode with ⟨node, hid, hgrows⟩
  refine ⟨node, hid, (hgrows.trans (Grows.of_eq ?_ ?_ ?_)).trans (Grows.addEdge _ _ _ _ _ _)⟩
  · rfl
  · rfl
  · rfl

theorem compileRepair_grows (c c' : CompilerContext) (b : HarnessGraphRepairBinding)
    (h : d.compileRepair c b = .ok c') : ∃ node : HarnessExecutableNode,
      node.nodeId = b.repairNodeId ∧ Grows c c' [.executable node] [repairArrow b] := by
  unfold compileRepair at h
  simp only [bind_eq_ok] at h
  obtain ⟨c₁, hnode, source, -, repair, -, h⟩ := h
  cases h
  rcases addExecutable_eq_ok hnode with ⟨node, hid, hgrows⟩
  refine ⟨node, hid, (hgrows.trans (Grows.of_eq ?_ ?_ ?_)).trans (Grows.addEdge _ _ _ _ _ _)⟩
  · rfl
  · rfl
  · rfl

/-! ## Where the auxiliary nodes hang -/

/-- A repair starts at a node of the root. -/
theorem sourceNodeId_mem (hb : b ∈ d.repairBindings) : b.sourceNodeId ∈ d.root.root.nodeIds := by
  have h := d.repairs
  unfold validateRepairBindings at h
  obtain ⟨-, h⟩ := check_inv h
  obtain ⟨routes, hroutes, -⟩ := bind_inv h
  rcases exists_step_of_foldlM hroutes b hb with ⟨routes₁, routes₂, hstep⟩
  unfold validateRepairBinding at hstep
  obtain ⟨hsource, -⟩ := check_inv hstep
  have hcount := (of_require hsource).2
  exact count_pos_iff.mp (by omega)

/-- The compensations in the order they are compiled. -/
def sortedCompensations : List CompensationBinding :=
  d.root.compensations.insertionSort fun a b => a.bindingId ≤ b.bindingId

theorem perm_sortedCompensations : d.sortedCompensations.Perm d.root.compensations :=
  perm_insertionSort _ _

/-- The arrows to the auxiliary nodes. -/
def auxArrows : List Arrow :=
  d.sortedCompensations.map compensationArrow ++ d.repairBindings.map repairArrow

variable {d}

theorem compensationArrow_mem {b : CompensationBinding} (hb : b ∈ d.root.compensations) :
    compensationArrow b ∈ d.auxArrows :=
  mem_append_left _ (mem_map_of_mem (d.perm_sortedCompensations.mem_iff.mpr hb))

theorem repairArrow_mem (hb : b ∈ d.repairBindings) : repairArrow b ∈ d.auxArrows :=
  mem_append_right _ (mem_map_of_mem hb)

/-- What an anchored compensation compensates is a node of the graph. -/
theorem forNodeId_mem {b : CompensationBinding} (h : d.Anchored b) :
    b.forNodeId ∈ d.allNodeIds := by
  cases h with
  | root hmem => exact mem_append_left _ hmem
  | repair hmem => exact mem_append_right _ (mem_append_right _ hmem)
  | compensation hb _ heq =>
    rw [heq]
    exact mem_append_right _ (mem_append_left _ (mem_map_of_mem hb))

section Reach

variable {arrows : List Arrow} {entry : String}

theorem path_repair (hroot : ∀ x ∈ d.root.root.nodeIds, Path arrows entry x)
    (haux : d.auxArrows ⊆ arrows) (hb : b ∈ d.repairBindings) : Path arrows entry b.repairNodeId :=
  (hroot _ (d.sourceNodeId_mem hb)).tail ⟨_, haux (repairArrow_mem hb), rfl, rfl⟩

/-- What an anchored compensation compensates is reached. -/
theorem path_forNodeId (hroot : ∀ x ∈ d.root.root.nodeIds, Path arrows entry x)
    (haux : d.auxArrows ⊆ arrows) {b : CompensationBinding} (h : d.Anchored b) :
    Path arrows entry b.forNodeId := by
  induction h with
  | root hmem => exact hroot _ hmem
  | repair hmem =>
    rcases mem_map.mp hmem with ⟨r, hr, heq⟩
    exact heq ▸ path_repair hroot haux hr
  | compensation hb _ heq ih =>
    rw [heq]
    exact ih.tail ⟨_, haux (compensationArrow_mem hb), rfl, rfl⟩

end Reach

/-! ## The compiled graph -/

/-- The compiled graph is a part with auxiliary nodes. -/
theorem whole_of_compile {g : NormalizedHarnessGraph} (hroutes : d.root.root.noTimeoutRoutes)
    (hnodup : d.allNodeIds.Nodup) (hanchored : ∀ b ∈ d.root.compensations, d.Anchored b)
    (h : d.compile = .ok g) : ∃ p extra, Whole g p extra d.auxArrows := by
  unfold compile at h
  obtain ⟨⟨c, f⟩, hroot, h⟩ := bind_inv h
  obtain ⟨-, h⟩ := check_inv h
  obtain ⟨c₁, hcompensations, h⟩ := bind_inv h
  obtain ⟨c₂, hrepairs, h⟩ := bind_inv h
  unfold buildGraph at h
  obtain ⟨committed, -, h⟩ := bind_inv h
  unfold NormalizedHarnessGraph.construct at h
  simp only [check_bind_eq_ok] at h
  obtain ⟨-, -, -, h⟩ := h
  cases h
  rcases compileExpression_compiled d d.root.root hroutes (nodup_append.mp hnodup).1 hroot with
    ⟨p, hp, hids, rfl, hgrows⟩
  rcases foldlM_grows d.compileCompensation_grows _ _ _ hcompensations with
    ⟨compensated, hcompensated, hgrows₁⟩
  rcases foldlM_grows d.compileRepair_grows _ _ _ hrepairs with ⟨repaired, hrepaired, hgrows₂⟩
  have hall := (hgrows.trans hgrows₁).trans hgrows₂
  rw [append_assoc, append_assoc, ← map_append] at hall
  rcases hall.edges with ⟨edges, hedges, harrows, hordinals⟩
  -- the new nodes are those of the bindings
  have hextra : ((compensated ++ repaired).map HarnessExecutableNode.nodeId).Perm
      (d.root.compensations.map compensationNodeId ++
        d.repairBindings.map repairNodeId) := by
    rw [map_append, hcompensated, hrepaired]
    exact (d.perm_sortedCompensations.map _).append_right _
  have hids' : (p.ids ++ (compensated ++ repaired).map HarnessExecutableNode.nodeId).Perm
      d.allNodeIds := by
    rw [hids]
    exact hextra.append_left _
  have hreach : ∀ x ∈ d.root.root.nodeIds, Path (p.arrows ++ d.auxArrows) p.entry x :=
    fun x hx => (hp.reach x (hids ▸ hx)).mono (subset_append_left _ _)
  have haux : d.auxArrows ⊆ p.arrows ++ d.auxArrows := subset_append_right _ _
  refine ⟨p, compensated ++ repaired, hp, ?_, ?_, ?_, ?_, rfl, rfl, ?_, ?_, ?_⟩
  · refine (perm_insertionSort _ _).trans (List.Perm.of_eq ?_)
    exact hall.nodes
  · refine ((perm_insertionSort _ _).map _).trans (List.Perm.of_eq ?_)
    rw [hedges]
    exact harrows
  · -- the identifiers carry different positions
    have hperm := (perm_insertionSort NormalizedHarnessGraph.edgeLe c₂.edges).map
      HarnessGraphEdge.edgeId
    refine hperm.nodup_iff.mpr (List.Nodup.of_map ordinalOfId ?_)
    rw [map_map, hedges]
    show (edges.map fun e => ordinalOfId e.edgeId).Nodup
    rw [hordinals]
    exact nodup_range'
  · exact hids'.nodup_iff.mpr hnodup
  · intro a ha
    rcases mem_append.mp ha with ha | ha
    · rcases mem_map.mp ha with ⟨b, -, rfl⟩
      exact Or.inr rfl
    · rcases mem_map.mp ha with ⟨b, -, rfl⟩
      exact Or.inl rfl
  · intro a ha
    rw [hids'.mem_iff, hextra.mem_iff]
    rcases mem_append.mp ha with ha | ha
    · rcases mem_map.mp ha with ⟨b, hb, rfl⟩
      have hb := d.perm_sortedCompensations.mem_iff.mp hb
      exact ⟨forNodeId_mem (hanchored b hb), mem_append_left _ (mem_map_of_mem hb)⟩
    · rcases mem_map.mp ha with ⟨b, hb, rfl⟩
      exact ⟨mem_append_left _ (d.sourceNodeId_mem hb), mem_append_right _ (mem_map_of_mem hb)⟩
  · intro n hn
    have hid := hextra.mem_iff.mp (mem_map_of_mem hn)
    rcases mem_append.mp hid with hid | hid
    · rcases mem_map.mp hid with ⟨b, hb, heq⟩
      rw [← heq]
      exact (path_forNodeId hreach haux (hanchored b hb)).tail
        ⟨_, haux (compensationArrow_mem hb), rfl, rfl⟩
    · rcases mem_map.mp hid with ⟨b, hb, heq⟩
      rw [← heq]
      exact path_repair hreach haux hb

/-- **The compiler produces well-formed graphs.** -/
theorem wellFormed_compile {g : NormalizedHarnessGraph} (hroutes : d.root.root.noTimeoutRoutes)
    (hnodup : d.allNodeIds.Nodup) (hanchored : ∀ b ∈ d.root.compensations, d.Anchored b)
    (h : d.compile = .ok g) : g.WellFormed := by
  rcases whole_of_compile hroutes hnodup hanchored h with ⟨p, extra, w⟩
  exact ⟨⟨p.entry, w.entry⟩, ⟨p.terminal, w.terminal⟩, w.validateStructure_eq_nil⟩

end HarnessGraphDefinition

/-! ## A definition -/

namespace Sample

/-- An activity without inputs. -/
def workStep : HarnessStepSpec where
  stepId := "work"
  workerType := .function
  inputKeys := []
  outputKey := none
  retryPolicy := .null
  qualityGate := none
  metadata := []
  sideEffectRef := none

/-- A step, a race between a step and a loop, and a compensation of some node. -/
def definition (forNodeId : String) : HarnessGraphDefinition where
  graphId := "graph"
  graphVersion := "1.0.0"
  root :=
    { graphId := "graph"
      root := .sequence [.stepRef ⟨"work", "work"⟩,
        .parallelAny "race" "finish"
          [⟨"once", .stepRef ⟨"work", "once"⟩, "once"⟩,
            ⟨"often", .boundedLoop "loop" (.stepRef ⟨"work", "again"⟩) (.all []) 3
              (some (.pass "done")) none, "often"⟩]
          .cancelLosers .failAll]
      compensations := [⟨"undo", forNodeId, "work", "undo-work@1", "work-activity@1", "run"⟩]
      inputKeys := []
      terminalOutputKeys := [] }
  activities := [workStep]
  leafActivityBindings := [⟨"work", .function, ⟨.worker, "worker", "1"⟩,
    ⟨.activity, "work-activity", "1"⟩⟩]
  taskPlanStageBindings := []
  committedOutputBindings := []
  repairBindings := []
  repairs := rfl

/-- With a compensation of a node of the root the compiled graph is well formed. -/
theorem wellFormed_definition : ∃ g, (definition "work").compile = .ok g ∧ g.WellFormed := by
  rcases exists_eq_ok_of_isOk (show (definition "work").compile.isOk = true by decide +kernel) with
    ⟨g, hg⟩
  refine ⟨g, hg, HarnessGraphDefinition.wellFormed_compile ?_ (by decide +kernel) ?_ hg⟩
  · exact ⟨trivial, ⟨trivial, ⟨trivial, trivial, trivial⟩, trivial⟩, trivial⟩
  · intro b hb
    obtain rfl := mem_singleton.mp hb
    exact .root (by decide +kernel)

/-- A compensation of an unknown node compiles to a graph with an edge from nowhere. -/
theorem not_wellFormed_compile : ¬ ∀ (d : HarnessGraphDefinition) (g : NormalizedHarnessGraph),
    d.root.root.noTimeoutRoutes → d.allNodeIds.Nodup → d.compile = .ok g → g.WellFormed := by
  intro h
  rcases exists_eq_ok_of_isOk (show (definition "nowhere").compile.isOk = true by decide +kernel)
    with ⟨g, hg⟩
  have hroutes : (definition "nowhere").root.root.noTimeoutRoutes :=
    ⟨trivial, ⟨trivial, ⟨trivial, trivial, trivial⟩, trivial⟩, trivial⟩
  have hreports : (definition "nowhere").compile.toOption.map (fun g => g.validateStructure.length) =
      some 2 := by decide +kernel
  rw [hg] at hreports
  have hnone := (h _ g hroutes (by decide +kernel) hg).2.2
  have hlength : g.validateStructure.length = 2 := Option.some.inj hreports
  rw [hnone] at hlength
  cases hlength

end Sample

end HarnessGraph
