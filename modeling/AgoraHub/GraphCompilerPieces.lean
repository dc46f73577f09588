/-
# Every expression compiles to a part

One lemma for each expression: what it appends is a part with the nodes of the
expression.  The induction over expressions puts them together.
-/
import AgoraHub.GraphGrowth

namespace HarnessGraph

open Fallible HarnessGraphExpression List Grows HarnessGraph.Part
open NormalizedHarnessGraph (loopContract? expectedEdges loopEdgeValid loopRoutesMatch
  expectedLoopBranchIds loopEdgeKinds forkKindOf)
open TaskPlan (HarnessValidationError)
open HarnessGraphDefinition

/-- The fragment of a part. -/
def Part.fragment (p : Part) : Fragment := ⟨[p.entry], [p.terminal]⟩

/-- A compilation step has appended a part over a list of nodes. -/
def Compiled (c c' : CompilerContext) (fragment : Fragment) (ids : List String) : Prop :=
  ∃ p : Part, p.Ok ∧ p.ids = ids ∧ fragment = p.fragment ∧ Grows c c' p.nodes p.arrows

variable {closer opener : HarnessControlNode}

/-- Growing by the parts of a bracket, its two nodes and its arrows. -/
theorem Grows.bracket {c₀ c c₁ c₂ c₃ : CompilerContext} {parts : List Part} {arrows : List Arrow}
    (h : Grows c₀ c (parts.flatMap Part.nodes) (parts.flatMap Part.arrows))
    (hopener : Grows c c₁ [.control opener] []) (hcloser : Grows c₁ c₂ [.control closer] [])
    (harrows : Grows c₂ c₃ [] arrows) : Grows c₀ c₃ (Part.bracket parts opener closer arrows).nodes
      (Part.bracket parts opener closer arrows).arrows := by
  have htotal := ((h.trans hopener).trans hcloser).trans harrows
  simpa [Part.bracket] using htotal

/-! ## Sequences -/

theorem sequenceEdgeKind_mem (c : CompilerContext) (sourceId : String) :
    c.sequenceEdgeKind sourceId ∈ [EdgeKind.dependency, .waitResume] := by
  unfold CompilerContext.sequenceEdgeKind
  split
  · split <;> simp
  · simp

/-- Linking parts one after another gives a part. -/
theorem linkFragments_grows : ∀ (p : Part) (parts : List Part) (c : CompilerContext),
    (∀ q ∈ p :: parts, q.Ok) → ((p :: parts).flatMap Part.ids).Nodup →
    ∃ (s : Part) (links : List Arrow), s.Ok ∧ s.ids = (p :: parts).flatMap Part.ids ∧
      s.nodes = (p :: parts).flatMap Part.nodes ∧
      s.arrows = (p :: parts).flatMap Part.arrows ++ links ∧ s.entry = p.entry ∧
      s.terminal = ((p :: parts).getLast (cons_ne_nil _ _)).terminal ∧
      Grows c (linkFragments c ((p :: parts).map Part.fragment)) [] links
  | p, [], c, hok, _ => by
    refine ⟨p, [], hok p mem_cons_self, ?_, ?_, ?_, rfl, rfl, Grows.refl c⟩ <;> simp
  | p, q :: parts, c, hok, hnodup => by
    have hp := hok p mem_cons_self
    rw [flatMap_cons] at hnodup
    let kind := c.sequenceEdgeKind p.terminal
    let link : Arrow := ⟨p.terminal, q.entry, kind, none, none⟩
    have hlinked : Grows c (linkPair c p.fragment q.fragment) [] [link] :=
      addEdge c p.terminal q.entry kind none none
    rcases linkFragments_grows q parts (linkPair c p.fragment q.fragment)
      (fun r hr => hok r (mem_cons_of_mem _ hr)) (nodup_append.mp hnodup).2.1 with
      ⟨s, links, hs, hids, hnodes, harrows, hentry, hterminal, hgrows⟩
    have hseq : (Part.seq p s link).Ok :=
      seq_ok link hp hs (hids ▸ hnodup) rfl hentry.symm (sequenceEdgeKind_mem c p.terminal)
    have hcongr := hseq.congr ((p :: q :: parts).flatMap Part.arrows ++ link :: links) (by
      intro a
      show a ∈ _ ↔ a ∈ p.arrows ++ s.arrows ++ [link]
      rw [harrows, flatMap_cons]
      simp only [mem_append, mem_cons, not_mem_nil, or_false]
      tauto)
    refine ⟨_, link :: links, hcongr, ?_, ?_, rfl, rfl, ?_, hlinked.trans hgrows⟩
    · show p.ids ++ s.ids = p.ids ++ (q :: parts).flatMap Part.ids
      rw [hids]
    · show p.nodes ++ s.nodes = p.nodes ++ (q :: parts).flatMap Part.nodes
      rw [hnodes]
    · show s.terminal = _
      rw [hterminal, getLast_cons (cons_ne_nil q parts)]

variable {c₀ c c' : CompilerContext} {f : Fragment}

/-- A sequence of parts compiles to a part. -/
theorem finishSequence_compiled {parts : List Part} (hok : ∀ p ∈ parts, p.Ok)
    (hnodup : (parts.flatMap Part.ids).Nodup)
    (hgrows : Grows c₀ c (parts.flatMap Part.nodes) (parts.flatMap Part.arrows))
    (h : finishSequence c (parts.map Part.fragment) = .ok (c', f)) :
    Compiled c₀ c' f (parts.flatMap Part.ids) := by
  cases parts with
  | nil => cases h
  | cons p parts =>
    unfold finishSequence at h
    cases h
    rcases linkFragments_grows p parts c hok hnodup with
      ⟨s, links, hs, hids, hnodes, harrows, hentry, hterminal, hlinked⟩
    refine ⟨s, hs, hids, ?_, ?_⟩
    · have hlast : ((p :: parts).map Part.fragment).getLast (by simp) =
          ((p :: parts).getLast (cons_ne_nil _ _)).fragment := getLast_map _
      show (⟨[p.entry], (((p :: parts).map Part.fragment).getLast (by simp)).terminalNodeIds⟩ :
        Fragment) = s.fragment
      rw [hlast]
      unfold Part.fragment
      rw [hentry, hterminal]
    · rw [hnodes, harrows]
      have htotal := hgrows.trans hlinked
      rwa [append_nil] at htotal

/-! ## Choices -/

/-- The arrows of one branch of a choice. -/
def choiceArrows (choiceId : String) (x : ChoiceBranch HarnessGraphExpression × Part) :
    List Arrow :=
  [⟨choiceId, x.2.entry, if x.1.isDefault then .default else .choice, some x.1.branchId, none⟩,
    ⟨x.2.terminal, choiceId ++ ":join", .dependency, some x.1.branchId, none⟩]

/-- The fragments of branches with their parts. -/
def withFragments {β : Type} (entries : List (β × Part)) : List (β × Fragment) :=
  entries.map fun x => (x.1, x.2.fragment)

theorem linkChoiceBranches_grows (choiceId : String)
    (entries : List (ChoiceBranch HarnessGraphExpression × Part)) (c : CompilerContext) :
    Grows c ((withFragments entries).foldl (linkChoiceBranch choiceId) c) []
      (entries.flatMap (choiceArrows choiceId)) := by
  unfold withFragments
  rw [foldl_map]
  apply Grows.foldl
  intro c x
  exact (addEdgeWith c choiceId x.2.entry _ x.1.priority x.1.condition
    (some x.1.branchId) none).trans (addEdge _ x.2.terminal _ .dependency _ none)

/-- The edges a list of contracts expects are those of the ends of the parts. -/
theorem mem_expectedEdges_iff {β : Type} (entries : List (β × Part))
    {contract : β × Part → HarnessBranch} (branchId : β → String) {branches : List HarnessBranch}
    (hbranches : ∀ b, b ∈ branches ↔ b ∈ entries.map contract)
    (hcontract : ∀ x, (contract x).terminalNodeIds = [x.2.terminal] ∧
      (contract x).branchId = branchId x.1) (pair : String × Option String) :
    pair ∈ expectedEdges branches ↔ ∃ x ∈ entries, (x.2.terminal, some (branchId x.1)) = pair := by
  unfold expectedEdges
  rw [mem_flatMap]
  constructor
  · rintro ⟨b, hb, hpair⟩
    obtain ⟨x, hx, rfl⟩ := mem_map.mp ((hbranches b).mp hb)
    rw [(hcontract x).1, (hcontract x).2, map_singleton, mem_singleton] at hpair
    exact ⟨x, hx, hpair.symm⟩
  · rintro ⟨x, hx, hpair⟩
    refine ⟨contract x, (hbranches _).mpr (mem_map_of_mem hx), ?_⟩
    rw [(hcontract x).1, (hcontract x).2, map_singleton, mem_singleton]
    exact hpair.symm

/-- Arrows from an opening node to each part, and from each part to a closing node. -/
theorem frame_of_entries {β : Type} {entries : List (β × Part)} {opener closer : String}
    {enter leave : β × Part → Arrow} (hne : entries ≠ [])
    (henter : ∀ x, (enter x).sourceId = opener ∧ (enter x).targetId = x.2.entry ∧
      ¬ (enter x).edgeKind.nonForward)
    (hleave : ∀ x, (leave x).sourceId = x.2.terminal ∧ (leave x).targetId = closer ∧
      ¬ (leave x).edgeKind.nonForward) : Part.Frame (entries.map Prod.snd) opener closer
      (entries.flatMap fun x => [enter x, leave x]) := by
  have hmem : ∀ a ∈ entries.flatMap fun x => [enter x, leave x], ∃ x ∈ entries,
      a = enter x ∨ a = leave x := by
    intro a ha
    obtain ⟨x, hx, hax⟩ := mem_flatMap.mp ha
    simp only [mem_cons, not_mem_nil, or_false] at hax
    exact ⟨x, hx, hax⟩
  refine ⟨?_, ?_, ?_, ?_⟩
  · intro a ha
    rcases hmem a ha with ⟨x, hx, rfl | rfl⟩
    · exact Or.inl ⟨(henter x).1, x.2, mem_map_of_mem hx, (henter x).2.1⟩
    · exact Or.inr (Or.inl ⟨⟨x.2, mem_map_of_mem hx, (hleave x).1⟩, (hleave x).2.1⟩)
  · intro p hp
    obtain ⟨x, hx, rfl⟩ := mem_map.mp hp
    exact ⟨enter x, mem_flatMap.mpr ⟨x, hx, mem_cons_self⟩, (henter x).1, (henter x).2.1⟩
  · obtain ⟨x, hx⟩ := exists_mem_of_ne_nil entries hne
    exact ⟨x.2, mem_map_of_mem hx, leave x, mem_flatMap.mpr ⟨x, hx,
      mem_cons_of_mem _ mem_cons_self⟩, (hleave x).1, (hleave x).2.1⟩
  · intro a ha
    rcases hmem a ha with ⟨x, -, rfl | rfl⟩
    · exact (henter x).2.2
    · exact (hleave x).2.2

theorem choiceKind_cases (isDefault : Bool) :
    (if isDefault then EdgeKind.default else .choice) ∈ [EdgeKind.default, .choice] := by
  cases isDefault <;> decide

variable {nodes : List HarnessGraphNode}

/-- The join of a choice is entered from the ends of its branches. -/
theorem choiceJoin_ok {choiceId : String}
    {entries : List (ChoiceBranch HarnessGraphExpression × Part)}
    (hopener : HarnessGraphNode.control opener ∈ nodes) (hkind : opener.nodeKind = .choice)
    (hid : opener.nodeId = choiceId) (hcloser : closer.nodeId = choiceId ++ ":join")
    (hcloserKind : closer.nodeKind = .choiceJoin)
    (href : closer.metadata.get? "choice_node_id" = some (.str choiceId))
    (hsame : closer.branches = opener.branches) (hbranches : ∀ b, b ∈ opener.branches ↔
      b ∈ entries.map fun x => choiceBranch choiceId (x.1, x.2.fragment)) :
    JoinOk nodes (entries.flatMap (choiceArrows choiceId)) closer := by
  have hother : closer.nodeKind ≠ .loopJoin ∧ closer.nodeKind ≠ .joinAll ∧
      closer.nodeKind ≠ .joinAny := by
    rw [hcloserKind]
    decide
  refine ⟨fun _ => ?_, fun h => absurd h hother.1, ?_⟩
  · refine ⟨opener, hopener, hkind, hid ▸ href, hsame, fun pair => ?_⟩
    rw [mem_expectedEdges_iff entries (fun b => b.branchId) hbranches
      (fun x => ⟨rfl, rfl⟩)]
    constructor
    · rintro ⟨a, ha, -, hdependency, -, hpair⟩
      obtain ⟨x, hx, hax⟩ := mem_flatMap.mp ha
      simp only [choiceArrows, mem_cons, not_mem_nil, or_false] at hax
      rcases hax with rfl | rfl
      · -- the arrow into the branch is not a dependency
        have := choiceKind_cases x.1.isDefault
        rw [show (if x.1.isDefault then EdgeKind.default else .choice) = .dependency from
          hdependency] at this
        exact absurd this (by decide)
      · exact ⟨x, hx, hpair⟩
    · rintro ⟨x, hx, hpair⟩
      exact ⟨_, mem_flatMap.mpr ⟨x, hx, mem_cons_of_mem _ mem_cons_self⟩,
        hcloser.symm, rfl, trivial, hpair⟩
  · rintro (h | h)
    · exact absurd h hother.2.1
    · exact absurd h hother.2.2

/-- A choice between parts compiles to a part. -/
theorem finishChoice_compiled {choiceId : String}
    {entries : List (ChoiceBranch HarnessGraphExpression × Part)}
    (hok : ∀ p ∈ entries.map Prod.snd, p.Ok)
    (hnodup : (choiceId :: ((entries.map Prod.snd).flatMap Part.ids ++
      [choiceId ++ ":join"])).Nodup)
    (hgrows : Grows c₀ c ((entries.map Prod.snd).flatMap Part.nodes)
      ((entries.map Prod.snd).flatMap Part.arrows))
    (h : finishChoice choiceId c (withFragments entries) = .ok (c', f)) :
    Compiled c₀ c' f (choiceId :: ((entries.map Prod.snd).flatMap Part.ids ++
      [choiceId ++ ":join"])) := by
  unfold finishChoice at h
  obtain ⟨c₁, hchoice, h⟩ := bind_inv h
  obtain ⟨c₂, hjoin, h⟩ := bind_inv h
  cases h
  obtain ⟨hpresent, hgrows₁⟩ := addControl_eq_ok hchoice
  obtain ⟨-, hgrows₂⟩ := addControl_eq_ok hjoin
  -- a choice has a branch, or its contract would be empty
  have hne : entries ≠ [] := by
    rintro rfl
    cases hpresent
  have hframe : Part.Frame (entries.map Prod.snd) choiceId (choiceId ++ ":join")
      (entries.flatMap (choiceArrows choiceId)) := by
    apply frame_of_entries hne
    · refine fun x => ⟨rfl, rfl, ?_⟩
      show ¬ (if x.1.isDefault then EdgeKind.default else .choice).nonForward
      cases x.1.isDefault <;> decide
    · refine fun x => ⟨rfl, rfl, ?_⟩
      show ¬ EdgeKind.dependency.nonForward
      decide
  have hloops : ∀ nodes, ∀ a ∈ entries.flatMap (choiceArrows choiceId), LoopArrow nodes a := by
    intro nodes a ha hkind
    obtain ⟨x, -, hax⟩ := mem_flatMap.mp ha
    simp only [choiceArrows, mem_cons, not_mem_nil, or_false] at hax
    rcases hax with rfl | rfl
    · have hnot : (if x.1.isDefault then EdgeKind.default else .choice) ∉
          NormalizedHarnessGraph.loopEdgeKinds := by
        cases x.1.isDefault <;> decide
      exact absurd hkind hnot
    · have hnot : EdgeKind.dependency ∉ NormalizedHarnessGraph.loopEdgeKinds := by decide
      exact absurd hkind hnot
  let branches := (withFragments entries).map (choiceBranch choiceId)
  let opener := placed { CompilerContext.control choiceId .choice with branches := branches }
    c.nodeOrder
  let closer := placed { CompilerContext.control (choiceId ++ ":join") .choiceJoin with
    branches := branches, metadata := [("choice_node_id", .str choiceId)] } c₁.nodeOrder
  have hbranches : ∀ b, b ∈ opener.branches ↔
      b ∈ entries.map fun x => choiceBranch choiceId (x.1, x.2.fragment) := by
    intro b
    refine (mem_branches_placed _ _ b).trans ?_
    simp [branches, withFragments]
  have hkind : opener.nodeKind ∉ [NodeKind.choiceJoin, .loopJoin, .joinAll, .joinAny] := by
    show NodeKind.choice ∉ [NodeKind.choiceJoin, .loopJoin, .joinAll, .joinAny]
    decide
  have hbracket := bracket_ok opener closer hok hnodup hframe (hloops _) hkind
    (choiceJoin_ok mem_cons_self rfl rfl rfl rfl rfl rfl hbranches) (List.Perm.refl _)
  refine ⟨_, hbracket, rfl, rfl, ?_⟩
  exact hgrows.bracket hgrows₁ hgrows₂ (linkChoiceBranches_grows choiceId entries c₂)

/-! ## Parallel branches -/

/-- The arrows of one parallel branch. -/
def parallelArrows (forkId joinId : String)
    (x : ParallelBranch HarnessGraphExpression × Part) : List Arrow :=
  [⟨forkId, x.2.entry, .forkBranch, some x.1.branchId, none⟩,
    ⟨x.2.terminal, joinId, .join, some x.1.branchId, none⟩]

theorem linkParallelBranches_grows (forkId joinId : String)
    (entries : List (ParallelBranch HarnessGraphExpression × Part)) (c : CompilerContext) :
    Grows c ((withFragments entries).foldl (linkParallelBranch forkId joinId) c) []
      (entries.flatMap (parallelArrows forkId joinId)) := by
  unfold withFragments
  rw [foldl_map]
  apply Grows.foldl
  intro c x
  exact (addEdge c forkId x.2.entry .forkBranch (some x.1.branchId) none).trans
    (addEdge _ x.2.terminal joinId .join _ none)

/-- The contracts of parallel branches keep their identifiers. -/
theorem branchIds_parallelBranches
    (compiled : List (ParallelBranch HarnessGraphExpression × Fragment)) :
    (parallelBranches compiled).map HarnessBranch.branchId = parallelBranchIds compiled := by
  have h : ∀ (l : List (ParallelBranch HarnessGraphExpression × Fragment)) (n : ℕ),
      (l.zipIdx n).map (fun entry => entry.1.1.branchId) = l.map fun entry => entry.1.branchId := by
    intro l
    induction l with
    | nil => intro n; rfl
    | cons x l ih =>
      intro n
      rw [zipIdx_cons, map_cons, map_cons, ih]
  unfold parallelBranches parallelBranchIds
  rw [map_map]
  exact h compiled 0

theorem sameSet_branchIds_placed (n : HarnessControlNode) (order : ℕ) :
    SameSet ((placed n order).branches.map HarnessBranch.branchId)
      (n.branches.map HarnessBranch.branchId) := by
  have hperm : ((placed n order).branches.map HarnessBranch.branchId).Perm
      (n.branches.map HarnessBranch.branchId) :=
    (perm_insertionSort HarnessControlNode.branchLe n.branches).map _
  exact ⟨fun x hx => hperm.mem_iff.mp hx, fun x hx => hperm.mem_iff.mpr hx⟩

variable {forkId joinId : String} {entries : List (ParallelBranch HarnessGraphExpression × Part)}

/-- A fork, its branches and its join are a part. -/
theorem parallel_ok (opener closer : HarnessControlNode) {contract : HarnessJoinContract}
    (hok : ∀ p ∈ entries.map Prod.snd, p.Ok)
    (hnodup : (opener.nodeId :: ((entries.map Prod.snd).flatMap Part.ids ++
      [closer.nodeId])).Nodup) (hne : entries ≠ []) (hforkId : opener.nodeId = forkId)
    (hjoinId : closer.nodeId = joinId)
    (hkinds : (opener.nodeKind = .forkAll ∧ closer.nodeKind = .joinAll) ∨
      (opener.nodeKind = .forkAny ∧ closer.nodeKind = .joinAny))
    (hjoin : closer.join = some contract) (hfork : contract.forkNodeId = forkId)
    (hbranches : SameSet (opener.branches.map HarnessBranch.branchId) contract.requiredBranchIds) :
    (Part.bracket (entries.map Prod.snd) opener closer
      (entries.flatMap (parallelArrows forkId joinId))).Ok := by
  subst hforkId
  subst hjoinId
  have hframe : Part.Frame (entries.map Prod.snd) opener.nodeId closer.nodeId
      (entries.flatMap (parallelArrows opener.nodeId closer.nodeId)) := by
    apply frame_of_entries hne
    · refine fun x => ⟨rfl, rfl, ?_⟩
      show ¬ EdgeKind.forkBranch.nonForward
      decide
    · refine fun x => ⟨rfl, rfl, ?_⟩
      show ¬ EdgeKind.join.nonForward
      decide
  have hloops : ∀ nodes, ∀ a ∈ entries.flatMap (parallelArrows opener.nodeId closer.nodeId),
      LoopArrow nodes a := by
    intro nodes a ha hkind
    obtain ⟨x, -, hax⟩ := mem_flatMap.mp ha
    simp only [parallelArrows, mem_cons, not_mem_nil, or_false] at hax
    rcases hax with rfl | rfl
    · have hnot : EdgeKind.forkBranch ∉ NormalizedHarnessGraph.loopEdgeKinds := by decide
      exact absurd hkind hnot
    · have hnot : EdgeKind.join ∉ NormalizedHarnessGraph.loopEdgeKinds := by decide
      exact absurd hkind hnot
  have hforkKind : opener.nodeKind = NormalizedHarnessGraph.forkKindOf closer.nodeKind := by
    rcases hkinds with ⟨ho, hc⟩ | ⟨ho, hc⟩ <;> rw [ho, hc] <;> rfl
  have hopener : opener.nodeKind ∉ [NodeKind.choiceJoin, .loopJoin, .joinAll, .joinAny] := by
    rcases hkinds with ⟨ho, -⟩ | ⟨ho, -⟩ <;> rw [ho] <;> decide
  have hcloser : JoinOk [.control opener, .control closer]
      (entries.flatMap (parallelArrows opener.nodeId closer.nodeId)) closer := by
    refine ⟨?_, ?_, ?_⟩
    · intro h
      rcases hkinds with ⟨-, hc⟩ | ⟨-, hc⟩ <;> rw [hc] at h <;> cases h
    · intro h
      rcases hkinds with ⟨-, hc⟩ | ⟨-, hc⟩ <;> rw [hc] at h <;> cases h
    · intro _ contract' hcontract'
      obtain rfl : contract = contract' := by
        rw [Option.mem_def, hjoin] at hcontract'
        exact Option.some.inj hcontract'
      exact ⟨opener, mem_cons_self, hfork.symm, hforkKind, hbranches⟩
  have hpaired : ([HarnessGraphNode.control opener, .control closer].filterMap partner?).Perm
      ([HarnessGraphNode.control opener, .control closer].filterMap owner?) := by
    rcases hkinds with ⟨ho, hc⟩ | ⟨ho, hc⟩ <;> simp [partner?, owner?, ho, hc, hjoin, hfork]
  exact bracket_ok opener closer hok hnodup hframe (hloops _) hopener hcloser hpaired

/-- A race between parts compiles to a part. -/
theorem finishParallelAny_compiled {cancellationPolicy : ParallelAnyCancellationPolicy}
    {failurePolicy : ParallelAnyFailurePolicy} (hok : ∀ p ∈ entries.map Prod.snd, p.Ok)
    (hnodup : (forkId :: ((entries.map Prod.snd).flatMap Part.ids ++ [joinId])).Nodup)
    (hgrows : Grows c₀ c ((entries.map Prod.snd).flatMap Part.nodes)
      ((entries.map Prod.snd).flatMap Part.arrows))
    (h : finishParallelAny forkId joinId cancellationPolicy failurePolicy c
      (withFragments entries) = .ok (c', f)) :
    Compiled c₀ c' f (forkId :: ((entries.map Prod.snd).flatMap Part.ids ++ [joinId])) := by
  unfold finishParallelAny at h
  obtain ⟨c₁, hfork, h⟩ := bind_inv h
  obtain ⟨c₂, hjoin, h⟩ := bind_inv h
  cases h
  obtain ⟨hpresent, hgrows₁⟩ := addControl_eq_ok hfork
  obtain ⟨-, hgrows₂⟩ := addControl_eq_ok hjoin
  have hne : entries ≠ [] := by
    rintro rfl
    cases hpresent
  let opener := placed { CompilerContext.control forkId .forkAny with
    branches := parallelBranches (withFragments entries)
    metadata := [("cancellation_policy", .str cancellationPolicy.value)] } c.nodeOrder
  let closer := placed { CompilerContext.control joinId .joinAny with
    join := some ⟨forkId, parallelBranchIds (withFragments entries), failurePolicy.value,
      some "first_verified_success_by_stream_sequence", none⟩ } c₁.nodeOrder
  have hsame := sameSet_branchIds_placed { CompilerContext.control forkId .forkAny with
    branches := parallelBranches (withFragments entries)
    metadata := [("cancellation_policy", .str cancellationPolicy.value)] } c.nodeOrder
  rw [branchIds_parallelBranches] at hsame
  have hbracket := parallel_ok opener closer hok hnodup hne rfl rfl (Or.inr ⟨rfl, rfl⟩) rfl rfl
    hsame
  exact ⟨_, hbracket, rfl, rfl,
    hgrows.bracket hgrows₁ hgrows₂ (linkParallelBranches_grows forkId joinId entries c₂)⟩

/-- A part followed by a single node. -/
def Part.snoc (p : Part) (n : HarnessGraphNode) : Part :=
  ⟨p.ids ++ [n.nodeId], p.nodes ++ [n],
    p.arrows ++ [⟨p.terminal, n.nodeId, .dependency, none, none⟩], p.entry, n.nodeId⟩

theorem Part.snoc_ok {p : Part} {n : HarnessGraphNode} (hp : p.Ok)
    (hnodup : (p.ids ++ [n.nodeId]).Nodup)
    (hkind : n.nodeKind ∈ [NodeKind.executable, .wait, .merge, .terminal]) : (p.snoc n).Ok := by
  have hseq := seq_ok ⟨p.terminal, n.nodeId, .dependency, none, none⟩ hp
    (leaf_ok hkind) hnodup rfl rfl (by simp)
  have harrows : (Part.seq p (Part.leaf n) ⟨p.terminal, n.nodeId, .dependency, none, none⟩) =
      p.snoc n := by
    simp [Part.seq, Part.leaf, Part.snoc]
  rwa [harrows] at hseq

variable {merge : Option ParallelMerge}

/-- The nodes a merge adds after the join. -/
theorem finishMerge_compiled {d : HarnessGraphDefinition} {branchIds : List String}
    {mergeRef : Option ContractReference} {p : Part} (hp : p.Ok) (hentry : p.entry = forkId)
    (hterminal : p.terminal = joinId) (hnodup : (p.ids ++ mergeNodeIds joinId merge).Nodup)
    (hgrows : Grows c₀ c p.nodes p.arrows)
    (h : d.finishMerge forkId joinId c branchIds mergeRef merge = .ok (c', f)) :
    Compiled c₀ c' f (p.ids ++ mergeNodeIds joinId merge) := by
  subst hentry
  subst hterminal
  cases merge with
  | none =>
    unfold finishMerge at h
    cases h
    exact ⟨p, hp, (append_nil _).symm, rfl, hgrows⟩
  | some merge =>
    cases merge with
    | pureMerge mergeRefText outputKeys =>
      unfold finishMerge at h
      obtain ⟨c₁, hmerge, h⟩ := bind_inv h
      cases h
      obtain ⟨-, hgrows₁⟩ := addControl_eq_ok hmerge
      let merge := placed { CompilerContext.control (p.terminal ++ ":merge") .merge with
        merge := some ⟨.pure, branchIds, outputKeys, mergeRef, none⟩
        metadata := [("join_node_id", .str p.terminal)] } c.nodeOrder
      have hmergeOk : (p.snoc (.control merge)).Ok :=
        snoc_ok hp hnodup (show NodeKind.merge ∈ [_, _, _, _] by decide)
      refine ⟨_, hmergeOk, rfl, rfl, ?_⟩
      have htotal := (hgrows.trans hgrows₁).trans
        (addEdge c₁ p.terminal (p.terminal ++ ":merge") .dependency none none)
      rw [append_nil, append_nil] at htotal
      exact htotal
    | verifiedAggregation step branchInputsKey =>
      unfold finishMerge at h
      simp only [bind_eq_ok] at h
      obtain ⟨a, -, outputKey, -, outputKeys, -, c₁, hstep, c₂, hmerge, h⟩ := h
      cases h
      obtain ⟨node, hnode, hgrows₁⟩ := addExecutable_eq_ok hstep
      obtain ⟨-, hgrows₂⟩ := addControl_eq_ok hmerge
      have hids : p.ids ++ mergeNodeIds p.terminal
          (some (.verifiedAggregation step branchInputsKey)) =
            (p.ids ++ [step.nodeId]) ++ [p.terminal ++ ":merge"] := by
        simp [mergeNodeIds]
      rw [hids] at hnodup ⊢
      let merge := placed { CompilerContext.control (p.terminal ++ ":merge") .merge with
        merge := some ⟨.aggregationStep, branchIds, outputKeys, none, some step.nodeId⟩
        metadata := [("branch_inputs_key", .str branchInputsKey),
          ("join_node_id", .str p.terminal)] } c₁.nodeOrder
      have hfirst : (p.snoc (.executable node)).Ok := by
        apply snoc_ok hp
        · show (p.ids ++ [node.nodeId]).Nodup
          rw [hnode]
          exact (nodup_append.mp hnodup).1
        · show NodeKind.executable ∈ [_, _, _, _]
          decide
      have hsecond : ((p.snoc (.executable node)).snoc (.control merge)).Ok := by
        apply snoc_ok hfirst
        · show (p.ids ++ [node.nodeId] ++ [p.terminal ++ ":merge"]).Nodup
          rw [hnode]
          exact hnodup
        · show NodeKind.merge ∈ [_, _, _, _]
          decide
      refine ⟨_, hsecond, ?_, rfl, ?_⟩
      · show p.ids ++ [node.nodeId] ++ [p.terminal ++ ":merge"] = _
        rw [hnode]
      · have htotal := (((hgrows.trans hgrows₁).trans hgrows₂).trans
          (addEdge c₂ p.terminal step.nodeId .dependency none none)).trans
            (addEdge _ step.nodeId (p.terminal ++ ":merge") .dependency none none)
        simp only [append_nil] at htotal
        have harrows : ((p.snoc (.executable node)).snoc (.control merge)).arrows =
            p.arrows ++ [⟨p.terminal, step.nodeId, .dependency, none, none⟩] ++
              [⟨step.nodeId, p.terminal ++ ":merge", .dependency, none, none⟩] := by
          rw [← hnode]
          rfl
        rw [harrows]
        exact htotal

/-- A parallel-all of parts compiles to a part. -/
theorem finishParallelAll_compiled {d : HarnessGraphDefinition}
    {failurePolicy : ParallelAllFailurePolicy} (hok : ∀ p ∈ entries.map Prod.snd, p.Ok)
    (hnodup : (forkId :: ((entries.map Prod.snd).flatMap Part.ids ++
      joinId :: mergeNodeIds joinId merge)).Nodup)
    (hgrows : Grows c₀ c ((entries.map Prod.snd).flatMap Part.nodes)
      ((entries.map Prod.snd).flatMap Part.arrows))
    (h : d.finishParallelAll forkId joinId failurePolicy merge c (withFragments entries) =
      .ok (c', f)) : Compiled c₀ c' f (forkId :: ((entries.map Prod.snd).flatMap Part.ids ++
      joinId :: mergeNodeIds joinId merge)) := by
  unfold finishParallelAll at h
  simp only [bind_eq_ok] at h
  obtain ⟨mergeRef, -, c₁, hfork, c₂, hjoin, h⟩ := h
  obtain ⟨hpresent, hgrows₁⟩ := addControl_eq_ok hfork
  obtain ⟨-, hgrows₂⟩ := addControl_eq_ok hjoin
  have hids : forkId :: ((entries.map Prod.snd).flatMap Part.ids ++
      joinId :: mergeNodeIds joinId merge) =
        (forkId :: ((entries.map Prod.snd).flatMap Part.ids ++ [joinId])) ++
          mergeNodeIds joinId merge := by
    simp
  rw [hids] at hnodup ⊢
  have hne : entries ≠ [] := by
    rintro rfl
    cases hpresent
  let opener := placed { CompilerContext.control forkId .forkAll with
    branches := parallelBranches (withFragments entries) } c.nodeOrder
  let closer := placed { CompilerContext.control joinId .joinAll with
    join := some ⟨forkId, parallelBranchIds (withFragments entries), failurePolicy.value, none,
      mergeRef⟩ } c₁.nodeOrder
  have hsame := sameSet_branchIds_placed { CompilerContext.control forkId .forkAll with
    branches := parallelBranches (withFragments entries) } c.nodeOrder
  rw [branchIds_parallelBranches] at hsame
  have hbracket := parallel_ok opener closer hok (nodup_append.mp hnodup).1 hne rfl rfl
    (Or.inl ⟨rfl, rfl⟩) rfl rfl hsame
  exact finishMerge_compiled hbracket rfl rfl hnodup
    (hgrows.bracket hgrows₁ hgrows₂ (linkParallelBranches_grows forkId joinId entries c₂)) h

/-! ## Loops -/

/-- The arrows of a loop. -/
def loopArrows (loopId : String) (body exit : Part) (exhaustion : Option Part) : List Arrow :=
  [⟨loopId, body.entry, .loopBody, none, some loopId⟩,
    ⟨body.terminal, loopId, .loopBack, none, some loopId⟩,
    ⟨loopId, exit.entry, .loopExit, none, some loopId⟩] ++
  (exhaustion.toList.map fun p => ⟨loopId, p.entry, .loopExhausted, none, some loopId⟩) ++
  ⟨exit.terminal, loopId ++ ":join", .dependency, some "exit", some loopId⟩ ::
    exhaustion.toList.map fun p =>
      ⟨p.terminal, loopId ++ ":join", .dependency, some "exhaustion", some loopId⟩

theorem linkLoop_grows (loopId : String) (condition : HarnessCondition) (c : CompilerContext)
    (body exit : Part) (exhaustion : Option Part) :
    Grows c (linkLoop loopId condition c body.fragment exit.fragment
      (exhaustion.map Part.fragment)) [] (loopArrows loopId body exit exhaustion) := by
  have hbody := addEdgeWith c loopId body.entry .loopBody 0 (some condition) none
    (some loopId)
  have hback := addEdge _ body.terminal loopId .loopBack none (some loopId) |> hbody.trans
  have hexit := addEdge _ loopId exit.entry .loopExit none (some loopId) |> hback.trans
  cases exhaustion with
  | none =>
    exact hexit.trans (addEdge _ exit.terminal (loopId ++ ":join") .dependency (some "exit")
      (some loopId))
  | some p =>
    have hexhausted := addEdge _ loopId p.entry .loopExhausted none (some loopId) |>
      hexit.trans
    have hleave := addEdge _ exit.terminal (loopId ++ ":join") .dependency (some "exit")
      (some loopId) |> hexhausted.trans
    exact hleave.trans (addEdge _ p.terminal (loopId ++ ":join") .dependency
      (some "exhaustion") (some loopId))

/-- The loop contract over parts. -/
def loopContractOf (condition : HarnessCondition) (maxIterations : ℤ) (body exit : Part)
    (exhaustion : Option Part) : HarnessLoopContract where
  bodyEntryNodeIds := [body.entry]
  bodyTerminalNodeIds := [body.terminal]
  condition := condition
  maxIterations := maxIterations
  exitNodeIds := [exit.entry]
  exhaustionNodeIds := ((exhaustion.map Part.fragment).map Fragment.entryNodeIds).getD []

/-- The routes of a loop are sorted. -/
theorem sorted_loopRoutes (loopId : String) (exit : Fragment) (exhaustion : Option Fragment) :
    (loopRoutes loopId exit exhaustion).insertionSort HarnessControlNode.branchLe =
      loopRoutes loopId exit exhaustion := by
  apply List.Pairwise.insertionSort_eq
  cases exhaustion with
  | none => exact pairwise_singleton _ _
  | some fragment =>
    refine pairwise_pair.mpr (Or.inl ?_)
    show (0 : ℤ) < 1
    decide

theorem ofItems_loopRoutes (loopId : String) (exit : Fragment) (exhaustion : Option Fragment) :
    PyDict.ofItems HarnessBranch.branchId id (loopRoutes loopId exit exhaustion) =
      (loopRoutes loopId exit exhaustion).map fun b => (b.branchId, b) := by
  apply PyDict.ofItems_eq_map
  cases exhaustion with
  | none => exact nodup_singleton _
  | some fragment =>
    show ["exit", "exhaustion"].Nodup
    decide

/-- The arrows of a loop are around its parts. -/
theorem loop_frame (loopId : String) (body exit : Part) (exhaustion : Option Part) :
    Part.Frame (body :: exit :: exhaustion.toList) loopId (loopId ++ ":join")
      (loopArrows loopId body exit exhaustion) := by
  refine ⟨?_, ?_, ?_, ?_⟩
  · intro a ha
    simp only [loopArrows, mem_append, mem_cons, mem_map, not_mem_nil, or_false] at ha
    rcases ha with ((rfl | rfl | rfl) | ⟨p, hp, rfl⟩) | rfl | ⟨p, hp, rfl⟩
    · exact Or.inl ⟨rfl, body, by simp, rfl⟩
    · exact Or.inr (Or.inr ⟨rfl, ⟨body, by simp, rfl⟩, rfl⟩)
    · exact Or.inl ⟨rfl, exit, by simp, rfl⟩
    · exact Or.inl ⟨rfl, p, by simp [hp], rfl⟩
    · exact Or.inr (Or.inl ⟨⟨exit, by simp, rfl⟩, rfl⟩)
    · exact Or.inr (Or.inl ⟨⟨p, by simp [hp], rfl⟩, rfl⟩)
  · intro p hp
    rcases mem_cons.mp hp with rfl | hp
    · exact ⟨⟨loopId, p.entry, .loopBody, none, some loopId⟩, by simp [loopArrows], rfl, rfl⟩
    · rcases mem_cons.mp hp with rfl | hp
      · exact ⟨⟨loopId, p.entry, .loopExit, none, some loopId⟩, by simp [loopArrows], rfl, rfl⟩
      · refine ⟨⟨loopId, p.entry, .loopExhausted, none, some loopId⟩, ?_, rfl, rfl⟩
        exact mem_append_left _ (mem_append_right _ (mem_map.mpr ⟨p, hp, rfl⟩))
  · exact ⟨exit, by simp, ⟨exit.terminal, loopId ++ ":join", .dependency, some "exit",
      some loopId⟩, by simp [loopArrows], rfl, rfl⟩
  · intro a ha
    have hkind : a.edgeKind ∈ [EdgeKind.loopBody, .loopBack, .loopExit, .loopExhausted,
        .dependency] := by
      simp only [loopArrows, mem_append, mem_cons, mem_map, not_mem_nil, or_false] at ha
      rcases ha with ((rfl | rfl | rfl) | ⟨p, hp, rfl⟩) | rfl | ⟨p, hp, rfl⟩ <;> simp
    rintro (h | h) <;> rw [h] at hkind <;> exact absurd hkind (by decide)

variable {guard : HarnessControlNode} {condition : HarnessCondition} {maxIterations : ℤ}
variable {body exit : Part} {exhaustion : Option Part}

/-- The loop arrows are those the contract declares. -/
theorem loop_loopArrow (hguard : HarnessGraphNode.control guard ∈ nodes)
    (hcontract : NormalizedHarnessGraph.loopContract? guard =
      some (loopContractOf condition maxIterations body exit exhaustion)) :
    ∀ a ∈ loopArrows guard.nodeId body exit exhaustion, LoopArrow nodes a := by
  intro a ha hkind
  refine ⟨guard, _, hguard, hcontract, ?_⟩
  simp only [loopArrows, mem_append, mem_cons, mem_map, not_mem_nil, or_false] at ha
  rcases ha with ((rfl | rfl | rfl) | ⟨p, hp, rfl⟩) | rfl | ⟨p, hp, rfl⟩
  · exact ⟨rfl, rfl, mem_singleton_self _⟩
  · exact ⟨rfl, rfl, mem_singleton_self _⟩
  · exact ⟨rfl, rfl, mem_singleton_self _⟩
  · obtain rfl := Option.mem_toList.mp hp
    exact ⟨rfl, rfl, mem_singleton_self _⟩
  · exact absurd hkind (show EdgeKind.dependency ∉ [_, _, _, _] by decide)
  · exact absurd hkind (show EdgeKind.dependency ∉ [_, _, _, _] by decide)

/-- The join of a loop is entered from the ends of its routes. -/
theorem loopJoin_ok {join : HarnessControlNode} (hguard : HarnessGraphNode.control guard ∈ nodes)
    (hcontract : NormalizedHarnessGraph.loopContract? guard =
      some (loopContractOf condition maxIterations body exit exhaustion))
    (hjoin : join.nodeId = guard.nodeId ++ ":join") (hkind : join.nodeKind = .loopJoin)
    (href : join.metadata.get? "loop_node_id" = some (.str guard.nodeId))
    (hbranches : join.branches = loopRoutes guard.nodeId exit.fragment
      (exhaustion.map Part.fragment)) :
    JoinOk nodes (loopArrows guard.nodeId body exit exhaustion) join := by
  have hother : join.nodeKind ≠ .choiceJoin ∧ join.nodeKind ≠ .joinAll ∧
      join.nodeKind ≠ .joinAny := by
    rw [hkind]
    decide
  refine ⟨fun h => absurd h hother.1, fun _ => ?_, ?_⟩
  · refine ⟨guard, _, hguard, hcontract, href, ?_, ?_, fun pair => ?_⟩
    · -- the names of the routes
      rw [hbranches, ofItems_loopRoutes]
      cases exhaustion with
      | none =>
        show SameSet ["exit"] ["exit"]
        decide
      | some p =>
        show SameSet ["exit", "exhaustion"] ["exit", "exhaustion"]
        decide
    · rw [hbranches, ofItems_loopRoutes]
      cases exhaustion with
      | none | some p => simp [NormalizedHarnessGraph.loopRoutesMatch, loopRoutes, loopRoute,
          loopContractOf, PyDict.get?, Part.fragment, SameSet]
    · rw [hbranches, ofItems_loopRoutes]
      have hvalues : PyDict.values ((loopRoutes guard.nodeId exit.fragment
          (exhaustion.map Part.fragment)).map fun b => (b.branchId, b)) =
            loopRoutes guard.nodeId exit.fragment (exhaustion.map Part.fragment) := by
        unfold PyDict.values
        rw [map_map]
        exact map_id _
      rw [hvalues]
      have hexpected : pair ∈ NormalizedHarnessGraph.expectedEdges (loopRoutes guard.nodeId
          exit.fragment (exhaustion.map Part.fragment)) ↔
            (exit.terminal, some "exit") = pair ∨
              ∃ p ∈ exhaustion, (p.terminal, some "exhaustion") = pair := by
        cases exhaustion <;> simp [NormalizedHarnessGraph.expectedEdges, loopRoutes, loopRoute,
          Part.fragment, eq_comm]
      rw [hexpected]
      constructor
      · rintro ⟨a, ha, -, hdependency, -, hpair⟩
        simp only [loopArrows, mem_append, mem_cons, mem_map, not_mem_nil, or_false] at ha
        rcases ha with ((rfl | rfl | rfl) | ⟨p, hp, rfl⟩) | rfl | ⟨p, hp, rfl⟩
        · cases hdependency
        · cases hdependency
        · cases hdependency
        · cases hdependency
        · exact Or.inl hpair
        · exact Or.inr ⟨p, Option.mem_toList.mp hp, hpair⟩
      · rintro (hpair | ⟨p, hp, hpair⟩)
        · exact ⟨⟨exit.terminal, guard.nodeId ++ ":join", .dependency, some "exit",
            some guard.nodeId⟩, by simp [loopArrows], hjoin.symm, rfl, rfl, hpair⟩
        · refine ⟨⟨p.terminal, guard.nodeId ++ ":join", .dependency, some "exhaustion",
            some guard.nodeId⟩, ?_, hjoin.symm, rfl, rfl, hpair⟩
          exact mem_append_right _ (mem_cons_of_mem _
            (mem_map.mpr ⟨p, Option.mem_toList.mpr hp, rfl⟩))
  · rintro (h | h)
    · exact absurd h hother.2.1
    · exact absurd h hother.2.2

/-- A loop over parts compiles to a part. -/
theorem finishLoop_compiled {loopId : String}
    (hok : ∀ p ∈ body :: exit :: exhaustion.toList, p.Ok)
    (hnodup : (loopId :: ((body :: exit :: exhaustion.toList).flatMap Part.ids ++
      [loopId ++ ":join"])).Nodup)
    (hgrows : Grows c₀ c ((body :: exit :: exhaustion.toList).flatMap Part.nodes)
      ((body :: exit :: exhaustion.toList).flatMap Part.arrows))
    (h : finishLoop loopId condition maxIterations c body.fragment exit.fragment
      (exhaustion.map Part.fragment) = .ok (c', f)) :
    Compiled c₀ c' f (loopId :: ((body :: exit :: exhaustion.toList).flatMap Part.ids ++
      [loopId ++ ":join"])) := by
  unfold finishLoop at h
  obtain ⟨c₁, hguard, h⟩ := bind_inv h
  obtain ⟨c₂, hjoin, h⟩ := bind_inv h
  cases h
  obtain ⟨-, hgrows₁⟩ := addControl_eq_ok hguard
  obtain ⟨-, hgrows₂⟩ := addControl_eq_ok hjoin
  let guard := placed { CompilerContext.control loopId .loopGuard with
    loop := some (loopContractOf condition maxIterations body exit exhaustion) } c.nodeOrder
  let join := placed { CompilerContext.control (loopId ++ ":join") .loopJoin with
    branches := loopRoutes loopId exit.fragment (exhaustion.map Part.fragment)
    metadata := [("loop_node_id", .str loopId)] } c₁.nodeOrder
  have hcontract : NormalizedHarnessGraph.loopContract? guard =
      some (loopContractOf condition maxIterations body exit exhaustion) := rfl
  have hloops : ∀ a ∈ loopArrows guard.nodeId body exit exhaustion,
      LoopArrow [.control guard, .control join] a :=
    loop_loopArrow mem_cons_self hcontract
  have hjoinOk : JoinOk [.control guard, .control join]
      (loopArrows guard.nodeId body exit exhaustion) join :=
    loopJoin_ok mem_cons_self hcontract rfl rfl rfl (sorted_loopRoutes _ _ _)
  have hkind : guard.nodeKind ∉ [NodeKind.choiceJoin, .loopJoin, .joinAll, .joinAny] := by
    show NodeKind.loopGuard ∉ [NodeKind.choiceJoin, .loopJoin, .joinAll, .joinAny]
    decide
  have hbracket := bracket_ok guard join hok hnodup (loop_frame loopId body exit exhaustion)
    hloops hkind hjoinOk (List.Perm.refl _)
  exact ⟨_, hbracket, rfl, rfl,
    hgrows.bracket hgrows₁ hgrows₂ (linkLoop_grows loopId condition c₂ body exit exhaustion)⟩

/-! ## All expressions -/

theorem control_compiled {n : HarnessControlNode}
    (hkind : n.nodeKind ∈ [NodeKind.executable, .wait, .merge, .terminal])
    (h : c.addControl n = .ok c') : Compiled c c' ⟨[n.nodeId], [n.nodeId]⟩ [n.nodeId] := by
  obtain ⟨-, hgrows⟩ := addControl_eq_ok h
  exact ⟨Part.leaf (.control (placed n c.nodeOrder)), leaf_ok hkind, rfl, rfl, hgrows⟩

/-- A wait without a timeout route compiles to a part. -/
theorem compileWait_compiled {wait : HarnessWaitContract}
    (hroute : ∀ targetNodeId, wait.timeoutPolicy ≠ some (.route targetNodeId))
    (h : compileWait wait c = .ok (c', f)) : Compiled c c' f [wait.waitId] := by
  unfold compileWait at h
  obtain ⟨-, h⟩ := check_inv h
  obtain ⟨c₁, hwait, h⟩ := bind_inv h
  cases h
  have hcompiled := control_compiled (show NodeKind.wait ∈ [_, _, _, _] by decide) hwait
  cases hpolicy : wait.timeoutPolicy with
  | none => exact hcompiled
  | some policy =>
    cases policy with
    | halt => exact hcompiled
    | fail => exact hcompiled
    | route targetNodeId => exact absurd hpolicy (hroute targetNodeId)

/-- Branches that are compiled one after another, each to a part. -/
structure CompiledParts (c c' : CompilerContext) (parts : List Part) (ids : List String) :
    Prop where
  ok : ∀ p ∈ parts, p.Ok
  ids : parts.flatMap Part.ids = ids
  grows : Grows c c' (parts.flatMap Part.nodes) (parts.flatMap Part.arrows)

namespace CompiledParts

theorem nil (c : CompilerContext) : CompiledParts c c [] [] :=
  ⟨by simp, rfl, Grows.refl c⟩

/-- One more part in front. -/
theorem cons {c c' c'' : CompilerContext} {p : Part} {parts : List Part} {ids : List String}
    (hp : p.Ok) (hgrows : Grows c c' p.nodes p.arrows) (h : CompiledParts c' c'' parts ids) :
    CompiledParts c c'' (p :: parts) (p.ids ++ ids) := by
  refine ⟨?_, ?_, ?_⟩
  · intro q hq
    rcases mem_cons.mp hq with rfl | hq
    · exact hp
    · exact h.ok q hq
  · rw [flatMap_cons, h.ids]
  · rw [flatMap_cons, flatMap_cons]
    exact hgrows.trans h.grows

end CompiledParts

mutual

/-- Every expression with distinct nodes compiles to a part over its nodes. -/
theorem compileExpression_compiled (d : HarnessGraphDefinition) :
    ∀ (e : HarnessGraphExpression) {c c' : CompilerContext} {f : Fragment},
      e.noTimeoutRoutes → e.nodeIds.Nodup → d.compileExpression e c = .ok (c', f) →
      Compiled c c' f e.nodeIds
  | .stepRef step, c, c', f, _, _, h => by
    rw [compileExpression] at h
    obtain ⟨c₁, hstep, h⟩ := bind_inv h
    cases h
    obtain ⟨node, hnode, hgrows⟩ := addExecutable_eq_ok hstep
    have hleaf : (Part.leaf (.executable node)).Ok :=
      leaf_ok (show NodeKind.executable ∈ [_, _, _, _] by decide)
    refine ⟨_, hleaf, ?_, ?_, hgrows⟩
    · show [node.nodeId] = [step.nodeId]
      rw [hnode]
    · show (⟨[step.nodeId], [step.nodeId]⟩ : Fragment) = ⟨[node.nodeId], [node.nodeId]⟩
      rw [hnode]
  | .pass passId, c, c', f, _, _, h => by
    rw [compileExpression] at h
    obtain ⟨c₁, hpass, h⟩ := bind_inv h
    cases h
    exact control_compiled (show NodeKind.terminal ∈ [_, _, _, _] by decide) hpass
  | .sequence children, c, c', f, hroutes, hnodup, h => by
    rw [compileExpression] at h
    obtain ⟨⟨c₁, fragments⟩, hchildren, h⟩ := bind_inv h
    obtain ⟨parts, rfl, hparts⟩ := compileChildren_compiled d children hroutes hnodup hchildren
    rw [nodeIds, ← hparts.ids] at hnodup ⊢
    exact finishSequence_compiled hparts.ok hnodup hparts.grows h
  | .choice choiceId branches, c, c', f, hroutes, hnodup, h => by
    rw [compileExpression] at h
    obtain ⟨⟨c₁, compiled⟩, hbranches, h⟩ := bind_inv h
    have hinner := (nodup_append.mp (nodup_cons.mp hnodup).2).1
    rcases compileChoiceBranches_compiled d branches hroutes hinner hbranches with
      ⟨entries, rfl, hparts⟩
    rw [nodeIds, ← hparts.ids] at hnodup ⊢
    exact finishChoice_compiled hparts.ok hnodup hparts.grows h
  | .parallelAll forkId joinId branches failurePolicy merge, c, c', f, hroutes, hnodup, h => by
    rw [compileExpression] at h
    obtain ⟨⟨c₁, compiled⟩, hbranches, h⟩ := bind_inv h
    have hinner := (nodup_append.mp (nodup_cons.mp hnodup).2).1
    rcases compileParallelBranches_compiled d branches hroutes hinner hbranches with
      ⟨entries, rfl, hparts⟩
    rw [nodeIds, ← hparts.ids] at hnodup ⊢
    exact finishParallelAll_compiled hparts.ok hnodup hparts.grows h
  | .parallelAny forkId joinId branches cancellationPolicy failurePolicy, c, c', f, hroutes,
      hnodup, h => by
    rw [compileExpression] at h
    obtain ⟨⟨c₁, compiled⟩, hbranches, h⟩ := bind_inv h
    have hinner := (nodup_append.mp (nodup_cons.mp hnodup).2).1
    rcases compileParallelBranches_compiled d branches hroutes hinner hbranches with
      ⟨entries, rfl, hparts⟩
    rw [nodeIds, ← hparts.ids] at hnodup ⊢
    exact finishParallelAny_compiled hparts.ok hnodup hparts.grows h
  | .boundedLoop loopId body condition maxIterations none exhaustion, c, c', f, _, _, h => by
    rw [compileExpression] at h
    cases h
  | .boundedLoop loopId body condition maxIterations (some exit) exhaustion, c, c', f, hroutes,
      hnodup, h => by
    rw [compileExpression] at h
    simp only [bind_eq_ok] at h
    obtain ⟨⟨c₁, bodyFragment⟩, hbody, ⟨c₂, exitFragment⟩, hexit, ⟨c₃, exhaustionFragment⟩,
      hexhaustion, h⟩ := h
    have hinner := (nodup_append.mp (nodup_cons.mp hnodup).2).1
    have hfirst := (nodup_append.mp hinner).1
    rcases compileExpression_compiled d body hroutes.1 (nodup_append.mp hfirst).1 hbody with
      ⟨p, hp, hpids, rfl, hpgrows⟩
    rcases compileExpression_compiled d exit hroutes.2.1 (nodup_append.mp hfirst).2.1 hexit
      with ⟨q, hq, hqids, rfl, hqgrows⟩
    rcases compileOption_compiled d exhaustion hroutes.2.2 (nodup_append.mp hinner).2.1
      hexhaustion with ⟨r, rfl, hrest⟩
    -- the loop stack is changed around the body only
    have hbefore : Grows c { c with loopStack := c.loopStack ++ [loopId] } [] [] :=
      Grows.of_eq rfl rfl rfl
    have hbetween : Grows c₁ { c₁ with loopStack := c.loopStack } [] [] :=
      Grows.of_eq rfl rfl rfl
    have hparts := CompiledParts.cons hp (hbefore.trans hpgrows)
      (CompiledParts.cons hq (hbetween.trans hqgrows) hrest)
    have hids : nodeIds
        (.boundedLoop loopId body condition maxIterations (some exit) exhaustion) =
          loopId :: ((p :: q :: r.toList).flatMap Part.ids ++ [loopId ++ ":join"]) := by
      rw [hparts.ids, hpids, hqids]
      show loopId :: (body.nodeIds ++ exit.nodeIds ++
        nodeIdsOfOption exhaustion ++ [loopId ++ ":join"]) = _
      rw [append_assoc body.nodeIds]
    rw [hids] at hnodup ⊢
    exact finishLoop_compiled hparts.ok hnodup hparts.grows h
  | .wait contract, c, c', f, hroute, _, h => by
    rw [compileExpression] at h
    exact compileWait_compiled hroute h

/-- The children of a sequence compile to parts. -/
theorem compileChildren_compiled (d : HarnessGraphDefinition) :
    ∀ (es : List HarnessGraphExpression) {c c' : CompilerContext} {fs : List Fragment},
      noTimeoutRoutesOfChildren es → (nodeIdsOfChildren es).Nodup →
      d.compileChildren es c = .ok (c', fs) → ∃ parts : List Part, fs = parts.map Part.fragment ∧
        CompiledParts c c' parts (nodeIdsOfChildren es)
  | [], c, c', fs, _, _, h => by
    rw [compileChildren] at h
    cases h
    exact ⟨[], rfl, CompiledParts.nil c⟩
  | e :: es, c, c', fs, hroutes, hnodup, h => by
    rw [compileChildren] at h
    obtain ⟨⟨c₁, fragment⟩, hfirst, h⟩ := bind_inv h
    obtain ⟨⟨c₂, fragments⟩, hrest, h⟩ := bind_inv h
    cases h
    rw [nodeIdsOfChildren] at hnodup ⊢
    rcases compileExpression_compiled d e hroutes.1 (nodup_append.mp hnodup).1 hfirst with
      ⟨p, hp, hids, rfl, hgrows⟩
    rcases compileChildren_compiled d es hroutes.2 (nodup_append.mp hnodup).2.1 hrest with
      ⟨parts, rfl, hparts⟩
    exact ⟨p :: parts, rfl, hids ▸ CompiledParts.cons hp hgrows hparts⟩

/-- The branches of a choice compile to parts. -/
theorem compileChoiceBranches_compiled (d : HarnessGraphDefinition) :
    ∀ (bs : List (ChoiceBranch HarnessGraphExpression)) {c c' : CompilerContext}
      {compiled : List (ChoiceBranch HarnessGraphExpression × Fragment)},
      noTimeoutRoutesOfChoice bs → (nodeIdsOfChoice bs).Nodup →
      d.compileChoiceBranches bs c = .ok (c', compiled) →
      ∃ entries : List (ChoiceBranch HarnessGraphExpression × Part),
        compiled = withFragments entries ∧ CompiledParts c c' (entries.map Prod.snd)
          (nodeIdsOfChoice bs)
  | [], c, c', compiled, _, _, h => by
    rw [compileChoiceBranches] at h
    cases h
    exact ⟨[], rfl, CompiledParts.nil c⟩
  | ⟨branchId, child, priority, condition, isDefault, outputNamespace⟩ :: bs, c, c', compiled,
      hroutes, hnodup, h => by
    rw [compileChoiceBranches] at h
    obtain ⟨⟨c₁, fragment⟩, hfirst, h⟩ := bind_inv h
    obtain ⟨⟨c₂, rest⟩, hrest, h⟩ := bind_inv h
    cases h
    rw [nodeIdsOfChoice] at hnodup ⊢
    rcases compileExpression_compiled d child hroutes.1 (nodup_append.mp hnodup).1 hfirst with
      ⟨p, hp, hids, rfl, hgrows⟩
    rcases compileChoiceBranches_compiled d bs hroutes.2 (nodup_append.mp hnodup).2.1 hrest
      with ⟨entries, rfl, hparts⟩
    exact ⟨(⟨branchId, child, priority, condition, isDefault, outputNamespace⟩, p) :: entries, rfl,
      hids ▸ CompiledParts.cons hp hgrows hparts⟩

/-- Parallel branches compile to parts. -/
theorem compileParallelBranches_compiled (d : HarnessGraphDefinition) :
    ∀ (bs : List (ParallelBranch HarnessGraphExpression)) {c c' : CompilerContext}
      {compiled : List (ParallelBranch HarnessGraphExpression × Fragment)},
      noTimeoutRoutesOfParallel bs → (nodeIdsOfParallel bs).Nodup →
      d.compileParallelBranches bs c = .ok (c', compiled) →
      ∃ entries : List (ParallelBranch HarnessGraphExpression × Part),
        compiled = withFragments entries ∧ CompiledParts c c' (entries.map Prod.snd)
          (nodeIdsOfParallel bs)
  | [], c, c', compiled, _, _, h => by
    rw [compileParallelBranches] at h
    cases h
    exact ⟨[], rfl, CompiledParts.nil c⟩
  | ⟨branchId, child, outputNamespace⟩ :: bs, c, c', compiled, hroutes, hnodup, h => by
    rw [compileParallelBranches] at h
    obtain ⟨⟨c₁, fragment⟩, hfirst, h⟩ := bind_inv h
    obtain ⟨⟨c₂, rest⟩, hrest, h⟩ := bind_inv h
    obtain ⟨rfl, rfl⟩ := Prod.mk.inj (pure_eq_ok_iff.mp h)
    rw [nodeIdsOfParallel] at hnodup ⊢
    rcases compileExpression_compiled d child hroutes.1 (nodup_append.mp hnodup).1 hfirst with
      ⟨p, hp, hids, rfl, hgrows⟩
    rcases compileParallelBranches_compiled d bs hroutes.2 (nodup_append.mp hnodup).2.1 hrest
      with ⟨entries, rfl, hparts⟩
    exact ⟨(⟨branchId, child, outputNamespace⟩, p) :: entries, rfl,
      hids ▸ CompiledParts.cons hp hgrows hparts⟩

/-- An expression that may be absent compiles to a part, when it is there. -/
theorem compileOption_compiled (d : HarnessGraphDefinition) :
    ∀ (e : Option HarnessGraphExpression) {c c' : CompilerContext} {f : Option Fragment},
      noTimeoutRoutesOfOption e → (nodeIdsOfOption e).Nodup → d.compileOption e c = .ok (c', f) →
      ∃ part : Option Part, f = part.map Part.fragment ∧
        CompiledParts c c' part.toList (nodeIdsOfOption e)
  | none, c, c', f, _, _, h => by
    rw [compileOption] at h
    cases h
    exact ⟨none, rfl, CompiledParts.nil c⟩
  | some e, c, c', f, hroutes, hnodup, h => by
    rw [compileOption] at h
    obtain ⟨⟨c₁, fragment⟩, hfirst, h⟩ := bind_inv h
    obtain ⟨rfl, rfl⟩ := Prod.mk.inj (pure_eq_ok_iff.mp h)
    obtain ⟨p, hp, hids, rfl, hgrows⟩ := compileExpression_compiled d e hroutes hnodup hfirst
    have hparts := CompiledParts.cons hp hgrows (CompiledParts.nil c₁)
    rw [hids, append_nil] at hparts
    exact ⟨some p, rfl, hparts⟩

end

end HarnessGraph
