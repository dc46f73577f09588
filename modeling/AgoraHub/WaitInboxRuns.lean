/-
# What the signal inbox gives

Every registration takes at most one signal, and every signal is taken by at most one
registration, in every run that does not reach back behind what the window has dropped;
and what a call of such a run selects or refuses.
-/
import AgoraHub.StepRuns
import AgoraHub.WaitInboxSpec

namespace WaitInbox

open Fallible HarnessGraph List PyDict
open TaskPlan (HarnessValidationError)

/-! ## Pairs that determine each other -/

/-- Each side of a pair determines the other. -/
def OneToOne {α β : Type} (pairs : List (α × β)) : Prop :=
  ∀ p ∈ pairs, ∀ q ∈ pairs, p.1 = q.1 ↔ p.2 = q.2

instance {α β : Type} [DecidableEq α] [DecidableEq β] (pairs : List (α × β)) :
    Decidable (OneToOne pairs) := inferInstanceAs (Decidable (∀ p ∈ pairs, ∀ q ∈ pairs, _))

/-- One pair both of whose sides are new. -/
theorem OneToOne.append_of_fresh {α β : Type} {pairs more : List (α × β)} (h : OneToOne pairs)
    {a : α} {b : β} (hmore : ∀ p ∈ more, p = (a, b)) (ha : a ∉ pairs.map Prod.fst)
    (hb : b ∉ pairs.map Prod.snd) : OneToOne (pairs ++ more) := by
  have hfst : ∀ p ∈ pairs, p.1 ≠ a := fun p hp heq => ha (mem_map.mpr ⟨p, hp, heq⟩)
  have hsnd : ∀ p ∈ pairs, p.2 ≠ b := fun p hp heq => hb (mem_map.mpr ⟨p, hp, heq⟩)
  intro p hp q hq
  rcases mem_append.mp hp with hp | hp <;> rcases mem_append.mp hq with hq | hq
  · exact h p hp q hq
  · rw [hmore q hq]
    exact iff_of_false (hfst p hp) (hsnd p hp)
  · rw [hmore p hp]
    exact iff_of_false (fun heq => hfst q hq heq.symm) (fun heq => hsnd q hq heq.symm)
  · rw [hmore p hp, hmore q hq]
    exact iff_of_true rfl rfl

theorem OneToOne.append_of_subset {α β : Type} {pairs more : List (α × β)} (h : OneToOne pairs)
    (hmore : ∀ p ∈ more, p ∈ pairs) : OneToOne (pairs ++ more) := by
  intro p hp q hq
  have hin : ∀ p ∈ pairs ++ more, p ∈ pairs := fun p hp =>
    (mem_append.mp hp).elim (fun h => h) (hmore p)
  exact h p (hin p hp) q (hin q hq)

/-! ## Runs -/

section Runs

variable (c : Checksums) (policy : HarnessEarlySignalRetentionPolicy)

/-- An inbox with what the run has given until then: registrations with signals. -/
structure TracedInbox where
  inbox : SignalInbox
  given : List (String × SignalKey)
  deriving DecidableEq

/-- What a call gives: the registration of the match that it returns, with the signal that carries
the match. -/
def delivered (inbox : SignalInbox) (call : InboxCall) : List (String × SignalKey) :=
  match call.apply c policy inbox with
  | (.ok (.matched (some signalMatch)), inbox') =>
    (inbox'.entries.filter fun p => decide (p.2.signalMatch = some signalMatch)).map fun p =>
      (signalMatch.registrationRef, p.1)
  | _ => []

namespace TracedInbox

/-- Nothing is given at the start. -/
def start : TracedInbox := ⟨.empty, []⟩

/-- The next call of a run. -/
def step (t : TracedInbox) (call : InboxCall) : TracedInbox :=
  ⟨(call.apply c policy t.inbox).2, t.given ++ delivered c policy t.inbox call⟩

end TracedInbox

/-! ## What every run should keep -/

/-- A registration without a match takes the first early signal of its scope that did not expire. -/
def Picks (t : TracedInbox) : InboxCall → Prop
  | .consumeMatching registration matchedSequence =>
    t.inbox.signalMatches.get? (registration.registrationRef c) = none →
      ∀ answer, ((InboxCall.consumeMatching registration matchedSequence).apply c policy t.inbox).1 =
        .ok (.matched answer) →
        match answer with
        | some signalMatch => ∃ e ∈ t.inbox.candidates registration.scope,
            ¬ Expired policy t.inbox e ∧ signalMatch.signalRef = c.signalRef e.signal ∧
              ∀ e' ∈ t.inbox.candidates registration.scope, ¬ Expired policy t.inbox e' →
                e.signal.receivedSequence ≤ e'.signal.receivedSequence
        | none => ∀ e ∈ t.inbox.candidates registration.scope, Expired policy t.inbox e
  | _ => True

/-- A signal that is refused changes nothing. -/
def Refuses (t : TracedInbox) : InboxCall → Prop
  | .putSignal signal authorizedScope => ∀ e,
    ((InboxCall.putSignal signal authorizedScope).apply c policy t.inbox).1 = .error e →
      ((InboxCall.putSignal signal authorizedScope).apply c policy t.inbox).2 = t.inbox
  | _ => True

/-- What a run from the empty inbox should keep. -/
structure InboxSound (calls : List InboxCall) : Prop where
  once : OneToOne (StepRuns.run (TracedInbox.step c policy) .start calls).given
  picks : StepRuns.Along (TracedInbox.step c policy) (Picks c policy) .start calls
  refuses : StepRuns.Along (TracedInbox.step c policy) (Refuses c policy) .start calls

/-! ## When it does -/

/-- A call that does not reach back behind the window.  A signal that is new to the inbox was not given
to a registration before, and has room or leaves the window where it is; a registration that has no
match was not given a signal before, and finds no early signal that expired. -/
def Clean (t : TracedInbox) : InboxCall → Prop
  | .putSignal signal authorizedScope =>
    signal.scope = authorizedScope → t.inbox.entries.get? (signalKey signal) = none →
      (Fits policy t.inbox signal → signalKey signal ∉ t.given.map Prod.snd) ∧
        (Fits policy t.inbox signal ∨ Settled policy t.inbox signal)
  | .consumeMatching registration _ =>
    registration.kind = .signal →
      t.inbox.signalMatches.get? (registration.registrationRef c) = none →
      ∀ e ∈ t.inbox.candidates registration.scope,
        registration.registrationRef c ∉ t.given.map Prod.fst ∧ ¬ Expired policy t.inbox e
  | .pruneEarlySignals _ => True

instance (t : TracedInbox) : ∀ call, Decidable (Clean c policy t call)
  | .putSignal .. => inferInstanceAs (Decidable (_ → _ → _ ∧ _))
  | .consumeMatching .. => inferInstanceAs (Decidable (_ → _ → ∀ e ∈ _, _ ∧ _))
  | .pruneEarlySignals _ => inferInstanceAs (Decidable True)

end Runs

/-! ## The invariant -/

section Steps

variable {c : Checksums} {policy : HarnessEarlySignalRetentionPolicy}

/-- Entries are kept under their signals, every match is that of one entry, and what was given is
matched for as long as it is kept. -/
structure Traced (t : TracedInbox) : Prop where
  keyed : t.inbox.entries.keys.Nodup
  identity : ∀ k e, t.inbox.entries.get? k = some e → signalKey e.signal = k
  early : ∀ k e, t.inbox.entries.get? k = some e → (e.status = .early ↔ e.signalMatch = none)
  bound : ∀ k e m, t.inbox.entries.get? k = some e → e.signalMatch = some m →
    t.inbox.signalMatches.get? m.registrationRef = some m ∧ (m.registrationRef, k) ∈ t.given
  held : ∀ r m, t.inbox.signalMatches.get? r = some m → m.registrationRef = r ∧
    ∃ k e, t.inbox.entries.get? k = some e ∧ e.signalMatch = some m
  oneToOne : OneToOne t.given
  taken : ∀ q ∈ t.given, ∀ e, t.inbox.entries.get? q.2 = some e → e.signalMatch ≠ none

namespace Traced

theorem start : Traced .start where
  keyed := nodup_nil
  identity k e h := by cases h
  early k e h := by cases h
  bound k e m h := by cases h
  held r m h := by cases h
  oneToOne p hp := absurd hp not_mem_nil
  taken q hq := absurd hq not_mem_nil

/-- Pruning keeps the invariant. -/
theorem prune {t : TracedInbox} (h : Traced t) {sequence : ℕ} {inbox' : SignalInbox}
    (hpruned : Pruned policy t.inbox sequence inbox') : Traced ⟨inbox', t.given⟩ := by
  have hget : ∀ k e, inbox'.entries.get? k = some e ↔
      t.inbox.entries.get? k = some e ∧ (k, e) ∈ keptEntries policy t.inbox sequence := by
    intro k e
    rw [hpruned.entries]
    unfold keptEntries
    rw [get?_filter h.keyed, Option.filter_eq_some_iff, mem_filter]
    exact ⟨fun ⟨hget, hp⟩ => ⟨hget, mem_of_get? hget, hp⟩, fun ⟨hget, _, hp⟩ => ⟨hget, hp⟩⟩
  refine ⟨?_, ?_, ?_, ?_, ?_, h.oneToOne, ?_⟩
  · show inbox'.entries.keys.Nodup
    rw [hpruned.entries]
    exact nodup_keys_filter h.keyed _
  · exact fun k e he => h.identity k e ((hget k e).mp he).1
  · exact fun k e he => h.early k e ((hget k e).mp he).1
  · intro k e m he hm
    rcases (hget k e).mp he with ⟨hbefore, hkept⟩
    rcases h.bound k e m hbefore hm with ⟨hmatch, hgiven⟩
    refine ⟨(hpruned.matched _ m).mpr ⟨hmatch, fun p hp hnot m' hm' heq => ?_⟩, hgiven⟩
    -- an entry that is dropped has a match with another registration
    have hp' := get?_of_mem h.keyed hp
    rcases h.bound p.1 p.2 m' hp' hm' with ⟨-, hgiven'⟩
    have hkey : p.1 = k := (h.oneToOne _ hgiven' _ hgiven).mp heq
    rw [hkey, hbefore] at hp'
    have hpair : p = (k, e) := Prod.ext hkey (Option.some.inj hp').symm
    exact hnot (hpair ▸ hkept)
  · intro r m hm
    rcases (hpruned.matched r m).mp hm with ⟨hbefore, hall⟩
    rcases h.held r m hbefore with ⟨hr, k, e, he, hem⟩
    refine ⟨hr, k, e, (hget k e).mpr ⟨he, ?_⟩, hem⟩
    by_contra hnot
    exact hall (k, e) (mem_of_get? he) hnot m hem hr
  · exact fun q hq e he => h.taken q hq e ((hget q.2 e).mp he).1

/-- A new signal keeps the invariant, if it was not given before. -/
theorem admitNew {t : TracedInbox} (h : Traced t) {signal : HarnessWaitSignal}
    (hnew : signalKey signal ∉ t.given.map Prod.snd)
    (habsent : t.inbox.entries.get? (signalKey signal) = none) (highWatermark : ℕ) :
    Traced ⟨{ t.inbox with
      entries := t.inbox.entries.set (signalKey signal) (earlyEntry signal)
      highWatermark := highWatermark }, t.given⟩ := by
  have hget : ∀ k e, (t.inbox.entries.set (signalKey signal) (earlyEntry signal)).get? k = some e →
      (k = signalKey signal ∧ e = earlyEntry signal) ∨ t.inbox.entries.get? k = some e := by
    intro k e he
    rw [get?_set] at he
    split at he
    · rename_i hk
      exact Or.inl ⟨hk, (Option.some.inj he).symm⟩
    · exact Or.inr he
  refine ⟨nodup_keys_set h.keyed _ _, ?_, ?_, ?_, ?_, h.oneToOne, ?_⟩
  · intro k e he
    rcases hget k e he with ⟨rfl, rfl⟩ | he
    · rfl
    · exact h.identity k e he
  · intro k e he
    rcases hget k e he with ⟨rfl, rfl⟩ | he
    · exact iff_of_true rfl rfl
    · exact h.early k e he
  · intro k e m he hm
    rcases hget k e he with ⟨rfl, rfl⟩ | he
    · cases hm
    · exact h.bound k e m he hm
  · intro r m hm
    rcases h.held r m hm with ⟨hr, k, e, he, hem⟩
    refine ⟨hr, k, e, ?_, hem⟩
    have hne : k ≠ signalKey signal := by
      rintro rfl
      rw [habsent] at he
      cases he
    exact (get?_set_of_ne _ _ hne).trans he
  · intro q hq e he
    rcases hget q.2 e he with ⟨hkey, -⟩ | he
    · exact absurd (mem_map.mpr ⟨q, hq, hkey⟩) hnew
    · exact h.taken q hq e he

/-- A new match keeps the invariant, if the registration was not given a signal before. -/
theorem consume {t : TracedInbox} (h : Traced t) {registration : HarnessWaitRegistrationRecord}
    {selected : HarnessSignalInboxEntry} {m : HarnessWaitSignalMatch}
    (hm : m.registrationRef = registration.registrationRef c)
    (hnew : registration.registrationRef c ∉ t.given.map Prod.fst)
    (habsent : t.inbox.signalMatches.get? (registration.registrationRef c) = none)
    (hselected : t.inbox.entries.get? (signalKey selected.signal) = some selected)
    (hearly : selected.status = .early) {more : List (String × SignalKey)}
    (hmore : ∀ p, p ∈ more ↔ p = (registration.registrationRef c, signalKey selected.signal))
    (highWatermark : ℕ) : Traced ⟨{
      entries := t.inbox.entries.set (signalKey selected.signal) (matchedEntry selected m)
      signalMatches := t.inbox.signalMatches.set (registration.registrationRef c) m
      highWatermark := highWatermark }, t.given ++ more⟩ := by
  have hget : ∀ k e, (t.inbox.entries.set (signalKey selected.signal)
      (matchedEntry selected m)).get? k = some e →
      (k = signalKey selected.signal ∧ e = matchedEntry selected m) ∨
      (k ≠ signalKey selected.signal ∧ t.inbox.entries.get? k = some e) := by
    intro k e he
    rw [get?_set] at he
    split at he
    · rename_i hk
      exact Or.inl ⟨hk, (Option.some.inj he).symm⟩
    · rename_i hk
      exact Or.inr ⟨hk, he⟩
  have hnone : selected.signalMatch = none := (h.early _ _ hselected).mp hearly
  -- an unmatched entry was given to no registration
  have hfree : signalKey selected.signal ∉ t.given.map Prod.snd := by
    intro hmem
    rcases mem_map.mp hmem with ⟨q, hq, hkey⟩
    exact h.taken q hq selected (hkey ▸ hselected) hnone
  refine ⟨nodup_keys_set h.keyed _ _, ?_, ?_, ?_, ?_, ?_, ?_⟩
  · intro k e he
    rcases hget k e he with ⟨rfl, rfl⟩ | ⟨-, he⟩
    · rfl
    · exact h.identity k e he
  · intro k e he
    rcases hget k e he with ⟨rfl, rfl⟩ | ⟨-, he⟩
    · exact iff_of_false (fun hs => by cases hs) (fun hs => by cases hs)
    · exact h.early k e he
  · intro k e m' he hm'
    rcases hget k e he with ⟨rfl, rfl⟩ | ⟨-, he⟩
    · cases hm'
      refine ⟨?_, mem_append_right _ ((hmore _).mpr (by rw [hm]))⟩
      rw [hm]
      exact get?_set_self _ _ _
    · rcases h.bound k e m' he hm' with ⟨hmatch, hgiven⟩
      refine ⟨?_, mem_append_left _ hgiven⟩
      have hne : m'.registrationRef ≠ registration.registrationRef c := by
        intro heq
        rw [heq, habsent] at hmatch
        cases hmatch
      exact (get?_set_of_ne _ _ hne).trans hmatch
  · intro r m' hm'
    have hm' : (t.inbox.signalMatches.set (registration.registrationRef c) m).get? r = some m' := hm'
    rw [get?_set] at hm'
    split at hm'
    · rename_i hr
      cases hm'
      exact ⟨hm.trans hr.symm, signalKey selected.signal, _, get?_set_self _ _ _, rfl⟩
    · rcases h.held r m' hm' with ⟨hr, k, e, he, hem⟩
      refine ⟨hr, k, e, ?_, hem⟩
      have hne : k ≠ signalKey selected.signal := by
        rintro rfl
        rw [hselected] at he
        cases he
        rw [hnone] at hem
        cases hem
      exact (get?_set_of_ne _ _ hne).trans he
  · exact h.oneToOne.append_of_fresh (fun p hp => (hmore p).mp hp) hnew hfree
  · intro q hq e he
    rcases hget q.2 e he with ⟨hkey, rfl⟩ | ⟨hkey, he⟩
    · intro hs
      cases hs
    · rcases mem_append.mp hq with hq | hq
      · exact h.taken q hq e he
      · rw [(hmore q).mp hq] at hkey
        exact absurd rfl hkey

end Traced

/-! ## Steps -/

theorem delivered_putSignal (inbox : SignalInbox) (signal : HarnessWaitSignal)
    (authorizedScope : HarnessWaitScope) :
    delivered c policy inbox (.putSignal signal authorizedScope) = [] := by
  unfold delivered InboxCall.apply
  dsimp only
  cases (inbox.putSignal c policy signal authorizedScope).1 <;> rfl

theorem delivered_pruneEarlySignals (inbox : SignalInbox) (throughSequence : ℤ) :
    delivered c policy inbox (.pruneEarlySignals throughSequence) = [] := by
  unfold delivered InboxCall.apply allOrNothing
  dsimp only
  cases inbox.pruneEarlySignals c policy throughSequence <;> rfl

variable {t : TracedInbox}

theorem of_mem_candidates (h : Traced t) {scope : HarnessWaitScope} {e : HarnessSignalInboxEntry}
    (he : e ∈ t.inbox.candidates scope) :
    t.inbox.entries.get? (signalKey e.signal) = some e ∧ e.status = .early := by
  rcases mem_filter.mp he with ⟨hvalue, hp⟩
  rcases exists_get?_of_mem_values h.keyed hvalue with ⟨k, hk⟩
  rw [h.identity k e hk]
  exact ⟨hk, (of_decide_eq_true hp).1⟩

/-- A clean signal keeps the invariant, and changes nothing if it is refused. -/
theorem traced_putSignal (h : Traced t) {signal : HarnessWaitSignal}
    {authorizedScope : HarnessWaitScope}
    (hclean : Clean c policy t (.putSignal signal authorizedScope)) :
    Traced (t.step c policy (.putSignal signal authorizedScope)) ∧
      Refuses c policy t (.putSignal signal authorizedScope) := by
  unfold TracedInbox.step
  rw [delivered_putSignal, append_nil]
  show Traced ⟨(t.inbox.putSignal c policy signal authorizedScope).2, t.given⟩ ∧
    ∀ e, (t.inbox.putSignal c policy signal authorizedScope).1.map InboxAnswer.entry = .error e →
      (t.inbox.putSignal c policy signal authorizedScope).2 = t.inbox
  rcases putSignal_cases t.inbox h.keyed signal authorizedScope with hsame |
    ⟨hscope, habsent, pruned, hpruned, hvalue, ⟨hfits, hput⟩ | ⟨hfits, hput⟩⟩
  · rw [hsame]
    exact ⟨h, fun _ _ => rfl⟩
  · rw [hput]
    have hnew := (hclean hscope habsent).1 hfits
    have hgone : pruned.entries.get? (signalKey signal) = none := by
      rw [hpruned.entries]
      unfold keptEntries
      rw [get?_filter h.keyed, habsent]
      rfl
    exact ⟨(h.prune hpruned).admitNew hnew hgone _, fun e he => by cases he⟩
  · rw [hput]
    have hsettled := (hclean hscope habsent).2.resolve_left hfits
    have hsame : pruned = t.inbox := hvalue.trans (pruneLocked_of_settled hsettled)
    rw [hsame]
    exact ⟨h, fun _ _ => rfl⟩

/-- Pruning keeps the invariant. -/
theorem traced_pruneEarlySignals (h : Traced t) (throughSequence : ℤ) :
    Traced (t.step c policy (.pruneEarlySignals throughSequence)) := by
  unfold TracedInbox.step
  rw [delivered_pruneEarlySignals, append_nil]
  show Traced ⟨(allOrNothing (t.inbox.pruneEarlySignals c policy throughSequence) .pruned
    t.inbox).2, t.given⟩
  by_cases hnat : 0 ≤ throughSequence
  · have hcall : t.inbox.pruneEarlySignals c policy throughSequence =
        .ok (t.inbox.pruneLocked c policy throughSequence.toNat) := by
      unfold SignalInbox.pruneEarlySignals
      rw [require_of_pos _ hnat]
      rfl
    rw [hcall]
    exact h.prune (pruned_pruneLocked h.keyed _)
  · have hcall : t.inbox.pruneEarlySignals c policy throughSequence =
        .error (invalid "through_sequence must be a non-negative integer"
          "invalid_wait_sequence") := by
      unfold SignalInbox.pruneEarlySignals
      rw [require_of_neg _ hnat]
      rfl
    rw [hcall]
    exact h

/-- A clean registration keeps the invariant, and picks the first signal. -/
theorem traced_consumeMatching (h : Traced t) {registration : HarnessWaitRegistrationRecord}
    {matchedSequence : ℤ}
    (hclean : Clean c policy t (.consumeMatching registration matchedSequence)) :
    Traced (t.step c policy (.consumeMatching registration matchedSequence)) ∧
      Picks c policy t (.consumeMatching registration matchedSequence) := by
  unfold TracedInbox.step Picks delivered InboxCall.apply allOrNothing
  dsimp only
  cases hcall : t.inbox.consumeMatching c registration matchedSequence with
  | error e =>
    rw [append_nil]
    exact ⟨h, fun _ answer hanswer => by cases hanswer⟩
  | ok result =>
    rcases result with ⟨answer, inbox'⟩
    rcases consumeMatching_cases hcall with ⟨m, hget, rfl, rfl⟩ | ⟨hget, hnone, rfl, rfl⟩ |
      ⟨hget, hkind, selected, hselected, hleast, rfl, rfl⟩
    · -- the match is the one that was given
      refine ⟨?_, fun hmiss => by rw [hget] at hmiss; cases hmiss⟩
      have hmore : ∀ p ∈ (t.inbox.entries.filter fun p => decide (p.2.signalMatch = some m)).map
          (fun p => (m.registrationRef, p.1)), p ∈ t.given := by
        intro p hp
        rcases mem_map.mp hp with ⟨q, hq, rfl⟩
        rcases mem_filter.mp hq with ⟨hin, hmatch⟩
        exact (h.bound q.1 q.2 m (get?_of_mem h.keyed hin) (of_decide_eq_true hmatch)).2
      refine ⟨h.keyed, h.identity, h.early, ?_, h.held, h.oneToOne.append_of_subset hmore, ?_⟩
      · intro k e m' he hm'
        rcases h.bound k e m' he hm' with ⟨hmatch, hgiven⟩
        exact ⟨hmatch, mem_append_left _ hgiven⟩
      · intro q hq
        rcases mem_append.mp hq with hq | hq
        · exact h.taken q hq
        · exact h.taken q (hmore q hq)
    · dsimp only
      rw [append_nil]
      refine ⟨h, fun _ answer hanswer => ?_⟩
      cases ok_inj hanswer
      intro e he
      rw [hnone] at he
      cases he
    · rcases of_mem_candidates h hselected with ⟨hentry, hearly⟩
      rcases hclean hkind hget selected hselected with ⟨hnew, hunexpired⟩
      refine ⟨h.consume rfl hnew hget hentry hearly (fun p => ?_) _, fun _ answer hanswer => ?_⟩
      · -- no other entry carries the new match
        rw [mem_map]
        constructor
        · rintro ⟨q, hq, rfl⟩
          rcases mem_filter.mp hq with ⟨hin, hmatch⟩
          have hkeys := nodup_keys_set h.keyed (signalKey selected.signal)
            (matchedEntry selected (newMatch c registration selected matchedSequence))
          have hq' := get?_of_mem hkeys hin
          rw [get?_set] at hq'
          split at hq'
          · rename_i hkey
            rw [hkey]
            rfl
          · have hbound := (h.bound q.1 q.2 _ hq' (of_decide_eq_true hmatch)).1
            have href : (newMatch c registration selected matchedSequence).registrationRef =
                registration.registrationRef c := rfl
            rw [href, hget] at hbound
            cases hbound
        · rintro rfl
          refine ⟨(signalKey selected.signal, _), mem_filter.mpr
            ⟨mem_of_get? (get?_set_self _ _ _), decide_eq_true rfl⟩, rfl⟩
      · cases ok_inj hanswer
        exact ⟨selected, hselected, hunexpired, rfl, fun e he _ => hleast e he⟩

/-- What a clean call keeps and shows. -/
theorem traced_step (h : Traced t) {call : InboxCall} (hclean : Clean c policy t call) :
    Traced (t.step c policy call) ∧ Picks c policy t call ∧ Refuses c policy t call := by
  cases call with
  | putSignal signal authorizedScope =>
    rcases traced_putSignal h hclean with ⟨htraced, hrefuses⟩
    exact ⟨htraced, trivial, hrefuses⟩
  | consumeMatching registration matchedSequence =>
    rcases traced_consumeMatching h hclean with ⟨htraced, hpicks⟩
    exact ⟨htraced, hpicks, trivial⟩
  | pruneEarlySignals throughSequence =>
    exact ⟨traced_pruneEarlySignals h throughSequence, trivial, trivial⟩

theorem traced_keep (t : TracedInbox) (call : InboxCall) (h : Traced t)
    (hclean : Clean c policy t call) : Traced (t.step c policy call) :=
  (traced_step h hclean).1

end Steps

/-! ## Sample runs -/

namespace Sample

/-- One digest for every text. -/
def checksums : Checksums where
  sha256 _ := HexDigest.ofNat 0

/-- A window of two sequence numbers. -/
def policy : HarnessEarlySignalRetentionPolicy where
  maxSignals := 2
  maxSignalsPerScope := 2
  sequenceWindow := 2
  positive := by decide
  within := by decide

/-- The scope of the wait `w`. -/
def scope : HarnessWaitScope where
  waitId := "w"
  runId := "r"
  nodeInstanceId := "n"
  tenantScopeRef := "t"
  identityScopeRef := "i"
  signalSchemaRef := "s@1"
  correlationRef := "c"

/-- A signal, as it is received with a sequence number. -/
def signal (signalId : String) (receivedSequence : ℕ) : HarnessWaitSignal where
  signalId := signalId
  scope := scope
  payloadRef := "p"
  receivedSequence := receivedSequence

/-- A registration for signals. -/
def registration : HarnessWaitRegistrationRecord where
  scope := scope
  kind := .signal
  registeredSequence := 0
  deadlineRef := none

/-- The first signal is matched and forgotten by the window, and the second one is matched by the
same registration. -/
def secondMatch : List InboxCall :=
  [.putSignal (signal "a" 1) scope, .consumeMatching registration 1, .pruneEarlySignals 3,
    .putSignal (signal "b" 4) scope, .consumeMatching registration 4]

end Sample

end WaitInbox
