/-
# What the calls of the signal inbox do

The window of the inbox, and what a call prunes, admits or matches.
-/
import AgoraHub.WaitInbox

/-! ## Dictionaries without some keys -/

namespace PyDict

open List

variable {κ ν : Type*} [DecidableEq κ]

/-- What a lookup sees after a filter. -/
theorem get?_filter {d : PyDict κ ν} (hd : d.keys.Nodup) (p : κ × ν → Bool) (k : κ) :
    get? (d.filter p) k = (d.get? k).filter fun v => p (k, v) := by
  induction d with
  | nil => rfl
  | cons q d ih =>
    rcases nodup_cons.mp hd with ⟨hnot, hd⟩
    rw [get?_cons]
    by_cases hq : p q = true
    · rw [filter_cons_of_pos hq, get?_cons, ih hd]
      by_cases hk : q.1 = k
      · subst hk
        rw [if_pos rfl, if_pos rfl, Option.filter_some]
        exact (if_pos hq).symm
      · rw [if_neg hk, if_neg hk]
    · rw [filter_cons_of_neg hq, ih hd]
      by_cases hk : q.1 = k
      · subst hk
        rw [if_pos rfl, (get?_eq_none_iff d q.1).mpr hnot, Option.filter_some]
        exact (if_neg hq).symm
      · rw [if_neg hk]

/-- What a lookup sees after a key is taken out. -/
theorem get?_pop (d : PyDict κ ν) (k k' : κ) :
    (d.pop k).get? k' = if k' = k then none else d.get? k' := by
  unfold pop
  induction d with
  | nil => simp
  | cons q d ih =>
    rw [get?_cons]
    by_cases hq : q.1 = k
    · rw [filter_cons_of_neg (by simpa using hq), ih]
      by_cases hk : k' = k
      · rw [if_pos hk, if_pos hk]
      · rw [if_neg hk, if_neg hk, if_neg (fun h => hk (h.symm.trans hq))]
    · rw [filter_cons_of_pos (by simpa using hq), get?_cons, ih]
      by_cases hk : q.1 = k'
      · rw [if_pos hk, if_pos hk, if_neg (fun h => hq (hk.trans h))]
      · rw [if_neg hk, if_neg hk]

omit [DecidableEq κ] in
theorem nodup_keys_filter {d : PyDict κ ν} (hd : d.keys.Nodup) (p : κ × ν → Bool) :
    (keys (d.filter p)).Nodup :=
  hd.sublist (filter_sublist.map Prod.fst)

end PyDict

namespace WaitInbox

open Fallible HarnessGraph List SignalInbox
open TaskPlan (HarnessValidationError)
open HarnessSignalInboxEntry (construct)

/-! ## The window -/

section Window

variable (policy : HarnessEarlySignalRetentionPolicy)

/-- The window has left a signal behind. -/
def Expired (inbox : SignalInbox) (e : HarnessSignalInboxEntry) : Prop :=
  e.signal.receivedSequence + policy.sequenceWindow ≤ inbox.highWatermark

instance (inbox : SignalInbox) (e : HarnessSignalInboxEntry) : Decidable (Expired policy inbox e) :=
  inferInstanceAs (Decidable (_ ≤ _))

/-- The entries that the window has not left behind once a signal is received. -/
def keptEntries (inbox : SignalInbox) (sequence : ℕ) : PyDict SignalKey HarnessSignalInboxEntry :=
  inbox.entries.filter fun p => decide (max inbox.highWatermark sequence <
    p.2.signal.receivedSequence + policy.sequenceWindow)

/-- There is room for a signal, which is within the window. -/
def Fits (inbox : SignalInbox) (signal : HarnessWaitSignal) : Prop :=
  let high := max inbox.highWatermark signal.receivedSequence
  let kept := keptEntries policy inbox signal.receivedSequence
  ¬ (signal.receivedSequence ≤ high - policy.sequenceWindow ∧ high ≠ 0) ∧
    kept.length < policy.maxSignals ∧
    (kept.filter fun p => decide (p.2.signal.scope = signal.scope)).length <
      policy.maxSignalsPerScope

/-- A signal does not move the window, and the window has left nothing behind. -/
def Settled (inbox : SignalInbox) (signal : HarnessWaitSignal) : Prop :=
  signal.receivedSequence ≤ inbox.highWatermark ∧
    ∀ p ∈ inbox.entries, ¬ Expired policy inbox p.2

instance (inbox : SignalInbox) (signal : HarnessWaitSignal) : Decidable (Fits policy inbox signal) :=
  inferInstanceAs (Decidable (_ ∧ _))

instance (inbox : SignalInbox) (signal : HarnessWaitSignal) :
    Decidable (Settled policy inbox signal) := inferInstanceAs (Decidable (_ ∧ _))

end Window

variable {c : Checksums} {policy : HarnessEarlySignalRetentionPolicy}

/-! ## Pruning -/

/-- What the loop over the expired keys leaves. -/
theorem foldl_dropExpired (expired : List (SignalKey × HarnessSignalInboxEntry)) :
    ∀ inbox : SignalInbox, (expired.foldl dropExpired inbox).entries =
          inbox.entries.filter (fun p => decide (p.1 ∉ expired.map Prod.fst)) ∧
        (expired.foldl dropExpired inbox).highWatermark = inbox.highWatermark ∧
        ∀ r m, (expired.foldl dropExpired inbox).signalMatches.get? r = some m ↔
          inbox.signalMatches.get? r = some m ∧
            ∀ p ∈ expired, ∀ m', p.2.signalMatch = some m' → m'.registrationRef ≠ r := by
  induction expired with
  | nil =>
    intro inbox
    refine ⟨?_, rfl, by simp⟩
    simp
  | cons x expired ih =>
    intro inbox
    rw [foldl_cons]
    rcases ih (inbox.dropExpired x) with ⟨hentries, hhigh, hmatches⟩
    refine ⟨?_, hhigh, fun r m => ?_⟩
    · rw [hentries]
      show (inbox.entries.pop x.1).filter _ = _
      unfold PyDict.pop
      rw [filter_filter]
      apply filter_congr
      intro p _
      rw [map_cons, ← Bool.decide_and]
      exact decide_eq_decide.mpr (by rw [mem_cons, not_or, and_comm])
    · rw [hmatches r m]
      -- the first expired entry takes its own match along
      have hdrop : (inbox.dropExpired x).signalMatches.get? r = some m ↔
          inbox.signalMatches.get? r = some m ∧
            ∀ m', x.2.signalMatch = some m' → m'.registrationRef ≠ r := by
        unfold dropExpired
        cases hx : x.2.signalMatch with
        | none => simp
        | some m' =>
          rw [PyDict.get?_pop]
          by_cases hr : r = m'.registrationRef
          · rw [if_pos hr]
            refine iff_of_false (by simp) ?_
            rintro ⟨-, hne⟩
            exact hne m' rfl hr.symm
          · rw [if_neg hr]
            refine ⟨fun h => ⟨h, fun m'' hm'' => ?_⟩, And.left⟩
            cases hm''
            exact fun heq => hr heq.symm
      rw [hdrop]
      constructor
      · rintro ⟨⟨hget, hfirst⟩, hrest⟩
        refine ⟨hget, fun p hp => ?_⟩
        rcases mem_cons.mp hp with rfl | hp
        · exact hfirst
        · exact hrest p hp
      · rintro ⟨hget, hall⟩
        exact ⟨⟨hget, hall x mem_cons_self⟩, fun p hp => hall p (mem_cons_of_mem _ hp)⟩

/-- An inbox after its window is moved. -/
structure Pruned (policy : HarnessEarlySignalRetentionPolicy) (inbox : SignalInbox) (sequence : ℕ)
    (inbox' : SignalInbox) : Prop where
  entries : inbox'.entries = keptEntries policy inbox sequence
  highWatermark : inbox'.highWatermark = max inbox.highWatermark sequence
  matched : ∀ r m, inbox'.signalMatches.get? r = some m ↔ inbox.signalMatches.get? r = some m ∧
    ∀ p ∈ inbox.entries, p ∉ keptEntries policy inbox sequence →
      ∀ m', p.2.signalMatch = some m' → m'.registrationRef ≠ r

/-- The window is moved by pruning. -/
theorem pruned_pruneLocked {inbox : SignalInbox} (hkeys : inbox.entries.keys.Nodup) (sequence : ℕ) :
    Pruned policy inbox sequence (inbox.pruneLocked c policy sequence).2 := by
  have hkept : ∀ p ∈ inbox.entries, p ∈ keptEntries policy inbox sequence ↔
      max inbox.highWatermark sequence <
        p.2.signal.receivedSequence + policy.sequenceWindow := by
    intro p hp
    unfold keptEntries
    rw [mem_filter, decide_eq_true_eq]
    exact and_iff_right hp
  unfold pruneLocked
  dsimp only
  split
  · -- the window does not reach the first sequence
    rename_i hcutoff
    have hall : ∀ p ∈ inbox.entries, p ∈ keptEntries policy inbox sequence := by
      intro p hp
      apply (hkept p hp).mpr
      omega
    refine ⟨?_, rfl, fun r m => ?_⟩
    · refine (filter_eq_self.mpr fun p hp => ?_).symm
      exact decide_eq_true ((hkept p hp).mp (hall p hp))
    · exact ⟨fun h => ⟨h, fun p hp hnot => absurd (hall p hp) hnot⟩, And.left⟩
  · rename_i hcutoff
    set expired := inbox.entries.filter fun p => decide ((p.2.signal.receivedSequence : ℤ) ≤
      (max inbox.highWatermark sequence : ℕ) - policy.sequenceWindow) with hexpired
    have hmem : ∀ p ∈ inbox.entries, p ∈ expired ↔ p ∉ keptEntries policy inbox sequence := by
      intro p hp
      rw [hkept p hp, hexpired, mem_filter, decide_eq_true_eq, and_iff_right hp]
      omega
    rcases foldl_dropExpired expired
      { inbox with highWatermark := max inbox.highWatermark sequence } with
      ⟨hentries, hhigh, hmatches⟩
    refine ⟨?_, hhigh, fun r m => ?_⟩
    · rw [hentries]
      apply filter_congr
      intro p hp
      apply decide_eq_decide.mpr
      rw [← hkept p hp, ← not_iff_not, ← hmem p hp, not_not]
      constructor
      · intro hkey
        rcases mem_map.mp hkey with ⟨q, hq, heq⟩
        -- keys are distinct, so that the key of an expired entry is that of no other
        have hqin := (mem_filter.mp hq).1
        have hsame : q = p := inj_on_of_nodup_map hkeys hqin hp heq
        exact hsame ▸ hq
      · exact fun hin => mem_map.mpr ⟨p, hin, rfl⟩
    · rw [hmatches r m]
      constructor
      · rintro ⟨hget, hall⟩
        exact ⟨hget, fun p hp hnot => hall p ((hmem p hp).mpr hnot)⟩
      · rintro ⟨hget, hall⟩
        refine ⟨hget, fun p hp => ?_⟩
        have hin := (mem_filter.mp hp).1
        exact hall p hin ((hmem p hin).mp hp)

/-- A settled inbox is not changed by pruning. -/
theorem pruneLocked_of_settled {inbox : SignalInbox} {signal : HarnessWaitSignal}
    (h : Settled policy inbox signal) :
    (inbox.pruneLocked c policy signal.receivedSequence).2 = inbox := by
  rcases h with ⟨hle, hnone⟩
  have hhigh : max inbox.highWatermark signal.receivedSequence = inbox.highWatermark :=
    Nat.max_eq_left hle
  unfold pruneLocked
  rw [hhigh]
  dsimp only
  split
  · rfl
  · have hempty : (inbox.entries.filter fun p => decide ((p.2.signal.receivedSequence : ℤ) ≤
        (inbox.highWatermark : ℤ) - policy.sequenceWindow)) = [] := by
      apply filter_eq_nil_iff.mpr
      intro p hp hexpired
      have hle := of_decide_eq_true hexpired
      apply hnone p hp
      unfold Expired
      omega
    rw [hempty]
    rfl

/-! ## Single calls -/

/-- Scopes match exactly if they are equal. -/
theorem validateScopeMatch_eq_ok {expected actual : HarnessWaitScope} {codeStart : String}
    {u : Unit} : validateScopeMatch expected actual codeStart = .ok u ↔ expected = actual := by
  constructor
  · intro h
    have hfields := of_forM h
    have hfield : ∀ f ∈ scopeFields, f.2.2 expected = f.2.2 actual :=
      fun f hf => of_require (hfields f hf)
    cases expected
    cases actual
    simpa [scopeFields] using hfield
  · rintro rfl
    exact forM_ok fun f _ => require_of_pos _ rfl

/-- The entry of a signal that arrives. -/
def earlyEntry (signal : HarnessWaitSignal) : HarnessSignalInboxEntry :=
  { signal := signal, status := .early, signalMatch := none }

theorem construct_earlyEntry (signal : HarnessWaitSignal) :
    construct c (earlyEntry signal) = .ok (earlyEntry signal) := by
  unfold construct earlyEntry
  rw [check_of_pos (by simp), check_of_pos (by simp),
    check_of_pos (by simp), check_of_pos (by simp)]
  rfl

/-- A signal is admitted to a pruned inbox exactly if it fits. -/
theorem admitSignal_of_pruned {inbox pruned : SignalInbox} {signal : HarnessWaitSignal}
    (h : Pruned policy inbox signal.receivedSequence pruned) :
    (Fits policy inbox signal → pruned.admitSignal c policy signal = .ok (earlyEntry signal,
      { pruned with
        entries := pruned.entries.set (signalKey signal) (earlyEntry signal)
        highWatermark := max pruned.highWatermark signal.receivedSequence })) ∧
    ∀ admitted, pruned.admitSignal c policy signal = .ok admitted → Fits policy inbox signal := by
  unfold admitSignal assertCapacity Fits
  rw [h.entries, h.highWatermark]
  constructor
  · rintro ⟨hwindow, htotal, hscope⟩
    rw [check_of_pos hwindow, check_of_pos htotal, check_of_pos hscope]
    have hentry := @construct_earlyEntry c signal
    unfold earlyEntry at hentry
    rw [hentry]
    rfl
  · intro admitted hok
    obtain ⟨hwindow, hok⟩ := check_inv hok
    obtain ⟨hcapacity, -⟩ := check_inv hok
    obtain ⟨htotal, hscope⟩ := check_inv hcapacity
    exact ⟨of_require hwindow, of_require htotal, of_require hscope⟩

/-- What `put_signal` does: it changes nothing, or it prunes and then admits or refuses. -/
theorem putSignal_cases (inbox : SignalInbox) (hkeys : inbox.entries.keys.Nodup)
    (signal : HarnessWaitSignal) (authorizedScope : HarnessWaitScope) :
    (inbox.putSignal c policy signal authorizedScope).2 = inbox ∨
      (signal.scope = authorizedScope ∧ inbox.entries.get? (signalKey signal) = none ∧
        ∃ pruned, Pruned policy inbox signal.receivedSequence pruned ∧
          pruned = (inbox.pruneLocked c policy signal.receivedSequence).2 ∧
          ((Fits policy inbox signal ∧ inbox.putSignal c policy signal authorizedScope =
              (.ok (earlyEntry signal), { pruned with
                entries := pruned.entries.set (signalKey signal) (earlyEntry signal)
                highWatermark := max pruned.highWatermark signal.receivedSequence })) ∨
            (¬ Fits policy inbox signal ∧
              (inbox.putSignal c policy signal authorizedScope).2 = pruned))) := by
  unfold putSignal
  cases hscope : validateSignalAuthorization signal authorizedScope with
  | error e => exact Or.inl rfl
  | ok u =>
    have hsame : signal.scope = authorizedScope := (validateScopeMatch_eq_ok.mp hscope).symm
    cases hget : inbox.entries.get? (signalKey signal) with
    | some existing =>
      dsimp only
      split <;> exact Or.inl rfl
    | none =>
      dsimp only
      have hpruned := @pruned_pruneLocked c policy inbox hkeys signal.receivedSequence
      refine Or.inr ⟨hsame, rfl, _, hpruned, rfl, ?_⟩
      rcases @admitSignal_of_pruned c policy inbox _ signal hpruned with ⟨hadmitted, hfits⟩
      by_cases hfit : Fits policy inbox signal
      · rw [hadmitted hfit]
        exact Or.inl ⟨hfit, rfl⟩
      · refine Or.inr ⟨hfit, ?_⟩
        cases hadmitted : admitSignal c policy
            (inbox.pruneLocked c policy signal.receivedSequence).2 signal with
        | error e => rfl
        | ok admitted => exact absurd (hfits admitted hadmitted) hfit

/-- The order of early signals starts with their sequences. -/
theorem receivedSequence_le_of_best {entries : List HarnessSignalInboxEntry}
    {selected : HarnessSignalInboxEntry} (h : pyBest? (signalLt c) entries = some selected) :
    ∀ e ∈ entries, selected.signal.receivedSequence ≤ e.signal.receivedSequence := by
  have hfold : ∀ (xs : List HarnessSignalInboxEntry) (best : HarnessSignalInboxEntry),
      (xs.foldl (fun best b => if signalLt c b best then b else best) best).signal.receivedSequence ≤
          best.signal.receivedSequence ∧
        ∀ e ∈ xs, (xs.foldl (fun best b => if signalLt c b best then b else best)
          best).signal.receivedSequence ≤ e.signal.receivedSequence := by
    intro xs
    induction xs with
    | nil => exact fun best => ⟨le_refl _, fun e he => absurd he not_mem_nil⟩
    | cons x xs ih =>
      intro best
      rw [foldl_cons]
      have hnext : (if signalLt c x best then x else best).signal.receivedSequence ≤
          best.signal.receivedSequence ∧
          (if signalLt c x best then x else best).signal.receivedSequence ≤
            x.signal.receivedSequence := by
        by_cases hlt : signalLt c x best
        · rw [if_pos hlt]
          refine ⟨?_, le_refl _⟩
          by_contra hgt
          exact hlt (Or.inl (Nat.lt_of_not_le hgt))
        · rw [if_neg hlt]
          refine ⟨le_refl _, ?_⟩
          rcases not_not.mp hlt with hle | ⟨heq, -⟩
          · exact hle.le
          · exact heq.le
      rcases ih (if signalLt c x best then x else best) with ⟨hbest, hall⟩
      refine ⟨hbest.trans hnext.1, fun e he => ?_⟩
      rcases mem_cons.mp he with rfl | he
      · exact hbest.trans hnext.2
      · exact hall e he
  cases entries with
  | nil => cases h
  | cons x xs =>
    cases h
    intro e he
    rcases mem_cons.mp he with rfl | he
    · exact (hfold xs e).1
    · exact (hfold xs x).2 e he

/-- The match of a registration with a signal. -/
def newMatch (c : Checksums) (registration : HarnessWaitRegistrationRecord)
    (selected : HarnessSignalInboxEntry) (matchedSequence : ℤ) : HarnessWaitSignalMatch where
  scope := registration.scope
  registrationRef := registration.registrationRef c
  signalRef := c.signalRef selected.signal
  matchedSequence := matchedSequence.toNat

/-- The entry of a signal with its match. -/
def matchedEntry (selected : HarnessSignalInboxEntry) (signalMatch : HarnessWaitSignalMatch) :
    HarnessSignalInboxEntry :=
  { selected with status := .matched, signalMatch := some signalMatch }

/-- What `consume_matching` returns, and the inbox that it leaves. -/
theorem consumeMatching_cases {inbox inbox' : SignalInbox}
    {registration : HarnessWaitRegistrationRecord} {matchedSequence : ℤ}
    {answer : Option HarnessWaitSignalMatch}
    (h : inbox.consumeMatching c registration matchedSequence = .ok (answer, inbox')) :
    (∃ m, inbox.signalMatches.get? (registration.registrationRef c) = some m ∧ answer = some m ∧
        inbox' = inbox) ∨ (inbox.signalMatches.get? (registration.registrationRef c) = none ∧
        inbox.candidates registration.scope = [] ∧ answer = none ∧ inbox' = inbox) ∨
      (inbox.signalMatches.get? (registration.registrationRef c) = none ∧
        registration.kind = .signal ∧ ∃ selected ∈ inbox.candidates registration.scope,
          (∀ e ∈ inbox.candidates registration.scope,
            selected.signal.receivedSequence ≤ e.signal.receivedSequence) ∧
          answer = some (newMatch c registration selected matchedSequence) ∧ inbox' = {
            entries := inbox.entries.set (signalKey selected.signal)
              (matchedEntry selected (newMatch c registration selected matchedSequence))
            signalMatches := inbox.signalMatches.set (registration.registrationRef c)
              (newMatch c registration selected matchedSequence)
            highWatermark := max inbox.highWatermark matchedSequence.toNat }) := by
  unfold consumeMatching at h
  obtain ⟨-, h⟩ := check_inv h
  cases hget : inbox.signalMatches.get? (registration.registrationRef c) with
  | some m =>
    rw [hget] at h
    cases pure_eq_ok_iff.mp h
    exact Or.inl ⟨m, rfl, rfl, rfl⟩
  | none =>
    rw [hget] at h
    cases hbest : pyBest? (signalLt c) (inbox.candidates registration.scope) with
    | none =>
      rw [hbest] at h
      cases pure_eq_ok_iff.mp h
      refine Or.inr (Or.inl ⟨rfl, ?_, rfl, rfl⟩)
      cases hlist : inbox.candidates registration.scope with
      | nil => rfl
      | cons e rest =>
        rw [hlist] at hbest
        cases hbest
    | some selected =>
      -- the selected entry is the best one of the scope, and it is early
      rw [hbest] at h
      obtain ⟨⟨m, matched⟩, hmatched, h⟩ := bind_inv h
      cases pure_eq_ok_iff.mp h
      unfold matchSelected at hmatched
      obtain ⟨hvalid, hmatched⟩ := check_inv hmatched
      obtain ⟨-, hmatched⟩ := check_inv hmatched
      obtain ⟨entry, hentry, hmatched⟩ := bind_inv hmatched
      cases pure_eq_ok_iff.mp hmatched
      have hkind := of_require (check_inv hvalid).1
      have hvalue : entry =
          matchedEntry selected (newMatch c registration selected matchedSequence) := by
        unfold construct at hentry
        iterate 4 replace hentry := (check_inv hentry).2
        exact (pure_eq_ok_iff.mp hentry).symm
      subst hvalue
      exact Or.inr (Or.inr ⟨rfl, hkind, selected, mem_of_pyBest? hbest,
        receivedSequence_le_of_best hbest, rfl, rfl⟩)

end WaitInbox
