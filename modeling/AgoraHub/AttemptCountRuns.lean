/-
# Counts of attempts over every interleaving

After every schedule each count is the sum of what the calls hold of it, and the
numbers of an operation's started attempts are the first ones in order.  Where no
call is between its reservation and its commit, a call holds something exactly
when its attempt was started, and a slot exactly while its callable has not finished.
-/
import AgoraHub.AttemptCounts

open ThreadPool StepRuns

namespace AttemptCounts

open List Phase

variable {ι : Type*} [DecidableEq ι]

open Counters

/-! ## Steps between phases -/

variable {q : Phase} {no : ℕ}

theorem Next.emitted {p : Phase} (h : Next p q) (hp : p.emittedNo = some no) :
    q.emittedNo = some no := by
  cases h <;> simp_all

theorem Next.start {p : Phase} (h : Next p q) (hp : p.emittedNo = none)
    (hq : q.emittedNo = some no) : p.heldNo = some no := by
  cases h <;> simp_all

theorem Next.held {p : Phase} (h : Next p q) (hq : q.heldNo = some no) :
    p.heldNo = some no ∧ p.holdsAttempt = true ∨ p = .holding ∧ q = .reserved no := by
  cases h <;> simp_all

theorem Next.lock {p : Phase} (h : Next p q) (hne : p.holdsAttempt ≠ q.holdsAttempt) :
    p.holdsLock = true := by
  cases h <;> simp_all

variable {s s' : Counters ι} {r r' : Call ι}

/-- A reservation is numbered with the used count that it leaves. -/
theorem used_of_reserved {c : Limits ι} {e : Event} (h : act c s r e = some (s', r'))
    (hr : r.phase = .holding) (hr' : r'.phase = .reserved no) : s'.used r.operation = no := by
  rcases r with ⟨o, phase⟩
  obtain rfl : phase = .holding := hr
  simp only [act] at h
  split at h
  · cases h
    cases hr'
  split at h
  · split at h
    · cases h
      cases hr'
      simp [setUsed]
    · cases h
      cases hr'
  · cases h
    cases hr'
    simp [setUsed]

/-! ## Shares -/

/-- A call's share of a count of its operation. -/
def share (f : Phase → Bool) (o : ι) (r : Call ι) : ℤ :=
  if r.operation = o then count (f r.phase) else 0

theorem share_nonneg (f : Phase → Bool) (o : ι) (r : Call ι) : 0 ≤ share f o r := by
  unfold share
  split
  · exact count_nonneg _
  · exact le_refl _

/-- The call's attempt is a started retry. -/
@[simp] def Phase.startedRetry (p : Phase) : Bool := p.emittedNo.any fun no => 1 < no

theorem length_startOf (h : Acts s s' r r') :
    ((startOf r r').length : ℤ) = gain (fun p => p.emittedNo.isSome) r r' := by
  cases hr : r.phase.emittedNo with
  | some no => simp [hr, h.next.emitted hr, -emittedNo]
  | none => cases hr' : r'.phase.emittedNo <;> simp [hr, hr', -emittedNo]

theorem retries_startOf (h : Acts s s' r r') :
    ((startOf r r').countP (fun no => 1 < no) : ℤ) = gain startedRetry r r' := by
  cases hr : r.phase.emittedNo with
  | some no => simp [hr, h.next.emitted hr, -emittedNo]
  | none =>
    cases hr' : r'.phase.emittedNo with
    | none => simp [hr, hr', -emittedNo]
    | some no => by_cases hno : 1 < no <;> simp [hr, hr', hno, -emittedNo]

theorem attemptNos_of_acts (h : Acts s s' r r') (o : ι) :
    s'.attemptNos o = s.attemptNos o ++ if r.operation = o then startOf r r' else [] := by
  unfold attemptNos
  rw [h.changes.emitted, filter_append, map_append]
  congr 1
  split
  · rename_i ho
    simp [filter_map, Function.comp_def, ho]
  · rename_i ho
    simp [filter_map, Function.comp_def, ho]

section Shares

variable (c : Limits ι) (o : ι)

theorem shares_lock : Shares (act c) (fun s => count (s.locked o)) (share holdsLock o) := by
  intro s r e s' r' h
  have hacts := acts_of_act h
  have hlock := hacts.changes.lock o
  show count (s'.locked o) - count (s.locked o) = _
  rw [hlock]
  unfold share
  rw [hacts.operation]
  split <;> simp

theorem shares_used : Shares (act c) (fun s => (s.used o : ℤ)) (share holdsAttempt o) := by
  intro s r e s' r' h
  have hacts := acts_of_act h
  have hused := hacts.changes.used o
  show (s'.used o : ℤ) - s.used o = _
  rw [hused]
  unfold share
  rw [hacts.operation]
  split <;> simp

theorem shares_starts : Shares (act c) (fun s => ((s.attemptNos o).length : ℤ))
    (share (fun p => p.emittedNo.isSome) o) := by
  intro s r e s' r' h
  have hacts := acts_of_act h
  have hlength := length_startOf hacts
  show ((s'.attemptNos o).length : ℤ) - (s.attemptNos o).length = _
  rw [attemptNos_of_acts hacts, length_append, Nat.cast_add]
  unfold share
  rw [hacts.operation]
  split
  · rw [hlength, gain]
    dsimp only
    omega
  · simp

theorem shares_usedRetries : Shares (act c) (fun s => (s.usedRetries : ℤ))
    (fun r => count r.phase.holdsCredit) := by
  intro s r e s' r' h
  have hcredits := (acts_of_act h).changes.usedRetries
  show (s'.usedRetries : ℤ) - s.usedRetries = _
  rw [hcredits, gain]
  dsimp only
  omega

theorem shares_retries : Shares (act c) (fun s => (s.retries : ℤ))
    (fun r => count r.phase.startedRetry) := by
  intro s r e s' r' h
  have hacts := acts_of_act h
  have hretries := retries_startOf hacts
  have hcount : s'.retries = s.retries + (startOf r r').countP (fun no => 1 < no) := by
    unfold retries
    rw [hacts.changes.emitted, countP_append, countP_map]
    rfl
  show (s'.retries : ℤ) - s.retries = _
  rw [hcount, Nat.cast_add, hretries, gain]
  dsimp only
  omega

theorem shares_active : Shares (act c) (fun s => (s.active : ℤ))
    (fun r => count r.phase.holdsSlot) := by
  intro s r e s' r' h
  have hslots := (acts_of_act h).changes.active
  show (s'.active : ℤ) - s.active = _
  rw [hslots, gain]
  dsimp only
  omega

end Shares

/-! ## Numbers -/

/-- The used count, the lock and the starts are what the calls hold of them, the starts of each
operation are numbered in order, and a reservation has the number that its budget counts. -/
structure Numbered (p : Pool (Counters ι) (Call ι)) : Prop where
  lock : ∀ o, count (p.shared.locked o) = total (share holdsLock o) p.threads
  used : ∀ o, (p.shared.used o : ℤ) = total (share holdsAttempt o) p.threads
  starts : ∀ o, ((p.shared.attemptNos o).length : ℤ) =
    total (share (fun p => p.emittedNo.isSome) o) p.threads
  serial : ∀ o, p.shared.attemptNos o = List.range' 1 (p.shared.attemptNos o).length
  held : ∀ r ∈ p.threads, ∀ no, r.phase.heldNo = some no → p.shared.used r.operation = no

variable {p : Pool (Counters ι) (Call ι)}

/-- Two calls never hold one budget's lock. -/
theorem Numbered.exclusive (h : Numbered p) {i j : ℕ} {u : Call ι} (hij : i ≠ j)
    (hr : p.threads[i]? = some r) (hu : p.threads[j]? = some u) (hop : u.operation = r.operation)
    (hlock : r.phase.holdsLock = true) : u.phase.holdsLock = false := by
  have hsum := add_le_total (share_nonneg holdsLock r.operation) hij hr hu
  rw [← h.lock r.operation] at hsum
  simp only [share, hop, hlock, if_true, count_true] at hsum
  cases hfree : u.phase.holdsLock with
  | false => rfl
  | true =>
    rw [hfree] at hsum
    cases hbudget : p.shared.locked r.operation <;> simp [hbudget] at hsum

/-- A call that holds its lock before its start is the only one that its budget counts without a
start. -/
theorem Numbered.used_eq (h : Numbered p) (hr : r ∈ p.threads) (hno : r.phase.heldNo = some no) :
    p.shared.used r.operation = (p.shared.attemptNos r.operation).length + 1 := by
  have hused := h.used r.operation
  have hstarts := h.starts r.operation
  have hlock := h.lock r.operation
  let pending : Call ι → ℤ := fun u =>
    share holdsAttempt r.operation u - share (fun p => p.emittedNo.isSome) r.operation u
  have hsplit : total pending p.threads = total (share holdsAttempt r.operation) p.threads -
      total (share (fun p => p.emittedNo.isSome) r.operation) p.threads := by
    generalize p.threads = ts
    induction ts with
    | nil => rfl
    | cons u ts ih =>
      simp only [total_cons, ih, pending]
      omega
  have hpending : ∀ u, 0 ≤ pending u ∧ pending u ≤ share holdsLock r.operation u := by
    rintro ⟨o, phase⟩
    simp only [pending, share]
    split
    · cases phase <;> simp
    · simp
  have hone : pending r = 1 := by
    rcases r with ⟨o, phase⟩
    simp only [pending, share, if_true]
    cases phase <;> simp_all
  have hlower := le_total (fun u => (hpending u).1) hr
  have hupper := total_le_total fun u (_ : u ∈ p.threads) => (hpending u).2
  have hbit : count (p.shared.locked r.operation) ≤ 1 := by
    cases p.shared.locked r.operation <;> simp
  omega

theorem numbered_initial : Numbered (⟨.initial, []⟩ : Pool (Counters ι) (Call ι)) :=
  ⟨fun _ => rfl, fun _ => rfl, fun _ => rfl, fun _ => rfl, by simp⟩

theorem Numbered.spawn (h : Numbered p) (o : ι) :
    Numbered { p with threads := p.threads ++ [enter o] } := by
  have hnone : ∀ (f : Phase → Bool) (o' : ι), f .entered = false →
      total (share f o') (p.threads ++ [enter o]) = total (share f o') p.threads := by
    intro f o' hf
    simp [share, enter, hf]
  refine ⟨fun o' => ?_, fun o' => ?_, fun o' => ?_, h.serial, ?_⟩
  · exact (h.lock o').trans (hnone _ o' rfl).symm
  · exact (h.used o').trans (hnone _ o' rfl).symm
  · exact (h.starts o').trans (hnone _ o' rfl).symm
  · intro r hr no hno
    rcases mem_append.mp hr with hr | hr
    · exact h.held r hr no hno
    · obtain rfl := mem_singleton.mp hr
      cases hno

theorem Numbered.act {c : Limits ι} (h : Numbered p) {i : ℕ} {e : Event}
    (hget : p.threads[i]? = some r) (hact : AttemptCounts.act c p.shared r e = some (s', r')) :
    Numbered ⟨s', p.threads.set i r'⟩ := by
  have hacts := acts_of_act hact
  have hmem := mem_of_getElem? hget
  refine ⟨fun o => ?_, fun o => ?_, fun o => ?_, fun o => ?_, ?_⟩
  · have hshare := shares_lock c o _ _ _ _ _ hact
    have hold := h.lock o
    rw [total_set _ hget]
    dsimp only at hshare ⊢
    omega
  · have hshare := shares_used c o _ _ _ _ _ hact
    have hold := h.used o
    rw [total_set _ hget]
    dsimp only at hshare ⊢
    omega
  · have hshare := shares_starts c o _ _ _ _ _ hact
    have hold := h.starts o
    rw [total_set _ hget]
    dsimp only at hshare ⊢
    omega
  · -- a start has the number after the last one
    show s'.attemptNos o = List.range' 1 (s'.attemptNos o).length
    rw [attemptNos_of_acts hacts]
    split
    · rename_i ho
      subst ho
      by_cases hstart : startOf r r' = []
      · rw [hstart, append_nil]
        exact h.serial r.operation
      · have hnone : r.phase.emittedNo = none := by
          by_contra hsome
          exact hstart (if_neg hsome)
        cases hr' : r'.phase.emittedNo with
        | none => exact absurd (by simp [hr', -emittedNo]) hstart
        | some no =>
          have hheld := hacts.next.start hnone hr'
          have hused := h.used_eq hmem hheld
          rw [h.held r hmem no hheld] at hused
          have hlog : startOf r r' = [no] := by simp [hnone, hr', -emittedNo]
          rw [hlog, length_append, length_singleton, range'_concat, ← h.serial r.operation, hused]
          congr 2
          omega
    · rw [append_nil]
      exact h.serial o
  · -- the used count of a held budget is changed by its holder alone
    intro u hu no hno
    show s'.used u.operation = no
    rcases getElem?_of_mem hu with ⟨j, hj⟩
    by_cases hij : i = j
    · subst hij
      have hlt := (List.getElem?_eq_some_iff.mp hget).1
      obtain rfl : r' = u := by simpa [hlt] using hj
      rw [hacts.operation]
      rcases hacts.next.held hno with ⟨hheld, hattempt⟩ | ⟨hholding, hreserved⟩
      · have hused := hacts.changes.used r.operation
        have hattempt' : r'.phase.holdsAttempt = true := by
          revert hno
          cases r'.phase <;> simp
        rw [if_pos rfl, gain, hattempt, hattempt', sub_self, add_zero] at hused
        rw [← h.held r hmem no hheld]
        exact_mod_cast hused
      · exact used_of_reserved hact hholding hreserved
    · rw [getElem?_set_ne hij] at hj
      have hold := h.held u (mem_of_getElem? hj) no hno
      have hused := hacts.changes.used u.operation
      rw [← hold]
      by_cases hop : u.operation = r.operation
      · have hlocked : u.phase.holdsLock = true := by
          revert hno
          cases u.phase <;> simp
        have hsame : r.phase.holdsAttempt = r'.phase.holdsAttempt := by
          by_contra hne
          have hfree := h.exclusive hij hget hj hop (hacts.next.lock hne)
          rw [hlocked] at hfree
          cases hfree
        rw [if_pos hop.symm, gain, hsame, sub_self, add_zero] at hused
        exact_mod_cast hused
      · rw [if_neg (Ne.symm hop), add_zero] at hused
        exact_mod_cast hused

theorem numbered_after (c : Limits ι) (moves : List (Move ι Event)) : Numbered (after c moves) :=
  run_keeps enter (act c) Numbered (fun _ o h => h.spawn o)
    (fun _ _ _ _ _ _ h hget hact => h.act hget hact) moves numbered_initial

/-! ## Limits -/

theorem Next.credit {p : Phase} (h : Next p q) (hp : p ≠ .holding) :
    count q.holdsCredit ≤ count p.holdsCredit := by
  cases h <;> simp_all [count_nonneg]

theorem usedRetries_le_of_act {c : Limits ι} {e : Event} (h : act c s r e = some (s', r'))
    (hs : s.usedRetries ≤ c.maxTotalRetries) : s'.usedRetries ≤ c.maxTotalRetries := by
  by_cases hholding : r.phase = .holding
  · rcases r with ⟨o, phase⟩
    obtain rfl : phase = .holding := hholding
    simp only [act] at h
    split at h
    · cases h
      exact hs
    split at h
    · split at h
      · rename_i s₁ hclaim
        cases h
        unfold claimCredit at hclaim
        split at hclaim
        · rename_i hlt
          cases hclaim
          exact hlt
        · cases hclaim
      · cases h
        exact hs
    · cases h
      exact hs
  · have hacts := acts_of_act h
    have hcredit := hacts.next.credit hholding
    have hmoves := hacts.changes.usedRetries
    rw [gain] at hmoves
    omega

theorem usedRetries_le (c : Limits ι) (moves : List (Move ι Event)) :
    (after c moves).shared.usedRetries ≤ c.maxTotalRetries := by
  let within : Pool (Counters ι) (Call ι) → Prop := fun p =>
    p.shared.usedRetries ≤ c.maxTotalRetries
  have hstart : within ⟨.initial, []⟩ := Nat.zero_le _
  exact run_keeps enter (act c) within (fun _ _ h => h)
    (fun _ _ _ _ _ _ h _ hact => usedRetries_le_of_act hact h) moves hstart

/-! ## Sums over all calls -/

theorem usedRetries_eq (c : Limits ι) (moves : List (Move ι Event)) :
    ((after c moves).shared.usedRetries : ℤ) =
      total (fun r => count r.phase.holdsCredit) (after c moves).threads := by
  have h := count_eq_sum enter (shares_usedRetries c) (fun _ => rfl) .initial moves
  exact h.trans (Int.zero_add _)

theorem retries_eq (c : Limits ι) (moves : List (Move ι Event)) :
    ((after c moves).shared.retries : ℤ) =
      total (fun r => count r.phase.startedRetry) (after c moves).threads := by
  have h := count_eq_sum enter (shares_retries c) (fun _ => rfl) .initial moves
  exact h.trans (Int.zero_add _)

theorem active_eq (c : Limits ι) (moves : List (Move ι Event)) :
    ((after c moves).shared.active : ℤ) =
      total (fun r => count r.phase.holdsSlot) (after c moves).threads := by
  have h := count_eq_sum enter (shares_active c) (fun _ => rfl) .initial moves
  exact h.trans (Int.zero_add _)

/-! ## Where no call is reserving -/

/-- Outside a reservation a call holds what its start, and its running callable, account for. -/
theorem Phase.settled {p : Phase} (h : p.midReservation = false) :
    p.holdsAttempt = p.emittedNo.isSome ∧ p.holdsCredit = p.startedRetry ∧
      p.holdsSlot = p.unfinished := by
  cases p <;> simp_all

/-- Every count where no call is between its reservation and its commit, the limit of the ledger, and
that a rejected call and a call whose started sink raised have changed nothing. -/
theorem counts_after (c : Limits ι) (moves : List (Move ι Event)) :
    (after c moves).shared.usedRetries ≤ c.maxTotalRetries ∧
    ((∀ r ∈ (after c moves).threads, r.phase.midReservation = false) →
      (∀ o, (after c moves).shared.used o = ((after c moves).shared.attemptNos o).length ∧
        (after c moves).shared.attemptNos o =
          List.range' 1 ((after c moves).shared.attemptNos o).length) ∧
      (after c moves).shared.usedRetries = (after c moves).shared.retries ∧
      (after c moves).shared.active =
        (after c moves).threads.countP (fun r => r.phase.unfinished)) ∧
    ∀ i r, (after c moves).threads[i]? = some r → r.phase = .rejected ∨ r.phase = .raised →
      (∀ o, changeBy enter (act c) (fun s => (s.used o : ℤ)) i ⟨.initial, []⟩ moves = 0 ∧
        changeBy enter (act c) (fun s => ((s.attemptNos o).length : ℤ)) i ⟨.initial, []⟩ moves = 0) ∧
      changeBy enter (act c) (fun s => (s.usedRetries : ℤ)) i ⟨.initial, []⟩ moves = 0 ∧
      changeBy enter (act c) (fun s => (s.active : ℤ)) i ⟨.initial, []⟩ moves = 0 := by
  have hnum := numbered_after c moves
  refine ⟨usedRetries_le c moves, ?_, ?_⟩
  · intro hrest
    refine ⟨fun o => ⟨?_, hnum.serial o⟩, ?_, ?_⟩
    · have hsame : total (share holdsAttempt o) (after c moves).threads =
          total (share (fun p => p.emittedNo.isSome) o) (after c moves).threads := by
        apply total_congr
        intro r hr
        unfold share
        rw [(Phase.settled (hrest r hr)).1]
      rw [← hnum.used o, ← hnum.starts o] at hsame
      exact_mod_cast hsame
    · have hsame : total (fun r : Call ι => count r.phase.holdsCredit) (after c moves).threads =
          total (fun r => count r.phase.startedRetry) (after c moves).threads := by
        apply total_congr
        intro r hr
        rw [(Phase.settled (hrest r hr)).2.1]
      rw [← usedRetries_eq, ← retries_eq] at hsame
      exact_mod_cast hsame
    · have hsame : total (fun r : Call ι => count r.phase.holdsSlot) (after c moves).threads =
          total (fun r => if r.phase.unfinished = true then 1 else 0) (after c moves).threads := by
        apply total_congr
        intro r hr
        rw [(Phase.settled (hrest r hr)).2.2]
        rfl
      rw [← active_eq, total_ite (fun r : Call ι => r.phase.unfinished = true)] at hsame
      simpa [-Phase.unfinished] using hsame
  · intro i r hget hend
    have hnothing : ∀ f : Phase → Bool, f .rejected = false → f .raised = false →
        count (f r.phase) = 0 := by
      intro f hrejected hraised
      rcases hend with h | h
      · rw [h, hrejected, count_false]
      · rw [h, hraised, count_false]
    have hshare : ∀ (f : Phase → Bool) (o : ι), f .rejected = false → f .raised = false →
        share f o r = 0 := by
      intro f o hrejected hraised
      unfold share
      rw [hnothing f hrejected hraised, ite_self]
    have henter : ∀ (f : Phase → Bool) (o b : ι), f .entered = false → share f o (enter b) = 0 := by
      intro f o b hf
      simp [share, enter, hf]
    refine ⟨fun o => ⟨?_, ?_⟩, ?_, ?_⟩
    · exact changeBy_eq_zero (shares_used c o) (fun b => henter _ o b rfl) hget (hshare _ o rfl rfl)
    · exact changeBy_eq_zero (shares_starts c o) (fun b => henter _ o b rfl) hget
        (hshare _ o rfl rfl)
    · exact changeBy_eq_zero (shares_usedRetries c) (fun _ => rfl) hget (hnothing _ rfl rfl)
    · exact changeBy_eq_zero (shares_active c) (fun _ => rfl) hget (hnothing _ rfl rfl)

/-- One attempt runs to its end; the start of its retry raises and is taken back. -/
def sampleSchedule : List (Move Unit Event) :=
  .spawn () :: List.replicate 11 (.act 0 .ok) ++
    .spawn () :: List.replicate 8 (.act 1 .ok) ++ List.replicate 5 (.act 1 .fails)

example : (after ⟨fun _ => 2, 1, 1⟩ sampleSchedule).shared =
      ⟨fun _ => 1, fun _ => false, 0, 0, [((), 1)]⟩ ∧
    (after ⟨fun _ => 2, 1, 1⟩ sampleSchedule).threads = [⟨(), .finished 1⟩, ⟨(), .raised⟩] := by
  constructor
  · ext <;> rfl
  · rfl

end AttemptCounts
