/-
# Idempotency keys of child operations

A key joins the key of the parent, the kind and the identifier of the child; a text that
is too long is cut and ends with a digest of the whole.  From one root every chain of
children has a key of its own, as long as no identifier contains the separator or is the
digest of a text that was cut.
-/
import AgoraHub.Fallible
import AgoraHub.Sha256

namespace IdempotencyKeys

open Fallible List PyText
open PyText (strip)

/-- One step down: the kind and the identifier of a child. -/
structure Step where
  kind : String
  identity : String
  kind_ne : kind ≠ ""
  identity_ne : identity ≠ ""
  kind_trimmed : strip kind = kind
  identity_trimmed : strip identity = identity
  kind_plain : ':' ∉ kind.toList

variable {s : Step}

theorem Step.ext {t : Step} (hkind : s.kind = t.kind) (hidentity : s.identity = t.identity) :
    s = t := by
  cases s
  cases t
  congr

/-- The text a key is made from. -/
def rawKey (parent kind identity : String) : String :=
  parent ++ ":" ++ kind ++ ":" ++ identity

theorem toList_rawKey (parent kind identity : String) : (rawKey parent kind identity).toList =
      (parent.toList ++ ':' :: kind.toList) ++ ':' :: identity.toList := by
  simp [rawKey]

section

variable (sha256 : String → HexDigest)

/-- `sha256(raw.encode("utf-8")).hexdigest()[:24]` -/
def shortDigest (raw : String) : String := String.ofList ((sha256 raw).text.toList.take 24)

/-- The key of a text that is too long. -/
def shortened (raw : String) (maxLength : ℤ) : String :=
  let digest := shortDigest sha256 raw
  let prefixLength := max 1 (maxLength - digest.length - 1)
  String.ofList (raw.toList.take prefixLength.toNat) ++ ":" ++ digest

def boundedKey (raw : String) (maxLength : ℤ) : String :=
  if raw.length ≤ maxLength then raw else shortened sha256 raw maxLength

/-- `derive_idempotency_key`; an error is the message of its `ValueError`. -/
def deriveIdempotencyKey (parentKey childKind childId : String) (maxLength : ℤ) :
    Except String String := do
  let parent := strip parentKey
  let kind := strip childKind
  let identity := strip childId
  require (parent ≠ "" ∧ kind ≠ "" ∧ identity ≠ "")
    "parent_key, child_kind, and child_id are required"
  require (32 ≤ maxLength) "max_length must be an integer greater than or equal to 32"
  return boundedKey sha256 (rawKey parent kind identity) maxLength

variable (root : String) (maxLength : ℤ)

/-- The key of a chain of children of `root`, the last step first. -/
def chainKey : List Step → Except String String
  | [] => .ok root
  | step :: before => do
    let parent ← chainKey before
    deriveIdempotencyKey sha256 parent step.kind step.identity maxLength

/-- The texts of a chain that are too long. -/
def longTexts : List Step → List String
  | [] => []
  | step :: before =>
    match chainKey sha256 root maxLength before with
    | .ok parent =>
      let raw := rawKey (strip parent) step.kind step.identity
      (if raw.length ≤ maxLength then [] else [raw]) ++ longTexts before
    | .error _ => longTexts before

end

variable {sha256 : String → HexDigest} {root : String} {maxLength : ℤ}

/-! ## One key -/

theorem length_shortDigest (raw : String) : (shortDigest sha256 raw).length = 24 := by
  rw [shortDigest, String.length_ofList, length_take, String.length_toList, (sha256 raw).length_eq]
  norm_num

variable {raw : String}

/-- A digest contains no separator and no white space. -/
theorem isHexDigit_of_mem_shortDigest {c : Char} (h : c ∈ (shortDigest sha256 raw).toList) :
    isHexDigit c = true := by
  rw [shortDigest, String.toList_ofList] at h
  exact (sha256 raw).hex c (mem_of_mem_take h)

theorem separator_notMem_shortDigest (raw : String) :
    ':' ∉ (shortDigest sha256 raw).toList := fun h => by
  have := isHexDigit_of_mem_shortDigest h
  simp [isHexDigit] at this

theorem toList_shortened (raw : String) (h : 32 ≤ maxLength) :
    (shortened sha256 raw maxLength).toList =
      raw.toList.take (maxLength - 25).toNat ++ ':' :: (shortDigest sha256 raw).toList := by
  have hprefix : max 1 (maxLength - (shortDigest sha256 raw).length - 1) = maxLength - 25 := by
    rw [length_shortDigest]
    omega
  simp [shortened, hprefix]

/-- A text that is too long gives a key of the full length. -/
theorem length_shortened (h : 32 ≤ maxLength) (hlong : ¬ raw.length ≤ maxLength) :
    (shortened sha256 raw maxLength).length = maxLength := by
  rw [← String.length_toList, toList_shortened raw h, length_append, length_take,
    length_cons, String.length_toList, String.length_toList, length_shortDigest]
  omega

/-- No key is longer than the bound. -/
theorem length_boundedKey_le (raw : String) (h : 32 ≤ maxLength) :
    (boundedKey sha256 raw maxLength).length ≤ maxLength := by
  by_cases hraw : raw.length ≤ maxLength
  · rwa [boundedKey, if_pos hraw]
  · rw [boundedKey, if_neg hraw, length_shortened h hraw]

variable {parent : String}

/-- A key begins as its parent does and ends in its identifier or in a digest, so it is
trimmed. -/
theorem strip_boundedKey (step : Step) (h : 32 ≤ maxLength) (hne : parent ≠ "")
    (htrimmed : strip parent = parent) :
    strip (boundedKey sha256 (rawKey parent step.kind step.identity) maxLength) =
      boundedKey sha256 (rawKey parent step.kind step.identity) maxLength := by
  obtain ⟨c, cs, hparent⟩ := exists_cons_of_ne_nil
    (fun hnil : parent.toList = [] => hne (String.toList_eq_nil_iff.mp hnil))
  have hidentity : step.identity.toList ≠ [] := fun hnil =>
    step.identity_ne (String.toList_eq_nil_iff.mp hnil)
  have hhead := head?_of_strip_eq_self htrimmed
  rw [hparent, head?_cons] at hhead
  by_cases hraw : (rawKey parent step.kind step.identity).length ≤ maxLength
  · rw [boundedKey, if_pos hraw]
    refine strip_eq_self ?_ ?_
    · rw [toList_rawKey, hparent]
      exact hhead
    · rw [toList_rawKey, getLast?_append_of_ne_nil _ (by simp),
        getLast?_cons_of_ne_nil hidentity]
      exact getLast?_of_strip_eq_self step.identity_trimmed
  · rw [boundedKey, if_neg hraw]
    have hdigest : (shortDigest sha256 (rawKey parent step.kind step.identity)).toList ≠ [] :=
      fun hnil => by
        have := @length_shortDigest sha256 (rawKey parent step.kind step.identity)
        rw [← String.length_toList, hnil] at this
        cases this
    refine strip_eq_self ?_ ?_
    · obtain ⟨n, hn⟩ : ∃ n, (maxLength - 25).toNat = n + 1 :=
        ⟨(maxLength - 26).toNat, by omega⟩
      rw [toList_shortened _ h, toList_rawKey, hparent, hn]
      exact hhead
    · rw [toList_shortened _ h, getLast?_append_of_ne_nil _ (by simp),
        getLast?_cons_of_ne_nil hdigest]
      exact fun c hc => HexDigest.isSpace_of_isHexDigit
        (isHexDigit_of_mem_shortDigest (mem_of_mem_getLast? hc))

/-- The last separator cuts a text in one way. -/
theorem append_separator_inj {a b c d : List Char} (hb : ':' ∉ b) (hd : ':' ∉ d)
    (h : a ++ ':' :: b = c ++ ':' :: d) : a = c ∧ b = d := by
  obtain ⟨e, hc, htail⟩ | ⟨e, ha, htail⟩ := append_eq_append_iff.mp h
  · cases e with
    | nil => exact ⟨by simpa using hc.symm, (List.cons.inj htail).2⟩
    | cons x e => exact absurd ((List.cons.inj htail).2 ▸ by simp) hb
  · cases e with
    | nil => exact ⟨by simpa using ha, (List.cons.inj htail).2.symm⟩
    | cons x e => exact absurd ((List.cons.inj htail).2 ▸ by simp) hd

variable {p : String}

theorem rawKey_inj {q : String} {t : Step} (hs : ':' ∉ s.identity.toList)
    (ht : ':' ∉ t.identity.toList) (h : rawKey p s.kind s.identity = rawKey q t.kind t.identity) :
    p = q ∧ s.kind = t.kind ∧ s.identity = t.identity := by
  have hlist := congrArg String.toList h
  rw [toList_rawKey, toList_rawKey] at hlist
  obtain ⟨hfront, hidentity⟩ := append_separator_inj hs ht hlist
  obtain ⟨hparent, hkind⟩ := append_separator_inj s.kind_plain t.kind_plain hfront
  exact ⟨String.toList_inj.mp hparent, String.toList_inj.mp hkind, String.toList_inj.mp hidentity⟩

/-- A short key that ends like a shortened one has its digest for an identifier. -/
theorem identity_eq_of_rawKey_eq_shortened (h : 32 ≤ maxLength) (hs : ':' ∉ s.identity.toList)
    (heq : rawKey p s.kind s.identity = shortened sha256 raw maxLength) :
    s.identity = shortDigest sha256 raw := by
  have hlist := congrArg String.toList heq
  rw [toList_rawKey, toList_shortened raw h] at hlist
  exact String.toList_inj.mp
    (append_separator_inj hs (separator_notMem_shortDigest raw) hlist).2

/-- Two equal keys have the same parent, kind and identifier. -/
theorem boundedKey_inj {q : String} {t : Step} (h : 32 ≤ maxLength) (hs : ':' ∉ s.identity.toList)
    (ht : ':' ∉ t.identity.toList) (hdigest : ¬ (rawKey p s.kind s.identity).length ≤ maxLength →
      ¬ (rawKey q t.kind t.identity).length ≤ maxLength →
      shortDigest sha256 (rawKey p s.kind s.identity) =
        shortDigest sha256 (rawKey q t.kind t.identity) →
      rawKey p s.kind s.identity = rawKey q t.kind t.identity)
    (hst : ¬ (rawKey q t.kind t.identity).length ≤ maxLength →
      s.identity ≠ shortDigest sha256 (rawKey q t.kind t.identity))
    (hts : ¬ (rawKey p s.kind s.identity).length ≤ maxLength →
      t.identity ≠ shortDigest sha256 (rawKey p s.kind s.identity))
    (heq : boundedKey sha256 (rawKey p s.kind s.identity) maxLength =
      boundedKey sha256 (rawKey q t.kind t.identity) maxLength) :
    p = q ∧ s.kind = t.kind ∧ s.identity = t.identity := by
  refine rawKey_inj hs ht ?_
  unfold boundedKey at heq
  split at heq <;> rename_i hp <;> split at heq <;> rename_i hq
  · exact heq
  · exact absurd (identity_eq_of_rawKey_eq_shortened h hs heq) (hst hq)
  · exact absurd (identity_eq_of_rawKey_eq_shortened h ht heq.symm) (hts hp)
  · refine hdigest hp hq (String.toList_inj.mp ?_)
    have hlist := congrArg String.toList heq
    rw [toList_shortened _ h, toList_shortened _ h] at hlist
    exact (append_separator_inj (separator_notMem_shortDigest _)
      (separator_notMem_shortDigest _) hlist).2

theorem boundedKey_ne (step : Step) (h : 32 ≤ maxLength) :
    boundedKey sha256 (rawKey parent step.kind step.identity) maxLength ≠ "" := by
  intro hempty
  have hnil := String.toList_eq_nil_iff.mpr hempty
  by_cases hraw : (rawKey parent step.kind step.identity).length ≤ maxLength
  · rw [boundedKey, if_pos hraw, toList_rawKey] at hnil
    cases (append_eq_nil_iff.mp hnil).2
  · rw [boundedKey, if_neg hraw, toList_shortened _ h] at hnil
    cases (append_eq_nil_iff.mp hnil).2

theorem deriveIdempotencyKey_eq {parentKey : String} (step : Step) (h : 32 ≤ maxLength)
    (hne : strip parentKey ≠ "") :
    deriveIdempotencyKey sha256 parentKey step.kind step.identity maxLength =
      .ok (boundedKey sha256 (rawKey (strip parentKey) step.kind step.identity)
        maxLength) := by
  rw [deriveIdempotencyKey, step.kind_trimmed, step.identity_trimmed,
    check_of_pos ⟨hne, step.kind_ne, step.identity_ne⟩, check_of_pos h]
  rfl

/-! ## Chains -/

/-- What a chain gives: a key with a text, trimmed and bounded once a step was taken. -/
structure IsKey (chain : List Step) (maxLength : ℤ) (key : String) : Prop where
  ne : strip key ≠ ""
  trimmed : chain ≠ [] → strip key = key
  bounded : chain ≠ [] → key.length ≤ maxLength

/-- A chain from a root with a text never fails. -/
theorem exists_chainKey (h : 32 ≤ maxLength) (hroot : strip root ≠ "") (chain : List Step) :
    ∃ key, chainKey sha256 root maxLength chain = .ok key ∧ IsKey chain maxLength key := by
  induction chain with
  | nil => exact ⟨root, rfl, hroot, fun hne => absurd rfl hne, fun hne => absurd rfl hne⟩
  | cons step before ih =>
    obtain ⟨parent, hparent, hkey⟩ := ih
    have htrimmed := @strip_boundedKey sha256 _ _ step h hkey.ne (strip_strip parent)
    refine ⟨_, ?_, ?_, fun _ => htrimmed, fun _ => length_boundedKey_le _ h⟩
    · rw [chainKey, hparent, ok_bind]
      exact deriveIdempotencyKey_eq step h hkey.ne
    · rw [htrimmed]
      exact boundedKey_ne step h

/-- The key before the last step, and the key after it. -/
theorem chainKey_cons (h : 32 ≤ maxLength) (hroot : strip root ≠ "") (step : Step)
    (before : List Step) : ∃ parent, chainKey sha256 root maxLength before = .ok parent ∧
      IsKey before maxLength parent ∧ chainKey sha256 root maxLength (step :: before) =
        .ok (boundedKey sha256 (rawKey (strip parent) step.kind step.identity)
          maxLength) := by
  obtain ⟨parent, hparent, hkey⟩ := @exists_chainKey sha256 _ _ h hroot before
  refine ⟨parent, hparent, hkey, ?_⟩
  rw [chainKey, hparent, ok_bind]
  exact deriveIdempotencyKey_eq step h hkey.ne

theorem mem_longTexts_cons {step : Step} {before : List Step}
    (hparent : chainKey sha256 root maxLength before = .ok parent) :
    raw ∈ longTexts sha256 root maxLength (step :: before) ↔
      (raw = rawKey (strip parent) step.kind step.identity ∧ ¬ raw.length ≤ maxLength) ∨
        raw ∈ longTexts sha256 root maxLength before := by
  rw [longTexts, hparent]
  by_cases hraw : (rawKey (strip parent) step.kind step.identity).length ≤ maxLength
  · simp only [if_pos hraw, nil_append]
    exact ⟨Or.inr, fun h => h.resolve_left fun ⟨heq, hlong⟩ => hlong (heq ▸ hraw)⟩
  · simp only [if_neg hraw, singleton_append, mem_cons]
    exact or_congr_left ⟨fun heq => ⟨heq, heq ▸ hraw⟩, And.left⟩

variable {key : String}

/-- A step lengthens a key, unless the text was cut. -/
theorem length_root_le (h : 32 ≤ maxLength) (hroot : strip root ≠ "") (chain : List Step)
    (hkey : chainKey sha256 root maxLength chain = .ok key) :
    (∃ raw ∈ longTexts sha256 root maxLength chain, ¬ raw.length ≤ maxLength ∧
      strip key = shortened sha256 raw maxLength) ∨
      (strip root).length + chain.length ≤ (strip key).length := by
  induction chain generalizing key with
  | nil =>
    cases hkey
    exact Or.inr (Nat.add_zero _).le
  | cons step before ih =>
    obtain ⟨parent, hparent, hisKey, hcons⟩ := @chainKey_cons sha256 _ _ h hroot step before
    obtain rfl := ok_inj (hcons.symm.trans hkey)
    rw [strip_boundedKey step h hisKey.ne (strip_strip parent)]
    by_cases hraw : (rawKey (strip parent) step.kind step.identity).length ≤ maxLength
    · rw [boundedKey, if_pos hraw]
      have hlength : (strip parent).length + 1 ≤
          (rawKey (strip parent) step.kind step.identity).length := by
        rw [← String.length_toList, ← String.length_toList, toList_rawKey, append_assoc,
          cons_append, length_append, length_cons]
        omega
      right
      rw [length_cons]
      obtain ⟨raw, -, hlong, hcut⟩ | hle := ih hparent
      · -- a parent that was cut has the full length already
        have := @length_shortened sha256 _ _ h hlong
        rw [← hcut] at this
        omega
      · omega
    · rw [boundedKey, if_neg hraw]
      exact Or.inl ⟨_, (mem_longTexts_cons hparent).mpr (Or.inl ⟨rfl, hraw⟩), hraw, rfl⟩

/-- The root has a key of its own. -/
theorem root_ne_key (h : 32 ≤ maxLength) (hroot : strip root ≠ "") {chain : List Step}
    (hne : chain ≠ []) (hcut : ∀ raw ∈ longTexts sha256 root maxLength chain,
      strip root ≠ shortened sha256 raw maxLength)
    (hkey : chainKey sha256 root maxLength chain = .ok key) : strip root ≠ strip key := by
  intro heq
  obtain ⟨raw, hmem, -, hshort⟩ | hle := length_root_le h hroot chain hkey
  · exact hcut raw hmem (heq.trans hshort)
  · have := length_pos_iff.mpr hne
    rw [heq] at hle
    omega

/-! ## Different chains -/

/-- What keeps the keys of chains with these steps and these texts that are too long apart:
no identifier contains the separator, the digests tell the texts apart, and neither an
identifier is such a digest nor the root the key of such a text. -/
structure Separated (sha256 : String → HexDigest) (root : String) (maxLength : ℤ)
    (steps : List Step) (texts : List String) : Prop where
  identity_plain : ∀ step ∈ steps, ':' ∉ step.identity.toList
  digest_inj : ∀ raw ∈ texts, ∀ raw' ∈ texts,
    shortDigest sha256 raw = shortDigest sha256 raw' → raw = raw'
  identity_ne : ∀ raw ∈ texts, ∀ step ∈ steps, step.identity ≠ shortDigest sha256 raw
  root_ne : ∀ raw ∈ texts, strip root ≠ shortened sha256 raw maxLength

/-- The steps of a chain can be read off its key. -/
theorem chain_eq_of_key_eq (h : 32 ≤ maxLength) (hroot : strip root ≠ "") {steps : List Step}
    {texts : List String} (hsep : Separated sha256 root maxLength steps texts)
    {chain other : List Step} (hsteps : chain ⊆ steps) (hsteps' : other ⊆ steps)
    (htexts : longTexts sha256 root maxLength chain ⊆ texts)
    (htexts' : longTexts sha256 root maxLength other ⊆ texts) {key' : String}
    (hkey : chainKey sha256 root maxLength chain = .ok key)
    (hkey' : chainKey sha256 root maxLength other = .ok key') (heq : strip key = strip key') :
    chain = other := by
  induction chain generalizing other key key' with
  | nil =>
    cases other with
    | nil => rfl
    | cons step before =>
      cases hkey
      exact absurd heq (root_ne_key h hroot (cons_ne_nil _ _)
        (fun raw hraw => hsep.root_ne raw (htexts' hraw)) hkey')
  | cons step before ih =>
    cases other with
    | nil =>
      cases hkey'
      exact absurd heq.symm (root_ne_key h hroot (cons_ne_nil _ _)
        (fun raw hraw => hsep.root_ne raw (htexts hraw)) hkey)
    | cons step' before' =>
      obtain ⟨p, hp, hisKey, hcons⟩ := @chainKey_cons sha256 _ _ h hroot step before
      obtain ⟨q, hq, hisKey', hcons'⟩ := @chainKey_cons sha256 _ _ h hroot step' before'
      obtain rfl := ok_inj (hcons.symm.trans hkey)
      obtain rfl := ok_inj (hcons'.symm.trans hkey')
      rw [strip_boundedKey step h hisKey.ne (strip_strip p),
        strip_boundedKey step' h hisKey'.ne (strip_strip q)] at heq
      have hmem := fun hlong => htexts ((mem_longTexts_cons hp).mpr (Or.inl ⟨rfl, hlong⟩))
      have hmem' := fun hlong => htexts' ((mem_longTexts_cons hq).mpr (Or.inl ⟨rfl, hlong⟩))
      have hstep := hsteps (mem_cons_self)
      have hstep' := hsteps' (mem_cons_self)
      obtain ⟨hparents, hkind, hidentity⟩ := boundedKey_inj h
        (hsep.identity_plain step hstep) (hsep.identity_plain step' hstep')
        (fun hlong hlong' => hsep.digest_inj _ (hmem hlong) _ (hmem' hlong'))
        (fun hlong => hsep.identity_ne _ (hmem' hlong) step hstep)
        (fun hlong => hsep.identity_ne _ (hmem hlong) step' hstep') heq
      have hbefore : before = before' := ih (subset_of_cons_subset hsteps)
        (subset_of_cons_subset hsteps')
        (fun raw hraw => htexts ((mem_longTexts_cons hp).mpr (Or.inr hraw)))
        (fun raw hraw => htexts' ((mem_longTexts_cons hq).mpr (Or.inr hraw))) hp hq hparents
      rw [hbefore, Step.ext hkind hidentity]

end IdempotencyKeys
