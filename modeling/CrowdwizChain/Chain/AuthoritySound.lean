import CrowdwizChain.Chain.Authority
import CrowdwizChain.Lib.Table
import Mathlib.Data.List.Induction

/-!
# Soundness of authorities

`Satisfied` says what it means that an authority is satisfied: there is a finite derivation, in
which every entry that is counted is a key that has signed, an address of such a key, an account
that has approved, or an account whose active authority is satisfied in turn. `verify_authority`
should accept only what is satisfied, and does so if every address in the authorities belongs to a
key that has signed. An address that belongs to no such key is always counted, whoever has signed
(`signedByAddress_eq_true`), and then nothing is left of the property
(`verify_authority_sound_iff`).
-/

namespace CrowdwizChain

open Option List AList Quorum SignState

universe u v

variable {κ : Type u} {α : Type v}

section Derivation

variable (scheme : AddressScheme κ α) (i : AuthorityInput κ α)

/-- An address is that of a key in the list. -/
def AddressScheme.Known (keys : List κ) (a : α) : Prop := ∃ k ∈ keys, a ∈ scheme.addresses k

mutual

/-- **An authority is satisfied** if some of its entries that are good have enough weight. -/
inductive Satisfied : Authority κ α → Prop
  | intro {auth : Authority κ α} {keys : List (κ × Nat)} {addresses : List (α × Nat)}
      {accounts : List (AccountId × Nat)} (hkeys : keys.Sublist auth.keyAuths)
      (haddresses : addresses.Sublist auth.addressAuths)
      (haccounts : accounts.Sublist auth.accountAuths) (hsigned : ∀ e ∈ keys, e.1 ∈ i.sigs)
      (hknown : ∀ e ∈ addresses, scheme.Known i.sigs e.1)
      (happroves : ∀ e ∈ accounts, Approves e.1)
      (hweight : auth.weightThreshold ≤
        weight keys + weight addresses + weight accounts) : Satisfied auth

/-- **An account approves**: it has done so beforehand, or its active authority is satisfied. -/
inductive Approves : AccountId → Prop
  | active_approval {a : AccountId} (h : a ∈ i.activeApprovals) : Approves a
  | owner_approval {a : AccountId} (h : a ∈ i.ownerApprovals) : Approves a
  | temp : Approves grapheneTempAccount
  | active {a : AccountId} {auth : Authority κ α} (ha : i.getActive a = some auth)
      (hauth : Satisfied auth) : Approves a

end

/-- Everything that the operations ask for is satisfied. -/
structure AuthorityInput.AllSatisfied : Prop where
  other : ∀ auth ∈ i.other, Satisfied scheme i auth
  owner : ∀ a ∈ i.requiredOwner, a ∈ i.ownerApprovals ∨
    ∃ auth, i.getOwner a = some auth ∧ Satisfied scheme i auth
  active : ∀ a ∈ i.requiredActive, Approves scheme i a ∨
    ∃ auth, i.getOwner a = some auth ∧ Satisfied scheme i auth

/-- The addresses in the authorities of an input are among the given ones. -/
structure AuthorityInput.AddressesIn (addresses : Set α) : Prop where
  other : ∀ auth ∈ i.other, ∀ e ∈ auth.addressAuths, e.1 ∈ addresses
  owner : ∀ {a auth}, i.getOwner a = some auth → ∀ e ∈ auth.addressAuths, e.1 ∈ addresses
  active : ∀ {a auth}, i.getActive a = some auth → ∀ e ∈ auth.addressAuths, e.1 ∈ addresses

end Derivation

variable [DecidableEq κ] [DecidableEq α] {scheme : AddressScheme κ α} {past : α → κ}

/-! ### Looking up addresses -/

omit [DecidableEq κ] in
theorem AddressScheme.lookup_sigs (scheme : AddressScheme κ α) (keys : List κ) (a : α) :
    (∀ k, (scheme.sigs keys).lookup a = some k → k ∈ keys ∧ a ∈ scheme.addresses k) ∧
      (scheme.Known keys a → ((scheme.sigs keys).lookup a).isSome) := by
  -- keys are inserted one after another, so the induction is from the last of them
  induction keys using List.reverseRecOn with
  | nil =>
    refine ⟨fun k hk => ?_, ?_⟩
    · cases hk
    · rintro ⟨k, hk, -⟩
      cases hk
  | append_singleton keys k ih =>
    have hlookup : (scheme.sigs (keys ++ [k])).lookup a =
        if a ∈ scheme.addresses k then some k else (scheme.sigs keys).lookup a := by
      rw [AddressScheme.sigs, foldl_append, foldl_cons, foldl_nil,
        lookup_foldl_insert (fun a => a), List.map_id']
      rfl
    rw [hlookup]
    split
    · next hmem =>
      refine ⟨fun k' hk' => ?_, fun _ => rfl⟩
      cases hk'
      exact ⟨by simp, hmem⟩
    · next hmem =>
      refine ⟨fun k' hk' => ?_, ?_⟩
      · obtain ⟨hk, ha⟩ := ih.1 k' hk'
        exact ⟨mem_append_left _ hk, ha⟩
      · rintro ⟨k', hk', ha⟩
        rcases mem_append.1 hk' with hk' | hk'
        · exact ih.2 ⟨k', hk', ha⟩
        · obtain rfl := mem_singleton.1 hk'
          exact absurd ha hmem

namespace SignState

variable {s : SignState κ α}

/-- The maps of addresses, where they have been made, are those of the keys that can be used. -/
def AddressesOk (scheme : AddressScheme κ α) (available : List κ) (s : SignState κ α) : Prop :=
  ∀ sigs, s.addressSigs = some sigs → sigs.1 = scheme.sigs available

omit [DecidableEq κ] in
theorem AddressesOk.fst_eq {available : List κ} (hs : AddressesOk scheme available s) :
    (s.addressSigs.getD (scheme.sigs available, scheme.sigs s.providedSignatures.keys)).1 =
      scheme.sigs available := by
  cases h : s.addressSigs with
  | none => rfl
  | some sigs => exact hs sigs h

/-- **A look-up of an address never fails**: whether the address belongs to a key or not, the answer
is yes. -/
theorem signedByAddress_eq_true (past : α → κ) {available : List κ}
    (hs : AddressesOk scheme available s) (a : α) :
    (signedByAddress scheme past available a s).1 = true := by
  rw [signedByAddress, hs.fst_eq]
  split
  · split
    · next k hk =>
      rw [if_pos ((scheme.lookup_sigs available a).1 k hk).1]
    · rfl
  · rfl

/-! ### What is kept -/

/-- **The state is honest**: the keys that are written down as signatures are signatures, the
addresses are theirs, and the accounts that are written down as approving do. -/
structure Honest (scheme : AddressScheme κ α) (i : AuthorityInput κ α) (s : SignState κ α) :
    Prop where
  signed : ∀ k, k ∈ s.providedSignatures ↔ k ∈ i.sigs
  addresses : ∀ sigs, s.addressSigs = some sigs →
      ∀ a, (∀ k, sigs.2.lookup a = some k → k ∈ i.sigs) ∧
      (scheme.Known i.sigs a → (sigs.2.lookup a).isSome)
  approved : ∀ a ∈ s.approvedBy, Approves scheme i a

/-- A check leaves the state honest, and something holds if it passes. -/
abbrev Sound (scheme : AddressScheme κ α) (i : AuthorityInput κ α) (P : Prop)
    (r : Bool × SignState κ α) : Prop :=
  Honest scheme i r.2 ∧ (r.1 = true → P)

variable {i : AuthorityInput κ α}

theorem mem_foldl_insert {l : List κ} {m : AList fun _ : κ => Bool} {k : κ} :
    k ∈ l.foldl (fun m k => m.insert k false) m ↔ k ∈ l ∨ k ∈ m := by
  rw [← lookup_isSome, ← lookup_isSome, lookup_foldl_insert (fun k => k), List.map_id']
  split <;> simp [*]

theorem Honest.start (scheme : AddressScheme κ α) (i : AuthorityInput κ α) :
    Honest scheme i (start i.sigs (i.activeApprovals ++ i.ownerApprovals)) where
  signed k := by
    rw [SignState.start, mem_foldl_insert]
    simp [notMem_empty]
  addresses sigs hsigs := by cases hsigs
  approved a ha := by
    rcases mem_cons.1 ha with rfl | ha
    · exact .temp
    · rcases mem_append.1 ha with ha | ha
      · exact .active_approval ha
      · exact .owner_approval ha

theorem Honest.use (h : Honest scheme i s) {k : κ} (hk : k ∈ i.sigs) :
    Honest scheme i (s.use k) where
  signed k' := by
    rw [SignState.use, mem_insert, h.signed]
    constructor
    · rintro (rfl | hk')
      · exact hk
      · exact hk'
    · exact .inr
  addresses := h.addresses
  approved := h.approved

theorem Honest.signedByKey (h : Honest scheme i s) (k : κ) :
    Sound scheme i (k ∈ i.sigs) (signedByKey [] k s) := by
  rw [SignState.signedByKey]
  split
  · exact ⟨h, by rintro ⟨⟩⟩
  · next b hb =>
    have hk : k ∈ i.sigs := (h.signed k).1 (lookup_isSome.1 (by rw [hb]; rfl))
    exact ⟨h.use hk, fun _ => hk⟩

theorem Honest.signedByAddress (h : Honest scheme i s) (past : α → κ) {a : α}
    (ha : scheme.Known i.sigs a) :
    Honest scheme i (signedByAddress scheme past [] a s).2 := by
  have hsigs : ∀ a, (∀ k, (s.addressSigs.getD
        (scheme.sigs [], scheme.sigs s.providedSignatures.keys)).2.lookup a = some k → k ∈ i.sigs) ∧
      (scheme.Known i.sigs a → ((s.addressSigs.getD
        (scheme.sigs [], scheme.sigs s.providedSignatures.keys)).2.lookup a).isSome) := by
    cases hsome : s.addressSigs with
    | some sigs => exact h.addresses sigs hsome
    | none =>
      intro a
      obtain ⟨hkeys, hknown⟩ := scheme.lookup_sigs s.providedSignatures.keys a
      refine ⟨fun k hk => (h.signed k).1 (hkeys k hk).1, ?_⟩
      rintro ⟨k, hk, ha⟩
      exact hknown ⟨k, (h.signed k).2 hk, ha⟩
  have hmake : Honest scheme i { s with addressSigs := some (s.addressSigs.getD
      (scheme.sigs [], scheme.sigs s.providedSignatures.keys)) } := by
    refine ⟨h.signed, ?_, h.approved⟩
    rintro sigs ⟨⟩
    exact hsigs
  obtain ⟨hkeys, hknown⟩ := hsigs a
  rw [SignState.signedByAddress]
  split
  · next hnone =>
    have hsome := hknown ha
    rw [hnone] at hsome
    cases hsome
  · next k hk => exact hmake.use (hkeys k hk)

variable {check : AccountId → SignState κ α → Bool × SignState κ α}

omit [DecidableEq κ] in
theorem Honest.approves (h : Honest scheme i s)
    (hcheck : ∀ a s, Honest scheme i s → Sound scheme i (Approves scheme i a) (check a s))
    (a : AccountId) :
    Sound scheme i (Approves scheme i a) (approves check a s) := by
  rw [SignState.approves]
  split
  · next hmem => exact ⟨h, fun _ => h.approved a hmem⟩
  · obtain ⟨hhonest, happroves⟩ := hcheck a s h
    split
    · next s' hres =>
      rw [hres] at hhonest happroves
      have ha := happroves rfl
      refine ⟨⟨hhonest.signed, hhonest.addresses, ?_⟩, fun _ => ha⟩
      rintro b (_ | ⟨_, hb⟩)
      · exact ha
      · exact hhonest.approved b hb
    · next s' hres =>
      rw [hres] at hhonest
      exact ⟨hhonest, by rintro ⟨⟩⟩

/-! ### Checks are sound -/

/-- What is good about an authority that has passed a check. -/
def Passed (scheme : AddressScheme κ α) (i : AuthorityInput κ α) (auth : Option (Authority κ α)) :
    Prop :=
  ∃ au, auth = some au ∧ Satisfied scheme i au

/-- The addresses of an authority belong to keys that have signed. -/
def AllKnown (scheme : AddressScheme κ α) (i : AuthorityInput κ α) (auth : Option (Authority κ α)) :
    Prop :=
  ∀ au, auth = some au → ∀ e ∈ au.addressAuths, scheme.Known i.sigs e.1

variable {auth : Option (Authority κ α)}

/-- **The loops over the entries of an authority**, if the check of accounts is sound and the
addresses belong to keys that have signed. -/
theorem Honest.checkEntries (past : α → κ) (h : Honest scheme i s)
    (hcheck : ∀ a s, Honest scheme i s → Sound scheme i (Approves scheme i a) (check a s))
    (hauth : AllKnown scheme i auth) :
    Sound scheme i (Passed scheme i auth) (checkEntries scheme past [] check auth s) := by
  cases auth with
  | none => exact ⟨h, by rintro ⟨⟩⟩
  | some au =>
    -- the three loops, each with the entries that it has counted
    have h1 := count_spec (2 ^ 32) au.weightThreshold (l := au.keyAuths)
      (fun e _ s (hs : Honest scheme i s) => hs.signedByKey e.1) 0 h
    rw [checkEntries]
    rcases hc1 : count (2 ^ 32) (SignState.signedByKey []) au.weightThreshold au.keyAuths 0 s
      with ⟨total1, s1⟩
    rw [hc1] at h1
    obtain ⟨hs1, keys, hkeys, hsigned, hweight1⟩ := h1
    have hsat : ∀ {addresses accounts}, addresses.Sublist au.addressAuths →
        accounts.Sublist au.accountAuths → (∀ e ∈ accounts, Approves scheme i e.1) →
        au.weightThreshold ≤
          weight keys + weight addresses + weight accounts →
        Passed scheme i (some au) := by
      intro addresses accounts haddresses haccounts happroves hweight
      exact ⟨au, rfl, .intro hkeys haddresses haccounts hsigned
        (fun e he => hauth au rfl e (haddresses.subset he)) happroves hweight⟩
    rcases total1 with _ | total1
    · refine ⟨hs1, fun _ => hsat (nil_sublist _) (nil_sublist _) (by simp) ?_⟩
      simpa using hweight1
    have h2 := count_spec (2 ^ 32) au.weightThreshold (l := au.addressAuths)
      (fun e he s (hs : Honest scheme i s) =>
        ⟨hs.signedByAddress past (hauth au rfl e he), fun _ => hauth au rfl e he⟩) total1 hs1
    dsimp only
    rcases hc2 : count (2 ^ 32) (SignState.signedByAddress scheme past []) au.weightThreshold
      au.addressAuths total1 s1 with ⟨total2, s2⟩
    rw [hc2] at h2
    obtain ⟨hs2, addresses, haddresses, -, hweight2⟩ := h2
    rw [getD_some] at hweight1
    rcases total2 with _ | total2
    · refine ⟨hs2, fun _ => hsat haddresses (nil_sublist _) (by simp) ?_⟩
      rw [Option.getD_none] at hweight2
      omega
    have h3 := count_spec (2 ^ 32) au.weightThreshold (l := au.accountAuths)
      (fun e _ s (hs : Honest scheme i s) => hs.approves hcheck e.1) total2 hs2
    dsimp only
    rcases hc3 : count (2 ^ 32) (SignState.approves check) au.weightThreshold au.accountAuths
      total2 s2 with ⟨total3, s3⟩
    rw [hc3] at h3
    obtain ⟨hs3, accounts, haccounts, happroves, hweight3⟩ := h3
    rw [getD_some] at hweight2
    rcases total3 with _ | total3
    · refine ⟨hs3, fun _ => hsat haddresses haccounts happroves ?_⟩
      rw [Option.getD_none] at hweight3
      omega
    · refine ⟨hs3, fun hle => hsat haddresses haccounts happroves ?_⟩
      rw [getD_some] at hweight3
      have hle := of_decide_eq_true hle
      omega

/-- **A check of an authority is sound**, at any depth. -/
theorem Honest.checkAuthority (past : α → κ) (hactive : ∀ a, AllKnown scheme i (i.getActive a))
    (depth : Nat) (hauth : AllKnown scheme i auth) (h : Honest scheme i s) :
    Sound scheme i (Passed scheme i auth)
      (checkAuthority scheme past [] i.getActive depth auth s) := by
  induction depth generalizing auth s with
  | zero => exact h.checkEntries past (fun a s hs => ⟨hs, by rintro ⟨⟩⟩) hauth
  | succ depth ih =>
    refine h.checkEntries past (fun a s hs => ?_) hauth
    obtain ⟨hhonest, hpassed⟩ := ih (hactive a) hs
    refine ⟨hhonest, fun hres => ?_⟩
    obtain ⟨au, hau, hsat⟩ := hpassed hres
    exact .active hau hsat

end SignState

namespace AuthorityInput

variable {i : AuthorityInput κ α} {s : SignState κ α}

open SignState

section

variable (past : α → κ) (hknown : i.AddressesIn {a | scheme.Known i.sigs a})

include hknown

theorem check_sound {auth : Option (Authority κ α)} (hauth : AllKnown scheme i auth)
    (hs : Honest scheme i s) :
    Sound scheme i (Passed scheme i auth) (i.check scheme past auth s) :=
  Honest.checkAuthority past (fun _ _ => hknown.active) i.maxRecursionDepth hauth hs

variable (a : AccountId) (hs : Honest scheme i s)

include hs

theorem checkOwner_sound :
    Sound scheme i (a ∈ i.ownerApprovals ∨ Passed scheme i (i.getOwner a))
      (i.checkOwner scheme past a s) := by
  rw [checkOwner]
  split
  · next hmem => exact ⟨hs, fun _ => .inl hmem⟩
  · obtain ⟨hhonest, hpassed⟩ := check_sound past hknown (fun au hau => hknown.owner hau) hs
    exact ⟨hhonest, fun hres => .inr (hpassed hres)⟩

theorem checkActive_sound :
    Sound scheme i (Approves scheme i a ∨ Passed scheme i (i.getOwner a))
      (i.checkActive scheme past a s) := by
  have haccount : Sound scheme i (Approves scheme i a)
      (checkAccount scheme past [] i.getActive i.maxRecursionDepth a s) := by
    rw [checkAccount]
    split
    · next hmem => exact ⟨hs, fun _ => hs.approved a hmem⟩
    · obtain ⟨hhonest, hpassed⟩ := check_sound past hknown (fun au hau => hknown.active hau) hs
      refine ⟨hhonest, fun hres => ?_⟩
      obtain ⟨au, hau, hsat⟩ := hpassed hres
      exact .active hau hsat
  rw [checkActive]
  rcases hres : checkAccount scheme past [] i.getActive i.maxRecursionDepth a s with ⟨b, s'⟩
  rw [hres] at haccount
  cases b with
  | true => exact ⟨haccount.1, fun _ => .inl (haccount.2 rfl)⟩
  | false =>
    obtain ⟨hhonest, hpassed⟩ := check_sound past hknown (fun au hau => hknown.owner hau) haccount.1
    exact ⟨hhonest, fun hres => .inr (hpassed hres)⟩

end

/-- **What is verified is satisfied**, if all addresses belong to keys that have signed. -/
theorem allSatisfied_of_verify (hknown : i.AddressesIn {a | scheme.Known i.sigs a})
    (h : i.verifyAuthority scheme past = true) : i.AllSatisfied scheme := by
  obtain ⟨-, h⟩ := Bool.and_eq_true_iff.1 h
  obtain ⟨s, hs, -⟩ := (any_eq_true _ _).1 h
  obtain ⟨s1, h1, hs⟩ := bind_eq_some_iff.1 hs
  obtain ⟨s2, h2, h3⟩ := bind_eq_some_iff.1 hs
  have hcheck : ∀ auth ∈ i.other, ∀ s, Honest scheme i s →
      Sound scheme i (Passed scheme i (some auth)) (i.check scheme past (some auth) s) := by
    refine fun auth hauth s => check_sound past hknown ?_
    rintro au ⟨⟩
    exact hknown.other auth hauth
  have hother := requireAll_spec hcheck (Honest.start scheme i) h1
  have howner := requireAll_spec (fun a _ s hs => checkOwner_sound past hknown a hs) hother.1 h2
  have hactive := requireAll_spec (fun a _ s hs => checkActive_sound past hknown a hs) howner.1 h3
  refine ⟨fun auth hauth => ?_, howner.2, hactive.2⟩
  obtain ⟨au, ⟨⟩, hsat⟩ := hother.2 auth hauth
  exact hsat

/-! ### An address of nobody -/

/-- An authority that one key satisfies. -/
def keyAuthority (k : κ) : Authority κ α := { weightThreshold := 1, keyAuths := [(k, 1)] }

/-- An authority that one address satisfies. -/
def addressAuthority (a : α) : Authority κ α := { weightThreshold := 1, addressAuths := [(a, 1)] }

/-- One operation, which asks for an address, and for all keys that have signed so that no
signature is of no use. -/
def askFor (sigs : List κ) (a : α) : AuthorityInput κ α where
  ops := [{ other := addressAuthority a :: sigs.map keyAuthority }]
  sigs := sigs
  getActive _ := none
  getOwner _ := none
  maxRecursionDepth := 0
  allowCommittee := false
  activeApprovals := []
  ownerApprovals := []

variable (sigs : List κ) (a : α)

omit [DecidableEq κ] [DecidableEq α] in
theorem other_askFor :
    (askFor sigs a).other = addressAuthority a :: sigs.map keyAuthority := by
  simp [other, askFor]

theorem check_addressAuthority (hs : AddressesOk scheme [] s) :
    (askFor sigs a).check scheme past (some (addressAuthority a)) s =
      (true, (signedByAddress scheme past [] a s).2) := by
  have htrue := signedByAddress_eq_true past hs a
  rcases hres : signedByAddress scheme past [] a s with ⟨b, s'⟩
  obtain rfl : b = true := by
    rw [hres] at htrue
    exact htrue
  simp [check, askFor, checkAuthority, checkEntries, addressAuthority, Quorum.count, hres]

theorem check_keyAuthority {k : κ} (hk : k ∈ s.providedSignatures) :
    (askFor sigs a).check scheme past (some (keyAuthority k)) s = (true, s.use k) := by
  obtain ⟨b, hb⟩ := isSome_iff_exists.1 (lookup_isSome.2 hk)
  have hsigned : signedByKey [] k s = (true, s.use k) := by
    rw [signedByKey, hb]
  simp [check, askFor, checkAuthority, checkEntries, keyAuthority, Quorum.count, hsigned]

theorem requireAll_keyAuthority {l : List κ} (hl : ∀ k ∈ l, k ∈ s.providedSignatures) :
    requireAll (fun auth => (askFor sigs a).check scheme past (some auth))
      (l.map keyAuthority) s = some (l.foldl use s) := by
  induction l generalizing s with
  | nil => rfl
  | cons k l ih =>
    rw [map_cons, requireAll, check_keyAuthority sigs a (hl k mem_cons_self)]
    refine ih fun k' hk' => ?_
    rw [use, mem_insert]
    exact .inr (hl k' (mem_cons_of_mem k hk'))

omit [DecidableEq α] in
theorem lookup_foldl_use {l : List κ} {k : κ} :
    (l.foldl use s).providedSignatures.lookup k =
      if k ∈ l then some true else s.providedSignatures.lookup k := by
  have huse : (l.foldl use s).providedSignatures =
      l.foldl (fun m k => m.insert k true) s.providedSignatures :=
    (foldl_hom providedSignatures fun _ _ => rfl).symm
  rw [huse, lookup_foldl_insert (fun k => k), List.map_id']

theorem exists_use_signedByAddress (past : α → κ) (hs : AddressesOk scheme [] s) :
    ∃ k, (signedByAddress scheme past [] a s).2.providedSignatures =
    s.providedSignatures.insert k true := by
  rw [signedByAddress, hs.fst_eq]
  split
  · exact ⟨past a, rfl⟩
  · next k hk => exact ⟨k, rfl⟩

/-- **An address of nobody is no obstacle**: whatever the address, the operation is let through. -/
theorem verify_askFor (scheme : AddressScheme κ α) (past : α → κ) :
    (askFor sigs a).verifyAuthority scheme past = true := by
  have hs : AddressesOk scheme [] (start sigs [] : SignState κ α) := by
    rintro m ⟨⟩
  obtain ⟨k0, hk0⟩ := exists_use_signedByAddress a past hs
  have hstart : ∀ k, k ∈ (start sigs [] : SignState κ α).providedSignatures ↔ k ∈ sigs := by
    intro k
    rw [start, mem_foldl_insert]
    simp [notMem_empty]
  have hkeys : ∀ k ∈ sigs,
      k ∈ (signedByAddress scheme past [] a (start sigs [])).2.providedSignatures := by
    intro k hk
    rw [hk0, mem_insert]
    exact .inr ((hstart k).2 hk)
  have hrun : requireAll (fun auth => (askFor sigs a).check scheme past (some auth))
      (askFor sigs a).other (.start sigs []) = some (sigs.foldl use
          (signedByAddress scheme past [] a (start sigs [])).2) := by
    rw [other_askFor, requireAll, check_addressAuthority sigs a hs]
    exact requireAll_keyAuthority sigs a hkeys
  -- the signatures were all asked for, and what was read behind the end of the map has been used
  have hused : (sigs.foldl use
      (signedByAddress scheme past [] a (start sigs [])).2).allUsed = true := by
    refine List.all_eq_true.2 fun e he => ?_
    have hlookup := mem_lookup_iff.2 he
    rw [mem_def, lookup_foldl_use, hk0] at hlookup
    split at hlookup
    · exact (some.inj hlookup).symm
    · next hnot =>
      rcases eq_or_ne e.1 k0 with heq | hne
      · rw [heq, lookup_insert] at hlookup
        exact (some.inj hlookup).symm
      · rw [lookup_insert_ne hne] at hlookup
        exact absurd ((hstart e.1).1 (lookup_isSome.1 (by rw [hlookup]; rfl))) hnot
  show ((requireAll _ (askFor sigs a).other (start sigs [])).bind _).any _ = true
  rw [hrun]
  exact hused

omit [DecidableEq κ] [DecidableEq α] in
theorem not_allSatisfied_askFor (ha : ¬scheme.Known sigs a) :
    ¬(askFor sigs a).AllSatisfied scheme := by
  intro h
  have hmem : addressAuthority a ∈ (askFor sigs a).other := by
    exact mem_cons_self
  rcases h.other _ hmem with
    @⟨_, keys, addresses, accounts, hkeys, haddresses, haccounts, -, hknown, -, hweight⟩
  obtain rfl := sublist_nil.1 hkeys
  obtain rfl := sublist_nil.1 haccounts
  rcases addresses with _ | ⟨e, addresses⟩
  · exact absurd hweight (Nat.not_succ_le_zero 0)
  · have he : e ∈ [(a, 1)] := haddresses.subset mem_cons_self
    obtain rfl := mem_singleton.1 he
    exact ha (hknown _ mem_cons_self)

/-- **Verification is sound exactly for addresses of keys that have signed.** Given the keys that
have signed and the addresses that may occur in authorities: whatever the operations, the
authorities of accounts, the approvals and the depth, what `verify_authority` lets through is
satisfied, and an address counts only if it is that of a key at hand, if and only if all these
addresses are those of keys that have signed. -/
theorem verify_authority_sound_iff (scheme : AddressScheme κ α) (past : α → κ) (sigs : List κ)
    (addresses : Set α) : ((∀ i : AuthorityInput κ α, i.sigs = sigs → i.AddressesIn addresses →
        i.verifyAuthority scheme past = true → i.AllSatisfied scheme) ∧
        ∀ a ∈ addresses, ∀ available : List κ,
        (signedByAddress scheme past available a (start sigs [])).1 = true →
          scheme.Known (sigs ++ available) a) ↔ ∀ a ∈ addresses, scheme.Known sigs a := by
  constructor
  · rintro ⟨hsound, -⟩ a ha
    by_contra hunknown
    have haddresses : (askFor sigs a).AddressesIn addresses := by
      refine ⟨fun auth hauth e he => ?_, by rintro b auth ⟨⟩, by rintro b auth ⟨⟩⟩
      rw [other_askFor] at hauth
      rcases mem_cons.1 hauth with rfl | hauth
      · obtain rfl := mem_singleton.1 he
        exact ha
      · obtain ⟨k, -, rfl⟩ := List.mem_map.1 hauth
        cases he
    exact not_allSatisfied_askFor sigs a hunknown
      (hsound _ rfl haddresses (verify_askFor sigs a scheme past))
  · intro hknown
    refine ⟨?_, fun a ha available _ => ?_⟩
    · rintro i rfl haddresses hverify
      refine allSatisfied_of_verify ⟨fun auth hauth e he => ?_, fun hauth e he => ?_,
        fun hauth e he => ?_⟩ hverify
      · exact hknown e.1 (haddresses.other auth hauth e he)
      · exact hknown e.1 (haddresses.owner hauth e he)
      · exact hknown e.1 (haddresses.active hauth e he)
    · obtain ⟨k, hk, hmem⟩ := hknown a ha
      exact ⟨k, mem_append_left _ hk, hmem⟩

/-- Keys and addresses are numbers, and a key is its own address. -/
def sameNumber : AddressScheme Nat Nat := ⟨fun k _ _ => k, fun k => k⟩

/-- Key 1 has signed. An operation that asks for the address 7 is let through, whatever is read
behind the end of the map, and is not satisfied. -/
theorem address_of_nobody_is_counted : ¬(askFor [1] 7).AllSatisfied sameNumber ∧
      ∀ past : Nat → Nat, (askFor [1] 7).verifyAuthority sameNumber past = true := by
  refine ⟨not_allSatisfied_askFor [1] 7 ?_, verify_askFor [1] 7 sameNumber⟩
  rintro ⟨k, hk, ha⟩
  obtain rfl := mem_singleton.1 hk
  revert ha
  decide

end AuthorityInput

end CrowdwizChain
