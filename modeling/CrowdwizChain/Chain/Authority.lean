import CrowdwizChain.Chain.Types
import CrowdwizChain.Lib.Quorum
import Mathlib.Data.List.AList
import Mathlib.Data.List.Sort

/-!
# Authorities

`sign_state` and `verify_authority` of `protocol/transaction.cpp`. An authority is a threshold and
some keys, addresses and accounts with weights. It is satisfied by the signatures of a transaction
if enough of its entries are: keys that have signed, addresses of keys that have signed, and
accounts that have approved, or whose active authority is satisfied in turn. The search goes down to
a depth, and remembers the accounts that it has found to approve.

Keys and addresses are types of their own here; a key has five addresses. The look-up of an address
that belongs to no key at hand reads the key behind the end of a map, which the language leaves
undefined: what is read is a parameter of the model, `past`.
-/

namespace CrowdwizChain

universe u v

/-- `authority` -/
structure Authority (κ : Type u) (α : Type v) where
  weightThreshold : Nat := 0
  accountAuths : List (AccountId × Nat) := []
  keyAuths : List (κ × Nat) := []
  addressAuths : List (α × Nat) := []

/-- The addresses of a key: `address(pts_address(key, compressed, version))` and `address(key)`. -/
structure AddressScheme (κ : Type u) (α : Type v) where
  pts : κ → Bool → Nat → α
  plain : κ → α

/-- The five addresses under which a key is looked up. -/
def AddressScheme.addresses {κ : Type u} {α : Type v} (scheme : AddressScheme κ α) (k : κ) :
    List α :=
  [scheme.pts k false 56, scheme.pts k true 56, scheme.pts k false 0, scheme.pts k true 0,
    scheme.plain k]

variable {κ : Type u} {α : Type v} [DecidableEq κ] [DecidableEq α]

/-- A map from addresses to the keys that they belong to. -/
def AddressScheme.sigs (scheme : AddressScheme κ α) (keys : List κ) : AList fun _ : α => κ :=
  keys.foldl (fun m k => (scheme.addresses k).foldl (fun m a => m.insert a k) m) ∅

/-- `sign_state`, without the parts that do not change. -/
structure SignState (κ : Type u) (α : Type v) where
  /-- the keys that have signed, and whether their signatures were of use -/
  providedSignatures : AList fun _ : κ => Bool
  approvedBy : List AccountId
  /-- `available_address_sigs` and `provided_address_sigs`, which are made when they
  are first needed -/
  addressSigs : Option ((AList fun _ : α => κ) × AList fun _ : α => κ) := none

namespace SignState

/-- `provided_signatures[k] = true` -/
def use (s : SignState κ α) (k : κ) : SignState κ α :=
  { s with providedSignatures := s.providedSignatures.insert k true }

/-- The constructor of `sign_state`, and the approvals that `verify_authority` adds. -/
def start (sigs : List κ) (approvals : List AccountId) : SignState κ α where
  providedSignatures := sigs.foldl (fun m k => m.insert k false) ∅
  approvedBy := grapheneTempAccount :: approvals

/-- `sign_state::signed_by` for a key -/
def signedByKey (available : List κ) (k : κ) (s : SignState κ α) : Bool × SignState κ α :=
  match s.providedSignatures.lookup k with
  | none => if k ∈ available then (true, s.use k) else (false, s)
  | some _ => (true, s.use k)

/-- `sign_state::signed_by` for an address -/
def signedByAddress (scheme : AddressScheme κ α) (past : α → κ) (available : List κ) (a : α)
    (s : SignState κ α) : Bool × SignState κ α :=
  let sigs := s.addressSigs.getD (scheme.sigs available, scheme.sigs s.providedSignatures.keys)
  let s := { s with addressSigs := some sigs }
  match sigs.2.lookup a with
  | none =>
    match sigs.1.lookup a with
    | some k => if k ∈ available then (true, s.use k) else (false, s)
    -- neither map has the address, and the iterator at the end of the second one is dereferenced
    | none => (true, s.use (past a))
  | some k => (true, s.use k)

/-- An entry for an account: the account has approved, or turns out to. -/
def approves (check : AccountId → SignState κ α → Bool × SignState κ α) (a : AccountId)
    (s : SignState κ α) : Bool × SignState κ α :=
  if a ∈ s.approvedBy then (true, s)
  else
    match check a s with
    | (true, s) => (true, { s with approvedBy := a :: s.approvedBy })
    | (false, s) => (false, s)

section Check

variable (scheme : AddressScheme κ α) (past : α → κ) (available : List κ)
  (getActive : AccountId → Option (Authority κ α))

/-- The loops of `sign_state::check_authority` for an authority, with the check of accounts as a
parameter. -/
def checkEntries (check : AccountId → SignState κ α → Bool × SignState κ α) :
    Option (Authority κ α) → SignState κ α → Bool × SignState κ α
  | none, s => (false, s)
  | some auth, s =>
    match Quorum.count (2 ^ 32) (signedByKey available) auth.weightThreshold auth.keyAuths 0 s with
    | (none, s) => (true, s)
    | (some total, s) =>
      match Quorum.count (2 ^ 32) (signedByAddress scheme past available) auth.weightThreshold
        auth.addressAuths total s with
      | (none, s) => (true, s)
      | (some total, s) =>
        match Quorum.count (2 ^ 32) (approves check) auth.weightThreshold auth.accountAuths total
          s with
        | (none, s) => (true, s)
        | (some total, s) => (decide (auth.weightThreshold ≤ total), s)

/-- `sign_state::check_authority` for an authority; the number is what is left of
`max_recursion`. -/
def checkAuthority : Nat → Option (Authority κ α) → SignState κ α → Bool × SignState κ α
  | 0 => checkEntries scheme past available fun _ s => (false, s)
  | depth + 1 =>
    checkEntries scheme past available fun a s => checkAuthority depth (getActive a) s

/-- `sign_state::check_authority` for an account -/
def checkAccount (maxRecursion : Nat) (a : AccountId) (s : SignState κ α) : Bool × SignState κ α :=
  if a ∈ s.approvedBy then (true, s)
  else checkAuthority scheme past available getActive maxRecursion (getActive a) s

end Check

/-- `!sign_state::remove_unused_signatures()` -/
def allUsed (s : SignState κ α) : Bool := s.providedSignatures.entries.all fun e => e.2

end SignState

/-- What an operation asks for, `operation_get_required_authorities`. -/
structure RequiredAuthorities (κ : Type u) (α : Type v) where
  active : List AccountId := []
  owner : List AccountId := []
  other : List (Authority κ α) := []

/-- The arguments of `verify_authority`. -/
structure AuthorityInput (κ : Type u) (α : Type v) where
  ops : List (RequiredAuthorities κ α)
  sigs : List κ
  getActive : AccountId → Option (Authority κ α)
  getOwner : AccountId → Option (Authority κ α)
  maxRecursionDepth : Nat
  allowCommittee : Bool
  activeApprovals : List AccountId
  ownerApprovals : List AccountId

namespace AuthorityInput

variable (i : AuthorityInput κ α)

/-- A `flat_set` of the accounts in a list. -/
def flatSet (l : List AccountId) : List AccountId := l.dedup.insertionSort (· ≤ ·)

/-- `required_active` -/
def requiredActive : List AccountId := flatSet (i.ops.flatMap RequiredAuthorities.active)

/-- `required_owner` -/
def requiredOwner : List AccountId := flatSet (i.ops.flatMap RequiredAuthorities.owner)

/-- `other` -/
def other : List (Authority κ α) := i.ops.flatMap RequiredAuthorities.other

section Verify

variable (scheme : AddressScheme κ α) (past : α → κ)

/-- `s.check_authority`, down to the depth of the call -/
def check (auth : Option (Authority κ α)) (s : SignState κ α) : Bool × SignState κ α :=
  SignState.checkAuthority scheme past [] i.getActive i.maxRecursionDepth auth s

/-- The check of an account in `required_owner` -/
def checkOwner (a : AccountId) (s : SignState κ α) : Bool × SignState κ α :=
  if a ∈ i.ownerApprovals then (true, s) else i.check scheme past (i.getOwner a) s

/-- The check of an account in `required_active` -/
def checkActive (a : AccountId) (s : SignState κ α) : Bool × SignState κ α :=
  match SignState.checkAccount scheme past [] i.getActive i.maxRecursionDepth a s with
  | (true, s) => (true, s)
  | (false, s) => i.check scheme past (i.getOwner a) s

/-- `verify_authority`: whether it returns without an exception -/
def verifyAuthority : Bool :=
  (i.allowCommittee || grapheneCommitteeAccount ∉ i.requiredActive) &&
    ((Quorum.requireAll (fun auth => i.check scheme past (some auth)) i.other
        (.start i.sigs (i.activeApprovals ++ i.ownerApprovals))).bind fun s =>
      (Quorum.requireAll (i.checkOwner scheme past) i.requiredOwner s).bind fun s =>
        Quorum.requireAll (i.checkActive scheme past) i.requiredActive s).any SignState.allUsed

end Verify

end AuthorityInput

end CrowdwizChain
