import CrowdwizChain.Chain.AccountStatus

/-!
# The expiry of statuses, on the index that the loop walks

`auto_reset_status` walks the accounts in the order of `referral_status_expiration_date`, from the
first one after second 1 to the first one that is not earlier than the head, and sets that very date
to zero under its own iterator. The reset account moves to the end of those with date zero, and the
iterator goes on from there. No account in the range is missed (`autoResetStatus_spec`), and the
loop comes to what `Database.autoResetStatus` says (`autoResetStatus_refines`). But after the first
reset it also comes by the accounts with a date of second 1, which it had skipped:
`status_sweep_iff` says when the sweep resets exactly the accounts that have expired.
-/

namespace CrowdwizChain

open OrderedTable Option List

/-- The status has run out: its date is later than second 1 and earlier than the head. -/
def Account.StatusExpired (a : Account) (now : Nat) : Prop :=
  1 < a.referralStatusExpirationDate ∧ a.referralStatusExpirationDate < now

instance (a : Account) (now : Nat) : Decidable (a.StatusExpired now) :=
  inferInstanceAs (Decidable (_ ∧ _))

/-- The accounts in the order of `by_status_expiration`. -/
abbrev StatusIndex := OrderedTable Account.referralStatusExpirationDate

namespace StatusIndex

/-- `database::auto_reset_status`, with the accounts noted that are reset. -/
def autoResetStatus (t : StatusIndex) (p : ChainParameters) (now : Nat) :
    Option (StatusIndex × List AccountId) :=
  sweep (fun _ => true) (·.resetStatus p) (fun ids id _ => some (ids ++ [id])) now t []

variable {t : StatusIndex} {now : Nat} (p : ChainParameters)

theorem foldlM_note {ρ : Type} (X : List (Σ _ : Nat, ρ)) (ids : List Nat) :
    X.foldlM (fun ids e => some (ids ++ [e.1])) ids = some (ids ++ X.keys) := by
  induction X generalizing ids with
  | nil => simp
  | cons e X ih => simp [ih]

/-- **The loop ends.** It resets nothing if no status has run out, and otherwise every account with
a date that is earlier than the head, each once. -/
theorem autoResetStatus_spec (hnow : 1 < now) :
    ∃ t' ids, autoResetStatus t p now = some (t', ids) ∧ ids.Nodup ∧
      (∀ id, id ∈ ids ↔ ∃ a, t.find id = some a ∧ a.referralStatusExpirationDate ≠ 0 ∧
        a.referralStatusExpirationDate < now ∧ ∃ i b, t.find i = some b ∧ b.StatusExpired now) ∧
      ∀ id, t'.find id = (t.find id).map fun a => if id ∈ ids then a.resetStatus p else a := by
  obtain ⟨X, t', hnodup, hX, -, hfind, hrun⟩ := sweep_ends (fun _ => true) (·.resetStatus p)
    (fun ids id _ => some (ids ++ [id])) (fun _ => rfl) t hnow fun _ _ _ _ => rfl
  refine ⟨t', X.keys, ?_, hnodup, fun id => ?_, hfind⟩
  · rw [autoResetStatus, hrun, foldlM_note]
    rfl
  · simp only [mem_keys, hX, mem_rows, Sigma.exists, Account.StatusExpired]

/-- The index does what the table of the accounts does. -/
theorem autoResetStatus_refines {db : Database} (hsame : ∀ id, t.find id = db.accounts.find id)
    (hnow : 1 < db.headBlockTime) : ∃ t' ids,
      autoResetStatus t db.parameters db.headBlockTime = some (t', ids) ∧
      ∀ id, t'.find id = db.autoResetStatus.accounts.find id := by
  obtain ⟨t', ids, hrun, -, hids, hfind⟩ := autoResetStatus_spec db.parameters (t := t) hnow
  refine ⟨t', ids, hrun, fun id => ?_⟩
  have hany : (db.accounts.rows.entries.any fun e => 1 < e.2.referralStatusExpirationDate ∧
      e.2.referralStatusExpirationDate < db.headBlockTime) = true ↔
      ∃ i b, t.find i = some b ∧ b.StatusExpired db.headBlockTime := by
    simp only [List.any_eq_true, decide_eq_true_eq, Sigma.exists, hsame, Table.find,
      ← AList.mem_lookup_iff, Option.mem_def, Account.StatusExpired]
  rw [hfind, Database.autoResetStatus]
  by_cases hexp : ∃ i b, t.find i = some b ∧ b.StatusExpired db.headBlockTime
  · rw [if_pos (hany.2 hexp), Table.find_modifyAll, hsame]
    refine Option.map_congr fun a ha => ?_
    rw [← hsame] at ha
    simp only [hids, ha, some.injEq, exists_eq_left', Nat.pos_iff_ne_zero, hexp, and_true]
  · have hnone : id ∉ ids := fun hin => by
      obtain ⟨-, -, -, -, hb⟩ := (hids id).1 hin
      exact hexp hb
    rw [if_neg (mt hany.1 hexp), ← hsame]
    simp [hnone]

/-- **When the sweep is exact.** Whatever the dates are, one run ends, resets exactly the accounts
whose status has run out, each once, and changes no other account, if and only if no account has a
date of second 1 while another one has run out, and, for a head that is not later than second 1,
none has a date from the head up to second 1. -/
theorem status_sweep_iff (t : StatusIndex) (now : Nat) :
    (∃ t' ids, autoResetStatus t p now = some (t', ids) ∧ ids.Nodup ∧
      (∀ id, id ∈ ids ↔ ∃ a, t.find id = some a ∧ a.StatusExpired now) ∧
      ∀ id, t'.find id = (t.find id).map fun a =>
        if a.StatusExpired now then a.resetStatus p else a) ↔
    ∀ id a, t.find id = some a → a.referralStatusExpirationDate ≤ 1 →
      a.referralStatusExpirationDate < now ∧ (a.referralStatusExpirationDate = 1 →
        ∀ i b, t.find i = some b → ¬b.StatusExpired now) := by
  rcases lt_or_ge 1 now with hnow | hnow
  · obtain ⟨t', ids, hrun, hnodup, hids, hfind⟩ := autoResetStatus_spec p (t := t) hnow
    rw [hrun]
    constructor
    · rintro ⟨_, _, heq, -, hexact, -⟩ id a ha hle
      cases heq
      refine ⟨hle.trans_lt hnow, fun hone i b hb hexp => ?_⟩
      obtain ⟨a', ha', hgt, -⟩ :=
        (hexact id).1 ((hids id).2 ⟨a, ha, by omega, by omega, i, b, hb, hexp⟩)
      cases ha.symm.trans ha'
      omega
    · intro hnone
      have hexact : ∀ id, id ∈ ids ↔ ∃ a, t.find id = some a ∧ a.StatusExpired now := by
        intro id
        rw [hids]
        constructor
        · rintro ⟨a, ha, hne, hlt, i, b, hb, hexp⟩
          refine ⟨a, ha, ?_, hlt⟩
          by_contra hle
          exact (hnone id a ha (by omega)).2 (by omega) i b hb hexp
        · rintro ⟨a, ha, hgt, hlt⟩
          exact ⟨a, ha, by omega, hlt, id, a, ha, hgt, hlt⟩
      refine ⟨t', ids, rfl, hnodup, hexact, fun id => ?_⟩
      rw [hfind]
      refine Option.map_congr fun a ha => ?_
      simp only [hexact, ha, some.injEq, exists_eq_left']
  · -- nothing can have run out, so the loop must not begin
    have hexp : ∀ a : Account, ¬a.StatusExpired now := by
      rintro a ⟨hgt, hlt⟩
      omega
    have hmeet : t.upperBound 1 = t.lowerBound now ↔ ∀ id a, t.find id = some a →
        a.referralStatusExpirationDate ≤ 1 → a.referralStatusExpirationDate < now := by
      rw [upperBound_eq, eq_comm, lowerBound_eq_iff (by omega)]
      refine forall₃_congr fun id a _ => ?_
      omega
    simp only [hexp, if_false, Option.map_id', and_false, exists_false, iff_false,
      not_false_eq_true, implies_true, and_true, ← hmeet]
    constructor
    · rintro ⟨t', ids, hrun, -, hids, hfind⟩
      by_contra hne
      rw [autoResetStatus, sweep] at hrun
      unfold markSweep at hrun
      rw [if_neg hne] at hrun
      split at hrun
      · cases hrun
      next id hup =>
      obtain ⟨a, ha, hgt⟩ := le_of_lowerBound (upperBound_eq t 1 ▸ hup)
      simp only [ha, if_true, bind_some] at hrun
      -- the first account is reset, and stays so
      rcases (find_markSweep hrun).2 ((hfind id).trans ha) with hreset | ⟨b, rfl⟩
      · rw [find_modify_self, ha] at hreset
        rw [← some.inj hreset] at hgt
        cases hgt
      · cases hgt
    · intro heq
      exact ⟨t, [], by rw [autoResetStatus, sweep]; unfold markSweep; rw [if_pos heq], nodup_nil,
        by simp, fun _ => rfl⟩

/-- An account with a date of second 1, and one whose status has run out. -/
def twoStatuses : StatusIndex :=
  (empty.create { referrer := 0, referralStatusExpirationDate := 1 }).create
    { referrer := 0, referralStatusExpirationDate := 5 }

/-- The account that the loop had skipped is reset as well. -/
theorem first_second_reset : (autoResetStatus twoStatuses {} 10).map Prod.snd = some [1, 0] := by
  decide

/-- The same two accounts in a table. -/
theorem autoResetStatus_refines_two :
    ∃ db : Database, (∀ id, twoStatuses.find id = db.accounts.find id) ∧
    ∃ t' ids, autoResetStatus twoStatuses db.parameters db.headBlockTime = some (t', ids) ∧
      ∀ id, t'.find id = db.autoResetStatus.accounts.find id := by
  let db := Database.start 10 [{ referrer := 0, referralStatusExpirationDate := 1 },
    { referrer := 0, referralStatusExpirationDate := 5 }] 0
  have hsame : ∀ id, twoStatuses.find id = db.accounts.find id := by
    rintro (_ | _ | id)
    · rfl
    · rfl
    · rfl
  exact ⟨db, hsame, autoResetStatus_refines hsame (by decide)⟩

end StatusIndex

end CrowdwizChain
