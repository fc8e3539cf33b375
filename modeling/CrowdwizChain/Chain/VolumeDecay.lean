import CrowdwizChain.Chain.Referral

/-!
# The decay of volumes

What `get_pv` and `get_nv` return while nothing updates the volume and the head moves on.
They are meant to be a straight line from the stored volume, at the time of the update, to
zero, a statistic period later.

They are, as long as `volume * seconds` fits into `uint64_t`. With the default period of ninety days
and the largest supply this is so for five hours after the update; then the product wraps, and the
volume jumps back up (`Database.volume_decays_iff`).
-/

namespace CrowdwizChain

open Option Nat

/-! ### The line -/

/-- What is left of a volume some seconds after its update, for a statistic period `T`. -/
def remaining (v T seconds : Nat) : Int :=
  let decrease := toInt64 ((v * seconds % 2 ^ 64 / T : Nat))
  if decrease < v then v - decrease else 0

/-- The line falls to zero, as far as `S` seconds after the update. -/
structure Falls (v T S : Nat) : Prop where
  antitone : ∀ m n, m ≤ n → n ≤ S → remaining v T n ≤ remaining v T m
  le_stored : ∀ n, n ≤ S → remaining v T n ≤ v
  ends : ∀ n, T ≤ n → n ≤ S → remaining v T n = 0

/-- The product does not wrap in `S` seconds, and for a period of one second it is not taken to be
negative either. Where the period is about as long as a `uint64_t` can say, the product may wrap as
long as the quotient is zero before it does. -/
def Fits (v T S : Nat) : Prop :=
  (v * S < 2 ^ 64 ∧ (T = 1 → v * S < 2 ^ 63)) ∨ (2 ^ 64 < T + v ∧ ∀ n < S, v * n % 2 ^ 64 < T)

instance (v T S : Nat) : Decidable (Fits v T S) := inferInstanceAs (Decidable (_ ∨ _))

variable {S T n v : Nat}

theorem toInt64_of_lt (h : n < 2 ^ 63) : toInt64 n = n := by
  unfold toInt64
  omega

/-- Where the quotient is a positive `int64_t`, it is taken from the volume. -/
theorem remaining_eq (h : v * n % 2 ^ 64 / T < 2 ^ 63) :
    remaining v T n = ((v - v * n % 2 ^ 64 / T : Nat) : Int) := by
  unfold remaining
  rw [toInt64_of_lt h]
  dsimp only
  split <;> omega

theorem quotient_lt (h : 2 ≤ T) : v * n % 2 ^ 64 / T < 2 ^ 63 := by
  have hmod : v * n % 2 ^ 64 < 2 ^ 64 := mod_lt _ (by decide)
  refine Nat.div_lt_of_lt_mul ?_
  calc v * n % 2 ^ 64 < 2 ^ 64 := hmod
    _ = 2 * 2 ^ 63 := by decide
    _ ≤ T * 2 ^ 63 := mul_le_mul_right _ h

theorem quotient_lt_of_fits (hT : 0 < T) (h : v * n < 2 ^ 64) (hone : T = 1 → v * n < 2 ^ 63) :
    v * n % 2 ^ 64 / T < 2 ^ 63 := by
  rcases lt_or_ge T 2 with hlt | hge
  · obtain rfl : T = 1 := by omega
    rw [Nat.div_one, Nat.mod_eq_of_lt h]
    exact hone rfl
  · exact quotient_lt hge

/-- Without a wrap, it is a line. -/
theorem falls_of_lt (hT : 0 < T) (h : v * S < 2 ^ 64) (hone : T = 1 → v * S < 2 ^ 63) :
    Falls v T S := by
  have hle : ∀ n, n ≤ S → v * n ≤ v * S := fun n hn => mul_le_mul_left v hn
  have hline : ∀ n, n ≤ S → remaining v T n = ((v - v * n / T : Nat) : Int) := by
    intro n hn
    have hlt : v * n < 2 ^ 64 := lt_of_le_of_lt (hle n hn) h
    have hq := quotient_lt_of_fits hT hlt fun h1 => lt_of_le_of_lt (hle n hn) (hone h1)
    rw [remaining_eq hq, mod_eq_of_lt hlt]
  refine ⟨fun m n hmn hn => ?_, fun n hn => ?_, fun n hTn hn => ?_⟩
  · rw [hline n hn, hline m (hmn.trans hn)]
    have hquot : v * m / T ≤ v * n / T := Nat.div_le_div_right (Nat.mul_le_mul_left v hmn)
    omega
  · rw [hline n hn]
    exact Int.ofNat_le.2 (sub_le _ _)
  · rw [hline n hn]
    have hquot : v ≤ v * n / T := by
      rw [le_div_iff_mul_le hT]
      exact mul_le_mul_left v hTn
    omega

/-- At the last second before the product wraps, and at the one at which it does. -/
theorem exists_wrap (h : 2 ^ 64 ≤ v * S) : ∃ n, n + 1 ≤ S ∧ v * n < 2 ^ 64 ∧
    2 ^ 64 ≤ v * n + v := by
  have hex : ∃ n, 2 ^ 64 ≤ v * n := ⟨S, h⟩
  obtain ⟨n, hn⟩ : ∃ n, Nat.find hex = n + 1 := by
    refine exists_eq_succ_of_ne_zero fun hzero => ?_
    have hspec := Nat.find_spec hex
    rw [hzero] at hspec
    omega
  have hspec := Nat.find_spec hex
  rw [hn, mul_succ] at hspec
  refine ⟨n, ?_, ?_, hspec⟩
  · rw [← hn]
    exact Nat.find_min' hex h
  · exact Nat.lt_of_not_le (Nat.find_min hex (by omega))

/-- One second after the product was close to the largest number, it is small. -/
theorem mul_succ_mod (hv : v < 2 ^ 64) (h : 2 ^ 64 ≤ v * n % 2 ^ 64 + v) :
    v * (n + 1) % 2 ^ 64 = v * n % 2 ^ 64 + v - 2 ^ 64 := by
  rw [mul_succ]
  omega

/-- When the product wraps, the volume jumps up, or it is not zero after the period. -/
theorem not_falls_of_wrap (hT : 0 < T) (hsum : T + v ≤ 2 ^ 64) (h : 2 ^ 64 ≤ v * S) :
    ¬Falls v T S := by
  intro hfalls
  obtain ⟨n, hn, hlt, hwrap⟩ := exists_wrap h
  have hmod : v * n % 2 ^ 64 = v * n := mod_eq_of_lt hlt
  have hnext : v * (n + 1) % 2 ^ 64 = v * n + v - 2 ^ 64 := by
    rw [mul_succ_mod (by omega) (by omega), hmod]
  have hsmall : v * (n + 1) % 2 ^ 64 / T ≤ v * n + v - 2 ^ 64 := by
    rw [hnext]
    exact div_le_self _ _
  have hafter : remaining v T (n + 1) = ((v - v * (n + 1) % 2 ^ 64 / T : Nat) : Int) := by
    refine remaining_eq ?_
    rcases lt_or_ge T 2 with hone | htwo
    · -- for a period of one second the product is the quotient
      have hlt' : v < 2 ^ 63 := by
        by_contra hge
        have hends := hfalls.ends 1 (by omega) (by omega)
        obtain rfl : T = 1 := by omega
        rw [remaining, Nat.mul_one, Nat.div_one, Nat.mod_eq_of_lt (by omega), toInt64] at hends
        split at hends <;> omega
      omega
    · exact quotient_lt htwo
  rcases lt_or_ge n T with hnT | hTn
  · have hdrop : v * (n + 1) % 2 ^ 64 / T + 1 ≤ v * n / T := by
      rw [hnext, ← add_div_right _ hT]
      exact Nat.div_le_div_right (by omega)
    have hquot : v * n % 2 ^ 64 / T < 2 ^ 63 := by
      rcases lt_or_ge T 2 with hone | htwo
      · obtain rfl : n = 0 := by omega
        simp
      · exact quotient_lt htwo
    have hmono := hfalls.antitone n (n + 1) (by omega) hn
    rw [hafter, remaining_eq hquot, hmod] at hmono
    omega
  · have hends := hfalls.ends (n + 1) (by omega) hn
    rw [hafter] at hends
    omega

/-- For a period of one second, a product that is taken to be negative gives more than
the volume. -/
theorem not_falls_of_negative (hlt : v * S < 2 ^ 64) (h : 2 ^ 63 ≤ v * S) : ¬Falls v 1 S := by
  intro hfalls
  have hS : 0 < S := by
    rcases Nat.eq_zero_or_pos S with rfl | hpos
    · omega
    · exact hpos
  have hends := hfalls.ends S hS le_rfl
  unfold remaining toInt64 at hends
  dsimp only at hends
  split at hends <;> omega

/-- **The line falls to zero exactly if the product fits.** -/
theorem falls_iff (hv : v < 2 ^ 63) (hT : 0 < T) (hS : S < 2 ^ 32) : Falls v T S ↔ Fits v T S := by
  constructor
  · intro hfalls
    by_contra hnot
    rw [Fits, not_or] at hnot
    obtain ⟨hone, hlong⟩ := hnot
    rcases lt_or_ge (v * S) (2 ^ 64) with hlt | hge
    · obtain rfl : T = 1 := by
        by_contra hne
        exact hone ⟨hlt, fun h1 => absurd h1 hne⟩
      have hbig : 2 ^ 63 ≤ v * S := by
        by_contra hsmall
        exact hone ⟨hlt, fun _ => Nat.lt_of_not_le hsmall⟩
      exact not_falls_of_negative hlt hbig hfalls
    · rcases lt_or_ge (2 ^ 64) (T + v) with hsum | hsum
      · -- the quotient is one, and a second later it is zero
        obtain ⟨n, hn, hbig⟩ : ∃ n < S, T ≤ v * n % 2 ^ 64 := by
          by_contra hnone
          push Not at hnone
          exact hlong ⟨hsum, hnone⟩
        have hnext := mul_succ_mod (v := v) (n := n) (by omega) (by omega)
        have hzero : v * (n + 1) % 2 ^ 64 / T = 0 := div_eq_of_lt (by omega)
        have hpos : 0 < v * n % 2 ^ 64 / T := div_pos hbig hT
        have hmono := hfalls.antitone n (n + 1) (by omega) hn
        rw [remaining_eq (quotient_lt (by omega)), remaining_eq (quotient_lt (by omega)),
          hzero] at hmono
        omega
      · exact not_falls_of_wrap hT hsum hge hfalls
  · rintro (⟨hlt, hone⟩ | ⟨hsum, hsmall⟩)
    · exact falls_of_lt hT hlt hone
    · -- nothing is taken off before the last second
      have hq : ∀ n, v * n % 2 ^ 64 / T < 2 ^ 63 := fun n => quotient_lt (by omega)
      have hflat : ∀ n, n < S → remaining v T n = v := by
        intro n hn
        rw [remaining_eq (hq n), div_eq_of_lt (hsmall n hn)]
        rfl
      have hle : ∀ n, remaining v T n ≤ v := by
        intro n
        rw [remaining_eq (hq n)]
        exact Int.ofNat_le.2 (sub_le _ _)
      refine ⟨fun m n hmn hn => ?_, fun n _ => hle n, fun n hTn hn => by omega⟩
      rcases lt_or_ge m S with hm | hm
      · rw [hflat m hm]
        exact hle n
      · obtain rfl : m = n := by omega
        exact le_rfl

/-! ### The volumes of an account -/

namespace Database

/-- Head times from the update of a volume to some last one: what is returned for the volume does
not grow, is at most the stored volume, and is zero from the end of the statistic period on. -/
structure Decays (volumeAt : Nat → Option Int) (volume : Int) (update T last : Nat) : Prop where
  antitone : ∀ t t', update ≤ t → t ≤ t' → t' ≤ last →
    ∃ x x', volumeAt t = some x ∧ volumeAt t' = some x' ∧ x' ≤ x
  le_stored : ∀ t, update ≤ t → t ≤ last → ∃ x, volumeAt t = some x ∧ x ≤ volume
  ends : ∀ t, update + T ≤ t → t ≤ last → volumeAt t = some 0

variable {update : Nat}

theorem decayed_never (db : Database) (hT : 0 < db.parameters.referralStatisticSeconds)
    (volume : Int) :
    db.decayed volume 0 = some 0 := by
  simp [decayed, decreaseVol, pos_iff_ne_zero.1 hT]

theorem decayed_eq (db : Database) (hT : 0 < db.parameters.referralStatisticSeconds) {v n : Nat}
    (hv : v < 2 ^ 63) (hupdate : update ≠ 0) (hn : n < 2 ^ 32)
    (htime : db.headBlockTime = update + n) :
    db.decayed v update = some (remaining v db.parameters.referralStatisticSeconds n) := by
  have hseconds : toUInt64 ((db.headBlockTime : Int) - update) = n := by
    unfold toUInt64
    omega
  have hvolume : toUInt64 (v : Int) = v := by
    unfold toUInt64
    omega
  simp [decayed, decreaseVol, pos_iff_ne_zero.1 hT, hseconds, hvolume, hupdate, remaining]

theorem decays_iff_falls {db : Database} (hT : 0 < db.parameters.referralStatisticSeconds)
    {v last : Nat} (hv : v < 2 ^ 63) (hupdate : update ≠ 0) (hlast : last < 2 ^ 32) :
    Decays (fun t => { db with headBlockTime := t }.decayed v update) v update
        db.parameters.referralStatisticSeconds last ↔
      Falls v db.parameters.referralStatisticSeconds (last - update) ∨ last < update := by
  have hat : ∀ n, n ≤ last - update → { db with headBlockTime := update + n }.decayed v update =
      some (remaining v db.parameters.referralStatisticSeconds n) := by
    intro n hn
    exact decayed_eq { db with headBlockTime := update + n } hT hv hupdate (by omega) rfl
  constructor
  · intro h
    rcases lt_or_ge last update with hlt | hge
    · exact .inr hlt
    · left
      refine ⟨fun m n hmn hn => ?_, fun n hn => ?_, fun n hTn hn => ?_⟩
      · obtain ⟨x, x', hx, hx', hle⟩ :=
          h.antitone (update + m) (update + n) (by omega) (by omega) (by omega)
        rw [hat m (by omega)] at hx
        rw [hat n hn] at hx'
        obtain rfl := some.inj hx
        obtain rfl := some.inj hx'
        exact hle
      · obtain ⟨x, hx, hle⟩ := h.le_stored (update + n) (by omega) (by omega)
        rw [hat n hn] at hx
        obtain rfl := some.inj hx
        exact hle
      · have hends := h.ends (update + n) (by omega) (by omega)
        rw [hat n hn] at hends
        exact some.inj hends
  · rintro (h | hlt)
    · refine ⟨fun t t' ht htt' ht' => ?_, fun t ht ht' => ?_, fun t ht ht' => ?_⟩
      · obtain ⟨m, rfl⟩ := Nat.exists_eq_add_of_le ht
        obtain ⟨n, rfl⟩ := Nat.exists_eq_add_of_le (ht.trans htt')
        exact ⟨_, _, hat m (by omega), hat n (by omega), h.antitone m n (by omega) (by omega)⟩
      · obtain ⟨n, rfl⟩ := Nat.exists_eq_add_of_le ht
        exact ⟨_, hat n (by omega), h.le_stored n (by omega)⟩
      · obtain ⟨n, rfl⟩ := Nat.exists_eq_add_of_le (show update ≤ t by omega)
        rw [hat n (by omega), h.ends n (by omega) (by omega)]
    · exact ⟨fun t t' ht htt' ht' => by omega, fun t ht ht' => by omega, fun t ht ht' => by omega⟩

theorem decays_iff {db : Database} (hT : 0 < db.parameters.referralStatisticSeconds) {volume : Int}
    {last : Nat} (hnonneg : 0 ≤ volume) (hle : volume ≤ grapheneMaxShareSupply)
    (hlast : last < 2 ^ 32) :
    Decays (fun t => { db with headBlockTime := t }.decayed volume update) volume update
        db.parameters.referralStatisticSeconds last ↔
      update = 0 ∨ Fits volume.toNat db.parameters.referralStatisticSeconds (last - update) := by
  obtain ⟨v, rfl⟩ := Int.eq_ofNat_of_zero_le hnonneg
  have hv : v < 2 ^ 63 := by
    unfold grapheneMaxShareSupply at hle
    omega
  rcases eq_or_ne update 0 with rfl | hne
  · have hzero : ∀ t, { db with headBlockTime := t }.decayed v 0 = some 0 := fun t =>
      decayed_never { db with headBlockTime := t } hT v
    refine iff_of_true ⟨?_, ?_, ?_⟩ (.inl rfl)
    · exact fun t t' _ _ _ => ⟨0, 0, hzero t, hzero t', le_rfl⟩
    · exact fun t _ _ => ⟨0, hzero t, hnonneg⟩
    · exact fun t _ _ => hzero t
  · rw [decays_iff_falls hT hv hne hlast, falls_iff hv hT (by omega), Int.toNat_natCast]
    constructor
    · rintro (h | hlt)
      · exact .inr h
      · refine .inr (.inl ?_)
        simp [Nat.sub_eq_zero_of_le hlt.le]
    · rintro (h | h)
      · exact absurd h hne
      · exact .inl h

/-- **The decay of volumes.** The personal and the network volume of an account are non-increasing,
at most the stored volume, and zero from a statistic period after the update on, for every head time
up to `last`, exactly if they were never updated or the product fits until then. -/
theorem volume_decays_iff (db : Database) (s : AccountStatistics) (last : Nat)
    (hT : 0 < db.parameters.referralStatisticSeconds) (hlast : last < 2 ^ 32)
    (hpv : 0 ≤ s.personalVolumeInPeriod ∧ s.personalVolumeInPeriod ≤ grapheneMaxShareSupply)
    (hnv : 0 ≤ s.networkVolumeInPeriod ∧ s.networkVolumeInPeriod ≤ grapheneMaxShareSupply) :
    (Decays (fun t => { db with headBlockTime := t }.getPv s) s.personalVolumeInPeriod
        s.lastPvUpdateDate db.parameters.referralStatisticSeconds last ↔
      s.lastPvUpdateDate = 0 ∨ Fits s.personalVolumeInPeriod.toNat
        db.parameters.referralStatisticSeconds (last - s.lastPvUpdateDate)) ∧
    (Decays (fun t => { db with headBlockTime := t }.getNv s) s.networkVolumeInPeriod
        s.lastNvUpdateDate db.parameters.referralStatisticSeconds last ↔
      s.lastNvUpdateDate = 0 ∨ Fits s.networkVolumeInPeriod.toNat
        db.parameters.referralStatisticSeconds (last - s.lastNvUpdateDate)) :=
  ⟨decays_iff hT hpv.1 hpv.2 hlast, decays_iff hT hnv.1 hnv.2 hlast⟩

/-- A volume of ten coins decays, as far as the times of the chain go. -/
theorem volume_decays_iff_small : Decays (fun t => { start 0 [] 0 with headBlockTime := t }.getPv
      { personalVolumeInPeriod := 1000000, lastPvUpdateDate := 1600000000 })
      1000000 1600000000 7776000 (2 ^ 32 - 1) :=
  (volume_decays_iff (start 0 [] 0)
    { personalVolumeInPeriod := 1000000, lastPvUpdateDate := 1600000000 }
    (2 ^ 32 - 1) (by decide) (by decide) (by decide) (by decide)).1.2 (.inr (.inl (by decide)))

/-- **The volume jumps back.** With the default period, the largest volume grows between two seconds
of the sixth hour after its update, and ninety days after it nearly all of it is left. -/
theorem volume_jumps_back :
    let s : AccountStatistics :=
      { personalVolumeInPeriod := grapheneMaxShareSupply, lastPvUpdateDate := 1600000000 }
    { start 0 [] 0 with headBlockTime := 1600000000 + 18446 }.getPv s = some 997627829218107 ∧
    { start 0 [] 0 with headBlockTime := 1600000000 + 18447 }.getPv s = some 999999967087669 ∧
    { start 0 [] 0 with headBlockTime := 1600000000 + 7776000 }.getPv s = some 998724184031858 := by
  decide +kernel

end Database

end CrowdwizChain
