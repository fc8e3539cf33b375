import CrowdwizChain.Chain.Market

/-!
# Force settlement

A holder of a market-issued asset may ask to settle at the feed price. When the settlement date has
come, the order is matched with the least collateralized margin position, and with the next one as
long as there is something left. This module has one such match, `database::match(call, settle)`.
-/

namespace CrowdwizChain

open Exchange Option

namespace Market

variable (m : Market)

/-- `database::cancel_settle_order` -/
def cancelSettleOrder (id : Nat) : Option Market :=
  (m.settlements.find id).bind fun s =>
    (m.db.adjustBalance s.owner s.balance).map fun db =>
      { m with db := db, settlements := m.settlements.remove id }

/-- `database::fill_settle_order`, and whether the order is gone -/
def fillSettleOrder (id : Nat) (pays receives : Asset) : Option (Market × Bool) :=
  (m.settlements.find id).bind fun s =>
    let fees := m.calculateMarketFee receives
    (m.db.assets.find receives.assetId).bind fun _ =>
      (if 0 < fees.amount then m.db.accumulateFees fees else some m.db).bind fun db =>
        (db.adjustBalance s.owner ⟨receives.amount - fees.amount, receives.assetId⟩).map fun db =>
          if pays.amount < s.balance.amount then
            ({ m with
              db := db
              settlements := m.settlements.modify id fun s =>
                { s with balance := ⟨s.balance.amount - pays.amount, s.balance.assetId⟩ } },
              false)
          else ({ m with db := db, settlements := m.settlements.remove id }, true)

/-- The two fills of `match`, and the cancellation of a rest that is too small. -/
def settleFills (call settle : Nat) (callPays callReceives : Asset) (cullSettleOrder : Bool) :
    Option (Market × Int) :=
  (m.fillCallOrder call callPays callReceives).bind fun (m, _) =>
    (m.fillSettleOrder settle callReceives callPays).bind fun (m, _) =>
      if cullSettleOrder then (m.cancelSettleOrder settle).map fun m => (m, callReceives.amount)
      else some (m, callReceives.amount)

/-- `database::match` of a margin position and a settlement order, and the amount settled -/
def matchSettle (call settle : Nat) (matchPrice : Price) (maxSettlement : Int) :
    Option (Market × Int) :=
  (m.callOrders.find call).bind fun c =>
    (m.settlements.find settle).bind fun s =>
      if c.debtType = s.balance.assetId ∧ 0 < c.debt ∧ 0 < c.collateral ∧ 0 < s.balance.amount then
        let callReceives := min (min s.balance.amount maxSettlement) c.debt
        (Asset.mul ⟨callReceives, c.debtType⟩ matchPrice).bind fun callPays =>
          if callPays.amount = 0 then
            if callReceives = c.debt then
              m.settleFills call settle ⟨1, callPays.assetId⟩ ⟨callReceives, c.debtType⟩ false
            else if callReceives = s.balance.amount then
              (m.cancelSettleOrder settle).map fun m => (m, 0)
            else some (m, 0)
          else if callReceives = c.debt then
            (Asset.multiplyAndRoundUp ⟨callReceives, c.debtType⟩ matchPrice).bind fun callPays =>
              m.settleFills call settle callPays ⟨callReceives, c.debtType⟩ false
          else
            (callPays.multiplyAndRoundUp matchPrice).bind fun callReceives' =>
              m.settleFills call settle callPays callReceives'
                (callReceives = s.balance.amount && callReceives'.amount ≠ s.balance.amount)
      else none

end Market

end CrowdwizChain
