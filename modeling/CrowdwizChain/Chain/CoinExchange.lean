import CrowdwizChain.Chain.BitassetUpdate

/-!
# Gold and silver

`buy_gcwd_evaluator` of `financial_evaluator.cpp` sells a unit of asset 1 for the core asset, at a
price that rises with every sale. `exchange_silver_evaluator` of `poc_evaluator.cpp` takes units of
asset 4 back for as many of the core asset. Both write `current_supply` by hand, and neither looks
at whether the asset is market-issued.
-/

namespace CrowdwizChain

open Option Asset

/-- `buy_gcwd_operation` -/
structure BuyGcwdOperation where
  fee : Asset
  account : AccountId
  amount : Asset

/-- `buy_gcwd_operation::validate` -/
def BuyGcwdOperation.validate (op : BuyGcwdOperation) : Bool := 0 ≤ op.fee.amount

/-- `exchange_silver_operation` -/
structure ExchangeSilverOperation where
  fee : Asset
  account : AccountId
  amount : Asset

/-- `exchange_silver_operation::validate` -/
def ExchangeSilverOperation.validate (op : ExchangeSilverOperation) : Bool :=
  0 ≤ op.fee.amount ∧ 0 < op.amount.amount ∧ op.amount.assetId = 4

namespace Database

/-- `buy_gcwd_evaluator::do_evaluate` -/
def buyGcwdEvaluate (op : BuyGcwdOperation) (db : Database) : Bool :=
  hardforkCwd6Time ≤ db.headBlockTime && op.amount.assetId = 0 &&
    (db.accounts.find op.account).isSome && op.amount.amount = db.gcwdPrice &&
    op.amount.amount ≤ db.getBalance op.account op.amount.assetId &&
    (db.assets.find 1).any fun d => d.currentSupply + 1 ≤ d.maxSupply

/-- `buy_gcwd_evaluator::do_apply` -/
def buyGcwdApply (op : BuyGcwdOperation) (db : Database) : Option Database :=
  (db.adjustBalance op.account (-op.amount)).bind fun db =>
  (db.adjustBalance op.account ⟨1, 1⟩).bind fun db =>
  (db.modifyAsset 1 fun d => { d with currentSupply := d.currentSupply + 1 }).bind fun db =>
  (db.accumulateFees (core op.amount.amount)).map fun db =>
    { db with gcwdPrice := db.gcwdPrice + grapheneBlockchainPrecision * 10 }

/-- `buy_gcwd_evaluator` -/
def buyGcwd (db : Database) (op : BuyGcwdOperation) : Option Database :=
  if op.validate then
    db.applyOperation op.account op.fee (buyGcwdEvaluate op) (buyGcwdApply op)
  else none

/-- `exchange_silver_evaluator::do_evaluate` -/
def exchangeSilverEvaluate (op : ExchangeSilverOperation) (db : Database) : Bool :=
  hardforkCwd6Time ≤ db.headBlockTime && (db.accounts.find op.account).isSome &&
    (db.assets.find op.amount.assetId).isSome &&
    op.amount.amount ≤ db.getBalance op.account op.amount.assetId &&
    (db.assets.find 0).any fun d => d.currentSupply + op.amount.amount ≤ d.maxSupply

/-- `exchange_silver_evaluator::do_apply` -/
def exchangeSilverApply (op : ExchangeSilverOperation) (db : Database) : Option Database :=
  (db.adjustBalance op.account (-op.amount)).bind fun db =>
  (db.adjustBalance op.account (core op.amount.amount)).bind fun db =>
  (db.modifyCore fun d => { d with currentSupply := d.currentSupply + op.amount.amount }).bind
    fun db => db.modifyAsset 4 fun d =>
      { d with
        currentSupply :=
          if op.amount.amount ≤ d.currentSupply then d.currentSupply - op.amount.amount else 0 }

/-- `exchange_silver_evaluator` -/
def exchangeSilver (db : Database) (op : ExchangeSilverOperation) : Option Database :=
  if op.validate then
    db.applyOperation op.account op.fee (exchangeSilverEvaluate op) (exchangeSilverApply op)
  else none

variable {db db' db'' : Database} {x : AssetId}

/-- **What an operation enters** into the books is what its part in between does: the fee has been
accumulated before, and is taken from the payer at the end. -/
theorem operation_frame {c : Prop} [Decidable c] {payer : AccountId} {fee : Asset}
    {ev : Database → Bool} {ap : Database → Option Database}
    (h : (if c then db.applyOperation payer fee ev ap else none) = some db') :
    c ∧ ev db = true ∧ ∃ db1 db2, ap db1 = some db2 ∧ Silent db db1 ∧ Silent db2 db' ∧
      ∀ δ, Enters db1 db2 δ → Enters db db' δ := by
  obtain ⟨hc, h⟩ := ite_none_right_eq_some.1 h
  obtain ⟨coreFee, hfee, h⟩ := bind_eq_some_iff.1 h
  obtain ⟨hev, h⟩ := ite_none_right_eq_some.1 h
  obtain ⟨db2, hap, h⟩ := bind_eq_some_iff.1 h
  refine ⟨hc, hev, _, db2, hap, convertAndPayFee_silent hfee, adjustBalance_silent h,
    fun δ hδ y => ?_⟩
  rw [adjustBalance_enters h y, hδ y, convertAndPayFee_enters hfee y, amountIn_neg]
  omega

/-- **An asset is issued or burnt, and the core asset with it**: all other assets have the same
supply, and no fewer fees. -/
structure Mints (x : AssetId) (db db' : Database) : Prop where
  solvent : db.Solvent → db'.Solvent
  nextId : db'.assets.nextId = db.assets.nextId
  supply : ∀ y, y ≠ 0 → y ≠ x → db'.supplyOf y = db.supplyOf y
  fees : ∀ y, y ≠ 0 → y ≠ x → db.feesOf y ≤ db'.feesOf y

theorem Mints.trans (h : Mints x db db') (h' : Mints x db' db'') : Mints x db db'' where
  solvent hdb := h'.solvent (h.solvent hdb)
  nextId := h'.nextId.trans h.nextId
  supply y h0 hx := (h'.supply y h0 hx).trans (h.supply y h0 hx)
  fees y h0 hx := (h.fees y h0 hx).trans (h'.fees y h0 hx)

theorem Silent.mints (h : Silent db db') : Mints x db db' where
  solvent := h.touches.solvent
  nextId := h.nextId
  supply y _ _ := (h.supply y).trans (add_zero _)
  fees y _ _ := h.touches.fees y

/-- Whatever is written into the dynamic data of one of the two assets. -/
theorem modifyAsset_mints {id : AssetId} {f : AssetObject → AssetObject}
    (h : db.modifyAsset id f = some db') (hid : id = 0 ∨ id = x) : Mints x db db' := by
  obtain ⟨d, -, rfl⟩ := modifyAsset_eq_some h
  have hfind : ∀ y, y ≠ 0 → y ≠ x → (db.assets.modify id f).find y = db.assets.find y := by
    intro y h0 hx
    rw [Table.find_modify, if_neg]
    rintro rfl
    exact hid.elim h0 hx
  refine ⟨fun hdb => hdb, rfl, fun y h0 hx => ?_, fun y h0 hx => ?_⟩
  · rw [supplyOf, supplyOf, hfind y h0 hx]
  · rw [feesOf, feesOf, hfind y h0 hx]

/-- **A unit of gold is bought**: it is issued, and the price of it goes to the fees. -/
theorem buyGcwd_mints {op : BuyGcwdOperation} (h : db.buyGcwd op = some db') :
    1 < db.assets.nextId ∧ Mints 1 db db' ∧ Enters db db' (amountIn ⟨1, 1⟩) := by
  obtain ⟨-, hev, db1, db2, hap, hfee, hpaid, hbooks⟩ := operation_frame h
  obtain ⟨d1, h1, hap⟩ := bind_eq_some_iff.1 hap
  obtain ⟨d2, h2, hap⟩ := bind_eq_some_iff.1 hap
  obtain ⟨d3, h3, hap⟩ := bind_eq_some_iff.1 hap
  obtain ⟨d4, h4, rfl⟩ := map_eq_some_iff.1 hap
  simp only [buyGcwdEvaluate, Bool.and_eq_true, decide_eq_true_eq, any_eq_true] at hev
  obtain ⟨⟨⟨⟨⟨-, hcore⟩, -⟩, -⟩, -⟩, d, hd, -⟩ := hev
  have hprice :
      Mints 1 d4 { d4 with gcwdPrice := d4.gcwdPrice + grapheneBlockchainPrecision * 10 } :=
    ⟨fun hdb => hdb, rfl, fun _ _ _ => rfl, fun _ _ _ => le_rfl⟩
  refine ⟨Table.lt_nextId hd, hfee.mints.trans ?_, hbooks _ fun y => ?_⟩
  · exact ((adjustBalance_silent h1).trans (adjustBalance_silent h2)).mints.trans <|
      (modifyAsset_mints h3 (.inr rfl)).trans <| (modifyAsset_mints h4 (.inl rfl)).trans <|
      hprice.trans hpaid.mints
  · have hpays : op.amount.amountIn y = (core op.amount.amount).amountIn y := by
      rw [amountIn, hcore]
      rfl
    show d4.booked y = _
    rw [accumulateFees_enters h4 y, modifySupply_enters h3 (fun _ => rfl) (fun _ => rfl) y,
      adjustBalance_enters h2 y, adjustBalance_enters h1 y, amountIn_neg, hpays]
    dsimp only
    omega

/-- **Silver is exchanged**: it is burnt, and as much of the core asset is issued. -/
theorem exchangeSilver_mints {op : ExchangeSilverOperation} (h : db.exchangeSilver op = some db') :
    4 < db.assets.nextId ∧ Mints 4 db db' ∧ op.amount.assetId = 4 ∧
      Enters db db' fun y => (core op.amount.amount).amountIn y - op.amount.amountIn y := by
  obtain ⟨hvalid, hev, db1, db2, hap, hfee, hpaid, hbooks⟩ := operation_frame h
  obtain ⟨d1, h1, hap⟩ := bind_eq_some_iff.1 hap
  obtain ⟨d2, h2, hap⟩ := bind_eq_some_iff.1 hap
  obtain ⟨d3, h3, h4⟩ := bind_eq_some_iff.1 hap
  simp only [exchangeSilverEvaluate, Bool.and_eq_true, decide_eq_true_eq] at hev
  simp only [ExchangeSilverOperation.validate, decide_eq_true_eq] at hvalid
  obtain ⟨⟨⟨-, hknown⟩, -⟩, -⟩ := hev
  obtain ⟨d, hd⟩ := isSome_iff_exists.1 hknown
  have hlt := Table.lt_nextId hd
  rw [hvalid.2.2] at hlt
  refine ⟨hlt, hfee.mints.trans ?_, hvalid.2.2, hbooks _ fun y => ?_⟩
  · exact ((adjustBalance_silent h1).trans (adjustBalance_silent h2)).mints.trans <|
      (modifyAsset_mints h3 (.inl rfl)).trans <| (modifyAsset_mints h4 (.inr rfl)).trans hpaid.mints
  · have hissued : Enters d2 d3 fun _ => 0 :=
      modifySupply_enters h3 (fun _ => rfl) fun _ => rfl
    rw [modifySupply_enters h4 (fun _ => rfl) (fun _ => rfl) y, hissued y,
      adjustBalance_enters h2 y, adjustBalance_enters h1 y, amountIn_neg]
    dsimp only
    omega

/-- **Gold is bought or silver is exchanged**, that is asset 1 or asset 4. -/
inductive Coins (db db' : Database) : AssetId → Prop
  | buyGcwd {op : BuyGcwdOperation} (h : db.buyGcwd op = some db') : Coins db db' 1
  | exchangeSilver {op : ExchangeSilverOperation} (h : db.exchangeSilver op = some db') :
    Coins db db' 4

/-- Neither concerns a third asset. -/
theorem Coins.mints (h : Coins db db' x) : x < db.assets.nextId ∧ Mints x db db' ∧
    ∀ y, y ≠ 0 → y ≠ x → db'.booked y = db.booked y := by
  cases h with
  | buyGcwd h =>
    obtain ⟨hknown, hmints, henters⟩ := buyGcwd_mints h
    refine ⟨hknown, hmints, fun y _ hx => (henters y).trans ?_⟩
    rw [amountIn, if_neg (Ne.symm hx), add_zero]
  | exchangeSilver h =>
    obtain ⟨hknown, hmints, hsilver, henters⟩ := exchangeSilver_mints h
    refine ⟨hknown, hmints, fun y h0 hx => (henters y).trans ?_⟩
    dsimp only
    rw [amountIn, amountIn, hsilver, if_neg (Ne.symm hx), assetId_core, if_neg (Ne.symm h0)]
    omega

end Database

end CrowdwizChain
