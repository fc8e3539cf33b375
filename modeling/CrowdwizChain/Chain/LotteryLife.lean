import CrowdwizChain.Chain.Lottery

/-!
# The life of a lot

Runs of a chain with lotteries: the four operations, blocks, each of which ends with the sweep, and
anything else the chain does, which may change the whole database except the lots.

An observer notes every lot as it was created and who bought its tickets. Together with the
payments, which the code notes where it makes them, this says in every state that is reached what
became of the money that was collected for a lot: it is held until the lot is delivered or
expires, and then paid once.
-/

namespace CrowdwizChain

open Transition Option OrderedTable Lottery List

/-! ### The lots of the table -/

namespace LotteryGoods

/-- What holds of every lot of the table. -/
structure Ok (lot : LotteryGoods) (id : Nat) : Prop where
  id_eq : lot.id = id
  core : lot.ticketPrice.assetId = 0
  pos : 0 < lot.ticketPrice.amount
  total_pos : 0 < lot.totalParticipants
  length_le : lot.participants.length ≤ lot.totalParticipants
  status_le : lot.status ≤ 3
  sold : 1 ≤ lot.status ↔ lot.participants.length = lot.totalParticipants
  undrawn : lot.status < 2 → lot.winner = none
  drawn : 2 ≤ lot.status → lot.expiration = 0 ∧ ∃ w, lot.winner = some w ∧
    (id ≠ 48 → w ∈ lot.participants)

/-- The same lot at another point of its life. -/
structure SameTerms (c lot : LotteryGoods) : Prop where
  total : c.totalParticipants = lot.totalParticipants
  price : c.ticketPrice = lot.ticketPrice

/-- What has been paid for a lot of the table. -/
def settled (lot : LotteryGoods) : List (AccountId × Asset) :=
  if lot.status = 3 then [(lot.owner, lot.profit)] else []

variable {lot : LotteryGoods} {id : Nat}

theorem Ok.proceeds (h : lot.Ok id) (hne : lot.expiration ≠ 0) : proceeds lot = true := by
  have hlt : lot.status < 2 := by
    by_contra hge
    exact hne (h.drawn (by omega)).1
  rcases Nat.lt_or_ge lot.status 1 with hzero | hone
  · simp [Lottery.proceeds, Nat.lt_one_iff.1 hzero]
  · have hsold := h.sold.1 hone
    have hpos := h.total_pos
    have hstatus : lot.status = 1 := by omega
    simp [Lottery.proceeds, hstatus, hsold, hpos]

theorem Ok.sell (h : lot.Ok id) (hstatus : lot.status = 0)
    (hlt : lot.participants.length < lot.totalParticipants) (a : AccountId) (now : Nat) :
    (lot.sell a now).Ok id := by
  unfold LotteryGoods.sell
  simp only [length_append, length_singleton]
  split
  · exact {
      h with
      length_le := by simp; omega
      status_le := by simp
      sold := by simp; omega
      undrawn := fun _ => h.undrawn (by omega)
      drawn := fun hge => absurd hge (by simp) }
  · exact {
      h with
      length_le := by simp; omega
      sold := by simp; omega
      drawn := fun hge => absurd hge (by simp [hstatus]) }

theorem Ok.mark (h : lot.Ok id) (hstatus : lot.status = 1) (blockIdInt : Nat → Nat) :
    (mark blockIdInt lot).Ok id := by
  have hsold := h.sold.1 (by omega)
  have hlt : blockIdInt lot.id % lot.totalParticipants < lot.participants.length := by
    rw [hsold]
    exact Nat.mod_lt _ h.total_pos
  have hid := h.id_eq
  unfold Lottery.mark
  rw [if_pos hstatus]
  refine { h with
    status_le := by simp
    sold := by simp [hsold]
    undrawn := fun h2 => absurd h2 (by simp)
    drawn := fun _ => ⟨rfl, ?_⟩ }
  by_cases h48 : lot.id = 48
  · exact ⟨164, by simp [h48], fun hne => absurd (hid.symm.trans h48) hne⟩
  · refine ⟨lot.participants[blockIdInt lot.id % lot.totalParticipants], ?_,
      fun _ => getElem_mem hlt⟩
    simp [h48, getElem?_eq_getElem hlt]

end LotteryGoods

/-! ### Runs -/

/-- What can happen on the chain, as far as lots go. -/
inductive LotteryAction
  | createLot (op : LotteryGoodsCreateLotOperation)
  | buyTicket (op : LotteryGoodsBuyTicketOperation)
  | sendContacts (op : LotteryGoodsSendContactsOperation)
  | confirmDelivery (op : LotteryGoodsConfirmDeliveryOperation)
  /-- a block of the given time: the head moves on and the sweep runs, with some digits
  for each lot -/
  | block (time : Nat) (blockIdInt : Nat → Nat)
  /-- anything else: every part of the database may change but the lots -/
  | other (e : Database)

/-- The chain, with the notes of an observer. -/
structure LotterySystem where
  lottery : Lottery
  /-- the lots as they were created -/
  created : Nat → Option LotteryGoods
  /-- who bought the tickets of a lot, one ticket after another -/
  bought : Nat → List AccountId

namespace LotterySystem

/-- What an action does to the chain. -/
def lotteryStep (l : Lottery) : LotteryAction → Option Lottery
  | .createLot op => l.createLot op
  | .buyTicket op => l.buyTicket op
  | .sendContacts op => l.sendContacts op
  | .confirmDelivery op => l.confirmDelivery op
  | .block time blockIdInt =>
    if l.db.headBlockTime < time then
      proceedLotteryGoods
        { l with db := { l.db with headBlockNum := l.db.headBlockNum + 1, headBlockTime := time } }
        blockIdInt
    else none
  | .other e => some { l with db := e }

/-- One action, with the notes kept. -/
def step (s : LotterySystem) (a : LotteryAction) : Option LotterySystem :=
  (lotteryStep s.lottery a).map fun l =>
    { lottery := l
      created := match a with
        | .createLot _ => fun id =>
          if id = s.lottery.lotteryGoods.nextId then l.lotteryGoods.find id else s.created id
        | _ => s.created
      bought := match a with
        | .buyTicket op => fun id =>
          if id = op.lotId then s.bought id ++ [op.participant] else s.bought id
        | _ => s.bought }

/-- What was paid for a lot so far. -/
def paid (s : LotterySystem) (id : Nat) : List (AccountId × Asset) :=
  (s.lottery.payments.filter fun p => p.1 = id).map Prod.snd

/-- A chain without lots. -/
structure Initial (s : LotterySystem) : Prop where
  rows : s.lottery.lotteryGoods.rows = []
  payments : s.lottery.payments = []
  created : ∀ id, s.created id = none
  bought : ∀ id, s.bought id = []

/-- What an action takes in for a lot: the price of a ticket. -/
def takings (s : LotterySystem) : LotteryAction → List (AccountId × Asset)
  | .buyTicket op => (s.lottery.lotteryGoods.find op.lotId).toList.map fun lot =>
    (op.participant, -lot.ticketPrice)
  | _ => []

/-- The fee of an action. -/
def fees : LotteryAction → List (AccountId × Asset)
  | .createLot op => [(op.owner, -op.fee)]
  | .buyTicket op => [(op.participant, -op.fee)]
  | .sendContacts op => [(op.winner, -op.fee)]
  | .confirmDelivery op => [(op.winner, -op.fee)]
  | _ => []

/-- **The effect of a step on the balances**: what it takes in, the payments that it
notes, and its fee. -/
def Effect (s s' : LotterySystem) (a : LotteryAction) : Prop :=
  ∃ payments, s'.lottery.payments = s.lottery.payments ++ payments ∧
    s.lottery.db.balances.adjustAll (takings s a ++ payments.map Prod.snd ++ fees a) =
      some s'.lottery.db.balances

/-! ### The invariant -/

/-- What the notes say about a lot of the table. -/
structure Live (s : LotterySystem) (id : Nat) (lot : LotteryGoods) : Prop where
  ok : lot.Ok id
  bought : s.bought id = lot.participants
  paid : s.paid id = lot.settled
  created : ∃ c, s.created id = some c ∧ c.SameTerms lot

/-- What the notes say about a lot that is not, or no longer, in the table: none of its tickets was
sold, or it was not sold out and every ticket was refunded. -/
def Gone (s : LotterySystem) (id : Nat) : Prop :=
  match s.created id with
  | none => s.bought id = [] ∧ s.paid id = []
  | some c => s.paid id = (s.bought id).map (fun a => (a, c.ticketPrice)) ∧
      (s.bought id).length < c.totalParticipants

/-- What the notes say about what the table has for a lot. -/
def Noted (s : LotterySystem) (id : Nat) : Option LotteryGoods → Prop
  | some lot => s.Live id lot
  | none => s.Gone id

/-- What holds in every state that is reached. -/
structure Inv (s : LotterySystem) : Prop where
  fresh : ∀ id, s.lottery.lotteryGoods.nextId ≤ id → s.created id = none
  noted : ∀ id, s.Noted id (s.lottery.lotteryGoods.find id)

variable {s s' : LotterySystem} {id time : Nat} {lot : LotteryGoods}

theorem Initial.inv (h : s.Initial) : s.Inv := by
  refine ⟨fun id _ => h.created id, fun id => ?_⟩
  simp [find, h.rows, Noted, Gone, h.created, h.bought, paid, h.payments]

theorem Inv.live (h : s.Inv) (hlot : s.lottery.lotteryGoods.find id = some lot) :
    s.Live id lot := by
  have hnoted := h.noted id
  rwa [hlot] at hnoted

theorem Inv.gone (h : s.Inv) (hnone : s.lottery.lotteryGoods.find id = none) : s.Gone id := by
  have hnoted := h.noted id
  rwa [hnone] at hnoted

/-- What a lot's notes are made of: they agree where these agree. -/
theorem Noted.congr {r : Option LotteryGoods} (h : s.Noted id r)
    (hbought : s'.bought id = s.bought id)
    (hpaid : s'.paid id = s.paid id) (hcreated : s'.created id = s.created id) : s'.Noted id r := by
  cases r with
  | some lot =>
    exact ⟨h.ok, hbought.trans h.bought, hpaid.trans h.paid, by rw [hcreated]; exact h.created⟩
  | none =>
    rw [Noted, Gone, hcreated, hbought, hpaid]
    exact h

theorem Inv.update (h : s.Inv) {i : Nat}
    (hnext : s.lottery.lotteryGoods.nextId ≤ s'.lottery.lotteryGoods.nextId)
    (hothers : ∀ id ≠ i, s'.lottery.lotteryGoods.find id = s.lottery.lotteryGoods.find id ∧
      s'.bought id = s.bought id ∧ s'.paid id = s.paid id ∧ s'.created id = s.created id)
    (hfind : s'.lottery.lotteryGoods.find i = some lot) (hlive : s'.Live i lot) : s'.Inv := by
  have hi := lt_nextId hfind
  refine ⟨fun id hid => ?_, fun id => ?_⟩
  · rw [(hothers id (by omega)).2.2.2]
    exact h.fresh id (hnext.trans hid)
  · rcases eq_or_ne id i with rfl | hne
    · rw [hfind]
      exact hlive
    · obtain ⟨hrow, hbought, hpaid, hcreated⟩ := hothers id hne
      rw [hrow]
      exact (h.noted id).congr hbought hpaid hcreated

theorem Inv.modify (h : s.Inv) {lotId : Nat} {f : LotteryGoods → LotteryGoods}
    (hlot : s.lottery.lotteryGoods.find lotId = some lot)
    (htable : s'.lottery.lotteryGoods = s.lottery.lotteryGoods.modify lotId f)
    (hcreated : s'.created = s.created) (hbought : ∀ id, id ≠ lotId → s'.bought id = s.bought id)
    (hpaid : ∀ id, id ≠ lotId → s'.paid id = s.paid id) (hlive : s'.Live lotId (f lot)) :
    s'.Inv := by
  refine h.update (i := lotId) (htable ▸ le_rfl) (fun id hne => ?_) ?_ hlive
  · refine ⟨?_, hbought id hne, hpaid id hne, by rw [hcreated]⟩
    rw [htable, find_modify, if_neg hne]
  · rw [htable, find_modify, if_pos rfl, hlot]
    rfl

theorem paid_congr (h : s'.lottery.payments = s.lottery.payments) (id : Nat) :
    s'.paid id = s.paid id := by
  rw [paid, paid, h]

theorem paid_append {payments : List LotteryPayment}
    (h : s'.lottery.payments = s.lottery.payments ++ payments) (id : Nat) :
    s'.paid id = s.paid id ++ (payments.filter fun p => p.1 = id).map Prod.snd := by
  rw [paid, paid, h, filter_append, map_append]

/-- A new lot has no participants. -/
theorem Inv.createLot {op : LotteryGoodsCreateLotOperation} (h : s.Inv)
    (hs : s.step (.createLot op) = some s') : s'.Inv := by
  obtain ⟨l, hl, rfl⟩ := map_eq_some_iff.1 hs
  obtain ⟨htotal, hcore, hpos, ⟨expiration, htable⟩, hpayments, -⟩ := createLot_eq_some hl
  have hpaid : ∀ id, paid ⟨l, s.created, s.bought⟩ id = s.paid id := paid_congr hpayments
  have hnew := h.gone s.lottery.lotteryGoods.find_nextId
  rw [Gone, h.fresh _ le_rfl] at hnew
  refine h.update (i := s.lottery.lotteryGoods.nextId) (by simp [htable])
    (fun id hne => ⟨by simp [htable, find_create, hne], rfl, hpaid id, if_neg hne⟩)
    (by rw [htable, find_create, if_pos rfl])
    ⟨?_, hnew.1, (hpaid _).trans ?_, _, by simp [htable], ⟨rfl, rfl⟩⟩
  · exact {
      id_eq := rfl
      core := hcore
      pos := hpos
      total_pos := htotal
      length_le := Nat.zero_le _
      status_le := by simp
      sold := by simp; omega
      undrawn := fun _ => rfl
      drawn := fun hge => absurd hge (by simp) }
  · exact hnew.2

/-- A ticket is noted, with its payment. -/
theorem Inv.buyTicket {op : LotteryGoodsBuyTicketOperation} (h : s.Inv)
    (hs : s.step (.buyTicket op) = some s') : s'.Inv := by
  obtain ⟨l, hl, rfl⟩ := map_eq_some_iff.1 hs
  obtain ⟨lot, hlot, hstatus, hlt, -, -, htable, hpayments, -⟩ := buyTicket_eq_some hl
  have hlive := h.live hlot
  obtain ⟨c, hc, hterms⟩ := hlive.created
  refine h.modify hlot htable rfl (fun id hne => if_neg hne)
    (fun id _ => paid_congr hpayments id) ?_
  have hsame : (lot.sell op.participant s.lottery.db.headBlockTime).participants =
        lot.participants ++ [op.participant] ∧
      (lot.sell op.participant s.lottery.db.headBlockTime).settled = [] ∧
      lot.SameTerms (lot.sell op.participant s.lottery.db.headBlockTime) := by
    unfold LotteryGoods.sell LotteryGoods.settled
    simp only
    split
    · exact ⟨rfl, rfl, rfl, rfl⟩
    · exact ⟨rfl, by simp [hstatus], rfl, rfl⟩
  obtain ⟨hparticipants, hsettled, hterms'⟩ := hsame
  refine ⟨hlive.ok.sell hstatus hlt _ _, ?_, ?_, c, hc,
    hterms.total.trans hterms'.total, hterms.price.trans hterms'.price⟩
  · rw [hparticipants, ← hlive.bought]
    exact if_pos rfl
  · refine (paid_congr hpayments _).trans (hlive.paid.trans ?_)
    rw [hsettled, LotteryGoods.settled, hstatus]
    rfl

theorem Inv.sendContacts {op : LotteryGoodsSendContactsOperation} (h : s.Inv)
    (hs : s.step (.sendContacts op) = some s') : s'.Inv := by
  obtain ⟨l, hl, rfl⟩ := map_eq_some_iff.1 hs
  obtain ⟨lot, hlot, htable, hpayments, -⟩ := sendContacts_eq_some hl
  have hlive := h.live hlot
  obtain ⟨c, hc, hterms⟩ := hlive.created
  exact h.modify hlot htable rfl (fun id _ => rfl) (fun id _ => paid_congr hpayments id)
    ⟨{ hlive.ok with }, hlive.bought, (paid_congr hpayments _).trans hlive.paid, c, hc,
      { hterms with }⟩

/-- On delivery the owner is paid, for the first time. -/
theorem Inv.confirmDelivery {op : LotteryGoodsConfirmDeliveryOperation} (h : s.Inv)
    (hs : s.step (.confirmDelivery op) = some s') : s'.Inv := by
  obtain ⟨l, hl, rfl⟩ := map_eq_some_iff.1 hs
  obtain ⟨lot, hlot, hstatus, htable, hpayments, -⟩ := confirmDelivery_eq_some hl
  have hlive := h.live hlot
  obtain ⟨c, hc, hterms⟩ := hlive.created
  refine h.modify hlot htable rfl (fun id _ => rfl) (fun id hne => ?_)
    ⟨?_, hlive.bought, ?_, c, hc, { hterms with }⟩
  · rw [paid_append hpayments id]
    simp [Ne.symm hne]
  · exact { hlive.ok with
      status_le := by simp
      sold := by
        have := hlive.ok.sold
        simp
        omega
      undrawn := fun hge => absurd hge (by simp)
      drawn := fun _ => hlive.ok.drawn (by omega) }
  · rw [paid_append hpayments, hlive.paid]
    simp [LotteryGoods.settled, hstatus, LotteryGoods.profit]

/-! ### The sweep -/

/-- The refunds of one lot among those of several. -/
theorem filter_refunds {X : List (Σ _ : Nat, LotteryGoods)} (hX : X.NodupKeys)
    (hid : ∀ e ∈ X, e.2.id = e.1) (id : Nat) :
    (X.flatMap fun e => refunds e.2).filter (fun p => p.1 = id) =
      ((X.dlookup id).map refunds).getD [] := by
  have hall : ∀ lot : LotteryGoods, (refunds lot).filter (fun p => p.1 = id) =
      if lot.id = id then refunds lot else [] := by
    intro lot
    unfold refunds
    split
    · by_cases h : lot.id = id <;> simp [h]
    · simp
  induction X with
  | nil => rfl
  | cons e X ih =>
    obtain ⟨i, lot⟩ := e
    obtain ⟨hnotin, hX⟩ := nodupKeys_cons.1 hX
    have hlot : lot.id = i := hid ⟨i, lot⟩ mem_cons_self
    rw [flatMap_cons, filter_append, hall, hlot,
      ih hX fun e he => hid e (mem_cons_of_mem _ he)]
    by_cases heq : i = id
    · subst heq
      rw [if_pos rfl, dlookup_cons_eq, dlookup_eq_none.2 hnotin]
      simp
    · rw [if_neg heq, dlookup_cons_ne _ _ (Ne.symm heq)]
      simp

/-- What a step of the chain to the end of a block has done. -/
theorem lotteryStep_block {l l' : Lottery} {blockIdInt : Nat → Nat}
    (h : lotteryStep l (.block time blockIdInt) = some l') :
    l.db.headBlockTime < time ∧ proceedLotteryGoods
      { l with db := { l.db with headBlockNum := l.db.headBlockNum + 1, headBlockTime := time } }
      blockIdInt = some l' := by
  obtain ⟨hlt, h⟩ := ite_none_right_eq_some.1 h
  exact ⟨hlt, h⟩

/-- A lot that expires unsold is refunded, for the first time. -/
theorem Inv.block {blockIdInt : Nat → Nat} (h : s.Inv)
    (hs : s.step (.block time blockIdInt) = some s') :
    s'.Inv := by
  obtain ⟨l, hl, rfl⟩ := map_eq_some_iff.1 hs
  obtain ⟨-, hl⟩ := lotteryStep_block hl
  obtain ⟨X, hnodup, hX, hnext, hfind, hpayments, -⟩ := proceedLotteryGoods_eq_some hl
    fun id lot hlot => (h.live hlot).ok.status_le
  have hrefunds := filter_refunds hnodup fun e he => (h.live (hX e he).1).ok.id_eq
  have hpaid : ∀ id, paid ⟨l, s.created, s.bought⟩ id =
      s.paid id ++ (((X.dlookup id).map refunds).getD []).map Prod.snd := by
    intro id
    rw [← hrefunds]
    exact paid_append hpayments id
  have hout : ∀ id, id ∉ X.keys → paid ⟨l, s.created, s.bought⟩ id = s.paid id := by
    intro id hnotin
    rw [hpaid, dlookup_eq_none.2 hnotin]
    exact append_nil _
  have hin : ∀ id lot, s.lottery.lotteryGoods.find id = some lot → id ∈ X.keys →
        proceeds lot = true ∧
        paid ⟨l, s.created, s.bought⟩ id = s.paid id ++ (refunds lot).map Prod.snd := by
    intro id lot hlot hkey
    obtain ⟨lot', hlot'⟩ := mem_keys.1 hkey
    obtain ⟨hrow, hproceeds⟩ := hX _ hlot'
    cases hlot.symm.trans hrow
    refine ⟨hproceeds, ?_⟩
    rw [hpaid, (mem_dlookup_iff hnodup).2 hlot']
    rfl
  refine ⟨fun id hid => h.fresh id (hnext ▸ hid), fun id => ?_⟩
  simp only [hfind]
  cases hold : s.lottery.lotteryGoods.find id with
  | none =>
    have hkey : id ∉ X.keys := by
      intro hkey
      obtain ⟨lot, hlot⟩ := mem_keys.1 hkey
      rw [(hX _ hlot).1] at hold
      cases hold
    exact Noted.congr (r := none) (h.gone hold) rfl (hout id hkey) rfl
  | some old =>
    have hlive := h.live hold
    rw [bind_some]
    split
    · next hkey =>
      obtain ⟨hproceeds, hpaid⟩ := hin id old hold hkey
      obtain ⟨c, hc, hterms⟩ := hlive.created
      split
      · next hone =>
        refine ⟨hlive.ok.mark hone _, ?_, ?_, c, hc, ?_⟩
        · simp only [mark, if_pos hone]
          exact hlive.bought
        · rw [hpaid, hlive.paid]
          simp [LotteryGoods.settled, refunds, mark, hone]
        · simp only [mark, if_pos hone]
          exact { hterms with }
      · next hone =>
        -- it was not sold out, so it is refunded
        have hzero : old.status = 0 := by
          simpa [proceeds, hone] using hproceeds
        have hle := hlive.ok.length_le
        have hsold := hlive.ok.sold
        simp only [Noted, Gone, hc]
        rw [hpaid, hlive.paid, hlive.bought, hterms.price, hterms.total]
        refine ⟨?_, by omega⟩
        simp [LotteryGoods.settled, refunds, hzero, Function.comp_def]
    · next hkey => exact Noted.congr (r := some old) hlive rfl (hout id hkey) rfl

/-- **Every step keeps the lots in order.** -/
theorem Inv.step {a : LotteryAction} (h : s.Inv) (hs : s.step a = some s') : s'.Inv := by
  cases a with
  | createLot op => exact h.createLot hs
  | buyTicket op => exact h.buyTicket hs
  | sendContacts op => exact h.sendContacts hs
  | confirmDelivery op => exact h.confirmDelivery hs
  | block time blockIdInt => exact h.block hs
  | other e =>
    obtain ⟨l, hl, rfl⟩ := map_eq_some_iff.1 hs
    cases hl
    exact ⟨h.fresh, fun id => (h.noted id).congr rfl rfl rfl⟩

/-- **Every step but those of the rest of the chain has its effect.** -/
theorem Inv.effect {a : LotteryAction} (h : s.Inv) (ha : ∀ e, a ≠ .other e)
    (hs : s.step a = some s') : Effect s s' a := by
  obtain ⟨l, hl, rfl⟩ := map_eq_some_iff.1 hs
  cases a with
  | createLot op =>
    obtain ⟨-, -, -, -, hpayments, hbalances⟩ := createLot_eq_some hl
    exact ⟨[], by simp [hpayments], hbalances⟩
  | buyTicket op =>
    obtain ⟨lot, hlot, -, -, hcore, hprice, -, hpayments, hbalances⟩ := buyTicket_eq_some hl
    have heq : op.ticketPrice = lot.ticketPrice := by
      have hcore' := (h.live hlot).ok.core
      calc op.ticketPrice = ⟨op.ticketPrice.amount, op.ticketPrice.assetId⟩ := rfl
        _ = ⟨lot.ticketPrice.amount, lot.ticketPrice.assetId⟩ := by rw [hprice, hcore, hcore']
    rw [heq] at hbalances
    exact ⟨[], by simp [hpayments], by simpa [takings, hlot, fees] using hbalances⟩
  | sendContacts op =>
    obtain ⟨lot, -, -, hpayments, hbalances⟩ := sendContacts_eq_some hl
    exact ⟨[], by simp [hpayments], hbalances⟩
  | confirmDelivery op =>
    obtain ⟨lot, -, -, -, hpayments, hbalances⟩ := confirmDelivery_eq_some hl
    exact ⟨_, hpayments, hbalances⟩
  | block time blockIdInt =>
    obtain ⟨-, hl⟩ := lotteryStep_block hl
    obtain ⟨X, -, -, -, -, hpayments, hbalances⟩ := proceedLotteryGoods_eq_some hl
      fun id lot hlot => (h.live hlot).ok.status_le
    refine ⟨_, hpayments, ?_⟩
    simp only [takings, fees, nil_append, append_nil]
    exact hbalances
  | other e => exact absurd rfl (ha e)

/-- **A block always goes through**, and leaves nothing that has expired. -/
theorem Inv.block_ends (h : s.Inv) (blockIdInt : Nat → Nat)
    (htime : s.lottery.db.headBlockTime < time) (hnow : time + 5 < 2 ^ 32) :
    ∃ s', s.step (.block time blockIdInt) = some s' ∧
        ∀ id lot, s'.lottery.lotteryGoods.find id = some lot →
        lot.expiration ≤ 1 ∨ time + 5 ≤ lot.expiration := by
  obtain ⟨l, hl, hrows⟩ := proceedLotteryGoods_ends (l := { s.lottery with
    db := { s.lottery.db with
      headBlockNum := s.lottery.db.headBlockNum + 1
      headBlockTime := time } })
    blockIdInt hnow (fun id lot hlot =>
      have hok := (h.live hlot).ok
      ⟨le_of_lt hok.pos, hok.status_le, hok.proceeds⟩)
  have hstep : lotteryStep s.lottery (.block time blockIdInt) = some l := by
    rw [lotteryStep, if_pos htime]
    exact hl
  exact ⟨⟨l, s.created, s.bought⟩, map_eq_some_iff.2 ⟨l, hstep, rfl⟩, hrows⟩

/-! ### The life of a lot -/

/-- Three accounts; the first one may hold lotteries. -/
def raffle : LotterySystem where
  lottery :=
    { db := .start hardforkCwd4Time
        [{ referrer := 0, referralStatusType := 4 }, { referrer := 0 }, { referrer := 0 }] 1000 }
  created _ := none
  bought _ := []

/-- Two lots with two tickets each: one is sold out and delivered, the other one expires
with one ticket sold. -/
def raffleRun : List LotteryAction :=
  [ .createLot ⟨⟨0, 0⟩, 0, 2, ⟨30, 0⟩, 10⟩, .createLot ⟨⟨0, 0⟩, 0, 2, ⟨50, 0⟩, 10⟩,
    .buyTicket ⟨⟨0, 0⟩, 0, 1, ⟨30, 0⟩⟩, .buyTicket ⟨⟨0, 0⟩, 1, 1, ⟨50, 0⟩⟩,
    .buyTicket ⟨⟨0, 0⟩, 0, 2, ⟨30, 0⟩⟩,
    .block (hardforkCwd4Time + 20) (fun _ => 7), .confirmDelivery ⟨⟨0, 0⟩, 0, 2, 0⟩,
    .block (hardforkCwd4Time + 2592000) (fun _ => 0) ]

end LotterySystem

end CrowdwizChain
