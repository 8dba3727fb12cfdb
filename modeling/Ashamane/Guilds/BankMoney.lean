import Ashamane.Guilds.Requests

/-! Withdrawals from the guild bank, and how much of it a member can take in one day. -/
namespace Ashamane.Guilds

def maxMoneyAmount : Nat := 99999999999
def guildWithdrawMoneyUnlimited : Nat := 0xFFFFFFFF

def grRightWithdrawRepair : BitVec 32 := 0x00040000
def grRightWithdrawGold : BitVec 32 := 0x00080000

def int64 (n : Int) : Int :=
  if n % 2 ^ 64 < 2 ^ 63 then n % 2 ^ 64 else n % 2 ^ 64 - 2 ^ 64

theorem int64_eq {n : Int} (hlow : -2 ^ 63 ≤ n) (hhigh : n < 2 ^ 63) : int64 n = n := by
  rw [int64]
  omega

structure Treasury where
  guild : Guild
  bankMoney : Nat
  bankWithdrawMoney : ObjectGuid → Nat
  money : ObjectGuid → Nat

namespace RankInfo

def getBankMoneyPerDay (r : RankInfo) : Nat :=
  if r.rankId ≠ grGuildmaster then r.bankMoneyPerDay else guildWithdrawMoneyUnlimited

end RankInfo

namespace Guild

def rankBankMoneyPerDay (g : Guild) (rankId : Nat) : Nat :=
  match g.getRankInfo rankId with
  | some rankInfo => rankInfo.getBankMoneyPerDay
  | none => 0

end Guild

namespace Treasury

/-- The stored value per day is multiplied by `gold` once more here. -/
def memberRemainingMoney (t : Treasury) (player : ObjectGuid) (member : Member) : Int :=
  if member.rankId = grGuildmaster then 2 ^ 63 - 1
  else if t.guild.rankRights member.rankId &&&
      (grRightWithdrawRepair ||| grRightWithdrawGold) != 0 then
    let remaining := int64 ((t.guild.rankBankMoneyPerDay member.rankId : Int) * gold -
      t.bankWithdrawMoney player)
    if 0 < remaining then remaining else 0
  else 0

/-- `Player::ModifyMoney` for an amount that is not negative; refused above the
amount a player can hold. -/
def modifyMoney (t : Treasury) (player : ObjectGuid) (amount : Nat) : Bool × Treasury :=
  if amount = 0 then (true, t)
  else if t.money player ≤ maxMoneyAmount - amount then
    (true, { t with money := Function.update t.money player (t.money player + amount) })
  else (false, t)

def updateBankMoneyWithdrawValue (t : Treasury) (player : ObjectGuid) (amount : Nat) : Treasury :=
  let value := (t.bankWithdrawMoney player + amount) % 2 ^ 64
  { t with bankWithdrawMoney := Function.update t.bankWithdrawMoney player value }

/-- `_ModifyBankMoney` that takes money out; its result is not looked at. -/
def takeBankMoney (t : Treasury) (amount : Nat) : Treasury :=
  if t.bankMoney < amount then t else { t with bankMoney := t.bankMoney - amount }

def withdrawnAmount (amount : Nat) : Nat := min amount maxMoneyAmount

def handleMemberWithdrawMoney (t : Treasury) (player : ObjectGuid) (amount : Nat) (repair : Bool) :
    Bool × Treasury :=
  let amount := withdrawnAmount amount
  if t.bankMoney < amount then (false, t)
  else
    match t.guild.getMember player with
    | none => (false, t)
    | some member =>
      let right := if repair then grRightWithdrawRepair else grRightWithdrawGold
      if ¬ t.guild.hasRankRight player right then (false, t)
      else if t.memberRemainingMoney player member < int64 amount then (false, t)
      else
        -- money for a repair does not go through the player
        match if repair then (true, t) else t.modifyMoney player amount with
        | (false, t) => (false, t)
        | (true, t) => (true, (t.updateBankMoneyWithdrawValue player amount).takeBankMoney amount)

def resetValues (t : Treasury) : Treasury := { t with bankWithdrawMoney := fun _ => 0 }

abbrev Request := Nat × Bool

def withdrawals (t : Treasury) (player : ObjectGuid) : List Request → Nat × Treasury
  | [] => (0, t)
  | (amount, repair) :: requests =>
    let (done, t') := t.handleMemberWithdrawMoney player amount repair
    let (total, last) := t'.withdrawals player requests
    (if done then withdrawnAmount amount + total else total, last)

def Exact (t : Treasury) (player : ObjectGuid) (request : Request) : Bool × Treasury → Prop
  | (true, t') =>
    t'.bankMoney + withdrawnAmount request.1 = t.bankMoney ∧
      t'.money = if request.2 then t.money
        else Function.update t.money player (t.money player + withdrawnAmount request.1)
  | (false, t') => t' = t

/-- The day of a player whose limit is `limit` copper. -/
def DailyLimit (start : Treasury) (player : ObjectGuid) (limit : Nat) : Prop :=
  ∀ requests : List Request,
    (start.withdrawals player requests).1 ≤ limit ∧
    ∀ request : Request, let t := (start.withdrawals player requests).2
      t.Exact player request (t.handleMemberWithdrawMoney player request.1 request.2)

def CanOverdraw (t : Treasury) (player : ObjectGuid) (rights : BitVec 32) (limit : Nat) : Prop :=
  0 < limit ∧ limit < t.bankMoney ∧
    (rights &&& grRightWithdrawRepair ≠ 0 ∨
      rights &&& grRightWithdrawGold ≠ 0 ∧ t.money player + limit < maxMoneyAmount)

def setRankInfo (t : Treasury) (leader : ObjectGuid) (rankId : Nat) (name : String)
    (rights : BitVec 32) (moneyPerDay : Nat) : Treasury :=
  { t with guild := t.guild.handleSetRankInfo leader rankId name rights moneyPerDay }

variable {t t' : Treasury} {player : ObjectGuid} {amount : Nat} {repair : Bool}

def paidOut (t : Treasury) (player : ObjectGuid) (amount : Nat) (repair : Bool) : Treasury :=
  { t with
    bankMoney := t.bankMoney - amount
    bankWithdrawMoney := (t.updateBankMoneyWithdrawValue player amount).bankWithdrawMoney
    money := if repair then t.money else Function.update t.money player (t.money player + amount) }

theorem withdrawnAmount_le : withdrawnAmount amount ≤ maxMoneyAmount := Nat.min_le_right ..

theorem int64_withdrawnAmount : int64 (withdrawnAmount amount) = withdrawnAmount amount := by
  have hle := @withdrawnAmount_le amount
  rw [maxMoneyAmount] at hle
  exact int64_eq (by omega) (by omega)

theorem modifyMoney_cases (player : ObjectGuid) (amount : Nat) :
    t.modifyMoney player amount = (false, t) ∨
    (amount = 0 ∨ t.money player ≤ maxMoneyAmount - amount) ∧
      t.modifyMoney player amount =
        (true, { t with money := Function.update t.money player (t.money player + amount) }) := by
  unfold modifyMoney
  split
  next hzero =>
    subst hzero
    refine .inr ⟨.inl rfl, ?_⟩
    rw [Nat.add_zero, Function.update_eq_self]
  next hne =>
    split
    next hroom => exact .inr ⟨.inr hroom, rfl⟩
    · exact .inl rfl

/-- What a withdrawal can do, with all that was checked before it. -/
theorem handleMemberWithdrawMoney_cases (t : Treasury) (player : ObjectGuid) (amount : Nat)
    (repair : Bool) :
    t.handleMemberWithdrawMoney player amount repair = (false, t) ∨
    ∃ member, t.guild.getMember player = some member ∧
      withdrawnAmount amount ≤ t.bankMoney ∧
      t.guild.hasRankRight player
        (if repair then grRightWithdrawRepair else grRightWithdrawGold) = true ∧
      (withdrawnAmount amount : Int) ≤ t.memberRemainingMoney player member ∧
      (repair = true ∨ withdrawnAmount amount = 0 ∨
        t.money player ≤ maxMoneyAmount - withdrawnAmount amount) ∧
      t.handleMemberWithdrawMoney player amount repair =
        (true, t.paidOut player (withdrawnAmount amount) repair) := by
  have hint := @int64_withdrawnAmount amount
  unfold handleMemberWithdrawMoney
  generalize withdrawnAmount amount = amount at hint ⊢
  simp only [hint]
  split
  · exact .inl rfl
  next hbank =>
  split
  · exact .inl rfl
  next member hmember =>
  by_cases hright : t.guild.hasRankRight player
      (if repair then grRightWithdrawRepair else grRightWithdrawGold) = true
  swap
  · exact .inl (if_pos hright)
  rw [if_neg (not_not.mpr hright)]
  by_cases hremaining : t.memberRemainingMoney player member < amount
  · exact .inl (if_pos hremaining)
  rw [if_neg hremaining]
  have hle := Nat.not_lt.mp hbank
  have hlimit := Int.not_lt.mp hremaining
  cases repair with
  | true =>
    refine .inr ⟨member, hmember, hle, hright, hlimit, .inl rfl, ?_⟩
    simp [takeBankMoney, updateBankMoneyWithdrawValue, paidOut, hbank]
  | false =>
    obtain hrefused | ⟨hroom, hpaid⟩ := t.modifyMoney_cases player amount
    · left
      simp [hrefused]
    · refine .inr ⟨member, hmember, hle, hright, hlimit, .inr hroom, ?_⟩
      simp [hpaid, takeBankMoney, updateBankMoneyWithdrawValue, paidOut, hbank]

theorem handleMemberWithdrawMoney_exact (t : Treasury) (player : ObjectGuid) (request : Request) :
    t.Exact player request (t.handleMemberWithdrawMoney player request.1 request.2) := by
  obtain h | ⟨_, _, hbank, _, _, _, h⟩ :=
    t.handleMemberWithdrawMoney_cases player request.1 request.2
  · rw [h, Exact]
  · rw [h, Exact]
    exact ⟨Nat.sub_add_cancel hbank, rfl⟩

theorem handleMemberWithdrawMoney_paid {member : Member}
    (hbank : withdrawnAmount amount ≤ t.bankMoney)
    (hmember : t.guild.getMember player = some member)
    (hright : t.guild.hasRankRight player
      (if repair then grRightWithdrawRepair else grRightWithdrawGold) = true)
    (hremaining : (withdrawnAmount amount : Int) ≤ t.memberRemainingMoney player member)
    (hroom : repair = true ∨ t.money player ≤ maxMoneyAmount - withdrawnAmount amount) :
    (t.handleMemberWithdrawMoney player amount repair).1 = true := by
  have hint := @int64_withdrawnAmount amount
  unfold handleMemberWithdrawMoney
  generalize withdrawnAmount amount = amount at hint hbank hremaining hroom ⊢
  simp only [hint, hmember]
  rw [if_neg (Nat.not_lt.mpr hbank), if_neg (not_not.mpr hright),
    if_neg (Int.not_lt.mpr hremaining)]
  cases repair with
  | true => rfl
  | false =>
    have hfits := hroom.resolve_left Bool.false_ne_true
    have hpaid : (t.modifyMoney player amount).1 = true := by
      unfold modifyMoney
      split
      · rfl
      · rfl
    simp only [Bool.false_eq_true, if_false]
    generalize t.modifyMoney player amount = modified at hpaid ⊢
    obtain ⟨done, t'⟩ := modified
    simp only at hpaid
    rw [hpaid]

structure Limited (t : Treasury) (player : ObjectGuid) (member : Member) (rights : BitVec 32)
    (limit : Nat) : Prop where
  known : t.guild.getMember player = some member
  below : member.rankId ≠ grGuildmaster
  rights : t.guild.rankRights member.rankId = rights
  perDay : t.guild.rankBankMoneyPerDay member.rankId = limit
  limit_lt : limit < 2 ^ 32

/-- What the day so far has done, after `total` copper were withdrawn. -/
structure Spent (start t : Treasury) (player : ObjectGuid) (rights : BitVec 32)
    (limit total : Nat) : Prop where
  guild : t.guild = start.guild
  bank : t.bankMoney + total = start.bankMoney
  used : t.bankWithdrawMoney player = total
  within : total ≤ limit * gold
  right : 0 < total → rights &&& grRightWithdrawRepair ≠ 0 ∨ rights &&& grRightWithdrawGold ≠ 0
  purse : rights &&& grRightWithdrawRepair = 0 →
    t.money player = start.money player + total ∧ (0 < total → t.money player ≤ maxMoneyAmount)

variable {start : Treasury} {member : Member} {rights : BitVec 32} {limit total : Nat}

theorem Limited.hasRankRight (h : t.Limited player member rights limit) (right : BitVec 32) :
    t.guild.hasRankRight player right = true ↔ rights &&& right ≠ 0 := by
  simp [Guild.hasRankRight, h.known, h.rights, grRightNone]

/-- What is left for today: the stored copper once more as gold, less what was used. -/
theorem Limited.remaining (h : t.Limited player member rights limit)
    (hused : t.bankWithdrawMoney player ≤ limit * gold) :
    t.memberRemainingMoney player member =
      if rights &&& (grRightWithdrawRepair ||| grRightWithdrawGold) ≠ 0 then
        ((limit * gold - t.bankWithdrawMoney player : Nat) : Int) else 0 := by
  have hlt := h.limit_lt
  rw [gold] at hused
  rw [memberRemainingMoney, if_neg h.below, h.rights, h.perDay, gold]
  have hexact : int64 ((limit : Int) * (10000 : Nat) - t.bankWithdrawMoney player) =
      (limit * 10000 - t.bankWithdrawMoney player : Nat) := by
    rw [int64_eq (by omega) (by omega)]
    omega
  simp only [hexact, bne_iff_ne]
  split
  · split <;> omega
  · rfl

theorem bothRights_ne {r : BitVec 32}
    (hr : r = grRightWithdrawRepair ∨ r = grRightWithdrawGold) (h : rights &&& r ≠ 0) :
    rights &&& (grRightWithdrawRepair ||| grRightWithdrawGold) ≠ 0 := by
  intro hzero
  have hparts : rights &&& grRightWithdrawRepair = 0 ∧ rights &&& grRightWithdrawGold = 0 := by
    have hbits : (rights &&& grRightWithdrawRepair) ||| (rights &&& grRightWithdrawGold) = 0 := by
      rw [← BitVec.and_or_distrib_left]
      exact hzero
    exact BitVec.or_eq_zero_iff.mp hbits
  obtain rfl | rfl := hr
  · exact h hparts.1
  · exact h hparts.2

/-- One withdrawal, refused or made, keeps the account of the day. -/
theorem Spent.withdraw (h : Spent start t player rights limit total)
    (hlimited : start.Limited player member rights limit) (amount : Nat) (repair : Bool) :
    Spent start (t.handleMemberWithdrawMoney player amount repair).2 player rights limit
      (if (t.handleMemberWithdrawMoney player amount repair).1 then
        total + withdrawnAmount amount else total) := by
  have hlim : t.Limited player member rights limit := by
    obtain ⟨hknown, hbelow, hrights, hperDay, hlt⟩ := hlimited
    exact ⟨h.guild ▸ hknown, hbelow, h.guild ▸ hrights, h.guild ▸ hperDay, hlt⟩
  obtain hrefused | ⟨member', hmember, hbank, hright, hremaining, hroom, hpaid⟩ :=
    t.handleMemberWithdrawMoney_cases player amount repair
  · simpa only [hrefused, Bool.false_eq_true, if_false] using h
  obtain rfl : member' = member := Option.some.inj (hmember.symm.trans hlim.known)
  have hused : t.bankWithdrawMoney player ≤ limit * gold := by rw [h.used]; exact h.within
  rw [hlim.hasRankRight] at hright
  rw [hlim.remaining hused, h.used] at hremaining
  have hbig : limit * gold < 2 ^ 64 := by
    have hlt := hlim.limit_lt
    rw [gold]
    omega
  have hwithin : total + withdrawnAmount amount ≤ limit * gold := by
    have hold := h.within
    split at hremaining <;> omega
  rw [hpaid]
  simp only [if_true]
  refine ⟨h.guild, ?_, ?_, hwithin, fun _ => ?_, fun hnone => ?_⟩
  · have hold := h.bank
    simp only [paidOut]
    omega
  · simp only [paidOut, updateBankMoneyWithdrawValue, Function.update_self, h.used]
    exact Nat.mod_eq_of_lt (by omega)
  · cases repair with
    | true => exact .inl hright
    | false => exact .inr hright
  · cases repair with
    | true => exact absurd hnone hright
    | false =>
      obtain ⟨hmoney, hmax⟩ := h.purse hnone
      have hsmall := @withdrawnAmount_le amount
      simp only [paidOut, Bool.false_eq_true, if_false, Function.update_self]
      refine ⟨by omega, fun hpos => ?_⟩
      obtain hfalse | hzero | hfits := hroom
      · cases hfalse
      · rw [hzero, Nat.add_zero] at hpos ⊢
        exact hmax hpos
      · omega

theorem Spent.withdrawals (h : Spent start t player rights limit total)
    (hlimited : start.Limited player member rights limit) (requests : List Request) :
    Spent start (t.withdrawals player requests).2 player rights limit
      (total + (t.withdrawals player requests).1) := by
  induction requests generalizing t total with
  | nil => exact h
  | cons request requests ih =>
    obtain ⟨amount, repair⟩ := request
    have hnext := ih (h.withdraw hlimited amount repair)
    simp only [Treasury.withdrawals]
    cases hdone : (t.handleMemberWithdrawMoney player amount repair).1 with
    | true => simpa [hdone, Nat.add_assoc] using hnext
    | false => simpa [hdone] using hnext

theorem Spent.atReset (hreset : t.bankWithdrawMoney player = 0) :
    Spent t t player rights limit 0 :=
  ⟨rfl, rfl, hreset, Nat.zero_le _, fun hpos => absurd hpos (Nat.lt_irrefl 0),
    fun _ => ⟨rfl, fun hpos => absurd hpos (Nat.lt_irrefl 0)⟩⟩

theorem Limited.dailyLimit (h : start.Limited player member rights limit)
    (hreset : start.bankWithdrawMoney player = 0)
    (hsafe : ¬ start.CanOverdraw player rights limit) : start.DailyLimit player limit := by
  intro requests
  refine ⟨Nat.not_lt.mp fun hover => hsafe ?_, fun request =>
    handleMemberWithdrawMoney_exact _ player request⟩
  have hspent := (Spent.atReset hreset).withdrawals h requests
  rw [Nat.zero_add] at hspent
  have hwithin := hspent.within
  have hbank := hspent.bank
  refine ⟨?_, by omega, ?_⟩
  · by_contra hzero
    obtain rfl : limit = 0 := Nat.eq_zero_of_not_pos hzero
    omega
  · by_cases hrepair : rights &&& grRightWithdrawRepair = 0
    · have hright := (hspent.right (by omega)).resolve_left (not_not.mpr hrepair)
      obtain ⟨hmoney, hmax⟩ := hspent.purse hrepair
      have hle := hmax (by omega)
      exact .inr ⟨hright, by omega⟩
    · exact .inl hrepair

/-- One request for a copper more than the limit is made whenever a day can be overdrawn. -/
theorem Limited.overdrawn (h : start.Limited player member rights limit)
    (hreset : start.bankWithdrawMoney player = 0)
    (hover : start.CanOverdraw player rights limit) : ¬ start.DailyLimit player limit := by
  obtain ⟨hpos, hbank, hrights⟩ := hover
  have hlt := h.limit_lt
  have hamount : withdrawnAmount (limit + 1) = limit + 1 := by
    rw [withdrawnAmount, maxMoneyAmount]
    omega
  have hmade : ∀ repair : Bool,
      rights &&& (if repair then grRightWithdrawRepair else grRightWithdrawGold) ≠ 0 →
      (repair = true ∨ start.money player + limit < maxMoneyAmount) →
      (start.handleMemberWithdrawMoney player (limit + 1) repair).1 = true := by
    intro repair hright hroom
    refine handleMemberWithdrawMoney_paid (by omega) h.known ((h.hasRankRight _).mpr hright) ?_ ?_
    · have hboth := bothRights_ne (by cases repair <;> simp) hright
      rw [h.remaining (by omega), if_pos hboth, hreset, hamount, gold]
      omega
    · rw [hamount]
      exact hroom.imp_right fun hfits => by omega
  obtain ⟨repair, hdone⟩ : ∃ repair,
      (start.handleMemberWithdrawMoney player (limit + 1) repair).1 = true := by
    obtain hrepair | ⟨hgold, hroom⟩ := hrights
    · exact ⟨true, hmade true hrepair (.inl rfl)⟩
    · exact ⟨false, hmade false hgold (.inr hroom)⟩
  intro hday
  have htotal := (hday [(limit + 1, repair)]).1
  simp only [Treasury.withdrawals, hdone, if_true, hamount] at htotal
  omega

end Treasury

/-- The stored copper of a rank below guild master is the limit that was asked for. -/
theorem Treasury.limited_setRankInfo {t : Treasury} {leader player : ObjectGuid} {rankId : Nat}
    {info : RankInfo} {member : Member} (name : String) (rights : BitVec 32) {m : Nat}
    (hleader : t.guild.isLeader leader = true)
    (hrank : t.guild.getRankInfo rankId = some info) (hinfo : info.rankId ≠ grGuildmaster)
    (hbelow : rankId ≠ grGuildmaster) (hmember : t.guild.getMember player = some member)
    (hof : member.rankId = rankId) (hm : m * gold < 2 ^ 32) :
    (t.setRankInfo leader rankId name rights m).resetValues.Limited player member rights
      (m * gold) := by
  have hlt : rankId < t.guild.ranksSize := by
    by_contra hge
    rw [Guild.getRankInfo, if_neg hge] at hrank
    cases hrank
  have hget : t.guild.ranks[rankId]? = some info := by
    rw [Guild.getRankInfo, if_pos hlt] at hrank
    exact hrank
  have hlength := (List.getElem?_eq_some_iff.mp hget).1
  have hguild : (t.setRankInfo leader rankId name rights m).resetValues.guild =
      { t.guild with
        ranks := t.guild.ranks.set rankId
          (((info.setName name).setRights rights).setBankMoneyPerDay (m * gold % 2 ^ 32)) } := by
    simp only [Treasury.resetValues, Treasury.setRankInfo, Guild.handleSetRankInfo, hleader, hrank,
      not_true_eq_false, if_false]
  have hset : (t.setRankInfo leader rankId name rights m).resetValues.guild.getRankInfo rankId =
      some (((info.setName name).setRights rights).setBankMoneyPerDay (m * gold % 2 ^ 32)) := by
    rw [hguild, Guild.getRankInfo, Guild.ranksSize, List.length_set]
    exact (if_pos hlt).trans (List.getElem?_set_self hlength)
  refine ⟨?_, hof ▸ hbelow, ?_, ?_, hm⟩
  · rw [hguild]
    exact hmember
  · rw [hof, Guild.rankRights, hset]
    exact if_neg hinfo
  · rw [hof, Guild.rankBankMoneyPerDay, hset]
    exact (if_pos hinfo).trans (Nat.mod_eq_of_lt hm)

/-- In a day that begins with `ResetValues`, after a limit of `m` gold was set for the rank,
a member of the rank stays within that limit in every sequence of withdrawals, each of them exact,
if and only if the day cannot be overdrawn. -/
theorem dailyLimit_iff (t : Treasury) (leader player : ObjectGuid) (rankId : Nat)
    (info : RankInfo) (member : Member) (name : String) (rights : BitVec 32) (m : Nat)
    (hleader : t.guild.isLeader leader = true)
    (hrank : t.guild.getRankInfo rankId = some info) (hinfo : info.rankId ≠ grGuildmaster)
    (hbelow : rankId ≠ grGuildmaster) (hmember : t.guild.getMember player = some member)
    (hof : member.rankId = rankId) (hm : m * gold < 2 ^ 32) :
    (t.setRankInfo leader rankId name rights m).resetValues.DailyLimit player (m * gold) ↔
      ¬ (t.setRankInfo leader rankId name rights m).resetValues.CanOverdraw player rights
        (m * gold) := by
  have hlimited :=
    Treasury.limited_setRankInfo name rights hleader hrank hinfo hbelow hmember hof hm
  constructor
  · intro hday hover
    exact hlimited.overdrawn rfl hover hday
  · exact hlimited.dailyLimit rfl

def twoGold : Treasury where
  guild :=
    { leaderGuid := 1
      ranks := [⟨0, "", grRightAll, 0⟩, ⟨1, "", grRightAll, 0⟩]
      members := ((∅ : Members).insert 2 (Member.new "" 1)).insert 1 (Member.new "" 0) }
  bankMoney := 20000
  bankWithdrawMoney := fun _ => 0
  money := fun _ => 0

/-- With a limit of two gold the bank itself ends the day. -/
theorem dailyLimit_iff_twoGold :
    (twoGold.setRankInfo 1 1 "" grRightAll 2).resetValues.DailyLimit 2 (2 * gold) :=
  (dailyLimit_iff twoGold 1 2 1 ⟨1, "", grRightAll, 0⟩ (Member.new "" 1) "" grRightAll 2
    (by decide) (by decide) (by decide) (by decide) (by decide) (by decide) (by decide)).mpr
    fun hover => absurd hover.2.1 (by decide)

/-- An officer with a limit of one gold takes two gold for repairs. -/
theorem dailyLimit_fails_twoGold :
    ¬ ∀ (t : Treasury) (leader player : ObjectGuid) (rankId : Nat) (info : RankInfo)
      (member : Member) (name : String) (rights : BitVec 32) (m : Nat),
      t.guild.isLeader leader = true → t.guild.getRankInfo rankId = some info →
      info.rankId ≠ grGuildmaster → rankId ≠ grGuildmaster →
      t.guild.getMember player = some member → member.rankId = rankId → m * gold < 2 ^ 32 →
      (t.setRankInfo leader rankId name rights m).resetValues.DailyLimit player (m * gold) := by
  intro hall
  have hday := hall twoGold 1 2 1 ⟨1, "", grRightAll, 0⟩ (Member.new "" 1) "" grRightAll 1
    (by decide) (by decide) (by decide) (by decide) (by decide) (by decide) (by decide)
  have htwo : ((twoGold.setRankInfo 1 1 "" grRightAll 1).resetValues.withdrawals 2
      [(20000, true)]).1 = 20000 := by decide
  have hle := (hday [(20000, true)]).1
  rw [htwo] at hle
  exact absurd hle (by decide)

end Ashamane.Guilds
