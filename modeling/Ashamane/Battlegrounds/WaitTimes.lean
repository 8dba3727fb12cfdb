import Mathlib.Data.BitVec
import Mathlib.Algebra.BigOperators.Group.List.Basic
import Mathlib.Data.List.Rotate
import Ashamane.Lib.Run
import Ashamane.Battlegrounds.WholeQueue

/-! The average wait time of a queue: a ring of the last ten times, with their sum. -/
namespace Ashamane.Battlegrounds

/-- The arrays of one side in one bracket. The index is a number here, and may lie outside. -/
structure WaitTimeRing where
  waitTimes : List (BitVec 32)
  waitTimeLastPlayer : BitVec 32
  sumOfWaitTimes : BitVec 32
  deriving DecidableEq, Repr

namespace WaitTimeRing

def clear : WaitTimeRing := ⟨List.replicate countOfPlayersToAverageWaitTime 0, 0, 0⟩

def add (w : WaitTimeRing) (timeInQueue : BitVec 32) : Option WaitTimeRing := do
  let first ← w.waitTimes[w.waitTimeLastPlayer.toNat]?
  let sum := w.sumOfWaitTimes - first
  some
    { waitTimes := w.waitTimes.set w.waitTimeLastPlayer.toNat timeInQueue
      waitTimeLastPlayer := (w.waitTimeLastPlayer + 1) % countOfPlayersToAverageWaitTime
      sumOfWaitTimes := sum + timeInQueue }

def average (w : WaitTimeRing) : Option (BitVec 32) := do
  let newest ← w.waitTimes[countOfPlayersToAverageWaitTime - 1]?
  some (if newest ≠ 0 then w.sumOfWaitTimes / countOfPlayersToAverageWaitTime else 0)

end WaitTimeRing

/-- Rated arenas are counted for the horde, the other arenas for the alliance. -/
def waitTimeTeam (ginfo : GroupQueueInfo) : Team :=
  if ginfo.arenaType = 0 then
    if ginfo.team = .horde then .horde else .alliance
  else
    if ginfo.isRated then .horde else .alliance

abbrev QueueWaitTimes : Type := Team → BracketId → WaitTimeRing

namespace QueueWaitTimes

def clear : QueueWaitTimes := fun _ _ => .clear

def playerInvitedToBGUpdateAverageWaitTime (q : QueueWaitTimes) (now : BitVec 32)
    (ginfo : GroupQueueInfo) (bracketId : BracketId) : Option QueueWaitTimes := do
  let timeInQueue := BattlegroundQueue.getMSTimeDiff ginfo.joinTime now
  let teamIndex := waitTimeTeam ginfo
  let ring ← (q teamIndex bracketId).add timeInQueue
  some (Function.update q teamIndex (Function.update (q teamIndex) bracketId ring))

def getAverageQueueWaitTime (q : QueueWaitTimes) (ginfo : GroupQueueInfo)
    (bracketId : BracketId) : Option (BitVec 32) :=
  (q (waitTimeTeam ginfo) bracketId).average

end QueueWaitTimes

structure Invitation where
  now : BitVec 32
  ginfo : GroupQueueInfo
  bracketId : BracketId

def QueueWaitTimes.step (q : QueueWaitTimes) (i : Invitation) : Option QueueWaitTimes :=
  q.playerInvitedToBGUpdateAverageWaitTime i.now i.ginfo i.bracketId

def QueueWaitTimes.run (l : List Invitation) : Option QueueWaitTimes :=
  l.foldlM QueueWaitTimes.step .clear

/-! The ring, and the times that were given. -/

/-- The last ten times, the oldest one first; zeros stand for those that are not there. -/
def lastTimes (times : List (BitVec 32)) : List (BitVec 32) :=
  (List.replicate countOfPlayersToAverageWaitTime 0 ++ times).drop times.length

theorem length_lastTimes (times : List (BitVec 32)) :
    (lastTimes times).length = countOfPlayersToAverageWaitTime := by
  simp [lastTimes]

theorem lastTimes_append (times : List (BitVec 32)) (time : BitVec 32) :
    lastTimes (times ++ [time]) = (lastTimes times).tail ++ [time] := by
  rw [lastTimes, lastTimes, List.length_append, List.length_singleton, List.tail_drop,
    ← List.append_assoc, List.drop_append_of_le_length]
  rw [List.length_append, List.length_replicate, Nat.add_comm]
  exact Nat.add_le_add_right (by decide) _

/-- An entry that is overwritten becomes the last one when the ring is read from the next place. -/
theorem rotate_set {α : Type*} (l : List α) {k : Nat} (h : k < l.length) (x : α) :
    (l.set k x).rotate (k + 1) = (l.rotate k).tail ++ [x] := by
  have htake : (l.set k x).take (k + 1) = l.take k ++ [x] := by
    rw [List.take_succ_eq_append_getElem (by simpa using h), List.getElem_set_self,
      List.take_set_of_le (Nat.le_refl k)]
  have hdrop : (l.set k x).drop (k + 1) = l.drop (k + 1) :=
    List.drop_set_of_lt (Nat.lt_succ_self k)
  have hnext : k + 1 ≤ (l.set k x).length := by
    rw [List.length_set]
    exact h
  rw [List.rotate_eq_drop_append_take hnext, htake, hdrop,
    List.rotate_eq_drop_append_take h.le, List.tail_append_of_ne_nil, List.tail_drop,
    List.append_assoc]
  exact List.ne_nil_of_length_pos (by rw [List.length_drop]; omega)

theorem toNat_sum (l : List (BitVec 32)) :
    l.sum.toNat = (l.map BitVec.toNat).sum % 2 ^ 32 := by
  induction l with
  | nil => rfl
  | cons x l ih =>
    rw [List.sum_cons, BitVec.toNat_add, ih, List.map_cons, List.sum_cons, Nat.add_mod_mod]

theorem sum_set_eq {l : List (BitVec 32)} {k : Nat} (h : k < l.length) (x : BitVec 32) :
    (l.set k x).sum = l.sum - l[k] + x := by
  rw [List.sum_set', dif_pos h, sub_add_eq_add_sub, add_sub_assoc, sub_eq_neg_add]

/-- Read from the place that is overwritten next, the ring has the last ten times. -/
structure WaitTimeRing.Holds (w : WaitTimeRing) (times : List (BitVec 32)) : Prop where
  last : w.waitTimeLastPlayer.toNat = times.length % countOfPlayersToAverageWaitTime
  ring : w.waitTimes.rotate times.length = lastTimes times
  sum : w.sumOfWaitTimes = w.waitTimes.sum

namespace WaitTimeRing
variable {w : WaitTimeRing} {times : List (BitVec 32)}

theorem holds_clear : clear.Holds [] := ⟨rfl, rfl, rfl⟩

theorem Holds.length (h : w.Holds times) :
    w.waitTimes.length = countOfPlayersToAverageWaitTime := by
  rw [← List.length_rotate w.waitTimes times.length, h.ring, length_lastTimes]

/-- A new time takes the place of the oldest one, in the ring and in the sum. -/
theorem Holds.add (h : w.Holds times) (time : BitVec 32) :
    ∃ w', w.add time = some w' ∧ w'.Holds (times ++ [time]) := by
  have hplace : times.length % countOfPlayersToAverageWaitTime < w.waitTimes.length := by
    rw [h.length]
    exact Nat.mod_lt _ (by decide)
  have hfirst := List.getElem?_eq_getElem hplace
  refine ⟨_, by simp only [WaitTimeRing.add, h.last, hfirst]; rfl, ?_, ?_, ?_⟩
  · change ((w.waitTimeLastPlayer + 1) % 10).toNat = _
    have hlast := h.last
    rw [h.length] at hplace
    rw [BitVec.toNat_umod, BitVec.toNat_add, hlast, List.length_append, List.length_singleton]
    change (times.length % 10 + 1) % 2 ^ 32 % 10 = (times.length + 1) % 10
    omega
  · have hnext : (times ++ [time]).length % countOfPlayersToAverageWaitTime =
        (times.length % countOfPlayersToAverageWaitTime + 1) % countOfPlayersToAverageWaitTime := by
      rw [List.length_append, List.length_singleton, Nat.mod_add_mod]
    have hold : w.waitTimes.rotate (times.length % countOfPlayersToAverageWaitTime) =
        lastTimes times := by
      rw [← h.length, List.rotate_mod, h.ring]
    rw [lastTimes_append, ← hold, ← rotate_set _ hplace, ← List.rotate_mod _ (_ + 1),
      ← List.rotate_mod _ (times ++ [time]).length, List.length_set, h.length, hnext]
  · rw [h.sum, sum_set_eq hplace]

theorem Holds.newest (h : w.Holds times) :
    w.waitTimes[countOfPlayersToAverageWaitTime - 1]? =
      (lastTimes times)[countOfPlayersToAverageWaitTime - 1 -
        times.length % countOfPlayersToAverageWaitTime]? := by
  have hlength := h.length
  have hplace : countOfPlayersToAverageWaitTime - 1 -
      times.length % countOfPlayersToAverageWaitTime < w.waitTimes.length := by
    rw [hlength]
    exact Nat.lt_of_le_of_lt (Nat.sub_le _ _) (by decide)
  rw [← h.ring, List.getElem?_rotate hplace, hlength]
  congr 1
  change 9 = (9 - times.length % 10 + times.length) % 10
  omega

theorem lastTimes_of_lt (h : times.length < countOfPlayersToAverageWaitTime) :
    (lastTimes times)[countOfPlayersToAverageWaitTime - 1 -
        times.length % countOfPlayersToAverageWaitTime]? = some 0 := by
  have hplace : times.length + (countOfPlayersToAverageWaitTime - 1 - times.length) <
      countOfPlayersToAverageWaitTime := by
    change times.length < 10 at h
    change times.length + (9 - times.length) < 10
    omega
  rw [Nat.mod_eq_of_lt h, lastTimes, List.getElem?_drop,
    List.getElem?_append_left (by rwa [List.length_replicate]),
    List.getElem?_replicate_of_lt hplace]

def AverageRight (w : WaitTimeRing) (times : List (BitVec 32)) : Prop :=
  ∀ average, w.average = some average → average ≠ 0 →
    countOfPlayersToAverageWaitTime ≤ times.length ∧
      average.toNat = (w.waitTimes.map BitVec.toNat).sum / countOfPlayersToAverageWaitTime

def lastTotal (times : List (BitVec 32)) : Nat := ((lastTimes times).map BitVec.toNat).sum

theorem Holds.total (h : w.Holds times) :
    (w.waitTimes.map BitVec.toNat).sum = lastTotal times := by
  rw [lastTotal, ← h.ring]
  exact ((List.rotate_perm w.waitTimes times.length).map BitVec.toNat).sum_eq.symm

def newestTime (times : List (BitVec 32)) : Option (BitVec 32) :=
  (lastTimes times)[countOfPlayersToAverageWaitTime - 1 -
    times.length % countOfPlayersToAverageWaitTime]?

theorem Holds.average_eq (h : w.Holds times) {newest : BitVec 32}
    (hnewest : newestTime times = some newest) :
    w.average =
      some (if newest ≠ 0 then w.sumOfWaitTimes / countOfPlayersToAverageWaitTime else 0) := by
  rw [WaitTimeRing.average, h.newest]
  rw [newestTime] at hnewest
  rw [hnewest]
  rfl

theorem Holds.toNat_mean (h : w.Holds times) :
    (w.sumOfWaitTimes / (countOfPlayersToAverageWaitTime : BitVec 32)).toNat =
      lastTotal times % 2 ^ 32 / countOfPlayersToAverageWaitTime := by
  rw [BitVec.toNat_udiv, h.sum, toNat_sum, h.total]
  rfl

theorem newestTime_isSome (h : w.Holds times) : ∃ newest, newestTime times = some newest := by
  have hplace : countOfPlayersToAverageWaitTime - 1 < w.waitTimes.length := by
    rw [h.length]
    decide
  exact ⟨_, h.newest.symm.trans (List.getElem?_eq_getElem hplace)⟩

theorem Holds.averageRight_iff (h : w.Holds times) :
    w.AverageRight times ↔
      lastTotal times < 2 ^ 32 ∨ lastTotal times % 2 ^ 32 < countOfPlayersToAverageWaitTime ∨
        newestTime times = some 0 := by
  obtain ⟨newest, hnewest⟩ := newestTime_isSome h
  have haverage := h.average_eq hnewest
  have hmean := h.toNat_mean
  constructor
  · intro hright
    by_cases hzero : newest = 0
    · exact .inr (.inr (hzero ▸ hnewest))
    · rw [if_pos hzero] at haverage
      by_cases hnone : lastTotal times % 2 ^ 32 < 10
      · exact .inr (.inl hnone)
      · refine .inl ?_
        have hne : w.sumOfWaitTimes / (countOfPlayersToAverageWaitTime : BitVec 32) ≠ 0 := by
          intro hz
          rw [hz] at hmean
          change 0 = lastTotal times % 2 ^ 32 / 10 at hmean
          omega
        have hfloor := (hright _ haverage hne).2
        rw [hmean, h.total] at hfloor
        change lastTotal times % 2 ^ 32 / 10 = lastTotal times / 10 at hfloor
        omega
  · intro hfits average hsome hne
    obtain rfl := Option.some.inj (haverage.symm.trans hsome)
    have hfull : newest ≠ 0 := by
      intro hz
      exact hne (if_neg (not_not.2 hz))
    rw [if_pos hfull] at hne ⊢
    constructor
    · by_contra hfew
      have hz := lastTimes_of_lt (Nat.lt_of_not_le hfew)
      exact hfull (Option.some.inj (hnewest.symm.trans hz))
    · rw [hmean, h.total]
      have hpos : lastTotal times % 2 ^ 32 / countOfPlayersToAverageWaitTime ≠ 0 := by
        rw [← hmean]
        intro hz
        exact hne (BitVec.eq_of_toNat_eq hz)
      rcases hfits with hlt | hsmall | hz
      · rw [Nat.mod_eq_of_lt hlt]
      · exact absurd (Nat.div_eq_of_lt hsmall) hpos
      · exact absurd (Option.some.inj (hnewest.symm.trans hz)) hfull

end WaitTimeRing

/-! The rings over a run. -/

def waitsOf (l : List Invitation) (team : Team) (bracketId : BracketId) : List (BitVec 32) :=
  (l.filter fun i => waitTimeTeam i.ginfo = team ∧ i.bracketId = bracketId).map
    fun i => BattlegroundQueue.getMSTimeDiff i.ginfo.joinTime i.now

theorem waitsOf_append (l : List Invitation) (i : Invitation) (team : Team)
    (bracketId : BracketId) :
    waitsOf (l ++ [i]) team bracketId =
      if waitTimeTeam i.ginfo = team ∧ i.bracketId = bracketId then
        waitsOf l team bracketId ++ [BattlegroundQueue.getMSTimeDiff i.ginfo.joinTime i.now]
      else waitsOf l team bracketId := by
  by_cases h : waitTimeTeam i.ginfo = team ∧ i.bracketId = bracketId
  · simp [waitsOf, h]
  · simp [waitsOf, h]

namespace QueueWaitTimes
variable {q : QueueWaitTimes} {l : List Invitation}

def Holds (q : QueueWaitTimes) (l : List Invitation) : Prop :=
  ∀ team bracketId, (q team bracketId).Holds (waitsOf l team bracketId)

theorem Holds.step (h : q.Holds l) (i : Invitation) :
    ∃ q', q.step i = some q' ∧ q'.Holds (l ++ [i]) := by
  obtain ⟨ring, hadd, hring⟩ := (h (waitTimeTeam i.ginfo) i.bracketId).add
    (BattlegroundQueue.getMSTimeDiff i.ginfo.joinTime i.now)
  refine ⟨Function.update q (waitTimeTeam i.ginfo)
    (Function.update (q (waitTimeTeam i.ginfo)) i.bracketId ring), ?_, fun team bracketId => ?_⟩
  · simp only [QueueWaitTimes.step, playerInvitedToBGUpdateAverageWaitTime, hadd]
    rfl
  · rw [waitsOf_append]
    by_cases hteam : waitTimeTeam i.ginfo = team
    · subst hteam
      rw [Function.update_self]
      by_cases hbracket : i.bracketId = bracketId
      · subst hbracket
        rw [Function.update_self, if_pos ⟨rfl, rfl⟩]
        exact hring
      · rw [Function.update_of_ne (Ne.symm hbracket), if_neg fun hs => hbracket hs.2]
        exact h _ bracketId
    · rw [Function.update_of_ne (Ne.symm hteam), if_neg fun hs => hteam hs.1]
      exact h team bracketId

theorem run_holds (l : List Invitation) : ∃ q, run l = some q ∧ q.Holds l := by
  induction l using List.reverseRecOn with
  | nil => exact ⟨clear, rfl, fun _ _ => WaitTimeRing.holds_clear⟩
  | append_singleton l i ih =>
    obtain ⟨q, hrun, hq⟩ := ih
    obtain ⟨q', hstep, hq'⟩ := hq.step i
    refine ⟨q', ?_, hq'⟩
    rw [run] at hrun ⊢
    rw [List.foldlM_append, hrun]
    simp [hstep]

/-- After every run the sums are right and the indices are inside. An average that is given is the
mean of a full ring exactly if the ten times do not wrap, unless the average is 0 in any case. -/
theorem run_average (l : List Invitation) :
    ∃ q, run l = some q ∧
      (∀ team bracketId,
        (q team bracketId).sumOfWaitTimes = (q team bracketId).waitTimes.sum ∧
          (q team bracketId).waitTimeLastPlayer.toNat < countOfPlayersToAverageWaitTime) ∧
      ∀ ginfo bracketId, ∃ average, q.getAverageQueueWaitTime ginfo bracketId = some average ∧
        ((average ≠ 0 →
            countOfPlayersToAverageWaitTime ≤ (waitsOf l (waitTimeTeam ginfo) bracketId).length ∧
              average.toNat = ((q (waitTimeTeam ginfo) bracketId).waitTimes.map BitVec.toNat).sum /
                countOfPlayersToAverageWaitTime) ↔
          WaitTimeRing.lastTotal (waitsOf l (waitTimeTeam ginfo) bracketId) < 2 ^ 32 ∨
            WaitTimeRing.lastTotal (waitsOf l (waitTimeTeam ginfo) bracketId) % 2 ^ 32 <
              countOfPlayersToAverageWaitTime ∨
            WaitTimeRing.newestTime (waitsOf l (waitTimeTeam ginfo) bracketId) = some 0) := by
  obtain ⟨q, hrun, hq⟩ := run_holds l
  refine ⟨q, hrun, fun team bracketId => ⟨(hq team bracketId).sum, ?_⟩, fun ginfo bracketId => ?_⟩
  · rw [(hq team bracketId).last]
    exact Nat.mod_lt _ (by decide)
  · have hring := hq (waitTimeTeam ginfo) bracketId
    obtain ⟨newest, hnewest⟩ := WaitTimeRing.newestTime_isSome hring
    have haverage := hring.average_eq hnewest
    refine ⟨_, haverage, ?_⟩
    rw [← hring.averageRight_iff, WaitTimeRing.AverageRight]
    constructor
    · intro hright average hsome
      obtain rfl := Option.some.inj (haverage.symm.trans hsome)
      exact hright
    · intro hright
      exact hright _ haverage

def longWait : Invitation where
  now := 2 ^ 30
  ginfo :=
    { players := [], team := .alliance, bgTypeId := 0, isRated := false, arenaType := 0
      joinTime := 0, removeInviteTime := 0, isInvitedToBGInstanceGUID := 0, arenaGroupRating := 0
      arenaMatchmakerRating := 0, opponentsTeamRating := 0, opponentsMatchmakerRating := 0 }
  bracketId := 0

/-- The mean of ten such waits is given as two and a half days. -/
theorem average_of_long_waits :
    (run (List.replicate 10 longWait)).bind (fun q => q.getAverageQueueWaitTime longWait.ginfo 0) =
        some 214748364 ∧
      (run (List.replicate 10 longWait)).map
        (fun q => ((q .alliance 0).waitTimes.map BitVec.toNat).sum / 10) = some 1073741824 := by
  decide +kernel

end QueueWaitTimes

/-! The rings of the queue, whose index cannot lie outside. -/

def WaitTimes.toRing (w : WaitTimes) : WaitTimeRing where
  waitTimes := List.ofFn w.times
  waitTimeLastPlayer := BitVec.ofNat 32 w.lastPlayer
  sumOfWaitTimes := w.sum

theorem ofFn_update {α : Type*} {n : Nat} (f : Fin n → α) (i : Fin n) (x : α) :
    List.ofFn (Function.update f i x) = (List.ofFn f).set i x := by
  apply List.ext_getElem
  · rw [List.length_set, List.length_ofFn, List.length_ofFn]
  · intro k hk hk'
    rw [List.getElem_ofFn, List.getElem_set, List.getElem_ofFn]
    by_cases h : (i : Nat) = k
    · subst h
      rw [if_pos rfl, Function.update_self]
    · rw [if_neg h, Function.update_of_ne fun hi => h (congrArg Fin.val hi).symm]

theorem BattlegroundQueue.add_toRing (srv : Server) (q : BattlegroundQueue)
    (ginfo : GroupQueueInfo) :
    (q.waitTimes (waitTimeTeam ginfo)).toRing.add (getMSTimeDiff ginfo.joinTime srv.msTime) =
      some ((playerInvitedToBGUpdateAverageWaitTime srv q ginfo).waitTimes
        (waitTimeTeam ginfo)).toRing := by
  have hteam : waitTimeTeam ginfo =
      if ginfo.arenaType = 0 then ginfo.team else if ginfo.isRated then .horde else .alliance := by
    rw [waitTimeTeam]
    cases ginfo.team <;> rfl
  simp only [playerInvitedToBGUpdateAverageWaitTime, ← hteam, Function.update_self]
  generalize q.waitTimes (waitTimeTeam ginfo) = w
  have hsmall : w.lastPlayer.val < 10 := w.lastPlayer.isLt
  have hplace : (BitVec.ofNat 32 w.lastPlayer.val).toNat = w.lastPlayer := by
    rw [BitVec.toNat_ofNat]
    exact Nat.mod_eq_of_lt (by omega)
  have hfirst : (List.ofFn w.times)[(w.lastPlayer : Nat)]? = some (w.times w.lastPlayer) := by
    rw [List.getElem?_ofFn, dif_pos w.lastPlayer.isLt]
  have hlast : (BitVec.ofNat 32 w.lastPlayer.val + 1) % (10 : BitVec 32) =
      BitVec.ofNat 32 (w.lastPlayer + 1).val := by
    apply BitVec.eq_of_toNat_eq
    rw [BitVec.toNat_umod, BitVec.toNat_add, hplace, BitVec.toNat_ofNat, Fin.val_add]
    change (w.lastPlayer.val + 1) % 2 ^ 32 % 10 = (w.lastPlayer.val + 1) % 10 % 2 ^ 32
    omega
  simp only [WaitTimes.toRing, WaitTimeRing.add, hplace, hfirst, ofFn_update]
  exact congrArg some (congrArg (fun last => WaitTimeRing.mk _ last _) hlast)

end Ashamane.Battlegrounds
