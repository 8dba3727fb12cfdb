import Mathlib.Data.List.Induction
import Ashamane.Lib.Assoc

/-! The average wait times of the dungeons: what the updates make of all the times given. -/
namespace Ashamane.DungeonQueue
open Ashamane.Lib

structure LfgWaitTime where
  time : Int32
  number : UInt32
  deriving DecidableEq, Repr

/-- What `operator[]` makes of a dungeon that has no entry. -/
def LfgWaitTime.default : LfgWaitTime := ⟨-1, 0⟩

/-- The number that is counted up becomes 0 in the end, and is divided by. -/
def LfgWaitTime.update (wt : LfgWaitTime) (waitTime : Int32) : Option LfgWaitTime :=
  let old_number := wt.number
  let number := wt.number + 1
  if number = 0 then none
  else
    some
      { time := ((wt.time.toUInt32 * old_number + waitTime.toUInt32) / number).toInt32
        number }

abbrev LfgWaitTimesContainer : Type := AList fun _ : UInt32 => LfgWaitTime

def updateWaitTime (store : LfgWaitTimesContainer) (waitTime : Int32) (dungeonId : UInt32) :
    Option LfgWaitTimesContainer := do
  let wt ← ((store.lookup dungeonId).getD .default).update waitTime
  some (store.insert dungeonId wt)

structure WaitTimeStores where
  waitTimesAvgStore : LfgWaitTimesContainer
  waitTimesTankStore : LfgWaitTimesContainer
  waitTimesHealerStore : LfgWaitTimesContainer
  waitTimesDpsStore : LfgWaitTimesContainer

namespace WaitTimeStores

def empty : WaitTimeStores := ⟨∅, ∅, ∅, ∅⟩

variable (s : WaitTimeStores) (waitTime : Int32) (dungeonId : UInt32)

def updateWaitTimeAvg : Option WaitTimeStores := do
  some { s with waitTimesAvgStore := ← updateWaitTime s.waitTimesAvgStore waitTime dungeonId }

def updateWaitTimeTank : Option WaitTimeStores := do
  some { s with waitTimesTankStore := ← updateWaitTime s.waitTimesTankStore waitTime dungeonId }

def updateWaitTimeHealer : Option WaitTimeStores := do
  some { s with waitTimesHealerStore := ← updateWaitTime s.waitTimesHealerStore waitTime dungeonId }

def updateWaitTimeDps : Option WaitTimeStores := do
  some { s with waitTimesDpsStore := ← updateWaitTime s.waitTimesDpsStore waitTime dungeonId }

end WaitTimeStores

inductive WaitTimeStore
  | avg
  | tank
  | healer
  | dps
  deriving DecidableEq, Repr

def WaitTimeStores.get (s : WaitTimeStores) : WaitTimeStore → LfgWaitTimesContainer
  | .avg => s.waitTimesAvgStore
  | .tank => s.waitTimesTankStore
  | .healer => s.waitTimesHealerStore
  | .dps => s.waitTimesDpsStore

structure WaitTimeCall where
  store : WaitTimeStore
  waitTime : Int32
  dungeonId : UInt32
  deriving DecidableEq, Repr

def WaitTimeStores.step (s : WaitTimeStores) (call : WaitTimeCall) : Option WaitTimeStores :=
  match call.store with
  | .avg => s.updateWaitTimeAvg call.waitTime call.dungeonId
  | .tank => s.updateWaitTimeTank call.waitTime call.dungeonId
  | .healer => s.updateWaitTimeHealer call.waitTime call.dungeonId
  | .dps => s.updateWaitTimeDps call.waitTime call.dungeonId

def WaitTimeStores.run (calls : List WaitTimeCall) : Option WaitTimeStores :=
  calls.foldlM WaitTimeStores.step .empty

/-! The averages as they should be. -/

def addTime (average number waitTime : Nat) : Nat := (average * number + waitTime) / (number + 1)

def averageOf (times : List Nat) : Nat :=
  (times.foldl (fun s waitTime => (addTime s.1 s.2 waitTime, s.2 + 1)) (0, 0)).1

def timesOf (calls : List WaitTimeCall) (store : WaitTimeStore) (dungeonId : UInt32) : List Nat :=
  (calls.filter fun call => call.store = store ∧ call.dungeonId = dungeonId).map
    fun call => call.waitTime.toInt.toNat

theorem foldl_addTime_snd (times : List Nat) (s : Nat × Nat) :
    (times.foldl (fun s waitTime => (addTime s.1 s.2 waitTime, s.2 + 1)) s).2 =
      s.2 + times.length := by
  induction times generalizing s with
  | nil => rfl
  | cons time times ih =>
    rw [List.foldl_cons, ih, List.length_cons]
    omega

theorem averageOf_append (times : List Nat) (waitTime : Nat) :
    averageOf (times ++ [waitTime]) = addTime (averageOf times) times.length waitTime := by
  have hnumber := foldl_addTime_snd times (0, 0)
  rw [Nat.zero_add] at hnumber
  rw [averageOf, List.foldl_append, List.foldl_cons, List.foldl_nil, hnumber, averageOf]

theorem addTime_lt {average number waitTime bound : Nat} (haverage : average < bound)
    (hwait : waitTime < bound) : addTime average number waitTime < bound := by
  rw [addTime, Nat.div_lt_iff_lt_mul (Nat.succ_pos number)]
  have hold : average * number ≤ (bound - 1) * number := Nat.mul_le_mul_right _ (by omega)
  have hnew : waitTime ≤ bound - 1 := by omega
  calc average * number + waitTime
      ≤ (bound - 1) * number + (bound - 1) := Nat.add_le_add hold hnew
    _ = (bound - 1) * (number + 1) := (Nat.mul_succ _ _).symm
    _ < bound * (number + 1) := Nat.mul_lt_mul_of_pos_right (by omega) (Nat.succ_pos number)

theorem averageOf_lt {times : List Nat} {bound : Nat} (hbound : 0 < bound)
    (h : ∀ time ∈ times, time < bound) : averageOf times < bound := by
  induction times using List.reverseRecOn with
  | nil => exact hbound
  | append_singleton times time ih =>
    rw [averageOf_append]
    exact addTime_lt (ih fun other hother => h other (List.mem_append_left _ hother))
      (h time (List.mem_append_right _ List.mem_cons_self))

/-- What is lost when the product does not fit into 32 bits is seen in the quotient. -/
theorem div_mod_eq_iff {total number : Nat} (hnumber : number < 2 ^ 32) (hpos : 0 < number) :
    total % 2 ^ 32 / number = total / number ↔ total < 2 ^ 32 := by
  constructor
  · intro h
    by_contra hlarge
    have hdrop : total % 2 ^ 32 + number ≤ total := by omega
    have hquotient := Nat.div_le_div_right (c := number) hdrop
    rw [Nat.add_div_right _ hpos, h] at hquotient
    omega
  · intro h
    rw [Nat.mod_eq_of_lt h]

/-! One entry, and what an update makes of it. -/

theorem toNat_toUInt32 {time : Int32} (h : 0 ≤ time) :
    time.toUInt32.toNat = time.toInt.toNat := by
  have hpos : 0 ≤ time.toInt := by simpa [Int32.le_iff_toInt_le] using h
  have hnat := BitVec.toInt_eq_toNat_cond time.toBitVec
  have hlt := time.toBitVec.isLt
  change (time.toBitVec).toNat = time.toBitVec.toInt.toNat
  change 0 ≤ time.toBitVec.toInt at hpos
  split at hnat <;> omega

theorem toInt_toInt32_eq_iff {time : UInt32} {average : Nat} (h : average < 2 ^ 31) :
    time.toInt32.toInt = average ↔ time.toNat = average := by
  have hnat := BitVec.toInt_eq_toNat_cond time.toBitVec
  have hlt := time.toBitVec.isLt
  change time.toBitVec.toInt = average ↔ time.toBitVec.toNat = average
  split at hnat <;> omega

structure LfgWaitTime.Tracks (wt : LfgWaitTime) (times : List Nat) : Prop where
  number : wt.number.toNat = times.length
  time : times ≠ [] → wt.time.toInt = averageOf times

theorem LfgWaitTime.tracks_default : LfgWaitTime.default.Tracks [] := ⟨rfl, fun h => (h rfl).elim⟩

def Fits (times : List Nat) (waitTime : Int32) : Prop :=
  averageOf times * times.length + waitTime.toInt.toNat < 2 ^ 32 ∧ times.length + 1 < 2 ^ 32

namespace LfgWaitTime.Tracks
variable {wt : LfgWaitTime} {times : List Nat} {waitTime : Int32}

theorem toNat_total (h : wt.Tracks times) (hwait : 0 ≤ waitTime) :
    (wt.time.toUInt32 * wt.number + waitTime.toUInt32).toNat =
      (averageOf times * times.length + waitTime.toInt.toNat) % 2 ^ 32 := by
  rw [UInt32.toNat_add, UInt32.toNat_mul, toNat_toUInt32 hwait, h.number, Nat.mod_add_mod]
  by_cases htimes : times = []
  · subst htimes
    rfl
  · have htime := h.time htimes
    have hpos : 0 ≤ wt.time := by
      rw [Int32.le_iff_toInt_le, htime]
      exact Int.natCast_nonneg _
    rw [toNat_toUInt32 hpos, htime, Int.toNat_natCast]

theorem number_add_one (h : wt.Tracks times) :
    (wt.number + 1).toNat = (times.length + 1) % 2 ^ 32 := by
  rw [UInt32.toNat_add, h.number]
  rfl

theorem length_lt (h : wt.Tracks times) : times.length < 2 ^ 32 := by
  rw [← h.number]
  exact wt.number.toNat_lt

theorem number_add_one_eq_zero_iff (h : wt.Tracks times) :
    wt.number + 1 = 0 ↔ ¬times.length + 1 < 2 ^ 32 := by
  have hlength := h.length_lt
  rw [← UInt32.toNat_inj, h.number_add_one, UInt32.toNat_zero]
  omega

theorem averageOf_append_lt (htimes : ∀ time ∈ times, time < 2 ^ 31) (waitTime : Int32) :
    averageOf (times ++ [waitTime.toInt.toNat]) < 2 ^ 31 := by
  refine averageOf_lt (by omega) fun time hmem => ?_
  rcases List.mem_append.1 hmem with h | h
  · exact htimes time h
  · rw [List.mem_singleton.1 h]
    have hlt := Int32.toInt_lt waitTime
    omega

/-- An update gives the average with the new time exactly where nothing wraps. -/
theorem update_iff (h : wt.Tracks times) (htimes : ∀ time ∈ times, time < 2 ^ 31)
    (hwait : 0 ≤ waitTime) :
    (∃ wt', wt.update waitTime = some wt' ∧
        wt'.time.toInt = averageOf (times ++ [waitTime.toInt.toNat])) ↔
      Fits times waitTime := by
  have hsmall := averageOf_append_lt htimes waitTime
  by_cases hnumber : times.length + 1 < 2 ^ 32
  · have hne : ¬wt.number + 1 = 0 := fun hz => h.number_add_one_eq_zero_iff.1 hz hnumber
    have hdivisor : (wt.number + 1).toNat = times.length + 1 := by
      rw [h.number_add_one, Nat.mod_eq_of_lt hnumber]
    simp only [LfgWaitTime.update, if_neg hne, Option.some.injEq, exists_eq_left']
    rw [toInt_toInt32_eq_iff hsmall, UInt32.toNat_div, h.toNat_total hwait, hdivisor,
      averageOf_append, addTime, div_mod_eq_iff hnumber (Nat.succ_pos _), Fits]
    exact (and_iff_left hnumber).symm
  · have hzero := h.number_add_one_eq_zero_iff.2 hnumber
    constructor
    · rintro ⟨wt', hupdate, -⟩
      simp [LfgWaitTime.update, hzero] at hupdate
    · intro hfits
      exact absurd hfits.2 hnumber

theorem of_update {wt' : LfgWaitTime} (h : wt.Tracks times)
    (hupdate : wt.update waitTime = some wt')
    (htime : wt'.time.toInt = averageOf (times ++ [waitTime.toInt.toNat])) :
    wt'.Tracks (times ++ [waitTime.toInt.toNat]) := by
  refine ⟨?_, fun _ => htime⟩
  have hnumber : ¬wt.number + 1 = 0 := by
    intro hzero
    simp [LfgWaitTime.update, hzero] at hupdate
  have hfit : times.length + 1 < 2 ^ 32 := by
    by_contra hlarge
    exact hnumber (h.number_add_one_eq_zero_iff.2 hlarge)
  simp only [LfgWaitTime.update, if_neg hnumber, Option.some.injEq] at hupdate
  rw [← hupdate, h.number_add_one, Nat.mod_eq_of_lt hfit, List.length_append, List.length_singleton]

end LfgWaitTime.Tracks

namespace WaitTimeStores

def set (s : WaitTimeStores) (store : WaitTimeStore) (m : LfgWaitTimesContainer) :
    WaitTimeStores :=
  match store with
  | .avg => { s with waitTimesAvgStore := m }
  | .tank => { s with waitTimesTankStore := m }
  | .healer => { s with waitTimesHealerStore := m }
  | .dps => { s with waitTimesDpsStore := m }

theorem get_set (s : WaitTimeStores) (store other : WaitTimeStore) (m : LfgWaitTimesContainer) :
    (s.set store m).get other = if other = store then m else s.get other := by
  cases store <;> cases other <;> rfl

def entry (s : WaitTimeStores) (call : WaitTimeCall) : LfgWaitTime :=
  ((s.get call.store).lookup call.dungeonId).getD .default

theorem step_eq (s : WaitTimeStores) (call : WaitTimeCall) :
    s.step call = ((s.entry call).update call.waitTime).map fun wt =>
      s.set call.store ((s.get call.store).insert call.dungeonId wt) := by
  obtain ⟨store, waitTime, dungeonId⟩ := call
  have hmap : ∀ (wt : Option LfgWaitTime) (m : LfgWaitTimesContainer) (s : WaitTimeStores)
      (store : WaitTimeStore),
      (do let m ← (do let wt ← wt; some (m.insert dungeonId wt)); some (s.set store m)) =
        wt.map fun wt => s.set store (m.insert dungeonId wt) := by
    intro wt m s store
    cases wt <;> rfl
  cases store with
  | avg => exact hmap _ _ s .avg
  | tank => exact hmap _ _ s .tank
  | healer => exact hmap _ _ s .healer
  | dps => exact hmap _ _ s .dps

def Tracked (calls : List WaitTimeCall) (s : WaitTimeStores) : Prop :=
  ∀ store dungeonId, ((s.get store).lookup dungeonId = none ↔ timesOf calls store dungeonId = []) ∧
    (((s.get store).lookup dungeonId).getD .default).Tracks (timesOf calls store dungeonId)

def Right (calls : List WaitTimeCall) (s : WaitTimeStores) : Prop :=
  ∀ store dungeonId, ((s.get store).lookup dungeonId).map (fun wt => wt.time.toInt) =
    if timesOf calls store dungeonId = [] then none
    else some (averageOf (timesOf calls store dungeonId) : Int)

end WaitTimeStores

theorem timesOf_append (calls : List WaitTimeCall) (call : WaitTimeCall) (store : WaitTimeStore)
    (dungeonId : UInt32) :
    timesOf (calls ++ [call]) store dungeonId =
      if store = call.store ∧ dungeonId = call.dungeonId then
        timesOf calls store dungeonId ++ [call.waitTime.toInt.toNat]
      else timesOf calls store dungeonId := by
  by_cases h : call.store = store ∧ call.dungeonId = dungeonId
  · obtain ⟨rfl, rfl⟩ := h
    simp [timesOf]
  · have h' : ¬(store = call.store ∧ dungeonId = call.dungeonId) :=
      fun hs => h ⟨hs.1.symm, hs.2.symm⟩
    simp [timesOf, h, h']

theorem timesOf_append_self (calls : List WaitTimeCall) (call : WaitTimeCall) :
    timesOf (calls ++ [call]) call.store call.dungeonId =
      timesOf calls call.store call.dungeonId ++ [call.waitTime.toInt.toNat] := by
  rw [timesOf_append, if_pos ⟨rfl, rfl⟩]

theorem timesOf_lt (calls : List WaitTimeCall) (store : WaitTimeStore) (dungeonId : UInt32) :
    ∀ time ∈ timesOf calls store dungeonId, time < 2 ^ 31 := by
  intro time htime
  obtain ⟨call, -, rfl⟩ := List.mem_map.1 htime
  have hlt := Int32.toInt_lt call.waitTime
  omega

namespace WaitTimeStores
variable {calls : List WaitTimeCall} {s s' : WaitTimeStores} {call : WaitTimeCall}

theorem tracked_empty : Tracked [] empty := by
  intro store dungeonId
  have hnone : (empty.get store).lookup dungeonId = none := by
    cases store <;> exact AList.lookup_empty dungeonId
  exact ⟨iff_of_true hnone rfl, hnone ▸ LfgWaitTime.tracks_default⟩

theorem lookup_step {wt : LfgWaitTime} (store : WaitTimeStore) (dungeonId : UInt32) :
    (((s.set call.store ((s.get call.store).insert call.dungeonId wt)).get store).lookup
        dungeonId) =
      if store = call.store ∧ dungeonId = call.dungeonId then some wt
      else (s.get store).lookup dungeonId := by
  rw [get_set]
  by_cases hstore : store = call.store
  · subst hstore
    rw [if_pos rfl, Assoc.lookup_insert]
    by_cases hd : dungeonId = call.dungeonId
    · simp [hd]
    · simp [hd]
  · rw [if_neg hstore, if_neg fun h => hstore h.1]

theorem Tracked.right (h : Tracked calls s) : Right calls s := by
  intro store dungeonId
  obtain ⟨hnone, htracks⟩ := h store dungeonId
  split
  · next hempty => rw [hnone.2 hempty, Option.map_none]
  · next htimes =>
    cases hlookup : (s.get store).lookup dungeonId with
    | none => exact (htimes (hnone.1 hlookup)).elim
    | some wt =>
      rw [hlookup] at htracks
      rw [Option.map_some, ← htracks.time htimes, Option.getD_some]

/-- The entry that a call leaves is the one that the call was for. -/
theorem Tracked.right_set_iff (h : Tracked calls s) (wt : LfgWaitTime) :
    Right (calls ++ [call]) (s.set call.store ((s.get call.store).insert call.dungeonId wt)) ↔
      wt.time.toInt = averageOf
        (timesOf calls call.store call.dungeonId ++ [call.waitTime.toInt.toNat]) := by
  have hne : timesOf calls call.store call.dungeonId ++ [call.waitTime.toInt.toNat] ≠ [] :=
    List.append_ne_nil_of_right_ne_nil _ (List.cons_ne_nil _ _)
  constructor
  · intro hright
    have hown := hright call.store call.dungeonId
    rw [lookup_step, if_pos ⟨rfl, rfl⟩, timesOf_append_self, if_neg hne, Option.map_some] at hown
    exact Option.some.inj hown
  · intro htime store dungeonId
    rw [lookup_step]
    by_cases hown : store = call.store ∧ dungeonId = call.dungeonId
    · obtain ⟨rfl, rfl⟩ := hown
      rw [if_pos ⟨rfl, rfl⟩, timesOf_append_self, if_neg hne, Option.map_some, htime]
    · rw [timesOf_append, if_neg hown, if_neg hown]
      exact h.right store dungeonId

/-- One call: the averages are right again exactly where nothing wraps. -/
theorem Tracked.step_iff (h : Tracked calls s) (hwait : 0 ≤ call.waitTime) :
    (∃ s', s.step call = some s' ∧ Right (calls ++ [call]) s') ↔
      Fits (timesOf calls call.store call.dungeonId) call.waitTime := by
  have hentry := (h call.store call.dungeonId).2
  rw [← hentry.update_iff (timesOf_lt calls _ _) hwait, step_eq]
  constructor
  · rintro ⟨s', hstep, hright⟩
    obtain ⟨wt, hupdate, rfl⟩ := Option.map_eq_some_iff.1 hstep
    exact ⟨wt, hupdate, (h.right_set_iff wt).1 hright⟩
  · rintro ⟨wt, hupdate, htime⟩
    exact ⟨_, Option.map_eq_some_iff.2 ⟨wt, hupdate, rfl⟩, (h.right_set_iff wt).2 htime⟩

theorem Tracked.of_step (h : Tracked calls s) (hstep : s.step call = some s')
    (hright : Right (calls ++ [call]) s') : Tracked (calls ++ [call]) s' := by
  rw [step_eq] at hstep
  obtain ⟨wt, hupdate, rfl⟩ := Option.map_eq_some_iff.1 hstep
  have htime := (h.right_set_iff wt).1 hright
  intro store dungeonId
  rw [lookup_step, timesOf_append]
  by_cases hown : store = call.store ∧ dungeonId = call.dungeonId
  · obtain ⟨rfl, rfl⟩ := hown
    rw [if_pos ⟨rfl, rfl⟩, if_pos ⟨rfl, rfl⟩]
    refine ⟨by simp, ?_⟩
    exact (h call.store call.dungeonId).2.of_update hupdate htime
  · rw [if_neg hown, if_neg hown]
    exact h store dungeonId

theorem run_append (calls : List WaitTimeCall) (call : WaitTimeCall) :
    run (calls ++ [call]) = (run calls).bind fun s => s.step call := by
  rw [run, List.foldlM_append]
  cases h : run calls with
  | none =>
    rw [run] at h
    simp [h]
  | some s =>
    rw [run] at h
    simp [h]

def AllFit (calls : List WaitTimeCall) : Prop :=
  ∀ before call, before ++ [call] <+: calls →
    Fits (timesOf before call.store call.dungeonId) call.waitTime

theorem allFit_append (calls : List WaitTimeCall) (call : WaitTimeCall) :
    AllFit (calls ++ [call]) ↔
      AllFit calls ∧ Fits (timesOf calls call.store call.dungeonId) call.waitTime := by
  constructor
  · intro h
    exact ⟨fun before c hc => h before c (hc.trans (List.prefix_append _ _)),
      h calls call List.prefix_rfl⟩
  · rintro ⟨hcalls, hlast⟩ before c hc
    rcases List.prefix_concat_iff.1 hc with heq | hbefore
    · obtain ⟨rfl, hcall⟩ := List.append_inj' heq rfl
      obtain rfl : c = call := by simpa using hcall
      exact hlast
    · exact hcalls before c hbefore

def AlwaysRight (calls : List WaitTimeCall) : Prop :=
  ∀ done, done <+: calls → ∃ s, run done = some s ∧ Right done s

theorem alwaysRight_append (calls : List WaitTimeCall) (call : WaitTimeCall) :
    AlwaysRight (calls ++ [call]) ↔
      AlwaysRight calls ∧ ∃ s, run (calls ++ [call]) = some s ∧ Right (calls ++ [call]) s := by
  constructor
  · intro h
    exact ⟨fun done hdone => h done (hdone.trans (List.prefix_append _ _)),
      h _ List.prefix_rfl⟩
  · rintro ⟨hcalls, hlast⟩ done hdone
    rcases List.prefix_concat_iff.1 hdone with rfl | hdone
    · exact hlast
    · exact hcalls done hdone

theorem AllFit.tracked (h : AllFit calls) (hwait : ∀ call ∈ calls, 0 ≤ call.waitTime) :
    ∃ s, run calls = some s ∧ Tracked calls s := by
  induction calls using List.reverseRecOn with
  | nil => exact ⟨empty, rfl, tracked_empty⟩
  | append_singleton calls call ih =>
    obtain ⟨hcalls, hlast⟩ := (allFit_append calls call).1 h
    obtain ⟨s, hrun, htracked⟩ := ih hcalls fun c hc => hwait c (List.mem_append_left _ hc)
    obtain ⟨s', hstep, hright⟩ :=
      (htracked.step_iff (hwait call (List.mem_append_right _ List.mem_cons_self))).2 hlast
    exact ⟨s', by rw [run_append, hrun, Option.bind_some, hstep], htracked.of_step hstep hright⟩

/-- The stored times are the running averages after every call of a run exactly if no product of an
average and its number, with the new time, reaches 2 ^ 32, and no number does. -/
theorem alwaysRight_iff_allFit (calls : List WaitTimeCall)
    (hwait : ∀ call ∈ calls, 0 ≤ call.waitTime) : AlwaysRight calls ↔ AllFit calls := by
  induction calls using List.reverseRecOn with
  | nil =>
    refine iff_of_true ?_ ?_
    · intro done hdone
      rw [List.prefix_nil.1 hdone]
      exact ⟨empty, rfl, tracked_empty.right⟩
    · intro before call hcall
      simp at hcall
  | append_singleton calls call ih =>
    have hcalls : ∀ c ∈ calls, 0 ≤ c.waitTime := fun c hc => hwait c (List.mem_append_left _ hc)
    rw [alwaysRight_append, allFit_append, ih hcalls, and_congr_right_iff]
    intro hfit
    obtain ⟨s, hrun, htracked⟩ := hfit.tracked hcalls
    rw [run_append, hrun, Option.bind_some]
    exact htracked.step_iff (hwait call (List.mem_append_right _ List.mem_cons_self))

def waitTimeCall (waitTime : Int32) : WaitTimeCall := ⟨.dps, waitTime, 258⟩

theorem alwaysRight_three_minutes : AlwaysRight [waitTimeCall 60, waitTimeCall 120] := by
  refine (alwaysRight_iff_allFit _ (by decide)).2 ?_
  have hempty : AllFit [] := fun before call hcall => by simp at hcall
  have hfirst := (allFit_append [] (waitTimeCall 60)).2 ⟨hempty, by unfold Fits; decide +kernel⟩
  exact (allFit_append [waitTimeCall 60] (waitTimeCall 120)).2
    ⟨hfirst, by unfold Fits; decide +kernel⟩

/-- Three of the longest times: twice the average and the third do not fit. -/
theorem not_alwaysRight_longest :
    ¬AlwaysRight [waitTimeCall 2147483647, waitTimeCall 2147483647, waitTimeCall 2147483647] := by
  intro h
  obtain ⟨s, hrun, hright⟩ := h _ List.prefix_rfl
  have hstored :
      (run [waitTimeCall 2147483647, waitTimeCall 2147483647, waitTimeCall 2147483647]).map
          (fun s => ((s.get .dps).lookup 258).map fun wt => wt.time.toInt) =
        some (some 715827881) := by
    decide +kernel
  rw [hrun, Option.map_some, hright .dps 258] at hstored
  exact absurd hstored (by decide +kernel)

end WaitTimeStores

end Ashamane.DungeonQueue
