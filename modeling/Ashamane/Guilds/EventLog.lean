import Mathlib.Data.List.Induction
import Mathlib.Data.Nat.ModEq

/-! The log of a guild, in memory and in its table. -/
namespace Ashamane.Guilds

variable {α : Type}

structure LogEntry (α : Type) where
  guid : Nat
  timestamp : Nat
  event : α

structure LogHolder (α : Type) where
  maxRecords : Nat
  nextGUID : Option Nat
  log : List (LogEntry α)

namespace LogHolder

def new (maxRecords : Nat) : LogHolder α := ⟨maxRecords, none, []⟩

def canInsert (h : LogHolder α) : Bool := h.log.length < h.maxRecords

def loadEvent (h : LogHolder α) (entry : LogEntry α) : LogHolder α :=
  { h with nextGUID := h.nextGUID.or (some entry.guid), log := entry :: h.log }

def addEvent (h : LogHolder α) (entry : LogEntry α) : LogHolder α :=
  { h with log := (if h.maxRecords ≤ h.log.length then h.log.tail else h.log) ++ [entry] }

def getNextGUID (h : LogHolder α) : Nat × LogHolder α :=
  let guid := match h.nextGUID with
    | none => 0
    | some guid => (guid + 1) % h.maxRecords
  (guid, { h with nextGUID := some guid })

end LogHolder

structure EventLog (α : Type) where
  holder : LogHolder α
  rows : List (LogEntry α)

namespace EventLog

def saveToDB (rows : List (LogEntry α)) (entry : LogEntry α) : List (LogEntry α) :=
  (rows.filter fun row => row.guid != entry.guid) ++ [entry]

def logEvent (s : EventLog α) (timestamp : Nat) (event : α) : EventLog α :=
  let (guid, holder) := s.holder.getNextGUID
  let entry := ⟨guid, timestamp, event⟩
  { holder := holder.addEvent entry, rows := saveToDB s.rows entry }

def loadEventLogFromDB (h : LogHolder α) (row : LogEntry α) : LogHolder α :=
  if h.canInsert then h.loadEvent row else h

/-- `ORDER BY TimeStamp DESC, LogGuid DESC`. -/
def rowOrder (a b : LogEntry α) : Bool :=
  b.timestamp < a.timestamp || (a.timestamp == b.timestamp && decide (b.guid ≤ a.guid))

/-- `LoadGuilds` for the log: rows beyond the maximum are deleted, and the others are loaded. -/
def loadGuilds (maxRecords : Nat) (rows : List (LogEntry α)) : EventLog α :=
  let rows := rows.filter fun row => decide (row.guid ≤ maxRecords)
  { holder := (rows.mergeSort rowOrder).foldl loadEventLogFromDB (.new maxRecords), rows }

def run (maxRecords : Nat) (events : List (Nat × α)) : EventLog α :=
  events.foldl (fun s e => s.logEvent e.1 e.2) ⟨.new maxRecords, []⟩

structure RestartInvisible (s : EventLog α) : Prop where
  log : (loadGuilds s.holder.maxRecords s.rows).holder.log = s.holder.log
  next : (loadGuilds s.holder.maxRecords s.rows).holder.getNextGUID.1 = s.holder.getNextGUID.1

def records (maxRecords : Nat) (events : List (Nat × α)) : List (LogEntry α) :=
  events.mapIdx fun i e => ⟨i % maxRecords, e.1, e.2⟩

structure Recorded (maxRecords : Nat) (events : List (Nat × α)) (s : EventLog α) : Prop where
  limit : s.holder.maxRecords = maxRecords
  nextGUID : s.holder.nextGUID = (records maxRecords events).getLast?.map (·.guid)
  log : s.holder.log = (records maxRecords events).drop (events.length - maxRecords)
  rows : s.rows.Perm s.holder.log

variable {maxRecords : Nat} {events : List (Nat × α)} {s : EventLog α} {e : Nat × α}

@[simp] theorem records_length : (records maxRecords events).length = events.length :=
  List.length_mapIdx

theorem records_snoc : records maxRecords (events ++ [e]) =
    records maxRecords events ++ [⟨events.length % maxRecords, e.1, e.2⟩] := by
  simp [records, List.mapIdx_append]

theorem Recorded.next_guid (h : Recorded maxRecords events s) :
    s.holder.getNextGUID.1 = events.length % maxRecords := by
  rw [LogHolder.getNextGUID, h.nextGUID, h.limit]
  rcases List.eq_nil_or_concat events with rfl | ⟨before, last, rfl⟩
  · simp [records]
  · rw [List.concat_eq_append, records_snoc]
    simp

/-- The guids of the newest records are different from each other and from the next. -/
theorem guid_window (maxRecords : Nat) {i j : Nat} (hlt : i < j) (hnear : j < i + maxRecords) :
    i % maxRecords ≠ j % maxRecords := by
  intro heq
  have hdvd : maxRecords ∣ j - i := (Nat.modEq_iff_dvd' (Nat.le_of_lt hlt)).mp heq
  have hle := Nat.le_of_dvd (by omega) hdvd
  omega

theorem mem_window {x : LogEntry α} {k : Nat} (h : x ∈ (records maxRecords events).drop k) :
    ∃ i, ∃ hi : i < events.length, k ≤ i ∧ x = ⟨i % maxRecords, events[i].1, events[i].2⟩ := by
  obtain ⟨i, hi, rfl⟩ := List.mem_iff_getElem.mp h
  rw [List.length_drop, records_length] at hi
  refine ⟨k + i, by omega, Nat.le_add_right k i, ?_⟩
  rw [List.getElem_drop]
  simp [records]

/-- The record with the guid of the next event is the one that makes room for it. -/
theorem filter_window (hmax : 1 ≤ maxRecords) :
    ((records maxRecords events).drop (events.length - maxRecords)).filter
        (fun row => row.guid != events.length % maxRecords) =
      if maxRecords ≤ events.length
      then ((records maxRecords events).drop (events.length - maxRecords)).tail
      else (records maxRecords events).drop (events.length - maxRecords) := by
  split
  next hfull =>
    have hlt : events.length - maxRecords < (records maxRecords events).length := by
      rw [records_length]
      omega
    rw [List.drop_eq_getElem_cons hlt, List.tail_cons, List.filter_cons_of_neg]
    · refine List.filter_eq_self.mpr fun x hx => ?_
      obtain ⟨i, hi, hle, rfl⟩ := mem_window hx
      exact bne_iff_ne.mpr (guid_window maxRecords hi (by omega))
    · simp [records, ← Nat.mod_eq_sub_mod hfull]
  next hfew =>
    refine List.filter_eq_self.mpr fun x hx => ?_
    obtain ⟨i, hi, -, rfl⟩ := mem_window hx
    exact bne_iff_ne.mpr (guid_window maxRecords hi (by omega))

theorem Recorded.log_length (h : Recorded maxRecords events s) :
    s.holder.log.length = min events.length maxRecords := by
  rw [h.log, List.length_drop, records_length]
  omega

theorem Recorded.begin (maxRecords : Nat) :
    Recorded maxRecords [] (⟨.new maxRecords, []⟩ : EventLog α) :=
  ⟨rfl, rfl, by simp [records, LogHolder.new], .refl _⟩

theorem Recorded.logEvent (hmax : 1 ≤ maxRecords) (h : Recorded maxRecords events s)
    (e : Nat × α) : Recorded maxRecords (events ++ [e]) (s.logEvent e.1 e.2) := by
  have hguid := h.next_guid
  have hlog : (if maxRecords ≤ events.length then s.holder.log.tail else s.holder.log) ++
      [⟨events.length % maxRecords, e.1, e.2⟩] =
        (records maxRecords (events ++ [e])).drop ((events ++ [e]).length - maxRecords) := by
    rw [records_snoc, List.length_append, List.length_singleton, h.log]
    split
    next hfull =>
      rw [List.tail_drop, List.drop_append_of_le_length (by rw [records_length]; omega),
        Nat.sub_add_comm hfull]
    next hfew =>
      rw [Nat.sub_eq_zero_of_le (by omega), Nat.sub_eq_zero_of_le (by omega), List.drop_zero,
        List.drop_zero]
  have hroom : s.holder.maxRecords ≤ s.holder.log.length ↔ maxRecords ≤ events.length := by
    rw [h.limit, h.log_length]
    omega
  have hadded : (s.logEvent e.1 e.2).holder.log =
      (if maxRecords ≤ events.length then s.holder.log.tail else s.holder.log) ++
        [⟨events.length % maxRecords, e.1, e.2⟩] := by
    simp only [EventLog.logEvent, LogHolder.addEvent, hguid]
    simp only [LogHolder.getNextGUID, hroom]
  refine ⟨h.limit, ?_, hadded.trans hlog, ?_⟩
  · rw [records_snoc, List.getLast?_concat, Option.map_some, ← hguid]
    rfl
  · rw [hadded]
    have hrows : (s.logEvent e.1 e.2).rows =
        saveToDB s.rows ⟨events.length % maxRecords, e.1, e.2⟩ := by
      rw [← hguid]
      rfl
    rw [hrows, saveToDB]
    refine List.Perm.append_right _ ((h.rows.filter _).trans (List.Perm.of_eq ?_))
    rw [h.log]
    exact filter_window hmax

theorem recorded_run (hmax : 1 ≤ maxRecords) (events : List (Nat × α)) :
    Recorded maxRecords events (run maxRecords events) := by
  induction events using List.reverseRecOn with
  | nil => exact .begin maxRecords
  | append_singleton events e ih =>
    rw [run, List.foldl_append]
    exact ih.logEvent hmax e

theorem load_eq (rows : List (LogEntry α)) (h : LogHolder α)
    (hroom : h.log.length + rows.length ≤ h.maxRecords) :
    rows.foldl loadEventLogFromDB h =
      { h with nextGUID := h.nextGUID.or (rows.head?.map (·.guid)), log := rows.reverse ++ h.log } := by
  induction rows generalizing h with
  | nil => simp
  | cons row rows ih =>
    rw [List.length_cons] at hroom
    have hfree : h.canInsert = true := by
      rw [LogHolder.canInsert, decide_eq_true_eq]
      omega
    rw [List.foldl_cons, loadEventLogFromDB, if_pos hfree, ih]
    · simp only [LogHolder.loadEvent, Option.or_assoc, List.reverse_cons, List.append_assoc,
        List.singleton_append, List.head?_cons, Option.map_some, Option.some_or]
    · simp only [LogHolder.loadEvent, List.length_cons]
      omega

def InOrder (a b : LogEntry α) : Prop := rowOrder b a = true

theorem rowOrder_iff {a b : LogEntry α} : rowOrder a b = true ↔
    b.timestamp < a.timestamp ∨ a.timestamp = b.timestamp ∧ b.guid ≤ a.guid := by
  simp [rowOrder]

theorem rowOrder_trans (a b c : LogEntry α) (hab : rowOrder a b = true)
    (hbc : rowOrder b c = true) : rowOrder a c = true := by
  rw [rowOrder_iff] at hab hbc ⊢
  omega

theorem rowOrder_total (a b : LogEntry α) : (rowOrder a b || rowOrder b a) = true := by
  rw [Bool.or_eq_true, rowOrder_iff, rowOrder_iff]
  omega

theorem Recorded.loadGuilds_eq (hmax : 1 ≤ maxRecords) (h : Recorded maxRecords events s) :
    loadGuilds maxRecords s.rows =
      ⟨⟨maxRecords, (s.rows.mergeSort rowOrder).head?.map (·.guid),
        (s.rows.mergeSort rowOrder).reverse⟩, s.rows⟩ := by
  have hkept : (s.rows.filter fun row => decide (row.guid ≤ maxRecords)) = s.rows := by
    refine List.filter_eq_self.mpr fun x hx => ?_
    obtain ⟨i, hi, -, rfl⟩ := mem_window (h.log ▸ h.rows.subset hx)
    exact decide_eq_true (Nat.le_of_lt (Nat.mod_lt i hmax))
  have hlength : (s.rows.mergeSort rowOrder).length ≤ maxRecords := by
    rw [List.length_mergeSort, h.rows.length_eq, h.log_length]
    exact Nat.min_le_right _ _
  rw [loadGuilds]
  simp only [hkept]
  rw [load_eq _ _ (by simpa [LogHolder.new] using hlength)]
  simp [LogHolder.new]

/-- The loaded log is the one in memory, if that is in the order of the rows. -/
theorem Recorded.loaded (hmax : 1 ≤ maxRecords) (h : Recorded maxRecords events s) :
    (loadGuilds maxRecords s.rows).holder.log = s.holder.log ↔ s.holder.log.Pairwise InOrder := by
  have hperm := List.mergeSort_perm s.rows rowOrder
  have hsorted := List.pairwise_mergeSort rowOrder_trans rowOrder_total s.rows
  rw [h.loadGuilds_eq hmax]
  constructor
  · intro heq
    rw [← heq]
    exact List.pairwise_reverse.mpr hsorted
  · intro hinorder
    refine List.Perm.eq_of_pairwise (fun a b ha hb hab hba => ?_) (List.pairwise_reverse.mpr hsorted)
      hinorder ((List.reverse_perm _).trans (hperm.trans h.rows))
    have ha' := h.log ▸ h.rows.subset (hperm.subset (List.mem_reverse.mp ha))
    obtain ⟨i, hi, hle, rfl⟩ := mem_window ha'
    obtain ⟨j, hj, hle', rfl⟩ := mem_window (h.log ▸ hb)
    replace hab := rowOrder_iff.mp hab
    replace hba := rowOrder_iff.mp hba
    simp only at hab hba
    obtain rfl : i = j := by
      rcases Nat.lt_trichotomy i j with hlt | heq | hlt
      · exact absurd (by omega) (guid_window maxRecords hlt (by omega))
      · exact heq
      · exact absurd (by omega) (guid_window maxRecords hlt (by omega))
    rfl

/-- The guid that a loaded log goes on with comes from the row that was loaded first. -/
theorem Recorded.next_loaded (hmax : 1 ≤ maxRecords) (h : Recorded maxRecords events s)
    (hlog : (loadGuilds maxRecords s.rows).holder.log = s.holder.log) :
    (loadGuilds maxRecords s.rows).holder.getNextGUID.1 = s.holder.getNextGUID.1 := by
  rw [h.loadGuilds_eq hmax] at hlog ⊢
  have hnext : (s.rows.mergeSort rowOrder).head?.map (·.guid) = s.holder.nextGUID := by
    rw [← List.getLast?_reverse, show (s.rows.mergeSort rowOrder).reverse = s.holder.log from hlog,
      h.log, List.getLast?_drop, h.nextGUID, records_length]
    split
    next hle =>
      have hempty : events = [] := List.length_eq_zero_iff.mp (by omega)
      rw [hempty]
      rfl
    · rfl
  rw [hnext, LogHolder.getNextGUID, LogHolder.getNextGUID, h.limit]

def WrapsLater (maxRecords : Nat) (events : List (Nat × α)) : Prop :=
  1 < maxRecords → ∀ (i : Nat) (h : i + 1 < events.length), (i + 1) % maxRecords = 0 →
    events[i].1 ≠ events[i + 1].1

theorem wrap_between {i j : Nat} (hmax : 1 ≤ maxRecords) (hlt : i < j)
    (hless : j % maxRecords < i % maxRecords) (hnear : j < i + maxRecords) :
    ∃ k, i ≤ k ∧ k + 1 ≤ j ∧ (k + 1) % maxRecords = 0 := by
  have hj := Nat.div_add_mod j maxRecords
  have hlast := Nat.mod_lt j hmax
  have hpast : i < maxRecords * (j / maxRecords) := by
    by_contra hle
    obtain ⟨d, rfl⟩ := Nat.exists_eq_add_of_le (Nat.not_lt.mp hle)
    rw [Nat.mul_add_mod, Nat.mod_eq_of_lt (a := d) (by omega)] at hless
    omega
  refine ⟨maxRecords * (j / maxRecords) - 1, by omega, by omega, ?_⟩
  rw [Nat.sub_add_cancel (by omega), Nat.mul_mod_right]

theorem le_of_mono (hmono : events.Pairwise fun a b => a.1 ≤ b.1) {i j : Nat} (hle : i ≤ j)
    (hi : i < events.length) (hj : j < events.length) : events[i].1 ≤ events[j].1 := by
  rcases Nat.lt_or_eq_of_le hle with hlt | rfl
  · exact List.pairwise_iff_getElem.mp hmono i j (by omega) hj hlt
  · exact Nat.le_refl _

theorem inOrder_window (hmax : 1 ≤ maxRecords) (hmono : events.Pairwise fun a b => a.1 ≤ b.1)
    (h : WrapsLater maxRecords events) :
    ((records maxRecords events).drop (events.length - maxRecords)).Pairwise InOrder := by
  refine List.pairwise_iff_getElem.mpr fun i j hi hj hlt => rowOrder_iff.mpr ?_
  rw [List.length_drop, records_length] at hi hj
  simp only [List.getElem_drop, records, List.getElem_mapIdx]
  have hle := le_of_mono hmono (i := events.length - maxRecords + i)
    (j := events.length - maxRecords + j) (by omega) (by omega) (by omega)
  rcases Nat.lt_or_eq_of_le hle with hless | heq
  · exact .inl hless
  refine .inr ⟨heq.symm, Nat.not_lt.mp fun hwrap => ?_⟩
  obtain ⟨k, hik, hkj, hzero⟩ := wrap_between hmax (by omega) hwrap (by omega)
  have hone : 1 < maxRecords := by
    by_contra hsmall
    obtain rfl : maxRecords = 1 := by omega
    rw [Nat.mod_one, Nat.mod_one] at hwrap
    omega
  have hbefore := le_of_mono hmono hik (by omega) (by omega)
  have hafter := le_of_mono hmono hkj (by omega) (by omega)
  have hstep := le_of_mono hmono (Nat.le_add_right k 1) (by omega) (by omega)
  exact h hone k (by omega) hzero (by omega)

/-- Where the guids start again both events are among the newest, so their times differ. -/
theorem wraps_window (hmax : 1 < maxRecords) {i : Nat} (hi : i + 1 < events.length)
    (hzero : (i + 1) % maxRecords = 0)
    (h : ((records maxRecords (events.take (i + 2))).drop
      ((events.take (i + 2)).length - maxRecords)).Pairwise InOrder) :
    events[i].1 ≠ events[i + 1].1 := by
  have hlength : (events.take (i + 2)).length = i + 2 := by
    rw [List.length_take]
    omega
  rw [hlength] at h
  have hinorder := List.pairwise_iff_getElem.mp h (i - (i + 2 - maxRecords))
    (i + 1 - (i + 2 - maxRecords)) (by rw [List.length_drop, records_length, hlength]; omega)
    (by rw [List.length_drop, records_length, hlength]; omega) (by omega)
  replace hinorder := rowOrder_iff.mp hinorder
  have hplace : i + 2 - maxRecords + (i - (i + 2 - maxRecords)) = i := by omega
  have hnext : i + 2 - maxRecords + (i + 1 - (i + 2 - maxRecords)) = i + 1 := by omega
  simp only [List.getElem_drop, records, List.getElem_mapIdx, List.getElem_take, hplace, hnext,
    hzero] at hinorder
  have hwrap : i % maxRecords ≠ 0 := by
    intro hdvd
    exact guid_window maxRecords (Nat.lt_succ_self i) (by omega)
      (hdvd.trans hzero.symm)
  intro heq
  omega

theorem Recorded.restartInvisible (hmax : 1 ≤ maxRecords) (h : Recorded maxRecords events s) :
    s.RestartInvisible ↔ s.holder.log.Pairwise InOrder := by
  rw [← h.loaded hmax]
  constructor
  · rintro ⟨hlog, -⟩
    rwa [h.limit] at hlog
  · intro hlog
    refine ⟨?_, ?_⟩
    · rwa [h.limit]
    · rw [h.limit]
      exact h.next_loaded hmax hlog

theorem WrapsLater.take (h : WrapsLater maxRecords events) (n : Nat) :
    WrapsLater maxRecords (events.take n) := by
  intro hmax i hi hzero
  rw [List.length_take] at hi
  simp only [List.getElem_take]
  exact h hmax i (by omega) hzero

/-- A restart is invisible after every event and the log has the newest, exactly if no two events
of one time stand where the guids start again. -/
theorem restart_iff (maxRecords : Nat) (hmax : 1 ≤ maxRecords) (events : List (Nat × α))
    (hmono : events.Pairwise fun a b => a.1 ≤ b.1) :
    (∀ n, (run maxRecords (events.take n)).RestartInvisible ∧
        ((run maxRecords (events.take n)).holder.log.map fun e => (e.timestamp, e.event)) =
          (events.take n).drop ((events.take n).length - maxRecords)) ↔
      WrapsLater maxRecords events := by
  have hrecorded := fun n => recorded_run hmax (events.take n)
  constructor
  · intro h hone i hi hzero
    have hinvisible := ((hrecorded (i + 2)).restartInvisible hmax).mp (h (i + 2)).1
    rw [(hrecorded (i + 2)).log] at hinvisible
    exact wraps_window hone hi hzero hinvisible
  · intro h n
    refine ⟨((hrecorded n).restartInvisible hmax).mpr ?_, ?_⟩
    · rw [(hrecorded n).log]
      exact inOrder_window hmax (hmono.sublist (List.take_sublist n events)) (h.take n)
    · rw [(hrecorded n).log, List.map_drop]
      congr 1
      exact List.ext_getElem (by simp) fun i _ _ => by simp [records]

def joinsAtWrap : List (Nat × String) := [(1, "a joins"), (2, "b joins"), (2, "c joins")]

def joinsLater : List (Nat × String) := [(1, "a joins"), (2, "b joins"), (3, "c joins")]

theorem restart_iff_later : (run 2 joinsLater).RestartInvisible ∧
    ((run 2 joinsLater).holder.log.map fun e => (e.timestamp, e.event)) =
      [(2, "b joins"), (3, "c joins")] := by
  have hrun := (restart_iff 2 (by decide) joinsLater (by decide)).mpr fun _ i hi hzero =>
    match i, hi, hzero with
    | 0, _, hzero => absurd hzero (by decide)
    | 1, _, _ => Nat.ne_of_lt (Nat.lt_succ_self 2)
  exact hrun 3

/-- After a restart the last two of three events have changed places, with two records. -/
theorem restart_fails_wrap :
    (joinsAtWrap.Pairwise fun a b => a.1 ≤ b.1) ∧ ¬(run 2 joinsAtWrap).RestartInvisible := by
  refine ⟨by decide, fun h => ?_⟩
  rw [(recorded_run (by decide) joinsAtWrap).restartInvisible (by decide)] at h
  have hinorder : rowOrder (⟨0, 2, "c joins"⟩ : LogEntry String) ⟨1, 2, "b joins"⟩ = true :=
    List.rel_of_pairwise_cons h List.mem_cons_self
  exact absurd hinorder (by decide)

end EventLog

end Ashamane.Guilds
