import Ashamane.BasicEvents.Processor
import Mathlib.Data.Set.Insert
import Mathlib.Data.List.Nodup
import Mathlib.Tactic.Tauto

/-! What happens to an event from the time it is added until it is deleted. -/
namespace Ashamane.BasicEvents

open Lib

def Entry.event : Entry → Nat
  | .added event | .scheduled event | .executed event _ _ | .abort event | .deleted event => event

structure Entry.Follows (later earlier : Entry) : Prop where
  ordered : ∀ e d t e' d' t', later = .executed e d t → earlier = .executed e' d' t' → d' ≤ d
  marked : ∀ e d t, later = .executed e d t → earlier ≠ .scheduled e ∧ earlier ≠ .abort e
  abort : ∀ e, later = .abort e → earlier ≠ .abort e
  deleted : earlier ≠ .deleted later.event

theorem mem_insertAt {time event : Nat} {l : List (Nat × Nat)} {q : Nat × Nat} :
    q ∈ insertAt time event l ↔ q = (time, event) ∨ q ∈ l := by
  induction l with
  | nil => simp [insertAt]
  | cons e rest ih =>
    unfold insertAt
    split
    · simp
    · simp only [List.mem_cons, ih]
      tauto

theorem perm_insertAt (time event : Nat) (l : List (Nat × Nat)) :
    (insertAt time event l).Perm ((time, event) :: l) := by
  induction l with
  | nil => exact List.Perm.refl _
  | cons e rest ih =>
    unfold insertAt
    split
    · exact List.Perm.refl _
    · exact (ih.cons e).trans (List.Perm.swap ..)

theorem sorted_insertAt (time event : Nat) {l : List (Nat × Nat)}
    (h : l.Pairwise fun a b => a.1 ≤ b.1) :
    (insertAt time event l).Pairwise fun a b => a.1 ≤ b.1 := by
  induction l with
  | nil => exact List.pairwise_singleton ..
  | cons e rest ih =>
    obtain ⟨hfirst, hrest⟩ := List.pairwise_cons.mp h
    unfold insertAt
    split
    · rename_i hlt
      refine List.pairwise_cons.mpr ⟨fun q hq => ?_, h⟩
      rcases List.mem_cons.mp hq with rfl | hq
      · exact Nat.le_of_lt hlt
      · exact Nat.le_trans (Nat.le_of_lt hlt) (hfirst q hq)
    · rename_i hle
      refine List.pairwise_cons.mpr ⟨fun q hq => ?_, ih hrest⟩
      rcases mem_insertAt.mp hq with rfl | hq
      · exact Nat.le_of_not_lt hle
      · exact hfirst q hq

namespace EventProcessor

variable {s t : EventProcessor} {cap event time : Nat} {owed : Set Nat}

structure Sound (cap : Nat) (owed : Set Nat) (s : EventProcessor) : Prop where
  sorted : s.events.Pairwise fun a b => a.1 ≤ b.1
  nodup : (s.events.map Prod.snd).Nodup
  kept : ∀ q ∈ s.events, .deleted q.2 ∉ s.log
  history : s.log.Pairwise Entry.Follows
  times : ∀ e d t, .executed e d t ∈ s.log → d ≤ t ∧ d ≤ cap ∧ ∀ q ∈ s.events, d ≤ q.1
  now : cap ≤ s.time
  scheduled : ∀ e, .scheduled e ∈ s.log → s.abortState e ≠ .running
  aborted : ∀ e, .abort e ∈ s.log → s.abortState e = .aborted
  owned : ∀ e, .added e ∈ s.log → e ∈ s.events.map Prod.snd ∨ .deleted e ∈ s.log ∨ e ∈ owed
  owes : ∀ e ∈ owed, s.Free e

theorem sound_initial : Sound 0 ∅ {} where
  sorted := List.Pairwise.nil
  nodup := List.nodup_nil
  kept := nofun
  history := List.Pairwise.nil
  times := nofun
  now := Nat.le_refl 0
  scheduled := nofun
  aborted := nofun
  owned := nofun
  owes := nofun

theorem Sound.relax {cap' : Nat} (h : s.Sound cap owed) (hle : cap ≤ cap') (hnow : cap' ≤ s.time) :
    s.Sound cap' owed :=
  { h with
    times := fun e d t hm => ⟨(h.times e d t hm).1, Nat.le_trans (h.times e d t hm).2.1 hle,
      (h.times e d t hm).2.2⟩
    now := hnow }

theorem Sound.addEvent (h : s.Sound cap owed) (hfree : s.Free event) (hle : cap ≤ time) :
    (s.addEvent event time).Sound cap (owed \ {event}) where
  sorted := sorted_insertAt time event h.sorted
  nodup := by
    refine (((perm_insertAt time event s.events).map Prod.snd).nodup_iff).mpr ?_
    exact List.nodup_cons.mpr ⟨hfree.1, h.nodup⟩
  kept q hq := by
    intro hdeleted
    rcases List.mem_cons.mp hdeleted with heq | hold
    · exact nomatch heq
    rcases mem_insertAt.mp hq with rfl | hq
    · exact hfree.2 hold
    · exact h.kept q hq hold
  history := by
    refine List.pairwise_cons.mpr ⟨fun y hy => ⟨nofun, nofun, nofun, ?_⟩, h.history⟩
    rintro rfl
    exact hfree.2 hy
  times e d t hm := by
    rcases List.mem_cons.mp hm with heq | hm
    · exact nomatch heq
    obtain ⟨hdue, hcap, hqueue⟩ := h.times e d t hm
    refine ⟨hdue, hcap, fun q hq => ?_⟩
    rcases mem_insertAt.mp hq with rfl | hq
    · exact Nat.le_trans hcap hle
    · exact hqueue q hq
  now := h.now
  scheduled e hm := by
    rcases List.mem_cons.mp hm with heq | hm
    · exact nomatch heq
    · exact h.scheduled e hm
  aborted e hm := by
    rcases List.mem_cons.mp hm with heq | hm
    · exact nomatch heq
    · exact h.aborted e hm
  owned e hm := by
    have hmem : e ∈ (insertAt time event s.events).map Prod.snd ↔
        e = event ∨ e ∈ s.events.map Prod.snd := by
      rw [((perm_insertAt time event s.events).map Prod.snd).mem_iff]
      exact List.mem_cons
    change e ∈ (insertAt time event s.events).map Prod.snd ∨ _
    rw [hmem]
    by_cases heq : e = event
    · exact .inl (.inl heq)
    rcases List.mem_cons.mp hm with hnew | hm
    · exact absurd (Entry.added.inj hnew) heq
    rcases h.owned e hm with hq | hd | ho
    · exact .inl (.inr hq)
    · exact .inr (.inl (List.mem_cons_of_mem _ hd))
    · exact .inr (.inr ⟨ho, heq⟩)
  owes e he := by
    obtain ⟨hqueue, hlog⟩ := h.owes e he.1
    refine ⟨?_, fun hd => ?_⟩
    · change e ∉ (insertAt time event s.events).map Prod.snd
      rw [((perm_insertAt time event s.events).map Prod.snd).mem_iff]
      exact List.not_mem_cons_of_ne_of_not_mem he.2 hqueue
    · rcases List.mem_cons.mp hd with heq | hd
      · exact nomatch heq
      · exact hlog hd

theorem Sound.note {x : Entry} {state : Nat → AbortState} {owed' : Set Nat} (h : s.Sound cap owed)
    (hadded : ∀ e, x ≠ .added e) (hkept : ∀ e ∈ s.events.map Prod.snd, x ≠ .deleted e)
    (hfollows : ∀ y ∈ s.log, x.Follows y)
    (htimes : ∀ e d t, x = .executed e d t → d ≤ t ∧ d ≤ cap ∧ ∀ q ∈ s.events, d ≤ q.1)
    (hscheduled : ∀ e, .scheduled e ∈ x :: s.log → state e ≠ .running)
    (haborted : ∀ e, .abort e ∈ x :: s.log → state e = .aborted)
    (howed : ∀ e, e ∈ owed' ↔ e ∈ owed ∧ x ≠ .deleted e) :
    Sound cap owed' { s with abortState := state, log := x :: s.log } where
  sorted := h.sorted
  nodup := h.nodup
  kept q hq hd := by
    rcases List.mem_cons.mp hd with heq | hd
    · exact hkept q.2 (List.mem_map_of_mem hq) heq.symm
    · exact h.kept q hq hd
  history := List.pairwise_cons.mpr ⟨hfollows, h.history⟩
  times e d t hm := by
    rcases List.mem_cons.mp hm with heq | hm
    · exact htimes e d t heq.symm
    · exact h.times e d t hm
  now := h.now
  scheduled := hscheduled
  aborted := haborted
  owned e hm := by
    rcases List.mem_cons.mp hm with heq | hm
    · exact absurd heq.symm (hadded e)
    rcases h.owned e hm with hq | hd | ho
    · exact .inl hq
    · exact .inr (.inl (List.mem_cons_of_mem _ hd))
    · by_cases hx : x = .deleted e
      · exact .inr (.inl (hx ▸ List.mem_cons_self ..))
      · exact .inr (.inr ((howed e).mpr ⟨ho, hx⟩))
  owes e he := by
    obtain ⟨ho, hx⟩ := (howed e).mp he
    obtain ⟨hqueue, hlog⟩ := h.owes e ho
    refine ⟨hqueue, fun hd => ?_⟩
    rcases List.mem_cons.mp hd with heq | hd
    · exact hx heq.symm
    · exact hlog hd

theorem Sound.scheduleAbort (h : s.Sound cap owed) (hkept : .deleted event ∉ s.log)
    (hmark : s.scheduleAbort event = some t) : t.Sound cap owed := by
  obtain ⟨hrun, ht⟩ := Option.ite_none_right_eq_some.mp hmark
  obtain rfl := Option.some.inj ht
  refine h.note nofun nofun (fun y hy => ⟨nofun, nofun, nofun, ?_⟩) nofun ?_ ?_ ?_
  · rintro rfl
    exact hkept hy
  · intro e hm
    by_cases heq : e = event
    · subst heq
      rw [Function.update_self]
      exact nofun
    · rw [Function.update_of_ne heq]
      rcases List.mem_cons.mp hm with hnew | hm
      · exact absurd (Entry.scheduled.inj hnew) heq
      · exact h.scheduled e hm
  · intro e hm
    rcases List.mem_cons.mp hm with hnew | hm
    · exact nomatch hnew
    have hne : e ≠ event := by
      intro heq
      have haborted := h.aborted e hm
      rw [heq, hrun] at haborted
      exact nomatch haborted
    rw [Function.update_of_ne hne]
    exact h.aborted e hm
  · exact fun e => ⟨fun he => ⟨he, nofun⟩, And.left⟩

theorem Sound.abort (h : s.Sound cap owed) (hkept : .deleted event ∉ s.log)
    (hstate : s.abortState event ≠ .aborted) : (s.abort event).Sound cap owed := by
  refine h.note nofun nofun (fun y hy => ⟨nofun, nofun, ?_, ?_⟩) nofun ?_ ?_ ?_
  · rintro e hnew rfl
    obtain rfl := Entry.abort.inj hnew
    exact hstate (h.aborted event hy)
  · rintro rfl
    exact hkept hy
  · intro e hm
    by_cases heq : e = event
    · subst heq
      rw [Function.update_self]
      exact nofun
    · rw [Function.update_of_ne heq]
      rcases List.mem_cons.mp hm with hnew | hm
      · exact nomatch hnew
      · exact h.scheduled e hm
  · intro e hm
    by_cases heq : e = event
    · subst heq
      rw [Function.update_self]
    · rw [Function.update_of_ne heq]
      rcases List.mem_cons.mp hm with hnew | hm
      · exact absurd (Entry.abort.inj hnew) heq
      · exact h.aborted e hm
  · exact fun e => ⟨fun he => ⟨he, nofun⟩, And.left⟩

theorem Sound.delete (h : s.Sound cap owed) (howed : event ∈ owed) :
    (s.delete event).Sound cap (owed \ {event}) := by
  obtain ⟨hqueue, hlog⟩ := h.owes event howed
  refine h.note nofun ?_ (fun y hy => ⟨nofun, nofun, nofun, ?_⟩) nofun ?_ ?_ ?_
  · rintro e he hx
    exact hqueue (Entry.deleted.inj hx ▸ he)
  · rintro rfl
    exact hlog hy
  · intro e hm
    rcases List.mem_cons.mp hm with hnew | hm
    · exact nomatch hnew
    · exact h.scheduled e hm
  · intro e hm
    rcases List.mem_cons.mp hm with hnew | hm
    · exact nomatch hnew
    · exact h.aborted e hm
  · refine fun e => ⟨fun he => ⟨he.1, fun hx => he.2 (Entry.deleted.inj hx).symm⟩, fun he => ⟨he.1, ?_⟩⟩
    rintro rfl
    exact he.2 rfl

theorem Sound.take {before after : List (Nat × Nat)} {q : Nat × Nat}
    (h : Sound cap owed { s with events := before ++ q :: after }) :
    Sound cap (insert q.2 owed) { s with events := before ++ after } where
  sorted := h.sorted.sublist (by simp)
  nodup := h.nodup.sublist (by simp)
  kept p hp := h.kept p (by simp at hp ⊢; tauto)
  history := h.history
  times e d t hm := by
    obtain ⟨hdue, hcap, hqueue⟩ := h.times e d t hm
    exact ⟨hdue, hcap, fun p hp => hqueue p (by simp at hp ⊢; tauto)⟩
  now := h.now
  scheduled := h.scheduled
  aborted := h.aborted
  owned e hm := by
    have := h.owned e hm
    simp only [List.map_append, List.map_cons, List.mem_append, List.mem_cons, Set.mem_insert_iff] at this ⊢
    tauto
  owes e he := by
    have hnodup := h.nodup
    simp only [List.map_append, List.map_cons] at hnodup
    have hq := (List.nodup_middle.mp hnodup)
    rw [List.nodup_cons] at hq
    rcases he with rfl | ho
    · refine ⟨by simpa using hq.1, ?_⟩
      exact h.kept q (by simp)
    · obtain ⟨hqueue, hlog⟩ := h.owes e ho
      refine ⟨fun hm => hqueue ?_, hlog⟩
      simp only [List.map_append, List.map_cons, List.mem_append, List.mem_cons] at hm ⊢
      tauto

theorem Sound.killEvent {force : Bool} {deletable : Nat → Bool} {q : Nat × Nat}
    {rest : List (Nat × Nat)} (h : Sound cap owed { s with events := s.events ++ q :: rest }) :
    Sound cap owed { s.killEvent force deletable q with
      events := (s.killEvent force deletable q).events ++ rest } := by
  have hkept : .deleted q.2 ∉ s.log := h.kept q (by simp)
  -- the event is told at most once
  have habort : ∃ u : EventProcessor,
      u = (if s.abortState q.2 = .aborted then s else s.abort q.2) ∧ u.events = s.events ∧
      Sound cap owed { u with events := s.events ++ q :: rest } := by
    refine ⟨_, rfl, ?_⟩
    split
    · exact ⟨rfl, h⟩
    · rename_i hstate
      exact ⟨rfl, h.abort hkept hstate⟩
  obtain ⟨u, hu, hevents, hsound⟩ := habort
  unfold EventProcessor.killEvent
  rw [← hu]
  dsimp only
  split
  · have heq : u.events ++ [q] ++ rest = s.events ++ q :: rest := by rw [hevents]; simp
    dsimp only
    rw [heq]
    exact hsound
  · have htaken := hsound.take.delete (Set.mem_insert q.2 owed)
    have hq : q.2 ∉ owed := fun ho => (h.owes q.2 ho).1 (by simp)
    have hset : insert q.2 owed \ {q.2} = owed := by
      ext e
      simp only [Set.mem_sdiff, Set.mem_insert_iff, Set.mem_singleton_iff]
      exact ⟨fun he => he.1.resolve_left he.2, fun he => ⟨.inr he, fun heq => hq (heq ▸ he)⟩⟩
    rw [hset] at htaken
    change Sound cap owed { u.delete q.2 with events := u.events ++ rest }
    rw [hevents]
    exact htaken

theorem Sound.killAllEvents {force : Bool} {deletable : Nat → Bool} (h : s.Sound cap owed) :
    (s.killAllEvents force deletable).Sound cap owed := by
  have hfold : ∀ (rest : List (Nat × Nat)) (u : EventProcessor),
      Sound cap owed { u with events := u.events ++ rest } →
      Sound cap owed (rest.foldl (EventProcessor.killEvent force deletable) u) := by
    intro rest
    induction rest with
    | nil =>
      intro u hu
      rw [List.append_nil] at hu
      exact hu
    | cons q rest ih => exact fun u hu => ih _ hu.killEvent
  exact hfold s.events { s with events := [] } h

/-- Those that are not deletable stay in the queue, as long as the others are not forced. -/
theorem killAllEvents_events (force : Bool) (deletable : Nat → Bool) :
    (s.killAllEvents force deletable).events =
      s.events.filter fun q => !force && !deletable q.2 := by
  have hkill : ∀ (u : EventProcessor) (q : Nat × Nat), (u.killEvent force deletable q).events =
      u.events ++ if !force && !deletable q.2 then [q] else [] := by
    intro u q
    unfold killEvent
    have habort : (if u.abortState q.2 = .aborted then u else u.abort q.2).events = u.events := by
      split <;> rfl
    dsimp only
    split
    · dsimp only
      rw [habort]
    · exact habort.trans (List.append_nil _).symm
  have hfold : ∀ (rest : List (Nat × Nat)) (u : EventProcessor),
      (rest.foldl (killEvent force deletable) u).events =
        u.events ++ rest.filter fun q => !force && !deletable q.2 := by
    intro rest
    induction rest with
    | nil => exact fun u => (List.append_nil _).symm
    | cons q rest ih =>
      intro u
      rw [List.foldl_cons, ih, hkill, List.append_assoc, List.filter_cons]
      split <;> rfl
  exact hfold s.events { s with events := [] }

theorem killAllEvents_time {force : Bool} {deletable : Nat → Bool} :
    (s.killAllEvents force deletable).time = s.time := by
  have hkill : ∀ (u : EventProcessor) (q : Nat × Nat),
      (u.killEvent force deletable q).time = u.time := by
    intro u q
    unfold killEvent
    have habort : (if u.abortState q.2 = .aborted then u else u.abort q.2).time = u.time := by
      split <;> rfl
    dsimp only
    split <;> exact habort
  have hfold : ∀ (rest : List (Nat × Nat)) (u : EventProcessor),
      (rest.foldl (killEvent force deletable) u).time = u.time := by
    intro rest
    induction rest with
    | nil => exact fun u => rfl
    | cons q rest ih =>
      intro u
      rw [List.foldl_cons, ih, hkill]
  exact hfold s.events { s with events := [] }

theorem apply_time {op : Op} (happly : s.apply op = some t) : t.time = s.time := by
  cases op with
  | addEvent event time => exact Option.some.inj happly ▸ rfl
  | scheduleAbort event =>
    obtain ⟨-, ht⟩ := Option.ite_none_right_eq_some.mp happly
    exact Option.some.inj ht ▸ rfl
  | killAllEvents force deletable => exact Option.some.inj happly ▸ killAllEvents_time

theorem Sound.apply {op : Op} {low : Nat} (h : s.Sound cap owed) (hfits : s.Fits low op)
    (hlow : cap ≤ low) (happly : s.apply op = some t) :
    t.Sound cap (owed ∩ {e | op.adds e = false}) := by
  cases op with
  | addEvent event time =>
    obtain rfl := Option.some.inj happly
    have hset : owed ∩ {e | (Op.addEvent event time).adds e = false} = owed \ {event} := by
      ext e
      simp [Op.adds, @eq_comm _ event]
    rw [hset]
    exact h.addEvent hfits.1 (Nat.le_trans hlow hfits.2)
  | scheduleAbort event =>
    have hset : owed ∩ {e | (Op.scheduleAbort event).adds e = false} = owed := by
      simp [Op.adds]
    rw [hset]
    exact h.scheduleAbort hfits happly
  | killAllEvents force deletable =>
    obtain rfl := Option.some.inj happly
    have hset : owed ∩ {e | (Op.killAllEvents force deletable).adds e = false} = owed := by
      simp [Op.adds]
    rw [hset]
    exact h.killAllEvents

theorem Sound.applyAll {ops : List Op} {low : Nat} (h : s.Sound cap owed)
    (hfits : s.AllFit low ops) (hlow : cap ≤ low) (happly : ops.foldlM EventProcessor.apply s = some t) :
    t.Sound cap (owed ∩ {e | ops.any (Op.adds e) = false}) ∧ t.time = s.time := by
  induction ops generalizing s owed with
  | nil =>
    obtain rfl := Option.some.inj happly
    refine ⟨?_, rfl⟩
    simpa using h
  | cons op ops ih =>
    obtain ⟨u, hu, hrest⟩ := Option.bind_eq_some_iff.mp happly
    obtain ⟨hsound, htime⟩ := ih (h.apply hfits.1 hlow hu) (hfits.2 u hu) hrest
    refine ⟨?_, htime.trans (apply_time hu)⟩
    have hset : owed ∩ {e | (op :: ops).any (Op.adds e) = false} =
        owed ∩ {e | op.adds e = false} ∩ {e | ops.any (Op.adds e) = false} := by
      ext e
      simp [and_assoc]
    rw [hset]
    exact hsound

theorem Sound.executed {due : Nat} {rest : List (Nat × Nat)} (h : s.Sound cap ∅)
    (hevents : s.events = (due, event) :: rest) (hdue : due ≤ s.time)
    (hstate : s.abortState event = .running) :
    Sound due {event} { s with events := rest, log := .executed event due s.time :: s.log } := by
  have hqueue : Sound cap ∅ { s with events := [] ++ (due, event) :: rest } := by
    rw [List.nil_append, ← hevents]
    exact h
  have htaken := hqueue.take
  rw [insert_empty_eq] at htaken
  have hcap : Sound due {event} { s with events := rest } :=
    { htaken with
      times := fun e d t hm => by
        obtain ⟨hd, -, hle⟩ := h.times e d t hm
        have hle : ∀ q ∈ (due, event) :: rest, d ≤ q.1 := hevents ▸ hle
        exact ⟨hd, hle _ (List.mem_cons_self ..), fun q hq => hle q (List.mem_cons_of_mem _ hq)⟩
      now := hdue }
  have hfree := htaken.owes event rfl
  refine hcap.note nofun nofun (fun y hy => ⟨?_, ?_, nofun, ?_⟩) ?_ ?_ ?_ ?_
  · rintro e d t e' d' t' hx rfl
    obtain ⟨-, rfl, -⟩ := Entry.executed.inj hx
    exact (hcap.times e' d' t' hy).2.1
  · rintro e d t hx
    obtain ⟨rfl, -, -⟩ := Entry.executed.inj hx
    refine ⟨?_, ?_⟩
    · rintro rfl
      exact h.scheduled event hy hstate
    · rintro rfl
      exact nomatch hstate.symm.trans (h.aborted event hy)
  · rintro rfl
    exact hfree.2 hy
  · intro e d t hx
    obtain ⟨rfl, rfl, rfl⟩ := Entry.executed.inj hx
    refine ⟨hdue, Nat.le_refl _, fun q hq => ?_⟩
    have hsorted := h.sorted
    rw [hevents] at hsorted
    exact (List.pairwise_cons.mp hsorted).1 q hq
  · intro e hm
    rcases List.mem_cons.mp hm with hnew | hm
    · exact nomatch hnew
    · exact h.scheduled e hm
  · intro e hm
    rcases List.mem_cons.mp hm with hnew | hm
    · exact nomatch hnew
    · exact h.aborted e hm
  · exact fun e => ⟨fun he => ⟨he, nofun⟩, And.left⟩

theorem Sound.turn {due : Nat} {rest : List (Nat × Nat)} {ops : List Op} {result deletable : Bool}
    (h : s.Sound s.time ∅) (hevents : s.events = (due, event) :: rest) (hdue : due ≤ s.time)
    (hallowed : s.Allowed (.turn ops result deletable))
    (hturn : EventProcessor.turn { s with events := rest } due event ops result deletable = some t) :
    t.Sound t.time ∅ := by
  have hclear : ({event} : Set Nat) \ {event} = ∅ :=
    Set.eq_empty_of_forall_notMem fun e he => he.2 he.1
  unfold EventProcessor.turn at hturn
  split at hturn
  · rename_i hstate
    obtain ⟨hfit, hresult⟩ := hallowed due event rest hevents hstate
    obtain ⟨u, hops, rfl⟩ := Option.map_eq_some_iff.mp hturn
    obtain ⟨hsound, htime⟩ :=
      (h.executed hevents hdue hstate).applyAll hfit (Nat.le_succ due) hops
    have hnow : due ≤ u.time := htime ▸ hdue
    cases hadds : ops.any (Op.adds event) with
    | false =>
      have hset : ({event} : Set Nat) ∩ {e | ops.any (Op.adds e) = false} = {event} :=
        Set.inter_eq_left.mpr (Set.singleton_subset_iff.mpr hadds)
      rw [hset] at hsound
      have hdeleted := hsound.delete rfl
      rw [hclear] at hdeleted
      rw [hadds] at hresult
      rw [hresult]
      exact hdeleted.relax hnow (Nat.le_refl _)
    | true =>
      have hset : ({event} : Set Nat) ∩ {e | ops.any (Op.adds e) = false} = ∅ := by
        refine Set.singleton_inter_eq_empty.mpr ?_
        rw [Set.mem_ofPred_eq, hadds]
        exact nofun
      rw [hset] at hsound
      rw [hadds] at hresult
      rw [hresult]
      exact hsound.relax hnow (Nat.le_refl _)
  · rename_i hstate
    have hqueue : Sound s.time ∅ { s with events := [] ++ (due, event) :: rest } := by
      rw [List.nil_append, ← hevents]
      exact h
    have htaken := hqueue.take
    rw [insert_empty_eq] at htaken
    have habort : ∃ u : EventProcessor, u = (if s.abortState event = .abortScheduled then
        EventProcessor.abort { s with events := rest } event else { s with events := rest }) ∧
        u.time = s.time ∧ u.Sound s.time {event} := by
      refine ⟨_, rfl, ?_⟩
      split
      · rename_i hscheduled
        refine ⟨rfl, htaken.abort (htaken.owes event rfl).2 ?_⟩
        change s.abortState event ≠ .aborted
        rw [hscheduled]
        exact nofun
      · exact ⟨rfl, htaken⟩
    obtain ⟨u, hu, htime, hsound⟩ := habort
    obtain rfl := Option.some.inj hturn
    dsimp only
    rw [← hu]
    split
    · have hdeleted := hsound.delete rfl
      rw [hclear] at hdeleted
      exact hdeleted.relax (Nat.le_of_eq htime.symm) (Nat.le_refl _)
    · have hlater : s.time ≤ u.calculateTime 1 := by
        unfold calculateTime
        omega
      have hadded := hsound.addEvent (hsound.owes event rfl) hlater
      rw [hclear] at hadded
      exact hadded.relax (Nat.le_of_eq htime.symm) (Nat.le_refl _)

theorem Sound.step {a : Act} (h : s.Sound s.time ∅) (hallowed : s.Allowed a)
    (hstep : s.step a = some t) : t.Sound t.time ∅ := by
  cases a with
  | call op =>
    obtain ⟨-, happly⟩ := Option.ite_none_left_eq_some.mp hstep
    have hsound := h.apply hallowed (Nat.le_refl _) happly
    rw [Set.empty_inter] at hsound
    exact hsound.relax (Nat.le_of_eq (apply_time happly).symm) (Nat.le_refl _)
  | update diff =>
    obtain ⟨-, ht⟩ := Option.ite_none_left_eq_some.mp hstep
    obtain rfl := Option.some.inj ht
    have hsound : Sound s.time ∅ { s with time := s.time + diff, updating := true } :=
      { h with now := Nat.le_add_right .. }
    exact hsound.relax (Nat.le_add_right ..) (Nat.le_refl _)
  | turn ops result deletable =>
    simp only [EventProcessor.step] at hstep
    split at hstep
    · exact nomatch hstep
    · rename_i due event rest hevents
      obtain ⟨⟨-, hdue⟩, hturn⟩ := Option.ite_none_right_eq_some.mp hstep
      exact h.turn hevents hdue hallowed hturn
  | leave =>
    obtain ⟨-, ht⟩ := Option.ite_none_right_eq_some.mp hstep
    obtain rfl := Option.some.inj ht
    exact { h with }

end EventProcessor

end Ashamane.BasicEvents
