import Ashamane.Battlegrounds.Queue
import Ashamane.Lib.Run
import Mathlib.Data.List.Count
import Mathlib.Data.List.Nodup
import Mathlib.Data.List.TakeWhile

/-! The rated arena part of `BattlegroundQueueUpdate`: the search for two teams in the
premade lists and the invitation of what was found. -/
namespace Ashamane.Battlegrounds

/-- What the update is called with and asks of the battleground manager; `arena` is
the answer of `CreateNewBattleground`. -/
structure RatedUpdate where
  arenaRating : BitVec 32
  maxRatingDifference : BitVec 32
  ratingDiscardTimer : BitVec 32
  arena : Option Battleground

structure RatingWindow where
  arenaMinRating : BitVec 32
  arenaMaxRating : BitVec 32
  discardTime : BitVec 32
  deriving DecidableEq, Repr

def RatingWindow.admits (w : RatingWindow) (g : GroupQueueInfo) : Bool :=
  (w.arenaMinRating.ule g.arenaMatchmakerRating && g.arenaMatchmakerRating.ule w.arenaMaxRating)
    || g.joinTime.slt w.discardTime

namespace BattlegroundQueue

/-- A rating of 0 stands for the team with the longest wait among the two fronts. -/
def ratingToMatch (q : BattlegroundQueue) (arenaRating : BitVec 32) : Option (BitVec 32) :=
  if arenaRating ≠ 0 then some arenaRating
  else
    match (q.queued .premadeAlliance).head?, (q.queued .premadeHorde).head? with
    | some front1, some front2 =>
      if (q.groups front1).joinTime < (q.groups front2).joinTime then
        some (q.groups front1).arenaMatchmakerRating
      else some (q.groups front2).arenaMatchmakerRating
    | some front1, none => some (q.groups front1).arenaMatchmakerRating
    | none, some front2 => some (q.groups front2).arenaMatchmakerRating
    | none, none => none

def ratingWindow (srv : Server) (q : BattlegroundQueue) (u : RatedUpdate) : Option RatingWindow :=
  (q.ratingToMatch u.arenaRating).map fun arenaRating =>
    { arenaMinRating :=
        if arenaRating ≤ u.maxRatingDifference then 0 else arenaRating - u.maxRatingDifference
      arenaMaxRating := arenaRating + u.maxRatingDifference
      discardTime := srv.msTime - u.ratingDiscardTimer }

def eligible (q : BattlegroundQueue) (w : RatingWindow) (p : GroupPtr) : Bool :=
  (q.groups p).isInvitedToBGInstanceGUID == 0 && w.admits (q.groups p)

/-- A list iterator is the rest of the list it points into: the search moves it to the
first eligible group. -/
def search (q : BattlegroundQueue) (w : RatingWindow) (itr : List GroupPtr) : List GroupPtr :=
  itr.dropWhile fun p => ! q.eligible w p

/-- The two teams of the next game, in the order of `itr_teams`. With one team found,
the second search goes on in the same list from the first hit itself. -/
def findTeams (q : BattlegroundQueue) (w : RatingWindow) : Option (GroupPtr × GroupPtr) :=
  match q.search w (q.queued .premadeAlliance), q.search w (q.queued .premadeHorde) with
  | aTeam :: _, hTeam :: _ => some (aTeam, hTeam)
  | aTeam :: rest, [] => ((q.search w (aTeam :: rest)).head?).map fun hTeam => (aTeam, hTeam)
  | [], aTeam :: rest => ((q.search w (aTeam :: rest)).head?).map fun hTeam => (aTeam, hTeam)
  | [], [] => none

def setOpponents (q : BattlegroundQueue) (aTeam hTeam : GroupPtr) : BattlegroundQueue :=
  let q := q.setGroup aTeam fun g =>
    { g with opponentsTeamRating := (q.groups hTeam).arenaGroupRating }
  let q := q.setGroup hTeam fun g =>
    { g with opponentsTeamRating := (q.groups aTeam).arenaGroupRating }
  let q := q.setGroup aTeam fun g =>
    { g with opponentsMatchmakerRating := (q.groups hTeam).arenaMatchmakerRating }
  q.setGroup hTeam fun g =>
    { g with opponentsMatchmakerRating := (q.groups aTeam).arenaMatchmakerRating }

def moveTeams (q : BattlegroundQueue) (aTeam hTeam : GroupPtr) : BattlegroundQueue :=
  let q :=
    if (q.groups aTeam).team ≠ .alliance then
      let q := q.setQueued .premadeAlliance (aTeam :: q.queued .premadeAlliance)
      q.setQueued .premadeHorde ((q.queued .premadeHorde).erase aTeam)
    else q
  if (q.groups hTeam).team ≠ .horde then
    let q := q.setQueued .premadeHorde (hTeam :: q.queued .premadeHorde)
    q.setQueued .premadeAlliance ((q.queued .premadeAlliance).erase hTeam)
  else q

def updateRatedArena (srv : Server) (q : BattlegroundQueue) (u : RatedUpdate) :
    BattlegroundQueue × Option (GroupPtr × GroupPtr × Battleground) :=
  match q.ratingWindow srv u with
  | none => (q, none)
  | some w =>
    match q.findTeams w with
    | none => (q, none)
    | some (aTeam, hTeam) =>
      match u.arena with
      | none => (q, none)
      | some arena =>
        let q := (q.setOpponents aTeam hTeam).moveTeams aTeam hTeam
        let arena := arena.setArenaMatchmakerRating .alliance
          (q.groups aTeam).arenaMatchmakerRating
        let arena := arena.setArenaMatchmakerRating .horde (q.groups hTeam).arenaMatchmakerRating
        let (_, q, arena) := inviteGroupToBG srv q aTeam arena (some .alliance)
        let (_, q, arena) := inviteGroupToBG srv q hTeam arena (some .horde)
        (q, some (aTeam, hTeam, arena))

structure WellFormed (q : BattlegroundQueue) : Prop where
  nodup : ∀ t, (q.queued t).Nodup
  disjoint : ∀ t u p, t ≠ u → p ∈ q.queued t → p ∉ q.queued u
  allocated : ∀ t p, p ∈ q.queued t → p < q.next
  alliance : ∀ p ∈ q.queued .premadeAlliance, (q.groups p).isInvitedToBGInstanceGUID = 0 →
    (q.groups p).team = .alliance
  horde : ∀ p ∈ q.queued .premadeHorde, (q.groups p).isInvitedToBGInstanceGUID = 0 →
    (q.groups p).team = .horde
  players : ∀ t u p r, p ∈ q.queued t → r ∈ q.queued u → p ≠ r →
    ∀ guid ∈ (q.groups p).players, guid ∉ (q.groups r).players

structure FairMatch (srv : Server) (u : RatedUpdate) (q q' : BattlegroundQueue)
    (aTeam hTeam : GroupPtr) : Prop where
  distinct : aTeam ≠ hTeam
  teams : ∀ guid ∈ (q.groups aTeam).players, guid ∉ (q.groups hTeam).players
  uninvited : (q.groups aTeam).isInvitedToBGInstanceGUID = 0 ∧
    (q.groups hTeam).isInvitedToBGInstanceGUID = 0
  inWindow : ∃ w, q.ratingWindow srv u = some w ∧ w.admits (q.groups aTeam) ∧
    w.admits (q.groups hTeam)
  left_alliance : (q'.queued .premadeAlliance).count aTeam = 1 ∧
    (q'.queued .premadeHorde).count aTeam = 0
  left_horde : (q'.queued .premadeHorde).count hTeam = 1 ∧
    (q'.queued .premadeAlliance).count hTeam = 0

def offers (srv : Server) (q : BattlegroundQueue) (u : RatedUpdate) (t : GroupType) : Bool :=
  (q.ratingWindow srv u).any fun w => (q.queued t).any (q.eligible w)

variable {srv : Server} {q : BattlegroundQueue} {w : RatingWindow}

theorem search_cons {l rest : List GroupPtr} {p : GroupPtr} (h : q.search w l = p :: rest) :
    p ∈ l ∧ q.eligible w p := by
  have hmem : p ∈ q.search w l := by
    rw [h]
    exact List.mem_cons_self
  refine ⟨(List.dropWhile_sublist _).mem hmem, ?_⟩
  have hhead := List.head?_dropWhile_not (fun p => ! q.eligible w p) l
  unfold search at h
  simpa [h] using hhead

theorem search_eq_nil_iff {l : List GroupPtr} :
    q.search w l = [] ↔ l.any (q.eligible w) = false := by
  unfold search
  rw [List.dropWhile_eq_nil_iff, List.any_eq_false]
  simp

theorem search_self {rest : List GroupPtr} {p : GroupPtr} (h : q.eligible w p) :
    q.search w (p :: rest) = p :: rest := by
  unfold search
  rw [List.dropWhile_cons_of_neg (by simp [h])]

theorem findTeams_none (hA : (q.queued .premadeAlliance).any (q.eligible w) = false)
    (hH : (q.queued .premadeHorde).any (q.eligible w) = false) : q.findTeams w = none := by
  unfold findTeams
  rw [search_eq_nil_iff.mpr hA, search_eq_nil_iff.mpr hH]

theorem findTeams_both (hA : (q.queued .premadeAlliance).any (q.eligible w))
    (hH : (q.queued .premadeHorde).any (q.eligible w)) :
    ∃ aTeam hTeam, q.findTeams w = some (aTeam, hTeam) ∧
      (aTeam ∈ q.queued .premadeAlliance ∧ q.eligible w aTeam) ∧
      (hTeam ∈ q.queued .premadeHorde ∧ q.eligible w hTeam) := by
  cases ha : q.search w (q.queued .premadeAlliance) with
  | nil => simp [search_eq_nil_iff.mp ha] at hA
  | cons aTeam as =>
    cases hh : q.search w (q.queued .premadeHorde) with
    | nil => simp [search_eq_nil_iff.mp hh] at hH
    | cons hTeam hs =>
      refine ⟨aTeam, hTeam, ?_, search_cons ha, search_cons hh⟩
      unfold findTeams
      rw [ha, hh]

theorem eligible_uninvited {p : GroupPtr} (h : q.eligible w p) :
    (q.groups p).isInvitedToBGInstanceGUID = 0 := by
  simp only [eligible, Bool.and_eq_true, beq_iff_eq] at h
  exact h.1

theorem findTeams_one
    (hone : (q.queued .premadeAlliance).any (q.eligible w) ≠
      (q.queued .premadeHorde).any (q.eligible w)) :
    ∃ team, q.findTeams w = some (team, team) ∧ q.eligible w team ∧
      (team ∈ q.queued .premadeAlliance ∨ team ∈ q.queued .premadeHorde) := by
  cases ha : q.search w (q.queued .premadeAlliance) with
  | nil =>
    cases hh : q.search w (q.queued .premadeHorde) with
    | nil =>
      rw [search_eq_nil_iff.mp ha, search_eq_nil_iff.mp hh] at hone
      exact absurd rfl hone
    | cons hTeam hs =>
      obtain ⟨hmem, hel⟩ := search_cons hh
      refine ⟨hTeam, ?_, hel, .inr hmem⟩
      unfold findTeams
      rw [ha, hh]
      dsimp only
      rw [search_self hel]
      rfl
  | cons aTeam as =>
    obtain ⟨hmem, hel⟩ := search_cons ha
    cases hh : q.search w (q.queued .premadeHorde) with
    | nil =>
      refine ⟨aTeam, ?_, hel, .inl hmem⟩
      unfold findTeams
      rw [ha, hh]
      dsimp only
      rw [search_self hel]
      rfl
    | cons hTeam hs =>
      have hA : (q.queued .premadeAlliance).any (q.eligible w) = true :=
        List.any_eq_true.mpr ⟨aTeam, hmem, hel⟩
      have hH : (q.queued .premadeHorde).any (q.eligible w) = true :=
        List.any_eq_true.mpr ⟨hTeam, search_cons hh⟩
      exact absurd (hA.trans hH.symm) hone

theorem findTeams_cases {aTeam hTeam : GroupPtr} (h : q.findTeams w = some (aTeam, hTeam)) :
    (aTeam ∈ q.queued .premadeAlliance ∧ hTeam ∈ q.queued .premadeHorde ∧
      q.eligible w aTeam ∧ q.eligible w hTeam) ∨
    (aTeam = hTeam ∧ q.eligible w aTeam ∧
      (aTeam ∈ q.queued .premadeAlliance ∨ aTeam ∈ q.queued .premadeHorde)) := by
  by_cases hone : (q.queued .premadeAlliance).any (q.eligible w) =
      (q.queued .premadeHorde).any (q.eligible w)
  · cases hA : (q.queued .premadeAlliance).any (q.eligible w) with
    | false =>
      rw [findTeams_none hA (hone ▸ hA)] at h
      cases h
    | true =>
      obtain ⟨a, b, hf, ⟨ha, hea⟩, ⟨hb, heb⟩⟩ := findTeams_both hA (hone ▸ hA)
      rw [hf] at h
      cases h
      exact .inl ⟨ha, hb, hea, heb⟩
  · obtain ⟨team, hf, hel, hmem⟩ := findTeams_one hone
    rw [hf] at h
    cases h
    exact .inr ⟨rfl, hel, hmem⟩

@[simp] theorem setOpponents_queued (aTeam hTeam : GroupPtr) :
    (q.setOpponents aTeam hTeam).queued = q.queued := rfl

theorem setOpponents_field {α : Type*} (field : GroupQueueInfo → α)
    (hrating : ∀ g r, field { g with opponentsTeamRating := r } = field g)
    (hmmr : ∀ g r, field { g with opponentsMatchmakerRating := r } = field g)
    (aTeam hTeam p : GroupPtr) :
    field ((q.setOpponents aTeam hTeam).groups p) = field (q.groups p) := by
  unfold setOpponents
  dsimp only
  rw [setGroup_field field _ (fun g => hmmr g _), setGroup_field field _ (fun g => hmmr g _),
    setGroup_field field _ (fun g => hrating g _), setGroup_field field _ (fun g => hrating g _)]

theorem setOpponents_team (aTeam hTeam p : GroupPtr) :
    ((q.setOpponents aTeam hTeam).groups p).team = (q.groups p).team :=
  setOpponents_field (·.team) (fun _ _ => rfl) (fun _ _ => rfl) aTeam hTeam p

theorem moveTeams_groups (aTeam hTeam : GroupPtr) :
    (q.moveTeams aTeam hTeam).groups = q.groups := by
  unfold moveTeams
  dsimp only
  split <;> split <;> rfl

theorem moveTeams_next (aTeam hTeam : GroupPtr) : (q.moveTeams aTeam hTeam).next = q.next := by
  unfold moveTeams
  dsimp only
  split <;> split <;> rfl

/-- Teams that already play for their sides stay in their lists. -/
theorem moveTeams_stay {aTeam hTeam : GroupPtr} (ha : (q.groups aTeam).team = .alliance)
    (hh : (q.groups hTeam).team = .horde) : q.moveTeams aTeam hTeam = q := by
  unfold moveTeams
  simp [ha, hh]

theorem updateRatedArena_some {u : RatedUpdate} {aTeam hTeam : GroupPtr} {arena : Battleground}
    (hw : q.ratingWindow srv u = some w) (hf : q.findTeams w = some (aTeam, hTeam))
    (ha : u.arena = some arena) :
    ∃ arena', (updateRatedArena srv q u).2 = some (aTeam, hTeam, arena') ∧
      (updateRatedArena srv q u).1.queued =
        ((q.setOpponents aTeam hTeam).moveTeams aTeam hTeam).queued := by
  unfold updateRatedArena
  rw [hw]
  dsimp only
  rw [hf]
  dsimp only
  rw [ha]
  refine ⟨_, rfl, ?_⟩
  rw [(inviteGroupToBG_frame _ _ _).1, (inviteGroupToBG_frame _ _ _).1]

theorem updateRatedArena_none {u : RatedUpdate}
    (h : u.arena = none ∨ ∀ w, q.ratingWindow srv u = some w → q.findTeams w = none) :
    (updateRatedArena srv q u).2 = none := by
  unfold updateRatedArena
  split
  · rfl
  next w hw =>
    split
    · rfl
    next p hp =>
      rcases h with harena | hnone
      · rw [harena]
      · rw [hnone w hw] at hp
        cases hp

theorem wellFormed_empty : empty.WellFormed where
  nodup _ := List.nodup_nil
  disjoint _ _ _ _ h := absurd h List.not_mem_nil
  allocated _ _ h := absurd h List.not_mem_nil
  alliance _ h := absurd h List.not_mem_nil
  horde _ h := absurd h List.not_mem_nil
  players _ _ _ _ h := absurd h List.not_mem_nil

theorem wellFormed_enqueue (hq : q.WellFormed) {index : GroupType} {ginfo : GroupQueueInfo}
    (hA : index = .premadeAlliance → ginfo.team = .alliance)
    (hH : index = .premadeHorde → ginfo.team = .horde)
    (hfresh : ∀ t, ∀ p ∈ q.queued t, ∀ guid ∈ ginfo.players, guid ∉ (q.groups p).players) :
    (q.enqueue index ginfo).WellFormed := by
  have hold : ∀ {t p}, p ∈ q.queued t → p ≠ q.next := fun hp => Nat.ne_of_lt (hq.allocated _ _ hp)
  refine ⟨?_, ?_, ?_, ?_, ?_, ?_⟩
  · intro t
    by_cases ht : t = index
    · subst ht
      rw [enqueue_queued_self]
      rw [← List.concat_eq_append]
      exact (hq.nodup t).concat fun hmem => hold hmem rfl
    · rw [enqueue_queued_ne ht]
      exact hq.nodup t
  · intro t u p htu hp hpu
    rcases mem_enqueue_queued.mp hp with hp | ⟨ht, hnew⟩
    · rcases mem_enqueue_queued.mp hpu with hpu | ⟨_, hnew⟩
      · exact hq.disjoint t u p htu hp hpu
      · exact hold hp hnew
    · rcases mem_enqueue_queued.mp hpu with hpu | ⟨hu, _⟩
      · exact hold hpu hnew
      · exact htu (ht.trans hu.symm)
  · intro t p hp
    rcases mem_enqueue_queued.mp hp with hp | ⟨_, rfl⟩
    · exact Nat.lt_succ_of_lt (hq.allocated t p hp)
    · exact Nat.lt_succ_self _
  · intro p hp hinv
    rcases mem_enqueue_queued.mp hp with hp | ⟨ht, rfl⟩
    · rw [enqueue_groups_old (hold hp)] at hinv ⊢
      exact hq.alliance p hp hinv
    · rw [enqueue_groups_new]
      exact hA ht.symm
  · intro p hp hinv
    rcases mem_enqueue_queued.mp hp with hp | ⟨ht, rfl⟩
    · rw [enqueue_groups_old (hold hp)] at hinv ⊢
      exact hq.horde p hp hinv
    · rw [enqueue_groups_new]
      exact hH ht.symm
  · intro t u p r hp hr hne guid
    rcases mem_enqueue_queued.mp hp with hp | ⟨_, rfl⟩
    · rcases mem_enqueue_queued.mp hr with hr | ⟨_, rfl⟩
      · rw [enqueue_groups_old (hold hp), enqueue_groups_old (hold hr)]
        exact hq.players t u p r hp hr hne guid
      · rw [enqueue_groups_old (hold hp), enqueue_groups_new]
        intro hguid hnew
        exact hfresh t p hp guid hnew hguid
    · rcases mem_enqueue_queued.mp hr with hr | ⟨_, rfl⟩
      · rw [enqueue_groups_new, enqueue_groups_old (hold hr)]
        exact hfresh u r hr guid
      · exact absurd rfl hne

/-- Groups join with players that wait in no other group of the bracket. -/
theorem wellFormed_addGroup (hq : q.WellFormed) (leaderTeam : Team) (players : List ObjectGuid)
    (bgTypeId arenaType : Nat) (isRated isPremade : Bool) (arenaRating mmr : BitVec 32)
    (hfresh : ∀ t, ∀ p ∈ q.queued t, ∀ guid ∈ players, guid ∉ (q.groups p).players) :
    (addGroup srv q leaderTeam players bgTypeId arenaType isRated isPremade arenaRating
      mmr).2.WellFormed := by
  refine wellFormed_enqueue hq ?_ ?_ hfresh
  · intro h
    unfold groupIndex at h
    split at h <;> simp_all
  · intro h
    unfold groupIndex at h
    split at h <;> simp_all

/-- A team that moves from the list `t` to the front of `u` and is invited there leaves
the bracket well formed. -/
theorem wellFormed_moved {q' : BattlegroundQueue} (hq : q.WellFormed) {t u : GroupType}
    {team : GroupPtr} (htu : t ≠ u) (hteam : team ∈ q.queued t)
    (hqueued : q'.queued =
      Function.update (Function.update q.queued u (team :: q.queued u)) t
        ((q.queued t).erase team))
    (hnext : q'.next = q.next) (hplayers : ∀ p, (q'.groups p).players = (q.groups p).players)
    (hinv : ∀ p, (q'.groups p).isInvitedToBGInstanceGUID = 0 →
      p ≠ team ∧ (q.groups p).isInvitedToBGInstanceGUID = 0 ∧
        (q'.groups p).team = (q.groups p).team) : q'.WellFormed := by
  have ht : q'.queued t = (q.queued t).erase team := by
    rw [hqueued, Function.update_self]
  have hu : q'.queued u = team :: q.queued u := by
    rw [hqueued, Function.update_of_ne htu.symm, Function.update_self]
  have hv : ∀ v, v ≠ t → v ≠ u → q'.queued v = q.queued v := by
    intro v hvt hvu
    rw [hqueued, Function.update_of_ne hvt, Function.update_of_ne hvu]
  have hnotu : team ∉ q.queued u := hq.disjoint t u team htu hteam
  -- an entry of the new lists is an old one of the same list, or the team itself
  have hmem : ∀ v p, p ∈ q'.queued v → (p ≠ team ∧ p ∈ q.queued v) ∨ (p = team ∧ v = u) := by
    intro v p hp
    by_cases hvt : v = t
    · subst hvt
      rw [ht, (hq.nodup v).mem_erase_iff] at hp
      exact .inl hp
    · by_cases hvu : v = u
      · subst hvu
        rw [hu, List.mem_cons] at hp
        rcases hp with rfl | hp
        · exact .inr ⟨rfl, rfl⟩
        · exact .inl ⟨fun h => hnotu (h ▸ hp), hp⟩
      · rw [hv v hvt hvu] at hp
        exact .inl ⟨fun h => hq.disjoint t v team (Ne.symm hvt) hteam (h ▸ hp), hp⟩
  have hold : ∀ v p, p ∈ q'.queued v → ∃ v', p ∈ q.queued v' := by
    intro v p hp
    rcases hmem v p hp with ⟨_, hp⟩ | ⟨rfl, _⟩
    · exact ⟨v, hp⟩
    · exact ⟨t, hteam⟩
  refine ⟨?_, ?_, ?_, ?_, ?_, ?_⟩
  · intro v
    by_cases hvt : v = t
    · subst hvt
      rw [ht]
      exact (hq.nodup v).erase team
    · by_cases hvu : v = u
      · subst hvu
        rw [hu]
        exact List.nodup_cons.mpr ⟨hnotu, hq.nodup v⟩
      · rw [hv v hvt hvu]
        exact hq.nodup v
  · intro v v' p hvv hp hp'
    rcases hmem v p hp with ⟨hne, hp⟩ | ⟨heq, hvu⟩
    · rcases hmem v' p hp' with ⟨_, hp'⟩ | ⟨heq, _⟩
      · exact hq.disjoint v v' p hvv hp hp'
      · exact hne heq
    · rcases hmem v' p hp' with ⟨hne, _⟩ | ⟨_, hvu'⟩
      · exact hne heq
      · exact hvv (hvu.trans hvu'.symm)
  · intro v p hp
    obtain ⟨v', hp'⟩ := hold v p hp
    rw [hnext]
    exact hq.allocated v' p hp'
  · intro p hp hz
    obtain ⟨hne, hz', hsame⟩ := hinv p hz
    rcases hmem _ p hp with ⟨_, hp⟩ | ⟨heq, _⟩
    · rw [hsame]
      exact hq.alliance p hp hz'
    · exact absurd heq hne
  · intro p hp hz
    obtain ⟨hne, hz', hsame⟩ := hinv p hz
    rcases hmem _ p hp with ⟨_, hp⟩ | ⟨heq, _⟩
    · rw [hsame]
      exact hq.horde p hp hz'
    · exact absurd heq hne
  · intro v v' p r hp hr hne guid
    obtain ⟨x, hp'⟩ := hold v p hp
    obtain ⟨y, hr'⟩ := hold v' r hr
    rw [hplayers, hplayers]
    exact hq.players x y p r hp' hr' hne guid

theorem wellFormed_kept {q' : BattlegroundQueue} (hq : q.WellFormed)
    (hqueued : q'.queued = q.queued) (hnext : q'.next = q.next)
    (hplayers : ∀ p, (q'.groups p).players = (q.groups p).players)
    (hinv : ∀ p, (q'.groups p).isInvitedToBGInstanceGUID = 0 →
      (q.groups p).isInvitedToBGInstanceGUID = 0 ∧ (q'.groups p).team = (q.groups p).team) :
    q'.WellFormed := by
  refine ⟨fun t => ?_, ?_, ?_, ?_, ?_, ?_⟩
  · rw [hqueued]
    exact hq.nodup t
  · rw [hqueued]
    exact hq.disjoint
  · rw [hqueued, hnext]
    exact hq.allocated
  · intro p hp hz
    obtain ⟨hz', hsame⟩ := hinv p hz
    rw [hsame]
    exact hq.alliance p (hqueued ▸ hp) hz'
  · intro p hp hz
    obtain ⟨hz', hsame⟩ := hinv p hz
    rw [hsame]
    exact hq.horde p (hqueued ▸ hp) hz'
  · intro t u p r hp hr hne guid
    rw [hplayers, hplayers]
    exact hq.players t u p r (hqueued ▸ hp) (hqueued ▸ hr) hne guid

theorem inviteTeams_uninvited {arena : Battleground} (hid : arena.instanceID ≠ 0)
    {aTeam hTeam p : GroupPtr} :
    let r₁ := inviteGroupToBG srv ((q.setOpponents aTeam hTeam).moveTeams aTeam hTeam) aTeam arena
      (some .alliance)
    let r₂ := inviteGroupToBG srv r₁.2.1 hTeam r₁.2.2 (some .horde)
    (r₂.2.1.groups p).isInvitedToBGInstanceGUID = 0 →
      p ≠ aTeam ∧ p ≠ hTeam ∧ (q.groups p).isInvitedToBGInstanceGUID = 0 ∧
        (r₂.2.1.groups p).team = (q.groups p).team := by
  intro r₁ r₂ hz
  have hr₁id : r₁.2.2.instanceID ≠ 0 := by
    rw [inviteGroupToBG_instanceID]
    exact hid
  obtain ⟨hnh, heq⟩ := inviteGroupToBG_uninvited hr₁id hz
  rw [heq] at hz
  obtain ⟨hna, heq'⟩ := inviteGroupToBG_uninvited hid hz
  rw [heq', moveTeams_groups] at hz
  rw [heq, heq', moveTeams_groups]
  refine ⟨hna, hnh, ?_, setOpponents_team aTeam hTeam p⟩
  rw [← hz]
  exact (setOpponents_field (·.isInvitedToBGInstanceGUID) (fun _ _ => rfl)
    (fun _ _ => rfl) _ _ p).symm

/-- The update keeps the bracket well formed, also when it matches a team with itself. -/
theorem wellFormed_updateRatedArena (hq : q.WellFormed) {u : RatedUpdate}
    (hid : ∀ arena, u.arena = some arena → arena.instanceID ≠ 0) :
    (updateRatedArena srv q u).1.WellFormed := by
  unfold updateRatedArena
  split
  · exact hq
  next w hw =>
    split
    · exact hq
    next aTeam hTeam hf =>
      split
      · exact hq
      next arena harena =>
        dsimp only
        set q₁ := q.setOpponents aTeam hTeam with hq₁
        set q₂ := q₁.moveTeams aTeam hTeam with hq₂
        set a₁ := (arena.setArenaMatchmakerRating .alliance
          (q₂.groups aTeam).arenaMatchmakerRating).setArenaMatchmakerRating .horde
            (q₂.groups hTeam).arenaMatchmakerRating with ha₁
        set r₁ := inviteGroupToBG srv q₂ aTeam a₁ (some .alliance) with hr₁
        set r₂ := inviteGroupToBG srv r₁.2.1 hTeam r₁.2.2 (some .horde) with hr₂
        have hgroups : q₂.groups = q₁.groups := moveTeams_groups aTeam hTeam
        have ha₁id : a₁.instanceID ≠ 0 := hid arena harena
        have hqueued : r₂.2.1.queued = q₂.queued := by
          rw [hr₂, (inviteGroupToBG_frame _ _ _).1, hr₁, (inviteGroupToBG_frame _ _ _).1]
        have hnext : r₂.2.1.next = q.next := by
          rw [hr₂, (inviteGroupToBG_frame _ _ _).2, hr₁, (inviteGroupToBG_frame _ _ _).2]
          exact moveTeams_next aTeam hTeam
        have hplayers : ∀ p, (r₂.2.1.groups p).players = (q.groups p).players := by
          intro p
          rw [hr₂, inviteGroupToBG_players, hr₁, inviteGroupToBG_players, hgroups, hq₁]
          exact setOpponents_field (·.players) (fun _ _ => rfl) (fun _ _ => rfl) _ _ p
        have hinv : ∀ p, (r₂.2.1.groups p).isInvitedToBGInstanceGUID = 0 →
            p ≠ aTeam ∧ p ≠ hTeam ∧ (q.groups p).isInvitedToBGInstanceGUID = 0 ∧
              (r₂.2.1.groups p).team = (q.groups p).team := by
          intro p hz
          exact inviteTeams_uninvited ha₁id hz
        rcases findTeams_cases hf with ⟨hA, hH, hea, heh⟩ | ⟨rfl, hel, hmem⟩
        · -- one team from each list: they stay where they are
          have hstay : q₂.queued = q.queued := by
            rw [hq₂, moveTeams_stay, hq₁, setOpponents_queued]
            · rw [hq₁, setOpponents_team]
              exact hq.alliance aTeam hA (eligible_uninvited hea)
            · rw [hq₁, setOpponents_team]
              exact hq.horde hTeam hH (eligible_uninvited heh)
          exact wellFormed_kept hq (hqueued.trans hstay) hnext hplayers fun p hz =>
            (hinv p hz).2.2
        · rcases hmem with hA | hH
          · have hteam := hq.alliance aTeam hA (eligible_uninvited hel)
            refine wellFormed_moved hq (show GroupType.premadeAlliance ≠ .premadeHorde by decide)
              hA ?_ hnext hplayers fun p hz => ⟨(hinv p hz).1, (hinv p hz).2.2⟩
            rw [hqueued, hq₂]
            unfold moveTeams setQueued
            simp [hq₁, setOpponents_team, hteam]
          · have hteam := hq.horde aTeam hH (eligible_uninvited hel)
            refine wellFormed_moved hq (show GroupType.premadeHorde ≠ .premadeAlliance by decide)
              hH ?_ hnext hplayers fun p hz => ⟨(hinv p hz).1, (hinv p hz).2.2⟩
            rw [hqueued, hq₂]
            unfold moveTeams setQueued
            simp [hq₁, setOpponents_team, hteam]

/-- A rated arena match is started between two different teams, as it should be, unless
exactly one of the two premade lists has a group to offer. -/
theorem ratedArena_fair_iff (srv : Server) (q : BattlegroundQueue) (u : RatedUpdate)
    (hq : q.WellFormed) :
    (∀ aTeam hTeam arena, (updateRatedArena srv q u).2 = some (aTeam, hTeam, arena) →
        q.FairMatch srv u (updateRatedArena srv q u).1 aTeam hTeam) ↔
      (u.arena = none ∨ q.offers srv u .premadeAlliance = q.offers srv u .premadeHorde) := by
  cases harena : u.arena with
  | none =>
    rw [updateRatedArena_none (.inl harena)]
    simp
  | some arena =>
    cases hw : q.ratingWindow srv u with
    | none =>
      rw [updateRatedArena_none (.inr (by simp [hw]))]
      simp [offers, hw]
    | some w =>
      have hoffers : ∀ t, q.offers srv u t = (q.queued t).any (q.eligible w) := by
        intro t
        simp [offers, hw]
      rw [hoffers, hoffers]
      constructor
      · intro hfair
        right
        by_contra hone
        obtain ⟨team, hf, _⟩ := findTeams_one hone
        obtain ⟨arena', hres, _⟩ := updateRatedArena_some hw hf harena
        exact (hfair _ _ _ hres).distinct rfl
      · rintro (hnone | hsame) aTeam hTeam arena' hres
        · cases hnone
        · cases hA : (q.queued .premadeAlliance).any (q.eligible w) with
          | false =>
            rw [updateRatedArena_none (.inr fun w' hw' => ?_)] at hres
            · cases hres
            · rw [hw] at hw'
              cases hw'
              exact findTeams_none hA (hsame ▸ hA)
          | true =>
            obtain ⟨a, h, hf, ⟨ha, hea⟩, ⟨hh, heh⟩⟩ := findTeams_both hA (hsame ▸ hA)
            obtain ⟨arena'', hres', hqueued⟩ := updateRatedArena_some hw hf harena
            rw [hres'] at hres
            cases hres
            have hia := eligible_uninvited hea
            have hih := eligible_uninvited heh
            simp only [eligible, Bool.and_eq_true] at hea heh
            have hne : aTeam ≠ hTeam := by
              rintro rfl
              exact hq.disjoint _ _ _ (by decide) ha hh
            -- both teams play for the side of the list they wait in
            have hmove : ((q.setOpponents aTeam hTeam).moveTeams aTeam hTeam).queued =
                q.queued := by
              rw [moveTeams_stay, setOpponents_queued]
              · rw [setOpponents_team]
                exact hq.alliance aTeam ha hia
              · rw [setOpponents_team]
                exact hq.horde hTeam hh hih
            rw [hmove] at hqueued
            refine ⟨hne, hq.players _ _ _ _ ha hh hne, ⟨hia, hih⟩, ⟨w, hw, hea.2, heh.2⟩, ?_, ?_⟩
            · rw [hqueued]
              exact ⟨List.count_eq_one_of_mem (hq.nodup _) ha,
                List.count_eq_zero.mpr (hq.disjoint _ _ _ (by decide) ha)⟩
            · rw [hqueued]
              exact ⟨List.count_eq_one_of_mem (hq.nodup _) hh,
                List.count_eq_zero.mpr (hq.disjoint _ _ _ (by decide) hh)⟩

def plainServer : Server := ⟨700000, fun _ => true⟩

def plainUpdate : RatedUpdate :=
  ⟨1500, 150, 600000, some ⟨7, 6, 2, fun _ => 0, fun _ => 0⟩⟩

def oneTeam : BattlegroundQueue :=
  (addGroup plainServer empty .alliance [1, 2] 6 2 true false 1500 1500).2

def twoTeams : BattlegroundQueue :=
  (addGroup plainServer oneTeam .horde [3, 4] 6 2 true false 1550 1550).2

theorem wellFormed_oneTeam : oneTeam.WellFormed :=
  wellFormed_addGroup wellFormed_empty _ _ _ _ _ _ _ _ (by simp [empty])

/-- Two teams of close rating get a fair match. -/
theorem ratedArena_fair_pair :
    ∃ arena, (updateRatedArena plainServer twoTeams plainUpdate).2 = some (0, 1, arena) ∧
      twoTeams.FairMatch plainServer plainUpdate
        (updateRatedArena plainServer twoTeams plainUpdate).1 0 1 := by
  have hq : twoTeams.WellFormed := by
    refine wellFormed_addGroup wellFormed_oneTeam _ _ _ _ _ _ _ _ ?_
    intro t p hp
    rcases mem_enqueue_queued.mp hp with hp | ⟨_, rfl⟩
    · simp [empty] at hp
    · decide
  have hw : twoTeams.ratingWindow plainServer plainUpdate = some ⟨1350, 1650, 100000⟩ := by decide
  obtain ⟨arena, hres, _⟩ := updateRatedArena_some hw
    (show _ = some (0, 1) by decide) (show plainUpdate.arena = some _ from rfl)
  exact ⟨arena, hres, (ratedArena_fair_iff _ _ _ hq).mpr (.inr (by decide)) 0 1 arena hres⟩

/-- One team alone in the queue is matched with itself. -/
theorem ratedArena_fails_alone :
    ¬ ∀ (srv : Server) (q : BattlegroundQueue) (u : RatedUpdate), q.WellFormed →
      ∀ aTeam hTeam arena, (updateRatedArena srv q u).2 = some (aTeam, hTeam, arena) →
        q.FairMatch srv u (updateRatedArena srv q u).1 aTeam hTeam := by
  intro hall
  have hw : oneTeam.ratingWindow plainServer plainUpdate = some ⟨1350, 1650, 100000⟩ := by decide
  obtain ⟨arena, hres, _⟩ := updateRatedArena_some hw
    (show _ = some (0, 0) by decide) (show plainUpdate.arena = some _ from rfl)
  exact (hall _ _ _ wellFormed_oneTeam 0 0 arena hres).distinct rfl

theorem updateRatedArena_uninvited {u : RatedUpdate} {p : GroupPtr}
    (hid : ∀ arena, u.arena = some arena → arena.instanceID ≠ 0)
    (hz : ((updateRatedArena srv q u).1.groups p).isInvitedToBGInstanceGUID = 0) :
    (q.groups p).isInvitedToBGInstanceGUID = 0 ∧ ∀ aTeam hTeam arena,
      (updateRatedArena srv q u).2 = some (aTeam, hTeam, arena) → p ≠ aTeam ∧ p ≠ hTeam := by
  unfold updateRatedArena at hz ⊢
  split at hz
  · exact ⟨hz, fun _ _ _ h => by cases h⟩
  split at hz
  · exact ⟨hz, fun _ _ _ h => by cases h⟩
  split at hz
  · exact ⟨hz, fun _ _ _ h => by cases h⟩
  next aTeam hTeam _ _ arena harena =>
    have hset : ∀ r r', ((arena.setArenaMatchmakerRating .alliance r).setArenaMatchmakerRating
        .horde r').instanceID ≠ 0 := fun _ _ => hid arena harena
    obtain ⟨hna, hnh, hold, _⟩ := inviteTeams_uninvited (hset _ _) hz
    refine ⟨hold, fun _ _ _ h => ?_⟩
    cases h
    exact ⟨hna, hnh⟩

theorem updateRatedArena_waiting {u : RatedUpdate} {aTeam hTeam : GroupPtr} {arena : Battleground}
    (h : (updateRatedArena srv q u).2 = some (aTeam, hTeam, arena)) :
    ∀ p, p = aTeam ∨ p = hTeam → (∃ t, p ∈ q.queued t) ∧
      (q.groups p).isInvitedToBGInstanceGUID = 0 := by
  unfold updateRatedArena at h
  split at h
  · cases h
  split at h
  · cases h
  next hf =>
    split at h
    · cases h
    cases h
    rcases findTeams_cases hf with ⟨hA, hH, hea, heh⟩ | ⟨rfl, hel, hmem⟩
    · rintro p (rfl | rfl)
      · exact ⟨⟨_, hA⟩, eligible_uninvited hea⟩
      · exact ⟨⟨_, hH⟩, eligible_uninvited heh⟩
    · rintro p (rfl | rfl) <;>
        exact ⟨hmem.elim (fun hA => ⟨_, hA⟩) fun hH => ⟨_, hH⟩, eligible_uninvited hel⟩

theorem updateRatedArena_next (u : RatedUpdate) : (updateRatedArena srv q u).1.next = q.next := by
  unfold updateRatedArena
  split
  · rfl
  split
  · rfl
  split
  · rfl
  · dsimp only
    rw [(inviteGroupToBG_frame _ _ _).2, (inviteGroupToBG_frame _ _ _).2, moveTeams_next]
    rfl

inductive BracketOp
  | addGroup (srv : Server) (leaderTeam : Team) (players : List ObjectGuid)
      (bgTypeId arenaType : Nat) (isRated isPremade : Bool) (arenaRating matchmakerRating : BitVec 32)
  | updateRatedArena (srv : Server) (u : RatedUpdate)

def bracketStep (q : BattlegroundQueue) :
    BracketOp → BattlegroundQueue × Option (GroupPtr × GroupPtr × Battleground)
  | .addGroup srv leaderTeam players bgTypeId arenaType isRated isPremade arenaRating mmr =>
    ((addGroup srv q leaderTeam players bgTypeId arenaType isRated isPremade arenaRating mmr).2,
      none)
  | .updateRatedArena srv u => updateRatedArena srv q u

def Admits (q : BattlegroundQueue) : BracketOp → Prop
  | .addGroup _ _ players _ _ _ _ _ _ =>
    ∀ t, ∀ p ∈ q.queued t, ∀ guid ∈ players, guid ∉ (q.groups p).players
  | .updateRatedArena _ u => ∀ arena, u.arena = some arena → arena.instanceID ≠ 0

def BracketRun : BattlegroundQueue → List BracketOp → BattlegroundQueue → Prop :=
  Lib.Run (fun q op r => (q.bracketStep op).1 = r) Admits

theorem wellFormed_bracketStep (hq : q.WellFormed) {op : BracketOp} (hop : q.Admits op) :
    (q.bracketStep op).1.WellFormed := by
  cases op with
  | addGroup => exact wellFormed_addGroup hq _ _ _ _ _ _ _ _ hop
  | updateRatedArena => exact wellFormed_updateRatedArena hq hop

theorem invited_bracketStep {op : BracketOp} {p : GroupPtr} (hop : q.Admits op)
    (hp : p < q.next ∧ (q.groups p).isInvitedToBGInstanceGUID ≠ 0) :
    p < (q.bracketStep op).1.next ∧
      ((q.bracketStep op).1.groups p).isInvitedToBGInstanceGUID ≠ 0 := by
  cases op with
  | addGroup =>
    refine ⟨Nat.lt_succ_of_lt hp.1, ?_⟩
    dsimp only [bracketStep, addGroup]
    rw [enqueue_groups_old (Nat.ne_of_lt hp.1)]
    exact hp.2
  | updateRatedArena srv u =>
    refine ⟨?_, fun hz => hp.2 (updateRatedArena_uninvited hop hz).1⟩
    dsimp only [bracketStep]
    rw [updateRatedArena_next]
    exact hp.1

/-- In every run of joins and updates no group is sent to two rated arenas. -/
theorem matched_once {before between : List BracketOp} {op op' : BracketOp}
    {a h a' h' : GroupPtr} {arena arena' : Battleground} (hbefore : BracketRun empty before q)
    (hop : q.Admits op) (hfirst : (q.bracketStep op).2 = some (a, h, arena))
    (hbetween : BracketRun (q.bracketStep op).1 between r)
    (hsecond : (r.bracketStep op').2 = some (a', h', arena')) :
    ∀ p, p = a ∨ p = h → p ≠ a' ∧ p ≠ h' := by
  have hq := hbefore.invariant WellFormed wellFormed_empty fun _ _ _ hs hok h =>
    h ▸ wellFormed_bracketStep hs hok
  cases op with
  | addGroup => cases hfirst
  | updateRatedArena srv u =>
    cases op' with
    | addGroup => cases hsecond
    | updateRatedArena srv' u' =>
      intro p hp
      obtain ⟨⟨t, ht⟩, -⟩ := updateRatedArena_waiting hfirst p hp
      have hinvited : ((updateRatedArena srv q u).1.groups p).isInvitedToBGInstanceGUID ≠ 0 := by
        intro hz
        have hne := (updateRatedArena_uninvited hop hz).2 _ _ _ hfirst
        exact hp.elim hne.1 hne.2
      have hstart : p < (updateRatedArena srv q u).1.next := by
        rw [updateRatedArena_next]
        exact hq.allocated t p ht
      obtain ⟨-, hlater⟩ := hbetween.invariant (fun s => p < s.next ∧
        (s.groups p).isInvitedToBGInstanceGUID ≠ 0) ⟨hstart, hinvited⟩ fun _ _ _ hs hok h =>
          h ▸ invited_bracketStep hok hs
      have hwaits := updateRatedArena_waiting hsecond
      exact ⟨fun heq => hlater (hwaits p (.inl heq)).2, fun heq => hlater (hwaits p (.inr heq)).2⟩

def fourJoin : List BracketOp :=
  [.addGroup plainServer .alliance [1, 2] 6 2 true false 1500 1500,
    .addGroup plainServer .horde [3, 4] 6 2 true false 1550 1550,
    .addGroup plainServer .alliance [5, 6] 6 2 true false 1500 1500,
    .addGroup plainServer .horde [7, 8] 6 2 true false 1550 1550]

def fourTeams : BattlegroundQueue := fourJoin.foldl (fun q op => (q.bracketStep op).1) empty

def plainOp : BracketOp := .updateRatedArena plainServer plainUpdate

/-- The first two teams are sent to an arena, and then the others. -/
theorem matched_once_four : ∃ arena arena',
    (fourTeams.bracketStep plainOp).2 = some (0, 1, arena) ∧
    ((fourTeams.bracketStep plainOp).1.bracketStep plainOp).2 = some (2, 3, arena') ∧
    ∀ p, p = 0 ∨ p = 1 → p ≠ 2 ∧ p ≠ 3 := by
  have hjoin : ∀ {q : BattlegroundQueue} {players : List ObjectGuid},
      (∀ t ∈ [GroupType.premadeAlliance, .premadeHorde, .normalAlliance, .normalHorde],
        ∀ p ∈ q.queued t, ∀ guid ∈ players, guid ∉ (q.groups p).players) →
      ∀ t, ∀ p ∈ q.queued t, ∀ guid ∈ players, guid ∉ (q.groups p).players := by
    intro q players h t
    exact h t (by cases t <;> decide)
  have hbefore : BracketRun empty fourJoin fourTeams :=
    .cons (hjoin (by decide)) rfl (.cons (hjoin (by decide)) rfl (.cons (hjoin (by decide)) rfl
      (.cons (hjoin (by decide)) rfl (.nil _))))
  have hfirst : (fourTeams.bracketStep plainOp).2.map (fun m => (m.1, m.2.1)) = some (0, 1) := by
    decide
  have hsecond : ((fourTeams.bracketStep plainOp).1.bracketStep plainOp).2.map
      (fun m => (m.1, m.2.1)) = some (2, 3) := by
    decide
  obtain ⟨⟨_, _, arena⟩, hfirst, heq⟩ := Option.map_eq_some_iff.mp hfirst
  cases heq
  obtain ⟨⟨_, _, arena'⟩, hsecond, heq⟩ := Option.map_eq_some_iff.mp hsecond
  cases heq
  refine ⟨arena, arena', hfirst, hsecond, matched_once hbefore ?_ hfirst (.nil _) hsecond⟩
  intro arena h
  obtain rfl := Option.some.inj h
  decide

end BattlegroundQueue

end Ashamane.Battlegrounds
