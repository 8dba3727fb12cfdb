import Ashamane.Battlegrounds.WholeQueue

/-! The four lists of a bracket through an update: groups only change between lists, and
always to one of their own side. -/
namespace Ashamane.Battlegrounds
namespace BattlegroundQueue

structure Lists (q : BattlegroundQueue) : Prop where
  nodup : ∀ t, (q.queued t).Nodup
  unique : ∀ t u p, p ∈ q.queued t → p ∈ q.queued u → t = u
  team : ∀ t p, p ∈ q.queued t → t.team = (q.groups p).team

/-- What an update leaves of a bracket. Premade groups come to a normal list only if
`demotes`. -/
structure Keeps (demotes : Bool) (q q' : BattlegroundQueue) : Prop where
  lists : q'.Lists
  next : q'.next = q.next
  players : ∀ p, (q'.groups p).players = (q.groups p).players
  members : ∀ p, (∃ t, p ∈ q'.queued t) ↔ ∃ t, p ∈ q.queued t
  others : ∀ p, (∀ t, p ∉ q.queued t) → (q'.groups p).team = (q.groups p).team
  premade : ∀ t p, p ∈ q'.queued t → t.isPremade → ∃ u, p ∈ q.queued u ∧ u.isPremade
  normal : ∀ t p, p ∈ q'.queued t → ¬ t.isPremade →
    ∃ u, p ∈ q.queued u ∧ (u.isPremade → demotes)

variable {srv : Server} {q q₁ q₂ : BattlegroundQueue} {demotes : Bool}

theorem Keeps.refl (hq : q.Lists) : Keeps demotes q q where
  lists := hq
  next := rfl
  players _ := rfl
  members _ := Iff.rfl
  others _ _ := rfl
  premade t _ hp ht := ⟨t, hp, ht⟩
  normal t _ hp ht := ⟨t, hp, fun h => absurd h ht⟩

theorem Keeps.trans (h₁ : Keeps demotes q q₁) (h₂ : Keeps demotes q₁ q₂) : Keeps demotes q q₂ where
  lists := h₂.lists
  next := h₂.next.trans h₁.next
  players p := (h₂.players p).trans (h₁.players p)
  members p := (h₂.members p).trans (h₁.members p)
  others p hp := by
    have hp₁ : ∀ t, p ∉ q₁.queued t := fun t ht => by
      obtain ⟨u, hu⟩ := (h₁.members p).mp ⟨t, ht⟩
      exact hp u hu
    exact (h₂.others p hp₁).trans (h₁.others p hp)
  premade t p hp ht := by
    obtain ⟨u, hu, hpre⟩ := h₂.premade t p hp ht
    exact h₁.premade u p hu hpre
  normal t p hp ht := by
    obtain ⟨u, hu, hd⟩ := h₂.normal t p hp ht
    by_cases hpre : u.isPremade
    · obtain ⟨v, hv, -⟩ := h₁.premade u p hu hpre
      exact ⟨v, hv, fun _ => hd hpre⟩
    · exact h₁.normal u p hu hpre

theorem Keeps.same (hq : q.Lists) (hqueued : q₁.queued = q.queued) (hnext : q₁.next = q.next)
    (hplayers : ∀ p, (q₁.groups p).players = (q.groups p).players)
    (hteam : ∀ p, (q₁.groups p).team = (q.groups p).team) : Keeps demotes q q₁ where
  lists :=
    { nodup := fun t => hqueued ▸ hq.nodup t
      unique := hqueued ▸ hq.unique
      team := fun t p hp => (hq.team t p (hqueued ▸ hp)).trans (hteam p).symm }
  next := hnext
  players := hplayers
  members p := by rw [hqueued]
  others p _ := hteam p
  premade t p hp ht := ⟨t, hqueued ▸ hp, ht⟩
  normal t p hp ht := ⟨t, hqueued ▸ hp, fun h => absurd h ht⟩

/-- A group goes from the list `t` to the front of `u`, the list of the side it then has. -/
theorem Keeps.move {t u : GroupType} {g : GroupPtr} (hq : q.Lists) (htu : t ≠ u)
    (hg : g ∈ q.queued t) (hu : q₁.queued u = g :: q.queued u)
    (ht : q₁.queued t = (q.queued t).erase g)
    (hrest : ∀ v, v ≠ t → v ≠ u → q₁.queued v = q.queued v) (hnext : q₁.next = q.next)
    (hplayers : ∀ p, (q₁.groups p).players = (q.groups p).players)
    (hteam : (q₁.groups g).team = u.team)
    (hothers : ∀ p, p ≠ g → (q₁.groups p).team = (q.groups p).team)
    (hpremade : u.isPremade → t.isPremade) (hdemotes : ¬ u.isPremade → t.isPremade → demotes) :
    Keeps demotes q q₁ := by
  have hgu : g ∉ q.queued u := fun h => htu (hq.unique t u g hg h)
  -- an entry of a list is an old one of it, or the group that has moved
  have hmem : ∀ v p, p ∈ q₁.queued v ↔ (p ≠ g ∧ p ∈ q.queued v) ∨ (p = g ∧ v = u) := by
    intro v p
    by_cases hvt : v = t
    · subst hvt
      rw [ht, (hq.nodup v).mem_erase_iff]
      simp [htu]
    · have hgv : g ∉ q.queued v := fun h => hvt (hq.unique v t g h hg)
      by_cases hvu : v = u
      · subst hvu
        rw [hu, List.mem_cons]
        by_cases hpg : p = g <;> simp [hpg]
      · rw [hrest v hvt hvu]
        by_cases hpg : p = g
        · subst hpg
          simp [hgv, hvu]
        · simp [hpg]
  refine ⟨⟨fun v => ?_, ?_, ?_⟩, hnext, hplayers, ?_, ?_, ?_, ?_⟩
  · by_cases hvt : v = t
    · subst hvt
      exact ht ▸ (hq.nodup v).erase g
    · by_cases hvu : v = u
      · subst hvu
        exact hu ▸ List.nodup_cons.mpr ⟨hgu, hq.nodup v⟩
      · exact hrest v hvt hvu ▸ hq.nodup v
  · intro v w p hv hw
    rcases (hmem v p).mp hv with ⟨hne, hv⟩ | ⟨heq, hv⟩
    · rcases (hmem w p).mp hw with ⟨-, hw⟩ | ⟨heq, -⟩
      · exact hq.unique v w p hv hw
      · exact absurd heq hne
    · rcases (hmem w p).mp hw with ⟨hne, -⟩ | ⟨-, hw⟩
      · exact absurd heq hne
      · exact hv.trans hw.symm
  · intro v p hp
    rcases (hmem v p).mp hp with ⟨hne, hp⟩ | ⟨rfl, rfl⟩
    · exact (hq.team v p hp).trans (hothers p hne).symm
    · exact hteam.symm
  · intro p
    constructor
    · rintro ⟨v, hp⟩
      rcases (hmem v p).mp hp with ⟨-, hp⟩ | ⟨rfl, -⟩
      · exact ⟨v, hp⟩
      · exact ⟨t, hg⟩
    · rintro ⟨v, hp⟩
      by_cases hpg : p = g
      · exact ⟨u, (hmem u p).mpr (.inr ⟨hpg, rfl⟩)⟩
      · exact ⟨v, (hmem v p).mpr (.inl ⟨hpg, hp⟩)⟩
  · intro p hp
    exact hothers p fun h => hp t (h ▸ hg)
  · intro v p hp hv
    rcases (hmem v p).mp hp with ⟨-, hp⟩ | ⟨rfl, rfl⟩
    · exact ⟨v, hp, hv⟩
    · exact ⟨t, hg, hpremade hv⟩
  · intro v p hp hv
    rcases (hmem v p).mp hp with ⟨-, hp⟩ | ⟨rfl, rfl⟩
    · exact ⟨v, hp, fun h => absurd h hv⟩
    · exact ⟨t, hg, hdemotes hv⟩

theorem keeps_inviteGroupToBG (hq : q.Lists) (p : GroupPtr) (bg : Battleground) :
    Keeps demotes q (inviteGroupToBG srv q p bg (some (q.groups p).team)).2.1 := by
  obtain ⟨hqueued, hnext⟩ := @inviteGroupToBG_frame srv q p bg (q.groups p).team
  refine Keeps.same hq hqueued hnext (inviteGroupToBG_players p bg _) fun r => ?_
  rw [inviteGroupToBG_groups]
  by_cases hr : r = p
  · subst hr
    rw [setGroup_groups_self]
  · rw [setGroup_groups_ne hr]

theorem keeps_inviteGroups (hq : q.Lists) (l : List GroupPtr) (bg : Battleground) :
    Keeps demotes q (inviteGroups srv l (q, bg)).1 := by
  induction l generalizing q bg with
  | nil => exact Keeps.refl hq
  | cons p l ih =>
    have hstep := @keeps_inviteGroupToBG srv q demotes hq p bg
    exact hstep.trans (ih hstep.lists _)

theorem keeps_inviteBoth (hq : q.Lists) (ali horde : List GroupPtr) (bg : Battleground) :
    Keeps demotes q (inviteGroups srv horde (inviteGroups srv ali (q, bg))).1 := by
  have hali := @keeps_inviteGroups srv q demotes hq ali bg
  exact hali.trans (keeps_inviteGroups hali.lists horde _)

theorem keeps_fillRunning (cfg : Config) (u : UpdateCall) (hq : q.Lists) (e : FreeSlotEntry) :
    Keeps demotes q (fillRunning srv cfg u q e) := by
  unfold fillRunning
  split
  · exact keeps_inviteBoth hq _ _ _
  · exact Keeps.refl hq

theorem keeps_foldl {α : Type*} {f : BattlegroundQueue → α → BattlegroundQueue}
    (hf : ∀ q a, q.Lists → Keeps demotes q (f q a)) (hq : q.Lists) (l : List α) :
    Keeps demotes q (l.foldl f q) := by
  induction l generalizing q with
  | nil => exact Keeps.refl hq
  | cons a l ih => exact (hf q a hq).trans (ih (hf q a hq).lists)

theorem premade_ne_normal (t u : Team) : t.premade ≠ u.normal := by
  cases t <;> cases u <;> decide

theorem keeps_expirePremade (cfg : Config) (minPlayers : Nat) (hq : q.Lists) (team : Team) :
    Keeps true q (expirePremade srv cfg minPlayers q team) := by
  unfold expirePremade
  split
  · exact Keeps.refl hq
  next p rest hl =>
    split
    · have hne := premade_ne_normal team team
      have hp : p ∈ q.queued team.premade := hl ▸ List.mem_cons_self
      have hteam : (q.groups p).team = team.normal.team := by
        rw [← hq.team _ p hp]
        cases team <;> rfl
      refine Keeps.move hq hne hp ?_ ?_ ?_ rfl (fun _ => rfl) hteam (fun _ _ => rfl) ?_
        fun _ _ => rfl
      · rw [setQueued_queued_ne hne.symm, setQueued_queued_self]
      · rw [setQueued_queued_self, hl, List.erase_cons_head]
      · intro v hvt hvu
        rw [setQueued_queued_ne hvt, setQueued_queued_ne hvu]
      · cases team <;> simp [Team.normal, GroupType.isPremade]
    · exact Keeps.refl hq

theorem eraseBehind_eq {l pre post : List GroupPtr} {ginfo : GroupPtr} (g : GroupPtr)
    (hl : l = pre ++ ginfo :: post) (hnodup : l.Nodup) :
    eraseBehind l ginfo g = pre ++ ginfo :: post.erase g := by
  subst hl
  have hpre : ginfo ∉ pre := fun h =>
    (List.nodup_append.mp hnodup).2.2 _ h _ List.mem_cons_self rfl
  have hk : (pre ++ ginfo :: post).idxOf ginfo + 1 = (pre ++ [ginfo]).length := by
    rw [List.idxOf_append_of_notMem hpre, List.idxOf_cons_self]
    simp
  have happ : pre ++ ginfo :: post = (pre ++ [ginfo]) ++ post := by simp
  rw [eraseBehind, hk, happ, List.take_left, List.drop_left]
  simp

theorem eraseBehind_eq_erase {l pre post : List GroupPtr} {ginfo g : GroupPtr}
    (hl : l = pre ++ ginfo :: post) (hnodup : l.Nodup) (hg : g ∈ post) :
    eraseBehind l ginfo g = l.erase g := by
  rw [eraseBehind_eq g hl hnodup, hl]
  subst hl
  have hpre : g ∉ pre := fun h =>
    (List.nodup_append.mp hnodup).2.2 _ h _ (List.mem_cons_of_mem _ hg) rfl
  have hne : ginfo ≠ g := by
    rintro rfl
    exact (List.nodup_cons.mp (List.nodup_append.mp hnodup).2.1).1 hg
  rw [List.erase_append_right _ hpre, List.erase_cons_tail (by simpa using hne)]

theorem normal_ne_other (team : Team) : team.normal ≠ team.other.normal := by
  cases team <;> decide

/-- The groups of a skirmish that change their side stand behind `ginfo` until it is
their turn. -/
theorem keeps_changeSide (hq : q.Lists) (team : Team) (ginfo : GroupPtr)
    (gs pre post : List GroupPtr) (hl : q.queued team.normal = pre ++ ginfo :: post)
    (hgs : gs.Sublist post) : Keeps demotes q (gs.foldl (changeSide team ginfo) q) := by
  induction gs generalizing q post with
  | nil => exact Keeps.refl hq
  | cons g gs ih =>
    have hg : g ∈ post := hgs.subset List.mem_cons_self
    have hmem : g ∈ q.queued team.normal := by
      rw [hl]
      exact List.mem_append_right _ (List.mem_cons_of_mem _ hg)
    have hne := normal_ne_other team
    have hlist : (changeSide team ginfo q g).queued team.normal =
        eraseBehind (q.queued team.normal) ginfo g := by
      rw [changeSide, setQueued_queued_self, setQueued_queued_ne hne, setGroup_queued]
    have hgroups : (changeSide team ginfo q g).groups =
        (q.setGroup g fun x => { x with team := team.other }).groups := rfl
    have hstep : Keeps demotes q (changeSide team ginfo q g) := by
      refine Keeps.move hq hne hmem ?_ ?_ ?_ rfl ?_ ?_ ?_ ?_ ?_
      · rw [changeSide, setQueued_queued_ne hne.symm, setQueued_queued_self, setGroup_queued]
      · rw [hlist, eraseBehind_eq_erase hl (hq.nodup _) hg]
      · intro v hvt hvu
        rw [changeSide, setQueued_queued_ne hvt, setQueued_queued_ne hvu, setGroup_queued]
      · rw [hgroups]
        exact setGroup_field (·.players) g fun _ => rfl
      · rw [hgroups, setGroup_groups_self]
        cases team <;> rfl
      · intro p hp
        rw [hgroups, setGroup_groups_ne hp]
      · cases team <;> simp [Team.normal, Team.other, GroupType.isPremade]
      · cases team <;> simp [Team.normal, GroupType.isPremade]
    have hrest : gs.Sublist (post.erase g) := by
      have := hgs.erase g
      rwa [List.erase_cons_head] at this
    refine hstep.trans (ih hstep.lists (post.erase g) ?_ hrest)
    rw [hlist, eraseBehind_eq g hl (hq.nodup _)]

/-- What is selected beside the pool comes from the list, in its order. -/
theorem addNormalGroups_sublist (maxPlayers : Nat) (pool : q.Pool) (l : List GroupPtr) :
    ∃ s, (q.addNormalGroups maxPlayers pool l).selectedGroups = pool.selectedGroups ++ s ∧
      s.Sublist l := by
  induction l generalizing pool with
  | nil => exact ⟨[], by simp [addNormalGroups], List.Sublist.refl _⟩
  | cons p l ih =>
    rw [addNormalGroups]
    split
    · obtain ⟨s, hs, hsub⟩ := ih pool
      exact ⟨s, hs, hsub.cons p⟩
    · have hadd : (pool.addGroup q.invited p maxPlayers).2.selectedGroups = pool.selectedGroups ∨
          (pool.addGroup q.invited p maxPlayers).2.selectedGroups =
            pool.selectedGroups ++ [p] := by
        unfold SelectionPool.addGroup
        split
        · exact .inr rfl
        · exact .inl rfl
      split
      next pool' hpool =>
        rw [hpool] at hadd
        obtain ⟨s, hs, hsub⟩ := ih pool'
        rcases hadd with heq | heq
        · exact ⟨s, by rw [hs, heq], hsub.cons p⟩
        · exact ⟨p :: s, by rw [hs, heq]; simp, hsub.cons_cons p⟩
      next pool' hpool =>
        rw [hpool] at hadd
        rcases hadd with heq | heq
        · exact ⟨[], heq.trans (List.append_nil _).symm, List.nil_sublist _⟩
        · exact ⟨[p], heq, by simp⟩

theorem keeps_checkSkirmishForSameFaction (hq : q.Lists) {ali horde : q.Pool} {minPlayers : Nat}
    {l l' : List GroupPtr} {q' : BattlegroundQueue}
    (h : checkSkirmishForSameFaction q ali horde minPlayers = some (l, l', q')) :
    Keeps demotes q q' := by
  unfold checkSkirmishForSameFaction at h
  dsimp only at h
  split at h
  · cases h
  generalize (if horde.playerCount = minPlayers then Team.horde else Team.alliance) = team at h
  split at h
  · cases h
  next ginfo _ =>
    split at h
    · cases h
    next hin =>
      split at h
      · cases h
      generalize hpool : q.addNormalGroups minPlayers SelectionPool.init
        ((q.queued team.normal).drop ((q.queued team.normal).idxOf ginfo + 1)) = other at h
      have hq' : q' = other.selectedGroups.foldl (changeSide team ginfo) q := by
        cases team <;> cases h <;> rfl
      have hk : (q.queued team.normal).idxOf ginfo < (q.queued team.normal).length :=
        List.idxOf_lt_length_iff.mpr (not_not.mp hin)
      obtain ⟨s, hs, hsub⟩ := addNormalGroups_sublist (q := q) minPlayers SelectionPool.init
        ((q.queued team.normal).drop ((q.queued team.normal).idxOf ginfo + 1))
      rw [hpool] at hs
      rw [hq', hs]
      refine keeps_changeSide hq team ginfo s
        ((q.queued team.normal).take ((q.queued team.normal).idxOf ginfo)) _ ?_ hsub
      have hdrop := List.drop_eq_getElem_cons hk
      rw [List.getElem_idxOf hk] at hdrop
      rw [← hdrop, List.take_append_drop]

theorem inviteGroupToBG_team (p : GroupPtr) (bg : Battleground) (side : Team) (r : GroupPtr) :
    ((inviteGroupToBG srv q p bg (some side)).2.1.groups r).team =
      if r = p then side else (q.groups r).team := by
  rw [inviteGroupToBG_groups]
  by_cases hr : r = p
  · subst hr
    rw [setGroup_groups_self, if_pos rfl]
  · rw [setGroup_groups_ne hr, if_neg hr]

def LoneHorde (srv : Server) (q : BattlegroundQueue) (u : RatedUpdate) : Prop :=
  u.arena ≠ none ∧ q.offers srv u .premadeAlliance = false ∧ q.offers srv u .premadeHorde = true

theorem offers_eq {u : RatedUpdate} {w : RatingWindow} (hw : q.ratingWindow srv u = some w)
    (t : GroupType) : q.offers srv u t = (q.queued t).any (q.eligible w) := by
  simp [offers, hw]

theorem updateRatedArena_frame {u : RatedUpdate} {w : RatingWindow} {aTeam hTeam : GroupPtr}
    {arena : Battleground} (hw : q.ratingWindow srv u = some w)
    (hf : q.findTeams w = some (aTeam, hTeam)) (ha : u.arena = some arena) :
    let q' := (updateRatedArena srv q u).1
    q'.queued = ((q.setOpponents aTeam hTeam).moveTeams aTeam hTeam).queued ∧
      q'.next = q.next ∧ (∀ p, (q'.groups p).players = (q.groups p).players) ∧
      ∀ p, (q'.groups p).team =
        if p = hTeam then .horde else if p = aTeam then .alliance else (q.groups p).team := by
  dsimp only
  unfold updateRatedArena
  rw [hw]
  dsimp only
  rw [hf]
  dsimp only
  rw [ha]
  dsimp only
  refine ⟨?_, ?_, fun p => ?_, fun p => ?_⟩
  · rw [(inviteGroupToBG_frame _ _ _).1, (inviteGroupToBG_frame _ _ _).1]
  · rw [(inviteGroupToBG_frame _ _ _).2, (inviteGroupToBG_frame _ _ _).2]
    exact moveTeams_next aTeam hTeam
  · rw [inviteGroupToBG_players, inviteGroupToBG_players, moveTeams_groups]
    exact setOpponents_field (·.players) (fun _ _ => rfl) (fun _ _ => rfl) _ _ p
  · rw [inviteGroupToBG_team, inviteGroupToBG_team, moveTeams_groups, setOpponents_team]

theorem keeps_updateRatedArena (hq : q.Lists) (u : RatedUpdate) (hlone : ¬ LoneHorde srv q u) :
    Keeps demotes q (updateRatedArena srv q u).1 := by
  cases hw : q.ratingWindow srv u with
  | none =>
    simp only [updateRatedArena, hw]
    exact Keeps.refl hq
  | some w =>
    cases hf : q.findTeams w with
    | none =>
      simp only [updateRatedArena, hw, hf]
      exact Keeps.refl hq
    | some teams =>
      obtain ⟨aTeam, hTeam⟩ := teams
      cases ha : u.arena with
      | none =>
        simp only [updateRatedArena, hw, hf, ha]
        exact Keeps.refl hq
      | some arena =>
        obtain ⟨hqueued, hnext, hplayers, hteam⟩ := updateRatedArena_frame hw hf ha
        have hside : ∀ t p, p ∈ q.queued t →
            ((q.setOpponents aTeam hTeam).groups p).team = t.team := fun t p hp => by
          rw [setOpponents_team, hq.team t p hp]
        rcases findTeams_cases hf with ⟨hA, hH, -, -⟩ | ⟨rfl, hel, hmem⟩
        · -- one team from each list: they stay where they are
          rw [moveTeams_stay (hside _ _ hA) (hside _ _ hH), setOpponents_queued] at hqueued
          refine Keeps.same hq hqueued hnext hplayers fun p => ?_
          rw [hteam]
          split
          next h => exact h ▸ hq.team _ _ hH
          next =>
            split
            next h => exact h ▸ hq.team _ _ hA
            next => rfl
        · have hA : aTeam ∈ q.queued .premadeAlliance := by
            refine hmem.resolve_right fun hH => hlone ⟨by simp [ha], ?_, ?_⟩
            · rw [offers_eq hw]
              by_contra hany
              have hfst := findTeams_both (q := q) (w := w) (by simpa using hany)
                (List.any_eq_true.mpr ⟨aTeam, hH, hel⟩)
              obtain ⟨a, b, hab, ⟨haA, -⟩, ⟨hbH, -⟩⟩ := hfst
              rw [hab] at hf
              cases hf
              exact absurd (hq.unique _ _ _ haA hbH) (by decide)
            · rw [offers_eq hw]
              exact List.any_eq_true.mpr ⟨aTeam, hH, hel⟩
          -- alone in the list of the alliance: it is moved to the other one
          have hmove : (updateRatedArena srv q u).1.queued =
              Function.update (Function.update q.queued .premadeHorde
                (aTeam :: q.queued .premadeHorde)) .premadeAlliance
                ((q.queued .premadeAlliance).erase aTeam) := by
            rw [hqueued]
            unfold moveTeams setQueued
            simp [hside _ _ hA, GroupType.team]
          refine Keeps.move hq (show GroupType.premadeAlliance ≠ .premadeHorde by decide) hA
            ?_ ?_ ?_ hnext hplayers ?_ ?_ ?_ ?_
          · rw [hmove]
            rfl
          · rw [hmove, Function.update_self]
          · intro v hvt hvu
            rw [hmove, Function.update_of_ne hvt, Function.update_of_ne hvu]
          · rw [hteam, if_pos rfl]
            rfl
          · intro p hp
            rw [hteam, if_neg hp, if_neg hp]
          · exact fun _ => rfl
          · exact fun h => absurd rfl h

theorem inviteGroups_frame (l : List GroupPtr) (s : BattlegroundQueue × Battleground) :
    (inviteGroups srv l s).1.queued = s.1.queued ∧
      ∀ p, p ∉ l → (inviteGroups srv l s).1.groups p = s.1.groups p := by
  induction l generalizing s with
  | nil => exact ⟨rfl, fun _ _ => rfl⟩
  | cons r l ih =>
    obtain ⟨hqueued, hgroups⟩ :=
      ih (inviteGroupToBG srv s.1 r s.2 (some (s.1.groups r).team)).2
    refine ⟨hqueued.trans (inviteGroupToBG_frame _ _ _).1, fun p hp => ?_⟩
    rw [List.mem_cons, not_or] at hp
    refine (hgroups p hp.2).trans ?_
    rw [inviteGroupToBG_groups, setGroup_groups_ne hp.1]

/-- Only groups of the normal lists are selected for a running battleground. -/
theorem fillPlayersToBG_subset (cfg : Config) (aliFree hordeFree : Nat) :
    (∀ p ∈ (fillPlayersToBG cfg q aliFree hordeFree).1.selectedGroups,
      p ∈ q.queued .normalAlliance) ∧
    ∀ p ∈ (fillPlayersToBG cfg q aliFree hordeFree).2.selectedGroups,
      p ∈ q.queued .normalHorde := by
  have hinit : ∀ n l, (Side.mk n SelectionPool.init l : Side q.groupSize).Within l := fun n l =>
    ⟨fun _ hp => absurd hp List.not_mem_nil, fun _ hp => hp⟩
  unfold fillPlayersToBG
  dsimp only
  split
  · exact ⟨(Side.within_fill (hinit _ _) _ _).selected,
      (Side.within_fill (hinit _ _) _ _).selected⟩
  · have hbalance := fun n m k l => Side.within_balance q.invited
      (Side.within_fill (hinit n (q.queued .normalAlliance)) q.invited m)
      (Side.within_fill (hinit k (q.queued .normalHorde)) q.invited l)
    exact ⟨(hbalance _ _ _ _).1.selected, (hbalance _ _ _ _).2.selected⟩

def SamePremade (q q' : BattlegroundQueue) : Prop :=
  q'.queued = q.queued ∧ ∀ t, t.isPremade → ∀ p ∈ q.queued t, q'.groups p = q.groups p

theorem samePremade_fillRunning (cfg : Config) (u : UpdateCall) (hq : q.Lists)
    (e : FreeSlotEntry) : SamePremade q (fillRunning srv cfg u q e) := by
  unfold fillRunning
  split
  · obtain ⟨hali, hhorde⟩ := fillPlayersToBG_subset (q := q) cfg (e.freeSlots .alliance)
      (e.freeSlots .horde)
    generalize fillPlayersToBG cfg q (e.freeSlots .alliance) (e.freeSlots .horde) = pools at hali hhorde
    have hfirst := @inviteGroups_frame srv pools.1.selectedGroups (q, e.bg)
    have hsecond := @inviteGroups_frame srv pools.2.selectedGroups
      (inviteGroups srv pools.1.selectedGroups (q, e.bg))
    refine ⟨hsecond.1.trans hfirst.1, fun t ht p hp => ?_⟩
    have hne : ∀ u : Team, p ∉ q.queued u.normal := fun u hu => by
      have heq := hq.unique _ _ _ hp hu
      rw [heq] at ht
      cases u <;> cases ht
    exact (hsecond.2 p fun h => hne .horde (hhorde p h)).trans
      (hfirst.2 p fun h => hne .alliance (hali p h))
  · exact ⟨rfl, fun _ _ _ _ => rfl⟩

theorem samePremade_foldl (cfg : Config) (u : UpdateCall) (hq : q.Lists)
    (l : List FreeSlotEntry) : SamePremade q (l.foldl (fillRunning srv cfg u) q) := by
  induction l generalizing q with
  | nil => exact ⟨rfl, fun _ _ _ _ => rfl⟩
  | cons e l ih =>
    obtain ⟨hqueued, hgroups⟩ := @samePremade_fillRunning srv q cfg u hq e
    have hlists := (@keeps_fillRunning srv q false cfg u hq e).lists
    obtain ⟨hqueued', hgroups'⟩ := ih hlists
    refine ⟨hqueued'.trans hqueued, fun t ht p hp => ?_⟩
    exact (hgroups' t ht p (hqueued ▸ hp)).trans (hgroups t ht p hp)

theorem offers_congr {q' : BattlegroundQueue} (h : SamePremade q q') (u : RatedUpdate)
    {t : GroupType} (ht : t.isPremade) : q'.offers srv u t = q.offers srv u t := by
  obtain ⟨hqueued, hgroups⟩ := h
  have hrating : q'.ratingToMatch u.arenaRating = q.ratingToMatch u.arenaRating := by
    unfold ratingToMatch
    rw [hqueued]
    cases hA : q.queued .premadeAlliance with
    | nil =>
      cases hH : q.queued .premadeHorde with
      | nil => rfl
      | cons b _ => simp [hgroups .premadeHorde rfl b (hH ▸ List.mem_cons_self)]
    | cons a _ =>
      have ha := hgroups .premadeAlliance rfl a (hA ▸ List.mem_cons_self)
      cases hH : q.queued .premadeHorde with
      | nil => simp [ha]
      | cons b _ => simp [ha, hgroups .premadeHorde rfl b (hH ▸ List.mem_cons_self)]
  have hwindow : q'.ratingWindow srv u = q.ratingWindow srv u := by
    rw [ratingWindow, hrating, ratingWindow]
  rw [offers, offers, hwindow, hqueued]
  refine congrArg (fun f => Option.any f _) (funext fun w => ?_)
  rw [Bool.eq_iff_iff, List.any_eq_true, List.any_eq_true]
  refine exists_congr fun p => and_congr_right fun hp => ?_
  rw [eligible, eligible, hgroups t ht p hp]

theorem keeps_checkPremadeMatch (cfg : Config) (minPlayers maxPlayers : Nat) (hq : q.Lists) :
    Keeps true q (checkPremadeMatch srv cfg q minPlayers maxPlayers).2 := by
  unfold checkPremadeMatch
  split
  · exact Keeps.refl hq
  · exact keeps_foldl (fun _ team hq => keeps_expirePremade cfg minPlayers hq team) hq _

theorem keeps_startPremade (cfg : Config) (u : UpdateCall) (tmpl : Template)
    (minPlayers maxPlayers : Nat) (hq : q.Lists) :
    Keeps (! tmpl.isArena) q (startPremade srv cfg u tmpl minPlayers maxPlayers q).2 := by
  unfold startPremade
  split
  · exact Keeps.refl hq
  next harena =>
    have hdem : (! tmpl.isArena) = true := by simpa using harena
    have hcheck := @keeps_checkPremadeMatch srv q cfg minPlayers maxPlayers hq
    rw [hdem]
    generalize checkPremadeMatch srv cfg q minPlayers maxPlayers = r at hcheck
    obtain ⟨pools, q'⟩ := r
    cases pools with
    | none => exact hcheck
    | some pools =>
      cases u.newPremade with
      | none => exact hcheck
      | some bg => exact hcheck.trans (keeps_inviteBoth hcheck.lists _ _ bg)

theorem keeps_startNormal (cfg : Config) (u : UpdateCall) (tmpl : Template)
    (minPlayers maxPlayers : Nat) (hq : q.Lists) :
    Keeps demotes q (startNormal srv cfg u tmpl minPlayers maxPlayers q) := by
  unfold startNormal
  split
  · exact Keeps.refl hq
  next ali horde q' hmatch =>
    have hq' : Keeps demotes q q' := by
      unfold findMatch at hmatch
      dsimp only at hmatch
      split at hmatch
      · cases hmatch
        exact Keeps.refl hq
      · split at hmatch
        · exact keeps_checkSkirmishForSameFaction hq hmatch
        · cases hmatch
    split
    · exact hq'
    · exact hq'.trans (keeps_inviteBoth hq'.lists ali horde _)

def MatchesLoneHorde (srv : Server) (q : BattlegroundQueue) (u : UpdateCall) : Prop :=
  u.isRated ∧ (∃ tmpl, u.template = some tmpl ∧ tmpl.isArena) ∧ u.hasBracketEntry ∧
    LoneHorde srv q u.rated

theorem keeps_update (cfg : Config) (u : UpdateCall) (hq : q.Lists)
    (hlone : ¬ MatchesLoneHorde srv q u) :
    Keeps (u.template.any fun tmpl => ! tmpl.isArena) q (update srv cfg u q) := by
  unfold update
  split
  · exact Keeps.refl hq
  · dsimp only
    have hfill : ∀ demotes, Keeps demotes q (u.freeSlotQueue.foldl (fillRunning srv cfg u) q) :=
      fun _ => keeps_foldl (fun _ e hq => keeps_fillRunning cfg u hq e) hq u.freeSlotQueue
    have hsame := @samePremade_foldl srv q cfg u hq u.freeSlotQueue
    generalize u.freeSlotQueue.foldl (fillRunning srv cfg u) q = q₁ at hfill hsame
    split
    next htmpl => exact hfill _
    next tmpl htmpl =>
      split
      · exact hfill _
      next hentry =>
        have hany : (u.template.any fun tmpl => ! tmpl.isArena) = ! tmpl.isArena := by
          rw [htmpl]
          rfl
        rw [hany]
        generalize (if tmpl.isArena = true then u.arenaType else tmpl.maxPlayersPerTeam) = maxPlayers
        generalize (if tmpl.isArena = true then _ else _) = minPlayers
        have hpremade := @keeps_startPremade srv _ cfg u tmpl minPlayers maxPlayers
          (hfill false).lists
        have hsecond := (hfill (! tmpl.isArena)).trans hpremade
        split
        · exact hsecond
        · split
          · exact hsecond.trans (keeps_startNormal cfg u tmpl _ _ hsecond.lists)
          next hrated =>
            split
            next harena =>
              refine hsecond.trans (keeps_updateRatedArena hsecond.lists u.rated ?_)
              -- the premade lists are still those that the update began with
              rw [startPremade, if_pos harena]
              rintro ⟨hsome, hA, hH⟩
              rw [offers_congr hsame u.rated rfl] at hA hH
              exact hlone ⟨by simpa using hrated, ⟨tmpl, htmpl, harena⟩,
                by simpa using hentry, hsome, hA, hH⟩
            · exact hsecond

end BattlegroundQueue

end Ashamane.Battlegrounds
