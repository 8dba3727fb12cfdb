import Ashamane.Battlegrounds.Lists
import Ashamane.Lib.Run
import Mathlib.Data.List.Nodup

/-! The lists and the players' map of the whole queue through every run of its calls. -/
namespace Ashamane.Battlegrounds
namespace WholeQueue

/-- The lists and the players' map agree: the group of a queued player stands once in exactly
one list, which is one of its side, the players of a group are mapped to it, and no group is
without players. -/
structure Consistent (q : WholeQueue) : Prop where
  listed : ∀ guid p, q.queuedPlayers.lookup guid = some p → ∃ b t, p ∈ q.queuedGroups b t
  once : ∀ b t, (q.queuedGroups b t).Nodup
  unique : ∀ b t b' t' p, p ∈ q.queuedGroups b t → p ∈ q.queuedGroups b' t' → b = b' ∧ t = t'
  side : ∀ b t p, p ∈ q.queuedGroups b t → t.team = (q.groups p).team
  mapped : ∀ b t p, p ∈ q.queuedGroups b t → ∀ guid ∈ (q.groups p).players,
    q.queuedPlayers.lookup guid = some p
  nonempty : ∀ b t p, p ∈ q.queuedGroups b t → (q.groups p).players ≠ []

structure Sound (q : WholeQueue) : Prop extends Consistent q where
  held : ∀ guid p, q.queuedPlayers.lookup guid = some p → guid ∈ (q.groups p).players
  allocated : ∀ b t p, p ∈ q.queuedGroups b t → p < q.next
  distinct : ∀ b t p, p ∈ q.queuedGroups b t → (q.groups p).players.Nodup

variable {srv : Server} {q q' : WholeQueue}

theorem Consistent.lists (hq : q.Consistent) (b : BracketId) : (q.bracket b).Lists where
  nodup t := hq.once b t
  unique t u p ht hu := (hq.unique b t b u p ht hu).2
  team t p hp := hq.side b t p hp

theorem setBracket_queuedGroups_self (b : BracketId) (v : BattlegroundQueue) :
    (q.setBracket b v).queuedGroups b = v.queued := Function.update_self b _ _

theorem setBracket_queuedGroups_ne {b b' : BracketId} (h : b' ≠ b) (v : BattlegroundQueue) :
    (q.setBracket b v).queuedGroups b' = q.queuedGroups b' := Function.update_of_ne h _ _

theorem mem_setBracket {b : BracketId} {v : BattlegroundQueue} {demotes : Bool}
    (hk : (q.bracket b).Keeps demotes v) {b' : BracketId} {t : GroupType} {p : GroupPtr}
    (hp : p ∈ (q.setBracket b v).queuedGroups b' t) : ∃ u, p ∈ q.queuedGroups b' u := by
  by_cases hb : b' = b
  · subst hb
    rw [setBracket_queuedGroups_self] at hp
    exact (hk.members p).mp ⟨t, hp⟩
  · rw [setBracket_queuedGroups_ne hb] at hp
    exact ⟨t, hp⟩

/-- A step on one bracket that keeps its lists keeps the whole queue. -/
theorem Sound.setBracket (hq : q.Sound) {b : BracketId} {v : BattlegroundQueue} {demotes : Bool}
    (hk : (q.bracket b).Keeps demotes v) : (q.setBracket b v).Sound := by
  have hplayers : ∀ p, ((q.setBracket b v).groups p).players = (q.groups p).players := hk.players
  refine ⟨⟨?_, ?_, ?_, ?_, ?_, ?_⟩, ?_, ?_, ?_⟩
  · intro guid p hp
    obtain ⟨b', t, ht⟩ := hq.listed guid p hp
    by_cases hb : b' = b
    · subst hb
      obtain ⟨u, hu⟩ := (hk.members p).mpr ⟨t, ht⟩
      exact ⟨b', u, by rwa [setBracket_queuedGroups_self]⟩
    · exact ⟨b', t, by rwa [setBracket_queuedGroups_ne hb]⟩
  · intro b' t
    by_cases hb : b' = b
    · subst hb
      rw [setBracket_queuedGroups_self]
      exact hk.lists.nodup t
    · rw [setBracket_queuedGroups_ne hb]
      exact hq.once b' t
  · intro b₁ t₁ b₂ t₂ p h₁ h₂
    obtain ⟨u₁, hu₁⟩ := mem_setBracket hk h₁
    obtain ⟨u₂, hu₂⟩ := mem_setBracket hk h₂
    obtain ⟨rfl, -⟩ := hq.unique _ _ _ _ p hu₁ hu₂
    refine ⟨rfl, ?_⟩
    by_cases hb : b₁ = b
    · subst hb
      rw [setBracket_queuedGroups_self] at h₁ h₂
      exact hk.lists.unique _ _ p h₁ h₂
    · rw [setBracket_queuedGroups_ne hb] at h₁ h₂
      exact (hq.unique _ _ _ _ p h₁ h₂).2
  · intro b' t p hp
    by_cases hb : b' = b
    · subst hb
      rw [setBracket_queuedGroups_self] at hp
      exact hk.lists.team t p hp
    · rw [setBracket_queuedGroups_ne hb] at hp
      have hout : ∀ u, p ∉ (q.bracket b).queued u := fun u hu =>
        hb (hq.unique b' t b u p hp hu).1
      exact (hq.side b' t p hp).trans (hk.others p hout).symm
  · intro b' t p hp guid hguid
    obtain ⟨u, hu⟩ := mem_setBracket hk hp
    exact hq.mapped b' u p hu guid (hplayers p ▸ hguid)
  · intro b' t p hp
    obtain ⟨u, hu⟩ := mem_setBracket hk hp
    rw [hplayers]
    exact hq.nonempty b' u p hu
  · intro guid p hp
    rw [hplayers]
    exact hq.held guid p hp
  · intro b' t p hp
    obtain ⟨u, hu⟩ := mem_setBracket hk hp
    have hnext : (q.setBracket b v).next = q.next := hk.next
    rw [hnext]
    exact hq.allocated b' u p hu
  · intro b' t p hp
    obtain ⟨u, hu⟩ := mem_setBracket hk hp
    rw [hplayers]
    exact hq.distinct b' u p hu

theorem inviteGroupToBG_none (v : BattlegroundQueue) (p : GroupPtr) (bg : Battleground) :
    BattlegroundQueue.inviteGroupToBG srv v p bg none =
      BattlegroundQueue.inviteGroupToBG srv v p bg (some (v.groups p).team) := by
  have hsame : v.setGroup p (fun g => { g with team := (v.groups p).team }) = v := by
    unfold BattlegroundQueue.setGroup
    rw [Function.update_eq_self]
  unfold BattlegroundQueue.inviteGroupToBG
  simp only [hsame]

theorem mem_playersMap (members : List ObjectGuid) :
    (playersMap members).Nodup ∧ ∀ guid, guid ∈ playersMap members ↔ guid ∈ members := by
  have hfold : ∀ l : List ObjectGuid, l.Nodup →
      (members.foldl (fun l guid => if guid ∈ l then l else l.orderedInsert (· ≤ ·) guid) l).Nodup ∧
        ∀ guid, guid ∈ members.foldl
          (fun l guid => if guid ∈ l then l else l.orderedInsert (· ≤ ·) guid) l ↔
            guid ∈ l ∨ guid ∈ members := by
    induction members with
    | nil => exact fun l hl => ⟨hl, by simp⟩
    | cons m members ih =>
      intro l hl
      rw [List.foldl_cons]
      by_cases hm : m ∈ l
      · rw [if_pos hm]
        obtain ⟨hn, hmem⟩ := ih l hl
        refine ⟨hn, fun guid => (hmem guid).trans ?_⟩
        rw [List.mem_cons]
        constructor
        · rintro (h | h)
          · exact .inl h
          · exact .inr (.inr h)
        · rintro (h | rfl | h)
          · exact .inl h
          · exact .inl hm
          · exact .inr h
      · rw [if_neg hm]
        have hins : (l.orderedInsert (· ≤ ·) m).Nodup :=
          (List.perm_orderedInsert _ m l).nodup_iff.mpr (List.nodup_cons.mpr ⟨hm, hl⟩)
        obtain ⟨hn, hmem⟩ := ih _ hins
        refine ⟨hn, fun guid => (hmem guid).trans ?_⟩
        rw [List.mem_orderedInsert, List.mem_cons]
        tauto
  simpa [playersMap] using hfold [] List.nodup_nil

theorem lookup_foldl_insert (members : List ObjectGuid) (p : GroupPtr)
    (m : AList fun _ : ObjectGuid => GroupPtr) (guid : ObjectGuid) :
    (members.foldl (fun m guid => m.insert guid p) m).lookup guid =
      if guid ∈ members then some p else m.lookup guid := by
  induction members generalizing m with
  | nil => simp
  | cons g members ih =>
    rw [List.foldl_cons, ih]
    by_cases hg : guid = g
    · subst hg
      simp
    · simp [AList.lookup_insert_ne hg, hg]

structure Joinable (q : WholeQueue) (members : List ObjectGuid) : Prop where
  nonempty : members ≠ []
  fresh : ∀ guid ∈ members, q.queuedPlayers.lookup guid = none

section addGroup

variable (b : BracketId) (leaderTeam : Team) (members : List ObjectGuid) (bgTypeId arenaType : Nat)
  (isRated isPremade : Bool) (rating mmr : BitVec 32)

theorem mem_addGroup {b' : BracketId} {t : GroupType} {p : GroupPtr} :
    p ∈ (q.addGroup srv b leaderTeam members bgTypeId arenaType isRated isPremade rating
        mmr).queuedGroups b' t ↔
      p ∈ q.queuedGroups b' t ∨
        (b' = b ∧ t = BattlegroundQueue.groupIndex isRated isPremade leaderTeam ∧ p = q.next) := by
  have hgroups : (q.addGroup srv b leaderTeam members bgTypeId arenaType isRated isPremade rating
      mmr).queuedGroups = (q.setBracket b (BattlegroundQueue.addGroup srv (q.bracket b) leaderTeam
        (playersMap members) bgTypeId arenaType isRated isPremade rating mmr).2).queuedGroups := rfl
  rw [hgroups]
  by_cases hb : b' = b
  · subst hb
    rw [setBracket_queuedGroups_self]
    refine BattlegroundQueue.mem_enqueue_queued.trans ?_
    simp [bracket]
  · rw [setBracket_queuedGroups_ne hb]
    simp [hb]

theorem addGroup_groups_new : (q.addGroup srv b leaderTeam members bgTypeId arenaType isRated
    isPremade rating mmr).groups q.next =
      { players := playersMap members, team := leaderTeam, bgTypeId := bgTypeId
        isRated := isRated, arenaType := arenaType, joinTime := srv.msTime, removeInviteTime := 0
        isInvitedToBGInstanceGUID := 0, arenaGroupRating := rating, arenaMatchmakerRating := mmr
        opponentsTeamRating := 0, opponentsMatchmakerRating := 0 } :=
  Function.update_self q.next _ q.groups

theorem addGroup_groups_old {p : GroupPtr} (hp : p ≠ q.next) :
    (q.addGroup srv b leaderTeam members bgTypeId arenaType isRated isPremade rating mmr).groups p =
      q.groups p :=
  Function.update_of_ne hp _ q.groups

theorem addGroup_lookup (guid : ObjectGuid) : (q.addGroup srv b leaderTeam members bgTypeId
    arenaType isRated isPremade rating mmr).queuedPlayers.lookup guid =
      if guid ∈ members then some q.next else q.queuedPlayers.lookup guid :=
  lookup_foldl_insert members q.next q.queuedPlayers guid

theorem groupIndex_team : (BattlegroundQueue.groupIndex isRated isPremade leaderTeam).team =
    leaderTeam := by
  cases isRated <;> cases isPremade <;> cases leaderTeam <;> rfl

theorem groupIndex_isPremade : (BattlegroundQueue.groupIndex isRated isPremade
    leaderTeam).isPremade = (isRated || isPremade) := by
  cases isRated <;> cases isPremade <;> cases leaderTeam <;> rfl

theorem Sound.addGroup (hq : q.Sound) (hm : q.Joinable members) :
    (q.addGroup srv b leaderTeam members bgTypeId arenaType isRated isPremade rating mmr).Sound := by
  obtain ⟨hnodup, hplayers⟩ := mem_playersMap members
  have hold : ∀ {b' t p}, p ∈ q.queuedGroups b' t → p ≠ q.next := fun hp =>
    Nat.ne_of_lt (hq.allocated _ _ _ hp)
  have hnew : ∀ guid p, q.queuedPlayers.lookup guid = some p → guid ∉ members := fun guid p hp hg =>
    Option.some_ne_none p (hp.symm.trans (hm.fresh guid hg))
  refine ⟨⟨?_, ?_, ?_, ?_, ?_, ?_⟩, ?_, ?_, ?_⟩
  · intro guid p hp
    rw [addGroup_lookup] at hp
    split at hp
    · exact ⟨b, _, (mem_addGroup ..).mpr (.inr ⟨rfl, rfl, (Option.some.inj hp).symm⟩)⟩
    · obtain ⟨b', t, ht⟩ := hq.listed guid p hp
      exact ⟨b', t, (mem_addGroup ..).mpr (.inl ht)⟩
  · intro b' t
    by_cases hb : b' = b
    · subst hb
      change ((q.setBracket b' _).queuedGroups b' t).Nodup
      rw [setBracket_queuedGroups_self]
      by_cases ht : t = BattlegroundQueue.groupIndex isRated isPremade leaderTeam
      · subst ht
        rw [BattlegroundQueue.enqueue_queued_self]
        rw [← List.concat_eq_append]
        exact (hq.once b' _).concat fun hmem => hold hmem rfl
      · rw [BattlegroundQueue.enqueue_queued_ne ht]
        exact hq.once b' t
    · change ((q.setBracket b _).queuedGroups b' t).Nodup
      rw [setBracket_queuedGroups_ne hb]
      exact hq.once b' t
  · intro b₁ t₁ b₂ t₂ p h₁ h₂
    rcases (mem_addGroup ..).mp h₁ with h₁ | ⟨rfl, rfl, hp₁⟩
    · rcases (mem_addGroup ..).mp h₂ with h₂ | ⟨-, -, hp₂⟩
      · exact hq.unique _ _ _ _ p h₁ h₂
      · exact absurd hp₂ (hold h₁)
    · rcases (mem_addGroup ..).mp h₂ with h₂ | ⟨rfl, rfl, -⟩
      · exact absurd hp₁ (hold h₂)
      · exact ⟨rfl, rfl⟩
  · intro b' t p hp
    rcases (mem_addGroup ..).mp hp with hp | ⟨-, rfl, rfl⟩
    · rw [addGroup_groups_old _ _ _ _ _ _ _ _ _ (hold hp)]
      exact hq.side b' t p hp
    · rw [addGroup_groups_new, groupIndex_team]
  · intro b' t p hp guid hguid
    rw [addGroup_lookup]
    rcases (mem_addGroup ..).mp hp with hp | ⟨-, -, rfl⟩
    · rw [addGroup_groups_old _ _ _ _ _ _ _ _ _ (hold hp)] at hguid
      have hlook := hq.mapped b' t p hp guid hguid
      rw [if_neg (hnew guid p hlook), hlook]
    · rw [addGroup_groups_new] at hguid
      rw [if_pos ((hplayers guid).mp hguid)]
  · intro b' t p hp
    rcases (mem_addGroup ..).mp hp with hp | ⟨-, -, rfl⟩
    · rw [addGroup_groups_old _ _ _ _ _ _ _ _ _ (hold hp)]
      exact hq.nonempty b' t p hp
    · rw [addGroup_groups_new]
      obtain ⟨guid, hguid⟩ := List.exists_mem_of_ne_nil members hm.nonempty
      exact List.ne_nil_of_mem ((hplayers guid).mpr hguid)
  · intro guid p hp
    rw [addGroup_lookup] at hp
    split at hp
    next hguid =>
      obtain rfl := Option.some.inj hp
      rw [addGroup_groups_new]
      exact (hplayers guid).mpr hguid
    next =>
      obtain ⟨b', t, ht⟩ := hq.listed guid p hp
      rw [addGroup_groups_old _ _ _ _ _ _ _ _ _ (hold ht)]
      exact hq.held guid p hp
  · intro b' t p hp
    rcases (mem_addGroup ..).mp hp with hp | ⟨-, -, rfl⟩
    · exact Nat.lt_succ_of_lt (hq.allocated b' t p hp)
    · exact Nat.lt_succ_self _
  · intro b' t p hp
    rcases (mem_addGroup ..).mp hp with hp | ⟨-, -, rfl⟩
    · rw [addGroup_groups_old _ _ _ _ _ _ _ _ _ (hold hp)]
      exact hq.distinct b' t p hp
    · rw [addGroup_groups_new]
      exact hnodup

end addGroup

theorem findSome?_unique {α β : Type*} {f : α → Option β} {l : List α} {a : α} {x : β} (ha : a ∈ l)
    (hx : f a = some x) (hother : ∀ c ∈ l, c ≠ a → f c = none) : l.findSome? f = some x := by
  induction l with
  | nil => cases ha
  | cons c l ih =>
    by_cases hc : c = a
    · subst hc
      rw [List.findSome?_cons, hx]
    · rw [List.findSome?_cons, hother c List.mem_cons_self hc]
      exact ih ((List.mem_cons.mp ha).resolve_left (Ne.symm hc)) fun d hd =>
        hother d (List.mem_cons_of_mem _ hd)

theorem findGroup_eq (hq : q.Consistent) {b : BracketId} {t : GroupType} {p : GroupPtr}
    (hp : p ∈ q.queuedGroups b t) : q.findGroup p = some (b, t) := by
  have hside := hq.side b t p hp
  unfold findGroup
  dsimp only
  refine findSome?_unique (a := b) (by simp) ?_ fun c _ hc => ?_
  · have honly : ∀ u, p ∈ q.queuedGroups b u ↔ u = t := fun u =>
      ⟨fun hu => (hq.unique b u b t p hu hp).2, fun h => h ▸ hp⟩
    rw [← hside]
    simp only [honly]
    cases t <;> rfl
  · have hnone : ∀ u, p ∉ q.queuedGroups c u := fun u hu => hc (hq.unique c u b t p hu hp).1
    simp [hnone]

structure Removed (q q' : WholeQueue) (guid : ObjectGuid) : Prop where
  gone : q'.queuedPlayers.lookup guid = none
  none : ∀ g, q.queuedPlayers.lookup g = none → q'.queuedPlayers.lookup g = none
  deleted : ∀ b t r, r ∈ q.queuedGroups b t → (r ∈ q'.queuedGroups b t ↔ (q'.groups r).players ≠ [])
  listed : ∀ b t r, r ∈ q'.queuedGroups b t → r ∈ q.queuedGroups b t
  next : q'.next = q.next

theorem dropPlayer_lookup (guid g : ObjectGuid) (p : GroupPtr) :
    (q.dropPlayer guid p).queuedPlayers.lookup g =
      if g = guid then none else q.queuedPlayers.lookup g := by
  unfold dropPlayer
  by_cases hg : g = guid
  · subst hg
    simp
  · simp [hg, AList.lookup_erase_ne hg]

theorem dropPlayer_players (guid : ObjectGuid) (p r : GroupPtr) :
    ((q.dropPlayer guid p).groups r).players =
      if r = p then (q.groups p).players.erase guid else (q.groups r).players := by
  by_cases hr : r = p
  · subst hr
    rw [if_pos rfl]
    exact congrArg GroupQueueInfo.players (Function.update_self r _ q.groups)
  · rw [if_neg hr]
    exact congrArg GroupQueueInfo.players (Function.update_of_ne hr _ q.groups)

theorem dropPlayer_team (guid : ObjectGuid) (p r : GroupPtr) :
    ((q.dropPlayer guid p).groups r).team = (q.groups r).team := by
  by_cases hr : r = p
  · subst hr
    have hself : (q.dropPlayer guid r).groups r =
        { q.groups r with players := (q.groups r).players.erase guid } :=
      Function.update_self r _ q.groups
    rw [hself]
  · exact congrArg GroupQueueInfo.team (Function.update_of_ne hr _ q.groups)

theorem mapped_dropPlayer (hq : q.Sound) {guid : ObjectGuid} {p : GroupPtr}
    (hp : q.queuedPlayers.lookup guid = some p) {b : BracketId} {t : GroupType} {r : GroupPtr}
    (hr : r ∈ q.queuedGroups b t) {g : ObjectGuid}
    (hg : g ∈ ((q.dropPlayer guid p).groups r).players) :
    (q.dropPlayer guid p).queuedPlayers.lookup g = some r := by
  rw [dropPlayer_players] at hg
  rw [dropPlayer_lookup]
  split at hg
  next heq =>
    subst heq
    rw [(hq.distinct b t r hr).mem_erase_iff] at hg
    rw [if_neg hg.1]
    exact hq.mapped b t r hr g hg.2
  next hne =>
    have hlook := hq.mapped b t r hr g hg
    rw [if_neg, hlook]
    rintro rfl
    exact hne (Option.some.inj (hlook.symm.trans hp))

theorem held_dropPlayer (hq : q.Sound) {guid : ObjectGuid} {p : GroupPtr} {g : ObjectGuid}
    {r : GroupPtr} (hr : (q.dropPlayer guid p).queuedPlayers.lookup g = some r) :
    q.queuedPlayers.lookup g = some r ∧ g ∈ ((q.dropPlayer guid p).groups r).players := by
  rw [dropPlayer_lookup] at hr
  split at hr
  · cases hr
  next hne =>
    refine ⟨hr, ?_⟩
    have hmem := hq.held g r hr
    rw [dropPlayer_players]
    split
    next heq => exact (List.mem_erase_of_ne hne).mpr (heq ▸ hmem)
    next => exact hmem

theorem Sound.dropPlayer (hq : q.Sound) {guid : ObjectGuid} {p : GroupPtr}
    (hp : q.queuedPlayers.lookup guid = some p)
    (hleft : ((q.dropPlayer guid p).groups p).players ≠ []) : (q.dropPlayer guid p).Sound where
  listed g r hr := hq.listed g r (held_dropPlayer hq hr).1
  once := hq.once
  unique := hq.unique
  side b t r hr := by
    rw [dropPlayer_team]
    exact hq.side b t r hr
  mapped b t r hr g hg := mapped_dropPlayer hq hp hr hg
  nonempty b t r hr := by
    by_cases h : r = p
    · exact h ▸ hleft
    · rw [dropPlayer_players, if_neg h]
      exact hq.nonempty b t r hr
  held g r hr := (held_dropPlayer hq hr).2
  allocated := hq.allocated
  distinct b t r hr := by
    rw [dropPlayer_players]
    split
    next h => exact (h ▸ hq.distinct b t r hr).erase guid
    next => exact hq.distinct b t r hr

theorem mem_setList_erase (hq : q.Consistent) {b : BracketId} {t : GroupType} {p : GroupPtr}
    (hp : p ∈ q.queuedGroups b t) (b' : BracketId) (u : GroupType) (r : GroupPtr) :
    r ∈ (q.setList b t ((q.queuedGroups b t).erase p)).queuedGroups b' u ↔
      r ≠ p ∧ r ∈ q.queuedGroups b' u := by
  unfold setList
  dsimp only
  by_cases hb : b' = b
  · subst hb
    rw [Function.update_self]
    by_cases hu : u = t
    · subst hu
      rw [Function.update_self, (hq.once b' u).mem_erase_iff]
    · rw [Function.update_of_ne hu]
      refine ⟨fun hr => ⟨?_, hr⟩, fun h => h.2⟩
      rintro rfl
      exact hu (hq.unique b' u b' t r hr hp).2
  · rw [Function.update_of_ne hb]
    refine ⟨fun hr => ⟨?_, hr⟩, fun h => h.2⟩
    rintro rfl
    exact hb (hq.unique b' u b t r hr hp).1

theorem Sound.deleteGroup (hq : q.Sound) {guid : ObjectGuid} {p : GroupPtr} {b : BracketId}
    {t : GroupType} (hp : q.queuedPlayers.lookup guid = some p) (ht : p ∈ q.queuedGroups b t)
    (hempty : ((q.dropPlayer guid p).groups p).players = []) :
    ((q.dropPlayer guid p).setList b t ((q.queuedGroups b t).erase p)).Sound := by
  have hmem : ∀ b' u r, r ∈ ((q.dropPlayer guid p).setList b t
      ((q.queuedGroups b t).erase p)).queuedGroups b' u ↔ r ≠ p ∧ r ∈ q.queuedGroups b' u :=
    mem_setList_erase hq.toConsistent ht
  refine ⟨⟨?_, ?_, ?_, ?_, ?_, ?_⟩, ?_, ?_, ?_⟩
  · intro g r hr
    obtain ⟨hold, hin⟩ := held_dropPlayer hq hr
    obtain ⟨b', u, hu⟩ := hq.listed g r hold
    refine ⟨b', u, (hmem b' u r).mpr ⟨?_, hu⟩⟩
    rintro rfl
    rw [hempty] at hin
    cases hin
  · intro b' u
    unfold setList
    dsimp only
    by_cases hb : b' = b
    · subst hb
      rw [Function.update_self]
      by_cases hu : u = t
      · subst hu
        rw [Function.update_self]
        exact (hq.once b' u).erase p
      · rw [Function.update_of_ne hu]
        exact hq.once b' u
    · rw [Function.update_of_ne hb]
      exact hq.once b' u
  · intro b₁ t₁ b₂ t₂ r h₁ h₂
    exact hq.unique _ _ _ _ r ((hmem _ _ _).mp h₁).2 ((hmem _ _ _).mp h₂).2
  · intro b' u r hr
    exact (hq.side b' u r ((hmem _ _ _).mp hr).2).trans (dropPlayer_team guid p r).symm
  · intro b' u r hr g hg
    exact mapped_dropPlayer hq hp ((hmem _ _ _).mp hr).2 hg
  · intro b' u r hr
    obtain ⟨hne, hr⟩ := (hmem _ _ _).mp hr
    have hsame : ((q.dropPlayer guid p).groups r).players = (q.groups r).players := by
      rw [dropPlayer_players, if_neg hne]
    exact hsame ▸ hq.nonempty b' u r hr
  · intro g r hr
    exact (held_dropPlayer hq hr).2
  · intro b' u r hr
    exact hq.allocated b' u r ((hmem _ _ _).mp hr).2
  · intro b' u r hr
    obtain ⟨hne, hr⟩ := (hmem _ _ _).mp hr
    have hsame : ((q.dropPlayer guid p).groups r).players = (q.groups r).players := by
      rw [dropPlayer_players, if_neg hne]
    exact hsame ▸ hq.distinct b' u r hr

theorem length_erase_entries {m : AList fun _ : ObjectGuid => GroupPtr} {guid : ObjectGuid}
    {p : GroupPtr} (h : m.lookup guid = some p) :
    (m.erase guid).entries.length + 1 = m.entries.length := by
  have hmem : guid ∈ m.keys := AList.mem_keys.mpr (AList.lookup_isSome.mp (by rw [h]; rfl))
  have hpos : 0 < m.keys.length := List.length_pos_of_mem hmem
  have hlen := congrArg List.length (AList.keys_erase guid m)
  rw [List.length_erase_of_mem hmem] at hlen
  have hkeys : ∀ s : AList fun _ : ObjectGuid => GroupPtr, s.keys.length = s.entries.length :=
    fun s => by simp [AList.keys, List.keys]
  rw [hkeys, hkeys] at hlen
  rw [hkeys] at hpos
  omega

theorem removeLoop_spec (decrease : Bool) (n : Nat) (hq : q.Sound) {guid : ObjectGuid} {p : GroupPtr}
    (hp : q.queuedPlayers.lookup guid = some p) (hn : q.queuedPlayers.entries.length ≤ n) :
    (removeLoop decrease n q guid).1.Sound ∧ Removed q (removeLoop decrease n q guid).1 guid := by
  have hlen := length_erase_entries hp
  induction n generalizing q guid p with
  | zero => omega
  | succ n ih =>
    obtain ⟨b, t, ht⟩ := hq.listed guid p hp
    have hgone : (q.dropPlayer guid p).queuedPlayers.lookup guid = none := by
      rw [dropPlayer_lookup, if_pos rfl]
    have hnone : ∀ g, q.queuedPlayers.lookup g = none →
        (q.dropPlayer guid p).queuedPlayers.lookup g = none := fun g hg => by
      rw [dropPlayer_lookup, hg, ite_self]
    have hplayers : ∀ b' u r, r ∈ q.queuedGroups b' u → r ≠ p →
        ((q.dropPlayer guid p).groups r).players ≠ [] := fun b' u r hr hne => by
      rw [dropPlayer_players, if_neg hne]
      exact hq.nonempty b' u r hr
    simp only [removeLoop, hp, findGroup_eq hq.toConsistent ht]
    split
    next hempty =>
      have hmem := mem_setList_erase hq.toConsistent ht
      refine ⟨hq.deleteGroup hp ht hempty, hgone, hnone, fun b' u r hr => ?_, fun b' u r hr =>
        ((hmem b' u r).mp hr).2, rfl⟩
      refine (hmem b' u r).trans ?_
      by_cases hne : r = p
      · subst hne
        exact ⟨fun h => absurd rfl h.1, fun h => absurd hempty h⟩
      · exact ⟨fun _ => hplayers b' u r hr hne, fun _ => ⟨hne, hr⟩⟩
    next member rest hrest =>
      have hleft : ((q.dropPlayer guid p).groups p).players ≠ [] := by
        rw [hrest]
        exact List.cons_ne_nil _ _
      have hsound := hq.dropPlayer hp hleft
      have hall : ∀ b' u r, r ∈ q.queuedGroups b' u →
          ((q.dropPlayer guid p).groups r).players ≠ [] := hsound.nonempty
      split
      · -- the rest of a rated group that is not invited leaves as well
        have hmember : (q.dropPlayer guid p).queuedPlayers.lookup member = some p :=
          hsound.mapped b t p ht member (hrest ▸ List.mem_cons_self)
        have hle : (q.dropPlayer guid p).queuedPlayers.entries.length ≤ n := by
          have : (q.dropPlayer guid p).queuedPlayers = q.queuedPlayers.erase guid := rfl
          rw [this]
          omega
        obtain ⟨hs, hr⟩ := ih hsound hmember hle (length_erase_entries hmember)
        exact ⟨hs, hr.none guid hgone, fun g hg => hr.none g (hnone g hg), hr.deleted, hr.listed,
          hr.next⟩
      · exact ⟨hsound, hgone, hnone, fun b' u r hr => ⟨fun _ => hall b' u r hr, fun _ => hr⟩,
          fun _ _ _ hr => hr, rfl⟩

theorem removePlayer_spec (hq : q.Sound) {guid : ObjectGuid} {p : GroupPtr}
    (hp : q.queuedPlayers.lookup guid = some p) (decrease : Bool) :
    (q.removePlayer guid decrease).1.Sound ∧ Removed q (q.removePlayer guid decrease).1 guid :=
  removeLoop_spec decrease _ hq hp (Nat.le_refl _)

theorem removePlayer_of_none {guid : ObjectGuid} (h : q.queuedPlayers.lookup guid = none)
    (decrease : Bool) : q.removePlayer guid decrease = (q, []) := by
  unfold removePlayer
  cases q.queuedPlayers.entries.length with
  | zero => rfl
  | succ n => simp [removeLoop, h]

theorem sound_empty : empty.Sound where
  listed _ _ h := by cases h
  once _ _ := List.nodup_nil
  unique _ _ _ _ _ h := by cases h
  side _ _ _ h := by cases h
  mapped _ _ _ h := by cases h
  nonempty _ _ _ h := by cases h
  held _ _ h := by cases h
  allocated _ _ _ h := by cases h
  distinct _ _ _ h := by cases h

end WholeQueue

namespace Traced

def Kinds (s : Traced) : Prop :=
  ∀ b t p, p ∈ s.queue.queuedGroups b t →
    (t.isPremade → s.joinedPremade p) ∧ (¬ t.isPremade → s.joinedPremade p → s.battlegrounds)

def Meets (s : Traced) : QueueOp → Prop
  | .addGroup _ _ _ members _ _ _ _ _ _ => s.queue.Joinable members
  | .removePlayer _ _ => True
  | .inviteGroupToBG _ p _ _ side => side = none ∨ side = some (s.queue.groups p).team
  | .update srv _ b u => ¬ BattlegroundQueue.MatchesLoneHorde srv (s.queue.bracket b) u

variable {s : Traced}

/-- A step on one bracket, after which `battlegrounds` holds if groups were demoted. -/
theorem kinds_setBracket (hk : s.Kinds) {b : BracketId} {v : BattlegroundQueue} {demotes : Bool}
    (hv : (s.queue.bracket b).Keeps demotes v) :
    Kinds { s with
      queue := s.queue.setBracket b v
      battlegrounds := s.battlegrounds || demotes } := by
  intro b' t p hp
  by_cases hb : b' = b
  · subst hb
    rw [WholeQueue.setBracket_queuedGroups_self] at hp
    constructor
    · intro ht
      obtain ⟨u, hu, hpre⟩ := hv.premade t p hp ht
      exact (hk b' u p hu).1 hpre
    · intro ht hjoined
      obtain ⟨u, hu, hdem⟩ := hv.normal t p hp ht
      rw [Bool.or_eq_true]
      by_cases hpre : u.isPremade
      · exact .inr (hdem hpre)
      · exact .inl ((hk b' u p hu).2 hpre hjoined)
  · rw [WholeQueue.setBracket_queuedGroups_ne hb] at hp
    refine ⟨(hk b' t p hp).1, fun ht hjoined => ?_⟩
    rw [Bool.or_eq_true]
    exact .inl ((hk b' t p hp).2 ht hjoined)

theorem keeps_ownSide (hs : s.queue.Sound) (srv : Server) (p : GroupPtr) (b : BracketId)
    (bg : Battleground) {side : Option Team}
    (hside : side = none ∨ side = some (s.queue.groups p).team) :
    (s.queue.bracket b).Keeps false
      (BattlegroundQueue.inviteGroupToBG srv (s.queue.bracket b) p bg side).2.1 := by
  have hteam : ((s.queue.bracket b).groups p).team = (s.queue.groups p).team := rfl
  rcases hside with rfl | rfl
  · rw [WholeQueue.inviteGroupToBG_none]
    exact BattlegroundQueue.keeps_inviteGroupToBG (hs.lists b) p bg
  · rw [← hteam]
    exact BattlegroundQueue.keeps_inviteGroupToBG (hs.lists b) p bg

theorem step_sound (hs : s.queue.Sound ∧ s.Kinds) (op : QueueOp) (hop : s.Meets op) :
    (s.step op).queue.Sound ∧ (s.step op).Kinds := by
  obtain ⟨hq, hk⟩ := hs
  cases op with
  | addGroup srv b leaderTeam members bgTypeId arenaType isRated isPremade rating mmr =>
    refine ⟨hq.addGroup _ _ _ _ _ _ _ _ _ hop, fun b' t p hp => ?_⟩
    rcases (WholeQueue.mem_addGroup ..).mp hp with hp | ⟨-, rfl, rfl⟩
    · have hne : p ≠ s.queue.next := Nat.ne_of_lt (hq.allocated b' t p hp)
      simp only [step, Function.update_of_ne hne]
      exact hk b' t p hp
    · simp only [step, Function.update_self, WholeQueue.groupIndex_isPremade]
      exact ⟨id, fun hno hyes => absurd hyes hno⟩
  | removePlayer guid decrease =>
    cases hp : s.queue.queuedPlayers.lookup guid with
    | none =>
      simp only [step, WholeQueue.removePlayer_of_none hp]
      exact ⟨hq, hk⟩
    | some p =>
      obtain ⟨hsound, hremoved⟩ := WholeQueue.removePlayer_spec hq hp decrease
      exact ⟨hsound, fun b t r hr => hk b t r (hremoved.listed b t r hr)⟩
  | inviteGroupToBG srv p b bg side =>
    have hv := keeps_ownSide hq srv p b bg hop
    refine ⟨hq.setBracket hv, ?_⟩
    have hkinds := kinds_setBracket hk hv
    rwa [Bool.or_false] at hkinds
  | update srv cfg b u =>
    have hv := @BattlegroundQueue.keeps_update srv _ cfg { u with bracketId := b }
      (hq.lists b) hop
    exact ⟨hq.setBracket hv, kinds_setBracket hk hv⟩

/-- In every run whose calls meet the condition, the lists and the players' map agree, and
removing a queued player finds his group and deletes it if he was the last one in it. -/
theorem queue_run (ops : List QueueOp)
    (hrun : Lib.Run (fun s op u => u = step s op) Meets start ops s) :
    s.queue.Consistent ∧ s.Kinds ∧
      ∀ guid p decrease, s.queue.queuedPlayers.lookup guid = some p →
        s.queue.findGroup p ≠ none ∧
          s.queue.Removed (s.queue.removePlayer guid decrease).1 guid := by
  have hstart : start.queue.Sound ∧ start.Kinds :=
    ⟨WholeQueue.sound_empty, fun _ _ _ hp => absurd hp List.not_mem_nil⟩
  obtain ⟨hq, hk⟩ := hrun.invariant (fun s => s.queue.Sound ∧ s.Kinds) hstart
    fun s op u hs hop hu => hu ▸ step_sound hs op hop
  refine ⟨hq.toConsistent, hk, fun guid p decrease hp => ?_⟩
  obtain ⟨b, t, ht⟩ := hq.listed guid p hp
  refine ⟨?_, (WholeQueue.removePlayer_spec hq hp decrease).2⟩
  rw [WholeQueue.findGroup_eq hq.toConsistent ht]
  exact Option.some_ne_none _

def plainArenaUpdate : UpdateCall :=
  ⟨6, 0, 2, true, [], some ⟨true, 2, 2⟩, true, none, none, BattlegroundQueue.plainUpdate⟩

def plainConfig : Config := ⟨.noBalance, 0, false, false⟩

def joins (team : Team) (members : List ObjectGuid) : QueueOp :=
  .addGroup BattlegroundQueue.plainServer 0 team members 6 2 true false 1500 1500

/-- A team of each side, and then one of the horde leaves. -/
theorem queue_run_pair :
    ((((start.step (joins .alliance [1, 2])).step (joins .horde [3, 4])).step
      (.removePlayer 3 true))).queue.Consistent := by
  refine (queue_run [joins .alliance [1, 2], joins .horde [3, 4], .removePlayer 3 true]
    (.cons ⟨List.cons_ne_nil _ _, fun _ _ => rfl⟩ rfl
      (.cons ⟨List.cons_ne_nil _ _, ?_⟩ rfl (.cons trivial rfl (.nil _))))).1
  decide

/-- A lone team of the horde ends in the list of the alliance with the horde as its side. -/
theorem queue_fails_loneHorde :
    ¬ ∀ ops s, Lib.Run (fun s op u => u = step s op) Lib.always start ops s →
      s.queue.Consistent := by
  intro hall
  have hq := hall [joins .horde [3, 4],
      .update BattlegroundQueue.plainServer plainConfig 0 plainArenaUpdate] _
    (.cons trivial rfl (.cons trivial rfl (.nil _)))
  have hside := hq.side 0 .premadeAlliance 0 (by decide)
  exact absurd hside (by decide)

end Traced

end Ashamane.Battlegrounds
