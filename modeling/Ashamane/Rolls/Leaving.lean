import Ashamane.Rolls.EndRoll

/-! The rolls of a group when a member leaves it. -/
namespace Ashamane.Rolls

open Lib

namespace Roll

variable {r : Roll} {guid : Nat} {v : RollVote}

def uncountVote (r : Roll) : RollVote → Roll
  | .greed | .disenchant => { r with totalGreed := (r.totalGreed + 2 ^ 8 - 1) % 2 ^ 8 }
  | .need => { r with totalNeed := (r.totalNeed + 2 ^ 8 - 1) % 2 ^ 8 }
  | .pass => { r with totalPass := (r.totalPass + 2 ^ 8 - 1) % 2 ^ 8 }
  | .notEmitedYet | .notValid => r

def removeVote (r : Roll) (guid : Nat) (v : RollVote) : Roll :=
  { r.uncountVote v with
    totalPlayersRolling :=
      if v ≠ .notValid then (r.totalPlayersRolling + 2 ^ 8 - 1) % 2 ^ 8 else r.totalPlayersRolling
    playerVote := r.playerVote.erase guid }

def without (r : Roll) (guid : Nat) : Roll :=
  ((r.playerVote.lookup guid).map (r.removeVote guid)).getD r

structure Tallied (r : Roll) : Prop where
  need : r.totalNeed = r.votes (· == .need)
  greed : r.totalGreed = r.votes RollVote.isGreed
  pass : r.totalPass = r.votes (· == .pass)
  players : r.totalPlayersRolling = r.votes (· != .notValid)

structure Bytes (r : Roll) : Prop where
  need : r.totalNeed < 2 ^ 8
  greed : r.totalGreed < 2 ^ 8
  pass : r.totalPass < 2 ^ 8
  players : r.totalPlayersRolling < 2 ^ 8
  votes : r.playerVote.entries.length < 2 ^ 8

theorem without_of_notMem (h : r.playerVote.lookup guid = none) : r.without guid = r := by
  rw [without, h, Option.map_none, Option.getD_none]

theorem without_of_vote (h : r.playerVote.lookup guid = some v) :
    r.without guid = r.removeVote guid v := by
  rw [without, h, Option.map_some, Option.getD_some]

theorem without_playerVote : (r.without guid).playerVote = r.playerVote.erase guid := by
  cases h : r.playerVote.lookup guid with
  | none =>
    rw [without_of_notMem h]
    refine AList.ext (List.kerase_of_notMem_keys ?_).symm
    exact AList.lookup_eq_none.mp h
  | some v => rw [without_of_vote h, removeVote]

theorem notMem_without : guid ∉ (r.without guid).playerVote := by
  rw [without_playerVote, AList.mem_erase]
  simp

@[simp] theorem removeVote_lootGuid : (r.removeVote guid v).lootGuid = r.lootGuid := by
  cases v <;> rfl

theorem votes_removeVote (f : RollVote → Bool) (hv : r.playerVote.lookup guid = some v) :
    (r.removeVote guid v).votes f + (f v).toNat = r.votes f := by
  have htotal := Assoc.total_erase (fun v => (f v).toNat) hv
  unfold votes
  rw [countP_eq_sum, countP_eq_sum]
  exact htotal

theorem total_removeVote (f : RollVote → Bool) (hbytes : r.Bytes)
    (hv : r.playerVote.lookup guid = some v) {total total' : Nat} (htotal : total < 2 ^ 8)
    (h : total' = if f v then (total + 2 ^ 8 - 1) % 2 ^ 8 else total) :
    total' = (r.removeVote guid v).votes f ↔ total = r.votes f := by
  have hvotes := votes_removeVote f hv
  have hle := Nat.lt_of_le_of_lt (votes_le f) hbytes.votes
  cases hf : f v with
  | false =>
    rw [hf, Bool.toNat_false] at hvotes
    rw [h, hf, if_neg Bool.false_ne_true, ← hvotes, Nat.add_zero]
  | true =>
    rw [hf, Bool.toNat_true] at hvotes
    rw [h, hf, if_pos rfl]
    omega

theorem tallied_removeVote (hbytes : r.Bytes) (hv : r.playerVote.lookup guid = some v) :
    (r.removeVote guid v).Tallied ↔ r.Tallied := by
  have hneed : (r.removeVote guid v).totalNeed = (r.removeVote guid v).votes (· == .need) ↔
      r.totalNeed = r.votes (· == .need) :=
    total_removeVote _ hbytes hv hbytes.need (by cases v <;> rfl)
  have hgreed : (r.removeVote guid v).totalGreed = (r.removeVote guid v).votes RollVote.isGreed ↔
      r.totalGreed = r.votes RollVote.isGreed :=
    total_removeVote _ hbytes hv hbytes.greed (by cases v <;> rfl)
  have hpass : (r.removeVote guid v).totalPass = (r.removeVote guid v).votes (· == .pass) ↔
      r.totalPass = r.votes (· == .pass) :=
    total_removeVote _ hbytes hv hbytes.pass (by cases v <;> rfl)
  have hplayers : (r.removeVote guid v).totalPlayersRolling =
      (r.removeVote guid v).votes (· != .notValid) ↔
        r.totalPlayersRolling = r.votes (· != .notValid) :=
    total_removeVote _ hbytes hv hbytes.players (by cases v <;> rfl)
  constructor
  · intro h
    exact ⟨hneed.mp h.need, hgreed.mp h.greed, hpass.mp h.pass, hplayers.mp h.players⟩
  · intro h
    exact ⟨hneed.mpr h.need, hgreed.mpr h.greed, hpass.mpr h.pass, hplayers.mpr h.players⟩

theorem tallied_without (hbytes : r.Bytes) : (r.without guid).Tallied ↔ r.Tallied := by
  cases h : r.playerVote.lookup guid with
  | none => rw [without_of_notMem h]
  | some v => rw [without_of_vote h, tallied_removeVote hbytes h]

def endsWithout (guid : Nat) (r : Roll) : Bool :=
  (r.playerVote.lookup guid).isSome && (r.without guid).isComplete

end Roll

namespace State

/-- The loop of `RemoveMember` over the rolls: how many rolls were counted, the iterator and the
group. After a count the loop goes on behind the first roll; it may not pass the end. -/
def removeMemberBody (worlds : Nat → World) (guid : Nat)
    (removeMember : Nat × Nat × State → Option State) : Nat × Nat × State → Option State
  | (count, itr, s) =>
    match s.rollId[itr]? with
    | none => if itr = s.rollId.length then some s else none
    | some r =>
      match r.playerVote.lookup guid with
      | none => removeMember (count, itr + 1, s)
      | some v =>
        let left := { s with rollId := s.rollId.set itr (r.removeVote guid v) }
        if (r.removeVote guid v).isComplete then
          removeMember (count + 1, 1, left.countTheRoll (worlds count) itr (r.removeVote guid v))
        else removeMember (count, itr + 1, left)

/-- The loop of `RemoveMember` over the rolls ends, and leaves `s'`. -/
def RemoveMember (worlds : Nat → World) (guid : Nat) (s s' : State) : Prop :=
  Fuel.Returns (removeMemberBody worlds guid) (0, 0, s) s'

def live (s : State) (lootGuid : Nat) : Bool := (s.loots lootGuid).isSome

end State

def Roll.erasedBy (r : Roll) (living : Nat → Bool) (w : World) (guid : Nat) : Bool :=
  r.endsWithout guid && !(living r.lootGuid && (r.without guid).leavesEarly w)

namespace State

variable {s s' : State} {worlds : Nat → World} {guid count itr : Nat} {r : Roll}
  {living : Nat → Bool} {rolls : List Roll}

def swept (living : Nat → Bool) (worlds : Nat → World) (guid : Nat) : Nat → List Roll → List Roll
  | _, [] => []
  | count, r :: rolls =>
    let rest := swept living worlds guid (count + (r.endsWithout guid).toNat) rolls
    if r.erasedBy living (worlds count) guid then rest else r.without guid :: rest

structure Turned (worlds : Nat → World) (guid count itr : Nat) (s : State) (r : Roll)
    (next : Nat × Nat × State) : Prop where
  counted : next.1 = count + (r.endsWithout guid).toNat
  at_itr : next.2.1 = if r.endsWithout guid then 1 else itr + 1
  rollId : next.2.2.rollId = if r.erasedBy s.live (worlds count) guid then s.rollId.eraseIdx itr
    else s.rollId.set itr (r.without guid)
  live : next.2.2.live = s.live

theorem removeMember_turn (worlds : Nat → World) (guid count itr : Nat) (s : State)
    (h : s.rollId[itr]? = some r) : ∃ next, Turned worlds guid count itr s r next ∧
      ∀ f, removeMemberBody worlds guid f (count, itr, s) = f next := by
  cases hv : r.playerVote.lookup guid with
  | none =>
    have hends : r.endsWithout guid = false := by rw [Roll.endsWithout, hv]; rfl
    refine ⟨(count, itr + 1, s), ⟨?_, ?_, ?_, rfl⟩, fun f => by simp only [removeMemberBody, h, hv]⟩
    · simp [hends]
    · simp [hends]
    · rw [Roll.erasedBy, hends, Bool.false_and, if_neg Bool.false_ne_true,
        Roll.without_of_notMem hv]
      obtain ⟨hlt, rfl⟩ := List.getElem?_eq_some_iff.mp h
      exact (List.set_getElem_self hlt).symm
  | some v =>
    have hwithout := Roll.without_of_vote hv
    cases hcomplete : (r.removeVote guid v).isComplete with
    | false =>
      have hends : r.endsWithout guid = false := by
        rw [Roll.endsWithout, hwithout, hcomplete, Bool.and_false]
      refine ⟨(count, itr + 1, { s with rollId := s.rollId.set itr (r.removeVote guid v) }),
        ⟨?_, ?_, ?_, rfl⟩, fun f => by simp [removeMemberBody, h, hv, hcomplete]⟩
      · simp [hends]
      · simp [hends]
      · rw [Roll.erasedBy, hends, Bool.false_and, if_neg Bool.false_ne_true, hwithout]
    | true =>
      have hends : r.endsWithout guid = true := by
        rw [Roll.endsWithout, hwithout, hcomplete, hv]
        rfl
      have hended := countTheRoll_ended (worlds count)
        { s with rollId := s.rollId.set itr (r.removeVote guid v) } itr (r.removeVote guid v)
      refine ⟨(count + 1, 1, State.countTheRoll (worlds count)
        { s with rollId := s.rollId.set itr (r.removeVote guid v) } itr (r.removeVote guid v)),
        ⟨?_, ?_, ?_, funext hended.live⟩, fun f => by simp [removeMemberBody, h, hv, hcomplete]⟩
      · simp [hends]
      · simp [hends]
      · have hrolls : (State.countTheRoll (worlds count)
            { s with rollId := s.rollId.set itr (r.removeVote guid v) } itr
            (r.removeVote guid v)).rollId =
            if s.live (r.removeVote guid v).lootGuid = true ∧
              (r.removeVote guid v).leavesEarly (worlds count) = true
            then s.rollId.set itr (r.removeVote guid v) else s.rollId.eraseIdx itr := by
          rw [hended.rollId, List.eraseIdx_set_eq]
          rfl
        rw [hrolls, Roll.erasedBy, hends, hwithout, Roll.removeVote_lootGuid]
        cases s.live r.lootGuid <;> cases (r.removeVote guid v).leavesEarly (worlds count) <;> rfl

theorem removeMember_past (f : Nat × Nat × State → Option State) (h : s.rollId[itr]? = none) :
    removeMemberBody worlds guid f (count, itr, s) =
      if itr = s.rollId.length then some s else none := by
  simp only [removeMemberBody, h]

theorem removeMember_steady (worlds : Nat → World) (guid : Nat) :
    Fuel.Steady (removeMemberBody worlds guid) := by
  refine .of_tail fun ⟨count, itr, s⟩ => ?_
  cases h : s.rollId[itr]? with
  | none => exact .inl ⟨_, fun f => removeMember_past f h⟩
  | some r =>
    obtain ⟨next, -, hnext⟩ := removeMember_turn worlds guid count itr s h
    exact .inr ⟨next, hnext⟩

theorem removeMember_skip (mid : List Roll) {pre post : List Roll}
    (hrolls : s.rollId = pre ++ (mid ++ post)) (hmid : ∀ r ∈ mid, r.playerVote.lookup guid = none)
    (h : Fuel.Returns (removeMemberBody worlds guid) (count, (pre ++ mid).length, s) s') :
    Fuel.Returns (removeMemberBody worlds guid) (count, pre.length, s) s' := by
  induction mid generalizing pre with
  | nil => simpa using h
  | cons r mid ih =>
    have hr : s.rollId[pre.length]? = some r := by simp [hrolls]
    refine Fuel.Returns.of_call (fun f => ?_) (@ih (pre ++ [r]) ?_ ?_ ?_)
    · simp only [removeMemberBody, hr, hmid r List.mem_cons_self, List.length_append,
        List.length_singleton]
    · rw [hrolls, List.append_assoc, List.singleton_append, List.cons_append]
    · exact fun r' hr' => hmid r' (List.mem_cons_of_mem _ hr')
    · rwa [List.append_assoc, List.singleton_append]

theorem removeMember_sweep (worlds : Nat → World) (guid count : Nat) (s : State) (first : Roll)
    {mid post : List Roll} (hrolls : s.rollId = first :: mid ++ post)
    (hmid : ∀ r ∈ mid, r.playerVote.lookup guid = none) :
    ∃ s', Fuel.Returns (removeMemberBody worlds guid) (count, (first :: mid).length, s) s' ∧
      s'.rollId = first :: mid ++ swept s.live worlds guid count post := by
  induction post generalizing count s mid with
  | nil =>
    rw [List.append_nil] at hrolls
    refine ⟨s, .of_answer fun f => ?_, by rw [hrolls, swept, List.append_nil]⟩
    rw [removeMember_past f (by rw [hrolls]; simp), if_pos (by rw [hrolls])]
  | cons r post ih =>
    have hr : s.rollId[(first :: mid).length]? = some r := by simp [hrolls]
    obtain ⟨⟨count', itr', t⟩, ⟨hcount, hitr, ht, hlive⟩, hturn⟩ :=
      removeMember_turn worlds guid count (first :: mid).length s hr
    simp only at hcount hitr ht hlive
    obtain rfl := hcount
    -- the turn stands behind rolls without the player, or starts again before them
    have hgo : ∀ mid' s', t.rollId = first :: mid' ++ post →
        (∀ r ∈ mid', r.playerVote.lookup guid = none) →
        (r.endsWithout guid = false → mid'.length = mid.length + 1) →
        Fuel.Returns (removeMemberBody worlds guid)
          (count + (r.endsWithout guid).toNat, (first :: mid').length, t) s' →
        Fuel.Returns (removeMemberBody worlds guid) (count, (first :: mid).length, s) s' := by
      intro mid' s' ht hmid' hlength h
      refine .of_call hturn ?_
      cases hends : r.endsWithout guid with
      | false =>
        rw [hends] at hitr h
        rw [hitr, if_neg Bool.false_ne_true]
        rwa [List.length_cons, hlength hends] at h
      | true =>
        rw [hends] at hitr h
        rw [hitr, if_pos rfl]
        exact @removeMember_skip _ _ _ _ _ mid' [first] _ ht hmid' h
    cases herased : r.erasedBy s.live (worlds count) guid with
    | true =>
      have hends : r.endsWithout guid = true := by
        rw [Roll.erasedBy, Bool.and_eq_true] at herased
        exact herased.1
      have ht' : t.rollId = first :: mid ++ post := by
        rw [ht, herased, if_pos rfl, hrolls, List.eraseIdx_append_of_length_le (Nat.le_refl _),
          Nat.sub_self, List.eraseIdx_cons_zero]
      obtain ⟨s', hs', hrest⟩ := ih (count + (r.endsWithout guid).toNat) t ht' hmid
      refine ⟨s', hgo mid s' ht' hmid (fun h => ?_) hs', ?_⟩
      · rw [hends] at h
        cases h
      · rw [hrest, hlive, swept, herased, if_pos rfl]
    | false =>
      have ht' : t.rollId = first :: (mid ++ [r.without guid]) ++ post := by
        rw [ht, herased, if_neg Bool.false_ne_true, hrolls,
          List.set_append_right _ _ (Nat.le_refl _), Nat.sub_self, List.set_cons_zero]
        simp
      have hmid' : ∀ r' ∈ mid ++ [r.without guid], r'.playerVote.lookup guid = none := by
        intro r' hr'
        rcases List.mem_append.mp hr' with hr' | hr'
        · exact hmid r' hr'
        · obtain rfl := List.mem_singleton.mp hr'
          exact AList.lookup_eq_none.mpr Roll.notMem_without
      obtain ⟨s', hs', hrest⟩ := ih (count + (r.endsWithout guid).toNat) t ht' hmid'
      refine ⟨s', hgo _ s' ht' hmid' (fun _ => by simp) hs', ?_⟩
      rw [hrest, hlive, swept, herased, if_neg Bool.false_ne_true]
      simp

def erases (s : State) (worlds : Nat → World) (guid i : Nat) (r : Roll) : Bool :=
  r.erasedBy s.live (worlds ((s.rollId.take i).countP (Roll.endsWithout guid))) guid

theorem mem_swept {x : Roll} :
    x ∈ swept living worlds guid count rolls ↔ ∃ (i : Nat) (r : Roll), rolls[i]? = some r ∧ x = r.without guid ∧
      r.erasedBy living (worlds (count + (rolls.take i).countP (Roll.endsWithout guid))) guid =
        false := by
  induction rolls generalizing count with
  | nil => simp [swept]
  | cons r rolls ih =>
    have hcount : ∀ i, count + ((r :: rolls).take (i + 1)).countP (Roll.endsWithout guid) =
        count + (r.endsWithout guid).toNat + (rolls.take i).countP (Roll.endsWithout guid) := by
      intro i
      rw [List.take_succ_cons, List.countP_cons]
      cases r.endsWithout guid
      · simp
      · simp
        omega
    have hrest : x ∈ swept living worlds guid (count + (r.endsWithout guid).toNat) rolls ↔
        ∃ (i : Nat) (r' : Roll), (r :: rolls)[i + 1]? = some r' ∧ x = r'.without guid ∧
          r'.erasedBy living (worlds (count +
            ((r :: rolls).take (i + 1)).countP (Roll.endsWithout guid))) guid = false := by
      simp only [ih, hcount, List.getElem?_cons_succ]
    have hsplit : ∀ P : Nat → Prop, (∃ i, P i) ↔ P 0 ∨ ∃ i, P (i + 1) := fun P =>
      ⟨fun ⟨i, hi⟩ => by cases i with
        | zero => exact .inl hi
        | succ i => exact .inr ⟨i, hi⟩, fun h => h.elim (fun h => ⟨0, h⟩) fun ⟨i, hi⟩ => ⟨i + 1, hi⟩⟩
    rw [hsplit, ← hrest, swept]
    cases herased : r.erasedBy living (worlds count) guid <;> simp [herased]

structure Cleaned (guid : Nat) (s' : State) : Prop where
  gone : ∀ r ∈ s'.rollId, guid ∉ r.playerVote
  tallied : ∀ r ∈ s'.rollId, r.Tallied

def FirstMissed (s : State) (worlds : Nat → World) (guid : Nat) : Prop :=
  ∀ r, s.rollId[0]? = some r → s.erases worlds guid 0 r = true →
    ∃ r', s.rollId[1]? = some r' ∧ guid ∉ r'.playerVote

theorem swept_gone {x : Roll} (h : x ∈ swept living worlds guid count rolls) :
    guid ∉ x.playerVote := by
  obtain ⟨i, r, -, rfl, -⟩ := mem_swept.mp h
  exact Roll.notMem_without

theorem removeMember_ends (h : s.FirstMissed worlds guid) :
    ∃ s', RemoveMember worlds guid s s' ∧ s'.rollId = swept s.live worlds guid 0 s.rollId := by
  cases hrolls : s.rollId with
  | nil =>
    refine ⟨s, .of_answer fun f => ?_, by rw [hrolls, swept]⟩
    rw [removeMember_past f (by rw [hrolls]; rfl), if_pos (by rw [hrolls]; rfl)]
  | cons r rolls =>
    have hr : s.rollId[0]? = some r := by rw [hrolls]; rfl
    obtain ⟨⟨count, itr, t⟩, ⟨hcount, hitr, ht, hlive⟩, hturn⟩ :=
      removeMember_turn worlds guid 0 0 s hr
    simp only at hcount hitr ht hlive
    have hitr : itr = 1 := by
      rw [hitr]
      split <;> rfl
    subst hitr
    cases herased : r.erasedBy s.live (worlds 0) guid with
    | true =>
      obtain ⟨first, hfirst, hother⟩ := h r hr herased
      rw [hrolls, List.getElem?_cons_succ] at hfirst
      obtain ⟨post, rfl⟩ : ∃ post, rolls = first :: post := by
        cases rolls with
        | nil => cases hfirst
        | cons r' post => exact ⟨post, by rw [Option.some.inj hfirst]⟩
      have ht' : t.rollId = [first] ++ post := by
        rw [ht, herased, if_pos rfl, hrolls]
        rfl
      obtain ⟨s', hs', hrest⟩ := removeMember_sweep worlds guid count t first ht' (by simp)
      refine ⟨s', .of_call hturn hs', ?_⟩
      have hnone := AList.lookup_eq_none.mpr hother
      have hends : first.endsWithout guid = false := by rw [Roll.endsWithout, hnone]; rfl
      have hkept : first.erasedBy s.live (worlds count) guid = false := by
        rw [Roll.erasedBy, hends, Bool.false_and]
      rw [hrest, hlive, swept, herased, if_pos rfl, Nat.zero_add, ← Nat.zero_add (Bool.toNat _),
        ← hcount, swept, hkept, hends, Roll.without_of_notMem hnone]
      rfl
    | false =>
      have ht' : t.rollId = [r.without guid] ++ rolls := by
        rw [ht, herased, if_neg Bool.false_ne_true, hrolls]
        rfl
      obtain ⟨s', hs', hrest⟩ := removeMember_sweep worlds guid count t (r.without guid) ht' (by simp)
      refine ⟨s', .of_call hturn hs', ?_⟩
      rw [hrest, hlive, swept, herased, if_neg Bool.false_ne_true, hcount]
      rfl

/-- If the first roll is erased the loop passes the end, or leaves the next as it is. -/
theorem next_of_ends (hends : RemoveMember worlds guid s s') (hr : s.rollId[0]? = some r)
    (herased : s.erases worlds guid 0 r = true) :
    ∃ r', s.rollId[1]? = some r' ∧ r' ∈ s'.rollId := by
  replace herased : r.erasedBy s.live (worlds 0) guid = true := herased
  obtain ⟨⟨count, itr, t⟩, ⟨-, hitr, ht, -⟩, hturn⟩ := removeMember_turn worlds guid 0 0 s hr
  simp only at hitr ht
  obtain rfl : itr = 1 := by
    rw [hitr]
    split <;> rfl
  have hrest := hends.call hturn
  have htail : t.rollId = s.rollId.tail := by rw [ht, herased, if_pos rfl, List.eraseIdx_zero]
  cases hpost : s.rollId.tail with
  | nil =>
    rw [hpost] at htail
    obtain ⟨fuel, hrun⟩ := hrest
    cases fuel with
    | zero => cases hrun
    | succ fuel =>
      rw [Fuel.run, removeMember_past _ (by rw [htail]; rfl), if_neg (by rw [htail]; simp)] at hrun
      cases hrun
  | cons first post =>
    rw [hpost] at htail
    obtain ⟨s'', hs'', hrolls⟩ :=
      @removeMember_sweep worlds guid count t first [] post htail (by simp)
    obtain rfl := (removeMember_steady worlds guid).unique hrest hs''
    refine ⟨first, ?_, by rw [hrolls]; simp⟩
    rw [← List.getElem?_tail, hpost]
    rfl

theorem firstMissed_of_ends (hends : RemoveMember worlds guid s s')
    (hgone : ∀ r ∈ s'.rollId, guid ∉ r.playerVote) : s.FirstMissed worlds guid := by
  intro r hr herased
  obtain ⟨next, hnext, hleft⟩ := next_of_ends hends hr herased
  exact ⟨next, hnext, hgone next hleft⟩

/-- The clean-up ends with the rolls cleaned, exactly if the loop misses no roll of the player when
the first is erased, and the rolls that are not erased had the right totals. -/
theorem removeMember_iff (worlds : Nat → World) (guid : Nat) (s : State)
    (hbytes : ∀ r ∈ s.rollId, r.Bytes) :
    (∃ s', RemoveMember worlds guid s s' ∧ s'.Cleaned guid) ↔
      s.FirstMissed worlds guid ∧ ∀ (i : Nat) (r : Roll), s.rollId[i]? = some r →
        s.erases worlds guid i r = false → r.Tallied := by
  have htallied : ∀ (i : Nat) (r : Roll), s.rollId[i]? = some r →
      ((r.without guid).Tallied ↔ r.Tallied) := fun i r hr =>
    Roll.tallied_without (hbytes r (List.mem_of_getElem? hr))
  constructor
  · rintro ⟨s', hs', hgone, htotals⟩
    have hmissed := firstMissed_of_ends hs' hgone
    refine ⟨hmissed, fun i r hr hkept => (htallied i r hr).mp (htotals _ ?_)⟩
    obtain ⟨s'', hs'', hswept⟩ := removeMember_ends hmissed
    rw [(removeMember_steady worlds guid).unique hs' hs'', hswept, mem_swept]
    exact ⟨i, r, hr, rfl, by rwa [Nat.zero_add]⟩
  · rintro ⟨hmissed, htotals⟩
    obtain ⟨s', hs', hswept⟩ := removeMember_ends hmissed
    refine ⟨s', hs', fun r hr => swept_gone (hswept ▸ hr), fun x hx => ?_⟩
    rw [hswept, mem_swept] at hx
    obtain ⟨i, r, hr, rfl, hkept⟩ := hx
    rw [Nat.zero_add] at hkept
    exact (htallied i r hr).mpr (htotals i r hr hkept)

def onePassed (lootGuid : Nat) : Roll :=
  .begun lootGuid 0 rollAllTypeNoDisenchant ((AList.singleton 2 true).insert 1 false)

def leftBy (rolls : List Roll) : State :=
  ⟨rolls, fun _ => some ⟨[{ isBlocked := true }], [], 1⟩, [], []⟩

def nobody : World := ⟨fun _ => 0, fun _ => false, fun _ => false, false⟩

theorem removeMember_iff_two : ∃ s', RemoveMember (fun _ => nobody) 3
    (leftBy [onePassed 7, onePassed 8]) s' ∧ s'.Cleaned 3 := by
  refine (removeMember_iff (fun _ => nobody) 3 _ fun r hr => ?_).mpr ⟨?_, fun i r hr _ => ?_⟩
  · simp only [leftBy, List.mem_cons, List.not_mem_nil, or_false] at hr
    rcases hr with rfl | rfl <;> exact ⟨by decide, by decide, by decide, by decide, by decide⟩
  · intro r hr herased
    obtain rfl := Option.some.inj hr
    exact absurd herased (by decide)
  · have hr := List.mem_of_getElem? hr
    simp only [leftBy, List.mem_cons, List.not_mem_nil, or_false] at hr
    rcases hr with rfl | rfl <;> exact ⟨by decide, by decide, by decide, by decide⟩

/-- Both rolls wait for player 1 only. The first is counted and erased when he leaves, and then the
second is missed. With one roll the loop passes the end. -/
theorem removeMember_fails_waiting :
    (¬∃ s', RemoveMember (fun _ => nobody) 1 (leftBy [onePassed 7, onePassed 8]) s' ∧
      ∀ r ∈ s'.rollId, 1 ∉ r.playerVote) ∧
      ¬∃ s', RemoveMember (fun _ => nobody) 1 (leftBy [onePassed 7]) s' := by
  constructor
  · rintro ⟨s', hends, hgone⟩
    obtain ⟨r', hr', hother⟩ := firstMissed_of_ends hends hgone (onePassed 7) rfl (by decide)
    obtain rfl := Option.some.inj hr'
    exact hother (by decide)
  · rintro ⟨s', hends⟩
    obtain ⟨r', hr', -⟩ := next_of_ends hends (r := onePassed 7) rfl (by decide)
    cases hr'

end State

end Ashamane.Rolls
