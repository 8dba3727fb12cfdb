import Ashamane.Threat.Lists
import Mathlib.Algebra.Order.Field.Rat
import Mathlib.Tactic.Linarith

/-! The choice of a victim, and which disorder of the online list does not change it. -/
namespace Ashamane.Threat.ThreatManager
open Ashamane.Lib

variable {w : World ℚ} {s t : ThreatManager ℚ} {l : List Address} {v p : Address}

abbrev dirty (s : ThreatManager ℚ) : Bool := s.iThreatContainer.iDirty

def threat (s : ThreatManager ℚ) (ref : Address) : ℚ :=
  ((s.references ref).map HostileReference.getThreat).getD 0

def target (s : ThreatManager ℚ) (ref : Address) : Option ObjectGuid :=
  (s.references ref).bind HostileReference.iRefTo

def ordered (s : ThreatManager ℚ) : List Address :=
  s.online.mergeSort fun p q => !decide (s.threat p < s.threat q)

def reordered (s : ThreatManager ℚ) : ThreatManager ℚ :=
  { s with iThreatContainer := { iThreatList := s.ordered } }

def ruled (w : World ℚ) (s : ThreatManager ℚ) : Option (Option Address) :=
  s.reordered.selectNextVictim w s.iCurrentVictim

def Counts (s : ThreatManager ℚ) (ref : Address) : Prop :=
  ∀ v, s.iCurrentVictim = some v → 11 / 10 * s.threat v < s.threat ref

def Calm (s : ThreatManager ℚ) : Prop :=
  s.online.Pairwise fun q r => s.Counts r → s.threat r ≤ s.threat q

def Sorted (s : ThreatManager ℚ) : Prop :=
  s.online.Pairwise fun q r => s.threat r ≤ s.threat q

def NoneNegative (s : ThreatManager ℚ) : Prop := ∀ p ∈ s.online, 0 ≤ s.threat p

def preferred (w : World ℚ) (target : ObjectGuid) : Bool :=
  !(w.isImmunedToDamage target || w.hasInterruptAura target) && w.canCreatureAttack target

/-- More than 130% of the threat of `v`, or 110% in melee range. -/
def overtakes (w : World ℚ) (s : ThreatManager ℚ) (v ref : Address) : Bool :=
  (s.target ref).any fun target => preferred w target &&
    (13 / 10 * s.threat v < s.threat ref ||
      11 / 10 * s.threat v < s.threat ref && w.isWithinMeleeRange target)

theorem threat_eq {r : HostileReference ℚ} (hr : s.references p = some r) :
    s.threat p = r.getThreat := by
  rw [threat, hr]
  rfl

theorem counts_of_overtakes (hv : s.iCurrentVictim = some v) (h0 : 0 ≤ s.threat v)
    (h : overtakes w s v p = true) : s.Counts p := by
  intro v' hv'
  obtain rfl := Option.some.inj (hv.symm.trans hv')
  obtain ⟨target, -, h⟩ := (Option.any_eq_true _ _).mp h
  simp only [Bool.and_eq_true, Bool.or_eq_true, decide_eq_true_eq] at h
  rcases h.2 with h | h
  · linarith
  · exact h.1

/-- The first pass over a calm list with a preferred victim: the first reference that overtakes
the victim, or else the victim. -/
theorem selectPass_eq (hlinked : ∀ p ∈ l, ∃ r u, s.references p = some r ∧ r.iRefTo = some u)
    (hv : s.iCurrentVictim = some v) (h0 : 0 ≤ s.threat v) (hmem : v ∈ l)
    (hpreferred : (s.target v).any (preferred w) = true)
    (hcalm : l.Pairwise fun q r => s.Counts r → s.threat r ≤ s.threat q) :
    s.selectPass w false (some v) l =
      some (.ended (some ((l.find? (overtakes w s v)).getD v))) := by
  obtain ⟨u, hu, hpref⟩ := (Option.any_eq_true _ _).mp hpreferred
  simp only [preferred, Bool.and_eq_true, Bool.not_eq_true'] at hpref
  induction l with
  | nil => cases hmem
  | cons p rest ih =>
    obtain ⟨r, t, hr, ht⟩ := hlinked p List.mem_cons_self
    obtain ⟨rv, uv, hrv, huv⟩ := hlinked v hmem
    have htarget : s.target p = some t := by rw [target, hr, Option.bind_some, ht]
    have huv' : uv = u := by
      rw [target, hrv, Option.bind_some, huv] at hu
      exact Option.some.inj hu
    subst huv'
    obtain ⟨hhead, hrest⟩ := List.pairwise_cons.mp hcalm
    have hskip : p ≠ v → overtakes w s v p = false → s.selectPass w false (some v) rest =
        some (.ended (some (((p :: rest).find? (overtakes w s v)).getD v))) := by
      intro hne hover
      rw [List.find?_cons_of_neg (by rw [hover]; exact Bool.false_ne_true)]
      exact ih (fun q hq => hlinked q (List.mem_cons_of_mem p hq))
        ((List.mem_cons.mp hmem).resolve_left (Ne.symm hne)) hrest
    have hne_of : preferred w t = false → p ≠ v := by
      rintro hnot rfl
      rw [htarget] at hu
      obtain rfl := Option.some.inj hu
      rw [preferred, hpref.1, hpref.2] at hnot
      cases hnot
    have hover_of : preferred w t = false → overtakes w s v p = false := by
      intro hnot
      rw [overtakes, htarget, Option.any_some, hnot, Bool.false_and]
    simp only [selectPass, hr, ht, Option.bind_eq_bind, Option.bind_some, Bool.not_false,
      Bool.true_and]
    by_cases hsecond : (w.isImmunedToDamage t || w.hasInterruptAura t) = true
    · have hnot : preferred w t = false := by rw [preferred, hsecond]; rfl
      have hne := hne_of hnot
      have hin : v ∈ rest := (List.mem_cons.mp hmem).resolve_left (Ne.symm hne)
      rw [if_pos hsecond, if_neg (by
        rw [List.isEmpty_iff]
        exact List.ne_nil_of_mem hin), if_neg (fun h => hne (Option.some.inj h).symm)]
      exact hskip hne (hover_of hnot)
    · rw [if_neg hsecond]
      by_cases hattack : w.canCreatureAttack t = true
      · rw [if_pos hattack]
        have hpreft : preferred w t = true := by
          rw [preferred, hattack, Bool.eq_false_iff.mpr hsecond]
          rfl
        have hgetv : rv.getThreat = s.threat v := (threat_eq hrv).symm
        have hgetp : r.getThreat = s.threat p := (threat_eq hr).symm
        simp only [hrv, Option.bind_some, hgetv, hgetp]
        by_cases hfirst : v = p ∨ s.threat p ≤ tenths 11 (s.threat v)
        · rw [if_pos hfirst]
          have hnone : (p :: rest).find? (overtakes w s v) = none := by
            have hlow : s.threat p ≤ 11 / 10 * s.threat v := by
              rcases hfirst with rfl | hle
              · linarith
              · exact hle
            rw [List.find?_eq_none]
            intro q hq hover
            have hcount := counts_of_overtakes hv h0 hover
            have habove := hcount v hv
            rcases List.mem_cons.mp hq with rfl | hq
            · linarith
            · have := hhead q hq hcount
              linarith
          rw [hnone]
          by_cases heq : v = p
          · subst heq
            simp
          · rw [if_pos heq, huv, Option.bind_some, if_pos hpref.2]
            rfl
        · rw [if_neg hfirst]
          rw [not_or] at hfirst
          have hover : overtakes w s v p = decide (tenths 13 (s.threat v) < s.threat p ∨
              tenths 11 (s.threat v) < s.threat p ∧ w.isWithinMeleeRange t = true) := by
            rw [overtakes, htarget, Option.any_some, hpreft, Bool.true_and]
            simp only [Bool.decide_or, Bool.decide_and, Bool.decide_eq_true]
            rfl
          by_cases hwins : tenths 13 (s.threat v) < s.threat p ∨
              tenths 11 (s.threat v) < s.threat p ∧ w.isWithinMeleeRange t = true
          · rw [if_pos hwins, List.find?_cons_of_pos (by rw [hover]; exact decide_eq_true hwins)]
            rfl
          · rw [if_neg hwins]
            exact hskip (Ne.symm hfirst.1) (by rw [hover]; exact decide_eq_false hwins)
      · rw [if_neg hattack]
        have hnot : preferred w t = false := by
          rw [preferred, Bool.eq_false_iff.mpr hattack, Bool.and_false]
        exact hskip (hne_of hnot) (hover_of hnot)

theorem selectPass_congr (href : s.references = t.references) (noPriority : Bool)
    (current : Option Address) (l : List Address) :
    s.selectPass w noPriority current l = t.selectPass w noPriority current l := by
  induction l generalizing current with
  | nil => rfl
  | cons p rest ih => simp only [selectPass, href, ih]

theorem selectNextVictim_congr (href : s.references = t.references) (hlist : s.online = t.online)
    (current : Option Address) : s.selectNextVictim w current = t.selectNextVictim w current := by
  have hpass : ∀ noPriority current l, s.selectPass w noPriority current l =
      t.selectPass w noPriority current l := selectPass_congr href
  have hlist' : s.iThreatContainer.iThreatList = t.iThreatContainer.iThreatList := hlist
  simp only [selectNextVictim, hpass, hlist']

theorem getHostilTarget_victim (w : World ℚ) (s : ThreatManager ℚ) :
    (s.getHostilTarget w).map iCurrentVictim = s.update.selectNextVictim w s.iCurrentVictim := by
  rw [getHostilTarget]
  cases hnext : s.update.selectNextVictim w s.update.iCurrentVictim with
  | none =>
    have h : s.update.selectNextVictim w s.iCurrentVictim = none := hnext
    simp [h]
  | some next =>
    have h : s.update.selectNextVictim w s.iCurrentVictim = some next := hnext
    simp [h, setCurrentVictim]

theorem not_lt_trans (s : ThreatManager ℚ) (a b c : Address)
    (hab : (!decide (s.threat a < s.threat b)) = true)
    (hbc : (!decide (s.threat b < s.threat c)) = true) :
    (!decide (s.threat a < s.threat c)) = true := by
  simp only [Bool.not_eq_true', decide_eq_false_iff_not, not_lt] at hab hbc ⊢
  exact hbc.trans hab

theorem not_lt_total (s : ThreatManager ℚ) (a b : Address) :
    (!decide (s.threat a < s.threat b) || !decide (s.threat b < s.threat a)) = true := by
  simp only [Bool.or_eq_true, Bool.not_eq_true', decide_eq_false_iff_not, not_lt]
  exact le_total _ _

theorem pairwise_ordered (s : ThreatManager ℚ) :
    s.ordered.Pairwise fun q r => s.threat r ≤ s.threat q := by
  refine (List.pairwise_mergeSort (not_lt_trans s) (not_lt_total s) s.online).imp ?_
  intro q r h
  simpa using h

theorem ordered_perm (s : ThreatManager ℚ) : s.ordered.Perm s.online :=
  List.mergeSort_perm _ _

/-- In a calm list the references that count are in order, and sorting does not move them past
each other. -/
theorem Calm.find_ordered {q : Address → Bool} (h : s.Calm)
    (hq : ∀ p, q p = true → s.Counts p) : s.ordered.find? q = s.online.find? q := by
  classical
  have hsorted : (s.online.filter fun p => decide (s.Counts p)).Pairwise fun a b =>
      (!decide (s.threat a < s.threat b)) = true := by
    refine (List.Pairwise.and_mem.mp (h.filter fun p => decide (s.Counts p))).imp ?_
    rintro a b ⟨-, hb, hab⟩
    have hcount := of_decide_eq_true (List.mem_filter.mp hb).2
    simp only [Bool.not_eq_true', decide_eq_false_iff_not, not_lt]
    exact hab hcount
  have hsub : (s.online.filter fun p => decide (s.Counts p)).Sublist s.ordered :=
    List.sublist_mergeSort (not_lt_trans s) (not_lt_total s) hsorted List.filter_sublist
  have heq : s.online.filter (fun p => decide (s.Counts p)) =
      s.ordered.filter fun p => decide (s.Counts p) := by
    have hsub' := hsub.filter fun p => decide (s.Counts p)
    rw [List.filter_filter] at hsub'
    simp only [Bool.and_self] at hsub'
    exact hsub'.eq_of_length ((s.ordered_perm.filter _).length_eq.symm)
  have hfind : ∀ l : List Address,
      l.find? q = (l.filter fun p => decide (s.Counts p)).find? q := by
    intro l
    rw [List.find?_filter]
    congr 1
    funext p
    cases hp : q p with
    | false => simp
    | true => simp [hq p hp]
  rw [hfind s.online, hfind s.ordered, heq]

theorem Sorted.calm (h : s.Sorted) : s.Calm :=
  List.Pairwise.imp (S := fun q r => s.Counts r → s.threat r ≤ s.threat q) (fun hle _ => hle) h

theorem Calm.sorted (h : s.Calm) (hnone : s.iCurrentVictim = none) : s.Sorted :=
  List.Pairwise.imp (S := fun q r => s.threat r ≤ s.threat q) (fun hle => hle fun v hv => by
    rw [hnone] at hv
    cases hv) h

theorem Sorted.ordered (h : s.Sorted) : s.ordered = s.online :=
  List.mergeSort_of_pairwise (List.Pairwise.imp (fun hle => by simpa using hle) h)

theorem update_online (s : ThreatManager ℚ) :
    s.update.online = if s.dirty = true then s.ordered else s.online := by
  have hshort : s.online.length ≤ 1 → s.ordered = s.online := fun hlen =>
    Sorted.ordered (by
      cases hl : s.online with
      | nil =>
        rw [Sorted, hl]
        exact .nil
      | cons p rest =>
        rw [hl, List.length_cons] at hlen
        obtain rfl := List.length_eq_zero_iff.mp (show rest.length = 0 by omega)
        rw [Sorted, hl]
        exact List.pairwise_singleton _ p)
  have hif : s.update.online = if (s.dirty &&
      decide (1 < s.online.length)) = true then s.ordered else s.online := rfl
  rw [hif]
  by_cases hdirty : s.dirty = true
  · rw [if_pos hdirty, hdirty, Bool.true_and]
    by_cases hlen : 1 < s.online.length
    · rw [if_pos (decide_eq_true hlen)]
    · rw [if_neg (by simpa using hlen), hshort (by omega)]
  · rw [if_neg hdirty, Bool.eq_false_iff.mpr hdirty, Bool.false_and, if_neg Bool.false_ne_true]

def InOrder (s : ThreatManager ℚ) : Prop := s.dirty = true ∨ s.Calm

def Holds (w : World ℚ) (s : ThreatManager ℚ) : Prop :=
  ∀ v, s.iCurrentVictim = some v → 0 ≤ s.threat v ∧ (s.target v).any (preferred w) = true

theorem Sound.links (hs : Sound s) (hp : p ∈ s.online) :
    ∃ r u, s.references p = some r ∧ r.iRefTo = some u := by
  obtain ⟨u, hu⟩ := hs.online p hp
  obtain ⟨r, hr, hcore⟩ := reference_of_core hu
  exact ⟨r, u, hr, congrArg (fun c => c.2.2) hcore⟩

/-- The choice from a calm list with a victim that holds its place. -/
theorem selectNextVictim_calm (hs : Sound s) (hholds : s.Holds w)
    (hv : s.iCurrentVictim = some v) (hlist : t.online.Perm s.online)
    (href : t.references = s.references)
    (hfind : t.online.find? (overtakes w s v) = s.online.find? (overtakes w s v))
    (hpair : t.online.Pairwise fun q r => s.Counts r → s.threat r ≤ s.threat q) :
    t.selectNextVictim w (some v) =
      some (some ((s.online.find? (overtakes w s v)).getD v)) := by
  obtain ⟨h0, hpreferred⟩ := hholds v hv
  have hpass : t.selectPass w false (some v) t.online =
      some (.ended (some ((s.online.find? (overtakes w s v)).getD v))) := by
    rw [selectPass_congr href, selectPass_eq (fun p hp => hs.links (hlist.mem_iff.mp hp)) hv h0
      (hlist.mem_iff.mpr (hs.victim v hv)) hpreferred hpair, hfind]
  rw [selectNextVictim, show t.iThreatContainer.iThreatList = t.online from rfl, hpass]
  rfl

theorem InOrder.ruled (hs : Sound s) (h : s.InOrder)
    (hholds : s.dirty = true ∨ s.Sorted ∨ s.Holds w) :
    (s.getHostilTarget w).map iCurrentVictim = s.ruled w := by
  have hreordered : s.reordered.online = s.ordered := rfl
  rw [getHostilTarget_victim, ThreatManager.ruled]
  by_cases hdirty : s.dirty = true
  · have honline : s.update.online = s.reordered.online := by
      rw [update_online, if_pos hdirty, hreordered]
    exact selectNextVictim_congr (s := s.update) (t := s.reordered) rfl honline _
  · have hcalm := h.resolve_left hdirty
    have honline : s.update.online = s.online := by rw [update_online, if_neg hdirty]
    have hsorted : s.Sorted → s.update.selectNextVictim w s.iCurrentVictim =
        s.reordered.selectNextVictim w s.iCurrentVictim := fun hsorted =>
      selectNextVictim_congr (s := s.update) (t := s.reordered) rfl
        (by rw [honline, hreordered, hsorted.ordered]) _
    rcases hholds.resolve_left hdirty with hsort | hold
    · exact hsorted hsort
    cases hv : s.iCurrentVictim with
    | none =>
      rw [hv] at hsorted
      exact hsorted (hcalm.sorted hv)
    | some v =>
      have hfind := hcalm.find_ordered fun p => counts_of_overtakes (w := w) hv (hold v hv).1
      have hleft := selectNextVictim_calm (t := s.update) hs hold hv (.of_eq honline) rfl
        (congrArg _ honline) (honline ▸ hcalm)
      have hpair : s.ordered.Pairwise fun q r => s.Counts r → s.threat r ≤ s.threat q :=
        s.pairwise_ordered.imp (S := fun q r => s.Counts r → s.threat r ≤ s.threat q)
          fun hle _ => hle
      have hright := selectNextVictim_calm (t := s.reordered) hs hold hv s.ordered_perm rfl hfind
        hpair
      exact hleft.trans hright.symm

end Ashamane.Threat.ThreatManager
