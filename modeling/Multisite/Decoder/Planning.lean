import Multisite.Core.Documents
import Multisite.Decoder.Steps

/-!
The download planner (the first critical section of `pump_downloads`) and the skip over a gap
(`next_segment`).

The planner's loop counts in 64 bits: after the last sequence, and after a gap that ends with
it, it goes on from zero.

* `Manifest.Passes`: the planner's walk, counted without bound, gets past the window;
* `Manifest.Planned`: what has been planned when the walk has come to a sequence;
* `plansWell_iff`: the planner comes to an end, and plans as it should, exactly when its walk
  gets past the window below `2 ^ 64`, or it has found its fill before, or the second walk, from
  zero, gets past the window over nothing but what is cached or lost.
-/

namespace Multisite

/-! ### The documents it is given -/

namespace Manifest

/-- What `from_json` makes sure of. -/
structure Fits (m : Manifest) : Prop where
  first : m.firstAvailableSeq < 2 ^ 64
  latest : m.latestSeq < 2 ^ 64
  gaps : ∀ g ∈ m.gaps, g.1 ≤ g.2 ∧ g.2 < 2 ^ 64

lemma lt_of_getUInt64 {j : Json} {n : ℕ} (h : j.getUInt64 = some n) : n < 2 ^ 64 := by
  rw [Json.getUInt64] at h
  obtain ⟨q, -, rfl⟩ := Option.map_eq_some_iff.mp h
  have h0 := Int.emod_nonneg (Json.truncate q) (by norm_num : (2 ^ 64 : ℤ) ≠ 0)
  have h1 := Int.emod_lt_of_pos (Json.truncate q) (by norm_num : (0 : ℤ) < 2 ^ 64)
  omega

lemma lt_of_value {j : Json} {k : String} {n : ℕ}
    (h : j.value Json.getUInt64 k 0 = some n) : n < 2 ^ 64 := by
  cases j with
  | obj l =>
      rw [Json.value] at h
      split at h
      · exact lt_of_getUInt64 h
      · obtain rfl := Option.some.inj h
        norm_num
  | _ => exact absurd h (by simp [Json.value])

lemma lt_of_unsigned {j : Json} {n : ℕ} (h : unsigned? j = some n) : n < 2 ^ 64 := by
  cases j with
  | int z =>
      rw [unsigned?, Option.ite_none_right_eq_some, Option.some.injEq] at h
      have h1 := Int.emod_lt_of_pos z (by norm_num : (0 : ℤ) < 2 ^ 64)
      have h0 := Int.emod_nonneg z (by norm_num : (2 ^ 64 : ℤ) ≠ 0)
      omega
  | _ => exact absurd h (by simp [unsigned?])

lemma range_of_gapFromJson {j : Json} {g : ℕ × ℕ} (h : gapFromJson j = some g) :
    g.1 ≤ g.2 ∧ g.2 < 2 ^ 64 := by
  unfold gapFromJson at h
  split at h
  · split at h
    · rename_i x y _ hy
      rw [Option.ite_none_right_eq_some, Option.some.injEq] at h
      obtain ⟨hle, rfl⟩ := h
      exact ⟨hle, lt_of_unsigned hy⟩
    · exact absurd h (by simp)
  · exact absurd h (by simp)

/-- Whatever document is accepted. -/
lemma fits_of_fromJson {j : Json} {m : Manifest} (h : fromJson j = some m) : m.Fits := by
  unfold fromJson at h
  obtain ⟨_, -, h⟩ := Option.bind_eq_some_iff.mp h
  obtain ⟨_, -, h⟩ := Option.bind_eq_some_iff.mp h
  obtain ⟨_, -, h⟩ := Option.bind_eq_some_iff.mp h
  obtain ⟨_, -, h⟩ := Option.bind_eq_some_iff.mp h
  obtain ⟨_, -, h⟩ := Option.bind_eq_some_iff.mp h
  obtain ⟨first, hfirst, h⟩ := Option.bind_eq_some_iff.mp h
  obtain ⟨_, -, h⟩ := Option.bind_eq_some_iff.mp h
  obtain ⟨latest, hlatest, h⟩ := Option.bind_eq_some_iff.mp h
  obtain ⟨_, -, h⟩ := Option.bind_eq_some_iff.mp h
  obtain ⟨_, -, h⟩ := Option.bind_eq_some_iff.mp h
  obtain ⟨_, -, h⟩ := Option.bind_eq_some_iff.mp h
  obtain ⟨_, -, h⟩ := Option.bind_eq_some_iff.mp h
  obtain ⟨gaps, hgaps, h⟩ := Option.bind_eq_some_iff.mp h
  obtain rfl := Option.some.inj h
  refine ⟨lt_of_value hfirst, lt_of_value hlatest, fun g hg => ?_⟩
  rw [listed] at hgaps
  split at hgaps
  · obtain rfl := Option.some.inj hgaps
    obtain ⟨x, -, hx⟩ := List.mem_filterMap.mp hg
    exact range_of_gapFromJson hx
  · obtain rfl := Option.some.inj hgaps
    exact absurd hg (by simp)

/-! ### The walk -/

/-- The planner's walk, counted without bound, gets from `sq` past `upTo` below `2 ^ 64`: over
what is cached, and over what there is to plan if `free`, to the next sequence, and over any
other to the one after its gap. -/
inductive Passes (m : Manifest) (cached : Finset ℕ) (upTo : ℕ) (free : Prop) : ℕ → Prop
  | past {sq : ℕ} (h : upTo < sq) (hsq : sq < 2 ^ 64) : Passes m cached upTo free sq
  | next {sq : ℕ} (hle : sq ≤ upTo) (h : sq ∈ cached ∨ free ∧ m.gapEnd sq = none)
      (hp : Passes m cached upTo free (sq + 1)) : Passes m cached upTo free sq
  | gap {sq last : ℕ} (hle : sq ≤ upTo) (hc : sq ∉ cached) (hg : m.gapEnd sq = some last)
      (hp : Passes m cached upTo free (last + 1)) : Passes m cached upTo free sq

/-- What there is to plan between `start` and `upTo`. -/
def toPlan (m : Manifest) (cached : Finset ℕ) (start upTo : ℕ) : Finset ℕ :=
  (Finset.Icc start upTo).filter fun sq => sq ∉ cached ∧ ¬ m.InGaps sq

/-- The plan is right: in the window, not cached, in no gap, and nothing twice. -/
def GoodPlan (m : Manifest) (cached : Finset ℕ) (start latest : ℕ)
    (wanted : List (ℕ × String)) : Prop :=
  (∀ w ∈ wanted, start ≤ w.1 ∧ w.1 ≤ latest ∧ w.1 ∉ cached ∧ ¬ m.InGaps w.1) ∧
    (wanted.map (·.1)).Nodup

variable {m : Manifest} {cached : Finset ℕ} {start latest upTo sq last n : ℕ} {max : ℤ}
  {fuel : ℕ} {wanted wanted' : List (ℕ × String)} {free : Prop}

lemma Passes.lt (h : m.Passes cached upTo free n) (hup : upTo < 2 ^ 64) : n < 2 ^ 64 := by
  cases h with
  | past _ hsq => exact hsq
  | next hle => exact lt_of_le_of_lt hle hup
  | gap hle => exact lt_of_le_of_lt hle hup

/-- What has been planned when the walk has come from `start` to `n`. -/
structure Planned (m : Manifest) (cached : Finset ℕ) (start upTo n : ℕ)
    (wanted : List (ℕ × String)) : Prop where
  mem : ∀ x ∈ wanted.map (·.1), x ∈ m.toPlan cached start upTo ∧ x < n
  nodup : (wanted.map (·.1)).Nodup
  all : ∀ x ∈ m.toPlan cached start upTo, x < n → x ∈ wanted.map (·.1)

lemma mem_toPlan : n ∈ m.toPlan cached start upTo ↔
    (start ≤ n ∧ n ≤ upTo) ∧ n ∉ cached ∧ ¬ m.InGaps n := by
  rw [toPlan, Finset.mem_filter, Finset.mem_Icc]

namespace Planned

lemma nil : m.Planned cached start upTo start [] :=
  ⟨by simp, List.nodup_nil, fun x hx hlt => absurd (mem_toPlan.mp hx).1.1 (not_le.mpr hlt)⟩

/-- Nothing there is to plan is passed over. -/
lemma skip {n' : ℕ} (h : m.Planned cached start upTo n wanted) (hle : n ≤ n')
    (hno : ∀ x, n ≤ x → x < n' → x ∉ m.toPlan cached start upTo) :
    m.Planned cached start upTo n' wanted :=
  ⟨fun x hx => ⟨(h.mem x hx).1, (h.mem x hx).2.trans_le hle⟩, h.nodup, fun x hx hlt => by
    by_cases hn : x < n
    · exact h.all x hx hn
    · exact absurd hx (hno x (not_lt.mp hn) hlt)⟩

lemma have_ (h : m.Planned cached start upTo n wanted) (hc : n ∈ cached) :
    m.Planned cached start upTo (n + 1) wanted := by
  refine h.skip (Nat.le_succ n) fun x h1 h2 hx => (mem_toPlan.mp hx).2.1 ?_
  obtain rfl : x = n := by omega
  exact hc

lemma gap (h : m.Planned cached start upTo n wanted) (hg : m.gapEnd n = some last) :
    m.Planned cached start upTo (last + 1) wanted := by
  obtain ⟨g, hmem, hle, hge, rfl⟩ := gapEnd_eq_some hg
  refine h.skip (by omega) fun x h1 h2 hx => (mem_toPlan.mp hx).2.2 ?_
  exact ⟨g, hmem, by omega, by omega⟩

lemma plan (h : m.Planned cached start upTo n wanted) (sum : String) (hs : start ≤ n)
    (hle : n ≤ upTo) (hc : n ∉ cached) (hg : m.gapEnd n = none) :
    m.Planned cached start upTo (n + 1) (wanted ++ [(n, sum)]) := by
  have hn : n ∈ m.toPlan cached start upTo := by
    refine mem_toPlan.mpr ⟨⟨hs, hle⟩, hc, ?_⟩
    rw [← gapEnd_isSome_iff, hg]
    simp
  have hmap : (wanted ++ [(n, sum)]).map (·.1) = wanted.map (·.1) ++ [n] := by simp
  constructor
  · rw [hmap]
    intro x hx
    rcases List.mem_append.mp hx with hx | hx
    · exact ⟨(h.mem x hx).1, (h.mem x hx).2.trans (Nat.lt_succ_self n)⟩
    · obtain rfl := List.mem_singleton.mp hx
      exact ⟨hn, Nat.lt_succ_self _⟩
  · rw [hmap]
    refine List.nodup_append.mpr ⟨h.nodup, List.nodup_singleton n, fun x hx y hy => ?_⟩
    rw [List.mem_singleton.mp hy]
    exact (h.mem x hx).2.ne
  · rw [hmap]
    intro x hx hlt
    by_cases heq : x = n
    · exact List.mem_append_right _ (List.mem_singleton.mpr heq)
    · exact List.mem_append_left _ (h.all x hx (by omega))

/-- There is no more in the plan than there is to plan. -/
lemma length_le (h : m.Planned cached start upTo n wanted) :
    wanted.length ≤ (m.toPlan cached start upTo).card := by
  rw [← List.length_map (f := (·.1)), ← List.toFinset_card_of_nodup h.nodup]
  exact Finset.card_le_card fun x hx => (h.mem x (List.mem_toFinset.mp hx)).1

/-- Past the window, the plan is whole. -/
lemma card_le (h : m.Planned cached start upTo n wanted) (hn : upTo < n) :
    (m.toPlan cached start upTo).card ≤ wanted.length := by
  rw [← List.length_map (f := (·.1)), ← List.toFinset_card_of_nodup h.nodup]
  refine Finset.card_le_card fun x hx => List.mem_toFinset.mpr (h.all x hx ?_)
  exact lt_of_le_of_lt (mem_toPlan.mp hx).1.2 hn

lemma good (h : m.Planned cached start upTo n wanted) (hlatest : upTo ≤ latest) :
    m.GoodPlan cached start latest wanted := by
  refine ⟨fun w hw => ?_, h.nodup⟩
  have hin := mem_toPlan.mp (h.mem w.1 (List.mem_map.mpr ⟨w, hw, rfl⟩)).1
  exact ⟨hin.1.1, hin.1.2.trans hlatest, hin.2⟩

end Planned

/-! ### The loop -/

/-- There is room for another, and the walk has not left the window. -/
abbrev Room (upTo : ℕ) (max : ℤ) (sq : ℕ) (wanted : List (ℕ × String)) : Prop :=
  sq ≤ upTo ∧ (wanted.length : ℤ) < max

-- their equations are made here, once, and not by the first lemmas that ask for them
section
attribute [local simp] plan
end

lemma plan_done (h : ¬ Room upTo max sq wanted) :
    m.plan cached upTo max (fuel + 1) sq wanted = some wanted := by
  rw [plan, if_neg h]

lemma plan_cached (h : Room upTo max sq wanted) (hc : sq ∈ cached) :
    m.plan cached upTo max (fuel + 1) sq wanted =
      m.plan cached upTo max fuel (wrapU64 (sq + 1)) wanted := by
  rw [plan, if_pos h, if_pos hc]

lemma plan_gap (h : Room upTo max sq wanted) (hc : sq ∉ cached) (hg : m.gapEnd sq = some last) :
    m.plan cached upTo max (fuel + 1) sq wanted =
      m.plan cached upTo max fuel (wrapU64 (last + 1)) wanted := by
  rw [plan, if_pos h, if_neg hc, hg]

lemma plan_new (h : Room upTo max sq wanted) (hc : sq ∉ cached) (hg : m.gapEnd sq = none) :
    m.plan cached upTo max (fuel + 1) sq wanted =
      m.plan cached upTo max fuel (wrapU64 (sq + 1)) (wanted ++ [(sq, m.checksumOf sq)]) := by
  rw [plan, if_pos h, if_neg hc, hg]

/-- Nothing is taken out of the plan. -/
lemma prefix_of_plan (h : m.plan cached upTo max fuel sq wanted = some wanted') :
    wanted <+: wanted' := by
  induction fuel generalizing sq wanted with
  | zero => exact absurd h (by simp [plan])
  | succ fuel ih =>
      by_cases hr : Room upTo max sq wanted
      · by_cases hc : sq ∈ cached
        · exact ih (plan_cached hr hc ▸ h)
        · cases hg : m.gapEnd sq with
          | some last => exact ih (plan_gap hr hc hg ▸ h)
          | none => exact (List.prefix_append _ _).trans (ih (plan_new hr hc hg ▸ h))
      · rw [plan_done hr] at h
        exact (Option.some.inj h) ▸ List.prefix_rfl

/-- A walk that comes to its end with some fuel does so with more. -/
lemma plan_mono {fuel' : ℕ} (h : m.plan cached upTo max fuel sq wanted = some wanted')
    (hle : fuel ≤ fuel') : m.plan cached upTo max fuel' sq wanted = some wanted' := by
  induction fuel generalizing fuel' sq wanted with
  | zero => exact absurd h (by simp [plan])
  | succ fuel ih =>
      obtain ⟨k, rfl⟩ : ∃ k, fuel' = k + 1 := ⟨fuel' - 1, by omega⟩
      by_cases hr : Room upTo max sq wanted
      · by_cases hc : sq ∈ cached
        · rw [plan_cached hr hc] at h ⊢
          exact ih h (by omega)
        · cases hg : m.gapEnd sq with
          | some last =>
              rw [plan_gap hr hc hg] at h ⊢
              exact ih h (by omega)
          | none =>
              rw [plan_new hr hc hg] at h ⊢
              exact ih h (by omega)
      · rw [plan_done hr] at h ⊢
        exact h

/-- The end of a gap is past its sequences, and at most the last of all. -/
lemma Fits.gapEnd (hm : m.Fits) (hg : m.gapEnd sq = some last) : sq ≤ last ∧ last < 2 ^ 64 := by
  obtain ⟨g, hmem, -, hge, rfl⟩ := gapEnd_eq_some hg
  exact ⟨hge, (hm.gaps g hmem).2⟩

/-! ### When it plans as it should -/

/-- A walk over what is cached or lost plans nothing. -/
lemma Passes.plans_nothing (h : m.Passes cached upTo False sq) (hup : upTo < 2 ^ 64) (max : ℤ)
    (wanted : List (ℕ × String)) :
    ∃ fuel, m.plan cached upTo max fuel sq wanted = some wanted := by
  induction h with
  | past h _ => exact ⟨1, plan_done fun hr => absurd hr.1 (not_le.mpr h)⟩
  | @next sq hle h hp ih =>
      by_cases hr : Room upTo max sq wanted
      · obtain ⟨fuel, hfuel⟩ := ih
        refine ⟨fuel + 1, ?_⟩
        rw [plan_cached hr (h.resolve_right fun h => h.1), wrapU64_of_lt (hp.lt hup), hfuel]
      · exact ⟨1, plan_done hr⟩
  | @gap sq last hle hc hg hp ih =>
      by_cases hr : Room upTo max sq wanted
      · obtain ⟨fuel, hfuel⟩ := ih
        refine ⟨fuel + 1, ?_⟩
        rw [plan_gap hr hc hg, wrapU64_of_lt (hp.lt hup), hfuel]
      · exact ⟨1, plan_done hr⟩

/-- The loop comes to a right end if its walk gets past the window, or the plan is full before,
or the second walk passes over everything; by induction on what is left below `2 ^ 64`. -/
lemma Planned.plans_well (hm : m.Fits) (hup : upTo < 2 ^ 64) (hlatest : upTo ≤ latest)
    (k : ℕ) : ∀ {n : ℕ} {wanted : List (ℕ × String)}, n + k = 2 ^ 64 → start ≤ n →
    m.Planned cached start upTo n wanted →
    (max ≤ (m.toPlan cached start upTo).card ∨ m.Passes cached upTo True n ∨
      m.Passes cached upTo False 0) →
    ∃ fuel wanted', m.plan cached upTo max fuel (wrapU64 n) wanted = some wanted' ∧
      m.GoodPlan cached start latest wanted' := by
  induction k using Nat.strong_induction_on with
  | _ k ih =>
      intro n wanted hk hstart hp hcond
      by_cases hn : n = 2 ^ 64
      · -- the counter wraps: the plan is full, or the second walk adds nothing to it
        subst hn
        rcases hcond with hmax | hpass | hzero
        · refine ⟨1, wanted, plan_done fun hr => ?_, hp.good hlatest⟩
          have := hp.card_le hup
          have := hr.2
          omega
        · exact absurd (hpass.lt hup) (lt_irrefl _)
        · obtain ⟨fuel, hfuel⟩ := hzero.plans_nothing hup max wanted
          exact ⟨fuel, wanted, hfuel, hp.good hlatest⟩
      · rw [wrapU64_of_lt (by omega)]
        by_cases hr : Room upTo max n wanted
        · by_cases hc : n ∈ cached
          · obtain ⟨fuel, wanted', hplan, hgood⟩ := ih (k - 1) (by omega) (n := n + 1) (by omega)
              (by omega) (hp.have_ hc) (hcond.imp_right fun h => h.imp_left fun h => by
                cases h with
                | past h => exact absurd hr.1 (not_le.mpr h)
                | next _ _ hp => exact hp
                | gap _ hc' => exact absurd hc hc')
            exact ⟨fuel + 1, wanted', (plan_cached hr hc).trans hplan, hgood⟩
          · cases hg : m.gapEnd n with
            | some last =>
                have hlast := hm.gapEnd hg
                obtain ⟨fuel, wanted', hplan, hgood⟩ := ih (2 ^ 64 - (last + 1)) (by omega)
                  (n := last + 1) (by omega) (by omega) (hp.gap hg)
                  (hcond.imp_right fun h => h.imp_left fun h => by
                    cases h with
                    | past h => exact absurd hr.1 (not_le.mpr h)
                    | next _ h _ =>
                        exact (h.elim hc fun h => by simp [hg] at h).elim
                    | gap _ _ hg' hp =>
                        obtain rfl := Option.some.inj (hg.symm.trans hg')
                        exact hp)
                exact ⟨fuel + 1, wanted', (plan_gap hr hc hg).trans hplan, hgood⟩
            | none =>
                obtain ⟨fuel, wanted', hplan, hgood⟩ := ih (k - 1) (by omega) (n := n + 1)
                  (by omega) (by omega) (hp.plan _ hstart hr.1 hc hg)
                  (hcond.imp_right fun h => h.imp_left fun h => by
                    cases h with
                    | past h => exact absurd hr.1 (not_le.mpr h)
                    | next _ _ hp => exact hp
                    | gap _ _ hg' => exact absurd (hg.symm.trans hg') (by simp))
                exact ⟨fuel + 1, wanted', (plan_new hr hc hg).trans hplan, hgood⟩
        · exact ⟨1, wanted, plan_done hr, hp.good hlatest⟩

/-- After the wrap, with the plan whole and room left, the loop never comes to a right end
unless the second walk passes over everything. -/
lemma not_good_after_wrap (hm : m.Fits) (hzero : ¬ m.Passes cached upTo False 0)
    (hall : ∀ x ∈ m.toPlan cached start upTo, x ∈ wanted.map (·.1))
    (hroom : (wanted.length : ℤ) < max) (hsq : sq < 2 ^ 64)
    (hpass : ¬ m.Passes cached upTo False sq)
    (h : m.plan cached upTo max fuel sq wanted = some wanted') :
    ¬ m.GoodPlan cached start latest wanted' := by
  -- the next place of the walk, wrapped or not
  have hgo : ∀ n ≤ 2 ^ 64, ¬ m.Passes cached upTo False n →
      ¬ m.Passes cached upTo False (wrapU64 n) ∧ wrapU64 n < 2 ^ 64 := by
    intro n hn hno
    refine ⟨?_, Nat.mod_lt _ (by norm_num)⟩
    by_cases heq : n = 2 ^ 64
    · subst heq
      exact hzero
    · rwa [wrapU64_of_lt (by omega)]
  induction fuel generalizing sq with
  | zero => exact absurd h (by simp [plan])
  | succ fuel ih =>
      have hle : sq ≤ upTo := not_lt.mp fun hlt => hpass (.past hlt hsq)
      have hr : Room upTo max sq wanted := ⟨hle, hroom⟩
      by_cases hc : sq ∈ cached
      · rw [plan_cached hr hc] at h
        obtain ⟨hpass', hlt⟩ := hgo (sq + 1) (by omega) fun hp => hpass (.next hle (.inl hc) hp)
        exact ih hlt hpass' h
      · cases hg : m.gapEnd sq with
        | some last =>
            rw [plan_gap hr hc hg] at h
            obtain ⟨hpass', hlt⟩ := hgo (last + 1) (hm.gapEnd hg).2
              fun hp => hpass (.gap hle hc hg hp)
            exact ih hlt hpass' h
        | none =>
            -- what is planned now is below the window, or there twice
            rw [plan_new hr hc hg] at h
            have hpre := prefix_of_plan h
            rintro ⟨hgood, hnodup⟩
            obtain ⟨hstart, -⟩ := hgood (sq, m.checksumOf sq) (hpre.subset (by simp))
            have hin : sq ∈ wanted.map (·.1) := by
              refine hall sq (mem_toPlan.mpr ⟨⟨hstart, hle⟩, hc, ?_⟩)
              rw [← gapEnd_isSome_iff, hg]
              simp
            have hn := (hpre.map (·.1)).sublist.nodup hnodup
            rw [List.map_append] at hn
            exact List.disjoint_of_nodup_append hn hin (by simp)

/-- Before the wrap, by induction on the rounds. -/
lemma Planned.not_good (hm : m.Fits) (hup : upTo < 2 ^ 64)
    (hmax : ¬ max ≤ (m.toPlan cached start upTo).card) (hzero : ¬ m.Passes cached upTo False 0)
    (hp : m.Planned cached start upTo n wanted) (hn : n ≤ 2 ^ 64) (hstart : start ≤ n)
    (hpass : ¬ m.Passes cached upTo True n)
    (h : m.plan cached upTo max fuel (wrapU64 n) wanted = some wanted') :
    ¬ m.GoodPlan cached start latest wanted' := by
  induction fuel generalizing n wanted with
  | zero => exact absurd h (by simp [Manifest.plan])
  | succ fuel ih =>
      have hroom : (wanted.length : ℤ) < max := by
        have := hp.length_le
        omega
      by_cases hwrap : n = 2 ^ 64
      · subst hwrap
        refine not_good_after_wrap hm hzero (fun x hx => hp.all x hx ?_) hroom (by norm_num) hzero h
        exact lt_of_le_of_lt (mem_toPlan.mp hx).1.2 hup
      · rw [wrapU64_of_lt (by omega)] at h
        have hle : n ≤ upTo := not_lt.mp fun hlt => hpass (.past hlt (by omega))
        have hr : Room upTo max n wanted := ⟨hle, hroom⟩
        by_cases hc : n ∈ cached
        · rw [plan_cached hr hc] at h
          exact ih (hp.have_ hc) (by omega) (by omega)
            (fun hp => hpass (.next hle (.inl hc) hp)) h
        · cases hg : m.gapEnd n with
          | some last =>
              have hlast := hm.gapEnd hg
              rw [plan_gap hr hc hg] at h
              exact ih (hp.gap hg) (by omega) (by omega) (fun hp => hpass (.gap hle hc hg hp)) h
          | none =>
              rw [plan_new hr hc hg] at h
              exact ih (hp.plan _ hstart hle hc hg) (by omega) (by omega)
                (fun hp => hpass (.next hle (.inr ⟨trivial, hg⟩) hp)) h

end Manifest

namespace DecoderSession

/-! ### The session -/

/-- Where `pump_downloads` stops planning. -/
def pumpEnd (cfg : DecoderConfig) (s : DecoderSession) : ℕ :=
  min s.latestSeq (wrapU64 (s.pumpStart cfg + s.wantAhead cfg))

/-- The session goes by the document `m`; a poll may have filled in the start of the event. -/
structure GoesBy (s : DecoderSession) (m : Manifest) : Prop where
  manifest : s.manifest = { m with startedAtMs := s.manifest.startedAtMs }
  latest : s.latestSeq = m.latestSeq
  first : s.firstAvailableSeq = m.firstAvailableSeq

/-- The planner comes to an end with a right plan. -/
def PlansWell (cfg : DecoderConfig) (s : DecoderSession) (max : ℤ) : Prop :=
  ∃ fuel wanted, s.manifest.plan s.cache.index (s.pumpEnd cfg) max fuel (s.pumpStart cfg) [] =
      some wanted ∧
    s.manifest.GoodPlan s.cache.index (s.pumpStart cfg) s.latestSeq wanted

/-- The planner is the first part of `pump_downloads`. -/
lemma pumpPlan_eq (cfg : DecoderConfig) (s : DecoderSession) (max : ℤ) (fuel : ℕ)
    (he : s.eventId ≠ "") :
    s.pumpPlan cfg max fuel =
      (s.manifest.plan s.cache.index (s.pumpEnd cfg) max fuel (s.pumpStart cfg) []).map
        fun wanted =>
          let p : Pump := { eventId := s.eventId, needInit := !s.cache.hasInit, wanted }
          { s with net := if p.needInit then .fetchingInit p else .fetching p } := by
  rw [pumpPlan, if_neg he]
  rfl

lemma GoesBy.fits {s : DecoderSession} {m : Manifest} (h : s.GoesBy m) (hm : m.Fits) :
    s.manifest.Fits :=
  h.manifest ▸ ⟨hm.first, hm.latest, hm.gaps⟩

lemma pumpStart_lt (cfg : DecoderConfig) {s : DecoderSession} (hhead : s.head < 2 ^ 64)
    (hlatest : s.latestSeq < 2 ^ 64) (hfirst : s.firstAvailableSeq < 2 ^ 64) :
    s.pumpStart cfg < 2 ^ 64 := by
  rw [pumpStart]
  refine max_lt ?_ hfirst
  split
  · exact hhead
  · split
    · exact hfirst
    · rw [behindLive]
      split
      · omega
      · exact hfirst

/-- **The download planner** comes to an end with a right plan exactly when its walk gets past
the window below `2 ^ 64`, or the plan is full before, or the second walk, from zero, passes over
everything; and the skip over a gap raises the head exactly when the gap does not end with the
last sequence of all. -/
theorem plansWell_iff (cfg : DecoderConfig) (s : DecoderSession) (j : Json) (m : Manifest)
    (hj : Manifest.fromJson j = some m) (hs : s.GoesBy m) (hhead : s.head < 2 ^ 64) (max : ℤ) :
    (s.PlansWell cfg max ↔
      max ≤ (s.manifest.toPlan s.cache.index (s.pumpStart cfg) (s.pumpEnd cfg)).card ∨
        s.manifest.Passes s.cache.index (s.pumpEnd cfg) True (s.pumpStart cfg) ∨
        s.manifest.Passes s.cache.index (s.pumpEnd cfg) False 0) ∧
      ((∀ t, s.gapSkip = some t → s.head < t.head) ↔
        s.manifest.gapEnd s.head ≠ some (2 ^ 64 - 1)) := by
  have hm := Manifest.fits_of_fromJson hj
  have hfits := hs.fits hm
  have hlatest : s.latestSeq < 2 ^ 64 := hs.latest ▸ hm.latest
  have hup : s.pumpEnd cfg < 2 ^ 64 := lt_of_le_of_lt (min_le_left _ _) hlatest
  have hstart := pumpStart_lt cfg hhead hlatest (hs.first ▸ hm.first)
  refine ⟨⟨fun h => ?_, fun h => ?_⟩, ⟨fun h hlast => ?_, fun h t ht => ?_⟩⟩
  · obtain ⟨fuel, wanted, hplan, hgood⟩ := h
    by_contra hno
    rw [not_or, not_or] at hno
    rw [← wrapU64_of_lt hstart] at hplan
    exact Manifest.Planned.nil.not_good hfits hup hno.1 hno.2.2 hstart.le le_rfl hno.2.1 hplan hgood
  · obtain ⟨fuel, wanted, hplan, hgood⟩ := Manifest.Planned.nil.plans_well hfits hup
      (min_le_left _ _) (2 ^ 64 - s.pumpStart cfg) (by omega) le_rfl h
    rw [wrapU64_of_lt hstart] at hplan
    exact ⟨fuel, wanted, hplan, hgood⟩
  · have hskip : s.gapSkip = some (s.skipTo 0) := by
      rw [gapSkip, hlast]
      rfl
    exact absurd (h _ hskip) (Nat.not_lt_zero _)
  · obtain ⟨last, hlast, rfl⟩ := Option.map_eq_some_iff.mp ht
    obtain ⟨hle, hlt⟩ := hfits.gapEnd hlast
    have hne : last ≠ 2 ^ 64 - 1 := fun heq => h (heq ▸ hlast)
    show s.head < wrapU64 (last + 1)
    rw [wrapU64_of_lt (by omega)]
    omega

/-! ### Two documents -/

/-- A manifest as the store gives it, with one gap. -/
def gapDocument (latest first last : ℕ) : Json :=
  .obj [("first_available_seq", .int first), ("gaps", .arr [.arr [.int first, .int last]]),
    ("latest_seq", .int latest)]

/-- A session that goes by it, at the start of the gap. -/
def atGap (latest first last : ℕ) : DecoderSession :=
  { manifest := { latestSeq := latest, firstAvailableSeq := first, gaps := [(first, last)] }
    latestSeq := latest
    firstAvailableSeq := first
    head := first
    headSet := true }

/-- The gap is skipped, and the two segments after it are planned. -/
theorem plansWell_iff_sample : (atGap 6 3 4).PlansWell { sha256Hex := fun _ => "" } 10 := by
  have hj : Manifest.fromJson (gapDocument 6 3 4) = some (atGap 6 3 4).manifest := by rfl
  refine (plansWell_iff { sha256Hex := fun _ => "" } (atGap 6 3 4) (gapDocument 6 3 4) _ hj
    ⟨rfl, rfl, rfl⟩ (by decide) 10).1.mpr (Or.inr (Or.inl ?_))
  have hstart : (atGap 6 3 4).pumpStart { sha256Hex := fun _ => "" } = 3 := by rfl
  have hend : (atGap 6 3 4).pumpEnd { sha256Hex := fun _ => "" } = 6 := by decide +kernel
  rw [hstart, hend]
  have hgap : (atGap 6 3 4).manifest.gapEnd 3 = some 4 := by decide
  refine .gap (by decide) (by decide) hgap (.next (by decide) (.inr ?_)
    (.next (by decide) (.inr ?_) (.past (by decide) (by decide))))
  · exact ⟨trivial, by decide⟩
  · exact ⟨trivial, by decide⟩

/-- A gap that ends with the last sequence of all: the planner goes on from zero and plans what is
not in the window, and the skip takes the head back to the start. -/
theorem plans_from_zero :
    ∃ (j : Json) (m : Manifest) (s : DecoderSession), Manifest.fromJson j = some m ∧
      s.GoesBy m ∧ s.head = 5 ∧ ¬ s.PlansWell { sha256Hex := fun _ => "" } 2 ∧
      ∃ t, s.gapSkip = some t ∧ t.head = 0 := by
  refine ⟨gapDocument 10 5 (2 ^ 64 - 1), _, atGap 10 5 (2 ^ 64 - 1), by rfl, ⟨rfl, rfl, rfl⟩, rfl,
    ?_, _, by rfl, by decide⟩
  rintro ⟨fuel, wanted, hplan, hgood, -⟩
  have hend : (atGap 10 5 (2 ^ 64 - 1)).pumpEnd { sha256Hex := fun _ => "" } = 10 := by
    decide +kernel
  have hstart : (atGap 10 5 (2 ^ 64 - 1)).pumpStart { sha256Hex := fun _ => "" } = 5 := by rfl
  rw [hend, hstart] at hplan
  have hfour : (atGap 10 5 (2 ^ 64 - 1)).manifest.plan ∅ 10 2 4 5 [] = some [(0, ""), (1, "")] := by
    decide +kernel
  have hplan := Manifest.plan_mono hplan (le_max_left fuel 4)
  have hfour := Manifest.plan_mono hfour (le_max_right fuel 4)
  obtain rfl := Option.some.inj (hplan.symm.trans hfour)
  have hzero := (hgood (0, "") (by simp)).1
  rw [hstart] at hzero
  exact absurd hzero (by decide)

end DecoderSession

end Multisite
