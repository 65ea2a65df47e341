import Mathlib.Algebra.BigOperators.Ring.List
import Mathlib.Algebra.Order.BigOperators.Group.List
import Mathlib.Algebra.Order.Field.Basic
import Mathlib.Algebra.Order.Field.Rat
import Mathlib.Data.Nat.Find
import Mathlib.Tactic.Linarith
import Mathlib.Tactic.NormNum
import Curator.Split
import Curator.Proofs.Attempts
/-!
How a layer divides the draws among its arms when its numbers are exact. The parts of the arms lie end
to end and cover the draws from 0 to 1, so every key falls into the part of one arm and is given that
arm. Where the parts end further to the right, keys only move to earlier arms.
-/

set_option autoImplicit false

namespace Curator.Split

instance : Share ℚ where
  isLess := inferInstance
  isFinite _ := true
  draw numerator := numerator / 2 ^ 53

def drawn (layer : String) (salted : Bool) (key : String) : ℚ := Share.draw (numerator layer salted key)

structure Divides (ratios : List ℚ) : Prop where
  nonnegative : ∀ ratio ∈ ratios, 0 ≤ ratio
  positive : 0 < ratios.sum

def reach (ratios : List ℚ) (position : Nat) : ℚ := (ratios.take position).sum / ratios.sum

def Holds (draw : ℚ) (ratios : List ℚ) (position : Nat) : Prop :=
  reach ratios position ≤ draw ∧ draw < reach ratios (position + 1)

def Takes (draw : ℚ) (ratios : List ℚ) (position : Nat) : Prop :=
  position < ratios.length ∧ ∀ names : List String, names.length = ratios.length →
    assign draw (names.zip ratios) = .ok names[position]?

/-! Draws. -/

theorem numerator_lt (layer : String) (salted : Bool) (key : String) :
    numerator layer salted key < 2 ^ 53 := by
  have word := (Blake3.leading (hashed layer salted key)).toNat_lt
  rw [numerator, UInt64.toNat_shiftRight]
  simp only [UInt64.reduceToNat, Nat.reduceMod, Nat.shiftRight_eq_div_pow]
  omega

theorem drawn_nonneg (layer : String) (salted : Bool) (key : String) : 0 ≤ drawn layer salted key :=
  div_nonneg (Nat.cast_nonneg _) (by norm_num)

theorem drawn_lt_one (layer : String) (salted : Bool) (key : String) : drawn layer salted key < 1 := by
  have bound : (numerator layer salted key : ℚ) < 2 ^ 53 := by exact_mod_cast numerator_lt layer salted key
  exact (div_lt_one (by norm_num)).mpr bound

/-! Where the parts begin and end. -/

section Reach

variable {ratios : List ℚ} {draw : ℚ} {position other : Nat}

theorem reach_zero : reach ratios 0 = 0 := by
  rw [reach, List.take_zero, List.sum_nil, zero_div]

theorem reach_of_length_le (divides : Divides ratios) (behind : ratios.length ≤ position) :
    reach ratios position = 1 := by
  rw [reach, List.take_of_length_le behind, div_self divides.positive.ne']

theorem reach_mono (divides : Divides ratios) : Monotone (reach ratios) := by
  intro earlier later order
  have part : (ratios.take earlier).Sublist (ratios.take later) := (List.take_prefix_take_left order).sublist
  have less : (ratios.take earlier).sum ≤ (ratios.take later).sum :=
    part.sum_le_sum fun ratio member => divides.nonnegative ratio (List.mem_of_mem_take member)
  exact div_le_div_of_nonneg_right less divides.positive.le

theorem Holds.eq (divides : Divides ratios) (here : Holds draw ratios position) (there : Holds draw ratios other) :
    other = position := by
  rcases Nat.lt_trichotomy other position with before | same | behind
  · have past : reach ratios (other + 1) ≤ reach ratios position := reach_mono divides before
    linarith [there.2, here.1]
  · exact same
  · have past : reach ratios (position + 1) ≤ reach ratios other := reach_mono divides behind
    linarith [here.2, there.1]

theorem ratio_pos_of_holds {arms : List (String × ℚ)} {arm : String × ℚ} (divides : Divides (arms.map Prod.snd))
    (there : arms[position]? = some arm) (holds : Holds draw (arms.map Prod.snd) position) : 0 < arm.2 := by
  have inside : (arms.map Prod.snd)[position]? = some arm.2 := by rw [List.getElem?_map, there, Option.map_some]
  have longer : reach (arms.map Prod.snd) position < reach (arms.map Prod.snd) (position + 1) :=
    holds.1.trans_lt holds.2
  rw [reach, reach, div_lt_div_iff_of_pos_right divides.positive, List.take_add_one, inside,
    List.sum_append] at longer
  simpa using longer

theorem Holds.le {others : List ℚ} (divides : Divides others)
    (further : ∀ count, reach ratios count ≤ reach others count)
    (here : Holds draw ratios position) (there : Holds draw others other) : other ≤ position := by
  by_contra behind
  have past : reach others (position + 1) ≤ reach others other := reach_mono divides (by omega)
  have passed : draw < reach others (position + 1) := here.2.trans_le (further (position + 1))
  linarith [there.1]

theorem reach_pair_le {ratio rest raised left : ℚ} (divides : Divides [ratio, rest])
    (divides' : Divides [raised, left])
    (raise : ratio / (ratio + rest) ≤ raised / (raised + left)) (count : Nat) :
    reach [ratio, rest] count ≤ reach [raised, left] count := by
  match count with
  | 0 => rw [reach_zero, reach_zero]
  | 1 => simpa [reach] using raise
  | count + 2 => rw [reach_of_length_le divides (by simp), reach_of_length_le divides' (by simp)]

theorem exists_holds (divides : Divides ratios) (low : 0 ≤ draw) (high : draw < 1) :
    ∃ position, position < ratios.length ∧ Holds draw ratios position := by
  have passed : ∃ count, draw < reach ratios count :=
    ⟨ratios.length, by rwa [reach_of_length_le divides le_rfl]⟩
  cases found : Nat.find passed with
  | zero =>
      have first := Nat.find_spec passed
      rw [found, reach_zero] at first
      linarith
  | succ position =>
      have here : draw < reach ratios (position + 1) := found ▸ Nat.find_spec passed
      have earlier : reach ratios position ≤ draw := not_lt.mp (Nat.find_min passed (by omega))
      refine ⟨position, ?_, earlier, here⟩
      by_contra outside
      rw [reach_of_length_le divides (not_lt.mp outside)] at earlier
      linarith

end Reach

/-! The walk over the parts. -/

section Pick

variable {arms : List (String × ℚ)} {draw : ℚ}

def shared (arms : List (String × ℚ)) : List (String × ℚ) :=
  arms.map fun arm => (arm.1, arm.2 / (arms.map Prod.snd).sum)

theorem map_snd_nonneg (nonnegative : ∀ arm ∈ arms, 0 ≤ arm.2) : ∀ ratio ∈ arms.map Prod.snd, 0 ≤ ratio := by
  intro ratio member
  obtain ⟨arm, inside, rfl⟩ := List.mem_map.mp member
  exact nonnegative arm inside

theorem total_eq_sum (weights : List ℚ) : total weights = weights.sum := List.sum_eq_foldl.symm

theorem normalize_exact {weights : List ℚ} (divides : Divides weights) :
    normalize weights = .ok (weights.map (· / weights.sum)) := by
  have legal : weights.all usable = true := by
    rw [List.all_eq_true]
    intro weight member
    simpa [usable, Share.isFinite] using divides.nonnegative weight member
  rw [normalize, total_eq_sum, legal]
  exact if_pos divides.positive

theorem assign_eq_pick (divides : Divides (arms.map Prod.snd)) :
    assign draw arms = .ok (pick draw 0 none (shared arms)) := by
  have laid : (arms.map Prod.fst).zip ((arms.map Prod.snd).map (· / (arms.map Prod.snd).sum)) = shared arms := by
    rw [List.map_map, List.zip_map', shared]
    rfl
  rw [assign, normalize_exact divides, ← laid]
  rfl

theorem sum_take_shared (position : Nat) :
    (((shared arms).take position).map Prod.snd).sum = reach (arms.map Prod.snd) position := by
  rw [reach, shared, ← List.map_take, List.map_map, ← List.map_take, div_eq_mul_inv, ← List.sum_map_mul_right]
  simp [Function.comp_def, div_eq_mul_inv]

theorem pick_of_within {reached : ℚ} {position : Nat} {arm : String × ℚ} (nonnegative : ∀ arm ∈ arms, 0 ≤ arm.2)
    (there : arms[position]? = some arm) (low : reached + ((arms.take position).map Prod.snd).sum ≤ draw)
    (high : draw < reached + ((arms.take (position + 1)).map Prod.snd).sum) (last : Option String)
    (later : List (String × ℚ)) : pick draw reached last (arms ++ later) = some arm.1 := by
  induction arms generalizing reached position last with
  | nil => cases there
  | cons first rest ih =>
      obtain ⟨here, others⟩ := List.forall_mem_cons.mp nonnegative
      rcases first with ⟨name, share⟩
      rw [List.cons_append, pick]
      cases position with
      | zero =>
          cases there
          simp only [List.take_zero, List.map_nil, List.sum_nil, List.take_succ_cons, List.map_cons, List.sum_cons,
            add_zero] at low high
          rw [if_pos (by linarith), if_pos high]
      | succ position =>
          simp only [List.take_succ_cons, List.map_cons, List.sum_cons, ← add_assoc] at low high
          have ahead : 0 ≤ ((rest.take position).map Prod.snd).sum := by
            refine List.sum_nonneg (map_snd_nonneg fun arm member => others arm (List.mem_of_mem_take member))
          by_cases part : 0 < share
          · rw [if_pos part, if_neg (by linarith)]
            exact ih others there low high (some name)
          · have empty : share = 0 := le_antisymm (not_lt.mp part) here
            rw [empty, add_zero] at low high
            rw [if_neg part]
            exact ih others there low high last

theorem pick_of_holds {position : Nat} {arm : String × ℚ} (divides : Divides (arms.map Prod.snd))
    (there : arms[position]? = some arm) (holds : Holds draw (arms.map Prod.snd) position) (last : Option String)
    (later : List (String × ℚ)) : pick draw 0 last (shared arms ++ later) = some arm.1 := by
  have nonnegative : ∀ own ∈ shared arms, 0 ≤ own.2 := by
    intro own member
    obtain ⟨given, inside, rfl⟩ := List.mem_map.mp member
    exact div_nonneg (divides.nonnegative _ (List.mem_map_of_mem inside)) divides.positive.le
  have placed : (shared arms)[position]? = some (arm.1, arm.2 / (arms.map Prod.snd).sum) := by
    rw [shared, List.getElem?_map, there]
    rfl
  refine pick_of_within nonnegative placed ?_ ?_ last later
  · rw [sum_take_shared, zero_add]
    exact holds.1
  · rw [sum_take_shared, zero_add]
    exact holds.2

theorem pick_filter (reached : ℚ) (last : Option String) :
    pick draw reached last (arms.filter (0 < ·.2)) = pick draw reached last arms := by
  induction arms generalizing reached last with
  | nil => rfl
  | cons first rest ih =>
      rcases first with ⟨name, share⟩
      by_cases part : 0 < share
      · rw [List.filter_cons_of_pos (by simpa using part), pick, pick, if_pos part, if_pos part, ih]
      · rw [List.filter_cons_of_neg (by simpa using part), pick, if_neg part, ih]

theorem sum_filter (nonnegative : ∀ arm ∈ arms, 0 ≤ arm.2) :
    ((arms.filter (0 < ·.2)).map Prod.snd).sum = (arms.map Prod.snd).sum := by
  induction arms with
  | nil => rfl
  | cons first rest ih =>
      obtain ⟨here, others⟩ := List.forall_mem_cons.mp nonnegative
      by_cases part : 0 < first.2
      · rw [List.filter_cons_of_pos (by simpa using part), List.map_cons, List.sum_cons, ih others, List.map_cons,
          List.sum_cons]
      · have empty : first.2 = 0 := le_antisymm (not_lt.mp part) here
        rw [List.filter_cons_of_neg (by simpa using part), ih others, List.map_cons, List.sum_cons, empty, zero_add]

theorem divides_filter_iff (nonnegative : ∀ arm ∈ arms, 0 ≤ arm.2) :
    Divides ((arms.filter (0 < ·.2)).map Prod.snd) ↔ Divides (arms.map Prod.snd) := by
  have kept : ∀ arm ∈ arms.filter (0 < ·.2), 0 ≤ arm.2 :=
    fun arm member => nonnegative arm (List.mem_of_mem_filter member)
  constructor
  · exact fun divides => ⟨map_snd_nonneg nonnegative, sum_filter nonnegative ▸ divides.positive⟩
  · exact fun divides => ⟨map_snd_nonneg kept, (sum_filter nonnegative).symm ▸ divides.positive⟩

theorem shared_filter (divides : Divides (arms.map Prod.snd)) (nonnegative : ∀ arm ∈ arms, 0 ≤ arm.2) :
    shared (arms.filter (0 < ·.2)) = (shared arms).filter (0 < ·.2) := by
  have parts (arm : String × ℚ) : (0 < arm.2 / (arms.map Prod.snd).sum) ↔ 0 < arm.2 :=
    div_pos_iff_of_pos_right divides.positive
  rw [shared, shared, sum_filter nonnegative, List.filter_map]
  simp [Function.comp_def, parts]

theorem assign_filter (nonnegative : ∀ arm ∈ arms, 0 ≤ arm.2) (divides : Divides (arms.map Prod.snd)) :
    assign draw (arms.filter (0 < ·.2)) = assign draw arms := by
  rw [assign_eq_pick divides, assign_eq_pick ((divides_filter_iff nonnegative).mpr divides),
    shared_filter divides nonnegative, pick_filter]

theorem map_snd_scale (factor : ℚ) :
    (arms.map fun arm => (arm.1, factor * arm.2)).map Prod.snd = (arms.map Prod.snd).map (factor * ·) := by
  simp [Function.comp_def]

theorem sum_scale (factor : ℚ) (ratios : List ℚ) : (ratios.map (factor * ·)).sum = factor * ratios.sum := by
  rw [List.sum_map_mul_left, List.map_id']

theorem divides_scale {factor : ℚ} (above : 0 < factor) (divides : Divides (arms.map Prod.snd)) :
    Divides ((arms.map fun arm => (arm.1, factor * arm.2)).map Prod.snd) := by
  rw [map_snd_scale]
  refine ⟨fun scaled member => ?_, ?_⟩
  · obtain ⟨ratio, inside, rfl⟩ := List.mem_map.mp member
    exact mul_nonneg above.le (divides.nonnegative ratio inside)
  · rw [sum_scale]
    exact mul_pos above divides.positive

theorem shared_scale {factor : ℚ} (above : 0 < factor) :
    shared (arms.map fun arm => (arm.1, factor * arm.2)) = shared arms := by
  rw [shared, map_snd_scale, sum_scale, List.map_map, shared]
  simp only [Function.comp_def, mul_div_mul_left _ _ above.ne']

end Pick

/-- In exact numbers every key of a layer draws a number that is at least 0 and less than 1, and it is
given the arm in whose part the number lies. There is one such position; the arm there has a ratio above
0, and the walk ends at it, whatever arms would come later and whatever it would fall back to. Neither
another scale of the ratios nor arms with ratio 0, put in or left out, change the arm of a key. -/
theorem assign_partitions (layer : String) (salted : Bool) (key : String) {arms : List (String × ℚ)}
    (nonnegative : ∀ arm ∈ arms, 0 ≤ arm.2) (positive : 0 < (arms.map Prod.snd).sum) :
    (0 ≤ drawn layer salted key ∧ drawn layer salted key < 1) ∧
      (∃ position arm, arms[position]? = some arm ∧ assign (drawn layer salted key) arms = .ok (some arm.1) ∧
        (∀ other, Holds (drawn layer salted key) (arms.map Prod.snd) other ↔ other = position) ∧ 0 < arm.2 ∧
        ∀ last later, pick (drawn layer salted key) 0 last (shared arms ++ later) = some arm.1) ∧
      (∀ factor, 0 < factor →
        assign (drawn layer salted key) (arms.map fun arm => (arm.1, factor * arm.2)) =
          assign (drawn layer salted key) arms) ∧
      ∀ others : List (String × ℚ), (∀ arm ∈ others, 0 ≤ arm.2) →
        others.filter (0 < ·.2) = arms.filter (0 < ·.2) →
          assign (drawn layer salted key) others = assign (drawn layer salted key) arms := by
  have divides : Divides (arms.map Prod.snd) := ⟨map_snd_nonneg nonnegative, positive⟩
  have low := drawn_nonneg layer salted key
  have high := drawn_lt_one layer salted key
  refine ⟨⟨low, high⟩, ?_, ?_, ?_⟩
  · obtain ⟨position, inside, holds⟩ := exists_holds divides low high
    rw [List.length_map] at inside
    have there : arms[position]? = some arms[position] := List.getElem?_eq_getElem inside
    have walk := pick_of_holds divides there holds
    refine ⟨position, arms[position], there, ?_, fun other => ?_, ?_, walk⟩
    · rw [assign_eq_pick divides, ← List.append_nil (shared arms), walk none []]
    · exact ⟨holds.eq divides, fun same => same ▸ holds⟩
    · exact ratio_pos_of_holds divides there holds
  · intro factor above
    have scaled : Divides ((arms.map fun arm => (arm.1, factor * arm.2)).map Prod.snd) := divides_scale above divides
    rw [assign_eq_pick scaled, assign_eq_pick divides, shared_scale above]
  · intro others legal same
    have shares : Divides (others.map Prod.snd) :=
      (divides_filter_iff legal).mp (same ▸ (divides_filter_iff nonnegative).mpr divides)
    rw [← assign_filter legal shares, same, assign_filter nonnegative divides]

theorem numerator_home_u1 : numerator "home" true "u1" = 6015678660251331 := by decide +kernel

theorem u1_draws_fresh :
    let arms : List (String × ℚ) := [("plain", 1), ("paused", 0), ("fresh", 2)]
    (∀ arm ∈ arms, 0 ≤ arm.2) ∧ 0 < (arms.map Prod.snd).sum ∧
      assign (drawn "home" true "u1") arms = .ok (some "fresh") ∧
      assign (drawn "home" true "u1") [("plain", 1), ("fresh", 2)] = .ok (some "fresh") := by
  intro arms
  have nonnegative : ∀ arm ∈ arms, 0 ≤ arm.2 := by simp [arms]
  have positive : 0 < (arms.map Prod.snd).sum := by norm_num [arms]
  obtain ⟨-, ⟨position, arm, there, assigned, part, -, -⟩, -, same⟩ :=
    assign_partitions "home" true "u1" nonnegative positive
  have third : position = 2 := by
    refine ((part 2).mp ?_).symm
    rw [drawn, numerator_home_u1]
    constructor <;> norm_num [reach, arms, Share.draw]
  subst third
  cases there
  refine ⟨nonnegative, positive, assigned, ?_⟩
  rw [← assigned]
  exact same _ (by simp) (by norm_num [arms])

/-! Arms by their positions. -/

theorem takes_of_holds {draw : ℚ} {ratios : List ℚ} {position : Nat} (divides : Divides ratios)
    (inside : position < ratios.length) (holds : Holds draw ratios position) : Takes draw ratios position := by
  refine ⟨inside, fun names count => ?_⟩
  have ratioed : (names.zip ratios).map Prod.snd = ratios := List.map_snd_zip (by omega)
  have there : (names.zip ratios)[position]? = some (names[position], ratios[position]) := by
    simp [inside, count]
  have walk := pick_of_holds (ratioed.symm ▸ divides) there (ratioed.symm ▸ holds) none []
  rw [assign_eq_pick (ratioed.symm ▸ divides), ← List.append_nil (shared _), walk,
    List.getElem?_eq_getElem (count ▸ inside)]

theorem Takes.unique {draw : ℚ} {ratios : List ℚ} {position other : Nat} (here : Takes draw ratios position)
    (there : Takes draw ratios other) : position = other := by
  let names : List String := (List.range ratios.length).map fun index => String.ofList (List.replicate index 'a')
  have count : names.length = ratios.length := by simp [names]
  have same := (here.2 names count).symm.trans (there.2 names count)
  simp only [names, List.getElem?_map, List.getElem?_range here.1, List.getElem?_range there.1, Option.map_some,
    Except.ok.injEq, Option.some.injEq, String.ofList_inj] at same
  simpa using congrArg List.length same

/-- Where no part of the second division ends before the part at the same position of the first one, a
key is given an arm that is no later than before, however the layer is called, salted or not. Of two
arms, the first one keeps its keys when its share is raised. -/
theorem assign_monotone (layer : String) (salted : Bool) (key : String) :
    (∀ first second : List ℚ, Divides first → Divides second → (∀ count, reach first count ≤ reach second count) →
      ∃ before after, Takes (drawn layer salted key) first before ∧ Takes (drawn layer salted key) second after ∧
        after ≤ before) ∧
      ∀ ratio rest raised left : ℚ, Divides [ratio, rest] → Divides [raised, left] →
        ratio / (ratio + rest) ≤ raised / (raised + left) →
          Takes (drawn layer salted key) [ratio, rest] 0 → Takes (drawn layer salted key) [raised, left] 0 := by
  have low := drawn_nonneg layer salted key
  have high := drawn_lt_one layer salted key
  have moves {first second : List ℚ} (divides : Divides first) (divides' : Divides second)
      (further : ∀ count, reach first count ≤ reach second count) :
      ∃ before after, Takes (drawn layer salted key) first before ∧ Takes (drawn layer salted key) second after ∧
        after ≤ before := by
    obtain ⟨before, inside, holds⟩ := exists_holds divides low high
    obtain ⟨after, inside', holds'⟩ := exists_holds divides' low high
    exact ⟨before, after, takes_of_holds divides inside holds, takes_of_holds divides' inside' holds',
      holds.le divides' further holds'⟩
  refine ⟨fun first second divides divides' further => moves divides divides' further, ?_⟩
  intro ratio rest raised left divides divides' raise kept
  obtain ⟨before, after, taken, taken', order⟩ := moves divides divides' (reach_pair_le divides divides' raise)
  cases kept.unique taken
  cases Nat.le_zero.mp order
  exact taken'

theorem divides_pair {ratio rest : ℚ} (first : 0 < ratio) (second : 0 ≤ rest) : Divides [ratio, rest] := by
  refine ⟨by simp [first.le, second], ?_⟩
  rw [List.sum_cons, List.sum_singleton]
  exact add_pos_of_pos_of_nonneg first second

theorem u1_moves_forward :
    (Divides [1, 1] ∧ Divides [3, 1] ∧ ∀ count, reach [1, 1] count ≤ reach [3, 1] count) ∧
      (∃ before after, Takes (drawn "home" true "u1") [1, 1] before ∧ Takes (drawn "home" true "u1") [3, 1] after ∧
        after ≤ before) ∧
      Takes (drawn "home" true "u1") [3, 1] 0 ∧ Takes (drawn "home" true "u1") [4, 1] 0 := by
  have half : Divides [1, 1] := divides_pair one_pos one_pos.le
  have most : Divides [3, 1] := divides_pair three_pos one_pos.le
  have further := reach_pair_le half most (by norm_num)
  have first : Takes (drawn "home" true "u1") [3, 1] 0 := by
    refine takes_of_holds most (by simp) ?_
    rw [drawn, numerator_home_u1]
    constructor <;> norm_num [reach, Share.draw]
  obtain ⟨moves, keeps⟩ := assign_monotone "home" true "u1"
  refine ⟨⟨half, most, further⟩, moves _ _ half most further, first, ?_⟩
  exact keeps 3 1 4 1 most (divides_pair four_pos one_pos.le) (by norm_num) first

end Curator.Split
