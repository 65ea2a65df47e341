import Curator.Proofs.Decimal.Nonnegative
import Curator.Proofs.Graph.WellFormed
import Curator.Split
import Mathlib.Data.List.Induction
/-!
Which weights are taken as shares, in the arithmetic of doubles, and what becomes of them. Their sum is
built up one by one and rounded each time, but it never gets so far ahead of all weights that none of
them has a part in it, unless it leaves the range of doubles. Then every share is zero, and a layer with
such ratios has no arm for any key.
-/

set_option autoImplicit false

namespace Curator.Split

open Double

/-! Running totals. -/

inductive Sums (weights : List Float) (sum : Float) : Prop where
  | zero (zeros : ∀ weight ∈ weights, IsZero weight) (empty : IsZero sum)
  | finite {weight : Float} {mantissa mantissa' : Nat} {exponent exponent' : Int} (member : weight ∈ weights)
      (amounts : Amounts weight mantissa exponent) (summed : Amounts sum mantissa' exponent')
      (near : exponent' ≤ exponent + 55)
  | infinite {weight : Float} {mantissa : Nat} {exponent : Int} (member : weight ∈ weights)
      (amounts : Amounts weight mantissa exponent) (beyond : IsInfinite sum)

theorem Sums.add {weights : List Float} {sum weight : Float} (sums : Sums weights sum)
    (nonnegative : Nonnegative weight) : Sums (weights ++ [weight]) (sum + weight) := by
  have last : weight ∈ weights ++ [weight] := by simp
  cases sums with
  | zero zeros empty =>
      rcases nonnegative with nothing | ⟨mantissa, exponent, amounts⟩
      · refine .zero (List.forall_mem_append.mpr ⟨zeros, ?_⟩) (empty.add nothing)
        exact List.forall_mem_singleton.mpr nothing
      · exact .finite last amounts (empty.add_amounts amounts) (by omega)
  | @finite _ _ _ _ reached member amounts summed near =>
      rcases nonnegative with nothing | ⟨mantissa, exponent, further⟩
      · exact .finite (List.mem_append_left _ member) amounts (summed.add_zero nothing) near
      · by_cases far : exponent + 54 ≤ reached
        · exact .finite (List.mem_append_left _ member) amounts (summed.add_absorbs further far) near
        · rcases summed.add further with ⟨_, _, larger, bound⟩ | beyond
          · exact .finite last further larger (by omega)
          · exact .infinite last further beyond
  | infinite member amounts beyond =>
      exact .infinite (List.mem_append_left _ member) amounts (beyond.add nonnegative)

theorem sums_total {weights : List Float} (nonnegative : ∀ weight ∈ weights, Nonnegative weight) :
    Sums weights (total weights) := by
  induction weights using List.reverseRecOn with
  | nil => exact .zero (by simp) ⟨_, unpack_zero⟩
  | append_singleton weights weight ih =>
      obtain ⟨earlier, last⟩ := List.forall_mem_append.mp nonnegative
      have longer := (ih earlier).add (last weight (List.mem_singleton_self weight))
      rwa [total, List.foldl_append]

section Normalize

variable {weights shares : List Float}

theorem usable_iff {weight : Float} : usable weight = true ↔ Nonnegative weight := by
  rw [nonnegative_iff, usable, Bool.and_eq_true, Bool.not_eq_true', decide_eq_false_iff_not]
  rfl

theorem normalize_eq_ok_iff :
    normalize weights = .ok shares ↔
      (∀ weight ∈ weights, Nonnegative weight) ∧ 0.0 < total weights ∧ shares = weights.map (· / total weights) := by
  rw [normalize]
  by_cases legal : weights.all usable = true
  · have nonnegative : ∀ weight ∈ weights, Nonnegative weight :=
      fun weight member => usable_iff.mp (List.all_eq_true.mp legal weight member)
    rw [legal, Bool.not_true, if_neg Bool.false_ne_true]
    change (if 0.0 < total weights then Except.ok (weights.map (· / total weights))
      else .error WeightFault.zeroTotal) = _ ↔ _
    by_cases positive : 0.0 < total weights
    · rw [if_pos positive, Except.ok.injEq]
      exact ⟨fun same => ⟨nonnegative, positive, same.symm⟩, fun facts => facts.2.2.symm⟩
    · rw [if_neg positive]
      exact iff_of_false nofun fun facts => positive facts.2.1
  · rw [Bool.eq_false_iff.mpr legal, Bool.not_false, if_pos rfl]
    refine iff_of_false nofun fun facts => legal ?_
    exact List.all_eq_true.mpr fun weight member => usable_iff.mpr (facts.1 weight member)

theorem total_pos_iff (nonnegative : ∀ weight ∈ weights, Nonnegative weight) :
    0.0 < total weights ↔ ∃ weight ∈ weights, 0.0 < weight := by
  cases sums_total nonnegative with
  | zero zeros empty =>
      refine iff_of_false empty.not_pos fun found => ?_
      obtain ⟨weight, member, positive⟩ := found
      exact (zeros weight member).not_pos positive
  | finite member amounts summed near => exact iff_of_true summed.pos ⟨_, member, amounts.pos⟩
  | infinite member amounts beyond => exact iff_of_true beyond.pos ⟨_, member, amounts.pos⟩

theorem exists_share_pos (taken : normalize weights = .ok shares) (finite : (total weights).isFinite = true) :
    ∃ share ∈ shares, 0.0 < share := by
  obtain ⟨nonnegative, positive, rfl⟩ := normalize_eq_ok_iff.mp taken
  cases sums_total nonnegative with
  | zero zeros empty => exact absurd positive empty.not_pos
  | finite member amounts summed near => exact ⟨_, List.mem_map_of_mem member, amounts.div_pos summed near⟩
  | infinite member amounts beyond => cases finite.symm.trans beyond.not_finite

theorem shares_zero (taken : normalize weights = .ok shares) (infinite : (total weights).isFinite = false) :
    ∀ share ∈ shares, IsZero share := by
  obtain ⟨nonnegative, positive, rfl⟩ := normalize_eq_ok_iff.mp taken
  have beyond : IsInfinite (total weights) := by
    rcases zero_lt_iff.mp positive with amounts | beyond
    · cases infinite.symm.trans (nonnegative_iff.mp (.inr amounts)).1
    · exact beyond
  intro share member
  obtain ⟨weight, inside, rfl⟩ := List.mem_map.mp member
  exact (nonnegative weight inside).div_infinite beyond

end Normalize

/-! Layers. -/

theorem pick_eq_last {arms : List (String × Float)} (partless : ∀ arm ∈ arms, ¬ 0.0 < arm.2) (draw reached : Float)
    (last : Option String) : pick draw reached last arms = last := by
  induction arms with
  | nil => rfl
  | cons arm rest ih =>
      obtain ⟨here, later⟩ := List.forall_mem_cons.mp partless
      rw [pick]
      exact (if_neg here).trans (ih later)

theorem pick_isSome {arms : List (String × Float)} (draw reached : Float) {last : Option String}
    (present : last.isSome = true ∨ ∃ arm ∈ arms, 0.0 < arm.2) : (pick draw reached last arms).isSome = true := by
  induction arms generalizing reached last with
  | nil => exact present.resolve_right (by simp)
  | cons arm rest ih =>
      rw [pick]
      change Option.isSome (if 0.0 < arm.2 then _ else _) = true
      by_cases positive : 0.0 < arm.2
      · rw [if_pos positive]
        by_cases within : draw < reached + arm.2
        · rw [if_pos within]
          rfl
        · rw [if_neg within]
          exact ih _ (.inl rfl)
      · rw [if_neg positive]
        refine ih _ (present.imp_right fun found => ?_)
        obtain ⟨other, member, above⟩ := found
        rcases List.mem_cons.mp member with rfl | later
        · exact absurd above positive
        · exact ⟨other, later, above⟩

end Curator.Split

namespace Curator.Layer

open Split Double

variable {layer : Layer} {shares : List Float}

theorem map_snd_zip_shares (taken : normalize (layer.arms.map Arm.ratio) = .ok shares) :
    ((layer.arms.map Arm.name).zip shares).map Prod.snd = shares := by
  obtain ⟨-, -, rfl⟩ := normalize_eq_ok_iff.mp taken
  exact List.map_snd_zip (by simp)

theorem assign_eq_pick (taken : normalize (layer.arms.map Arm.ratio) = .ok shares) (key : String) :
    layer.assign key =
      match pick (Share.draw (numerator layer.name layer.salted key)) 0.0 none
        ((layer.arms.map Arm.name).zip shares) with
      | none => .error (.noArms layer.name)
      | some experiment => .ok experiment := by
  have assigned : Split.assign (Share.draw (numerator layer.name layer.salted key) : Float)
      (layer.arms.map fun arm => (arm.name, arm.ratio)) =
      .ok (pick (Share.draw (numerator layer.name layer.salted key)) 0.0 none
        ((layer.arms.map Arm.name).zip shares)) := by
    rw [Split.assign, List.map_map, List.map_map]
    exact congrArg (· >>= _) taken
  rw [Layer.assign, assigned]
  cases pick (Share.draw (numerator layer.name layer.salted key) : Float) 0.0 none _ <;> rfl

theorem assign_of_finite (taken : normalize (layer.arms.map Arm.ratio) = .ok shares)
    (finite : (total (layer.arms.map Arm.ratio)).isFinite = true) (key : String) :
    ∃ experiment, layer.assign key = .ok experiment := by
  obtain ⟨share, member, positive⟩ := exists_share_pos taken finite
  rw [← map_snd_zip_shares taken] at member
  obtain ⟨arm, inside, rfl⟩ := List.mem_map.mp member
  obtain ⟨experiment, picked⟩ := Option.isSome_iff_exists.mp
    (pick_isSome (Share.draw (numerator layer.name layer.salted key)) 0.0 (.inr ⟨arm, inside, positive⟩))
  exact ⟨experiment, by rw [assign_eq_pick taken, picked]⟩

theorem assign_of_infinite (taken : normalize (layer.arms.map Arm.ratio) = .ok shares)
    (infinite : (total (layer.arms.map Arm.ratio)).isFinite = false) (key : String) :
    layer.assign key = .error (.noArms layer.name) := by
  have partless : ∀ arm ∈ (layer.arms.map Arm.name).zip shares, ¬ 0.0 < arm.2 := fun arm member =>
    (shares_zero taken infinite arm.2 (List.of_mem_zip member).2).not_pos
  rw [assign_eq_pick taken, pick_eq_last partless]

end Curator.Layer

namespace Curator.Split

open Double

theorem normalize_of_accepted {flow : Flow} {graph : Graph} {layer : Layer} (accepted : Graph.ofFlow flow = .ok graph)
    (member : layer ∈ flow.layers) (positive : ∃ weight ∈ layer.arms.map Arm.ratio, 0.0 < weight) :
    ∃ shares, normalize (layer.arms.map Arm.ratio) = .ok shares := by
  have task : Task.layer layer ∈ flow.tasks := by simp [Flow.tasks, member]
  obtain ⟨-, legal⟩ := (Graph.wellFormed_of_ofFlow accepted).consistent _ task
  have nonnegative : ∀ weight ∈ layer.arms.map Arm.ratio, Nonnegative weight := by
    intro weight inside
    obtain ⟨arm, listed, rfl⟩ := List.mem_map.mp inside
    exact nonnegative_iff.mpr (legal arm listed)
  exact ⟨_, normalize_eq_ok_iff.mpr ⟨nonnegative, (total_pos_iff nonnegative).mpr positive, rfl⟩⟩

/-- Weights are taken as shares when they are finite and not negative and have a positive sum, also when
the sum is infinite; the shares are all zero in this case and in no other. When the weights are the
ratios of a layer that is part of a graph, they are taken as soon as one of them is positive, and the
layer has an arm for every key when their sum is finite, and for none when it is not. -/
theorem normalize_accepts (weights : List Float) :
    ((∃ shares, normalize weights = .ok shares) ↔
        (∀ weight ∈ weights, weight.isFinite = true ∧ ¬ weight < 0.0) ∧ 0.0 < total weights) ∧
      (∀ shares, normalize weights = .ok shares →
        ((∀ share ∈ shares, (share == 0.0) = true) ↔ (total weights).isFinite = false)) ∧
      ∀ (flow : Flow) (graph : Graph) (layer : Layer), Graph.ofFlow flow = .ok graph → layer ∈ flow.layers →
        layer.arms.map Arm.ratio = weights → (∃ weight ∈ weights, 0.0 < weight) →
          (∃ shares, normalize weights = .ok shares) ∧
            ((total weights).isFinite = true → ∀ key, ∃ experiment, layer.assign key = .ok experiment) ∧
            ((total weights).isFinite = false → ∀ key, layer.assign key = .error (.noArms layer.name)) := by
  refine ⟨?_, fun shares taken => ⟨?_, ?_⟩, ?_⟩
  · simp only [normalize_eq_ok_iff, nonnegative_iff]
    exact ⟨fun taken => ⟨taken.choose_spec.1, taken.choose_spec.2.1⟩, fun facts => ⟨_, facts.1, facts.2, rfl⟩⟩
  · intro zero
    by_contra finite
    obtain ⟨share, member, positive⟩ := exists_share_pos taken (by simpa using finite)
    cases (zero share member).symm.trans (beq_zero_of_pos positive)
  · exact fun infinite share member => (shares_zero taken infinite share member).beq_zero
  · intro flow graph layer accepted member same positive
    subst same
    obtain ⟨shares, taken⟩ := normalize_of_accepted accepted member positive
    exact ⟨⟨shares, taken⟩, Layer.assign_of_finite taken, Layer.assign_of_infinite taken⟩

theorem overflowing_weights_taken :
    ¬ ∀ weights : List Float, (∃ shares, normalize weights = .ok shares) ↔
      (∀ weight ∈ weights, weight.isFinite = true ∧ ¬ weight < 0.0) ∧
        0.0 < total weights ∧ (total weights).isFinite = true := by
  intro exactly
  have taken : normalize [1e308, 1e308] = .ok [0.0, 0.0] := by decide +kernel
  have infinite : (total [1e308, 1e308] : Float).isFinite = false := by decide +kernel
  obtain ⟨-, -, finite⟩ := (exactly _).mp ⟨_, taken⟩
  cases infinite.symm.trans finite

def steepFlow : Flow :=
  { Flow.empty with
    services := [⟨"recall", [], [], none, none, false, none⟩]
    experiments := [⟨"plain", ["recall"], none⟩, ⟨"ranked", ["recall"], none⟩]
    layers := [⟨"home", true, [⟨"plain", 1e308⟩, ⟨"ranked", 1e308⟩]⟩] }

theorem steep_layer_has_no_arm :
    ∃ graph layer, Graph.ofFlow steepFlow = .ok graph ∧ layer ∈ steepFlow.layers ∧
      (∃ ratio ∈ layer.arms.map Arm.ratio, 0.0 < ratio) ∧ ∀ key, layer.assign key = .error (.noArms "home") := by
  have walks : ∀ task ∈ steepFlow.tasks,
      Resolve.visitWithin steepFlow.tasks (steepFlow.tasks.length + 1) [] [] task.name = some (.ok []) := by
    decide +kernel
  have accepted : Graph.ofFlow steepFlow =
      .ok ⟨steepFlow.tasks, [], steepFlow.tasks.map fun task => (task.name, [])⟩ := by
    refine Graph.ofFlow_ok_iff.mpr ⟨rfl, by decide +kernel, rfl, rfl, ?_⟩
    refine List.forall₂_map_right_iff.mpr (List.forall₂_same.mpr fun task member => ?_)
    rw [Resolve.resolve_of_visitWithin (walks task member)]
    rfl
  have positive : ∃ ratio ∈ [(1e308 : Float), 1e308], 0.0 < ratio := by decide +kernel
  have infinite : (total [1e308, 1e308] : Float).isFinite = false := by decide +kernel
  obtain ⟨-, -, layers⟩ := normalize_accepts [1e308, 1e308]
  obtain ⟨-, -, unassigned⟩ := layers steepFlow _ _ accepted List.mem_cons_self rfl positive
  exact ⟨_, _, accepted, List.mem_cons_self, positive, unassigned infinite⟩

end Curator.Split
