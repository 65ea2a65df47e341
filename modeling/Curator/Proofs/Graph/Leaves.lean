import Curator.Proofs.Graph.Reach
import Mathlib.Data.List.Forall2
import Mathlib.Data.List.Induction
/-!
The leaves that a walk of the dependencies lists. A walk that succeeds lists, after what was known
before it, the same leaves whatever was known and whatever tasks are around it: so the leaves of a
task are put together from the leaves of its dependencies. It lists the sources that are reached,
and it succeeds only where nothing below depends on itself.
-/

set_option autoImplicit false

namespace Curator

namespace Resolve

theorem visit_ok_iff {tasks : List Task} {path leaves out : List String} {name : String} :
    visit tasks path leaves name = .ok out ↔
      ∃ task, Task.find? tasks name = some task ∧ name ∉ path ∧
        visitAll tasks (path ++ [name]) leaves name task.dependencies = .ok out := by
  rw [visit]
  split
  · rename_i missing
    simp [missing]
  · rename_i task found
    by_cases around : name ∈ path <;> simp [found, around]

theorem visitAll_nil_iff {tasks : List Task} {path leaves out : List String} {owner : String} :
    visitAll tasks path leaves owner [] = .ok out ↔ leaves = out := by
  simp [visitAll]

theorem visitAll_cons_iff {tasks : List Task} {path leaves out : List String}
    {owner dependency : String} {rest : List String} :
    visitAll tasks path leaves owner (dependency :: rest) = .ok out ↔
      ∃ task, Task.find? tasks dependency = some task ∧
        ((task.isSource = true ∧
            visitAll tasks path (addLeaf leaves dependency) owner rest = .ok out) ∨
          (task.isSource = false ∧
            ∃ between, visit tasks path leaves dependency = .ok between ∧
              visitAll tasks path between owner rest = .ok out)) := by
  rw [visitAll]
  cases found : Task.find? tasks dependency with
  | none => simp
  | some task =>
      cases isSource : task.isSource with
      | true => simp [isSource]
      | false =>
          cases visit tasks path leaves dependency with
          | error error => simp [isSource]
          | ok between => simp [isSource]

theorem mem_addLeaf {leaves : List String} {name leaf : String} :
    leaf ∈ addLeaf leaves name ↔ leaf ∈ leaves ∨ leaf = name := by
  by_cases known : name ∈ leaves
  · simp only [addLeaf, if_pos known]
    exact ⟨.inl, fun either => either.elim id fun same => same ▸ known⟩
  · simp [addLeaf, known]

theorem addLeaf_of_mem {leaves : List String} {name : String} (known : name ∈ leaves) :
    addLeaf leaves name = leaves := if_pos known

theorem mem_foldl_addLeaf {met leaves : List String} {leaf : String} :
    leaf ∈ met.foldl addLeaf leaves ↔ leaf ∈ leaves ∨ leaf ∈ met := by
  induction met generalizing leaves with
  | nil => simp
  | cons head tail ih => rw [List.foldl_cons, ih, mem_addLeaf, List.mem_cons, or_assoc]

theorem foldl_addLeaf_nil (met : List String) : met.foldl addLeaf [] = met.eraseDups := by
  -- A leaf is looked for among those before it, so the list is taken apart from the back.
  induction met using List.reverseRec with
  | nil => rfl
  | append_singleton init last ih =>
      rw [List.foldl_append, ih, List.eraseDups_append, List.foldl_cons, List.foldl_nil]
      by_cases known : last ∈ init
      · simp [addLeaf, known, List.removeAll]
      · simp [addLeaf, known, List.removeAll, List.eraseDups_cons]

theorem nodup_foldl_addLeaf {met leaves : List String} (distinct : leaves.Nodup) :
    (met.foldl addLeaf leaves).Nodup := by
  induction met generalizing leaves with
  | nil => exact distinct
  | cons head tail ih =>
      apply ih
      by_cases known : head ∈ leaves
      · rwa [addLeaf_of_mem known]
      · rw [addLeaf, if_neg known]
        have apart : ∀ leaf ∈ leaves, leaf ≠ head := fun leaf member same => known (same ▸ member)
        exact List.nodup_append.mpr ⟨distinct, by simp, by simpa using apart⟩

theorem foldl_addLeaf_foldl (met known leaves : List String) :
    (met.foldl addLeaf known).foldl addLeaf leaves = met.foldl addLeaf (known.foldl addLeaf leaves) := by
  induction met generalizing known with
  | nil => rfl
  | cons head tail ih =>
      rw [List.foldl_cons, List.foldl_cons, ih]
      congr 1
      by_cases repeated : head ∈ known
      · have listed : head ∈ known.foldl addLeaf leaves := mem_foldl_addLeaf.mpr (.inr repeated)
        rw [addLeaf_of_mem repeated, addLeaf_of_mem listed]
      · simp [addLeaf, repeated, List.foldl_append]

theorem foldl_addLeaf_flatten (parts : List (List String)) (leaves : List String) :
    (parts.map List.eraseDups).flatten.foldl addLeaf leaves = parts.flatten.foldl addLeaf leaves := by
  induction parts generalizing leaves with
  | nil => rfl
  | cons head tail ih =>
      rw [List.map_cons, List.flatten_cons, List.flatten_cons, List.foldl_append, List.foldl_append, ih,
        ← foldl_addLeaf_nil, foldl_addLeaf_foldl, List.foldl_nil]

def Adds (tasks : List Task) (path : List String) (dependency : String) (part : List String) : Prop :=
  ∃ task, Task.find? tasks dependency = some task ∧
    ((task.isSource = true ∧ part = [dependency]) ∨
      (task.isSource = false ∧ ∀ around leaves, around ⊆ path →
        visit tasks around leaves dependency = .ok (part.foldl addLeaf leaves)))

mutual
theorem visit_independent (tasks : List Task) (path leaves : List String) (name : String)
    (out : List String) (done : visit tasks path leaves name = .ok out) :
    ∃ task parts, Task.find? tasks name = some task ∧
      List.Forall₂ (Adds tasks (path ++ [name])) task.dependencies parts ∧
      ∀ around known, around ⊆ path →
        visit tasks around known name = .ok (parts.flatten.foldl addLeaf known) := by
  obtain ⟨task, found, fresh, below⟩ := visit_ok_iff.mp done
  obtain ⟨parts, adds, anywhere⟩ :=
    visitAll_independent tasks (path ++ [name]) leaves name task.dependencies out below
  refine ⟨task, parts, found, adds, ?_⟩
  intro around known narrower
  -- Fewer tasks around the walk close no cycle that was not there before.
  refine visit_ok_iff.mpr ⟨task, found, fun inside => fresh (narrower inside), ?_⟩
  apply anywhere
  intro other member
  rcases List.mem_append.mp member with outer | inner
  · exact List.mem_append_left _ (narrower outer)
  · exact List.mem_append_right _ inner
termination_by ((pending tasks path).length, 0)
decreasing_by exact Prod.Lex.left _ _ (pending_snoc_length_lt found fresh)

theorem visitAll_independent (tasks : List Task) (path leaves : List String) (owner : String)
    (dependencies out : List String)
    (done : visitAll tasks path leaves owner dependencies = .ok out) :
    ∃ parts, List.Forall₂ (Adds tasks path) dependencies parts ∧
      ∀ around known, around ⊆ path →
        visitAll tasks around known owner dependencies = .ok (parts.flatten.foldl addLeaf known) := by
  cases dependencies with
  | nil => exact ⟨[], .nil, fun _ _ _ => visitAll_nil_iff.mpr rfl⟩
  | cons dependency rest =>
      obtain ⟨task, found, ⟨isSource, later⟩ | ⟨inner, between, here, later⟩⟩ := visitAll_cons_iff.mp done
      · obtain ⟨parts, adds, anywhere⟩ :=
          visitAll_independent tasks path (addLeaf leaves dependency) owner rest out later
        refine ⟨[dependency] :: parts, .cons ⟨task, found, .inl ⟨isSource, rfl⟩⟩ adds, ?_⟩
        intro around known narrower
        exact visitAll_cons_iff.mpr ⟨task, found, .inl ⟨isSource, anywhere around _ narrower⟩⟩
      · obtain ⟨_, below, _, _, alone⟩ := visit_independent tasks path leaves dependency between here
        obtain ⟨parts, adds, anywhere⟩ := visitAll_independent tasks path between owner rest out later
        refine ⟨below.flatten :: parts, .cons ⟨task, found, .inr ⟨inner, alone⟩⟩ adds, ?_⟩
        intro around known narrower
        refine visitAll_cons_iff.mpr ⟨task, found, .inr ⟨inner, _, alone around known narrower, ?_⟩⟩
        rw [List.flatten_cons, List.foldl_append]
        exact anywhere around _ narrower
termination_by ((pending tasks path).length, dependencies.length + 1)
decreasing_by
  all_goals subst_vars; simp_wf
  all_goals exact Prod.Lex.right _ (by simp)
end

mutual
theorem mem_visit (tasks : List Task) (path leaves : List String) (name : String)
    (out : List String) (done : visit tasks path leaves name = .ok out) (leaf : String) :
    leaf ∈ out ↔ leaf ∈ leaves ∨ (IsSource tasks leaf ∧ Reaches tasks name leaf) := by
  obtain ⟨task, found, fresh, below⟩ := visit_ok_iff.mp done
  rw [mem_visitAll tasks (path ++ [name]) leaves name task.dependencies out below leaf, reaches_iff found]
termination_by ((pending tasks path).length, 0)
decreasing_by exact Prod.Lex.left _ _ (pending_snoc_length_lt found fresh)

theorem mem_visitAll (tasks : List Task) (path leaves : List String) (owner : String)
    (dependencies out : List String)
    (done : visitAll tasks path leaves owner dependencies = .ok out) (leaf : String) :
    leaf ∈ out ↔ leaf ∈ leaves ∨ (IsSource tasks leaf ∧
      ∃ dependency ∈ dependencies, dependency = leaf ∨ Reaches tasks dependency leaf) := by
  cases dependencies with
  | nil =>
      cases visitAll_nil_iff.mp done
      simp
  | cons dependency rest =>
      obtain ⟨task, found, ⟨isSource, later⟩ | ⟨inner, between, here, later⟩⟩ := visitAll_cons_iff.mp done
      · have source : IsSource tasks dependency := ⟨task, found, isSource⟩
        have stops : ¬ Reaches tasks dependency leaf := not_reaches_of_source source
        rw [mem_visitAll tasks path _ owner rest out later leaf, mem_addLeaf]
        simp only [List.mem_cons, exists_eq_or_imp, stops, or_false, @eq_comm _ leaf dependency]
        constructor
        · rintro ((known | same) | ⟨isLeaf, listed⟩)
          · exact .inl known
          · exact .inr ⟨same ▸ source, .inl same⟩
          · exact .inr ⟨isLeaf, .inr listed⟩
        · rintro (known | ⟨isLeaf, same | listed⟩)
          · exact .inl (.inl known)
          · exact .inl (.inr same)
          · exact .inr ⟨isLeaf, listed⟩
      · rw [mem_visitAll tasks path between owner rest out later leaf,
          mem_visit tasks path leaves dependency between here leaf]
        simp only [List.mem_cons, exists_eq_or_imp]
        constructor
        · rintro ((known | ⟨isLeaf, reached⟩) | ⟨isLeaf, listed⟩)
          · exact .inl known
          · exact .inr ⟨isLeaf, .inl (.inr reached)⟩
          · exact .inr ⟨isLeaf, .inr listed⟩
        · rintro (known | ⟨isLeaf, (same | reached) | listed⟩)
          · exact .inl (.inl known)
          · obtain ⟨other, found', isSource⟩ := isLeaf
            rw [same] at found
            cases Option.some.inj (found.symm.trans found')
            simp [inner] at isSource
          · exact .inl (.inr ⟨isLeaf, reached⟩)
          · exact .inr ⟨isLeaf, listed⟩
termination_by ((pending tasks path).length, dependencies.length + 1)
decreasing_by
  all_goals subst_vars; simp_wf
  all_goals exact Prod.Lex.right _ (by simp)
end

mutual
theorem visit_outside (tasks : List Task) (path leaves : List String) (name : String)
    (out : List String) (done : visit tasks path leaves name = .ok out) (passed next : String)
    (below : Relation.ReflTransGen (Depends tasks) name passed) (onward : Depends tasks passed next) :
    passed ∉ path := by
  obtain ⟨task, found, fresh, inner⟩ := visit_ok_iff.mp done
  rcases Relation.reflTransGen_iff_eq_or_transGen.mp below with same | later
  · exact same ▸ fresh
  · obtain ⟨dependency, member, reached⟩ := (reaches_iff found).mp later
    intro inside
    apply visitAll_outside tasks (path ++ [name]) leaves name task.dependencies out inner dependency
      member passed next ?_ onward (List.mem_append_left _ inside)
    exact Relation.reflTransGen_iff_eq_or_transGen.mpr (reached.imp Eq.symm id)
termination_by ((pending tasks path).length, 0)
decreasing_by exact Prod.Lex.left _ _ (pending_snoc_length_lt found fresh)

theorem visitAll_outside (tasks : List Task) (path leaves : List String) (owner : String)
    (dependencies out : List String)
    (done : visitAll tasks path leaves owner dependencies = .ok out) (dependency : String)
    (member : dependency ∈ dependencies) (passed next : String)
    (below : Relation.ReflTransGen (Depends tasks) dependency passed)
    (onward : Depends tasks passed next) : passed ∉ path := by
  cases dependencies with
  | nil => simp at member
  | cons first rest =>
      obtain ⟨task, found, ⟨isSource, later⟩ | ⟨inner, between, here, later⟩⟩ := visitAll_cons_iff.mp done
      · rcases List.mem_cons.mp member with same | behind
        · have source : IsSource tasks dependency := same ▸ ⟨task, found, isSource⟩
          rcases Relation.reflTransGen_iff_eq_or_transGen.mp below with equal | further
          · exact absurd onward (equal ▸ not_depends_of_source source)
          · exact absurd further (not_reaches_of_source source)
        · exact visitAll_outside tasks path _ owner rest out later dependency behind passed next below onward
      · rcases List.mem_cons.mp member with same | behind
        · exact visit_outside tasks path leaves first between here passed next (same ▸ below) onward
        · exact visitAll_outside tasks path between owner rest out later dependency behind passed next
            below onward
termination_by ((pending tasks path).length, dependencies.length + 1)
decreasing_by
  all_goals subst_vars; simp_wf
  all_goals exact Prod.Lex.right _ (by simp)
end

end Resolve

theorem mem_resolve {tasks : List Task} {name leaf : String} {leaves : List String}
    (resolved : resolve tasks name = .ok leaves) :
    leaf ∈ leaves ↔ IsSource tasks leaf ∧ Reaches tasks name leaf := by
  simpa using Resolve.mem_visit tasks [] [] name leaves resolved leaf

theorem not_reaches_self_of_resolve {tasks : List Task} {name : String} {leaves : List String}
    (resolved : resolve tasks name = .ok leaves) : ¬ Reaches tasks name name := by
  intro around
  obtain ⟨task, found, -, below⟩ := Resolve.visit_ok_iff.mp resolved
  obtain ⟨dependency, member, reached⟩ := (reaches_iff found).mp around
  obtain ⟨next, onward, -⟩ := Relation.TransGen.head'_iff.mp around
  -- On its way around, the walk would pass the name below the name itself.
  have again := Relation.reflTransGen_iff_eq_or_transGen.mpr (reached.imp Eq.symm id)
  have outside := Resolve.visitAll_outside tasks ([] ++ [name]) [] name task.dependencies leaves below
    dependency member name next again onward
  simp at outside

def Contributes (tasks : List Task) (dependency : String) (part : List String) : Prop :=
  ∃ task, Task.find? tasks dependency = some task ∧
    ((task.isSource = true ∧ part = [dependency]) ∨
      (task.isSource = false ∧ resolve tasks dependency = .ok part))

theorem contributes_of_adds {tasks : List Task} {path : List String} {dependency : String}
    {part : List String} (adds : Resolve.Adds tasks path dependency part) :
    ∃ own, Contributes tasks dependency own ∧ own.eraseDups = part.eraseDups := by
  obtain ⟨task, found, ⟨isSource, rfl⟩ | ⟨inner, alone⟩⟩ := adds
  · exact ⟨_, ⟨task, found, .inl ⟨isSource, rfl⟩⟩, rfl⟩
  · refine ⟨_, ⟨task, found, .inr ⟨inner, alone [] [] (List.nil_subset _)⟩⟩, ?_⟩
    rw [← Resolve.foldl_addLeaf_nil, Resolve.foldl_addLeaf_foldl, List.foldl_nil,
      Resolve.foldl_addLeaf_nil]

theorem contributions_of_adds {tasks : List Task} {path dependencies : List String}
    {parts : List (List String)} (adds : List.Forall₂ (Resolve.Adds tasks path) dependencies parts) :
    ∃ owns, List.Forall₂ (Contributes tasks) dependencies owns ∧
      owns.map List.eraseDups = parts.map List.eraseDups := by
  induction adds with
  | nil => exact ⟨[], .nil, rfl⟩
  | cons first _ ih =>
      obtain ⟨own, contributes, same⟩ := contributes_of_adds first
      obtain ⟨owns, others, equal⟩ := ih
      exact ⟨own :: owns, .cons contributes others, by rw [List.map_cons, List.map_cons, same, equal]⟩

/-- The leaves of a task are the sources that it reaches, each once; and they are what its
dependencies contribute one after the other, each leaf where it is first met. -/
theorem resolve_lists_leaves {tasks : List Task} {name : String} {leaves : List String}
    (resolved : resolve tasks name = .ok leaves) :
    leaves.Nodup ∧
      (∀ leaf, leaf ∈ leaves ↔ IsSource tasks leaf ∧ Reaches tasks name leaf) ∧
      ∃ task parts, Task.find? tasks name = some task ∧
        List.Forall₂ (Contributes tasks) task.dependencies parts ∧
        leaves = parts.flatten.eraseDups := by
  obtain ⟨task, parts, found, adds, anywhere⟩ := Resolve.visit_independent tasks [] [] name leaves resolved
  obtain ⟨owns, contributes, same⟩ := contributions_of_adds adds
  have listed : leaves = parts.flatten.foldl Resolve.addLeaf [] :=
    Except.ok.inj (resolved.symm.trans (anywhere [] [] (List.Subset.refl _)))
  refine ⟨?_, fun leaf => mem_resolve resolved, task, owns, found, contributes, ?_⟩
  · exact listed ▸ Resolve.nodup_foldl_addLeaf List.nodup_nil
  · rw [listed, ← Resolve.foldl_addLeaf_flatten, ← same, Resolve.foldl_addLeaf_flatten,
      Resolve.foldl_addLeaf_nil]

def sharedTransforms : List Task := [
  .source ⟨"users", [], none, none⟩, .source ⟨"items", [], none, none⟩,
  .source ⟨"clicks", [], none, none⟩,
  .feature ⟨"user_feature", ["users"], none, []⟩,
  .feature ⟨"item_feature", ["items", "users"], none, []⟩,
  .transform ⟨"inner", ["item_feature"], [], none, [], []⟩,
  .transform ⟨"outer", ["user_feature"], ["inner"], none, [], []⟩,
  .transform ⟨"top", ["clicks"], ["outer", "inner"], none, [], []⟩]

theorem shared_transforms_leaves :
    resolve sharedTransforms "top" = .ok ["clicks", "users", "items"] ∧
      (∀ leaf, leaf ∈ ["clicks", "users", "items"] ↔
        IsSource sharedTransforms leaf ∧ Reaches sharedTransforms "top" leaf) ∧
      ∃ task parts, Task.find? sharedTransforms "top" = some task ∧
        List.Forall₂ (Contributes sharedTransforms) task.dependencies parts ∧
        ["clicks", "users", "items"] = parts.flatten.eraseDups := by
  have resolved : resolve sharedTransforms "top" = .ok ["clicks", "users", "items"] := by cbv
  exact ⟨resolved, (resolve_lists_leaves resolved).2⟩

end Curator
