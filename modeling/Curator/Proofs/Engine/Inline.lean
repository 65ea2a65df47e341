import Curator.Proofs.Graph.WellFormed
import Curator.Proofs.Registry
import Curator.Proofs.Table.Stack
/-!
Sources with rows of their own: what passed the checks of the flow cannot fail a request. The whole
table has been taken by the declared columns, and so is every part of it that a filter leaves.
-/

set_option autoImplicit false

namespace Curator

def Source.visible (source : Source) (request : Request) (rows : List Row) : List Row :=
  match source.filter with
  | none => rows
  | some filter => match request.text? filter.parameter with
      | none => []
      | some text => rows.filter fun row => Table.keyIn filter.column row = some text

theorem Source.visible_sublist (source : Source) (request : Request) (rows : List Row) :
    (source.visible request rows).Sublist rows := by
  rw [Source.visible]
  split
  · exact List.Sublist.refl rows
  · split
    · exact List.nil_sublist rows
    · exact List.filter_sublist

theorem Source.typed_of_fits {source : Source} {rows : List Row} (fits : ∀ row ∈ rows, row.Fits source.columns) :
    source.typed rows = .ok [⟨source.name, source.columns, rows.map (Row.pick source.columns)⟩] := by
  obtain ⟨table, made⟩ : ∃ table, Table.ofRows source.name source.columns rows = .ok table :=
    Table.ofRows_ok_iff.mpr fits
  rw [Source.typed, made, Table.ofRows_eq_pick made]

theorem Source.plan_inline {source : Source} {rows : List Row} (fits : ∀ row ∈ rows, row.Fits source.columns)
    (request : Request) :
    source.plan (some rows) request =
      .succeed [⟨source.name, source.columns, (source.visible request rows).map (Row.pick source.columns)⟩] := by
  have typed : source.typed (source.visible request rows) = _ :=
    Source.typed_of_fits fun row member => fits row ((source.visible_sublist request rows).subset member)
  rw [Plan.succeed, ← typed, Source.plan, Source.query?]
  cases filtered : source.filter with
  | none => simp [Source.visible, Source.select, filtered]
  | some filter =>
      cases given : request.text? filter.parameter with
      | none =>
          have nothing : source.typed [] = .ok [⟨source.name, source.columns, []⟩] :=
            Source.typed_of_fits (by simp)
          simp [Source.visible, filtered, given, nothing, Plan.succeed, Table.empty]
      | some text => simp [Source.visible, Source.select, filtered, given, beq_eq_decide]

section Inline

variable {flow : Flow} {graph : Graph} {offer : Offer} {registry : Registry} {name : String}
  {source : Source} {rows : List Row}

theorem Registry.worker?_inline (accepted : Graph.ofFlow flow = .ok graph)
    (built : Registry.build graph offer = .ok registry) (found : graph.lookup name = some (.source source))
    (inline : source.rows = some rows) (unoffered : name ∉ offer.sources)
    (unreplaced : ∀ replacement ∈ offer.replacements, replacement.name ≠ name) :
    registry.worker? name = some (.inline source rows) := by
  have named : source.name = name := Task.name_of_find? found
  have provides := Registry.provides_of_build (Graph.sound_of_ofFlow accepted) built found
  generalize registry.worker? name = carried at provides
  cases provides with
  | replaced counts same => exact absurd (same.trans named) (unreplaced _ counts.mem)
  | backed _ offered => exact absurd (named ▸ offered) unoffered
  | inline _ _ own => cases inline.symm.trans own; rfl
  | outside _ _ nothing => cases inline.symm.trans nothing
  | configured _ inner => cases inner

/-- A source with rows of its own answers every errand of every request, without asking anyone and
without a failure, when its flow was accepted and nobody was put in its place. Its only output has
the declared columns and those of the rows that the request gets to see, in their order, each with
the declared columns only. -/
theorem Registry.inline_answers (accepted : Graph.ofFlow flow = .ok graph)
    (built : Registry.build graph offer = .ok registry) (found : graph.lookup name = some (.source source))
    (inline : source.rows = some rows) (unoffered : name ∉ offer.sources)
    (unreplaced : ∀ replacement ∈ offer.replacements, replacement.name ≠ name) :
    ∃ worker, registry.worker? name = some worker ∧ worker.kind = .dataService ∧
      ∀ request, ∃ shown : List Row,
        (∀ input, worker.execute request input =
          .succeed [⟨name, source.columns, shown.map (Row.pick source.columns)⟩]) ∧
        (∀ errand, Errand.plan request worker errand =
          .succeed [⟨name, source.columns, shown.map (Row.pick source.columns)⟩]) ∧
        (source.filter = none → shown = rows) ∧
        ∀ filter, source.filter = some filter →
          (∃ column ∈ source.columns, column.name = filter.column) ∧
            (request.text? filter.parameter = none → shown = []) ∧
            ∀ text, request.text? filter.parameter = some text →
              shown = rows.filter fun row => Table.keyIn filter.column row = some text := by
  have named : source.name = name := Task.name_of_find? found
  have faultless := (Graph.sound_of_ofFlow accepted).faultless _ (Task.mem_of_find? found)
  have consistent : source.Consistent := source.fault?_eq_none_iff.mp faultless
  refine ⟨.inline source rows, Registry.worker?_inline accepted built found inline unoffered unreplaced, rfl, ?_⟩
  intro request
  have executes (input : List Table) : (Worker.inline source rows).execute request input =
      .succeed [⟨name, source.columns, (source.visible request rows).map (Row.pick source.columns)⟩] :=
    named ▸ Source.plan_inline (consistent.fits rows inline) request
  refine ⟨source.visible request rows, executes, ?_, ?_, ?_⟩
  · intro errand
    cases errand with
    | run _ input => exact executes input
    | process | fetch =>
        rw [Errand.plan, Worker.process, executes]
        rfl
  · intro unfiltered
    rw [Source.visible, unfiltered]
  · intro filter filtered
    refine ⟨consistent.filtered filter filtered, fun missing => ?_, fun text given => ?_⟩
    · simp only [Source.visible, filtered, missing]
    · simp only [Source.visible, filtered, given]

end Inline

def visitsRows : List Row := [
  [("user", .number (.int 7)), ("item", .string "i1"), ("note", .string "x")],
  [("item", .string "i2"), ("user", .number (.int 8))],
  [("item", .string "i3")],
  [("user", .number (.int 7))]]

def visitsSource : Source :=
  ⟨"visits", [⟨"user", .int64⟩, ⟨"item", .str⟩], some visitsRows, some ⟨"user", "by"⟩⟩

def visitsFlow : Flow := { Flow.empty with sources := [visitsSource] }

def visitsGraph : Graph := ⟨visitsFlow.tasks, [], [("visits", [])]⟩

def visitsRegistry : Registry := ⟨visitsGraph, [("visits", .inline visitsSource visitsRows)]⟩

theorem visits_answer_by_text :
    ∃ worker, visitsRegistry.worker? "visits" = some worker ∧
      worker.execute (.ofParams [("by", .string "7")]) [] = .succeed [⟨"visits", visitsSource.columns,
        [[("user", .number (.int 7)), ("item", .string "i1")], [("user", .number (.int 7)), ("item", .null)]]⟩] ∧
      worker.execute .empty [] = .succeed [⟨"visits", visitsSource.columns, []⟩] := by
  have accepted : Graph.ofFlow visitsFlow = .ok visitsGraph :=
    Graph.ofFlow_ok_iff.mpr ⟨rfl, rfl, rfl, rfl, .cons (by cbv) .nil⟩
  have built : Registry.build visitsGraph .empty = .ok visitsRegistry := rfl
  have found : visitsGraph.lookup "visits" = some (.source visitsSource) := rfl
  obtain ⟨worker, carried, -, answers⟩ :=
    Registry.inline_answers accepted built found rfl (by decide) fun _ member => absurd member List.not_mem_nil
  obtain ⟨shown, executes, -, -, filtered⟩ := answers (.ofParams [("by", .string "7")])
  obtain ⟨-, -, selects⟩ := filtered ⟨"user", "by"⟩ rfl
  obtain ⟨none, executes', -, -, filtered'⟩ := answers .empty
  obtain ⟨-, nothing, -⟩ := filtered' ⟨"user", "by"⟩ rfl
  refine ⟨worker, carried, (executes []).trans ?_, (executes' []).trans ?_⟩
  · rw [selects "7" rfl]
    rfl
  · rw [nothing rfl]
    rfl

end Curator
