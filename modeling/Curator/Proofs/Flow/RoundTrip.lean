import Curator.Flow.Decode
import Curator.Graph
import Curator.Proofs.Column
import Curator.Proofs.Document
/-!
Task flows are read back from the documents they are written to, section by section and member by
member.
-/

set_option autoImplicit false

namespace Curator

open Document

@[simp] theorem ColumnType.decode?_encode (type : ColumnType) : decode? type.encode = some type := by
  change (parse? type.name).toOption = some type
  rw [parse?_name]
  rfl

@[simp] theorem Column.decode?_encode (column : Column) : decode? column.encode = some column := by
  have members : members? shape.names column.encode = some _ := Json.members?_whole rfl (by decide)
  simp [decode?, members, required?, List.lookup_cons]

theorem Filter.decode?_encode (filter : Filter) : decode? filter.encode = some filter := by
  have members : members? shape.names filter.encode = some _ := Json.members?_whole rfl (by decide)
  simp [decode?, members, required?, List.lookup_cons]

@[simp] theorem Json.list?_ofColumns (columns : List Column) :
    list? Column.decode? (Json.ofList Column.encode columns) = some columns :=
  list?_ofList fun column _ => column.decode?_encode

theorem Source.decode?_encode (source : Source) : decode? source.encode = some source := by
  have members : members? shape.names source.encode = some _ := Json.members?_whole rfl (by decide)
  have rows : optional? (list? row?) (Json.ofOption (.ofList .object) source.rows) = some source.rows :=
    Json.optional?_ofOption fun rows _ => ⟨Json.list?_ofList fun row _ => rfl, rfl⟩
  have filter : optional? Filter.decode? (Json.ofOption Filter.encode source.filter) = some source.filter :=
    Json.optional?_ofOption fun filter _ => ⟨filter.decode?_encode, rfl⟩
  simp [decode?, members, required?, optionalOr?, memberOr?, List.lookup_cons, rows, filter]

theorem Feature.decode?_encode (feature : Feature) : decode? feature.encode = some feature := by
  have members : members? shape.names feature.encode = some _ := Json.members?_whole rfl (by decide)
  simp [decode?, members, required?, listOr?, optionalOr?, memberOr?, List.lookup_cons]

theorem Formula.ofName?_name (formula : Formula) : ofName? formula.name = some formula := by
  cases formula <;> rfl

def Action.Finite (action : Action) : Prop := ∀ weight ∈ action.weights, weight.isFinite = true

theorem Action.decode?_encode {action : Action} (finite : action.Finite) : decode? action.encode = some action := by
  have members : members? shape.names action.encode = some _ := Json.members?_whole rfl (by decide)
  have formula : (choice? (Json.string action.formula.name)).bind Formula.ofName? = some action.formula :=
    action.formula.ofName?_name
  have weights : list? real? (Json.ofList .ofFloat action.weights) = some action.weights :=
    Json.list?_ofList fun weight member => Json.float?_ofFloat (finite weight member)
  simp [decode?, members, required?, listOr?, optionalOr?, memberOr?, List.lookup_cons, formula, weights]

theorem Transform.decode?_encode {transform : Transform} (finite : ∀ action ∈ transform.actions, action.Finite) :
    decode? transform.encode = some transform := by
  have members : members? shape.names transform.encode = some _ := Json.members?_whole rfl (by decide)
  have actions : list? Action.decode? (Json.ofList Action.encode transform.actions) = some transform.actions :=
    Json.list?_ofList fun action member => Action.decode?_encode (finite action member)
  simp [decode?, members, required?, listOr?, optionalOr?, memberOr?, List.lookup_cons, actions]

theorem Service.decode?_encode {service : Service} (fits : ∀ limit ∈ service.limit, Number.IsNat64 limit) :
    decode? service.encode = some service := by
  have members : members? shape.names service.encode = some _ := Json.members?_whole rfl (by decide)
  simp [decode?, members, required?, listOr?, optionalOr?, memberOr?, List.lookup_cons, Json.optional?_ofNat fits]

theorem Ranking.decode?_encode {ranking : Ranking} (fits : ∀ limit ∈ ranking.limit, Number.IsNat64 limit) :
    decode? ranking.encode = some ranking := by
  have members : members? shape.names ranking.encode = some _ := Json.members?_whole rfl (by decide)
  simp [decode?, members, required?, optionalOr?, memberOr?, List.lookup_cons, Json.optional?_ofNat fits]

theorem Experiment.decode?_encode {experiment : Experiment}
    (fits : ∀ ranking ∈ experiment.ranking, ∀ limit ∈ ranking.limit, Number.IsNat64 limit) :
    decode? experiment.encode = some experiment := by
  have members : members? shape.names experiment.encode = some _ := Json.members?_whole rfl (by decide)
  have ranking :
      optional? Ranking.decode? (Json.ofOption Ranking.encode experiment.ranking) = some experiment.ranking :=
    Json.optional?_ofOption fun ranking member => ⟨Ranking.decode?_encode (fits ranking member), rfl⟩
  simp [decode?, members, required?, optionalOr?, memberOr?, List.lookup_cons, ranking]

theorem Arm.decode?_encode {arm : Arm} (finite : arm.ratio.isFinite = true) : decode? arm.encode = some arm := by
  have members : members? shape.names arm.encode = some _ := Json.members?_whole rfl (by decide)
  have ratio : real? (Json.ofFloat arm.ratio) = some arm.ratio := Json.float?_ofFloat finite
  simp [decode?, members, required?, List.lookup_cons, ratio]

theorem Layer.decode?_encode {layer : Layer} (finite : ∀ arm ∈ layer.arms, arm.ratio.isFinite = true) :
    decode? layer.encode = some layer := by
  have members : members? shape.names layer.encode = some _ := Json.members?_whole rfl (by decide)
  have split : decodeSplit? (Json.object [("kind", .string "hash"), ("saltWithLayer", .bool layer.salted)]) =
      some layer.salted := rfl
  have arms : list? Arm.decode? (Json.ofList Arm.encode layer.arms) = some layer.arms :=
    Json.list?_ofList fun arm member => Arm.decode?_encode (finite arm member)
  simp [decode?, members, required?, memberOr?, List.lookup_cons, split, arms]

theorem Scene.decode?_encode {scene : Scene} (fits : ∀ limit ∈ scene.limit, Number.IsNat64 limit) :
    decode? scene.encode = some scene := by
  have members : members? shape.names scene.encode = some _ := Json.members?_whole rfl (by decide)
  simp [decode?, members, required?, listOr?, optionalOr?, memberOr?, List.lookup_cons, Json.optional?_ofNat fits]

theorem Model.decode?_encode {model : Model} (fits : ∀ timeout ∈ model.timeout, Number.IsNat64 timeout) :
    decode? model.encode = some model := by
  have members : members? shape.names model.encode = some _ := Json.members?_whole rfl (by decide)
  simp [decode?, members, required?, optionalOr?, memberOr?, List.lookup_cons, Json.optional?_ofNat fits]

structure Flow.Finite (flow : Flow) : Prop where
  weights : ∀ transform ∈ flow.transforms, ∀ action ∈ transform.actions, action.Finite
  ratios : ∀ layer ∈ flow.layers, ∀ arm ∈ layer.arms, arm.ratio.isFinite = true

structure Flow.Fits (flow : Flow) : Prop where
  services : ∀ service ∈ flow.services, ∀ limit ∈ service.limit, Number.IsNat64 limit
  rankings : ∀ experiment ∈ flow.experiments, ∀ ranking ∈ experiment.ranking, ∀ limit ∈ ranking.limit,
    Number.IsNat64 limit
  scenes : ∀ scene ∈ flow.scenes, ∀ limit ∈ scene.limit, Number.IsNat64 limit
  timeouts : ∀ model ∈ flow.models, ∀ timeout ∈ model.timeout, Number.IsNat64 timeout

namespace Flow

theorem decode?_encode {flow : Flow} (finite : flow.Finite) (fits : flow.Fits) :
    decode? flow.encode = some flow := by
  have members : members? shape.names flow.encode = some _ := Json.members?_whole rfl (by decide)
  have sources : list? Source.decode? (Json.ofList Source.encode flow.sources) = some flow.sources :=
    Json.list?_ofList fun source _ => source.decode?_encode
  have features : list? Feature.decode? (Json.ofList Feature.encode flow.features) = some flow.features :=
    Json.list?_ofList fun feature _ => feature.decode?_encode
  have transforms : list? Transform.decode? (Json.ofList Transform.encode flow.transforms) = some flow.transforms :=
    Json.list?_ofList fun transform member => Transform.decode?_encode (finite.weights transform member)
  have services : list? Service.decode? (Json.ofList Service.encode flow.services) = some flow.services :=
    Json.list?_ofList fun service member => Service.decode?_encode (fits.services service member)
  have experiments :
      list? Experiment.decode? (Json.ofList Experiment.encode flow.experiments) = some flow.experiments :=
    Json.list?_ofList fun experiment member => Experiment.decode?_encode (fits.rankings experiment member)
  have layers : list? Layer.decode? (Json.ofList Layer.encode flow.layers) = some flow.layers :=
    Json.list?_ofList fun layer member => Layer.decode?_encode (finite.ratios layer member)
  have scenes : list? Scene.decode? (Json.ofList Scene.encode flow.scenes) = some flow.scenes :=
    Json.list?_ofList fun scene member => Scene.decode?_encode (fits.scenes scene member)
  have models : list? Model.decode? (Json.ofList Model.encode flow.models) = some flow.models :=
    Json.list?_ofList fun model member => Model.decode?_encode (fits.timeouts model member)
  simp [decode?, members, listOr?, memberOr?, List.lookup_cons, sources, features, transforms, services,
    experiments, layers, scenes, models]

end Flow

/-! ## Documents -/

section Read

variable {α : Type} [Document α] {tree : α}

theorem Service.fits_of_decode? (reads : ReadsNat64 α) {service : Service} (read : decode? tree = some service) :
    ∀ limit ∈ service.limit, Number.IsNat64 limit := by
  simp only [decode?, Option.bind_eq_bind, Option.bind_eq_some_iff] at read
  obtain ⟨members, -, name, -, pulls, -, columns, -, dedupBy, -, orderBy, -, descending, -, limit, limited, same⟩ :=
    read
  cases same
  exact reads.optionalOr? limited

theorem Ranking.fits_of_decode? (reads : ReadsNat64 α) {ranking : Ranking} (read : decode? tree = some ranking) :
    ∀ limit ∈ ranking.limit, Number.IsNat64 limit := by
  simp only [decode?, Option.bind_eq_bind, Option.bind_eq_some_iff] at read
  obtain ⟨members, -, model, -, features, -, scoreColumn, -, limit, limited, same⟩ := read
  cases same
  exact reads.optionalOr? limited

theorem Experiment.fits_of_decode? (reads : ReadsNat64 α) {experiment : Experiment}
    (read : decode? tree = some experiment) :
    ∀ ranking ∈ experiment.ranking, ∀ limit ∈ ranking.limit, Number.IsNat64 limit := by
  simp only [decode?, Option.bind_eq_bind, Option.bind_eq_some_iff] at read
  obtain ⟨members, -, name, -, chain, -, ranking, ranked, same⟩ := read
  cases same
  intro ranking member
  obtain ⟨inner, found⟩ := mem_of_optionalOr? ranked ranking member
  exact Ranking.fits_of_decode? reads found

theorem Scene.fits_of_decode? (reads : ReadsNat64 α) {scene : Scene} (read : decode? tree = some scene) :
    ∀ limit ∈ scene.limit, Number.IsNat64 limit := by
  simp only [decode?, Option.bind_eq_bind, Option.bind_eq_some_iff] at read
  obtain ⟨members, -, name, -, chain, -, columns, -, limit, limited, same⟩ := read
  cases same
  exact reads.optionalOr? limited

theorem Model.fits_of_decode? (reads : ReadsNat64 α) {model : Model} (read : decode? tree = some model) :
    ∀ timeout ∈ model.timeout, Number.IsNat64 timeout := by
  simp only [decode?, Option.bind_eq_bind, Option.bind_eq_some_iff] at read
  obtain ⟨members, -, name, -, address, -, timeout, limited, same⟩ := read
  cases same
  exact reads.optionalOr? limited

theorem Flow.fits_of_decode? (reads : ReadsNat64 α) {flow : Flow} (read : decode? tree = some flow) : flow.Fits := by
  simp only [decode?, Option.bind_eq_bind, Option.bind_eq_some_iff] at read
  obtain ⟨members, -, sources, -, features, -, transforms, -, services, served, experiments, tried, layers, -, scenes,
    shown, models, asked, same⟩ := read
  cases same
  constructor
  case services =>
    intro service member
    obtain ⟨inner, found⟩ := mem_of_listOr? served service member
    exact Service.fits_of_decode? reads found
  case rankings =>
    intro experiment member
    obtain ⟨inner, found⟩ := mem_of_listOr? tried experiment member
    exact Experiment.fits_of_decode? reads found
  case scenes =>
    intro scene member
    obtain ⟨inner, found⟩ := mem_of_listOr? shown scene member
    exact Scene.fits_of_decode? reads found
  case timeouts =>
    intro model member
    obtain ⟨inner, found⟩ := mem_of_listOr? asked model member
    exact Model.fits_of_decode? reads found

end Read

/-- A flow whose numbers can be written is read back from what it is written to. So a flow that was
read from a JSON document or from text, and that has finite weights and ratios, is the same after it
has been written and read once more, and it comes to the same graph or is refused for the same reason. -/
theorem Flow.read_back :
    (∀ flow : Flow, flow.Finite → flow.Fits → decode? flow.encode = some flow) ∧
      (∀ (document : Json) (flow : Flow), decode? document = some flow → flow.Finite →
        decode? flow.encode = some flow ∧
          (decode? flow.encode).map Graph.ofFlow = (decode? document).map Graph.ofFlow) ∧
      ∀ (text : String) (flow : Flow), parse? text = some flow → flow.Finite →
        decode? flow.encode = some flow ∧ (decode? flow.encode).map Graph.ofFlow = (parse? text).map Graph.ofFlow := by
  refine ⟨fun flow finite fits => decode?_encode finite fits, ?_, ?_⟩
  · intro document flow read finite
    have back := decode?_encode finite (fits_of_decode? Json.readsNat64 read)
    exact ⟨back, by rw [back, read]⟩
  · intro text flow parsed finite
    obtain ⟨tree, -, read⟩ := Option.bind_eq_some_iff.mp parsed
    have back := decode?_encode finite (fits_of_decode? Yaml.Tree.readsNat64 read)
    exact ⟨back, by rw [back, parsed]⟩

def ratedFlow : Flow where
  sources := [⟨"users", [⟨"id", .str⟩, ⟨"tags", .list (.list .str)⟩],
    some [[("id", .string "u1"), ("tags", .array [.array [.string "new"], .null])]], some ⟨"id", "id"⟩⟩]
  features := [⟨"profile", ["users"], some "id", []⟩]
  transforms := [⟨"rated", ["profile"], [], none,
    [⟨⟨"rating", .double⟩, .weightedSum, ["clicks", "age"], [0.75, -0.5], some "/"⟩], []⟩]
  services := [⟨"hot", ["rated"], [], none, some "rating", true, some 10⟩]
  experiments := [⟨"plain", ["hot"], none⟩, ⟨"ranked", ["hot"], some ⟨"ctr", ["rating"], "score", none⟩⟩]
  layers := [⟨"split", true, [⟨"plain", 0.5⟩, ⟨"ranked", 1.5⟩]⟩]
  scenes := [⟨"home", ["split"], [], some 20⟩]
  models := [⟨"ctr", "http://localhost:9000", some 1500⟩]

def scantFlow : Flow :=
  { Flow.empty with
    services := [⟨"hot", [], [], none, none, true, none⟩]
    layers := [⟨"split", true, [⟨"plain", 0.5⟩]⟩] }

def scantDocument : Json :=
  .object [
    ("services", .array [.object [("name", .string "hot")]]),
    ("layers", .array [.object [("name", .string "split"), ("bucketizer", .object []),
      ("experiments", .array [.object [("name", .string "plain"), ("ratio", .number (.double 0.5))]])]]),
    ("notes", .null)]

def scantText : String :=
  "services:\n  - name: hot\n    columns:\n      - name: tags\n        type: List_Str\n" ++
    "layers:\n  - name: split\n    experiments:\n      - name: plain\n        ratio: 0.5\n"

theorem rated_flow_read_back :
    Flow.decode? ratedFlow.encode = some ratedFlow ∧
      Flow.decode? scantDocument = some scantFlow ∧ Flow.decode? scantFlow.encode = some scantFlow ∧
      ∃ flow, Flow.parse? scantText = some flow ∧
        flow.services = [⟨"hot", [], [⟨"tags", .list .str⟩], none, none, true, none⟩] ∧
        Flow.decode? flow.encode = some flow := by
  obtain ⟨written, documents, texts⟩ := Flow.read_back
  have finite : ratedFlow.Finite := ⟨by simp [ratedFlow, Action.Finite]; decide, by simp [ratedFlow]; decide⟩
  have fits : ratedFlow.Fits := by constructor <;> simp [ratedFlow, Number.IsNat64, Number.maxNat64]
  have scant : scantFlow.Finite := ⟨by simp [scantFlow, Flow.empty], by simp [scantFlow]; decide⟩
  have read : Flow.decode? scantDocument = some scantFlow := rfl
  have parsed : (Flow.parse? scantText).any (fun flow =>
      decide (flow.services = [⟨"hot", [], [⟨"tags", .list .str⟩], none, none, true, none⟩]) &&
        flow.transforms.isEmpty && flow.layers.all fun layer => layer.arms.all fun arm => arm.ratio.isFinite) = true := by
    decide +kernel
  obtain ⟨flow, text, holds⟩ := (Option.any_eq_true _ _).mp parsed
  simp only [Bool.and_eq_true, decide_eq_true_eq, List.isEmpty_iff, List.all_eq_true] at holds
  have own : flow.Finite := ⟨by simp [holds.1.2], holds.2⟩
  exact ⟨written ratedFlow finite fits, read, (documents scantDocument scantFlow read scant).1, flow, text, holds.1.1,
    (texts scantText flow text own).1⟩

end Curator
