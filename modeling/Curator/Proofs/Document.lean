import Curator.Flow.Decode
import Curator.Flow.Encode
/-!
Reading members of documents, and reading back what was written as JSON: records, lists, values that
may be left out, and numbers.
-/

set_option autoImplicit false

namespace Curator

open Document

def Number.IsNat64 (value : Nat) : Prop := (value : Int) ≤ maxNat64

namespace Document

variable {α β : Type}

theorem mem_of_mapM {item? : α → Option β} {trees : List α} {items : List β}
    (read : trees.mapM item? = some items) : ∀ item ∈ items, ∃ tree, item? tree = some item := by
  induction trees generalizing items with
  | nil =>
      cases read
      exact fun _ none => (List.not_mem_nil none).elim
  | cons first rest ih =>
      rw [List.mapM_cons] at read
      obtain ⟨here, found, later⟩ := Option.bind_eq_some_iff.mp read
      obtain ⟨others, behind, same⟩ := Option.bind_eq_some_iff.mp later
      cases same
      exact List.forall_mem_cons.mpr ⟨⟨first, found⟩, ih behind⟩

variable [Document α] {members : List (String × α)} {name : String}

theorem mem_of_listOr? {item? : α → Option β} {items : List β} (read : listOr? item? name members = some items) :
    ∀ item ∈ items, ∃ tree, item? tree = some item := by
  rw [listOr?, memberOr?] at read
  split at read
  · obtain ⟨trees, -, read⟩ := Option.bind_eq_some_iff.mp read
    exact mem_of_mapM read
  · cases read
    exact fun _ none => (List.not_mem_nil none).elim

theorem mem_of_optionalOr? {value? : α → Option β} {value : Option β}
    (read : optionalOr? value? name members = some value) : ∀ inner ∈ value, ∃ tree, value? tree = some inner := by
  intro inner member
  cases member
  rw [optionalOr?, memberOr?] at read
  split at read
  · rename_i tree _
    obtain ⟨absent, -, read⟩ := Option.bind_eq_some_iff.mp read
    cases absent with
    | true => cases read
    | false =>
        obtain ⟨_, found, same⟩ := Option.bind_eq_some_iff.mp read
        cases same
        exact ⟨tree, found⟩
  · cases read

variable (α) in
def ReadsNat64 : Prop := ∀ (tree : α) (value : Nat), natural? tree = some value → Number.IsNat64 value

theorem ReadsNat64.optionalOr? (reads : ReadsNat64 α) {value : Option Nat}
    (read : optionalOr? natural? name members = some value) : ∀ natural ∈ value, Number.IsNat64 natural := by
  intro natural member
  obtain ⟨tree, found⟩ := mem_of_optionalOr? read natural member
  exact reads tree natural found

end Document

theorem Yaml.Tree.readsNat64 : ReadsNat64 Yaml.Tree := by
  intro tree value read
  have fits : (value : Int) ≤ Number.maxNat64 := by simpa using (Option.filter_eq_some_iff.mp read).2
  exact fits

namespace Json

theorem readsNat64 : ReadsNat64 Json := by
  intro tree value read
  obtain ⟨number, -, whole⟩ := Option.bind_eq_some_iff.mp read
  cases number with
  | double => cases whole
  | int integer =>
      rw [Number.nat64?] at whole
      split at whole
      · rename_i bounds
        cases whole
        obtain ⟨low, high⟩ := Bool.and_eq_true_iff.mp bounds
        rw [Number.IsNat64, Int.toNat_of_nonneg (of_decide_eq_true low)]
        exact of_decide_eq_true high
      · cases whole

variable {β : Type} {encode : β → Json} {decode : Json → Option β}

theorem members?_object {names : List String} (own : List String) {members : List (String × Json)}
    (named : members.map Prod.fst = own) (among : own.Sublist names) (distinct : names.Nodup) :
    members? names (.object members) = some members := by
  have all : members.filter (fun member => names.contains member.1) = members := by
    refine List.filter_eq_self.mpr fun member inside => ?_
    simpa using among.subset (named ▸ List.mem_map_of_mem inside)
  have single : (members.map Prod.fst).Nodup := named ▸ among.nodup distinct
  change recordMembers? names (.object members) = some members
  simp only [recordMembers?, all, if_pos single]

theorem members?_whole {names : List String} {members : List (String × Json)}
    (named : members.map Prod.fst = names) (distinct : names.Nodup) :
    members? names (.object members) = some members :=
  members?_object names named (.refl _) distinct

@[simp] theorem text?_string (text : String) : text? (Json.string text) = some text := rfl

@[simp] theorem flag?_bool (flag : Bool) : flag? (Json.bool flag) = some flag := rfl

theorem list?_ofList {values : List β} (back : ∀ value ∈ values, decode (encode value) = some value) :
    list? decode (.ofList encode values) = some values := by
  change (values.map encode).mapM decode = some values
  induction values with
  | nil => rfl
  | cons first rest ih =>
      have here := back first List.mem_cons_self
      have behind := ih fun value member => back value (List.mem_cons_of_mem _ member)
      simp [here, behind]

theorem optional?_ofOption {value : Option β}
    (back : ∀ inner ∈ value, decode (encode inner) = some inner ∧ (encode inner).isNull = false) :
    optional? decode (.ofOption encode value) = some value := by
  cases value with
  | none => rfl
  | some inner =>
      obtain ⟨here, present⟩ := back inner rfl
      simp [optional?, ofOption, isAbsent?, here, present]

@[simp] theorem list?_ofTexts (texts : List String) : list? text? (Json.ofList .string texts) = some texts :=
  list?_ofList fun _ _ => rfl

@[simp] theorem optional?_ofText (value : Option String) :
    optional? text? (Json.ofOption .string value) = some value :=
  optional?_ofOption fun _ _ => ⟨rfl, rfl⟩

theorem nat64?_ofNat {value : Nat} (fits : Number.IsNat64 value) : nat64? (.ofNat value) = some value := by
  have bound : (value : Int) ≤ Number.maxNat64 := fits
  simp [nat64?, ofNat, number?, Number.nat64?, bound]

theorem optional?_ofNat {value : Option Nat} (fits : ∀ natural ∈ value, Number.IsNat64 natural) :
    optional? natural? (Json.ofOption .ofNat value) = some value :=
  optional?_ofOption fun natural member => ⟨nat64?_ofNat (fits natural member), rfl⟩

theorem float?_ofFloat {value : Float} (finite : value.isFinite = true) : float? (.ofFloat value) = some value := by
  simp [float?, ofFloat, Number.ofFloat?, finite, number?, Number.toFloat]

end Json

end Curator
