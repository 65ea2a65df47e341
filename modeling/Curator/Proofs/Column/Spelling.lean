import Curator.Proofs.Attempts
import Curator.Proofs.Column
import Mathlib.Data.List.DropRight
import Mathlib.Data.List.TakeWhile
/-!
How a column type may be written: each type has the one name that it is shown with, and every text that is read
as a type is another spelling of its name. Blanks around a text and the case of its letters tell nothing apart.
-/

set_option autoImplicit false

namespace Curator

namespace Text

def Alike (text other : List Char) : Prop :=
  ∃ before core after before' core' after', text = before ++ core ++ after ∧ other = before' ++ core' ++ after' ∧
    (∀ c ∈ before ++ after, isBlank c = true) ∧ (∀ c ∈ before' ++ after', isBlank c = true) ∧
    core.map Char.toLower = core'.map Char.toLower

theorem toNat_toLower (c : Char) :
    c.toLower.toNat = if 65 ≤ c.toNat ∧ c.toNat ≤ 90 then c.toNat + 32 else c.toNat := by
  by_cases capital : 65 ≤ c.toNat ∧ c.toNat ≤ 90
  · have lowered : c.toLower.val = c.val + 32 := congrArg Char.val (dif_pos capital)
    rw [if_pos capital]
    change c.toLower.val.toNat = c.toNat + 32
    rw [lowered, UInt32.toNat_add]
    exact Nat.mod_eq_of_lt (by change c.toNat + 32 < _; omega)
  · have kept : c.toLower = c := dif_neg capital
    rw [kept, if_neg capital]

theorem toLower_toLower (c : Char) : c.toLower.toLower = c.toLower := by
  refine Char.toNat_inj.mp ?_
  rw [toNat_toLower, if_neg]
  rw [toNat_toLower]
  split <;> omega

theorem isBlank_toLower (c : Char) : isBlank c.toLower = isBlank c := by
  simp only [isBlank, toNat_toLower]
  grind

theorem trim_eq (text : List Char) : trim text = (text.dropWhile isBlank).rdropWhile isBlank := rfl

section Blanks

variable {before core after text other : List Char}

theorem dropWhile_append_of_blank (blank : ∀ c ∈ before, isBlank c = true) :
    (before ++ text).dropWhile isBlank = text.dropWhile isBlank := by
  rw [List.dropWhile_append, List.dropWhile_eq_nil_iff.mpr blank]
  rfl

theorem rdropWhile_append_of_blank (blank : ∀ c ∈ after, isBlank c = true) :
    (text ++ after).rdropWhile isBlank = text.rdropWhile isBlank := by
  rw [List.rdropWhile, List.reverse_append, dropWhile_append_of_blank fun c member => blank c (List.mem_reverse.mp member)]
  rfl

theorem trim_surrounded (blank : ∀ c ∈ before ++ after, isBlank c = true) :
    trim (before ++ core ++ after) = trim core := by
  obtain ⟨ahead, behind⟩ := List.forall_mem_append.mp blank
  rw [trim_eq, trim_eq, List.append_assoc, dropWhile_append_of_blank ahead, List.dropWhile_append]
  split
  · rename_i blank
    rw [List.isEmpty_iff.mp blank, List.dropWhile_eq_nil_iff.mpr behind]
  · exact rdropWhile_append_of_blank behind

theorem trim_map_toLower (text : List Char) : trim (text.map Char.toLower) = (trim text).map Char.toLower := by
  have same : isBlank ∘ Char.toLower = isBlank := funext isBlank_toLower
  rw [trim, trim, List.dropWhile_map, same, ← List.map_reverse, List.dropWhile_map, same, List.map_reverse]

theorem exists_surrounded (text : List Char) :
    ∃ before after, text = before ++ trim text ++ after ∧ ∀ c ∈ before ++ after, isBlank c = true := by
  refine ⟨text.takeWhile isBlank, (text.dropWhile isBlank).rtakeWhile isBlank, ?_, ?_⟩
  · rw [trim_eq, List.append_assoc, List.rdropWhile_append_rtakeWhile, List.takeWhile_append_dropWhile]
  · exact List.forall_mem_append.mpr ⟨fun _ => List.mem_takeWhile_imp, fun _ => List.mem_rtakeWhile_imp⟩

theorem alike_iff : Alike text other ↔ folded text = folded other := by
  constructor
  · rintro ⟨before, core, after, before', core', after', rfl, rfl, blank, blank', same⟩
    rw [folded, folded, trim_surrounded blank, trim_surrounded blank', ← trim_map_toLower, same, trim_map_toLower]
  · intro same
    obtain ⟨before, after, split, blank⟩ := exists_surrounded text
    obtain ⟨before', after', split', blank'⟩ := exists_surrounded other
    exact ⟨before, trim text, after, before', trim other, after', split, split', blank, blank', same⟩

instance : Decidable (Alike text other) := decidable_of_iff _ alike_iff.symm

theorem Alike.symm (alike : Alike text other) : Alike other text := alike_iff.mpr (alike_iff.mp alike).symm

theorem Alike.trans {third : List Char} (alike : Alike text other) (alike' : Alike other third) : Alike text third :=
  alike_iff.mpr ((alike_iff.mp alike).trans (alike_iff.mp alike'))

theorem alike_core (before core after : List Char) (blank : ∀ c ∈ before ++ after, isBlank c = true) :
    Alike (core.map Char.toLower) (before ++ core ++ after) := by
  refine ⟨[], core.map Char.toLower, [], before, core, after, by simp, rfl, by simp, blank, ?_⟩
  rw [List.map_map]
  exact List.map_congr_left fun c _ => toLower_toLower c

theorem alike_folded (text : List Char) : Alike (folded text) text := by
  obtain ⟨before, after, split, blank⟩ := exists_surrounded text
  have alike := alike_core before (trim text) after blank
  rwa [← split] at alike

end Blanks

end Text

namespace ColumnType

variable {text other : List Char} {type : ColumnType}

def scalarNames : ColumnType → List String
  | int32 => ["int32", "int"]
  | int64 => ["int64", "long"]
  | float => ["float"]
  | double => ["double"]
  | str => ["str", "string"]
  | bool => ["bool", "boolean"]
  | bytes => ["bytes"]
  | list _ => []

/-- The text is a way to write the type. -/
inductive Spells : List Char → ColumnType → Prop
  | scalar {text : List Char} {type : ColumnType} {word : String} (known : word ∈ type.scalarNames)
      (alike : Text.Alike text word.toList) : Spells text type
  | list {text rest : List Char} {element : ColumnType} (inner : Spells rest element)
      (alike : Text.Alike text (['l', 'i', 's', 't', '_'] ++ rest)) : Spells text (.list element)

theorem scalar?_eq_some_iff : scalar? text = some type ↔ ∃ word ∈ type.scalarNames, word.toList = text := by
  constructor
  · intro known
    unfold scalar? at known
    split at known <;> cases known <;> simp [scalarNames]
  · rintro ⟨word, member, rfl⟩
    cases type <;> simp only [scalarNames, List.mem_cons, List.not_mem_nil, or_false] at member
    all_goals
      rcases member with rfl | rfl <;> rfl

theorem element?_eq_some_iff {rest : List Char} :
    element? text = some rest ↔ text = ['l', 'i', 's', 't', '_'] ++ rest := by
  constructor
  · intro found
    unfold element? at found
    split at found <;> cases found
    rfl
  · rintro rfl
    rfl

theorem folded_list (rest : List Char) :
    ∃ inner, Text.folded (['l', 'i', 's', 't', '_'] ++ rest) = ['l', 'i', 's', 't', '_'] ++ inner ∧
      Text.Alike inner rest := by
  refine ⟨(rest.rdropWhile Text.isBlank).map Char.toLower, ?_, ?_⟩
  · have stays : (['l', 'i', 's', 't', '_'] ++ rest).dropWhile Text.isBlank = ['l', 'i', 's', 't', '_'] ++ rest := rfl
    rw [Text.folded, Text.trim_eq, stays, List.rdropWhile, List.reverse_append, List.dropWhile_append]
    split
    · rename_i blank
      rw [List.rdropWhile, List.isEmpty_iff.mp blank]
      rfl
    · rw [List.reverse_append, List.map_append]
      rfl
  · have alike := Text.alike_core [] (rest.rdropWhile Text.isBlank) (rest.rtakeWhile Text.isBlank)
      fun _ => List.mem_rtakeWhile_imp
    rwa [List.nil_append, List.rdropWhile_append_rtakeWhile] at alike

theorem parse_scalar {word : String} (known : word ∈ type.scalarNames) (alike : Text.Alike text word.toList) :
    parse text = .ok type := by
  rw [parse_eq, Text.alike_iff.mp alike]
  cases type <;> simp only [scalarNames, List.mem_cons, List.not_mem_nil, or_false] at known
  all_goals
    rcases known with rfl | rfl <;> rfl

theorem spells_of_alike (alike : Text.Alike text other) (spells : Spells other type) : Spells text type := by
  cases spells with
  | scalar known same => exact .scalar known (alike.trans same)
  | list inner same => exact .list inner (alike.trans same)

theorem spells_iff_of_alike (alike : Text.Alike text other) : Spells text type ↔ Spells other type :=
  ⟨spells_of_alike alike.symm, spells_of_alike alike⟩

theorem parse_of_spells (spells : Spells text type) : parse text = .ok type := by
  -- Inside a list the rest is read without the blanks behind it and without capitals.
  suffices every : ∀ shown, Text.Alike shown text → parse shown = .ok type from every text (Text.alike_iff.mpr rfl)
  induction spells with
  | scalar known alike => exact fun shown alike' => parse_scalar known (alike'.trans alike)
  | @list text rest element inner alike ih =>
      intro shown alike'
      obtain ⟨below, folded, same⟩ := folded_list rest
      rw [parse_eq, Text.alike_iff.mp (alike'.trans alike), folded]
      simp only [element?_eq_some_iff.mpr rfl, ih below same]
      rfl

theorem spells_of_parse {text : List Char} {type : ColumnType} (read : parse text = .ok type) : Spells text type := by
  rw [parse_eq] at read
  have alike : Text.Alike text (Text.folded text) := (Text.alike_folded text).symm
  cases found : element? (Text.folded text) with
  | some rest =>
      simp only [found] at read
      cases below : parse rest with
      | error => simp [below, Except.map] at read
      | ok element =>
          simp only [below, Except.map, Except.ok.injEq] at read
          subst read
          exact .list (spells_of_parse below) (element?_eq_some_iff.mp found ▸ alike)
  | none =>
      simp only [found] at read
      cases known : scalar? (Text.folded text) with
      | none => simp [known] at read
      | some scalar =>
          simp only [known, Except.ok.injEq] at read
          subst read
          obtain ⟨word, member, same⟩ := scalar?_eq_some_iff.mp known
          exact .scalar member (same ▸ alike)
termination_by text.length
decreasing_by
  have shorter := length_lt_of_element? found
  have trimmed := Text.length_trim_le text
  simp only [Text.folded, List.length_map] at shorter
  omega

variable {shown : String}

theorem parse?_ok_iff : parse? shown = .ok type ↔ Spells shown.toList type :=
  mapError_ok_iff.trans ⟨spells_of_parse, parse_of_spells⟩

theorem parse?_fails_iff :
    (∃ name, parse? shown = .error (.unknownType name)) ↔ ∀ type, ¬ Spells shown.toList type := by
  simp only [← parse?_ok_iff]
  constructor
  · rintro ⟨name, failed⟩ type read
    cases failed.symm.trans read
  · intro unread
    cases attempt : parse shown.toList with
    | error name => exact ⟨String.ofList name, by rw [parse?, attempt, Except.mapError]⟩
    | ok type => exact absurd (mapError_ok_iff.mpr attempt) (unread type)

def respell (text : String) : Except SchemaError String := (parse? text).map name

theorem respell_of_parse? (read : parse? shown = .ok type) : respell shown = .ok type.name := by
  rw [respell, read]
  rfl

/-- Every type is read from the name that it is shown with. What is shown for a text that is read as a type is
itself read as that type, and shown again as it is. A text is read as a type when it spells one, so of two texts that
differ only in case and in the blanks around them both are read as the same type, or neither is read. -/
theorem spelling_round_trip :
    (∀ type : ColumnType, parse? type.name = .ok type) ∧
    (∀ text type, parse? text = .ok type → respell text = .ok type.name ∧ respell type.name = .ok type.name ∧
      parse? type.name = .ok type) ∧
    (∀ text type, parse? text = .ok type ↔ Spells text.toList type) ∧
    (∀ text other : String, Text.Alike text.toList other.toList →
      (∃ type, parse? text = .ok type ∧ parse? other = .ok type) ∨
        (∃ name, parse? text = .error (.unknownType name)) ∧ ∃ name, parse? other = .error (.unknownType name)) := by
  refine ⟨parse?_name, fun text type read => ?_, fun text type => parse?_ok_iff, fun text other alike => ?_⟩
  · exact ⟨respell_of_parse? read, respell_of_parse? type.parse?_name, type.parse?_name⟩
  · have same (type : ColumnType) : Spells text.toList type ↔ Spells other.toList type := spells_iff_of_alike alike
    by_cases spelled : ∃ type, Spells text.toList type
    · obtain ⟨type, spells⟩ := spelled
      exact .inl ⟨type, parse?_ok_iff.mpr spells, parse?_ok_iff.mpr ((same type).mp spells)⟩
    · have unread : ∀ type, ¬ Spells text.toList type := not_exists.mp spelled
      exact .inr ⟨parse?_fails_iff.mpr unread, parse?_fails_iff.mpr fun type spells => unread type ((same type).mpr spells)⟩

theorem nested_list_respelled :
    parse? " LIST_ List_Long\t" = .ok (.list (.list .int64)) ∧
      respell " LIST_ List_Long\t" = .ok "list_list_int64" ∧
      parse? "list_ LIST_long" = .ok (.list (.list .int64)) := by
  have read : parse? " LIST_ List_Long\t" = .ok (.list (.list .int64)) := by
    have long : Spells "long".toList .int64 := .scalar (by decide : "long" ∈ int64.scalarNames) (by decide)
    have inner : Spells " List_Long".toList (.list .int64) := .list long (by decide)
    exact parse?_ok_iff.mpr (.list inner (by decide))
  obtain ⟨-, shown, -, spelled⟩ := spelling_round_trip
  refine ⟨read, (shown _ _ read).1, ?_⟩
  rcases spelled " LIST_ List_Long\t" "list_ LIST_long" (by decide) with ⟨type, same, same'⟩ | ⟨⟨name, failed⟩, -⟩
  · cases read.symm.trans same
    exact same'
  · cases read.symm.trans failed

end ColumnType

end Curator
