import Curator.Envelope.Decode
import Curator.Operation
import Curator.Proofs.Column
import Curator.Proofs.Document
/-!
What an envelope of a failure holds. Envelopes that are made say why they failed and carry no rows;
envelopes that are read say and carry what was written, whatever their code.
-/

set_option autoImplicit false

namespace Curator.Envelope

open Document

def Sound (envelope : Envelope) : Prop :=
  envelope.isSuccess = false → envelope.rows = [] ∧ ∃ c ∈ envelope.message.toList, Text.isBlank c = false

theorem sound_iff {envelope : Envelope} :
    envelope.Sound ↔ envelope.code = 0 ∨ envelope.rows = [] ∧ Text.allBlank envelope.message = false := by
  have said : (∃ c ∈ envelope.message.toList, Text.isBlank c = false) ↔ Text.allBlank envelope.message = false := by
    simp [Text.allBlank]
  rw [Sound, said, isSuccess, decide_eq_false_iff_not]
  exact Decidable.or_iff_not_imp_left.symm

inductive Made : Envelope → Prop
  | success (rows : List Row) : Made (success rows)
  | successFor (subject : String) (rows : List Row) : Made (successFor subject rows)
  | failure (message : String) : Made (failure message)
  | reply (operation : Operation) (outcome : Outcome) : Made (operation.reply outcome)

theorem failure_sound (message : String) : (failure message).Sound := by
  refine sound_iff.mpr (.inr ⟨rfl, ?_⟩)
  by_cases blank : Text.allBlank message = true
  · simp only [failure, if_pos blank]
    decide
  · simpa only [failure, if_neg blank, Bool.not_eq_true] using blank

theorem Made.sound {envelope : Envelope} (made : envelope.Made) : envelope.Sound := by
  cases made with
  | success | successFor => exact sound_iff.mpr (.inl rfl)
  | failure message => exact failure_sound message
  | reply operation outcome =>
      cases outcome with
      | error failure => exact failure_sound failure.message
      | ok tables =>
          refine sound_iff.mpr (.inl ?_)
          cases operation with
          | invoke | recommend | recommendFor => rfl

theorem code?_ofInt {code : Int} (fits : Number.inInt32 code = true) : code? (.number (.int code)) = some code := by
  have whole : Number.inInt64 code = true := Number.inInt64_of_inInt32 fits
  simp [code?, Json.int64?, Json.number?, Number.int64?, whole, fits]

theorem decode?_toJson {envelope : Envelope} (fits : Number.inInt32 envelope.code = true) :
    decode? envelope.toJson = some envelope := by
  obtain ⟨code, message, rows, subject⟩ := envelope
  have read : code? (.number (.int code)) = some code := code?_ofInt fits
  have listed : list? row? (Json.array (rows.map Json.object)) = some rows := Json.list?_ofList fun row _ => rfl
  cases subject with
  | none =>
      have members : members? memberNames (toJson ⟨code, message, rows, none⟩) = some
          [("code", .number (.int code)), ("msg", .string message), ("data", .array (rows.map .object))] :=
        Json.members?_object ["code", "msg", "data"] rfl (by decide) (by decide)
      simp [decode?, members, required?, listOr?, optionalOr?, memberOr?, List.lookup_cons, read, listed]
  | some subject =>
      have members : members? memberNames (toJson ⟨code, message, rows, some subject⟩) = some
          [("code", .number (.int code)), ("msg", .string message), ("data", .array (rows.map .object)),
            ("id", .string subject)] :=
        Json.members?_whole rfl (by decide)
      simp [decode?, members, required?, listOr?, optionalOr?, memberOr?, List.lookup_cons, read, listed,
        optional?, isAbsent?, Json.isNull]

theorem code?_eq_some {tree : Json} {code : Int} (read : code? tree = some code) :
    tree = .number (.int code) ∧ Number.inInt32 code = true := by
  obtain ⟨whole, fits⟩ := Option.filter_eq_some_iff.mp read
  refine ⟨?_, fits⟩
  cases tree with
  | number number =>
      cases number with
      | int value =>
          have same : value = code := by
            simpa [Json.int64?, Json.number?, Number.int64?] using (Option.ite_some_none_eq_some.mp whole).2
          rw [same]
      | double value => cases whole
  | null | bool | string | array | object => cases whole

def Written (value : Json) : Prop :=
  ∃ members, members? memberNames value = some members ∧
    (members.lookup "code" = some (.number (.int 0)) ∨
      (members.lookup "data" = none ∨ members.lookup "data" = some (.array [])) ∧
        ∃ message, members.lookup "msg" = some (.string message) ∧ Text.allBlank message = false)

theorem listOr?_eq_nil_iff {members : List (String × Json)} {name : String} {rows : List Row}
    (read : listOr? row? name members = some rows) :
    rows = [] ↔ members.lookup name = none ∨ members.lookup name = some (.array []) := by
  rw [listOr?, memberOr?] at read
  cases found : members.lookup name with
  | none =>
      simp only [found, Option.some.injEq] at read
      simp [← read]
  | some tree =>
      simp only [found] at read
      obtain ⟨items, listed, mapped⟩ := Option.bind_eq_some_iff.mp read
      cases tree with
      | array items' =>
          cases listed
          cases items with
          | nil =>
              cases mapped
              simp
          | cons first rest =>
              rw [List.mapM_cons] at mapped
              obtain ⟨row, -, mapped⟩ := Option.bind_eq_some_iff.mp mapped
              obtain ⟨others, -, same⟩ := Option.bind_eq_some_iff.mp mapped
              cases same
              simp
      | null | bool | number | string | object => cases listed

theorem decode?_eq_some {value : Json} {envelope : Envelope} (read : decode? value = some envelope) :
    Number.inInt32 envelope.code = true ∧ (envelope.Sound ↔ Written value) := by
  obtain ⟨members, recorded, later⟩ := Option.bind_eq_some_iff.mp read
  obtain ⟨code, coded, later⟩ := Option.bind_eq_some_iff.mp later
  obtain ⟨message, told, later⟩ := Option.bind_eq_some_iff.mp later
  obtain ⟨rows, listed, later⟩ := Option.bind_eq_some_iff.mp later
  obtain ⟨subject, -, same⟩ := Option.bind_eq_some_iff.mp later
  cases same
  obtain ⟨tree, numbered, number⟩ := Option.bind_eq_some_iff.mp coded
  obtain ⟨rfl, fits⟩ := code?_eq_some number
  obtain ⟨tree, texted, text⟩ := Option.bind_eq_some_iff.mp told
  have written : tree = .string message := by
    cases tree with
    | string text' =>
        cases text
        rfl
    | null | bool | number | array | object => cases text
  subst written
  refine ⟨fits, ?_⟩
  simp only [Written, recorded, sound_iff, listOr?_eq_nil_iff listed, numbered, texted, Option.some.injEq,
    exists_eq_left', Json.number.injEq, Number.int.injEq, Json.string.injEq]

/-- When envelopes are sound: those that are made always are, and so are the answers of all
operations. One that is read is exactly if what was written is so. Reading itself sees to nothing but
the code: a value can be read as any envelope with a 32-bit code, and as no other. -/
theorem sound_of_origin (envelope : Envelope) :
    (envelope.Made → envelope.Sound) ∧
      (∀ value, decode? value = some envelope → (envelope.Sound ↔ Written value)) ∧
      (∀ text, parse? text = some envelope →
        ∃ value, Json.readRecord? memberNames text = some value ∧ (envelope.Sound ↔ Written value)) ∧
      ((∃ value, decode? value = some envelope) ↔ Number.inInt32 envelope.code = true) := by
  refine ⟨Made.sound, fun value read => (decode?_eq_some read).2, ?_, ?_⟩
  · intro text parsed
    obtain ⟨written, read, same⟩ := Option.map_eq_some_iff.mp parsed
    obtain ⟨value, found, decoded⟩ := Option.bind_eq_some_iff.mp read
    refine ⟨value, found, ?_⟩
    -- Members of a row that are written twice are put together, which leaves as many rows as before.
    rw [← (decode?_eq_some decoded).2, sound_iff, sound_iff, ← same, List.map_eq_nil_iff]
  · constructor
    · intro read
      obtain ⟨value, read⟩ := read
      exact (decode?_eq_some read).1
    · intro fits
      exact ⟨envelope.toJson, decode?_toJson fits⟩

theorem full_envelope_sound :
    let full : Json := .object [("code", .number (.int 1)), ("msg", .string "full")]
    ∃ envelope, decode? full = some envelope ∧ envelope.isSuccess = false ∧ envelope.Sound ∧
      (failure " ").Sound := by
  intro full
  have decoded : decode? full = some ⟨1, "full", [], none⟩ := rfl
  have written : Written full := ⟨_, rfl, .inr ⟨.inl rfl, "full", rfl, by decide⟩⟩
  obtain ⟨-, read, -, -⟩ := sound_of_origin ⟨1, "full", [], none⟩
  obtain ⟨made, -, -, -⟩ := sound_of_origin (failure " ")
  exact ⟨_, decoded, rfl, (read full decoded).mpr written, made (.failure " ")⟩

theorem read_envelope_not_sound : ¬ ∀ text envelope, parse? text = some envelope → envelope.Sound := by
  intro sound
  have parsed : (parse? "\x7b\"code\":1,\"msg\":\" \",\"data\":[\x7b\"a\":1\x7d]\x7d").any
      (fun envelope => !envelope.isSuccess && !envelope.rows.isEmpty) = true := by decide +kernel
  obtain ⟨envelope, read, holds⟩ := (Option.any_eq_true _ _).mp parsed
  obtain ⟨failed, filled⟩ := Bool.and_eq_true_iff.mp holds
  obtain ⟨empty, -⟩ := sound _ envelope read (by simpa using failed)
  simp [empty] at filled

end Curator.Envelope
