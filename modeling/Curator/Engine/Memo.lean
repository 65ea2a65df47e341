import Curator.Table
/-!
The memo of one request: a slot for every table that was asked for or supplied. A slot is filled at
most once; while its table is being produced it is busy, and if that fails it is vacant again.
-/

set_option autoImplicit false

namespace Curator

inductive Slot where
  | vacant
  | busy
  | filled (table : Table)
deriving Repr, Inhabited

abbrev Memo := List (String × Slot)

namespace Memo

def slot? (memo : Memo) (name : String) : Option Slot := memo.lookup name

def put (name : String) (slot : Slot) : Memo → Memo
  | [] => [(name, slot)]
  | (other, old) :: rest =>
      if other = name then (other, slot) :: rest else (other, old) :: put name slot rest

def cached? (memo : Memo) (name : String) : Option Table :=
  match slot? memo name with
  | some (.filled table) => some table
  | _ => none

def isBusy (memo : Memo) (name : String) : Bool :=
  match slot? memo name with
  | some .busy => true
  | _ => false

def seed (memo : Memo) (name : String) (table : Table) : Memo × Bool :=
  match slot? memo name with
  | some _ => (memo, false)
  | none => (put name (.filled table) memo, true)

def seedAll (memo : Memo) (tables : List Table) : Memo :=
  tables.foldl (fun memo table => (memo.seed table.name table).1) memo

theorem slot?_put_self (name : String) (slot : Slot) (memo : Memo) :
    slot? (put name slot memo) name = some slot := by
  induction memo with
  | nil => simp [put, slot?]
  | cons entry rest ih =>
    rcases entry with ⟨other, old⟩
    by_cases same : other = name
    · simp [put, slot?, same]
    · have different : (name == other) = false := by simpa using Ne.symm same
      simpa [put, slot?, List.lookup_cons, same, different] using ih

theorem slot?_put_of_ne {name target : String} (slot : Slot) (memo : Memo)
    (different : target ≠ name) : slot? (put name slot memo) target = slot? memo target := by
  induction memo with
  | nil =>
    have apart : (target == name) = false := by simpa using different
    simp [put, slot?, List.lookup_cons, apart]
  | cons entry rest ih =>
    rcases entry with ⟨other, old⟩
    by_cases same : other = name
    · subst same
      have apart : (target == other) = false := by simpa using different
      simp [put, slot?, List.lookup_cons, apart]
    · by_cases here : target = other
      · simp [put, slot?, same, here]
      · have apart : (target == other) = false := by simpa using here
        simpa [put, slot?, List.lookup_cons, same, apart] using ih

end Memo

end Curator
