import Mathlib.Data.List.Forall2
/-!
Steps that may fail, one after the other: a sequence succeeds when every step of it does.
-/

set_option autoImplicit false

namespace Curator

variable {ε α β : Type}

theorem bind_ok_iff {attempt : Except ε α} {next : α → Except ε β} {result : β} :
    attempt >>= next = .ok result ↔ ∃ value, attempt = .ok value ∧ next value = .ok result := by
  cases attempt with
  | error error => simp [bind, Except.bind]
  | ok value => simp [bind, Except.bind]

theorem bind_error_iff {attempt : Except ε α} {next : α → Except ε β} {error : ε} :
    attempt >>= next = .error error ↔
      attempt = .error error ∨ ∃ value, attempt = .ok value ∧ next value = .error error := by
  cases attempt with
  | error error => simp [bind, Except.bind]
  | ok value => simp [bind, Except.bind]

theorem mapError_error_iff {δ : Type} {attempt : Except δ α} {cause : δ → ε} {error : ε} :
    attempt.mapError cause = .error error ↔ ∃ inner, attempt = .error inner ∧ cause inner = error := by
  cases attempt <;> simp [Except.mapError]

theorem mapError_ok_iff {δ : Type} {attempt : Except δ α} {cause : δ → ε} {result : α} :
    attempt.mapError cause = .ok result ↔ attempt = .ok result := by
  cases attempt <;> simp [Except.mapError]

theorem pure_ok_iff {value result : α} : (pure value : Except ε α) = .ok result ↔ value = result := by
  simp [pure, Except.pure]

theorem mapM_ok_iff {attempt : α → Except ε β} {values : List α} {results : List β} :
    values.mapM attempt = .ok results ↔
      List.Forall₂ (fun value result => attempt value = .ok result) values results := by
  induction values generalizing results with
  | nil =>
      rw [List.mapM_nil, pure_ok_iff, List.forall₂_nil_left_iff]
      exact eq_comm
  | cons head tail ih =>
      rw [List.mapM_cons, List.forall₂_cons_left_iff, bind_ok_iff]
      constructor
      · rintro ⟨first, here, later⟩
        obtain ⟨others, rest, same⟩ := bind_ok_iff.mp later
        exact ⟨first, others, here, ih.mp rest, (pure_ok_iff.mp same).symm⟩
      · rintro ⟨first, others, here, rest, same⟩
        exact ⟨first, here, bind_ok_iff.mpr ⟨others, ih.mpr rest, pure_ok_iff.mpr same.symm⟩⟩

theorem mapM_error {attempt : α → Except ε β} {values : List α} {error : ε}
    (failed : values.mapM attempt = .error error) : ∃ value ∈ values, attempt value = .error error := by
  induction values with
  | nil =>
      rw [List.mapM_nil] at failed
      cases failed
  | cons head tail ih =>
      rw [List.mapM_cons] at failed
      rcases bind_error_iff.mp failed with here | ⟨first, -, later⟩
      · exact ⟨head, List.mem_cons_self, here⟩
      · rcases bind_error_iff.mp later with behind | ⟨others, -, impossible⟩
        · obtain ⟨value, member, fails⟩ := ih behind
          exact ⟨value, List.mem_cons_of_mem _ member, fails⟩
        · cases impossible

theorem forM_ok_iff {attempt : α → Except ε Unit} {values : List α} :
    values.forM attempt = .ok () ↔ ∀ value ∈ values, attempt value = .ok () := by
  induction values with
  | nil => simp [pure, Except.pure]
  | cons head tail ih =>
      change (attempt head >>= fun _ => tail.forM attempt) = .ok () ↔ _
      rw [bind_ok_iff, List.forall_mem_cons, ← ih]
      exact ⟨fun ⟨_, here, behind⟩ => ⟨here, behind⟩, fun ⟨here, behind⟩ => ⟨(), here, behind⟩⟩

theorem failed_iff_not_ok {attempt : Except ε α} : (∃ error, attempt = .error error) ↔ ¬ ∃ result, attempt = .ok result := by
  cases attempt <;> simp

end Curator
