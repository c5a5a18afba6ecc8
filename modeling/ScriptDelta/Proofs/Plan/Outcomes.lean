import Mathlib.Data.List.Forall2
import Mathlib.Data.List.Nodup
import ScriptDelta.Proofs.Disk.Walk

/-! # What a list of outcomes comes to

A list whose items are read one by one has results if each of them can be read (`mapM_eq_ok_iff`),
and fails for the first that cannot (`mapM_eq_error_iff`). Which item is the first to fail is told
by what comes before it (`PassBefore`), and so is which is the first to be there again
(`FirstAgain`).
-/

namespace ScriptDelta

variable {ε ε' α β : Type}

/-- What goes on after an outcome fails if the outcome does or later. -/
theorem bind_eq_error_iff {outcome : Except ε α} {next : α → Except ε β} {error : ε} :
    outcome >>= next = .error error ↔
      outcome = .error error ∨ ∃ value, outcome = .ok value ∧ next value = .error error := by
  cases outcome <;> simp [bind, Except.bind]

theorem mapError_eq_ok_iff {outcome : Except ε α} {change : ε → ε'} {value : α} :
    outcome.mapError change = .ok value ↔ outcome = .ok value := by
  cases outcome <;> simp [Except.mapError]

theorem mapError_eq_error_iff {outcome : Except ε α} {change : ε → ε'} {error : ε'} :
    outcome.mapError change = .error error ↔
      ∃ cause, outcome = .error cause ∧ change cause = error := by
  cases outcome <;> simp [Except.mapError]

variable {f : α → Except ε β} {items : List α}

/-- A list has results if each of its items has one. -/
theorem mapM_eq_ok_iff {results : List β} :
    items.mapM f = .ok results ↔
      List.Forall₂ (fun item result => f item = .ok result) items results := by
  induction items generalizing results with
  | nil => simp [pure, Except.pure, eq_comm]
  | cons item items ih =>
    simp only [List.mapM_cons, bind_eq_ok_iff, ih, List.forall₂_cons_left_iff]
    constructor
    · rintro ⟨result, found, results, others, same⟩
      obtain rfl := Except.ok.inj same
      exact ⟨result, results, found, others, rfl⟩
    · rintro ⟨result, results, found, others, rfl⟩
      exact ⟨result, found, results, others, rfl⟩

/-- All items in front of one of a list pass. -/
def PassBefore (passes : α → Prop) (items : List α) (item : α) : Prop :=
  ∃ before after, items = before ++ item :: after ∧ ∀ earlier ∈ before, passes earlier

theorem passBefore_cons_iff {passes : α → Prop} {first item : α} :
    PassBefore passes (first :: items) item ↔
      first = item ∨ passes first ∧ PassBefore passes items item := by
  constructor
  · rintro ⟨before, after, split, pass⟩
    cases before with
    | nil => exact .inl (List.cons.inj split).1
    | cons earlier before =>
      obtain ⟨rfl, rfl⟩ := List.cons.inj split
      obtain ⟨here, others⟩ := List.forall_mem_cons.mp pass
      exact .inr ⟨here, before, after, rfl, others⟩
  · rintro (rfl | ⟨here, before, after, rfl, others⟩)
    · exact ⟨[], items, rfl, by simp⟩
    · exact ⟨first :: before, after, rfl, List.forall_mem_cons.mpr ⟨here, others⟩⟩

/-- A list fails for the first of its items that does. -/
theorem mapM_eq_error_iff {error : ε} :
    items.mapM f = .error error ↔
      ∃ item, PassBefore (fun earlier => ∃ result, f earlier = .ok result) items item ∧
        f item = .error error := by
  induction items with
  | nil => simp [PassBefore, pure, Except.pure]
  | cons first items ih =>
    simp only [List.mapM_cons, bind_eq_error_iff, ih, passBefore_cons_iff]
    constructor
    · rintro (here | ⟨result, found, (⟨item, pass, later⟩ | ⟨_, _, impossible⟩)⟩)
      · exact ⟨first, .inl rfl, here⟩
      · exact ⟨item, .inr ⟨⟨result, found⟩, pass⟩, later⟩
      · contradiction
    · rintro ⟨item, (rfl | ⟨⟨result, found⟩, pass⟩), failed⟩
      · exact .inl failed
      · exact .inr ⟨result, found, .inl ⟨item, pass, failed⟩⟩

theorem exists_forall₂_iff {related : α → β → Prop} :
    (∃ results, List.Forall₂ related items results) ↔
      ∀ item ∈ items, ∃ result, related item result := by
  induction items with
  | nil => simp
  | cons item items ih =>
    rw [List.forall_mem_cons, ← ih]
    simp [List.forall₂_cons_left_iff]

/-- The item is the first of a list that an earlier one is equal to. -/
def FirstAgain (items : List α) (item : α) : Prop :=
  ∃ before after, items = before ++ item :: after ∧ before.Nodup ∧ item ∈ before

theorem FirstAgain.not_nodup {item : α} (again : FirstAgain items item) : ¬ items.Nodup := by
  obtain ⟨before, after, rfl, -, inside⟩ := again
  intro distinct
  exact List.disjoint_of_nodup_append distinct inside (List.mem_cons_self ..)

/-- There is only one: before a later place, the item at the earlier place would come twice. -/
theorem FirstAgain.unique {item other : α} (again : FirstAgain items item)
    (otherAgain : FirstAgain items other) : item = other := by
  have earlier {before gap after : List α} {item : α} (distinct : (before ++ gap).Nodup)
      (inside : item ∈ before) (next : (gap ++ after).head? = some item) : gap = [] := by
    cases gap with
    | nil => rfl
    | cons first gap =>
      obtain rfl : first = item := by simpa using next
      exact absurd (List.mem_cons_self ..) (List.disjoint_of_nodup_append distinct inside)
  obtain ⟨before, after, rfl, distinct, inside⟩ := again
  obtain ⟨otherBefore, otherAfter, same, otherDistinct, otherInside⟩ := otherAgain
  rcases List.append_eq_append_iff.mp same with ⟨gap, rfl, rest⟩ | ⟨gap, rfl, rest⟩
  · obtain rfl := earlier otherDistinct inside (by rw [← rest]; rfl)
    exact (List.cons.inj rest).1
  · obtain rfl := earlier distinct otherInside (by rw [← rest]; rfl)
    exact (List.cons.inj rest).1.symm

end ScriptDelta
