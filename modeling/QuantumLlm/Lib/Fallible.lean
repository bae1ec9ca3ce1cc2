import Mathlib.Data.List.Forall2

/-!
# Code that throws

Checks that throw, loops whose rounds may throw, and what their success says.
-/

namespace QuantumLlm.Fallible

variable {E α β : Type}

/-- A check; it throws where it fails. -/
def ensure (holds : Prop) [Decidable holds] (what : E) : Except E Unit :=
  if holds then .ok () else .error what

/-- A loop that pushes one result each round. -/
def each (next : α → Except E β) : List α → Except E (List β)
  | [] => .ok []
  | item :: rest => do
    let result ← next item
    let others ← each next rest
    pure (result :: others)

@[simp] theorem ensure_ok {holds : Prop} [Decidable holds] {what : E} {result : Unit} :
    ensure holds what = .ok result ↔ holds := by
  unfold ensure
  by_cases h : holds
  · simp [h]
  · simp [h]

variable {first : Except E α} {next : α → Except E β} {result : α} {results : List β}

theorem bind_ok {result : β} :
    (first >>= next) = .ok result ↔ ∃ value, first = .ok value ∧ next value = .ok result := by
  cases first with
  | error what => simp [bind, Except.bind]
  | ok value => simp [bind, Except.bind]

@[simp] theorem pure_ok {value : α} :
    (pure value : Except E α) = .ok result ↔ value = result := by
  simp [pure, Except.pure]

@[simp] theorem mapError_ok {E' : Type} {change : E → E'} :
    first.mapError change = .ok result ↔ first = .ok result := by
  cases first with
  | error what => simp [Except.mapError]
  | ok value => simp [Except.mapError]

theorem each_cons {item : α} {rest : List α} :
    each next (item :: rest) = .ok results ↔ ∃ result others,
      next item = .ok result ∧ each next rest = .ok others ∧ results = result :: others := by
  change (next item >>= fun result => each next rest >>= fun others => pure (result :: others)) =
    .ok results ↔ _
  rw [bind_ok]
  constructor
  · intro h
    obtain ⟨result, hresult, h⟩ := h
    obtain ⟨others, hothers, h⟩ := bind_ok.1 h
    exact ⟨result, others, hresult, hothers, (pure_ok.1 h).symm⟩
  · intro h
    obtain ⟨result, others, hresult, hothers, rfl⟩ := h
    exact ⟨result, hresult, bind_ok.2 ⟨others, hothers, rfl⟩⟩

theorem each_forall₂ {items : List α} (h : each next items = .ok results) :
    List.Forall₂ (fun item result => next item = .ok result) items results := by
  induction items generalizing results with
  | nil =>
    cases h
    exact .nil
  | cons item rest ih =>
    obtain ⟨result, others, hresult, hothers, rfl⟩ := each_cons.1 h
    exact .cons hresult (ih hothers)

end QuantumLlm.Fallible
