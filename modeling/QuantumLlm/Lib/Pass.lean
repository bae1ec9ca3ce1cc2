import Mathlib.Data.List.Basic

/-!
# Passes that stop at a failure

One call per entry of a list, in order, each with an effect on its entry, up to
the first call that does not succeed. What a pass leaves behind is described by
the entries before that call, so that a pass followed by an undo of what it did
can be compared with no pass at all.
-/

namespace QuantumLlm

/-- How one call ends. A spoiled call has had its effect and fails all the same. -/
inductive CallEnd (σ ε : Type*) where
  | next (total : σ)
  | failed (error : ε)
  | spoiled (error : ε)
  | threw (message : String)

/-- How a pass ends. -/
inductive PassEnd (σ ε : Type*) where
  | completed (total : σ)
  | failed (error : ε)
  | threw (message : String)

/-- Entries whose call had its effect, the entries after them, and the end. -/
structure Pass (α σ ε : Type*) where
  touched : List α
  untouched : List α
  ending : PassEnd σ ε

section

variable {α σ ε : Type*} (call : σ → α → CallEnd σ ε) (effect : α → α)

def runPass : σ → List α → Pass α σ ε
  | total, [] => ⟨[], [], .completed total⟩
  | total, entry :: rest =>
    match call total entry with
    | .next total =>
      let after := runPass total rest
      { after with touched := effect entry :: after.touched }
    | .failed error => ⟨[], entry :: rest, .failed error⟩
    | .spoiled error => ⟨[effect entry], rest, .failed error⟩
    | .threw message => ⟨[], entry :: rest, .threw message⟩

/-- The running total when every call of the list succeeds. -/
def passTotal : σ → List α → Option σ
  | total, [] => some total
  | total, entry :: rest =>
    match call total entry with
    | .next total => passTotal total rest
    | _ => none

/-- The call on the entry after a prefix of successful calls. -/
def Stops (total : σ) (entries before : List α) (entry : α) (after : List α)
    (ending : CallEnd σ ε) : Prop :=
  entries = before ++ entry :: after ∧
    ∃ reached, passTotal call total before = some reached ∧ call reached entry = ending

variable {call effect} {total : σ} {entries before after : List α} {entry : α}

theorem runPass_cons (total : σ) (entry : α) (rest : List α) :
    runPass call effect total (entry :: rest) =
      match call total entry with
      | .next total =>
        let after := runPass call effect total rest
        { after with touched := effect entry :: after.touched }
      | .failed error => ⟨[], entry :: rest, .failed error⟩
      | .spoiled error => ⟨[effect entry], rest, .failed error⟩
      | .threw message => ⟨[], entry :: rest, .threw message⟩ := rfl

theorem runPass_of_stops {ending : CallEnd σ ε}
    (h : Stops call total entries before entry after ending) :
    runPass call effect total entries =
      { runPass call effect (Classical.choose h.2) (entry :: after) with
        touched := before.map effect ++
          (runPass call effect (Classical.choose h.2) (entry :: after)).touched } := by
  obtain ⟨htotal, -⟩ := Classical.choose_spec h.2
  generalize Classical.choose h.2 = reached at htotal
  obtain ⟨hentries, -⟩ := h
  subst hentries
  induction before generalizing total with
  | nil =>
    rw [passTotal, Option.some.injEq] at htotal
    subst htotal
    rfl
  | cons first rest ih =>
    rw [passTotal] at htotal
    split at htotal
    next middle hcall =>
      have hrest := ih htotal
      simp only [List.cons_append, runPass_cons, hcall, hrest, List.map_cons]
    next => cases htotal

theorem runPass_failed {error : ε}
    (h : Stops call total entries before entry after (.failed error)) :
    runPass call effect total entries =
      ⟨before.map effect, entry :: after, .failed error⟩ := by
  obtain ⟨-, hcall⟩ := Classical.choose_spec h.2
  rw [runPass_of_stops h]
  simp only [runPass_cons, hcall, List.append_nil]

theorem runPass_spoiled {error : ε}
    (h : Stops call total entries before entry after (.spoiled error)) :
    runPass call effect total entries =
      ⟨before.map effect ++ [effect entry], after, .failed error⟩ := by
  obtain ⟨-, hcall⟩ := Classical.choose_spec h.2
  rw [runPass_of_stops h]
  simp only [runPass_cons, hcall]

theorem runPass_threw {message : String}
    (h : Stops call total entries before entry after (.threw message)) :
    runPass call effect total entries =
      ⟨before.map effect, entry :: after, .threw message⟩ := by
  obtain ⟨-, hcall⟩ := Classical.choose_spec h.2
  rw [runPass_of_stops h]
  simp only [runPass_cons, hcall, List.append_nil]

theorem runPass_cases (call : σ → α → CallEnd σ ε) (effect : α → α) (total : σ)
    (entries : List α) :
    (∃ reached, passTotal call total entries = some reached ∧
        runPass call effect total entries = ⟨entries.map effect, [], .completed reached⟩) ∨
      ∃ before entry after ending, Stops call total entries before entry after ending ∧
        ∀ reached, ending ≠ .next reached := by
  induction entries generalizing total with
  | nil => exact .inl ⟨total, rfl, rfl⟩
  | cons entry rest ih =>
    cases hcall : call total entry with
    | next middle =>
      rcases ih middle with ⟨reached, htotal, hrun⟩ | ⟨before, stop, after, ending, hstops, hnot⟩
      · refine .inl ⟨reached, ?_, ?_⟩
        · simp only [passTotal, hcall, htotal]
        · simp only [runPass_cons, hcall, hrun, List.map_cons]
      · obtain ⟨hrest, reached, htotal, hend⟩ := hstops
        refine .inr ⟨entry :: before, stop, after, ending, ⟨?_, reached, ?_, hend⟩, hnot⟩
        · rw [hrest, List.cons_append]
        · simp only [passTotal, hcall, htotal]
    | failed error => exact .inr ⟨[], entry, rest, _, ⟨rfl, total, rfl, hcall⟩, nofun⟩
    | spoiled error => exact .inr ⟨[], entry, rest, _, ⟨rfl, total, rfl, hcall⟩, nofun⟩
    | threw message => exact .inr ⟨[], entry, rest, _, ⟨rfl, total, rfl, hcall⟩, nofun⟩

end

end QuantumLlm
