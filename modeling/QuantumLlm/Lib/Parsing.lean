import Mathlib.Data.List.Basic

/-!
# Recursive descent over a list of symbols

A parser returns what it read and the symbols that are left. Its loops run on fuel; a
loop whose body takes a symbol each time never runs out of it.
-/

namespace QuantumLlm.Parsing

open List

/-- A parser stops before the symbols that are left; lack of fuel is no fault of the input. -/
inductive Failure (σ : Type)
  | stopped (rest : List σ) (message : String)
  | exhausted
  deriving DecidableEq

abbrev Parser (σ α : Type) := List σ → Except (Failure σ) (α × List σ)

variable {σ α β : Type}

def fail (rest : List σ) (message : String) : Except (Failure σ) β :=
  .error (.stopped rest message)

/-- From an input of that length at least one symbol is taken, and fuel is not lacking. -/
def Progress (length : Nat) : Except (Failure σ) (α × List σ) → Prop
  | .ok (_, rest) => rest.length < length
  | .error (.stopped _ _) => True
  | .error .exhausted => False

variable {ε : Type} {first : Except ε α} {next : α → Except ε β} {texts : List (List σ)}

theorem bind_ok {value : β}
    (h : first >>= next = .ok value) : ∃ middle, first = .ok middle ∧ next middle = .ok value := by
  cases first with
  | error failure => cases h
  | ok middle => exact ⟨middle, rfl, h⟩

section

variable {length longer : Nat} {read : Except (Failure σ) (α × List σ)}
  {first : Except (Failure σ) β} {next : β → Except (Failure σ) (α × List σ)}

theorem Progress.mono (h : Progress length read) (hle : length ≤ longer) :
    Progress longer read := by
  cases read with
  | ok value => exact Nat.lt_of_lt_of_le h hle
  | error failure => cases failure <;> exact h

theorem Progress.fueled (h : Progress length read) : read ≠ .error .exhausted := by
  rintro rfl
  exact h

theorem bind_fueled {next : β → Except (Failure σ) α} (hfueled : first ≠ .error .exhausted)
    (hnext : ∀ value, next value ≠ .error .exhausted) : first >>= next ≠ .error .exhausted := by
  cases first with
  | ok value => exact hnext value
  | error failure =>
    intro h
    cases h
    exact hfueled rfl

theorem progress_of_fueled (hfueled : first ≠ .error .exhausted)
    (hnext : ∀ value, first = .ok value → Progress length (next value)) :
    Progress length (first >>= next) := by
  cases first with
  | ok value => exact hnext value rfl
  | error failure =>
    cases failure with
    | stopped rest message => exact True.intro
    | exhausted => exact hfueled rfl

theorem Progress.bind {next : α × List σ → Except (Failure σ) (β × List σ)}
    (h : Progress length read)
    (hnext : ∀ value rest, rest.length < length → Progress longer (next (value, rest))) :
    Progress longer (read >>= next) :=
  progress_of_fueled h.fueled fun _ hread => hnext _ _ (by rwa [hread] at h)

end

/-- Reads items into a state until the closing symbol. -/
def separated [DecidableEq σ] (item : α → Parser σ α) (skip : List σ → List σ) (comma close : σ)
    (message : String) : Nat → α → Parser σ α
  | 0, _, _ => .error .exhausted
  | fuel + 1, state, input => do
    let (state, rest) ← item state (skip input)
    match skip rest with
    | [] => fail [] message
    | symbol :: left =>
      if symbol = close then .ok (state, left)
      else if symbol = comma then separated item skip comma close message fuel state left
      else fail (symbol :: left) message

/-- The texts of the items, with a separator between two. -/
def separate (comma : σ) : List (List σ) → List σ
  | [] => []
  | [text] => text
  | text :: next :: rest => text ++ comma :: separate comma (next :: rest)

@[simp] theorem separate_singleton (comma : σ) (text : List σ) : separate comma [text] = text := rfl

theorem separate_cons_cons (comma : σ) (text next : List σ) (rest : List (List σ)) :
    separate comma (text :: next :: rest) = text ++ comma :: separate comma (next :: rest) := rfl

theorem length_le_separate (comma : σ) {text : List σ}
    (h : text ∈ texts) : text.length ≤ (separate comma texts).length := by
  induction texts with
  | nil => cases h
  | cons first rest ih =>
    cases rest with
    | nil => simp [mem_singleton.1 h]
    | cons second rest =>
      rw [separate_cons_cons, length_append, length_cons]
      rcases mem_cons.1 h with rfl | hmem
      · omega
      · have hle := ih hmem
        omega

theorem count_le_separate (comma : σ) (h : ∀ text ∈ texts, text ≠ []) :
    texts.length ≤ (separate comma texts).length := by
  induction texts with
  | nil => exact Nat.zero_le _
  | cons first rest ih =>
    have hfirst := length_pos_iff.2 (h first mem_cons_self)
    cases rest with
    | nil => exact hfirst
    | cons second rest =>
      have hrest := ih fun text hmem => h text (mem_cons_of_mem _ hmem)
      rw [length_cons] at hrest
      rw [separate_cons_cons, length_append, length_cons, length_cons, length_cons]
      omega

section

variable [DecidableEq σ] {item : α → Parser σ α} {skip : List σ → List σ} {comma close : σ}
  {message : String}

variable {fuel : Nat} {state state' : α} {input rest : List σ}

theorem separated_ok
    (h : separated item skip comma close message (fuel + 1) state input = .ok (state', rest)) :
    ∃ middle after symbol left, item state (skip input) = .ok (middle, after) ∧
      skip after = symbol :: left ∧ ((middle = state' ∧ left = rest) ∨
        separated item skip comma close message fuel middle left = .ok (state', rest)) := by
  obtain ⟨⟨middle, after⟩, hread, h⟩ := bind_ok h
  dsimp only at h
  split at h
  next => cases h
  next symbol left hafter =>
    refine ⟨middle, after, symbol, left, hread, hafter, ?_⟩
    split at h
    next =>
      cases h
      exact .inl ⟨rfl, rfl⟩
    next =>
      split at h
      next => exact .inr h
      next => cases h

theorem separated_keeps {p : α → Prop}
    (hitem : ∀ {state input state' rest}, p state → item state input = .ok (state', rest) → p state')
     (hstate : p state)
    (h : separated item skip comma close message fuel state input = .ok (state', rest)) :
    p state' := by
  induction fuel generalizing state input with
  | zero => cases h
  | succ fuel ih =>
    obtain ⟨middle, after, symbol, left, hread, -, ⟨rfl, -⟩ | hrest⟩ := separated_ok h
    · exact hitem hstate hread
    · exact ih (hitem hstate hread) hrest

variable (hskip : ∀ input, (skip input).length ≤ input.length)
include hskip

theorem separated_progress {bound : Nat}
    (hitem : ∀ state input, input.length ≤ bound → Progress input.length (item state input))
    (hfuel : input.length < fuel) (hbound : input.length ≤ bound) :
    Progress input.length (separated item skip comma close message fuel state input) := by
  induction fuel generalizing state input with
  | zero => omega
  | succ fuel ih =>
    have hstart := hskip input
    refine (hitem state _ (by omega)).bind fun middle after hafter => ?_
    have hleft := hskip after
    dsimp only
    split
    next => exact True.intro
    next symbol left heq =>
      rw [heq, length_cons] at hleft
      split
      next => exact (by omega : left.length < input.length)
      next =>
        split
        next => exact (ih (by omega) (by omega)).mono (by omega)
        next => exact True.intro

omit hskip

/-- Items that are read behind one another, each before a separator or the end, are read
back from their separated texts. -/
theorem separated_reads {γ : Type} {item : List γ → Parser σ (List γ)} {f : β → γ}
    {print : β → List σ} {values : List β} (hvalues : values ≠ [])
    (hskip : ∀ value ∈ values, ∀ left, skip (print value ++ left) = print value ++ left)
    (hcomma : ∀ left, skip (comma :: left) = comma :: left)
    (hclose : ∀ left, skip (close :: left) = close :: left) (hne : comma ≠ close)
    (hitem : ∀ before value after, values = before ++ value :: after → ∀ symbol left,
      symbol = comma ∨ symbol = close → item (before.map f) (print value ++ symbol :: left) =
        .ok ((before ++ [value]).map f, symbol :: left))
    (hfuel : values.length ≤ fuel) (left : List σ) :
    separated item skip comma close message fuel []
      (separate comma (values.map print) ++ close :: left) = .ok (values.map f, left) := by
  have hrun : ∀ remaining seen fuel, values = seen ++ remaining → remaining ≠ [] →
      remaining.length ≤ fuel → separated item skip comma close message fuel (seen.map f)
        (separate comma (remaining.map print) ++ close :: left) = .ok (values.map f, left) := by
    intro remaining
    induction remaining with
    | nil =>
      intro _ _ _ hne
      exact absurd rfl hne
    | cons value remaining ih =>
      intro seen fuel hsplit _ hfuel
      rw [length_cons] at hfuel
      obtain ⟨fuel, rfl⟩ : ∃ smaller, fuel = smaller + 1 := ⟨fuel - 1, by omega⟩
      have hread := hitem seen value remaining hsplit
      have hstart := hskip value (by simp [hsplit])
      cases remaining with
      | nil =>
        simp only [map_cons, map_nil, separate_singleton, separated, hstart,
          hread close left (.inr rfl), bind, Except.bind, hclose, if_true]
        rw [hsplit]
      | cons second remaining =>
        have hrest := ih (seen ++ [value]) fuel (by simp [hsplit]) (by simp) (by omega)
        simp only [map_cons, separate_cons_cons, append_assoc, cons_append] at hrest ⊢
        simp only [separated, hstart, hread comma _ (.inl rfl), bind, Except.bind, hcomma,
          if_neg hne, if_true]
        exact hrest
  exact hrun values [] fuel rfl hvalues hfuel

end

end QuantumLlm.Parsing
