import Mathlib.Data.List.Basic
import Mathlib.Data.List.MinMax
import Mathlib.Order.Basic

/-!
# Occurrences in a text

Where words occur in a text, the least place where one of several words does, and how much
of the end of a text may still become a word.
-/

namespace QuantumLlm.Occurrences

open List

variable {α : Type} {word text : List α} {words : List (List α)} {index : Nat}

/-- A word stands in a text behind so many symbols. -/
def Occurs (word text : List α) (index : Nat) : Prop :=
  ∃ front behind, text = front ++ word ++ behind ∧ front.length = index

theorem occurs_zero : Occurs word text 0 ↔ word <+: text := by
  constructor
  · intro h
    obtain ⟨front, behind, htext, hlength⟩ := h
    obtain rfl := length_eq_zero_iff.1 hlength
    exact ⟨behind, htext.symm⟩
  · intro h
    obtain ⟨behind, htext⟩ := h
    exact ⟨[], behind, htext.symm, rfl⟩

theorem occurs_succ {symbol : α} {rest : List α} :
    Occurs word (symbol :: rest) (index + 1) ↔ Occurs word rest index := by
  constructor
  · intro h
    obtain ⟨front, behind, htext, hlength⟩ := h
    cases front with
    | nil => cases hlength
    | cons first front =>
      rw [cons_append, cons_append, List.cons.injEq] at htext
      exact ⟨front, behind, htext.2, Nat.succ.inj hlength⟩
  · intro h
    obtain ⟨front, behind, rfl, rfl⟩ := h
    exact ⟨symbol :: front, behind, rfl, rfl⟩

theorem not_occurs_nil_succ : ¬ Occurs word [] (index + 1) := by
  intro h
  obtain ⟨front, behind, htext, hlength⟩ := h
  rw [append_assoc] at htext
  have hnil := (append_eq_nil_iff.1 htext.symm).1
  rw [hnil] at hlength
  cases hlength

theorem occurs_append {front back : List α} :
    Occurs word (front ++ back) (front.length + index) ↔ Occurs word back index := by
  induction front with
  | nil => rw [nil_append, length_nil, Nat.zero_add]
  | cons symbol front ih => rw [cons_append, length_cons, Nat.succ_add, occurs_succ, ih]

/-- No word occurs at a place. -/
def Free (words : List (List α)) (text : List α) (index : Nat) : Prop :=
  ∀ word ∈ words, ¬ Occurs word text index

/-- So much of the end of a text holds every beginning of a word that may still go on. -/
def Holds (words : List (List α)) (text : List α) (held : Nat) : Prop :=
  ∀ word ∈ words, ∀ size < word.length, word.take size <:+ text → size ≤ held

theorem free_before_held {held : Nat} {more : List α} (hfree : ∀ index, Free words text index)
    (hheld : Holds words text held) (hindex : index + held < text.length) :
    Free words (text ++ more) index := by
  intro word hword hoccurs
  obtain ⟨front, behind, htext, rfl⟩ := hoccurs
  by_cases hends : (front ++ word).length ≤ text.length
  · have hprefix : front ++ word <+: text :=
      prefix_of_prefix_length_le ⟨behind, htext.symm⟩ (prefix_append _ _) hends
    obtain ⟨rest, hrest⟩ := hprefix
    exact hfree front.length word hword ⟨front, rest, hrest.symm, rfl⟩
  · rw [length_append, Nat.not_le] at hends
    have hfront : front <+: text :=
      prefix_of_prefix_length_le ⟨word ++ behind, by rw [← append_assoc, htext]⟩
        (prefix_append _ _) (by omega)
    obtain ⟨rest, rfl⟩ := hfront
    rw [append_assoc, append_assoc] at htext
    have hsame := append_cancel_left htext
    rw [length_append] at hends hindex
    have htake : word.take rest.length = rest := by
      have htaken := congrArg (List.take rest.length) hsame
      rw [take_left, take_append_of_le_length (by omega)] at htaken
      exact htaken.symm
    have hle := hheld word hword rest.length (by omega) (by
      rw [htake]
      exact suffix_append _ _)
    omega

theorem holds_append {held longer : Nat} {front back more : List α} (htext : text = front ++ back)
    (hheld : Holds words text held) (hback : held ≤ back.length)
    (hlonger : Holds words (back ++ more) longer) : Holds words (text ++ more) longer := by
  intro word hword size hsize hends
  refine hlonger word hword size hsize ?_
  have hlength : size ≤ (back ++ more).length := by
    rw [length_append]
    by_cases hshort : size ≤ more.length
    · omega
    · obtain ⟨start, hstart⟩ := hends
      have htake : (word.take size).take (size - more.length) <:+ text := by
        refine ⟨start, ?_⟩
        have hcut := congrArg (List.take text.length) hstart
        rw [take_left, take_append] at hcut
        have hcount := congrArg List.length hstart
        rw [length_append, length_append, length_take] at hcount
        have hstartLess : start.length ≤ text.length := by omega
        rw [take_of_length_le hstartLess] at hcut
        rw [← hcut]
        congr 2
        omega
      rw [take_take, Nat.min_eq_left (Nat.sub_le _ _)] at htake
      have hle := hheld word hword _ (by omega) htake
      omega
  rw [htext, append_assoc] at hends
  refine suffix_of_suffix_length_le hends (suffix_append front _) ?_
  rw [length_take]
  omega

section

variable [DecidableEq α]

/-- The least place of a word. -/
def find (word : List α) : List α → Option Nat
  | [] => if word = [] then some 0 else none
  | symbol :: rest =>
    if word.isPrefixOf (symbol :: rest) then some 0 else (find word rest).map (· + 1)

/-- The least place of any of several words. -/
def earliest (words : List (List α)) (text : List α) : Option Nat :=
  (words.filterMap (find · text)).min?

/-- The longest beginning of a word, up to a size, that ends a text. -/
def heldBy (word text : List α) : Nat → Nat
  | 0 => 0
  | size + 1 => if (word.take (size + 1)).isSuffixOf text then size + 1 else heldBy word text size

theorem find_some (h : find word text = some index) :
    Occurs word text index ∧ ∀ other < index, ¬ Occurs word text other := by
  induction text generalizing index with
  | nil =>
    unfold find at h
    by_cases hword : word = []
    · rw [if_pos hword] at h
      cases h
      exact ⟨⟨[], [], by simp [hword], rfl⟩, fun other hother => absurd hother (Nat.not_lt_zero _)⟩
    · rw [if_neg hword] at h
      cases h
  | cons symbol rest ih =>
    unfold find at h
    by_cases hprefix : word.isPrefixOf (symbol :: rest)
    · rw [if_pos hprefix] at h
      cases h
      exact ⟨occurs_zero.2 (List.isPrefixOf_iff_prefix.1 hprefix),
        fun other hother => absurd hother (Nat.not_lt_zero _)⟩
    · rw [if_neg hprefix] at h
      obtain ⟨place, hplace, rfl⟩ := Option.map_eq_some_iff.1 h
      obtain ⟨hoccurs, hleast⟩ := ih hplace
      refine ⟨occurs_succ.2 hoccurs, fun other hother => ?_⟩
      cases other with
      | zero => exact fun hzero => hprefix (List.isPrefixOf_iff_prefix.2 (occurs_zero.1 hzero))
      | succ other =>
        exact fun hlater => hleast other (Nat.lt_of_succ_lt_succ hother) (occurs_succ.1 hlater)

theorem find_none (h : find word text = none) : ¬ Occurs word text index := by
  induction text generalizing index with
  | nil =>
    unfold find at h
    by_cases hword : word = []
    · rw [if_pos hword] at h
      cases h
    · cases index with
      | zero =>
        intro hzero
        exact hword (prefix_nil.1 (occurs_zero.1 hzero))
      | succ index => exact not_occurs_nil_succ
  | cons symbol rest ih =>
    unfold find at h
    by_cases hprefix : word.isPrefixOf (symbol :: rest)
    · rw [if_pos hprefix] at h
      cases h
    · rw [if_neg hprefix, Option.map_eq_none_iff] at h
      cases index with
      | zero => exact fun hzero => hprefix (List.isPrefixOf_iff_prefix.2 (occurs_zero.1 hzero))
      | succ index => exact fun hlater => ih h (occurs_succ.1 hlater)

theorem earliest_some_iff : earliest words text = some index ↔
    (∃ word ∈ words, Occurs word text index) ∧ ∀ other < index, Free words text other := by
  constructor
  · intro h
    obtain ⟨hmem, hleast⟩ := min?_eq_some_iff.1 h
    obtain ⟨word, hword, hfind⟩ := mem_filterMap.1 hmem
    refine ⟨⟨word, hword, (find_some hfind).1⟩, fun other hother found hfound hoccurs => ?_⟩
    cases hplace : find found text with
    | none => exact find_none hplace hoccurs
    | some place =>
      have hle := hleast place (mem_filterMap.2 ⟨found, hfound, hplace⟩)
      exact (find_some hplace).2 other (Nat.lt_of_lt_of_le hother hle) hoccurs
  · intro h
    obtain ⟨⟨word, hword, hoccurs⟩, hfree⟩ := h
    refine min?_eq_some_iff.2 ⟨mem_filterMap.2 ⟨word, hword, ?_⟩, fun place hplace => ?_⟩
    · cases hfound : find word text with
      | none => exact absurd hoccurs (find_none hfound)
      | some place =>
        obtain ⟨hthere, hleast⟩ := find_some hfound
        rcases Nat.lt_trichotomy place index with hlt | heq | hgt
        · exact absurd hthere (hfree place hlt word hword)
        · rw [heq]
        · exact absurd hoccurs (hleast index hgt)
    · obtain ⟨found, hfound, hfind⟩ := mem_filterMap.1 hplace
      by_contra hless
      exact hfree place (Nat.not_le.1 hless) found hfound (find_some hfind).1

theorem earliest_none_iff : earliest words text = none ↔ ∀ index, Free words text index := by
  constructor
  · intro h index word hword hoccurs
    have hempty := min?_eq_none_iff.1 h
    cases hplace : find word text with
    | none => exact find_none hplace hoccurs
    | some place =>
      have hmem : place ∈ words.filterMap (find · text) :=
        mem_filterMap.2 ⟨word, hword, hplace⟩
      rw [hempty] at hmem
      cases hmem
  · intro h
    cases hearliest : earliest words text with
    | none => rfl
    | some index =>
      obtain ⟨⟨word, hword, hoccurs⟩, -⟩ := earliest_some_iff.1 hearliest
      exact absurd hoccurs (h index word hword)

theorem earliest_append {front back : List α}
    (hfree : ∀ index < front.length, Free words (front ++ back) index) :
    earliest words (front ++ back) = (earliest words back).map (front.length + ·) := by
  cases hback : earliest words back with
  | none =>
    rw [Option.map_none, earliest_none_iff]
    intro index word hword hoccurs
    by_cases hindex : index < front.length
    · exact hfree index hindex word hword hoccurs
    · obtain ⟨place, rfl⟩ := Nat.exists_eq_add_of_le (Nat.not_lt.1 hindex)
      exact earliest_none_iff.1 hback place word hword (occurs_append.1 hoccurs)
  | some place =>
    obtain ⟨⟨word, hword, hoccurs⟩, hbefore⟩ := earliest_some_iff.1 hback
    rw [Option.map_some, earliest_some_iff]
    refine ⟨⟨word, hword, occurs_append.2 hoccurs⟩, fun index hindex => ?_⟩
    by_cases hfront : index < front.length
    · exact hfree index hfront
    · obtain ⟨other, rfl⟩ := Nat.exists_eq_add_of_le (Nat.not_lt.1 hfront)
      intro found hfound hthere
      exact hbefore other (by omega) found hfound (occurs_append.1 hthere)

theorem le_heldBy {size maximum : Nat} (hsize : size ≤ maximum)
    (hends : word.take size <:+ text) : size ≤ heldBy word text maximum := by
  induction maximum with
  | zero => exact hsize
  | succ maximum ih =>
    unfold heldBy
    by_cases htaken : (word.take (maximum + 1)).isSuffixOf text
    · rw [if_pos htaken]
      exact hsize
    · rw [if_neg htaken]
      rcases Nat.lt_or_eq_of_le hsize with hlt | rfl
      · exact ih (Nat.le_of_lt_succ hlt)
      · exact absurd (isSuffixOf_iff_suffix.2 hends) htaken

theorem heldBy_le {maximum : Nat} : heldBy word text maximum ≤ maximum := by
  induction maximum with
  | zero => exact Nat.le_refl _
  | succ maximum ih =>
    unfold heldBy
    split
    · exact Nat.le_refl _
    · exact Nat.le_succ_of_le ih

end

end QuantumLlm.Occurrences
