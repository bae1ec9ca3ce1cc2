import Mathlib.Data.List.Basic

/-!
# Lines of fields

Texts in which every line ends in a newline and its fields stand between separators,
and the numbers in them. What is joined is split again where no part has the separator.
-/

namespace QuantumLlm.Lines

open List

def join (separator : Char) (parts : List String) : String :=
  String.intercalate (String.singleton separator) parts

def split (separator : Char) (text : String) : List String :=
  (text.toList.splitOn separator).map String.ofList

/-- Lines with an end behind each. -/
def terminated (newline : Char) (lines : List String) : String :=
  join newline lines ++ String.singleton newline

section

variable {separator : Char} {parts : List String}

theorem toList_join : (join separator parts).toList =
    [separator].intercalate (parts.map String.toList) := by
  rw [join, String.toList_intercalate, String.toList_singleton]

theorem split_join (hparts : ∀ part ∈ parts, separator ∉ part.toList) (hne : parts ≠ []) :
    split separator (join separator parts) = parts := by
  rw [split, toList_join, splitOn_intercalate, map_map]
  · simp
  · simpa using hparts
  · simpa using hne

theorem join_append_empty (hne : parts ≠ []) :
    join separator (parts ++ [""]) = terminated separator parts := by
  apply String.toList_inj.1
  rw [terminated, String.toList_append, String.toList_singleton, toList_join, toList_join]
  induction parts with
  | nil => exact absurd rfl hne
  | cons part rest ih =>
    cases rest with
    | nil => simp
    | cons next rest =>
      have hrest := ih (cons_ne_nil next rest)
      simp only [map_cons, cons_append, intercalate_cons_cons] at hrest ⊢
      simp only [hrest, append_assoc]

theorem split_terminated (hparts : ∀ part ∈ parts, separator ∉ part.toList) (hne : parts ≠ []) :
    split separator (terminated separator parts) = parts ++ [""] := by
  rw [← join_append_empty hne]
  refine split_join (fun part hpart => ?_) (by simp)
  rcases mem_append.1 hpart with hpart | hpart
  · exact hparts part hpart
  · simp [mem_singleton.1 hpart]

theorem mem_join {c : Char} (h : c ∈ (join separator parts).toList) :
    c = separator ∨ ∃ part ∈ parts, c ∈ part.toList := by
  rw [toList_join] at h
  induction parts with
  | nil => simp at h
  | cons part rest ih =>
    cases rest with
    | nil => exact .inr ⟨part, mem_cons_self, by simpa using h⟩
    | cons next rest =>
      simp only [map_cons, intercalate_cons_cons, mem_append, mem_singleton] at h ih
      rcases h with (hpart | hsep) | hrest
      · exact .inr ⟨part, mem_cons_self, hpart⟩
      · exact .inl hsep
      · rcases ih hrest with hsep | ⟨found, hfound, hc⟩
        · exact .inl hsep
        · exact .inr ⟨found, mem_cons_of_mem _ hfound, hc⟩

theorem mem_join_of_mem {part : String} {c : Char} (hpart : part ∈ parts) (hc : c ∈ part.toList) :
    c ∈ (join separator parts).toList := by
  rw [toList_join]
  induction parts with
  | nil => cases hpart
  | cons first rest ih =>
    cases rest with
    | nil =>
      obtain rfl := mem_singleton.1 hpart
      simpa using hc
    | cons next rest =>
      simp only [map_cons, intercalate_cons_cons, mem_append] at ih ⊢
      rcases mem_cons.1 hpart with rfl | hlater
      · exact .inl (.inl hc)
      · exact .inr (ih hlater)

theorem join_concat (last : String) :
    ∃ front, (join separator (parts ++ [last])).toList = front ++ last.toList := by
  rw [toList_join]
  induction parts with
  | nil => exact ⟨[], by simp⟩
  | cons first rest ih =>
    obtain ⟨front, hfront⟩ := ih
    cases hrest : rest ++ [last] with
    | nil => simp at hrest
    | cons next others =>
      rw [hrest] at hfront
      refine ⟨first.toList ++ [separator] ++ front, ?_⟩
      rw [cons_append, hrest, map_cons, map_cons, intercalate_cons_cons]
      rw [map_cons] at hfront
      rw [hfront]
      simp only [append_assoc]

theorem getLast?_terminated {newline : Char} :
    (terminated newline parts).toList.getLast? = some newline := by
  rw [terminated, String.toList_append, String.toList_singleton, getLast?_concat]

theorem toList_ofList_parts {chars : List (List Char)} :
    (chars.map String.ofList).map String.toList = chars := by
  rw [map_map]
  exact (map_congr_left fun part _ => String.toList_ofList).trans (map_id chars)

theorem join_split (text : String) : join separator (split separator text) = text := by
  apply String.toList_inj.1
  rw [toList_join, split, toList_ofList_parts, intercalate_splitOn]

theorem not_mem_splitOn {chars part : List Char} (h : part ∈ chars.splitOn separator) :
    separator ∉ part := by
  induction chars generalizing part with
  | nil =>
    rw [mem_singleton.1 h]
    exact not_mem_nil
  | cons c rest ih =>
    rw [splitOn_cons_eq_if_modifyHead] at h
    split at h
    · rcases mem_cons.1 h with rfl | hlater
      · exact not_mem_nil
      · exact ih hlater
    · rename_i hc
      cases hparts : rest.splitOn separator with
      | nil => exact absurd hparts (splitOn_ne_nil separator rest)
      | cons first others =>
        rw [hparts, modifyHead_cons] at h
        rw [hparts] at ih
        rcases mem_cons.1 h with rfl | hlater
        · rw [mem_cons, not_or]
          refine ⟨fun hsame => hc ?_, ih mem_cons_self⟩
          rw [hsame]
          exact BEq.refl _
        · exact ih (mem_cons_of_mem _ hlater)

theorem not_mem_split {text part : String} (h : part ∈ split separator text) :
    separator ∉ part.toList := by
  obtain ⟨chars, hchars, rfl⟩ := mem_map.1 h
  rw [String.toList_ofList]
  exact not_mem_splitOn hchars

theorem split_ne_nil (text : String) : split separator text ≠ [] := fun h =>
  splitOn_ne_nil separator text.toList (map_eq_nil_iff.1 h)

theorem join_ne_empty {first : String} {rest : List String} (hfirst : first ≠ "") :
    join separator (first :: rest) ≠ "" := by
  intro h
  have hlist := congrArg String.toList h
  rw [toList_join] at hlist
  have hempty : first.toList = [] := by
    cases rest with
    | nil => simpa using hlist
    | cons next rest => simp [intercalate_cons_cons] at hlist
  exact hfirst (String.toList_inj.1 (by simpa using hempty))

end

/-- A number in decimal digits, with nothing before or behind it. -/
def decimal? (limit : Nat) (text : String) : Option Nat :=
  if text ≠ "" ∧ text.toList.all Char.isDigit ∧ Nat.ofDigitChars 10 text.toList 0 < limit then
    some (Nat.ofDigitChars 10 text.toList 0)
  else none

variable {limit value : Nat}

theorem toList_toString : (toString value).toList = Nat.toDigits 10 value := by
  rw [Nat.toString_eq_ofList_toDigits, String.toList_ofList]

theorem decimal?_toString (h : value < limit) : decimal? limit (toString value) = some value := by
  have hne : toString value ≠ "" := by
    intro hempty
    have hlist := congrArg String.toList hempty
    rw [toList_toString] at hlist
    exact Nat.toDigits_ne_nil hlist
  have hdigits : (Nat.toDigits 10 value).all Char.isDigit := by
    rw [all_eq_true]
    intro c hc
    exact Nat.isDigit_of_mem_toDigits (by decide) (by decide) hc
  rw [decimal?, toList_toString, Nat.ofDigitChars_ten_toDigits, if_pos ⟨hne, hdigits, h⟩]

theorem isDigit_of_mem_toString {c : Char} (h : c ∈ (toString value).toList) : c.isDigit := by
  rw [toList_toString] at h
  exact Nat.isDigit_of_mem_toDigits (by decide) (by decide) h

end QuantumLlm.Lines
