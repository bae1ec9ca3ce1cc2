import QuantumLlm.Lib.Lines

/-!
# Text as Python reads it

`str.splitlines` ends a line at more characters than the newline, and `int` takes more
digits than the ASCII ones. Where a text ends all its lines with a newline and has none of
the other characters, its lines are those between newlines.
-/

namespace QuantumLlm.PythonText

open List

/-! ## Lines -/

/-- The characters that end a line. -/
def boundaries : List Char :=
  ['\n', '\r', Char.ofNat 0x0b, Char.ofNat 0x0c, Char.ofNat 0x1c, Char.ofNat 0x1d, Char.ofNat 0x1e,
    Char.ofNat 0x85, Char.ofNat 0x2028, Char.ofNat 0x2029]

/-- The lines from a begun one on; a newline behind a carriage return ends no other line. -/
def linesFrom (afterReturn : Bool) (line : List Char) : List Char → List (List Char)
  | [] => if line = [] then [] else [line]
  | c :: rest =>
    if afterReturn = true ∧ c = '\n' then linesFrom false line rest
    else if c ∈ boundaries then line :: linesFrom (decide (c = '\r')) [] rest
    else linesFrom false (line ++ [c]) rest

/-- `str.splitlines` -/
def splitlines (text : String) : List String :=
  (linesFrom false [] text.toList).map String.ofList

/-- Every line ends with a newline, and no other character ends one. -/
structure OnlyNewlines (text : String) : Prop where
  others : ∀ c ∈ text.toList, c ∈ boundaries → c = '\n'
  ends : text.toList.getLast? = some '\n'

variable {afterReturn : Bool} {line chars rest : List Char} {text : String} {c : Char}

theorem linesFrom_not_boundary (hline : ∀ c ∈ line, c ∉ boundaries) :
    ∀ found ∈ linesFrom afterReturn line chars, ∀ c ∈ found, c ∉ boundaries := by
  induction chars generalizing afterReturn line with
  | nil =>
    intro found hfound
    unfold linesFrom at hfound
    split at hfound
    · cases hfound
    · rw [mem_singleton.1 hfound]
      exact hline
  | cons c rest ih =>
    intro found hfound
    unfold linesFrom at hfound
    split at hfound
    · exact ih hline found hfound
    · split at hfound
      · rcases mem_cons.1 hfound with rfl | hlater
        · exact hline
        · exact ih (fun c hc => by cases hc) found hlater
      · rename_i hnot
        refine ih (fun other hother => ?_) found hfound
        rcases mem_append.1 hother with hold | hnew
        · exact hline other hold
        · rw [mem_singleton.1 hnew]
          exact hnot

theorem splitlines_not_boundary {line : String} (h : line ∈ splitlines text) :
    ∀ c ∈ line.toList, c ∉ boundaries := by
  obtain ⟨chars, hchars, rfl⟩ := mem_map.1 h
  rw [String.toList_ofList]
  exact linesFrom_not_boundary (fun c hc => by cases hc) chars hchars

theorem linesFrom_splitOn {line chars : List Char} (hline : '\n' ∉ line)
    (hothers : ∀ c ∈ chars, c ∈ boundaries → c = '\n') (hends : chars.getLast? = some '\n') :
    (line ++ chars).splitOn '\n' = linesFrom false line chars ++ [[]] := by
  induction chars generalizing line with
  | nil => cases hends
  | cons c rest ih =>
    have hrest : ∀ other ∈ rest, other ∈ boundaries → other = '\n' :=
      fun other hother => hothers other (mem_cons_of_mem _ hother)
    unfold linesFrom
    rw [if_neg (by simp)]
    by_cases hc : c ∈ boundaries
    · have hnewline := hothers c mem_cons_self hc
      subst hnewline
      rw [if_pos hc, splitOn_append_cons_self_of_not_mem hline, cons_append]
      congr 1
      cases rest with
      | nil => rfl
      | cons next others => exact ih not_mem_nil hrest hends
    · rw [if_neg hc]
      cases rest with
      | nil =>
        cases hends
        exact absurd (by decide) hc
      | cons next others =>
        have hnot : '\n' ∉ line ++ [c] := by
          intro hmem
          rcases mem_append.1 hmem with hold | hnew
          · exact hline hold
          · rw [← mem_singleton.1 hnew] at hc
            exact hc (by decide)
        have hnext := ih hnot hrest hends
        rw [append_assoc] at hnext
        exact hnext

theorem OnlyNewlines.split (h : OnlyNewlines text) :
    Lines.split '\n' text = splitlines text ++ [""] := by
  have hlines := @linesFrom_splitOn [] text.toList not_mem_nil h.others h.ends
  unfold Lines.split splitlines
  rw [nil_append] at hlines
  rw [hlines, map_append]
  rfl

theorem linesFrom_cons :
    linesFrom afterReturn line (c :: rest) =
      if afterReturn = true ∧ c = '\n' then linesFrom false line rest
      else if c ∈ boundaries then line :: linesFrom (decide (c = '\r')) [] rest
      else linesFrom false (line ++ [c]) rest := rfl

theorem linesFrom_newline (h : afterReturn = true → line = []) :
    linesFrom afterReturn line (chars ++ '\n' :: rest) =
      linesFrom afterReturn line (chars ++ ['\n']) ++ linesFrom false [] rest := by
  induction chars generalizing afterReturn line with
  | nil =>
    rw [nil_append, nil_append, linesFrom_cons, linesFrom_cons]
    by_cases hreturn : afterReturn = true
    · rw [if_pos ⟨hreturn, rfl⟩, if_pos ⟨hreturn, rfl⟩, h hreturn]
      rfl
    · have hnew : ¬ (afterReturn = true ∧ '\n' = '\n') := fun hboth => hreturn hboth.1
      have hends : '\n' ∈ boundaries := by decide
      rw [if_neg hnew, if_neg hnew, if_pos hends, if_pos hends]
      rfl
  | cons c others ih =>
    rw [cons_append, cons_append, linesFrom_cons, linesFrom_cons]
    by_cases hskipped : afterReturn = true ∧ c = '\n'
    · rw [if_pos hskipped, if_pos hskipped]
      exact ih (nofun)
    · rw [if_neg hskipped, if_neg hskipped]
      by_cases hends : c ∈ boundaries
      · rw [if_pos hends, if_pos hends, cons_append, ih fun _ => rfl]
      · rw [if_neg hends, if_neg hends]
        exact ih (nofun)

theorem splitlines_terminated {lines : List String} (hsome : lines ≠ []) :
    splitlines (Lines.terminated '\n' lines) =
      lines.flatMap fun line => splitlines (line ++ String.singleton '\n') := by
  induction lines with
  | nil => exact absurd rfl hsome
  | cons line rest ih =>
    cases rest with
    | nil =>
      rw [flatMap_singleton]
      rfl
    | cons next others =>
      rw [flatMap_cons, ← ih (cons_ne_nil next others)]
      have hchars : (Lines.terminated '\n' (line :: next :: others)).toList =
          line.toList ++ '\n' :: (Lines.terminated '\n' (next :: others)).toList := by
        rw [Lines.terminated, Lines.terminated, String.toList_append, String.toList_append,
          Lines.toList_join, Lines.toList_join, map_cons, map_cons,
          intercalate_cons_cons]
        simp only [append_assoc, cons_append, nil_append]
      unfold splitlines
      rw [hchars, linesFrom_newline (fun hreturn => by cases hreturn), map_append,
        String.toList_append, String.toList_singleton]

/-! ## Numbers -/

/-- `str.isspace` of one character. -/
def isSpace (c : Char) : Bool :=
  (9 ≤ c.toNat && c.toNat ≤ 13) || (0x1c ≤ c.toNat && c.toNat ≤ 0x20) ||
    (0x2000 ≤ c.toNat && c.toNat ≤ 0x200a) ||
    c.toNat ∈ [0x85, 0xa0, 0x1680, 0x2028, 0x2029, 0x202f, 0x205f, 0x3000]

/-- The zeros of the decimal digits. -/
def decimalZeros : List Nat :=
  [0x30, 0x660, 0x6f0, 0x7c0, 0x966, 0x9e6, 0xa66, 0xae6, 0xb66, 0xbe6, 0xc66, 0xce6, 0xd66, 0xde6,
    0xe50, 0xed0, 0xf20, 0x1040, 0x1090, 0x17e0, 0x1810, 0x1946, 0x19d0, 0x1a80, 0x1a90, 0x1b50,
    0x1bb0, 0x1c40, 0x1c50, 0xa620, 0xa8d0, 0xa900, 0xa9d0, 0xa9f0, 0xaa50, 0xabf0, 0xff10, 0x104a0,
    0x10d30, 0x11066, 0x110f0, 0x11136, 0x111d0, 0x112f0, 0x11450, 0x114d0, 0x11650, 0x116c0,
    0x11730, 0x118e0, 0x11950, 0x11c50, 0x11d50, 0x11da0, 0x11f50, 0x16a60, 0x16ac0, 0x16b50,
    0x1d7ce, 0x1d7d8, 0x1d7e2, 0x1d7ec, 0x1d7f6, 0x1e140, 0x1e2f0, 0x1e4f0, 0x1e950, 0x1fbf0]

def digit? (c : Char) : Option Nat :=
  (decimalZeros.find? fun first => first ≤ c.toNat ∧ c.toNat < first + 10).map (c.toNat - ·)

/-- Digits, with at most one underscore between two of them. -/
def digitsFrom (needed : Bool) (found : List Nat) : List Char → Option (List Nat)
  | [] => if needed then none else some found
  | c :: rest =>
    match digit? c with
    | some digit => digitsFrom false (found ++ [digit]) rest
    | none => if c = '_' ∧ needed = false then digitsFrom true found rest else none

def maxStrDigits : Nat := 4300

/-- `int` of a text behind its sign. -/
def natural? (chars : List Char) : Option Nat :=
  match digitsFrom true [] chars with
  | some digits =>
    if digits.length ≤ maxStrDigits then
      some (digits.foldl (fun value digit => 10 * value + digit) 0)
    else none
  | none => none

/-- `int` of a text; nothing when it throws. -/
def int? (text : String) : Option Int :=
  match ((text.toList.dropWhile isSpace).reverse.dropWhile isSpace).reverse with
  | '-' :: rest => (natural? rest).map fun value => -(value : Int)
  | '+' :: rest => (natural? rest).map Int.ofNat
  | chars => (natural? chars).map Int.ofNat

theorem digit?_of_isDigit (h : c.isDigit) : digit? c = some (c.toNat - '0'.toNat) := by
  have hrange : 48 ≤ c.toNat ∧ c.toNat ≤ 57 := Char.isDigit_iff_toNat.1 h
  have hzero : (decimalZeros.find? fun first => first ≤ c.toNat ∧ c.toNat < first + 10) =
      some 0x30 := by
    unfold decimalZeros
    rw [find?_cons_of_pos]
    simp only [decide_eq_true_eq]
    omega
  unfold digit?
  rw [hzero]
  rfl

theorem digitsFrom_of_isDigit {needed : Bool} {found : List Nat}
    (h : chars.all Char.isDigit) (hsome : needed = true → chars ≠ []) :
    digitsFrom needed found chars =
      some (found ++ chars.map fun c => c.toNat - '0'.toNat) := by
  induction chars generalizing needed found with
  | nil =>
    cases needed with
    | true => exact absurd rfl (hsome rfl)
    | false => rw [map_nil, append_nil]; rfl
  | cons c rest ih =>
    rw [all_cons, Bool.and_eq_true] at h
    unfold digitsFrom
    rw [digit?_of_isDigit h.1]
    dsimp only
    rw [ih h.2 (fun hneeded => by cases hneeded), map_cons, append_assoc]
    rfl

theorem not_isSpace_of_isDigit (h : c.isDigit) : isSpace c = false := by
  have hrange : 48 ≤ c.toNat ∧ c.toNat ≤ 57 := Char.isDigit_iff_toNat.1 h
  unfold isSpace
  simp only [mem_cons, not_mem_nil, or_false, Bool.or_eq_false_iff, Bool.and_eq_false_iff,
    decide_eq_false_iff_not]
  omega

theorem dropWhile_isSpace (h : chars.all Char.isDigit) :
    chars.dropWhile isSpace = chars := by
  cases chars with
  | nil => rfl
  | cons c rest =>
    rw [all_cons, Bool.and_eq_true] at h
    rw [dropWhile_cons_of_neg]
    rw [not_isSpace_of_isDigit h.1]
    exact Bool.false_ne_true

theorem int?_eq {limit value : Nat} {result : Int}
    (h : Lines.decimal? limit text = some value) (hint : int? text = some result) :
    result = value := by
  unfold Lines.decimal? at h
  split at h
  next hdecimal =>
    obtain ⟨hne, hdigits, -⟩ := hdecimal
    cases h
    have hreverse : text.toList.reverse.all Char.isDigit := by
      rw [all_reverse]
      exact hdigits
    have hsome : text.toList ≠ [] := fun hnil => hne (String.toList_inj.1 hnil)
    have hnatural : ∀ number, natural? text.toList = some number →
        number = Nat.ofDigitChars 10 text.toList 0 := by
      intro number hnumber
      unfold natural? at hnumber
      rw [digitsFrom_of_isDigit hdigits fun _ => hsome, nil_append] at hnumber
      dsimp only at hnumber
      split at hnumber
      · cases hnumber
        rw [Nat.ofDigitChars_eq_foldl, foldl_map]
      · cases hnumber
    unfold int? at hint
    rw [dropWhile_isSpace hdigits, dropWhile_isSpace hreverse, reverse_reverse] at hint
    split at hint
    next rest hminus =>
      rw [hminus, all_cons, Bool.and_eq_true] at hdigits
      exact absurd hdigits.1 (by decide)
    next rest hplus =>
      rw [hplus, all_cons, Bool.and_eq_true] at hdigits
      exact absurd hdigits.1 (by decide)
    next =>
      obtain ⟨number, hnumber, rfl⟩ := Option.map_eq_some_iff.1 hint
      rw [hnatural number hnumber]
      rfl
  next => cases h

end QuantumLlm.PythonText
