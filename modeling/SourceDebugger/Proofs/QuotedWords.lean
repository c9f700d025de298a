import Mathlib
import SourceDebugger.Text.Blank
import SourceDebugger.Text.Words

/-!
# Quoted words

Any word can be written in a line: plain characters stand for themselves, and all others stand
between quotes. `Quoted` relates what is written to the word, which can be written in many ways.

* `split_intercalate`: quoted words with spaces between them are split into the words.
* `exists_quoted`: every word can be quoted.
-/

namespace SourceDebugger.Text.Words

/-- Whether a character stands for itself outside of quotes: a letter, a digit or a mark that has no
meaning of its own in a line. -/
def isPlain (c : Char) : Bool := c.isAlphanum || "+-./:@]_".toList.contains c

/-- What is written between double quotes, and the characters that it stands for. -/
inductive DoubleQuoted : List Char → List Char → Prop
  | nil : DoubleQuoted [] []
  /-- A character that has a meaning between double quotes stands behind a backslash. -/
  | hidden {c : Char} {text cs : List Char} : isHidden c = true → DoubleQuoted text cs →
    DoubleQuoted ('\\' :: c :: text) (c :: cs)
  /-- All others stand for themselves. -/
  | plain {c : Char} {text cs : List Char} : isHidden c = false → DoubleQuoted text cs →
    DoubleQuoted (c :: text) (c :: cs)

/-- Pieces of what is written, and the characters that they stand for. -/
inductive Pieces : List Char → List Char → Prop
  | nil : Pieces [] []
  /-- A character that stands for itself. -/
  | plain {c : Char} {text word : List Char} : isPlain c = true → Pieces text word →
    Pieces (c :: text) (c :: word)
  /-- Characters between single quotes. -/
  | single {cs text word : List Char} : '\'' ∉ cs → Pieces text word →
    Pieces ('\'' :: cs ++ '\'' :: text) (cs ++ word)
  /-- Characters between double quotes. -/
  | double {quoted cs text word : List Char} : DoubleQuoted quoted cs → Pieces text word →
    Pieces ('"' :: quoted ++ '"' :: text) (cs ++ word)

/-- What is written stands for the word. -/
structure Quoted (text word : List Char) : Prop where
  /-- Something is written, also for a word without characters. -/
  ne_nil : text ≠ []
  /-- It consists of pieces. -/
  pieces : Pieces text word

variable {c : Char} {text word cs : List Char}

/-! ### Plain characters -/

/-- A plain character is none that has a meaning. -/
theorem ne_of_isPlain (hc : isPlain c = true) {d : Char} (hd : isPlain d = false) : c ≠ d := by
  rintro rfl
  rw [hc] at hd
  cases hd

/-- Plain characters lie between the plus sign and the last small letter. -/
theorem toNat_of_isPlain (hc : isPlain c = true) : 0x2b ≤ c.toNat ∧ c.toNat ≤ 0x7a := by
  rcases Bool.or_eq_true_iff.1 hc with hc | hc
  · have hvalue : c.toNat = c.val.toNat := rfl
    have hdigits : '0'.val.toNat = 0x30 ∧ '9'.val.toNat = 0x39 := ⟨rfl, rfl⟩
    have hupper : 'A'.val.toNat = 0x41 ∧ 'Z'.val.toNat = 0x5a := ⟨rfl, rfl⟩
    have hlower : 'a'.val.toNat = 0x61 ∧ 'z'.val.toNat = 0x7a := ⟨rfl, rfl⟩
    simp only [Char.isAlphanum, Char.isAlpha, Char.isUpper, Char.isLower, Char.isDigit,
      Bool.or_eq_true, Bool.and_eq_true, decide_eq_true_eq, ge_iff_le,
      UInt32.le_iff_toNat_le] at hc
    omega
  · have hmarks : c = '+' ∨ c = '-' ∨ c = '.' ∨ c = '/' ∨ c = ':' ∨ c = '@' ∨ c = ']' ∨
        c = '_' := by
      simpa using hc
    rcases hmarks with rfl | rfl | rfl | rfl | rfl | rfl | rfl | rfl <;> decide

/-- A plain character is no blank. -/
theorem isBlank_of_isPlain (hc : isPlain c = true) : isBlank c = false := by
  have hbounds := toNat_of_isPlain hc
  unfold isBlank
  simp
  omega

/-- A plain character separates no words. -/
theorem isSeparator_of_isPlain (hc : isPlain c = true) : isSeparator c = false := by
  unfold isSeparator
  simp [ne_of_isPlain hc (d := ' ') (by decide), ne_of_isPlain hc (d := '\t') (by decide),
    ne_of_isPlain hc (d := '\n') (by decide)]

/-! ### Splitting -/

/-- A plain character goes to the word. -/
theorem splitFrom_plain (hc : isPlain c = true) (word rest : List Char) :
    splitFrom .plain word (c :: rest) = splitFrom .plain (c :: word) rest := by
  have hsingle : c ≠ '\'' := ne_of_isPlain hc (by decide)
  have hdouble : c ≠ '"' := ne_of_isPlain hc (by decide)
  have hescape : c ≠ '\\' := ne_of_isPlain hc (by decide)
  simp [splitFrom, isSeparator_of_isPlain hc, hsingle, hdouble, hescape]

/-- Between single quotes everything is taken as it is. -/
theorem splitFrom_single (hcs : '\'' ∉ cs) (word rest : List Char) :
    splitFrom .single word (cs ++ '\'' :: rest) = splitFrom .plain (cs.reverse ++ word) rest := by
  induction cs generalizing word with
  | nil => rfl
  | cons c cs ih =>
    obtain ⟨hc, hcs⟩ := List.ne_and_not_mem_of_not_mem_cons hcs
    rw [List.cons_append, splitFrom, if_neg hc.symm, ih hcs, List.reverse_cons, List.append_assoc]
    rfl

/-- Between double quotes everything is taken, with what is escaped. -/
theorem splitFrom_double {quoted : List Char} (h : DoubleQuoted quoted cs) (word rest : List Char) :
    splitFrom .double word (quoted ++ '"' :: rest) =
      splitFrom .plain (cs.reverse ++ word) rest := by
  induction h generalizing word with
  | nil => rfl
  | @hidden c text cs hc _ ih =>
    rw [List.reverse_cons, List.append_assoc, List.singleton_append, ← ih]
    simp [splitFrom, hc]
  | @plain c text cs hc _ ih =>
    have hquote : c ≠ '"' := by rintro rfl; cases hc
    have hescape : c ≠ '\\' := by rintro rfl; cases hc
    rw [List.reverse_cons, List.append_assoc, List.singleton_append, ← ih]
    simp [splitFrom, hquote, hescape]

/-- Pieces add what they stand for to a word. -/
theorem Pieces.splitFrom_append (h : Pieces text cs) (word rest : List Char) :
    splitFrom .plain word (text ++ rest) = splitFrom .plain (cs.reverse ++ word) rest := by
  induction h generalizing word with
  | nil => rfl
  | plain hc _ ih =>
    rw [List.cons_append, splitFrom_plain hc, ih, List.reverse_cons, List.append_assoc]
    rfl
  | single hcs _ ih =>
    rw [List.append_assoc, List.cons_append, List.cons_append, List.reverse_append,
      List.append_assoc, ← ih, ← splitFrom_single hcs]
    rfl
  | double hquoted _ ih =>
    rw [List.append_assoc, List.cons_append, List.cons_append, List.reverse_append,
      List.append_assoc, ← ih, ← splitFrom_double hquoted]
    rfl

/-- A quoted word is read from its first character on. -/
theorem Quoted.splitFrom_append (h : Quoted text word) (rest : List Char) :
    splitFrom .between [] (text ++ rest) = splitFrom .plain word.reverse rest := by
  obtain ⟨hne, hpieces⟩ := h
  -- the start of a word is read as the rest of it, as it is no blank and no remark
  have hstart : splitFrom .between [] (text ++ rest) = splitFrom .plain [] (text ++ rest) := by
    cases hpieces with
    | nil => exact absurd rfl hne
    | @plain c text word hc _ =>
      have hremark : c ≠ '#' := ne_of_isPlain hc (by decide)
      have hsingle : c ≠ '\'' := ne_of_isPlain hc (by decide)
      have hdouble : c ≠ '"' := ne_of_isPlain hc (by decide)
      have hescape : c ≠ '\\' := ne_of_isPlain hc (by decide)
      rw [List.cons_append, splitFrom_plain hc]
      simp [splitFrom, isSeparator_of_isPlain hc, hremark, hsingle, hdouble, hescape]
    | single _ _ | double _ _ => rfl
  rw [hstart, hpieces.splitFrom_append, List.append_nil]

/-- Quoted words with spaces between them are split into the words. -/
theorem split_intercalate {texts words : List (List Char)} (h : List.Forall₂ Quoted texts words) :
    split ([' '].intercalate texts) = some words := by
  unfold split
  induction h with
  | nil => rfl
  | @cons text word texts words hword hrest ih =>
    cases hrest with
    | nil =>
      have hread := hword.splitFrom_append []
      rw [List.append_nil] at hread
      rw [List.intercalate_singleton, hread, splitFrom, List.reverse_reverse]
    | cons =>
      rw [List.intercalate_cons_cons, List.append_assoc, hword.splitFrom_append,
        List.singleton_append, splitFrom]
      simp [isSeparator, ih]

/-! ### Quoting -/

/-- A word is quoted by itself if all its characters are plain. -/
theorem quoted_self (hne : word ≠ []) (hplain : ∀ c ∈ word, isPlain c = true) :
    Quoted word word := by
  refine ⟨hne, ?_⟩
  clear hne
  induction word with
  | nil => exact .nil
  | cons c word ih =>
    exact .plain (hplain c List.mem_cons_self) (ih fun d hd => hplain d (List.mem_cons_of_mem c hd))

/-- Every word can be quoted: single quotes take all characters but themselves. -/
theorem exists_quoted (word : List Char) : ∃ text, Quoted text word := by
  induction word with
  | nil => exact ⟨['\'', '\''], nofun, .single List.not_mem_nil .nil⟩
  | cons c word ih =>
    obtain ⟨text, -, hpieces⟩ := ih
    -- a quote of one kind stands between those of the other kind
    by_cases hc : c = '\''
    · subst hc
      have hquote := Pieces.double (.plain (by decide : isHidden '\'' = false) .nil) hpieces
      exact ⟨_, List.cons_ne_nil _ _, hquote⟩
    · have hquote := Pieces.single (by simpa using Ne.symm hc : '\'' ∉ [c]) hpieces
      exact ⟨_, List.cons_ne_nil _ _, hquote⟩

/-- What is written for a word starts with no blank. -/
theorem Quoted.head?_not_isBlank (h : Quoted text word) :
    ∃ c, text.head? = some c ∧ isBlank c = false := by
  obtain ⟨hne, hpieces⟩ := h
  cases hpieces with
  | nil => exact absurd rfl hne
  | plain hc _ => exact ⟨_, rfl, isBlank_of_isPlain hc⟩
  | single _ _ | double _ _ => exact ⟨_, rfl, by decide⟩

/-- A word does not end in a blank that is not quoted. -/
theorem Pieces.getLast?_not_isBlank (h : Pieces text word) :
    ∀ c, text.getLast? = some c → isBlank c = false := by
  -- the last character is that of the pieces behind the first one, if there are any
  have hlast : ∀ {rest : List Char} {c : Char}, isBlank c = false →
      (∀ d, rest.getLast? = some d → isBlank d = false) →
      ∀ d, (c :: rest).getLast? = some d → isBlank d = false := by
    intro rest c hc hrest d hd
    rw [List.getLast?_cons] at hd
    obtain rfl := Option.some.inj hd
    rcases hlast : rest.getLast? with _ | d
    · exact hc
    · exact hrest d hlast
  induction h with
  | nil => exact nofun
  | plain hc _ ih => exact hlast (isBlank_of_isPlain hc) ih
  | single _ _ ih | double _ _ ih =>
    intro d hd
    rw [List.getLast?_append_of_ne_nil _ (List.cons_ne_nil _ _)] at hd
    exact hlast (by decide) ih d hd

/-- Nor does it end with one. -/
theorem Quoted.getLast?_not_isBlank (h : Quoted text word) :
    ∃ c, text.getLast? = some c ∧ isBlank c = false :=
  have hlast := List.getLast?_eq_some_getLast h.ne_nil
  ⟨_, hlast, h.pieces.getLast?_not_isBlank _ hlast⟩

end SourceDebugger.Text.Words
