import SourceDebugger.Command.Parse
import SourceDebugger.Proofs.QuotedWords

/-!
# Typed commands

Every command can be typed and is read back. `Command.Spelled` says with which words a command is
typed, and the arguments are quoted in any of the ways there are. Nothing is known of the `Splitter`
of lines but that it gives back quoted words.

* `Splitter.parse_spelled`: a line in which a command is spelled is read as that command, whatever
  stands in its arguments, and no line is read as a location without a file.
-/

namespace SourceDebugger

open Text.Words

/-! ### Blanks -/

namespace Text

/-- Blanks in front are trimmed. -/
theorem trimStart_append {blanks : List Char} (h : ∀ c ∈ blanks, isBlank c = true)
    (cs : List Char) : trimStart (blanks ++ cs) = trimStart cs := by
  induction blanks with
  | nil => rfl
  | cons c blanks ih =>
    rw [trimStart, List.cons_append, List.dropWhile_cons_of_pos (h c List.mem_cons_self)]
    exact ih fun d hd => h d (List.mem_cons_of_mem c hd)

/-- What does not start with a blank is not trimmed. -/
theorem trimStart_of_head? {cs : List Char} {c : Char} (hhead : cs.head? = some c)
    (hc : isBlank c = false) : trimStart cs = cs := by
  obtain ⟨rest, rfl⟩ := List.head?_eq_some_iff.1 hhead
  rw [trimStart, List.dropWhile_cons_of_neg (by simpa using hc)]

/-- A text with no blanks at its ends. -/
structure Tight (cs : List Char) : Prop where
  head : ∃ c, cs.head? = some c ∧ isBlank c = false
  last : ∃ c, cs.getLast? = some c ∧ isBlank c = false

/-- What has no blanks at its ends is left of the blanks around it. -/
theorem Tight.trim_append {cs before after : List Char} (h : Tight cs)
    (hbefore : ∀ c ∈ before, isBlank c = true) (hafter : ∀ c ∈ after, isBlank c = true) :
    trim (before ++ cs ++ after) = cs := by
  obtain ⟨first, hfirst, hfirst'⟩ := h.head
  obtain ⟨last, hlast, hlast'⟩ := h.last
  have hstart : trimStart (before ++ cs ++ after) = cs ++ after := by
    rw [List.append_assoc, trimStart_append hbefore]
    exact trimStart_of_head? (by rw [List.head?_append, hfirst, Option.some_or]) hfirst'
  have hafter' : ∀ c ∈ after.reverse, isBlank c = true := fun c hc =>
    hafter c (List.mem_reverse.1 hc)
  rw [trim, hstart, List.reverse_append, trimStart_append hafter',
    trimStart_of_head? (by rw [List.head?_reverse, hlast]) hlast', List.reverse_reverse]

/-- A quoted word starts and ends without a blank. -/
theorem tight_of_quoted {text word : List Char} (h : Quoted text word) : Tight text :=
  ⟨h.head?_not_isBlank, h.getLast?_not_isBlank⟩

/-- Quoted words with spaces between them have none at the ends. -/
theorem tight_intercalate {texts words : List (List Char)} (h : List.Forall₂ Quoted texts words)
    (hne : texts ≠ []) : Tight ([' '].intercalate texts) := by
  induction h with
  | nil => exact absurd rfl hne
  | @cons text word texts words hword hrest ih =>
    have htext := tight_of_quoted hword
    cases hrest with
    | nil => rwa [List.intercalate_singleton]
    | cons =>
      have htexts := ih (List.cons_ne_nil _ _)
      obtain ⟨first, hfirst, hfirst'⟩ := htext.head
      obtain ⟨last, hlast, hlast'⟩ := htexts.last
      rw [List.intercalate_cons_cons]
      refine ⟨⟨first, ?_, hfirst'⟩, ⟨last, ?_, hlast'⟩⟩
      · rw [List.append_assoc, List.head?_append, hfirst, Option.some_or]
      · rw [List.getLast?_append, hlast, Option.some_or]

end Text

/-! ### Numerals -/

namespace Text.Numeral

/-- The decimal digits of a word. -/
def digits (n : UInt64) : List Char := Nat.toDigits 10 n.toNat

/-- A numeral: decimal digits, before which there can be a plus sign. -/
def Reads (cs : List Char) (n : Nat) : Prop :=
  ∃ ds, (cs = ds ∨ cs = '+' :: ds) ∧ ds ≠ [] ∧ (∀ c ∈ ds, c.isDigit = true) ∧
    Nat.ofDigitChars 10 ds 0 = n

/-- The digits are those of decimal numbers. -/
theorem digit?_eq (c : Char) :
    digit? c = if c.isDigit then some (c.toNat - '0'.toNat) else none := by
  unfold digit?
  congr 1
  simp [Char.isDigit, Char.le_def]

/-- Digits are read if and only if all are digits, and stand for their decimal value. -/
theorem valueFrom_eq_some_iff {cs : List Char} {acc n : Nat} :
    valueFrom acc cs = some n ↔
      (∀ c ∈ cs, c.isDigit = true) ∧ Nat.ofDigitChars 10 cs acc = n := by
  induction cs generalizing acc with
  | nil => simp [valueFrom]
  | cons c cs ih =>
    rw [valueFrom, digit?_eq, Nat.ofDigitChars_cons]
    by_cases hc : c.isDigit <;> simp [hc, ih]

/-- The word that digits without a sign stand for. -/
def unsigned? (ds : List Char) : Option UInt64 :=
  if ds.isEmpty then none
  else (valueFrom 0 ds).bind fun n => if n < UInt64.size then some (UInt64.ofNat n) else none

/-- A number may have a plus sign in front. -/
theorem word?_plus (ds : List Char) : word? ('+' :: ds) = unsigned? ds := rfl

/-- Without a plus sign all of it is read. -/
theorem word?_of_head?_ne {cs : List Char} (h : cs.head? ≠ some '+') : word? cs = unsigned? cs := by
  rcases cs with _ | ⟨c, cs⟩
  · rfl
  · have hc : c ≠ '+' := fun hc => h (congrArg some hc)
    simp [word?, unsigned?, hc]

/-- A number has at least a digit, and fits in a word. -/
theorem unsigned?_eq_some_iff {ds : List Char} {w : UInt64} :
    unsigned? ds = some w ↔
      ds ≠ [] ∧ (∀ c ∈ ds, c.isDigit = true) ∧ Nat.ofDigitChars 10 ds 0 = w.toNat := by
  simp only [unsigned?, Option.ite_none_left_eq_some, Option.bind_eq_some_iff,
    valueFrom_eq_some_iff, Option.ite_none_right_eq_some, Option.some.injEq, List.isEmpty_iff]
  refine and_congr_right fun _ => ?_
  constructor
  · rintro ⟨n, ⟨hds, rfl⟩, hsize, rfl⟩
    exact ⟨hds, (UInt64.toNat_ofNat_of_lt' hsize).symm⟩
  · rintro ⟨hds, hn⟩
    refine ⟨_, ⟨hds, hn⟩, w.toNat_lt_size, UInt64.ofNat_toNat⟩

/-- A text is read as a word iff it is a numeral and the word is its value. -/
theorem word?_eq_some_iff {cs : List Char} {w : UInt64} :
    word? cs = some w ↔ Reads cs w.toNat := by
  constructor
  · intro h
    -- a sign is taken off before the digits are read
    by_cases hsign : cs.head? = some '+'
    · obtain ⟨ds, rfl⟩ := List.head?_eq_some_iff.1 hsign
      rw [word?_plus] at h
      exact ⟨ds, .inr rfl, unsigned?_eq_some_iff.1 h⟩
    · rw [word?_of_head?_ne hsign] at h
      exact ⟨cs, .inl rfl, unsigned?_eq_some_iff.1 h⟩
  · rintro ⟨ds, rfl | rfl, hds⟩
    · -- a sign is no digit
      have hsign : ∀ {ds : List Char}, (∀ c ∈ ds, c.isDigit = true) → ds.head? ≠ some '+' :=
        fun hdigits hhead => nomatch hdigits _ (List.mem_of_mem_head? hhead)
      rw [word?_of_head?_ne (hsign hds.2.1)]
      exact unsigned?_eq_some_iff.2 hds
    · rw [word?_plus]
      exact unsigned?_eq_some_iff.2 hds

/-- The digits of a number are read as this number. -/
theorem reads_digits (n : UInt64) : Reads (digits n) n.toNat :=
  ⟨digits n, .inl rfl, Nat.toDigits_ne_nil,
    fun _ => Nat.isDigit_of_mem_toDigits (by decide) (by decide),
    Nat.ofDigitChars_toDigits (by decide) (by decide)⟩

/-- There is no colon in a number. -/
theorem Reads.not_mem {cs : List Char} {n : Nat} (h : Reads cs n) : ':' ∉ cs := by
  obtain ⟨ds, hcs, -, hdigits, -⟩ := h
  have hds : ':' ∉ ds := fun hmem => nomatch hdigits _ hmem
  rcases hcs with rfl | rfl
  · exact hds
  · simpa using hds

end Text.Numeral

namespace Command

/-! ### Locations -/

/-- The last colon is the one behind which there is no other. -/
theorem splitLastColon?_eq_some_iff {cs file line : List Char} :
    splitLastColon? cs = some (file, line) ↔ cs = file ++ ':' :: line ∧ ':' ∉ line := by
  constructor
  · intro h
    obtain ⟨after, hafter⟩ : ∃ after, after = cs.reverse.takeWhile (· != ':') := ⟨_, rfl⟩
    obtain ⟨before, hbefore⟩ : ∃ before, before = cs.reverse.dropWhile (· != ':') := ⟨_, rfl⟩
    -- seen from the end, the text goes up to the first colon, if there is one
    have hcs : cs.reverse = after ++ before := by
      rw [hafter, hbefore, List.takeWhile_append_dropWhile]
    have hcolon : ∀ c ∈ before.head?, c = ':' := by
      intro c hc
      have hhead := List.head?_dropWhile_not (· != ':') cs.reverse
      rw [← hbefore, Option.mem_def.1 hc] at hhead
      simpa using hhead
    have hmem : ':' ∉ after := by
      intro hmem
      rw [hafter] at hmem
      exact absurd (List.mem_takeWhile_imp hmem) (by decide)
    rw [splitLastColon?, ← hafter, hcs, List.drop_left] at h
    rcases before with _ | ⟨c, before⟩
    · cases h
    · obtain rfl := hcolon c rfl
      cases h
      refine ⟨?_, fun h => hmem (List.mem_reverse.1 h)⟩
      rw [← List.reverse_reverse cs, hcs]
      simp
  · rintro ⟨rfl, hline⟩
    have hreverse : (file ++ ':' :: line).reverse = line.reverse ++ ':' :: file.reverse := by simp
    have htake : (file ++ ':' :: line).reverse.takeWhile (· != ':') = line.reverse := by
      have hpos : ∀ c ∈ line.reverse, (c != ':') = true := by
        intro c hc
        rw [bne_iff_ne]
        rintro rfl
        exact hline (List.mem_reverse.1 hc)
      rw [hreverse, List.takeWhile_append_of_pos hpos, List.takeWhile_cons_of_neg (by decide),
        List.append_nil]
    simp only [splitLastColon?, htake]
    rw [hreverse, List.drop_left]
    simp

/-- A location is a file that is not empty, a colon and a numeral. -/
theorem location?_eq_some_iff {cs : List Char} {file : String} {line : UInt64} :
    location? cs = some (file, line) ↔
      file ≠ "" ∧ ∃ ds, cs = file.toList ++ ':' :: ds ∧ Text.Numeral.Reads ds line.toNat := by
  have hempty : "".toList = [] := rfl
  constructor
  · intro h
    -- read from the right, since only the last colon divides
    simp only [location?, Option.bind_eq_bind, Option.bind_eq_some_iff] at h
    obtain ⟨⟨before, ds⟩, hsplit, h⟩ := h
    obtain ⟨rfl, -⟩ := splitLastColon?_eq_some_iff.1 hsplit
    rcases before with _ | ⟨c, before⟩
    · cases h
    · obtain ⟨n, hn, h⟩ := Option.bind_eq_some_iff.1 h
      cases h
      refine ⟨fun h => ?_, ds, by rw [String.toList_ofList], Text.Numeral.word?_eq_some_iff.1 hn⟩
      rw [← String.toList_inj, String.toList_ofList, hempty] at h
      cases h
  -- the digits hold no colon, so the last one is that in front of them
  · rintro ⟨hfile, ds, rfl, hline⟩
    have hsplit : splitLastColon? (file.toList ++ ':' :: ds) = some (file.toList, ds) :=
      splitLastColon?_eq_some_iff.2 ⟨rfl, hline.not_mem⟩
    simpa [location?, hsplit, Text.Numeral.word?_eq_some_iff.2 hline] using hfile

/-- What names a line: a file that is not empty, a colon and the numeral of a word. -/
def NamesLine (cs : List Char) : Prop :=
  ∃ (file ds : List Char) (n : Nat),
    cs = file ++ ':' :: ds ∧ file ≠ [] ∧ Text.Numeral.Reads ds n ∧ n < UInt64.size

/-- What does not name a line is no location. -/
theorem location?_eq_none {cs : List Char} (h : ¬NamesLine cs) : location? cs = none := by
  rcases hlocation : location? cs with _ | ⟨file, line⟩
  · rfl
  · obtain ⟨hfile, ds, hcs, hline⟩ := location?_eq_some_iff.1 hlocation
    refine absurd ⟨file.toList, ds, line.toNat, hcs, ?_, hline, line.toNat_lt_size⟩ h
    exact fun h => hfile (String.toList_eq_nil_iff.1 h)

/-- The place in the sources that a command names. -/
def place? : Command → Option (String × UInt64)
  | .setBreakpoint file line | .find file line => some (file, line)
  | .list location _ => location
  | _ => none

/-- A command of one word names no place. -/
theorem place?_of_ofWord? {word : String} {command : Command} (h : ofWord? word = some command) :
    command.place? = none := by
  unfold ofWord? at h
  split at h <;> cases h <;> rfl

/-- A command of two words names no place, or that of its argument. -/
theorem place?_of_ofPair? {word : String} {argument : List Char} {command : Command}
    (h : ofPair? word argument = some command) :
    command.place? = none ∨ command.place? = location? argument := by
  -- one branch of the table of words each; only those that take a place give one
  unfold ofPair? at h
  split at h
  case h_1 | h_2 =>
    split at h <;> cases h
    case h_1 hlocation => exact .inr hlocation.symm
    case h_2 => exact .inl rfl
  case h_3 | h_4 | h_8 | h_9 =>
    obtain ⟨⟨file, line⟩, hlocation, rfl⟩ := Option.map_eq_some_iff.1 h
    exact .inr hlocation.symm
  case h_5 | h_6 =>
    split at h
    · cases h
      exact .inl rfl
    · obtain ⟨n, -, rfl⟩ := Option.map_eq_some_iff.1 h
      exact .inl rfl
  case h_7 =>
    split at h <;> cases h
    exact .inl rfl
  case h_10 | h_11 =>
    cases h
    exact .inl rfl
  case h_12 => cases h

/-- The place that a command names is read from one of its words. -/
theorem place?_of_ofWords? {words : List (List Char)} {command : Command}
    (h : ofWords? words = some command) :
    command.place? = none ∨ ∃ cs, command.place? = location? cs := by
  unfold ofWords? at h
  split at h
  case h_1 => exact .inl (place?_of_ofWord? h)
  case h_2 => exact (place?_of_ofPair? h).imp_right fun hplace => ⟨_, hplace⟩
  case h_3 =>
    obtain ⟨-, h⟩ := Option.ite_none_right_eq_some.1 h
    obtain ⟨⟨file, line⟩, hlocation, h⟩ := Option.bind_eq_some_iff.1 h
    obtain ⟨range, -, h⟩ := Option.bind_eq_some_iff.1 h
    cases h
    exact .inr ⟨_, hlocation.symm⟩
  case h_4 => cases h

/-! ### Spelling -/

/-- The words that are commands by themselves. -/
def bareWords : List (String × Command) := [
  ("bl", .listBreakpoints false), ("bt", .backtrace), ("c", .resume), ("continue", .resume),
  ("s", .step), ("step", .step), ("n", .next), ("next", .next), ("si", .stepInstruction),
  ("stepi", .stepInstruction), ("l", .list none none), ("list", .list none none), ("r", .restart),
  ("restart", .restart), ("disass", .disassemble), ("regs", .registers), ("h", .help),
  ("help", .help), ("q", .quit), ("quit", .quit)]

/-- A command is spelled with a word and with arguments. A number can be any numeral of it, and the
name of a function none of a line. -/
inductive Spelled : Command → String → List (List Char) → Prop
  | setBreakpoint {word file : String} {line : UInt64} {ds : List Char} : word ∈ ["b", "break"] →
    file ≠ "" → Text.Numeral.Reads ds line.toNat →
    Spelled (.setBreakpoint file line) word [file.toList ++ ':' :: ds]
  | setFunctionBreakpoint {word name : String} : word ∈ ["b", "break"] → ¬NamesLine name.toList →
    Spelled (.setFunctionBreakpoint name) word [name.toList]
  | find {word file : String} {line : UInt64} {ds : List Char} : word ∈ ["f", "find"] →
    file ≠ "" → Text.Numeral.Reads ds line.toNat →
    Spelled (.find file line) word [file.toList ++ ':' :: ds]
  | clear {word : String} {n : UInt64} {ds : List Char} : word ∈ ["bc", "bclear"] →
    Text.Numeral.Reads ds n.toNat → Spelled (.clearBreakpoint (.number n)) word [ds]
  | clearAll {word : String} : word ∈ ["bc", "bclear"] →
    Spelled (.clearBreakpoint .all) word ["all".toList]
  | listAll : Spelled (.listBreakpoints true) "bl" ["all".toList]
  | list {word file : String} {line : UInt64} {ds : List Char} : word ∈ ["l", "list"] →
    file ≠ "" → Text.Numeral.Reads ds line.toNat →
    Spelled (.list (some (file, line)) none) word [file.toList ++ ':' :: ds]
  | listRange {word file : String} {line range : UInt64} {ds rs : List Char} :
    word ∈ ["l", "list"] → file ≠ "" → Text.Numeral.Reads ds line.toNat →
    Text.Numeral.Reads rs range.toNat →
    Spelled (.list (some (file, line)) (some range)) word [file.toList ++ ':' :: ds, rs]
  | print {word name : String} : word ∈ ["p", "print"] → Spelled (.print name) word [name.toList]
  | alone {word : String} {command : Command} : (word, command) ∈ bareWords →
    Spelled command word []

/-- The words that commands start with. -/
def words : List String :=
  ["b", "break", "f", "find", "bc", "bclear", "p", "print"] ++ bareWords.map Prod.fst

variable {command : Command} {word : String} {arguments : List (List Char)}

/-- Every command starts with its word. -/
theorem Spelled.mem_words (h : Spelled command word arguments) : word ∈ words := by
  cases h with
  | setBreakpoint hword | setFunctionBreakpoint hword | find hword | clear hword
  | clearAll hword | list hword | listRange hword | print hword =>
    exact List.subset_def.1 (by decide) hword
  | listAll => decide
  | alone hword => exact List.mem_append_right _ (List.mem_map_of_mem hword)

/-- Two words are a command with its argument. -/
theorem ofWords?_pair (word : String) (argument : List Char) :
    ofWords? [word.toList, argument] = ofPair? word argument := by
  rw [ofWords?, String.ofList_toList]

/-- `all` is no numeral, so it is told from a number. -/
theorem ne_all_of_reads {ds : List Char} {n : Nat} (h : Text.Numeral.Reads ds n) :
    String.ofList ds ≠ "all" := by
  intro hds
  obtain ⟨digits, hdigits, -, hdigit, -⟩ := h
  have hall : ds = ['a', 'l', 'l'] := by rw [← String.toList_ofList (l := ds), hds]; rfl
  rcases hdigits with rfl | rfl
  · rw [hall] at hdigit
    exact nomatch hdigit 'a' List.mem_cons_self
  · cases hall

/-- A word that is a command by itself is read as that. -/
theorem ofWord?_of_mem (h : (word, command) ∈ bareWords) : ofWord? word = some command := by
  have hall : ∀ pair ∈ bareWords, ofWord? pair.1 = some pair.2 := by decide
  exact hall _ h

/-- What is spelled is read back. -/
theorem Spelled.ofWords?_eq (h : Spelled command word arguments) :
    ofWords? (word.toList :: arguments) = some command := by
  -- each spelling goes through its own branch of the table
  cases h with
  | setBreakpoint hword hfile hline | find hword hfile hline | list hword hfile hline =>
    have hlocation := location?_eq_some_iff.2 ⟨hfile, _, rfl, hline⟩
    rw [ofWords?_pair]
    rcases List.mem_pair.1 hword with rfl | rfl <;> simp [ofPair?, hlocation]
  | setFunctionBreakpoint hword hname =>
    rw [ofWords?_pair]
    rcases List.mem_pair.1 hword with rfl | rfl <;> simp [ofPair?, location?_eq_none hname]
  | clear hword hn =>
    have hnumber := Text.Numeral.word?_eq_some_iff.2 hn
    rw [ofWords?_pair]
    rcases List.mem_pair.1 hword with rfl | rfl <;> simp [ofPair?, hnumber, ne_all_of_reads hn]
  | clearAll hword =>
    rcases List.mem_pair.1 hword with rfl | rfl <;> rfl
  | listAll => rfl
  | listRange hword hfile hline hrange =>
    have hlocation := location?_eq_some_iff.2 ⟨hfile, _, rfl, hline⟩
    have hnumber := Text.Numeral.word?_eq_some_iff.2 hrange
    rcases List.mem_pair.1 hword with rfl | rfl <;>
      simp [ofWords?, hlocation, hnumber]
  | print hword =>
    rw [ofWords?_pair]
    rcases List.mem_pair.1 hword with rfl | rfl <;> simp [ofPair?]
  | alone hword =>
    rw [ofWords?, String.ofList_toList, ofWord?_of_mem hword]

/-- A command's word needs no quotes. -/
theorem Spelled.quoted_word (h : Spelled command word arguments) :
    Quoted word.toList word.toList := by
  have hplain : ∀ word ∈ words, word.toList ≠ [] ∧ ∀ c ∈ word.toList, isPlain c = true := by
    simp [words, bareWords, isPlain]
  obtain ⟨hne, hword⟩ := hplain word h.mem_words
  exact quoted_self hne hword

end Command

/-! ### Lines -/

/-- What splits lines into words: all that is known of it is that it gives back quoted words. -/
structure Splitter where
  /-- The words of a line, if it can be split. -/
  split : List Char → Option (List (List Char))
  /-- Quoted words with spaces between them are split into the words. -/
  split_quoted {texts words : List (List Char)} :
    List.Forall₂ Quoted texts words → split ([' '].intercalate texts) = some words

namespace Splitter

/-- The words as a shell splits them. -/
def shell : Splitter := ⟨Text.Words.split, split_intercalate⟩

/-- The command in a line; a blank line holds none. -/
def parse (S : Splitter) (line : String) : Option Command :=
  let trimmed := Text.trim line.toList
  if trimmed.isEmpty then none
  else some (((S.split trimmed).bind Command.ofWords?).getD
    (.unsupported (String.ofList trimmed)))

/-- With the splitter of the program, a line is parsed as the program does it. -/
theorem shell_parse : shell.parse = Command.parse := rfl

/-- A line with the word and the quoted arguments of a command, and with blanks around it, is read
as that command. -/
theorem parse_line (S : Splitter) {command : Command} {word : String}
    {arguments texts : List (List Char)} {before after : List Char}
    (hcommand : command.Spelled word arguments) (htexts : List.Forall₂ Quoted texts arguments)
    (hbefore : ∀ c ∈ before, Text.isBlank c = true) (hafter : ∀ c ∈ after, Text.isBlank c = true) :
    S.parse (String.ofList (before ++ [' '].intercalate (word.toList :: texts) ++ after)) =
      some command := by
  -- the word of a command is a quoted word like its arguments
  have hquoted : List.Forall₂ Quoted (word.toList :: texts) (word.toList :: arguments) :=
    .cons hcommand.quoted_word htexts
  have htight := Text.tight_intercalate hquoted (List.cons_ne_nil _ _)
  have hne : ([' '].intercalate (word.toList :: texts)).isEmpty = false := by
    obtain ⟨c, hc, -⟩ := htight.head
    rw [List.isEmpty_eq_false_iff]
    exact List.ne_nil_of_mem (List.mem_of_mem_head? hc)
  rw [parse, String.toList_ofList, htight.trim_append hbefore hafter, S.split_quoted hquoted]
  simp [hne, hcommand.ofWords?_eq]

/-- A line never names a place in a file without a name. -/
theorem ne_of_parse (S : Splitter) {line : String} {command : Command} {file : String} {n : UInt64}
    (h : S.parse line = some command) (hplace : command.place? = some (file, n)) : file ≠ "" := by
  obtain ⟨-, h⟩ := Option.ite_none_left_eq_some.1 h
  obtain rfl := Option.some.inj h
  -- input that is no command names no place
  rcases hwords : (S.split (Text.trim line.toList)).bind Command.ofWords? with _ | command
  · rw [hwords] at hplace
    cases hplace
  · rw [hwords, Option.getD_some] at hplace
    obtain ⟨words, -, hcommand⟩ := Option.bind_eq_some_iff.1 hwords
    rcases Command.place?_of_ofWords? hcommand with hnone | ⟨cs, hcs⟩
    · rw [hnone] at hplace
      cases hplace
    · exact (Command.location?_eq_some_iff.1 (hcs.symm.trans hplace)).1

/-- Every command that can be spelled can be typed and is read back, however its arguments are
quoted and whatever stands in them. All numbers have numerals and all arguments can be quoted. No
line at all names a place in a file without a name. -/
theorem parse_spelled (S : Splitter) :
    (∀ {command : Command} {word : String} {arguments texts : List (List Char)}
      {before after : List Char}, command.Spelled word arguments →
      List.Forall₂ Quoted texts arguments →
      (∀ c ∈ before, Text.isBlank c = true) → (∀ c ∈ after, Text.isBlank c = true) →
      S.parse (String.ofList (before ++ [' '].intercalate (word.toList :: texts) ++ after)) =
        some command) ∧
    (∀ n : UInt64, Text.Numeral.Reads (Text.Numeral.digits n) n.toNat) ∧
    (∀ arguments, ∃ texts, List.Forall₂ Quoted texts arguments) ∧
    (∀ line command file n, S.parse line = some command → command.place? = some (file, n) →
      file ≠ "") ∧
    shell.parse = Command.parse := by
  refine ⟨S.parse_line, Text.Numeral.reads_digits, fun arguments => ?_,
    fun _ _ _ _ => S.ne_of_parse, shell_parse⟩
  -- word by word, as each can be written by itself
  induction arguments with
  | nil => exact ⟨[], .nil⟩
  | cons argument arguments ih =>
    obtain ⟨text, htext⟩ := exists_quoted argument
    obtain ⟨texts, htexts⟩ := ih
    exact ⟨text :: texts, .cons htext htexts⟩

/-- A file with a blank, a colon and quotes in its name, between single quotes. -/
theorem parse_spelled_singleQuotes :
    shell.parse " \tbreak \x27a b:\x22c\x22.go:12\x27\n" =
      some (.setBreakpoint "a b:\x22c\x22.go" 12) := by
  have hplace : "a b:\x22c\x22.go".toList ++ ':' :: Text.Numeral.digits 12 =
      "a b:\x22c\x22.go:12".toList := by decide
  have hspelled : Command.Spelled (.setBreakpoint "a b:\x22c\x22.go" 12) "break"
      ["a b:\x22c\x22.go:12".toList] :=
    hplace ▸ .setBreakpoint (by decide) (by decide) (Text.Numeral.reads_digits 12)
  have hplain : '\'' ∉ "a b:\x22c\x22.go:12".toList := by simp
  have hpieces := Pieces.single hplain .nil
  rw [List.append_nil] at hpieces
  have hquoted : Quoted _ _ := ⟨List.cons_ne_nil _ _, hpieces⟩
  have hbefore : ∀ c ∈ [' ', '\t'], Text.isBlank c = true := by simp [Text.isBlank]
  have hafter : ∀ c ∈ ['\n'], Text.isBlank c = true := by simp [Text.isBlank]
  have hparse := (parse_spelled shell).1 hspelled (.cons hquoted .nil) hbefore hafter
  simpa using hparse

end Splitter

end SourceDebugger
