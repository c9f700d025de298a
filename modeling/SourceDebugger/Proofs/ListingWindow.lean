import Mathlib
import SourceDebugger.Listing

/-!
# The window of a listing

A listing skips the lines before its window and takes lines up to the end of it. The lines of a text
are described by `Listing.HasLines`, which says where they end, and the window by `Listing.Shows`,
in integers without bounds.

* `Listing.ofSource_window`: a listing holds exactly the lines in its window, in their order and
  with their numbers, and marks the line of interest if the text has it.
-/

namespace SourceDebugger.Listing

/-! ### The lines of a text -/

/-- The lines of a text. A line feed ends a line, with the carriage return before it if there is
one; behind the last line there need not be any. -/
inductive HasLines : List Char → List String → Prop
  /-- A text without characters has no lines. -/
  | nil : HasLines [] []
  /-- A last line that is not ended. -/
  | last {cs : List Char} : cs ≠ [] → '\n' ∉ cs → HasLines cs [String.ofList cs]
  /-- A line that a line feed ends. -/
  | lineFeed {cs rest : List Char} {texts : List String} : '\n' ∉ cs →
    cs.getLast? ≠ some '\r' → HasLines rest texts →
    HasLines (cs ++ '\n' :: rest) (String.ofList cs :: texts)
  /-- A line that a carriage return and a line feed end. -/
  | carriageReturn {cs rest : List Char} {texts : List String} : '\n' ∉ cs →
    HasLines rest texts → HasLines (cs ++ '\r' :: '\n' :: rest) (String.ofList cs :: texts)

/-- Characters of the same line are collected. -/
theorem linesOf_append {cs : List Char} (h : '\n' ∉ cs) (line rest : List Char) :
    linesOf line (cs ++ rest) = linesOf (cs.reverse ++ line) rest := by
  induction cs generalizing line with
  | nil => rfl
  | cons c cs ih =>
    obtain ⟨hc, hcs⟩ := List.ne_and_not_mem_of_not_mem_cons h
    rw [List.cons_append, linesOf, if_neg hc.symm, ih hcs, List.reverse_cons, List.append_assoc]
    rfl

/-- A line ends where the first line feed is. -/
theorem linesOf_append_lineFeed {cs : List Char} (h : '\n' ∉ cs) (rest : List Char) :
    linesOf [] (cs ++ '\n' :: rest) = lineText cs :: linesOf [] rest := by
  rw [linesOf_append h, List.append_nil, linesOf, if_pos rfl, List.reverse_reverse]

/-- The lines that are read are the lines of the text. -/
theorem HasLines.linesOf_eq {cs : List Char} {texts : List String} (h : HasLines cs texts) :
    linesOf [] cs = texts := by
  induction h with
  | nil => rfl
  | @last cs hne hcs =>
    have happend := linesOf_append hcs [] []
    rw [List.append_nil, List.append_nil] at happend
    rw [happend, linesOf, if_neg (by simpa using hne), List.reverse_reverse]
  | lineFeed hcs hlast _ ih => rw [linesOf_append_lineFeed hcs, ih, lineText, if_neg hlast]
  | @carriageReturn cs rest texts hcs _ ih =>
    have hcr : '\n' ∉ cs ++ ['\r'] := by simpa using hcs
    have hsplit : cs ++ '\r' :: '\n' :: rest = cs ++ ['\r'] ++ '\n' :: rest := by simp
    rw [hsplit, linesOf_append_lineFeed hcr, ih, lineText, if_pos List.getLast?_concat,
      List.dropLast_concat]

/-- A line and what stands behind its line feed. -/
theorem HasLines.cons {cs rest : List Char} {texts : List String} (hcs : '\n' ∉ cs)
    (h : HasLines rest texts) : HasLines (cs ++ '\n' :: rest) (lineText cs :: texts) := by
  by_cases hlast : cs.getLast? = some '\r'
  · obtain ⟨front, rfl⟩ := List.getLast?_eq_some_iff.1 hlast
    rw [lineText, if_pos hlast, List.dropLast_concat, List.append_assoc]
    exact .carriageReturn (by simpa using hcs) h
  · rw [lineText, if_neg hlast]
    exact .lineFeed hcs hlast h

/-- Every text has the lines that are read, behind what was read of the current one. -/
theorem hasLines_linesOf {line : List Char} (hline : '\n' ∉ line) (cs : List Char) :
    HasLines (line.reverse ++ cs) (linesOf line cs) := by
  -- along the text, with the line so far in reverse
  induction cs generalizing line with
  | nil =>
    rw [linesOf, List.append_nil]
    split
    · rename_i hempty
      rw [List.isEmpty_iff.1 hempty]
      exact .nil
    · rename_i hne
      exact .last (by simpa using hne) (by simpa using hline)
  | cons c cs ih =>
    rw [linesOf]
    split
    · rename_i hc
      subst hc
      exact .cons (by simpa using hline) (ih List.not_mem_nil)
    -- a character of the line, which is no end of it
    · rename_i hc
      have h := ih (List.not_mem_cons_of_ne_of_not_mem (Ne.symm hc) hline)
      rwa [List.reverse_cons, List.append_assoc] at h

/-- Every text has its lines in one way. -/
theorem hasLines_iff {cs : List Char} {texts : List String} :
    HasLines cs texts ↔ texts = linesOf [] cs :=
  ⟨fun h => h.linesOf_eq.symm, fun h => h ▸ hasLines_linesOf List.not_mem_nil cs⟩

/-- Each line has a character of its own. -/
theorem HasLines.length_le {cs : List Char} {texts : List String} (h : HasLines cs texts) :
    texts.length ≤ cs.length := by
  induction h with
  | nil => exact Nat.le_refl _
  | last hne _ => exact List.length_pos_iff.2 hne
  | lineFeed _ _ _ ih | carriageReturn _ _ ih =>
    simp only [List.length_cons, List.length_append]
    omega

/-! ### Numbers -/

/-- Texts with their numbers, from 1 on. -/
def numbered (texts : List String) : List (Nat × String) := (List.range' 1 texts.length).zip texts

/-- The lines are numbered in their order. -/
theorem numberedLines_eq {content : String} {texts : List String}
    (h : HasLines content.toList texts) : numberedLines content = numbered texts := by
  rw [numberedLines, h.linesOf_eq, numbered, List.zipIdx_eq_zip_range', ← List.zip_swap,
    List.map_map]
  exact List.map_id _

variable {texts : List String}

/-- The numbers start at one and leave none out. -/
theorem map_fst_numbered (texts : List String) :
    (numbered texts).map (·.1) = List.range' 1 texts.length :=
  List.map_fst_zip (by simp)

/-- The numbers ascend. -/
theorem pairwise_numbered (texts : List String) :
    (numbered texts).Pairwise fun row row' => row.1 < row'.1 := by
  have h : ((numbered texts).map (·.1)).Pairwise (· < ·) := by
    rw [map_fst_numbered]
    exact List.pairwise_lt_range'
  exact List.pairwise_map.1 h

/-- No number is zero or more than there are lines. -/
theorem bounds_of_mem_numbered {row : Nat × String} (h : row ∈ numbered texts) :
    1 ≤ row.1 ∧ row.1 ≤ texts.length := by
  have hmem : row.1 ∈ (numbered texts).map (·.1) := List.mem_map_of_mem h
  rw [map_fst_numbered, List.mem_range'_1] at hmem
  omega

/-- One line has a number if the text has so many lines, and otherwise none. -/
theorem length_filter_numbered (texts : List String) (n : Nat) :
    ((numbered texts).filter (·.1 = n)).length = if 1 ≤ n ∧ n ≤ texts.length then 1 else 0 := by
  have hcount : ((numbered texts).filter (·.1 = n)).length =
      ((numbered texts).map (·.1)).count n := by
    rw [List.count_eq_length_filter, List.filter_map, List.length_map]
    rfl
  have hmem : n ∈ List.range' 1 texts.length ↔ 1 ≤ n ∧ n ≤ texts.length := by
    rw [List.mem_range'_1]
    omega
  have hnodup : (List.range' 1 texts.length).Nodup := List.nodup_range'
  rw [hcount, map_fst_numbered, hnodup.count]
  simp only [hmem]

/-! ### The window -/

/-- In a list where `p` holds up to some place, skipping what has `p` is leaving it out. -/
theorem dropWhile_eq_filter {α : Type} {p : α → Bool} {l : List α}
    (h : l.Pairwise fun a b => p b → p a) : l.dropWhile p = l.filter (!p ·) := by
  induction h with
  | nil => rfl
  | @cons a l ha hl ih =>
    by_cases hp : p a
    · rw [List.dropWhile_cons_of_pos hp, ih, List.filter_cons_of_neg (by simpa using hp)]
    · have hall : ∀ b ∈ a :: l, !p b := by
        intro b hb
        rcases List.mem_cons.1 hb with rfl | hb
        · simpa using hp
        · simpa using fun hpb => hp (ha b hb hpb)
      rw [List.dropWhile_cons_of_neg hp, List.filter_eq_self.2 hall]

/-- Taking while a condition holds is taking all that fulfil it, if none behind one that does not
fulfils it. -/
theorem takeWhile_eq_filter {α : Type} {p : α → Bool} {l : List α}
    (h : l.Pairwise fun a b => p b → p a) : l.takeWhile p = l.filter p := by
  induction h with
  | nil => rfl
  | @cons a l ha hl ih =>
    by_cases hp : p a
    · rw [List.takeWhile_cons_of_pos hp, ih, List.filter_cons_of_pos hp]
    · have hnone : ∀ b ∈ a :: l, ¬ p b := by
        intro b hb
        rcases List.mem_cons.1 hb with rfl | hb
        · exact hp
        · exact fun hpb => hp (ha b hb hpb)
      rw [List.takeWhile_cons_of_neg hp, List.filter_eq_nil_iff.2 hnone]

/-- Whether the line with a number is at most `range` away from `line`. -/
def Shows (line range : UInt64) (n : Nat) : Prop :=
  max 1 ((line.toNat : Int) - range.toNat) ≤ n ∧ (n : Int) ≤ line.toNat + range.toNat

instance (line range : UInt64) (n : Nat) : Decidable (Shows line range n) :=
  inferInstanceAs (Decidable (_ ∧ _))

/-- The bounds are those of the window, as long as the numbers of lines are words. -/
theorem shows_iff {line range : UInt64} {n : Nat} (hn : n < UInt64.size) :
    Shows line range n ↔ max (line.toNat - range.toNat) 1 ≤ n ∧
      n ≤ min (line.toNat + range.toNat) (UInt64.size - 1) := by
  unfold Shows
  omega

/-- The lines that are shown are those in the window, in their order. -/
theorem lines_ofSource {file content : String} {line range : UInt64}
    (hlength : texts.length < UInt64.size) (htexts : HasLines content.toList texts) :
    (ofSource file content line range).lines =
      (numbered texts).filter fun row => Shows line range row.1 := by
  have hpairs := pairwise_numbered texts
  simp only [ofSource, numberedLines_eq htexts]
  -- the numbers ascend, so both bounds hold up to some line, or from some line on
  rw [dropWhile_eq_filter (hpairs.imp fun hlt h => by simp at h ⊢; omega),
    takeWhile_eq_filter ((hpairs.filter _).imp fun hlt h => by simp at h ⊢; omega),
    List.filter_filter]
  refine List.filter_congr fun row hrow => ?_
  have hbounds := bounds_of_mem_numbered hrow
  rw [Bool.eq_iff_iff, decide_eq_true_iff, shows_iff (by omega)]
  simp
  omega

/-- The mark of the line of interest. -/
def arrow : String := "==>"

/-- Whether a row of a listing is marked: an arrow stands at its start. -/
def isMarked (line : UInt64) (row : Nat × String) : Bool :=
  arrow.toList.isPrefixOf (rowText line row).toList

/-- A line is marked if and only if it is the one that was asked for. -/
theorem isMarked_iff {line : UInt64} {row : Nat × String} :
    isMarked line row ↔ row.1 = line.toNat := by
  unfold isMarked rowText arrow
  simp only [String.toList_append, List.append_assoc]
  split <;> simp [*]

/-- The line of interest is in the window, if there is such a line. -/
theorem filter_isMarked (texts : List String) (line range : UInt64) :
    ((numbered texts).filter fun row => Shows line range row.1).filter (isMarked line) =
      (numbered texts).filter (·.1 = line.toNat) := by
  rw [List.filter_filter]
  refine List.filter_congr fun row hrow => ?_
  have hbounds := bounds_of_mem_numbered hrow
  rw [Bool.eq_iff_iff, Bool.and_eq_true, isMarked_iff, decide_eq_true_iff, decide_eq_true_iff]
  constructor
  · exact fun h => h.1
  · intro h
    refine ⟨h, ?_⟩
    unfold Shows
    omega

/-- A listing holds the lines in its window, each once, in their order and with their numbers. What
is shown are these lines, and no line but the one of interest has a mark, if the text has so
many. A text that fits into memory has fewer characters than there are words for the numbers. -/
theorem ofSource_window (file content : String) (line range : UInt64)
    (hcontent : content.length < UInt64.size) :
    ∃ texts, (∀ ts, HasLines content.toList ts ↔ ts = texts) ∧
      let l := ofSource file content line range
      l.lines = (numbered texts).filter (fun row => Shows line range row.1) ∧
      l.text = s!"list {file}:{line.toNat}\n" ++ String.join (l.lines.map (rowText line)) ∧
      l.lines.filter (isMarked line) = (numbered texts).filter (·.1 = line.toNat) ∧
      (l.lines.filter (isMarked line)).length =
        if 1 ≤ line.toNat ∧ line.toNat ≤ texts.length then 1 else 0 := by
  refine ⟨linesOf [] content.toList, fun ts => hasLines_iff, ?_⟩
  intro l
  have htexts := hasLines_linesOf List.not_mem_nil content.toList
  have hlength : (linesOf [] content.toList).length < UInt64.size :=
    -- a text has at most as many lines as characters, so the numbers of lines do not wrap around
    Nat.lt_of_le_of_lt htexts.length_le hcontent
  have hlines : l.lines = _ := lines_ofSource hlength htexts
  have hmarked : l.lines.filter (isMarked line) = _ :=
    hlines ▸ filter_isMarked (linesOf [] content.toList) line range
  exact ⟨hlines, rfl, hmarked, by rw [hmarked, length_filter_numbered]⟩

/-- The last two lines of three, when the window reaches to the last number that there is. -/
theorem ofSource_window_lastNumber :
    (ofSource "a" "x\ny\r\nz" 0xffffffffffffffff 0xfffffffffffffffd).lines =
      [(2, "y"), (3, "z")] := by
  obtain ⟨texts, htexts, hlines, -⟩ :=
    ofSource_window "a" "x\ny\r\nz" 0xffffffffffffffff 0xfffffffffffffffd (by decide)
  have hthree : HasLines "x\ny\r\nz".toList ["x", "y", "z"] := hasLines_iff.2 (by decide)
  obtain rfl := (htexts _).1 hthree
  rw [hlines]
  decide

end SourceDebugger.Listing
