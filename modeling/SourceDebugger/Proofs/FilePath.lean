import Mathlib.Data.List.Basic
import SourceDebugger.DebugInfo.Build
import SourceDebugger.Proofs.UnitWalk

/-!
# The paths of files in a line table

A file of a line table is seen from its directory, and that from the directory of the compilation.
`Text.Path.joined` joins such components as a whole: what stands before the last absolute one does
not count, and each of the others but the last is closed with a slash. `DebugInfo.renderFile` goes
from one component to the next instead, which comes to the same, `DebugInfo.joined_concat`.

* `DebugInfo.renderFile_joined`: the path of a file is that of its components. Up to version 4 the
  directory of the compilation is also the directory with the number zero, and then it stands there
  twice. That changes the path unless a component is absolute.
* `DebugInfo.not_renderFile_joined`: so a file in a relative directory gets a path that leads
  elsewhere.
-/

namespace SourceDebugger.Text.Path

/-! ### Components -/

/-- The components from the last absolute one on; all of them if none is absolute. -/
def fromLastAbsolute : List String → List String
  | [] => []
  | c :: cs => if cs.any isAbsolute then fromLastAbsolute cs else c :: cs

/-- A component in front of another one, closed with a slash if it is not yet. An empty one leads
nowhere and stays empty. -/
def closed (c : String) : String :=
  if c.isEmpty ∨ c.toList.getLast? = some '/' then c else c ++ "/"

/-- Components one behind the other, with a slash between two of them where there is none. -/
def chained : List String → String
  | [] => ""
  | [c] => c
  | c :: cs => closed c ++ chained cs

/-- The path to which components lead, each of them seen from the one before it. -/
def joined (cs : List String) : String := chained (fromLastAbsolute cs)

variable {c p : String} {cs : List String}

/-- What stands before an absolute component is forgotten. -/
theorem fromLastAbsolute_cons_of_any (h : cs.any isAbsolute) :
    fromLastAbsolute (c :: cs) = fromLastAbsolute cs := by
  simp [fromLastAbsolute, h]

/-- If no component behind it is absolute, the first one stays. -/
theorem fromLastAbsolute_cons_of_relative (h : ¬ cs.any isAbsolute) :
    fromLastAbsolute (c :: cs) = c :: cs := by
  simp [fromLastAbsolute, h]

/-- An absolute component makes those before it forgotten. -/
theorem fromLastAbsolute_concat_of_absolute (h : isAbsolute p) (cs : List String) :
    fromLastAbsolute (cs ++ [p]) = [p] := by
  induction cs with
  | nil => simp [fromLastAbsolute]
  | cons c cs ih =>
    have hany : (cs ++ [p]).any isAbsolute := by simp [h]
    rw [List.cons_append, fromLastAbsolute_cons_of_any hany, ih]

/-- A component that is not absolute comes behind the others. -/
theorem fromLastAbsolute_concat_of_relative (h : ¬ isAbsolute p) (cs : List String) :
    fromLastAbsolute (cs ++ [p]) = fromLastAbsolute cs ++ [p] := by
  induction cs with
  | nil => simp [fromLastAbsolute]
  | cons c cs ih =>
    by_cases hany : cs.any isAbsolute
    · have hany' : (cs ++ [p]).any isAbsolute := by simp [hany]
      rw [List.cons_append, fromLastAbsolute_cons_of_any hany', ih,
        fromLastAbsolute_cons_of_any hany]
    · have hany' : ¬ (cs ++ [p]).any isAbsolute := by simp [hany, h]
      rw [List.cons_append, fromLastAbsolute_cons_of_relative hany',
        fromLastAbsolute_cons_of_relative hany, List.cons_append]

/-! ### Slashes -/

/-- An empty path is closed already. -/
@[simp]
theorem closed_empty : closed "" = "" := by simp [closed]

/-- What is closed stays as it is. -/
@[simp]
theorem closed_closed (c : String) : closed (closed c) = closed c := by
  unfold closed
  split
  · rfl
  · simp

/-- What is joined is closed where its last part is, as long as the first part is. -/
theorem closed_append (c p : String) : closed (closed c ++ p) = closed c ++ closed p := by
  by_cases hp : p = ""
  · subst hp
    simp
  · have hlast : (closed c ++ p).toList.getLast? = p.toList.getLast? := by
      have hne : p.toList ≠ [] := by simpa using hp
      simp [List.getLast?_append_of_ne_nil _ hne]
    have hempty : (closed c ++ p).isEmpty = false := by simp [hp]
    have hempty' : p.isEmpty = false := by simp [hp]
    rw [closed.eq_def (closed c ++ p), closed.eq_def p, hlast, hempty, hempty']
    split
    · rfl
    · exact String.append_assoc

/-- The first component is closed if there are others behind it. -/
theorem chained_cons_of_ne_nil (h : cs ≠ []) : chained (c :: cs) = closed c ++ chained cs := by
  cases cs with
  | nil => exact absurd rfl h
  | cons d ds => rfl

/-- One more component stands behind what the others come to. -/
theorem chained_concat (p : String) (cs : List String) :
    chained (cs ++ [p]) = closed (chained cs) ++ p := by
  induction cs with
  | nil => simp [chained]
  | cons c cs ih =>
    rw [List.cons_append, chained_cons_of_ne_nil (by simp), ih]
    by_cases hcs : cs = []
    · simp [hcs, chained]
    · rw [chained_cons_of_ne_nil hcs, closed_append, String.append_assoc]

/-- Closing makes no path empty. -/
theorem closed_ne_empty (h : c ≠ "") : closed c ≠ "" := by
  unfold closed
  split
  · exact h
  · simp

/-! ### Paths -/

@[simp]
theorem joined_nil : joined [] = "" := rfl

/-- A single component is the path. -/
@[simp]
theorem joined_singleton (c : String) : joined [c] = c := rfl

/-- A component in front of a path changes it, unless it is empty or forgotten. -/
theorem joined_cons_eq_iff (hne : cs ≠ []) :
    joined (c :: cs) = joined cs ↔ c = "" ∨ cs.any isAbsolute := by
  -- an absolute component further on hides this one
  by_cases hany : cs.any isAbsolute
  · simp [joined, fromLastAbsolute_cons_of_any hany, hany]
  · have hcs : fromLastAbsolute cs = cs := by
      cases cs with
      | nil => rfl
      | cons d ds =>
        have hds : ¬ ds.any isAbsolute := fun h => hany (by simp [h])
        exact fromLastAbsolute_cons_of_relative hds
    rw [joined, joined, fromLastAbsolute_cons_of_relative hany, hcs, chained_cons_of_ne_nil hne]
    constructor
    · intro heq
      by_contra hc
      have hc' : c ≠ "" := fun h => hc (.inl h)
      -- what is joined in front is at least a separator longer
      have hlength := congrArg String.length heq
      have hpos := closed_ne_empty hc'
      rw [String.length_append] at hlength
      have hzero : (closed c).length = 0 := by omega
      exact hpos (String.length_eq_zero_iff.1 hzero)
    · rintro (rfl | h)
      · simp
      · exact absurd h hany

end SourceDebugger.Text.Path

namespace SourceDebugger.DebugInfo

open Text.Path

/-! ### The components of a path -/

namespace LineHeader

/-- The directory of the compilation, if there is one. -/
def base (h : LineHeader) : List String := (h.compDir.map Text.Utf8.decode).toList

/-- There is a directory of the compilation, or there is none. -/
theorem base_cases (h : LineHeader) : h.base = [] ∨ ∃ d, h.base = [d] := by
  rw [base]
  cases h.compDir with
  | none => exact .inl rfl
  | some d => exact .inr ⟨_, rfl⟩

/-- The directory of a file, if it is another one than that of the compilation, which has the number
zero in all versions. -/
def ownDirectory? (h : LineHeader) (f : FileEntry) : Option AttributeValue :=
  if f.directory = 0 then none else h.directory? f.directory

/-- The directory to which the path goes on from that of the compilation. The first one of version 5
is left out. -/
def seenFrom? (h : LineHeader) (f : FileEntry) : Option AttributeValue :=
  if f.directory ≠ 0 ∨ h.encoding.version < 5 then h.directory? f.directory else none

/-- What stands in front of the components of a path: up to version 4 the directory of the
compilation once more, if it is that of the file. -/
def repeated (h : LineHeader) (f : FileEntry) : List String :=
  if f.directory = 0 ∧ h.encoding.version < 5 then h.base else []

variable {h : LineHeader} {f : FileEntry}

/-- If the directory of the compilation is repeated, the path goes on to it from itself. -/
theorem seenFrom?_of_repeats (hrepeats : f.directory = 0 ∧ h.encoding.version < 5) :
    h.seenFrom? f = h.compDir.map .text := by
  obtain ⟨hzero, hversion⟩ := hrepeats
  rw [seenFrom?, if_pos (.inr hversion), hzero, directory?, if_pos (by omega)]

/-- Otherwise it goes on to the directory of the file. -/
theorem seenFrom?_of_not_repeats (hrepeats : ¬ (f.directory = 0 ∧ h.encoding.version < 5)) :
    h.seenFrom? f = h.ownDirectory? f := by
  unfold seenFrom? ownDirectory?
  by_cases hzero : f.directory = 0
  · have hversion : ¬ h.encoding.version < 5 := fun hlt => hrepeats ⟨hzero, hlt⟩
    simp [hzero, hversion]
  · simp [hzero]

end LineHeader

/-- The components of the path of a file: the directory of the compilation, the directory of the
file and its own path. -/
def fileComponents (u : UnitContext) (h : LineHeader) (f : FileEntry) :
    Except DebugError (List String) := do
  let own ← (h.ownDirectory? f).toList.mapM u.readableText
  return h.base ++ own ++ [← u.readableText f.path]

/-- The directory of the compilation stands twice in the path of a file, and nothing hides it. -/
structure DoublesBase (h : LineHeader) (f : FileEntry) (components : List String) : Prop where
  version_lt : h.encoding.version < 5
  directory_eq : f.directory = 0
  base_named : ∃ d ≠ "", h.base = [d]
  relative : ∀ c ∈ components, ¬ isAbsolute c

/-! ### Joining -/

/-- An absolute part is the path, and any other stands behind what was closed. -/
theorem pushPath_eq (path part : String) :
    pushPath path part = if isAbsolute part then part else closed path ++ part := by
  unfold pushPath closed
  by_cases habsolute : isAbsolute part
  · simp [habsolute]
  by_cases hempty : path = ""
  · simp [hempty, habsolute]
  by_cases hlast : path.toList.getLast? = some '/'
  · simp [habsolute, hempty, hlast]
  · simp [habsolute, hempty, hlast]

/-- Going on to one more component is joining all of them. -/
theorem joined_concat (cs : List String) (part : String) :
    joined (cs ++ [part]) = pushPath (joined cs) part := by
  rw [pushPath_eq, joined, joined]
  by_cases h : isAbsolute part
  · rw [if_pos h, fromLastAbsolute_concat_of_absolute h, chained]
  · rw [if_neg h, fromLastAbsolute_concat_of_relative h, chained_concat]

variable (u : UnitContext) (h : LineHeader) (f : FileEntry)

/-- The path begins with the directory of the compilation, or empty. -/
theorem joined_base : joined h.base = (h.compDir.map Text.Utf8.decode).getD "" := by
  rw [LineHeader.base]
  cases h.compDir <;> rfl

/-- Going from the directory of the compilation to that of the file, and on to the file, is joining
all of them. -/
theorem renderFile_eq_joined :
    renderFile u h f = do
      let directories ← (h.seenFrom? f).toList.mapM u.readableText
      return joined (h.base ++ directories ++ [← u.readableText f.path]) := by
  have hread (v : AttributeValue) :
      u.readableText v = (u.textOf v).map Text.Utf8.decode := by
    unfold UnitContext.readableText
    cases u.textOf v <;> rfl
  unfold renderFile LineHeader.seenFrom?
  rw [← joined_base]
  simp only [hread, bind, Except.bind, pure, Except.pure]
  generalize u.textOf f.path = path
  split
  · rcases h.directory? f.directory with _ | v
    · cases path <;> simp [Except.map, pure, Except.pure, joined_concat]
    · -- both texts are read before they are joined
      simp only [Option.toList_some, List.mapM_cons, List.mapM_nil, hread]
      cases u.textOf v <;> cases path <;>
        simp [Except.map, bind, Except.bind, pure, Except.pure, joined_concat, -List.append_assoc]
  · cases path <;> simp [Except.map, pure, Except.pure, joined_concat]

/-- The path is that of the components, with what is repeated. -/
theorem renderFile_eq :
    renderFile u h f =
      (fileComponents u h f).map fun components => joined (h.repeated f ++ components) := by
  rw [renderFile_eq_joined, fileComponents]
  by_cases hrepeats : f.directory = 0 ∧ h.encoding.version < 5
  · -- the directory that is gone to is the one from which it is seen
    rw [LineHeader.seenFrom?_of_repeats hrepeats, LineHeader.repeated, if_pos hrepeats,
      LineHeader.ownDirectory?, if_pos hrepeats.1, LineHeader.base]
    cases h.compDir <;> cases u.readableText f.path <;> rfl
  · rw [LineHeader.seenFrom?_of_not_repeats hrepeats, LineHeader.repeated, if_neg hrepeats]
    cases (h.ownDirectory? f).toList.mapM u.readableText <;> cases u.readableText f.path <;> rfl

/-- A path has components, since the file has a name. -/
theorem ne_nil_of_fileComponents {components : List String}
    (hcomponents : fileComponents u h f = .ok components) : components ≠ [] := by
  obtain ⟨own, -, hrest⟩ := bind_eq_ok.1 hcomponents
  obtain ⟨name, -, hrest⟩ := bind_eq_ok.1 hrest
  cases hrest
  simp

/-- The repetition is seen if it names something and no component hides it. -/
theorem joined_repeated_eq_iff {components : List String} (hne : components ≠ []) :
    joined (h.repeated f ++ components) = joined components ↔ ¬ DoublesBase h f components := by
  by_cases hrepeats : f.directory = 0 ∧ h.encoding.version < 5
  · obtain ⟨hzero, hversion⟩ := hrepeats
    have hrepeated : h.repeated f = h.base := by simp [LineHeader.repeated, hzero, hversion]
    rw [hrepeated]
    -- without a directory of its own the unit has nothing to double
    rcases h.base_cases with hbase | ⟨d, hbase⟩
    · rw [hbase]
      refine iff_of_true rfl fun hdoubles => ?_
      obtain ⟨d, -, hd⟩ := hdoubles.base_named
      simp [hbase] at hd
    · rw [hbase, List.singleton_append, joined_cons_eq_iff hne]
      constructor
      · rintro (rfl | hany) hdoubles
        · obtain ⟨d, hd, hbase'⟩ := hdoubles.base_named
          rw [hbase, List.singleton_inj] at hbase'
          exact hd hbase'.symm
        · obtain ⟨c, hc, habsolute⟩ := List.any_eq_true.1 hany
          exact hdoubles.relative c hc habsolute
      -- the doubled directory shows unless it is empty or hidden by an absolute path
      · intro hdoubles
        by_contra hnot
        obtain ⟨hd, hany⟩ := not_or.1 hnot
        refine hdoubles ⟨hversion, hzero, ⟨d, hd, hbase⟩, fun c hc habsolute => ?_⟩
        exact hany (List.any_eq_true.2 ⟨c, hc, habsolute⟩)
  · rw [LineHeader.repeated, if_neg hrepeats]
    exact iff_of_true rfl fun hdoubles => hrepeats ⟨hdoubles.directory_eq, hdoubles.version_lt⟩

/-- The path of a file is that of the directory of the compilation, its own directory and its name,
where the first one stands twice up to version 4 if it is also the second one. Without the
repetition the path would be another one exactly if the directory names something and no component
is absolute. -/
theorem renderFile_joined :
    renderFile u h f =
        (fileComponents u h f).map (fun components => joined (h.repeated f ++ components)) ∧
      ∀ components, fileComponents u h f = .ok components →
        (renderFile u h f = .ok (joined components) ↔ ¬ DoublesBase h f components) := by
  refine ⟨renderFile_eq u h f, fun components hcomponents => ?_⟩
  have hne := ne_nil_of_fileComponents u h f hcomponents
  rw [renderFile_eq, hcomponents, Except.map, Except.ok.injEq, joined_repeated_eq_iff h f hne]

/-! ### Files in relative directories -/

/-- A unit without any sections, whose values are there as they are. -/
def plainUnit (version : Nat) : UnitContext :=
  ⟨⟨.empty, .empty, .empty, .empty, .empty, .empty, .empty⟩, ⟨false, version, 8⟩, ⟨0, 0⟩⟩

/-- A text in the place where it is used. -/
def plainText (text : String) : AttributeValue := .text text.toUTF8.data.toList

/-- The header of a line table with the directory `src` of the compilation and these directories. -/
def srcHeader (version : Nat) (directories : List AttributeValue) : LineHeader where
  encoding := ⟨false, version, 8⟩
  minInstructionLength := 1
  maxOperations := 1
  lineBase := -5
  lineRange := 14
  opcodeBase := 13
  operandCounts := [0, 1, 1, 1, 1, 0, 0, 0, 1, 0, 0, 1]
  directories
  files := []
  compDir := some "src".toUTF8.data.toList
  compName := none

/-- In version 5 the directory of the compilation has the number zero, and that of the file another
one. -/
theorem renderFile_joined_include :
    let h := srcHeader 5 [plainText "src", plainText "inc/"]
    let f := FileEntry.mk (plainText "a.h") 1
    fileComponents (plainUnit 5) h f = .ok ["src", "inc/", "a.h"] ∧
      renderFile (plainUnit 5) h f = .ok "src/inc/a.h" := by
  intro h f
  have hcomponents : fileComponents (plainUnit 5) h f = .ok ["src", "inc/", "a.h"] := by
    decide +kernel
  have hjoined : joined ["src", "inc/", "a.h"] = "src/inc/a.h" := by decide +kernel
  refine ⟨hcomponents, hjoined ▸ ((renderFile_joined (plainUnit 5) h f).2 _ hcomponents).2 ?_⟩
  intro hdoubles
  exact absurd hdoubles.version_lt (by decide)

/-- Up to version 4 the path of `main.c` in the directory zero is `src/src/main.c`. -/
theorem not_renderFile_joined :
    ¬ ∀ (u : UnitContext) (h : LineHeader) (f : FileEntry) (components : List String),
      fileComponents u h f = .ok components → renderFile u h f = .ok (joined components) := by
  intro hall
  have hpath := hall (plainUnit 4) (srcHeader 4 []) ⟨plainText "main.c", 0⟩ ["src", "main.c"]
    (by decide +kernel)
  have htwice : renderFile (plainUnit 4) (srcHeader 4 []) ⟨plainText "main.c", 0⟩ =
      .ok "src/src/main.c" := by decide +kernel
  rw [htwice] at hpath
  exact absurd hpath (by decide +kernel)

end SourceDebugger.DebugInfo
