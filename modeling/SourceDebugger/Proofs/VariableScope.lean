import SourceDebugger.Machine.Execute
import SourceDebugger.Proofs.IndexTables
import SourceDebugger.VariableValue

/-!
# Global variables and their declarations

A unit that uses a global variable of another one declares it: it has an entry of the same name that
has no location. `DebugIndex.candidates` are the entries among which a name is looked up where no
local variable has it, those of the unit of the function or else those of all units, and
`DebugIndex.FindsDefinition` says that the lookup comes to a definition, with preference for one of
the unit itself.

* `DebugIndex.variableInScope_eq`: what is found is the first candidate.
* `DebugIndex.findsDefinition_iff`: a definition is found if and only if the first candidate is one.
  Otherwise nothing can be read of the variable, although a definition of it exists.
* `DebugIndex.not_findsDefinition`: a declaration in the unit of the function hides the definition.
-/

namespace SourceDebugger.DebugIndex

variable {index : DebugIndex} {pc : Addr} {name : String}

/-! ### Lookups -/

/-- The global variables of some units with a name. -/
def globalsNamed (units : List CompileUnit) (name : String) : List VariableEntry :=
  (units.flatMap (·.globals)).filter (·.name == name)

theorem globalNamed?_eq (units : List CompileUnit) (name : String) :
    globalNamed? units name = (globalsNamed units name).head? := by
  rw [globalNamed?, globalsNamed, List.head?_filter]

theorem mem_globalsNamed {units : List CompileUnit} {v : VariableEntry} :
    v ∈ globalsNamed units name ↔ (∃ u ∈ units, v ∈ u.globals) ∧ v.name = name := by
  rw [globalsNamed, List.mem_filter, List.mem_flatMap, beq_iff_eq]

/-- No local variable of the function at an address has a name. -/
def NoLocal (index : DebugIndex) (pc : Addr) (name : String) : Prop :=
  ∀ f ∈ index.functionContaining? pc, ∀ v ∈ f.locals, v.name ≠ name

/-- The global variables with a name in the unit of the function at an address. -/
def ownGlobals (index : DebugIndex) (pc : Addr) (name : String) : List VariableEntry :=
  match index.functionContaining? pc with
  | some f => globalsNamed (index.units[f.unit]?).toList name
  | none => []

/-- The entries among which a name that no local variable has is looked up. -/
def candidates (index : DebugIndex) (pc : Addr) (name : String) : List VariableEntry :=
  match index.ownGlobals pc name with
  | [] => globalsNamed index.units name
  | own => own

theorem candidates_of_mem {d : VariableEntry} (h : d ∈ index.ownGlobals pc name) :
    index.candidates pc name = index.ownGlobals pc name := by
  rw [candidates]
  rcases hown : index.ownGlobals pc name with _ | ⟨v, rest⟩
  · rw [hown] at h
    cases h
  · rfl

theorem name_of_mem_candidates {v : VariableEntry} (h : v ∈ index.candidates pc name) :
    v.name = name := by
  have hown : ∀ v ∈ index.ownGlobals pc name, v.name = name := by
    intro v hv
    rw [ownGlobals] at hv
    split at hv
    · exact (mem_globalsNamed.1 hv).2
    · cases hv
  rw [candidates] at h
  split at h
  · exact (mem_globalsNamed.1 h).2
  · exact hown v h

/-- What is found is the first candidate, together with the function. -/
theorem variableInScope_eq (h : index.NoLocal pc name) :
    index.variableInScope pc name =
      match (index.candidates pc name).head? with
      | some v => .ok (v, index.functionContaining? pc)
      | none => .error (.unknownVariable name) := by
  have hown : ((index.functionContaining? pc).bind fun f =>
      (f.locals.reverse.find? (·.name == name)) <|>
        globalNamed? (index.units[f.unit]?).toList name) = (index.ownGlobals pc name).head? := by
    rw [ownGlobals]
    -- no local has the name, so the look-up in the function finds globals of its unit
    rcases hfunction : index.functionContaining? pc with _ | f
    · rfl
    · have hlocals : f.locals.reverse.find? (·.name == name) = none := by
        rw [List.find?_eq_none]
        intro v hv heq
        exact h f hfunction v (List.mem_reverse.1 hv) (beq_iff_eq.1 heq)
      rw [Option.bind_some, hlocals, globalNamed?_eq]
      rfl
  -- the candidates of the own unit stand in front of the others
  have hfirst : ((index.ownGlobals pc name).head? <|> globalNamed? index.units name) =
      (index.candidates pc name).head? := by
    rw [candidates, globalNamed?_eq]
    rcases index.ownGlobals pc name with _ | ⟨v, rest⟩ <;> rfl
  unfold variableInScope
  rcases hhead : (index.candidates pc name).head? with _ | v <;> rw [hhead, ← hown] at hfirst <;>
    simp only [hfirst]

/-! ### Definitions -/

/-- The lookup comes to an entry with a location, and to one of the unit of the function if there is
such an entry in it. -/
def FindsDefinition (index : DebugIndex) (pc : Addr) (name : String) : Prop :=
  ∃ v f, index.variableInScope pc name = .ok (v, f) ∧ v.location ≠ [] ∧
    ((∃ d ∈ index.ownGlobals pc name, d.location ≠ []) → v ∈ index.ownGlobals pc name)

/-- Where some unit defines a variable, the lookup finds an entry for it, and it comes to a
definition if and only if the first candidate is one. If that is a mere declaration, it hides the
definitions behind it, and the answer to a read is that the variable has no location. -/
theorem findsDefinition_iff (index : DebugIndex) (pc : Addr) (name : String)
    (hlocal : index.NoLocal pc name)
    (hdefined : ∃ u ∈ index.units, ∃ d ∈ u.globals, d.name = name ∧ d.location ≠ []) :
    ∃ v, (index.candidates pc name).head? = some v ∧ v.name = name ∧
      index.variableInScope pc name = .ok (v, index.functionContaining? pc) ∧
      (index.FindsDefinition pc name ↔ v.location ≠ []) ∧
      (v.location = [] → ∀ {σ : Type} [Tracee σ] (p : σ) frames bias regs,
        Tracee.registers p = .ok regs → regs.pc = pc →
        VariableValue.read p index frames bias name = .error (.noLocation name)) := by
  obtain ⟨u, hu, d, hd, hname, -⟩ := hdefined
  have hall : d ∈ globalsNamed index.units name := mem_globalsNamed.2 ⟨⟨u, hu, hd⟩, hname⟩
  -- the definition is a candidate itself unless the unit of the function has the name
  obtain ⟨v, hv⟩ : ∃ v, (index.candidates pc name).head? = some v := by
    rw [candidates]
    rcases index.ownGlobals pc name with _ | ⟨v, rest⟩
    · exact ⟨_, List.head?_eq_some_head (List.ne_nil_of_mem hall)⟩
    · exact ⟨v, rfl⟩
  have hfound : index.variableInScope pc name = .ok (v, index.functionContaining? pc) := by
    rw [variableInScope_eq hlocal, hv]
  refine ⟨v, hv, name_of_mem_candidates (List.mem_of_head? hv), hfound, ?_, ?_⟩
  · constructor
    · rintro ⟨w, f, hw, hlocation, -⟩
      rw [hfound] at hw
      cases hw
      exact hlocation
    · intro hlocation
      refine ⟨v, _, hfound, hlocation, fun ⟨d, hd, _⟩ => ?_⟩
      -- with a global of its own the unit is the only one whose globals are candidates
      rw [candidates_of_mem hd] at hv
      exact List.mem_of_head? hv
  · rintro hlocation σ _ p frames bias regs hregs rfl
    unfold VariableValue.read
    rw [hregs]
    show (index.variableInScope regs.pc name >>= _) = _
    rw [hfound]
    show (if v.location.isEmpty then _ else _) = _
    rw [hlocation]
    rfl

/-- The unit of `main` declares the variable that the other unit defines. -/
def declaredIndex : DebugIndex :=
  { DebugIndex.empty "/" with
    functions := [⟨"main", ⟨0x1000⟩, ⟨0x1010⟩, [], 1, true, 0, []⟩]
    units := [⟨some "main.c", none, [0], [⟨"counter", [], some 0x30⟩]⟩,
      ⟨some "counter.c", none, [],
        [⟨"counter", [0x03, 0, 0x20, 0, 0, 0, 0, 0, 0], some 0x30⟩]⟩]
    types := [(0x30, ⟨some "int", some 4⟩)] }

/-- A machine in `main`, with the variable in memory. -/
def inMain : Machine :=
  .ofImage ⟨[⟨⟨0x2000⟩, [7, 0, 0, 0], false⟩], Registers.zero.setPc ⟨0x1004⟩, 0, [], [], [],
    false⟩ []

theorem findsDefinition_iff_declared :
    declaredIndex.NoLocal ⟨0x1004⟩ "counter" ∧
      (∃ u ∈ declaredIndex.units, ∃ d ∈ u.globals, d.name = "counter" ∧ d.location ≠ []) ∧
      ¬ declaredIndex.FindsDefinition ⟨0x1004⟩ "counter" ∧
      VariableValue.read inMain declaredIndex none .null "counter" =
        .error (.noLocation "counter") := by
  have hlocal : declaredIndex.NoLocal ⟨0x1004⟩ "counter" := by
    unfold NoLocal
    decide +kernel
  have hdefined : ∃ u ∈ declaredIndex.units, ∃ d ∈ u.globals,
      d.name = "counter" ∧ d.location ≠ [] := by
    decide +kernel
  obtain ⟨v, hv, -, -, hfinds, hread⟩ :=
    findsDefinition_iff declaredIndex ⟨0x1004⟩ "counter" hlocal hdefined
  have hdeclared : (declaredIndex.candidates ⟨0x1004⟩ "counter").head? =
      some ⟨"counter", [], some 0x30⟩ := by
    decide +kernel
  obtain rfl : v = ⟨"counter", [], some 0x30⟩ := Option.some.inj (hv.symm.trans hdeclared)
  -- the first candidate is the declaration, which has no location
  exact ⟨hlocal, hdefined, fun h => hfinds.1 h rfl, hread rfl inMain none .null inMain.regs rfl rfl⟩

/-- A declaration in the unit of the function hides the definition in another unit. -/
theorem not_findsDefinition :
    ¬ ∀ (index : DebugIndex) (pc : Addr) (name : String), index.NoLocal pc name →
      (∃ u ∈ index.units, ∃ d ∈ u.globals, d.name = name ∧ d.location ≠ []) →
      index.FindsDefinition pc name := by
  intro h
  obtain ⟨v, f, hfound, hlocation, -⟩ := h declaredIndex ⟨0x1004⟩ "counter"
    (by unfold NoLocal; decide +kernel) (by decide +kernel)
  have hdeclared : declaredIndex.variableInScope ⟨0x1004⟩ "counter" =
      .ok (⟨"counter", [], some 0x30⟩, declaredIndex.functions.head?) := by
    decide +kernel
  rw [hdeclared] at hfound
  cases hfound
  exact hlocation rfl

end SourceDebugger.DebugIndex
