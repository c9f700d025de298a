import SourceDebugger.Proofs.BreakpointAddress
import SourceDebugger.Proofs.OperatorTable

/-!
# Breakpoints on functions

A breakpoint on a function is set in two steps. The function stands for a line, that of the first
end of a prologue in it or else that of its first address, `DebugIndex.functionEntry`; and then a
breakpoint is set on this line, wherever its rows are.

* `DebugIndex.Tables.functionEntry_cases`: where the line comes from.
* `Session.setFunctionBreakpoint_lands`: the trap is at the address chosen among all rows of the
  line. It is in the function if and only if the choice among the rows in the function is the same,
  which can fail on a line that several functions share.
-/

namespace SourceDebugger

open BreakpointTable LineRecord

/-! ### The line of a function -/

namespace DebugIndex

variable {index : DebugIndex} {table : LineTable} {given : List CompileUnit} {f : FunctionEntry}
  {location : SourceLocation}

theorem mem_of_lowestRecord? {records : List (SourceLocation × LineRecord)}
    {e : SourceLocation × LineRecord} (h : lowestRecord? records = some e) : e ∈ records := by
  -- going through the records, the lowest one so far is one of them
  have hfold : ∀ (rest : List (SourceLocation × LineRecord)) (m : SourceLocation × LineRecord),
      rest.foldl (fun m e => if e.2.addr < m.2.addr then e else m) m ∈ m :: rest := by
    intro rest
    induction rest with
    | nil => exact fun m => List.mem_singleton_self m
    | cons s rest ih =>
      intro m
      rw [List.foldl_cons]
      split
      · exact List.mem_cons_of_mem _ (ih s)
      · rcases List.mem_cons.1 (ih m) with hm | hm
        · exact List.mem_cons.2 (.inl hm)
        · exact List.mem_cons_of_mem _ (List.mem_cons_of_mem _ hm)
  rcases records with _ | ⟨r, rest⟩
  · cases h
  · cases h
    exact hfold rest r

theorem lowestRecord?_eq_none_iff {records : List (SourceLocation × LineRecord)} :
    lowestRecord? records = none ↔ records = [] := by
  cases records <;> simp [lowestRecord?]

/-- The line of a function is one on which a prologue ends in it. If there is none, it is the line
of its first address. -/
theorem Tables.functionEntry_cases (h : index.Tables table given)
    (hentry : index.functionEntry f = .ok location) :
    location.file ∈ SortedMap.keys index.sources ∧
      ((∃ r, (location, r) ∈ table ∧ r.prologueEnd = true ∧ f.contains r.addr = true) ∨
        (∀ e ∈ table, e.2.prologueEnd = true → f.contains e.2.addr = false) ∧
          index.resolveAddress f.lowPc = .ok location) := by
  rw [functionEntry_eq] at hentry
  -- the location comes from a marked row in the function, or else from its low address
  rcases hlowest : lowestRecord? (index.prologueRecords f) with _ | ⟨l, r⟩ <;>
    rw [hlowest] at hentry
  · obtain ⟨r, hrow⟩ := h.exists_row_of_resolveAddress hentry
    refine ⟨h.lists.known _ hrow, .inr ⟨fun e he hmark => ?_, hentry⟩⟩
    have hnone : index.prologueRecords f = [] := lowestRecord?_eq_none_iff.1 hlowest
    have hout := List.filter_eq_nil_iff.1 hnone e (h.records.mem_iff.2 he)
    rwa [hmark, Bool.true_and, Bool.not_eq_true] at hout
  · cases hentry
    obtain ⟨hmem, hinside⟩ := List.mem_filter.1 (mem_of_lowestRecord? hlowest)
    obtain ⟨hmark, hcontains⟩ := Bool.and_eq_true_iff.1 hinside
    have hrow := h.records.mem_iff.1 hmem
    exact ⟨h.lists.known _ hrow, .inl ⟨r, hrow, hmark, hcontains⟩⟩

end DebugIndex

/-! ### Setting the breakpoint -/

namespace Session

variable {σ : Type} [Tracee σ]

/-- Where a breakpoint on a function is set, it is on the line of the first function with this
name. -/
theorem setFunctionBreakpoint_ok {index : DebugIndex} {table : LineTable} {given : List CompileUnit}
    (hindex : index.Tables table given) {name : String} {s t : Session σ} (hs : s.index = index)
    {answer : Feedback} (h : setFunctionBreakpoint name s = some (.ok answer, t)) :
    ∃ f rest location b, index.functionsNamed name = f :: rest ∧
      index.functionEntry f = .ok location ∧ b.kind = .user ∧ b.file = location.file ∧
      b.line = location.line ∧ t.breakpoints = s.breakpoints ++ [b] ∧
      answer = .breakpointSet t.breakpoints.user.length b.addr b.file b.line ∧
      Preferred (table.rowsOf location.file location.line) b.addr := by
  rw [setFunctionBreakpoint_apply, hs] at h
  rcases hnamed : index.functionsNamed name with _ | ⟨f, rest⟩ <;> rw [hnamed] at h
  · cases h
  dsimp only at h
  rcases hentry : index.functionEntry f with e | location <;> rw [hentry] at h
  · cases h
  dsimp only at h
  -- the file of the location is known, hence it names itself
  have hfile := (hindex.functionEntry_cases hentry).1
  have hknown : s.index.resolveFile? location.file = some location.file := by
    rw [hs]
    simp [DebugIndex.resolveFile?, hfile]
  -- the same line is looked up again, this time in the whole program
  rcases setBreakpoint_cases location.file location.line s with
    ⟨e, p, herror⟩ | ⟨b, p, hkind, hresolves, -, hsame, hline, hok⟩
  · cases herror.symm.trans h
  cases hok.symm.trans h
  have hlookup := hresolves.lookup
  rw [hs, hsame hknown, hline, DebugIndex.lookupBreakpointAddress_ok_iff,
    hindex.lists.recordsOf_eq hfile] at hlookup
  exact ⟨f, rest, location, b, rfl, hentry, hkind, hsame hknown, hline, rfl, rfl, hlookup.1⟩

/-- Where a breakpoint on a function is set, the trap is at the address chosen among all rows of the
line of the function. It lies in the function if and only if the choice among the rows in the
function is the same.

If a prologue ends in the function, the line has rows in it, and the trap lies in it unless the line
has an end of a prologue elsewhere. If none does, the trap lies in it if and only if the lowest row
of the line does and no row of the line ends a prologue. -/
theorem setFunctionBreakpoint_lands {directory : String} {calls : List DebugIndex.IndexCall}
    {index : DebugIndex} (h : DebugIndex.ofCalls? directory calls = some index) {s t : Session σ}
    (hs : s.index = index) {fuel : Nat} {name : String} {answer : Feedback}
    (hset : handle fuel (.setFunctionBreakpoint name) s = some (.ok answer, t)) :
    let table : LineTable := calls.filterMap DebugIndex.IndexCall.row?
    ∃ f rest location b, index.functionsNamed name = f :: rest ∧
      index.functionEntry f = .ok location ∧ b.kind = .user ∧ b.file = location.file ∧
      b.line = location.line ∧ t.breakpoints = s.breakpoints ++ [b] ∧
      answer = .breakpointSet t.breakpoints.user.length b.addr b.file b.line ∧
      let rows := table.rowsOf location.file location.line
      let own := rows.filter (f.contains ·.addr)
      Preferred rows b.addr ∧
      (f.contains b.addr = true ↔ Preferred own b.addr) ∧
      ((∃ e ∈ table, e.2.prologueEnd = true ∧ f.contains e.2.addr = true) →
        (∃ a, Preferred own a) ∧
          ((∀ r ∈ rows, r.prologueEnd = true → f.contains r.addr = true) →
            f.contains b.addr = true)) ∧
      ((∀ e ∈ table, e.2.prologueEnd = true → f.contains e.2.addr = false) →
        (f.contains b.addr = true ↔ (∀ r ∈ rows, r.prologueEnd = false) ∧
          ∃ r ∈ rows, f.contains r.addr = true ∧ ∀ q ∈ rows, r.addr ≤ q.addr)) := by
  intro table
  have htables := DebugIndex.tables_ofCalls h
  obtain ⟨f, rest, location, b, hnamed, hentry, hkind, hfile, hline, htable, hanswer, hchosen⟩ :=
    setFunctionBreakpoint_ok htables hs hset
  refine ⟨f, rest, location, b, hnamed, hentry, hkind, hfile, hline, htable, hanswer, hchosen,
    ?_, ?_, ?_⟩
  · refine ⟨fun hin => hchosen.filter f.contains hin, fun hown => ?_⟩
    obtain ⟨r, hr, haddr⟩ := hown.exists_mem
    exact haddr ▸ (List.mem_filter.1 hr).2
  · rintro ⟨e, he, hmark, hin⟩
    -- so the line is one on which a prologue ends in the function
    rcases (htables.functionEntry_cases hentry).2 with ⟨r, hr, hrmark, hrin⟩ | ⟨hnone, -⟩
    · have hrow := LineTable.mem_rowsOf.2 hr
      refine ⟨Preferred.exists_of_ne_nil (List.ne_nil_of_mem (List.mem_filter.2 ⟨hrow, hrin⟩)),
        fun hall => ?_⟩
      obtain ⟨q, hq, hqmark, haddr⟩ := hchosen.exists_marked ⟨r, hrow, hrmark⟩
      exact haddr ▸ hall q hq hqmark
    · exact absurd hin (by simp [hnone e he hmark])
  · intro hnone
    exact hchosen.within_iff fun r hr => hnone _ (LineTable.mem_rowsOf.1 hr)

/-- Two functions on one line, each with the end of its prologue. -/
def sharedLine : List DebugIndex.IndexCall :=
  [.unit ⟨some "a.c", none, [], []⟩,
    .function ⟨"caller", ⟨0x1000⟩, ⟨0x1007⟩, [], 1, true, 0, []⟩,
    .function ⟨"callee", ⟨0x1007⟩, ⟨0x100a⟩, [], 1, true, 0, []⟩,
    .line (.record "a.c" 1 ⟨0x1000⟩ false), .line (.record "a.c" 1 ⟨0x1005⟩ true),
    .line (.record "a.c" 1 ⟨0x1007⟩ false), .line (.record "a.c" 1 ⟨0x1008⟩ true),
    .line (.sequence ⟨0x1000⟩ ⟨0x100a⟩)]

/-- What a breakpoint on one of them comes to. -/
def sharedLineSet (name : String) :
    Option (DebugIndex × Except DebugError Feedback × Session Machine) :=
  (DebugIndex.ofCalls? "/" sharedLine).bind fun index =>
    (handle 0 (.setFunctionBreakpoint name)
      (start (Machine.callsUnless []) index none .null ⟨"/", []⟩)).map (index, ·)

/-- Whether the trap is in the function. -/
def landed (name : String) : DebugIndex × Except DebugError Feedback × Session Machine → Bool
  | (index, _, t) => (index.functionsNamed name).head?.any fun f =>
    t.breakpoints.all fun b => f.contains b.addr

/-- A breakpoint on the first function is in it. -/
theorem setFunctionBreakpoint_lands_caller :
    ∃ index answer t, sharedLineSet "caller" = some (index, .ok answer, t) ∧
      ∃ f b, index.functionsNamed "caller" = [f] ∧ t.breakpoints = [b] ∧
        f.contains b.addr = true := by
  have hrun : (sharedLineSet "caller").any (fun end_ =>
      end_.2.1.isOk && decide ((end_.1.functionsNamed "caller").length = 1) &&
        landed "caller" end_) = true := by
    decide +kernel
  -- computed once; the function, its answer and the place are read off
  obtain ⟨⟨index, r, t⟩, hset, hend⟩ := (Option.any_eq_true _ _).1 hrun
  simp only [Bool.and_eq_true, decide_eq_true_eq] at hend
  obtain ⟨⟨hok, hlength⟩, hlanded⟩ := hend
  rcases r with e | answer
  · cases hok
  obtain ⟨index', hindex, hhandle⟩ := Option.bind_eq_some_iff.1 hset
  obtain ⟨_, hhandle, heq⟩ := Option.map_eq_some_iff.1 hhandle
  cases heq
  obtain ⟨f, rest, location, b, hnamed, -, -, -, -, htable, -⟩ :=
    setFunctionBreakpoint_lands hindex rfl hhandle
  rw [hnamed, List.length_cons, Nat.add_eq_right, List.length_eq_zero_iff] at hlength
  subst hlength
  refine ⟨index, answer, t, hset, f, b, hnamed, htable, ?_⟩
  have hall : ∀ a ∈ t.breakpoints, f.contains a.addr = true := by
    simpa [landed, hnamed] using hlanded
  exact hall b (htable ▸ List.mem_append_right _ (List.mem_singleton_self b))

/-- One on the second is set, but not in it. -/
theorem not_setFunctionBreakpoint_lands :
    ¬ ∀ (calls : List DebugIndex.IndexCall) (index : DebugIndex) (p : Machine) (name : String)
      (answer : Feedback) (t : Session Machine),
      DebugIndex.ofCalls? "/" calls = some index → Tracee.isAlive p = true →
      handle 0 (.setFunctionBreakpoint name) (start p index none .null ⟨"/", []⟩) =
        some (.ok answer, t) →
      ∃ f, (index.functionsNamed name).head? = some f ∧
        ∀ b ∈ t.breakpoints, f.contains b.addr = true := by
  intro h
  have hrun : (sharedLineSet "callee").any (fun end_ =>
      end_.2.1.isOk && !landed "callee" end_) = true := by
    decide +kernel
  obtain ⟨⟨index, r, t⟩, hset, hend⟩ := (Option.any_eq_true _ _).1 hrun
  -- the preferred address of the line lies in the other function
  obtain ⟨hok, hmissed⟩ := Bool.and_eq_true_iff.1 hend
  rcases r with e | answer
  · cases hok
  obtain ⟨index', hindex, hhandle⟩ := Option.bind_eq_some_iff.1 hset
  obtain ⟨_, hhandle, heq⟩ := Option.map_eq_some_iff.1 hhandle
  cases heq
  obtain ⟨f, hfirst, hall⟩ :=
    h sharedLine index (Machine.callsUnless []) "callee" answer t hindex rfl hhandle
  have hlanded : landed "callee" (index, .ok answer, t) = true := by
    simp only [landed, hfirst, Option.any_some]
    exact List.all_eq_true.2 hall
  rw [hlanded] at hmissed
  cases hmissed

end Session

end SourceDebugger
