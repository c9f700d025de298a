import SourceDebugger.Proofs.OperatorTable
import SourceDebugger.Proofs.Restart

/-!
# The numbers of breakpoints

The operator knows breakpoints by numbers. They are told when a breakpoint is set, shown when the
breakpoints are listed, and given back when one is to be cleared. Each time they are found in
another way, in a table that also holds breakpoints of the step engine.

* `BreakpointTable.mem_listed`: the number in a list is the place among the breakpoints of the
  operator, and `BreakpointTable.mem_listed_iff_numbered?` that of the breakpoint that is cleared.
* `BreakpointTable.mem_listed_split`: without one of them, those behind it move up.
* `Session.KeepsFirst`: a run loses none of the first breakpoints. Then these stay the first ones,
  `Session.KeepsFirst.take_sites`, and `Session.Effect.of_loses` says when one is lost.
* `Session.executeAll_numbered`: so the numbers agree in every session.
-/

namespace SourceDebugger

open BreakpointTable

variable {σ : Type}

namespace BreakpointTable

variable {table : BreakpointTable} {b : Breakpoint} {n : Nat}

/-- A breakpoint of the operator is shown before those behind it. -/
theorem user_cons_of_user {rest : BreakpointTable} (hkind : b.kind = .user) :
    user (b :: rest) = b :: rest.user := by
  simp [user, hkind]

/-- A breakpoint of the step engine is not shown. -/
theorem user_cons_of_internal {rest : BreakpointTable} (hkind : b.kind = .internal) :
    user (b :: rest) = rest.user := by
  simp [user, hkind]

/-- The numbers that are given out are those from `next` on, one for each breakpoint of the
operator. -/
theorem numbers_numberedFrom (next : Nat) (table : BreakpointTable) :
    (numberedFrom next table).filterMap (·.1) = List.range' next table.user.length := by
  induction table generalizing next with
  | nil => rfl
  | cons c rest ih =>
    rcases hkind : c.kind with _ | _
    · rw [user_cons_of_user hkind, List.length_cons, List.range'_succ, ← ih, numberedFrom, hkind]
      rfl
    · rw [user_cons_of_internal hkind, ← ih, numberedFrom, hkind]
      rfl

/-- A breakpoint of the operator has its place among those of the operator as its number. -/
theorem mem_numberedFrom {next : Nat} :
    (some n, b) ∈ numberedFrom next table ↔ next ≤ n ∧ table.user[n - next]? = some b := by
  induction table generalizing next with
  | nil => simp [numberedFrom, user]
  | cons c rest ih =>
    rw [numberedFrom]
    rcases hkind : c.kind with _ | _
    · rw [user_cons_of_user hkind]
      simp only [List.mem_cons, ih, Prod.mk.injEq, Option.some.injEq]
      -- the first one has the number `next`, and the others have higher ones
      rcases Nat.lt_trichotomy n next with hlt | rfl | hgt
      · constructor
        · rintro (⟨rfl, -⟩ | ⟨hle, -⟩) <;> omega
        · rintro ⟨hle, -⟩
          omega
      · rw [Nat.sub_self, List.getElem?_cons_zero]
        constructor
        · rintro (⟨-, rfl⟩ | ⟨hle, -⟩)
          · exact ⟨Nat.le_refl _, rfl⟩
          · omega
        · rintro ⟨-, hb⟩
          exact .inl ⟨rfl, (Option.some.inj hb).symm⟩
      · have hplace : n - next = n - (next + 1) + 1 := by omega
        rw [hplace, List.getElem?_cons_succ]
        constructor
        · rintro (⟨heq, -⟩ | ⟨-, hb⟩)
          · omega
          · exact ⟨by omega, hb⟩
        · rintro ⟨-, hb⟩
          exact .inr ⟨by omega, hb⟩
    · rw [user_cons_of_internal hkind]
      simp only [List.mem_cons, ih, Prod.mk.injEq, reduceCtorEq, false_and, false_or]

/-- A breakpoint is listed with its place among those of the operator, counted from one. -/
theorem mem_listed {all : Bool} :
    (some n, b) ∈ table.listed all ↔ 1 ≤ n ∧ table.user[n - 1]? = some b := by
  rw [listed, List.mem_filter, mem_numberedFrom]
  simp

/-- Whether those of the step engine are listed as well, the numbers are the same. -/
theorem numbers_listed (table : BreakpointTable) (all : Bool) :
    (table.listed all).filterMap (·.1) = List.range' 1 table.user.length := by
  rw [← numbers_numberedFrom, listed, List.filterMap_filter]
  refine List.filterMap_congr fun e _ => ?_
  rcases e with ⟨_ | n, c⟩ <;> simp

/-- The number in a list is the one by which a breakpoint is cleared. -/
theorem mem_listed_iff_numbered? {all : Bool} {number : UInt64} :
    (some number.toNat, b) ∈ table.listed all ↔ table.numbered? number = some b := by
  rw [mem_listed, numbered?]
  rcases number.toNat with _ | n <;> simp

/-- Every place among the breakpoints of the operator is one in the whole table. -/
theorem exists_split_of_user (h : table.user[n]? = some b) :
    ∃ before after, table = before ++ b :: after ∧ before.user.length = n ∧ b.kind = .user := by
  induction table generalizing n with
  | nil => simp [user] at h
  | cons c rest ih =>
    rcases hkind : c.kind with _ | _
    · rw [user_cons_of_user hkind] at h
      rcases n with _ | n
      · cases h
        exact ⟨[], rest, rfl, rfl, hkind⟩
      · obtain ⟨before, after, rfl, hlength, hb⟩ := ih h
        refine ⟨c :: before, after, rfl, ?_, hb⟩
        rw [user_cons_of_user hkind, List.length_cons, hlength]
    · rw [user_cons_of_internal hkind] at h
      obtain ⟨before, after, rfl, hlength, hb⟩ := ih h
      exact ⟨c :: before, after, rfl, (user_cons_of_internal hkind).symm ▸ hlength, hb⟩

/-- The breakpoints of the operator are shown in the order of the table. -/
theorem user_split {before after : BreakpointTable} (hkind : b.kind = .user) :
    user (before ++ b :: after) = before.user ++ b :: after.user := by
  rw [← user_cons_of_user hkind]
  exact List.filter_append ..

/-- To clear the breakpoint with a number leaves those before it and those behind it. -/
theorem Distinct.numbered?_split (h : table.Distinct) {number : UInt64}
    (hnumber : table.numbered? number = some b) :
    ∃ before after, table = before ++ b :: after ∧ before.user.length + 1 = number.toNat ∧
      b.kind = .user ∧ table.without b.addr = before ++ after := by
  unfold numbered? at hnumber
  split at hnumber
  · cases hnumber
  rename_i n hn
  obtain ⟨before, after, rfl, hlength, hkind⟩ := exists_split_of_user hnumber
  refine ⟨before, after, rfl, by omega, hkind, ?_⟩
  have hbefore : ∀ c ∈ before, ¬ decide (c.addr = b.addr) = true := fun c hc => by
    simpa using isArmed_eq_false_iff.1 h.free c hc
  rw [BreakpointTable.without, List.eraseP_append_right _ hbefore,
    List.eraseP_cons_of_pos (by simp)]

/-- Without one of them, the breakpoints before it keep their numbers and those behind it have the
next lower ones. -/
theorem mem_listed_split {before after : BreakpointTable} (hkind : b.kind = .user) {all : Bool}
    {c : Breakpoint} :
    (some n, c) ∈ listed (before ++ after) all ↔
      if n < before.user.length + 1 then (some n, c) ∈ listed (before ++ b :: after) all
      else (some (n + 1), c) ∈ listed (before ++ b :: after) all := by
  have hwithout : user (before ++ after) = before.user ++ after.user := List.filter_append ..
  simp only [mem_listed, hwithout, user_split hkind, Nat.add_sub_cancel]
  split
  · rename_i hlt
    refine and_congr_right fun hn => ?_
    have hplace : n - 1 < before.user.length := by omega
    rw [List.getElem?_append_left hplace, List.getElem?_append_left hplace]
  · rename_i hge
    have hplace : n - before.user.length = n - 1 - before.user.length + 1 := by omega
    rw [List.getElem?_append_right (by omega), List.getElem?_append_right (by omega), hplace,
      List.getElem?_cons_succ]
    exact ⟨fun h => ⟨by omega, h.2⟩, fun h => ⟨by omega, h.2⟩⟩

/-- No site is shown twice. -/
theorem Distinct.nodup_sites (h : table.Distinct) : (table.user.map (·.site)).Nodup := by
  have haddrs : ((table.user.map (·.site)).map (·.1)).Nodup := by
    rw [List.map_map]
    exact h.user
  exact haddrs.of_map

end BreakpointTable

/-- A part of a list that has all of its first elements begins with them. -/
theorem take_eq_of_sublist {α : Type} {l l' : List α} (hsub : l'.Sublist l) (hnodup : l.Nodup)
    {k : Nat} (hk : k ≤ l.length) (hkept : ∀ x ∈ l.take k, x ∈ l') : l'.take k = l.take k := by
  have hsplit := List.take_append_drop k l
  rw [← hsplit] at hsub hnodup
  obtain ⟨front, back, rfl, hfront, hback⟩ := List.sublist_append_iff.1 hsub
  have hall : l.take k ⊆ front := by
    intro x hx
    rcases List.mem_append.1 (hkept x hx) with hx' | hx'
    · exact hx'
    · exact absurd rfl ((List.nodup_append.1 hnodup).2.2 x hx x (hback.subset hx'))
  have hlength := (List.subperm_of_subset (List.nodup_append.1 hnodup).1 hall).length_le
  rw [hfront.eq_of_length_le hlength, List.take_append_of_le_length (by simp [hk]), List.take_take,
    Nat.min_self]

namespace Session

/-! ### Runs -/

/-- One of the first `k` breakpoints of the operator is gone. -/
def Loses (k : Nat) (s t : Session σ) : Prop :=
  ∃ b ∈ s.breakpoints.user.take k, ∀ c ∈ t.breakpoints.user, c.site ≠ b.site

variable [Tracee σ]

/-- No command of a run loses one of the first `k` breakpoints of the operator. -/
def KeepsFirst (k : Nat) : List (Nat × Command) → Session σ → Prop
  | [], _ => True
  | (fuel, c) :: rest, s =>
    ∀ r t, handle fuel c s = some (r, t) → ¬ Loses k s t ∧ KeepsFirst k rest t

variable {s t : Session σ} {c : Command} {r : Except DebugError Feedback} {index : DebugIndex}
  {k : Nat}

omit [Tracee σ] in
/-- A command that loses none of the first breakpoints leaves them the first ones. -/
theorem Effect.take_sites (h : Effect s t c r) (hs : s.Tidy index)
    (hk : k ≤ s.breakpoints.user.length) (hkept : ¬ Loses k s t) :
    (t.breakpoints.user.map (·.site)).take k = (s.breakpoints.user.map (·.site)).take k := by
  have hk' : k ≤ (s.breakpoints.user.map (·.site)).length := by rwa [List.length_map]
  rcases h.evolves hs with ⟨b, hadded⟩ | hsub
  · rw [hadded, List.take_append_of_le_length hk']
  · refine take_eq_of_sublist hsub hs.distinct.nodup_sites hk' fun x hx => ?_
    rw [← List.map_take] at hx
    obtain ⟨b, hb, rfl⟩ := List.mem_map.1 hx
    by_contra hgone
    exact hkept ⟨b, hb, fun c hc hsite => hgone (hsite ▸ List.mem_map_of_mem hc)⟩

/-- So does a run. -/
theorem KeepsFirst.take_sites {later : List (Nat × Command)} {u : Session σ} (hs : s.Tidy index)
    (hk : k ≤ s.breakpoints.user.length) (hkeeps : KeepsFirst k later s)
    (hrun : executeAll later s = some u) :
    (u.breakpoints.user.map (·.site)).take k = (s.breakpoints.user.map (·.site)).take k := by
  induction later generalizing s with
  | nil =>
    cases hrun
    rfl
  | cons head rest ih =>
    obtain ⟨fuel, c⟩ := head
    rw [executeAll] at hrun
    rcases hhandle : handle fuel c s with _ | ⟨r, t⟩ <;> rw [hhandle] at hrun
    · cases hrun
    obtain ⟨hkept, hrest⟩ := hkeeps r t hhandle
    have heffect := handle_effect hs fuel c r t hhandle
    have hfirst := heffect.take_sites hs hk hkept
    -- there are still as many
    have hk' : k ≤ t.breakpoints.user.length := by
      have hlength := congrArg List.length hfirst
      simp only [List.length_take, List.length_map] at hlength
      omega
    exact (ih (heffect.tidy hs) hk' hrest hrun).trans hfirst

omit [Tracee σ] in
/-- Only a command that clears one of the first breakpoints or all of them loses one, and a restart
that cannot set all of them again. -/
theorem Effect.of_loses (h : Effect s t c r) (hs : s.Tidy index) (hloses : Loses k s t) :
    (∃ number b, c = .clearBreakpoint (.number number) ∧ number.toNat ≤ k ∧
      r = .ok (.breakpointsCleared [b])) ∨
    c = .clearBreakpoint .all ∨
    ∃ pid count, c = .restart ∧ r = .ok (.restarted pid count) ∧
      count < s.breakpoints.user.length := by
  obtain ⟨b, hb, hgone⟩ := hloses
  have hmem := List.mem_of_mem_take hb
  cases h with
  | spared hspared =>
    rw [(hspared.table hs.distinct).2] at hgone
    exact absurd rfl (hgone b hmem)
  | set a hkind _ _ _ htable =>
    rw [htable, user_append_user hkind] at hgone
    exact absurd rfl (hgone b (List.mem_append_left _ hmem))
  | cleared number a hnumber _ htable =>
    refine .inl ⟨number, a, rfl, ?_, rfl⟩
    by_contra hlt
    obtain ⟨before, after, hsplit, hlength, hkind, hwithout⟩ := hs.distinct.numbered?_split hnumber
    -- the first ones stand before the one that is cleared
    have hbefore : b ∈ before.user := by
      rw [hsplit, user_split hkind, List.take_append_of_le_length (by omega)] at hb
      exact List.mem_of_mem_take hb
    have hkept : b ∈ t.breakpoints.user := by
      rw [htable, hwithout, user, List.filter_append]
      exact List.mem_append_left _ hbefore
    exact hgone b hkept rfl
  | clearedAll => exact .inr (.inl rfl)
  | restarted pid _ _ _ hsub =>
    refine .inr (.inr ⟨pid, _, rfl, rfl, ?_⟩)
    by_contra hge
    have hall : t.breakpoints.user.map (·.site) = s.breakpoints.user.map (·.site) :=
      hsub.eq_of_length_le (by simpa using hge)
    have hsite : b.site ∈ t.breakpoints.user.map (·.site) := hall ▸ List.mem_map_of_mem hmem
    obtain ⟨c, hc, hsame⟩ := List.mem_map.1 hsite
    exact hgone c hc hsame

/-- The numbers by which the operator knows the breakpoints of a session. -/
structure Numbered (s : Session σ) : Prop where
  /-- The breakpoints are listed with their numbers. -/
  shown : ∀ fuel all, handle fuel (.listBreakpoints all) s =
    some (.ok (.breakpoints (s.breakpoints.listed all)), s)
  /-- These are all numbers up to that of the operator's breakpoints, each of them once. -/
  numbers : ∀ all,
    (s.breakpoints.listed all).filterMap (·.1) = List.range' 1 s.breakpoints.user.length
  /-- They are the same if those of the step engine are listed as well. -/
  same : ∀ n b, (some n, b) ∈ s.breakpoints.listed true ↔ (some n, b) ∈ s.breakpoints.listed false
  /-- A breakpoint that is set gets the next number. In any later run that loses neither this
  breakpoint nor one before it, it is listed under this number and no other one. -/
  reported : ∀ fuel c answer t, setsOne c = true → handle fuel c s = some (.ok answer, t) →
    let k := s.breakpoints.user.length + 1
    ∃ addr file line, answer = .breakpointSet k addr file line ∧
      ∀ later u, executeAll later t = some u → KeepsFirst k later t →
        ∃ b, b.site = (addr, file, line) ∧
          ∀ all n, (some n, b) ∈ u.breakpoints.listed all ↔ n = k
  /-- A breakpoint is only lost if it is cleared or the process is started again. -/
  lost : ∀ fuel c k r t, handle fuel c s = some (r, t) → Loses k s t →
    (∃ number b, c = .clearBreakpoint (.number number) ∧ number.toNat ≤ k ∧
      r = .ok (.breakpointsCleared [b])) ∨
    c = .clearBreakpoint .all ∨
    ∃ pid count, c = .restart ∧ r = .ok (.restarted pid count) ∧
      count < s.breakpoints.user.length
  /-- A number is listed if there are at least as many breakpoints of the operator. -/
  accepted : ∀ number : UInt64, (∃ b, (some number.toNat, b) ∈ s.breakpoints.listed false) ↔
    1 ≤ number.toNat ∧ number.toNat ≤ s.breakpoints.user.length
  /-- Under a number that is not listed nothing can be cleared. -/
  refused : ∀ fuel number, (∀ b, (some number.toNat, b) ∉ s.breakpoints.listed false) →
    handle fuel (.clearBreakpoint (.number number)) s =
      some (.error (.noSuchBreakpoint number), s)
  /-- Under a number that is listed the breakpoint is cleared that is listed, if its byte can be put
  back. All others stay in their order, so those behind it have the next lower numbers. -/
  cleared : ∀ fuel number b, (some number.toNat, b) ∈ s.breakpoints.listed false →
    ∃ before after, s.breakpoints = before ++ b :: after ∧
      (handle fuel (.clearBreakpoint (.number number)) s =
        match Tracee.writeMemory b.addr [b.saved] s.process with
        | (.error e, p) => some (.error e, { s with debuggee := ⟨p, s.breakpoints⟩ })
        | (.ok _, p) => some (.ok (.breakpointsCleared [b]),
            { s with debuggee := ⟨p, before ++ after⟩ })) ∧
      ∀ all n c, (some n, c) ∈ listed (before ++ after) all ↔
        if n < number.toNat then (some n, c) ∈ s.breakpoints.listed all
        else (some (n + 1), c) ∈ s.breakpoints.listed all

omit [Tracee σ] in
/-- The breakpoint with a place among those of the operator is listed under one number. -/
theorem Tidy.listed_place {u : Session σ} (hu : u.Tidy index) {site : Addr × String × UInt64}
    (hk : 1 ≤ k) (hsite : (u.breakpoints.user.map (·.site))[k - 1]? = some site) :
    ∃ b, b.site = site ∧ ∀ all n, (some n, b) ∈ u.breakpoints.listed all ↔ n = k := by
  rw [List.getElem?_map] at hsite
  obtain ⟨b, hb, rfl⟩ := Option.map_eq_some_iff.1 hsite
  refine ⟨b, rfl, fun all n => ?_⟩
  rw [mem_listed]
  constructor
  · rintro ⟨hn, hplace⟩
    have hnodup : u.breakpoints.user.Nodup := hu.distinct.user.of_map
    have hlt : n - 1 < u.breakpoints.user.length := (List.getElem?_eq_some_iff.1 hplace).1
    have hsame := (List.getElem?_inj hlt hnodup).1 (hplace.trans hb.symm)
    omega
  · rintro rfl
    exact ⟨hk, hb⟩

/-- A tidy session shows its breakpoints under the numbers that they are cleared by. -/
theorem Tidy.numbered (hs : s.Tidy index) : Numbered s where
  shown _ _ := rfl
  numbers := numbers_listed s.breakpoints
  same _ _ := mem_listed.trans mem_listed.symm
  reported fuel c answer t hc h := by
    obtain ⟨b, hkind, htable, hanswer⟩ := handle_setsOne hc h
    have ht := (handle_effect hs fuel c _ t h).tidy hs
    have huser : t.breakpoints.user = s.breakpoints.user ++ [b] := by
      rw [htable, user_append_user hkind]
    have hcount : t.breakpoints.user.length = s.breakpoints.user.length + 1 := by
      rw [huser, List.length_append, List.length_singleton]
    refine ⟨b.addr, b.file, b.line, hcount ▸ hanswer, fun later u hrun hkeeps => ?_⟩
    have hlast : (t.breakpoints.user.map Breakpoint.site)[s.breakpoints.user.length]? =
        some b.site := by
      simp [huser]
    have hfirst := hkeeps.take_sites ht hcount.ge hrun
    refine (executeAll_tidy later ht hrun).listed_place (Nat.le_add_left 1 _) ?_
    -- the first ones are the same, and the new one was the last of them
    rw [Nat.add_sub_cancel, ← List.getElem?_take_of_lt (Nat.lt_succ_self _), hfirst,
      List.getElem?_take_of_lt (Nat.lt_succ_self _)]
    exact hlast
  lost fuel c k r t h hloses := (handle_effect hs fuel c r t h).of_loses hs hloses
  accepted number := by
    simp only [mem_listed, exists_and_left]
    refine and_congr_right fun hone => ⟨fun ⟨b, hb⟩ => ?_, fun hle => ?_⟩
    · have hlt := (List.getElem?_eq_some_iff.1 hb).1
      omega
    · exact ⟨_, List.getElem?_eq_getElem (by omega)⟩
  refused fuel number hnone := by
    have hnumber : s.breakpoints.numbered? number = none :=
      Option.eq_none_iff_forall_ne_some.2 fun b hb => hnone b (mem_listed_iff_numbered?.2 hb)
    refine (clearNumber_apply hs.distinct number).trans ?_
    rw [hnumber]
  cleared fuel number b hb := by
    have hnumber := mem_listed_iff_numbered?.1 hb
    obtain ⟨before, after, hsplit, hlength, hkind, hwithout⟩ := hs.distinct.numbered?_split hnumber
    refine ⟨before, after, hsplit, ?_, fun all n c => ?_⟩
    · refine (clearNumber_apply hs.distinct number).trans ?_
      rw [hnumber]
      dsimp only
      rcases Tracee.writeMemory b.addr [b.saved] s.process with ⟨_ | _, p⟩ <;> simp only [hwithout]
    · rw [hsplit, ← hlength]
      exact mem_listed_split hkind

/-- After any run of commands the numbers by which the operator knows the breakpoints agree: those
in the lists, those with which breakpoints are cleared, and those in the answers when breakpoints
are set. -/
theorem executeAll_numbered (p : σ) (index : DebugIndex) (frames : Option FrameIndex) (bias : Addr)
    (files : FileSystem) (commands : List (Nat × Command)) {s : Session σ}
    (hrun : executeAll commands (Session.start p index frames bias files) = some s) :
    Numbered s :=
  (executeAll_tidy commands (tidy_start p index frames bias files) hrun).numbered

/-- A breakpoint on each side of one that the step engine left behind. -/
def mixedRun : List (Nat × Command) :=
  [(0, .setBreakpoint "a.c" 1), (20, .next), (0, .setBreakpoint "a.c" 3)]

open Machine in
/-- There the second breakpoint of the operator is the third one of the table. -/
theorem executeAll_numbered_mixed :
    ∃ s, executeAll mixedRun (beforeCall (callsUnless [(2, .refused)])) = some s ∧
      s.breakpoints.map (·.kind) = [.user, .internal, .user] ∧ Numbered s := by
  have hrun : (executeAll mixedRun (beforeCall (callsUnless [(2, .refused)]))).any (fun s =>
      decide (s.breakpoints.map (·.kind) = [.user, .internal, .user])) = true := by
    decide +kernel
  obtain ⟨s, hs, hkinds⟩ := (Option.any_eq_true _ _).1 hrun
  exact ⟨s, hs, of_decide_eq_true hkinds,
    executeAll_numbered (callsUnless [(2, .refused)]) _ none .null ⟨"/", []⟩ mixedRun hs⟩

end Session

end SourceDebugger
