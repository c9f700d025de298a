import SourceDebugger.Proofs.Leb128

/-!
# The table that call frame instructions stand for

Call frame instructions encode a table with a row for each range of addresses: how the frame address
is found there, and how the caller's registers are. `FrameTable.rows` is this table, row by row, for
a list of instructions with numbers of any size. An instruction is `Legal` in a state if the table
has a meaning from there on and its numbers can be represented.

`Op.Encoded` relates an instruction to the bytes that encode it. Some have several encodings.
-/

namespace SourceDebugger.FrameTable

/-- How the caller's value of a register is found. -/
inductive Rule where
  /-- It is lost. -/
  | undefined
  /-- It is the current value. -/
  | sameValue
  /-- It is saved at an offset from the frame address. -/
  | offset (n : Int)
  /-- It is the frame address plus an offset. -/
  | valOffset (n : Int)
  /-- It is in another register. -/
  | register (number : Nat)
  /-- It is saved where an expression says. -/
  | expression (expr : List UInt8)
  /-- It is the value of an expression. -/
  | valExpression (expr : List UInt8)

/-- How the frame address is found. -/
inductive Cfa where
  /-- There is no rule yet. -/
  | undefined
  /-- It is the value of a register plus an offset. -/
  | registerOffset (register : Nat) (offset : Int)
  /-- It is given by an expression. -/
  | expression (expr : List UInt8)

/-- The rules of all registers. -/
abbrev Rules := Nat → Option Rule

/-- A row of the table. It holds from `start` up to the start of the next row. -/
structure Row where
  /-- The first address. -/
  start : Nat
  /-- How the frame address is found. -/
  cfa : Cfa
  /-- How the registers are found. -/
  rules : Rules

/-- How far the table is made. -/
structure State where
  /-- Where the current row starts. -/
  location : Nat
  /-- How the frame address is found in it. -/
  cfa : Cfa
  /-- How the registers are found in it. -/
  rules : Rules
  /-- The rules that were kept for later, the last ones first. -/
  stack : List (Cfa × Rules)

/-- What is the same for the whole table. -/
structure Context where
  /-- The unit of location advances. -/
  codeAlignment : Nat
  /-- The unit of factored offsets. -/
  dataAlignment : Int
  /-- How far the program was moved. -/
  bias : Nat
  /-- The rules of the common entry. -/
  initial : Rules

/-- A call frame instruction. Those that are marked as signed have a factored offset with a sign; of
the others, only `offset` and `valOffset` are factored. -/
inductive Op where
  /-- It does nothing. -/
  | nop
  /-- A row starts at an address of the file. -/
  | setLocation (addr : Nat)
  /-- A row starts some units further up. -/
  | advance (delta : Nat)
  /-- A register is saved at an offset from the frame address. -/
  | offset (register factor : Nat)
  | offsetSigned (register : Nat) (factor : Int)
  /-- A register is the frame address plus an offset. -/
  | valOffset (register factor : Nat)
  | valOffsetSigned (register : Nat) (factor : Int)
  /-- A register is found as the common entry says. -/
  | restore (register : Nat)
  /-- A register is lost. -/
  | undefined (register : Nat)
  /-- A register is what it is. -/
  | sameValue (register : Nat)
  /-- A register is in another one. -/
  | register (register other : Nat)
  /-- All rules are kept for later. -/
  | rememberState
  /-- The rules that were kept last are taken back. -/
  | restoreState
  /-- The frame address is a register plus an offset. -/
  | defCfa (register offset : Nat)
  | defCfaSigned (register : Nat) (factor : Int)
  /-- The frame address is another register plus the same offset. -/
  | defCfaRegister (register : Nat)
  /-- The frame address is the same register plus another offset. -/
  | defCfaOffset (offset : Nat)
  | defCfaOffsetSigned (factor : Int)
  /-- The frame address is given by an expression. -/
  | defCfaExpression (expr : List UInt8)
  /-- A register is saved where an expression says. -/
  | expression (register : Nat) (expr : List UInt8)
  /-- A register is the value of an expression. -/
  | valExpression (register : Nat) (expr : List UInt8)

namespace Cfa

/-- Whether the frame address is a register plus an offset. -/
def OnRegister : Cfa → Prop
  | registerOffset .. => True
  | undefined | expression _ => False

/-- The rule with another register. -/
def withRegister (reg : Nat) : Cfa → Cfa
  | registerOffset _ n => registerOffset reg n
  | rule => rule

/-- The rule with another offset. -/
def withOffset (n : Int) : Cfa → Cfa
  | registerOffset reg _ => registerOffset reg n
  | rule => rule

end Cfa

namespace State

/-- The row that is being made. -/
def row (s : State) : Row := ⟨s.location, s.cfa, s.rules⟩

/-- The state with another rule for a register, or with none. -/
def setRule (s : State) (reg : Nat) (rule : Option Rule) : State :=
  { s with rules := fun r => if r = reg then rule else s.rules r }

end State

/-- Whether a number is a signed word. -/
def Fits (n : Int) : Prop := -2 ^ 63 ≤ n ∧ n < 2 ^ 63

namespace Op

/-- Whether an instruction starts a new row. -/
def moves : Op → Bool
  | setLocation _ | advance _ => true
  | _ => false

/-- What an instruction does. -/
def next (ctx : Context) (s : State) : Op → State
  | nop => s
  | setLocation addr => { s with location := ctx.bias + addr }
  | advance delta => { s with location := s.location + delta * ctx.codeAlignment }
  | offset reg n => s.setRule reg (some (.offset (n * ctx.dataAlignment)))
  | offsetSigned reg n => s.setRule reg (some (.offset (n * ctx.dataAlignment)))
  | valOffset reg n => s.setRule reg (some (.valOffset (n * ctx.dataAlignment)))
  | valOffsetSigned reg n => s.setRule reg (some (.valOffset (n * ctx.dataAlignment)))
  | restore reg => s.setRule reg (ctx.initial reg)
  | undefined reg => s.setRule reg (some .undefined)
  | sameValue reg => s.setRule reg (some .sameValue)
  | register reg other => s.setRule reg (some (.register other))
  | rememberState => { s with stack := (s.cfa, s.rules) :: s.stack }
  | restoreState =>
    match s.stack with
    | (cfa, rules) :: stack => { s with cfa, rules, stack }
    | [] => s
  | defCfa reg n => { s with cfa := .registerOffset reg n }
  | defCfaSigned reg n => { s with cfa := .registerOffset reg (n * ctx.dataAlignment) }
  | defCfaRegister reg => { s with cfa := s.cfa.withRegister reg }
  | defCfaOffset n => { s with cfa := s.cfa.withOffset n }
  | defCfaOffsetSigned n => { s with cfa := s.cfa.withOffset (n * ctx.dataAlignment) }
  | defCfaExpression expr => { s with cfa := .expression expr }
  | expression reg expr => s.setRule reg (some (.expression expr))
  | valExpression reg expr => s.setRule reg (some (.valExpression expr))

/-- Register numbers are below 2^16, and unsigned offsets below 2^63. -/
def InRange : Op → Prop
  | offset reg n | valOffset reg n | defCfa reg n => reg < 2 ^ 16 ∧ n < 2 ^ 63
  | defCfaOffset n => n < 2 ^ 63
  | restore reg | undefined reg | sameValue reg | defCfaRegister reg | offsetSigned reg _
  | valOffsetSigned reg _ | defCfaSigned reg _ | expression reg _ | valExpression reg _ =>
    reg < 2 ^ 16
  | register reg other => reg < 2 ^ 16 ∧ other < 2 ^ 16
  | nop | setLocation _ | advance _ | rememberState | restoreState | defCfaOffsetSigned _
  | defCfaExpression _ => True

/-- Whether an instruction has a meaning in a state: locations do not decrease and are addresses,
the register and the offset of the frame address are changed only where it has them, products are
signed words, and only rules that were kept are taken back. -/
def Legal (ctx : Context) (s : State) (op : Op) : Prop :=
  op.InRange ∧
  match op with
  | setLocation addr => s.location ≤ ctx.bias + addr ∧ ctx.bias + addr < 2 ^ 64
  | advance delta => s.location + delta * ctx.codeAlignment < 2 ^ 64
  | offset _ n | valOffset _ n => Fits (n * ctx.dataAlignment)
  | offsetSigned _ n | valOffsetSigned _ n | defCfaSigned _ n => Fits (n * ctx.dataAlignment)
  | defCfaRegister _ | defCfaOffset _ => s.cfa.OnRegister
  | defCfaOffsetSigned n => s.cfa.OnRegister ∧ Fits (n * ctx.dataAlignment)
  | restoreState => s.stack ≠ []
  | _ => True

open Leb128 in
/-- The bytes that encode an instruction. -/
inductive Encoded : Op → List UInt8 → Prop
  | nop : Encoded nop [0x00]
  | setLocation {addr : Nat} : addr < 2 ^ 64 →
    Encoded (setLocation addr) (0x01 :: toLittleEndian 8 addr)
  | advance {delta : Nat} : delta < 64 → Encoded (advance delta) [UInt8.ofNat (0x40 + delta)]
  | advance1 {delta : UInt8} : Encoded (advance delta.toNat) [0x02, delta]
  | advance2 {delta : Nat} : delta < 2 ^ 16 →
    Encoded (advance delta) (0x03 :: toLittleEndian 2 delta)
  | advance4 {delta : Nat} : delta < 2 ^ 32 →
    Encoded (advance delta) (0x04 :: toLittleEndian 4 delta)
  | offset {reg n : Nat} {bs : List UInt8} : reg < 64 → IsUnsigned n bs →
    Encoded (offset reg n) (UInt8.ofNat (0x80 + reg) :: bs)
  | offsetExtended {reg n : Nat} {rs bs : List UInt8} : IsUnsigned reg rs → IsUnsigned n bs →
    Encoded (offset reg n) (0x05 :: (rs ++ bs))
  | offsetSigned {reg : Nat} {n : Int} {rs bs : List UInt8} : IsUnsigned reg rs → IsSigned n bs →
    Encoded (offsetSigned reg n) (0x11 :: (rs ++ bs))
  | valOffset {reg n : Nat} {rs bs : List UInt8} : IsUnsigned reg rs → IsUnsigned n bs →
    Encoded (valOffset reg n) (0x14 :: (rs ++ bs))
  | valOffsetSigned {reg : Nat} {n : Int} {rs bs : List UInt8} : IsUnsigned reg rs →
    IsSigned n bs → Encoded (valOffsetSigned reg n) (0x15 :: (rs ++ bs))
  | restore {reg : Nat} : reg < 64 → Encoded (restore reg) [UInt8.ofNat (0xc0 + reg)]
  | restoreExtended {reg : Nat} {rs : List UInt8} : IsUnsigned reg rs →
    Encoded (restore reg) (0x06 :: rs)
  | undefined {reg : Nat} {rs : List UInt8} : IsUnsigned reg rs →
    Encoded (undefined reg) (0x07 :: rs)
  | sameValue {reg : Nat} {rs : List UInt8} : IsUnsigned reg rs →
    Encoded (sameValue reg) (0x08 :: rs)
  | register {reg other : Nat} {rs os : List UInt8} : IsUnsigned reg rs → IsUnsigned other os →
    Encoded (register reg other) (0x09 :: (rs ++ os))
  | rememberState : Encoded rememberState [0x0a]
  | restoreState : Encoded restoreState [0x0b]
  | defCfa {reg n : Nat} {rs bs : List UInt8} : IsUnsigned reg rs → IsUnsigned n bs →
    Encoded (defCfa reg n) (0x0c :: (rs ++ bs))
  | defCfaSigned {reg : Nat} {n : Int} {rs bs : List UInt8} : IsUnsigned reg rs → IsSigned n bs →
    Encoded (defCfaSigned reg n) (0x12 :: (rs ++ bs))
  | defCfaRegister {reg : Nat} {rs : List UInt8} : IsUnsigned reg rs →
    Encoded (defCfaRegister reg) (0x0d :: rs)
  | defCfaOffset {n : Nat} {bs : List UInt8} : IsUnsigned n bs →
    Encoded (defCfaOffset n) (0x0e :: bs)
  | defCfaOffsetSigned {n : Int} {bs : List UInt8} : IsSigned n bs →
    Encoded (defCfaOffsetSigned n) (0x13 :: bs)
  | defCfaExpression {expr ls : List UInt8} : IsBlock expr ls →
    Encoded (defCfaExpression expr) (0x0f :: ls)
  | expression {reg : Nat} {expr rs ls : List UInt8} : IsUnsigned reg rs → IsBlock expr ls →
    Encoded (expression reg expr) (0x10 :: (rs ++ ls))
  | valExpression {reg : Nat} {expr rs ls : List UInt8} : IsUnsigned reg rs → IsBlock expr ls →
    Encoded (valExpression reg expr) (0x16 :: (rs ++ ls))

/-- The bytes that encode instructions in a row. -/
inductive EncodedAll : List Op → List UInt8 → Prop
  | nil : EncodedAll [] []
  | cons {op : Op} {ops : List Op} {bs code : List UInt8} : Encoded op bs → EncodedAll ops code →
    EncodedAll (op :: ops) (bs ++ code)

end Op

/-- Whether instructions have a meaning, one after the other. -/
def LegalAll (ctx : Context) : State → List Op → Prop
  | _, [] => True
  | s, op :: ops => op.Legal ctx s ∧ LegalAll ctx (op.next ctx s) ops

/-- The state behind all instructions. -/
def final (ctx : Context) (s : State) (ops : List Op) : State := ops.foldl (Op.next ctx) s

/-- The rows from the current one on. A row is complete where the next one starts. -/
def rows (ctx : Context) : State → List Op → List Row
  | s, [] => [s.row]
  | s, op :: ops =>
    if op.moves then s.row :: rows ctx (op.next ctx s) ops else rows ctx (op.next ctx s) ops

section Checks

instance (n : Int) : Decidable (Fits n) := inferInstanceAs (Decidable (_ ∧ _))

instance (cfa : Cfa) : Decidable cfa.OnRegister := by
  cases cfa <;> dsimp only [Cfa.OnRegister] <;> infer_instance

instance (op : Op) : Decidable op.InRange := by
  cases op <;> dsimp only [Op.InRange] <;> infer_instance

instance (ctx : Context) (s : State) (op : Op) : Decidable (op.Legal ctx s) := by
  cases op <;> dsimp only [Op.Legal] <;> infer_instance

/-- Whether a list of instructions has a meaning can be computed. -/
instance decidableLegalAll (ctx : Context) : ∀ s ops, Decidable (LegalAll ctx s ops)
  | _, [] => inferInstanceAs (Decidable True)
  | s, op :: ops =>
    have := decidableLegalAll ctx (op.next ctx s) ops
    inferInstanceAs (Decidable (op.Legal ctx s ∧ LegalAll ctx (op.next ctx s) ops))

end Checks

/-- The row for an address: the last one that does not start behind it. -/
def lookup? (table : List Row) (pc : Nat) : Option Row := (table.filter (·.start ≤ pc)).getLast?

section Rows

variable {ctx : Context} {s : State} {op : Op} {ops : List Op} {pc : Nat}

/-- An instruction that starts no row stays in the current one. -/
theorem location_next (h : op.moves = false) : (op.next ctx s).location = s.location := by
  cases op
  case setLocation addr => cases h
  case advance delta => cases h
  case restoreState => rcases s with ⟨location, cfa, rules, _ | _⟩ <;> rfl
  all_goals rfl

/-- An instruction that starts a row takes over the rules. -/
theorem rules_next (ctx : Context) (s : State) (h : op.moves = true) :
    (op.next ctx s).cfa = s.cfa ∧ (op.next ctx s).rules = s.rules := by
  cases op
  case setLocation addr => exact ⟨rfl, rfl⟩
  case advance delta => exact ⟨rfl, rfl⟩
  all_goals cases h

theorem location_le_next (h : op.Legal ctx s) : s.location ≤ (op.next ctx s).location := by
  -- only two instructions change the location, and they do not go back
  rcases hmoves : op.moves
  · exact Nat.le_of_eq (location_next hmoves).symm
  · cases op
    case setLocation addr => exact h.2.1
    case advance delta => exact Nat.le_add_right _ _
    all_goals cases hmoves

theorem location_final (h : ∀ op ∈ ops, op.moves = false) :
    (final ctx s ops).location = s.location := by
  induction ops generalizing s with
  | nil => rfl
  | cons op ops ih =>
    have hrest : (final ctx (op.next ctx s) ops).location = (op.next ctx s).location :=
      ih fun o ho => h o (List.mem_cons_of_mem op ho)
    exact hrest.trans (location_next (h op List.mem_cons_self))

/-- Rows do not start before the current location. -/
theorem location_le_start (h : LegalAll ctx s ops) {row : Row} (hrow : row ∈ rows ctx s ops) :
    s.location ≤ row.start := by
  -- rows start where some instruction moved the location to, which is not before
  induction ops generalizing s with
  | nil =>
    rw [List.mem_singleton.1 hrow]
    exact Nat.le_refl _
  | cons op ops ih =>
    have hnext := location_le_next h.1
    unfold rows at hrow
    split at hrow
    · rcases List.mem_cons.1 hrow with rfl | hrow
      · exact Nat.le_refl _
      · exact Nat.le_trans hnext (ih h.2 hrow)
    · exact Nat.le_trans hnext (ih h.2 hrow)

/-- A row in front does not matter if there is one for the address behind it. -/
theorem lookup?_cons_of_some {row found : Row} {table : List Row}
    (h : lookup? table pc = some found) : lookup? (row :: table) pc = some found := by
  unfold lookup? at h ⊢
  rw [List.filter_cons]
  -- the row in front is taken into account or not, and is not the last one
  split
  · rw [List.getLast?_cons, h]
    rfl
  · exact h

/-- The row in front is the one if all others start behind the address. -/
theorem lookup?_cons_of_lt {row : Row} {table : List Row} (hrow : row.start ≤ pc)
    (h : ∀ other ∈ table, pc < other.start) : lookup? (row :: table) pc = some row := by
  have hnone : table.filter (·.start ≤ pc) = [] := by
    refine List.filter_eq_nil_iff.2 fun other ho => ?_
    have := h other ho
    simp only [decide_eq_true_eq]
    omega
  unfold lookup?
  rw [List.filter_cons_of_pos (by simpa using hrow), hnone]
  rfl

end Rows

end SourceDebugger.FrameTable
