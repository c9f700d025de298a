import SourceDebugger.X86.Opcode.OneByte

/-!
# Opcodes behind the escape byte

The opcodes that follow the byte `0f`, vector instructions among them, and those with a further
escape byte.
-/

namespace SourceDebugger.X86.Opcode

open OperandForm Form Rule

/-- A vector operation whose element type is given by the prefix: single or double precision, on
all elements or on the lowest one. -/
def realVector (op : Nat) (name : String) : Nat × Rule :=
  (op, byPrefix (some (plain (name ++ "ps") [xmm, xmmRm .oword]))
    (some (plain (name ++ "pd") [xmm, xmmRm .oword]))
    (some (plain (name ++ "ss") [xmm, xmmRm .dword]))
    (some (plain (name ++ "sd") [xmm, xmmRm .qword])))

/-- A vector operation on all elements, of single or double precision. -/
def packedReal (op : Nat) (single double : String) : Nat × Rule :=
  (op, byPrefix (some (plain single [xmm, xmmRm .oword])) (some (plain double [xmm, xmmRm .oword]))
    none none)

/-- A vector operation on integers, in registers of 64 or of 128 bits. -/
def packedInteger (op : Nat) (name : String) : Nat × Rule :=
  (op, byPrefix (some (plain name [mmx, mmxRm .qword])) (some (plain name [xmm, xmmRm .oword]))
    none none)

/-- A vector operation on integers that reads only half of a 64 bit operand in memory. -/
def unpackInteger (op : Nat) (name : String) : Nat × Rule :=
  (op, byPrefix (some (plain name [mmx, mmxRm .dword])) (some (plain name [xmm, xmmRm .oword]))
    none none)

/-- A vector operation on integers in registers of 128 bits only. -/
def wideInteger (op : Nat) (name : String) : Nat × Rule :=
  (op, byPrefix none (some (plain name [xmm, xmmRm .oword])) none none)

/-- The shifts of vectors by a constant. -/
def vectorShift (names : List (Option String × Option String)) : Rule := fun s => do
  let b ← s.modeByte
  if b < 0xc0 then none
  let (narrow, wide) ← names[((b >>> 3) &&& 7).toNat]?
  byPrefix (narrow.map (plain · [mmxRegister, imm8])) (wide.map (plain · [xmmRegister, imm8]))
    none none s

/-- A comparison of vectors by a constant; the older ones have the first eight names only. -/
def vectorComparison (ending : String) (size : MemorySize) : Option Form :=
  some ((plain ("cmp" ++ ending) [xmm, xmmRm size, imm8]).aliased
    (comparisonName "cmp" ending (comparisons.take 8)))

/-- Instructions whose second byte is part of the opcode: the byte, and the names by the prefix that
is part of it too. Names that come back to the next instruction are in `calls`. -/
def secondBytes : List (UInt8 × String × String × String × String) :=
  let any (byte : UInt8) (name : String) := (byte, name, name, name, name)
  [any 0xc0 "enclv", any 0xc1 "vmcall", any 0xc2 "vmlaunch", any 0xc3 "vmresume",
    any 0xc4 "vmxoff", any 0xc5 "pconfig", (0xc6, "wrmsrns", "", "wrmsrlist", "rdmsrlist"),
    (0xc7, "pbndkb", "", "", ""), any 0xc8 "monitor", any 0xc9 "mwait",
    (0xca, "clac", "", "eretu", "erets"), any 0xcb "stac", (0xcc, "", "tdcall", "", ""),
    (0xcd, "", "seamret", "", ""), (0xce, "", "seamops", "", ""),
    (0xcf, "encls", "seamcall", "", ""), any 0xd0 "xgetbv", any 0xd1 "xsetbv", any 0xd4 "vmfunc",
    any 0xd5 "xend", any 0xd6 "xtest", any 0xd7 "enclu", any 0xd8 "vmrun",
    (0xd9, "vmmcall", "", "vmgexit", "vmgexit"), any 0xda "vmload", any 0xdb "vmsave",
    any 0xdc "stgi", any 0xdd "clgi", any 0xde "skinit", any 0xdf "invlpga",
    (0xe8, "serialize", "", "setssbsy", "xsusldtrk"), (0xe9, "", "", "", "xresldtrk"),
    (0xea, "", "", "saveprevssp", ""), (0xec, "", "", "uiret", ""), (0xed, "", "", "testui", ""),
    (0xee, "rdpkru", "", "clui", ""), (0xef, "wrpkru", "", "stui", ""), any 0xf8 "swapgs",
    any 0xf9 "rdtscp", (0xfa, "monitorx", "", "mcommit", ""), (0xfb, "mwaitx", "", "", ""),
    any 0xfc "clzero", (0xfd, "rdpru", "", "rmpquery", ""),
    (0xfe, "invlpgb", "", "rmpadjust", "rmpupdate"), (0xff, "tlbsync", "", "psmash", "pvalidate")]

/-- The instructions with a second byte that come back to the next one. -/
def calls : List String :=
  ["vmcall", "vmlaunch", "vmresume", "vmrun", "vmmcall", "vmgexit", "tdcall", "seamcall", "seamret"]

/-- The rule of the instructions with a second byte. -/
def secondByteRule : Rule := fun s => do
  let (_, bare, narrow, rep, repne) ← secondBytes.find? fun (byte, _) => s.modeByte = some byte
  let form (name : String) : Option Form :=
    if name = "" then none
    else some (if calls.contains name then (Form.twoByte name).asCall else Form.twoByte name)
  byPrefix (form bare) (form narrow) (form rep) (form repne) s

/-- The operations whose opcode stands behind their operands. -/
def trailingOpcodes : List (Nat × String) :=
  [(0x0c, "pi2fw"), (0x0d, "pi2fd"), (0x1c, "pf2iw"), (0x1d, "pf2id"), (0x86, "pfrcpv"),
    (0x87, "pfrsqrtv"), (0x8a, "pfnacc"), (0x8e, "pfpnacc"), (0x90, "pfcmpge"), (0x94, "pfmin"),
    (0x96, "pfrcp"), (0x97, "pfrsqrt"), (0x9a, "pfsub"), (0x9e, "pfadd"), (0xa0, "pfcmpgt"),
    (0xa4, "pfmax"), (0xa6, "pfrcpit1"), (0xa7, "pfrsqit1"), (0xaa, "pfsubr"), (0xae, "pfacc"),
    (0xb0, "pfcmpeq"), (0xb4, "pfmul"), (0xb6, "pfrcpit2"), (0xb7, "pmulhrw"), (0xbb, "pswapd"),
    (0xbf, "pavgusb")]

/-- An instruction that does nothing, whatever its operands are. -/
def reserved : Form := plain "nop" [rm .full, reg .full]

/-- An instruction of a cipher that works on the operands of a string instruction. -/
def stringCipher (names : List String) : Rule := fun s => do
  let b ← s.modeByte
  guard (0xc0 ≤ b ∧ b &&& 7 = 0)
  let name ← names[((b >>> 3) &&& 7).toNat]?
  guard (name = "xstore" ∨ s.repetition = some 0xf3)
  return (Form.twoByte name).repeated .string

/-- The opcodes that follow the byte `0f`. -/
def twoByte : OpcodeTable :=
  [(0x00, orElse
      (group [some (plain "sldt" [rmOr .full .word]), some (plain "str" [rmOr .full .word]),
        some (plain "lldt" [rmOr .full .word]), some (plain "ltr" [rmOr .full .word]),
        some (plain "verr" [rmOr .full .word]), some (plain "verw" [rmOr .full .word])])
      (prefixed invalid invalid invalid
        (group [none, none, none, none, none, none, some (plain "lkgs" [rmOr .full .word])]))),
   (0x01, memoryOr
      (orElse
        (group [some (plain "sgdt" [mem .unsized]), some (plain "sidt" [mem .unsized]),
          some (plain "lgdt" [mem .unsized]), some (plain "lidt" [mem .unsized]),
          some (plain "smsw" [mem .word]), none, some (plain "lmsw" [mem .word]),
          some (plain "invlpg" [mem .unsized])])
        (prefixed invalid invalid
          (group [none, none, none, none, none, some (plain "rstorssp" [mem .qword])]) invalid))
      (orElse secondByteRule
        (group [none, none, none, none, some (plain "smsw" [rmRegister .full]), none,
          some (plain "lmsw" [rmRegister .word])]))),
   (0x02, always (plain "lar" [reg .full, rmOr .full .word])),
   (0x03, always (plain "lsl" [reg .full, rmOr .full .word])),
   (0x05, always (plain "syscall" []).asCall),
   (0x06, always (plain "clts" [])),
   (0x07, always (byWidth "sysret" "sysret" "sysretq" [])),
   (0x08, always (plain "invd" [])),
   (0x09, fun s => some (plain (if s.repetition = some 0xf3 then "wbnoinvd" else "wbinvd") [])),
   (0x0b, always (plain "ud2" [])),
   (0x0d, group [some (plain "prefetch" [mem .unsized]), some (plain "prefetchw" [mem .unsized]),
      some (plain "prefetchwt1" [mem .unsized]), some (plain "prefetch" [mem .unsized]),
      some (plain "prefetch" [mem .unsized]), some (plain "prefetch" [mem .unsized]),
      some (plain "prefetch" [mem .unsized]), some (plain "prefetch" [mem .unsized])]),
   (0x0e, always (plain "femms" [])),
   (0x0f, always { plain "" [mmx, mmxRm .qword, imm8] with
      constant := .opcode fun n => (trailingOpcodes.find? (·.1 = n)).map (·.2) }),
   (0x10, byPrefix (some (plain "movups" [xmm, xmmRm .oword]))
      (some (plain "movupd" [xmm, xmmRm .oword]))
      (some (plain "movss" [xmm, xmmRm .dword])) (some (plain "movsd" [xmm, xmmRm .qword]))),
   (0x11, byPrefix (some (plain "movups" [xmmRm .oword, xmm]))
      (some (plain "movupd" [xmmRm .oword, xmm]))
      (some (plain "movss" [xmmRm .dword, xmm])) (some (plain "movsd" [xmmRm .qword, xmm]))),
   (0x12, memoryOr
      (byPrefix (some (plain "movlps" [xmm, mem .qword])) (some (plain "movlpd" [xmm, mem .qword]))
        (some (plain "movsldup" [xmm, xmmRm .oword])) (some (plain "movddup" [xmm, xmmRm .qword])))
      (byPrefix (some (plain "movhlps" [xmm, xmmRegister])) none
        (some (plain "movsldup" [xmm, xmmRm .oword]))
        (some (plain "movddup" [xmm, xmmRm .qword])))),
   (0x13, byPrefix (some (plain "movlps" [mem .qword, xmm]))
      (some (plain "movlpd" [mem .qword, xmm]))
      none none),
   packedReal 0x14 "unpcklps" "unpcklpd",
   packedReal 0x15 "unpckhps" "unpckhpd",
   (0x16, memoryOr
      (byPrefix (some (plain "movhps" [xmm, mem .qword])) (some (plain "movhpd" [xmm, mem .qword]))
        (some (plain "movshdup" [xmm, xmmRm .oword])) none)
      (byPrefix (some (plain "movlhps" [xmm, xmmRegister])) none
        (some (plain "movshdup" [xmm, xmmRm .oword])) none)),
   (0x17, byPrefix (some (plain "movhps" [mem .qword, xmm]))
      (some (plain "movhpd" [mem .qword, xmm]))
      none none),
   (0x18, memoryOr
      (orElse relativePrefetch
        (group [some (plain "prefetchnta" [mem .unsized]), some (plain "prefetcht0" [mem .unsized]),
          some (plain "prefetcht1" [mem .unsized]), some (plain "prefetcht2" [mem .unsized]),
          some reserved, some reserved, some reserved, some reserved]))
      (always reserved)),
   (0x19, always reserved),
   (0x1a, always reserved),
   (0x1b, always reserved),
   (0x1c, memoryOr
      (orElse (prefixed (group [some (plain "cldemote" [mem .unsized])]) invalid invalid invalid)
        (always reserved))
      (always reserved)),
   (0x1d, always reserved),
   (0x1e, fun s =>
      if s.repetition = some 0xf3 ∧ s.modeByte = some 0xfa then some (Form.twoByte "endbr64")
      else if s.repetition = some 0xf3 ∧ s.modeByte = some 0xfb then some (Form.twoByte "endbr32")
      else if s.repetition = some 0xf3 ∧ s.modeByte.any (· &&& 0xf8 = 0xc8) then
        some (plain (if s.wide then "rdsspq" else "rdsspd") [rmRegister .double])
      else some reserved),
   (0x1f, fields (always (plain "nop" [rm .full]) :: List.replicate 7 (always reserved))),
   (0x20, always (plain "mov" [rmRegister .qword, controlReg]).asRegisters),
   (0x21, always (plain "mov" [rmRegister .qword, debugReg]).asRegisters),
   (0x22, always (plain "mov" [controlReg, rmRegister .qword]).asRegisters),
   (0x23, always (plain "mov" [debugReg, rmRegister .qword]).asRegisters),
   packedReal 0x28 "movaps" "movapd",
   (0x29, byPrefix (some (plain "movaps" [xmmRm .oword, xmm]))
      (some (plain "movapd" [xmmRm .oword, xmm]))
      none none),
   (0x2a, byPrefix (some (plain "cvtpi2ps" [xmm, mmxRm .qword]))
      (some (plain "cvtpi2pd" [xmm, mmxRm .qword]))
      (some (plain "cvtsi2ss" [xmm, rm .double])) (some (plain "cvtsi2sd" [xmm, rm .double]))),
   (0x2b, byPrefix (some (plain "movntps" [mem .oword, xmm]))
      (some (plain "movntpd" [mem .oword, xmm]))
      (some (plain "movntss" [mem .dword, xmm])) (some (plain "movntsd" [mem .qword, xmm]))),
   (0x2c, byPrefix (some (plain "cvttps2pi" [mmx, xmmRm .qword]))
      (some (plain "cvttpd2pi" [mmx, xmmRm .oword]))
      (some (plain "cvttss2si" [reg .double, xmmRm .dword]))
      (some (plain "cvttsd2si" [reg .double, xmmRm .qword]))),
   (0x2d, byPrefix (some (plain "cvtps2pi" [mmx, xmmRm .qword]))
      (some (plain "cvtpd2pi" [mmx, xmmRm .oword]))
      (some (plain "cvtss2si" [reg .double, xmmRm .dword]))
      (some (plain "cvtsd2si" [reg .double, xmmRm .qword]))),
   (0x2e, byPrefix (some (plain "ucomiss" [xmm, xmmRm .dword]))
      (some (plain "ucomisd" [xmm, xmmRm .qword]))
      none none),
   (0x2f, byPrefix (some (plain "comiss" [xmm, xmmRm .dword]))
      (some (plain "comisd" [xmm, xmmRm .qword]))
      none none),
   (0x30, always (plain "wrmsr" [])),
   (0x31, always (plain "rdtsc" [])),
   (0x32, always (plain "rdmsr" [])),
   (0x33, always (plain "rdpmc" [])),
   (0x34, always (plain "sysenter" []).asCall),
   (0x35, always (byWidth "sysexit" "sysexit" "sysexitq" [])),
   (0x37, always (plain "getsec" []))] ++
  ((conditions.zipIdx).map fun (c, n) =>
    (0x40 + n, always (plain ("cmov" ++ c) [reg .full, rm .full]))) ++
  [(0x50, byPrefix (some (plain "movmskps" [reg .double, xmmRegister]))
      (some (plain "movmskpd" [reg .double, xmmRegister])) none none),
   realVector 0x51 "sqrt",
   (0x52, byPrefix (some (plain "rsqrtps" [xmm, xmmRm .oword])) none
      (some (plain "rsqrtss" [xmm, xmmRm .dword])) none),
   (0x53, byPrefix (some (plain "rcpps" [xmm, xmmRm .oword])) none
      (some (plain "rcpss" [xmm, xmmRm .dword])) none),
   packedReal 0x54 "andps" "andpd",
   packedReal 0x55 "andnps" "andnpd",
   packedReal 0x56 "orps" "orpd",
   packedReal 0x57 "xorps" "xorpd",
   realVector 0x58 "add",
   realVector 0x59 "mul",
   (0x5a, byPrefix (some (plain "cvtps2pd" [xmm, xmmRm .qword]))
      (some (plain "cvtpd2ps" [xmm, xmmRm .oword]))
      (some (plain "cvtss2sd" [xmm, xmmRm .dword])) (some (plain "cvtsd2ss" [xmm, xmmRm .qword]))),
   (0x5b, byPrefix (some (plain "cvtdq2ps" [xmm, xmmRm .oword]))
      (some (plain "cvtps2dq" [xmm, xmmRm .oword]))
      (some (plain "cvttps2dq" [xmm, xmmRm .oword])) none),
   realVector 0x5c "sub",
   realVector 0x5d "min",
   realVector 0x5e "div",
   realVector 0x5f "max",
   unpackInteger 0x60 "punpcklbw", unpackInteger 0x61 "punpcklwd", unpackInteger 0x62 "punpckldq",
   packedInteger 0x63 "packsswb", packedInteger 0x64 "pcmpgtb", packedInteger 0x65 "pcmpgtw",
   packedInteger 0x66 "pcmpgtd", packedInteger 0x67 "packuswb", packedInteger 0x68 "punpckhbw",
   packedInteger 0x69 "punpckhwd", packedInteger 0x6a "punpckhdq", packedInteger 0x6b "packssdw",
   wideInteger 0x6c "punpcklqdq", wideInteger 0x6d "punpckhqdq",
   (0x6e, fun s =>
      let name := if s.wide then "movq" else "movd"
      byPrefix (some (plain name [mmx, rm .double]))
        (some (plain name [xmm, rm .double])) none none s),
   (0x6f, byPrefix (some (plain "movq" [mmx, mmxRm .qword]))
      (some (plain "movdqa" [xmm, xmmRm .oword]))
      (some (plain "movdqu" [xmm, xmmRm .oword])) none),
   (0x70, byPrefix (some (plain "pshufw" [mmx, mmxRm .qword, imm8]))
      (some (plain "pshufd" [xmm, xmmRm .oword, imm8]))
      (some (plain "pshufhw" [xmm, xmmRm .oword, imm8]))
      (some (plain "pshuflw" [xmm, xmmRm .oword, imm8]))),
   (0x71, vectorShift [(none, none), (none, none), (some "psrlw", some "psrlw"), (none, none),
      (some "psraw", some "psraw"), (none, none), (some "psllw", some "psllw")]),
   (0x72, vectorShift [(none, none), (none, none), (some "psrld", some "psrld"), (none, none),
      (some "psrad", some "psrad"), (none, none), (some "pslld", some "pslld")]),
   (0x73, vectorShift [(none, none), (none, none), (some "psrlq", some "psrlq"),
      (none, some "psrldq"),
      (none, none), (none, none), (some "psllq", some "psllq"), (none, some "pslldq")]),
   packedInteger 0x74 "pcmpeqb", packedInteger 0x75 "pcmpeqw", packedInteger 0x76 "pcmpeqd",
   (0x77, byPrefix (some (plain "emms" [])) none none none),
   (0x78, byPrefix (some (plain "vmread" [rm .qword, reg .qword]))
      (some (plain "extrq" [xmmRegister, imm8, imm8])) none
      (some (plain "insertq" [xmm, xmmRegister, imm8, imm8]))),
   (0x79, byPrefix (some (plain "vmwrite" [reg .qword, rm .qword]))
      (some (plain "extrq" [xmm, xmmRegister])) none (some (plain "insertq" [xmm, xmmRegister]))),
   (0x7c, byPrefix none (some (plain "haddpd" [xmm, xmmRm .oword])) none
      (some (plain "haddps" [xmm, xmmRm .oword]))),
   (0x7d, byPrefix none (some (plain "hsubpd" [xmm, xmmRm .oword])) none
      (some (plain "hsubps" [xmm, xmmRm .oword]))),
   (0x7e, fun s =>
      let name := if s.wide then "movq" else "movd"
      byPrefix (some (plain name [rm .double, mmx])) (some (plain name [rm .double, xmm]))
        (some (plain "movq" [xmm, xmmRm .qword])) none s),
   (0x7f, byPrefix (some (plain "movq" [mmxRm .qword, mmx]))
      (some (plain "movdqa" [xmmRm .oword, xmm]))
      (some (plain "movdqu" [xmmRm .oword, xmm])) none)] ++
  ((conditions.zipIdx).map fun (c, n) =>
    (0x80 + n, always ((plain ("j" ++ c) [rel32 .near]).repeated .branch))) ++
  ((conditions.zipIdx).map fun (c, n) => (0x90 + n, always (plain ("set" ++ c) [rm .byte]))) ++
  [(0xa0, always (plain "push" [named (.segment 4)])),
   (0xa1, always (plain "pop" [named (.segment 4)])),
   (0xa2, always (plain "cpuid" [])),
   (0xa3, always (plain "bt" [rm .full, reg .full])),
   (0xa4, always (plain "shld" [rm .full, reg .full, imm8])),
   (0xa5, always (plain "shld" [rm .full, reg .full, countRegister])),
   (0xa6, stringCipher ["montmul", "xsha1", "xsha256"]),
   (0xa7, stringCipher ["xstore", "xcryptecb", "xcryptcbc", "xcryptctr", "xcryptcfb", "xcryptofb"]),
   (0xa8, always (plain "push" [named (.segment 5)])),
   (0xa9, always (plain "pop" [named (.segment 5)])),
   (0xaa, always (plain "rsm" [])),
   (0xab, always (plain "bts" [rm .full, reg .full]).asLockable),
   (0xac, always (plain "shrd" [rm .full, reg .full, imm8])),
   (0xad, always (plain "shrd" [rm .full, reg .full, countRegister])),
   (0xae, memoryOr stateMemory stateRegister),
   (0xaf, always (plain "imul" [reg .full, rm .full])),
   (0xb0, always (plain "cmpxchg" [rm .byte, reg .byte]).asLockable),
   (0xb1, always (plain "cmpxchg" [rm .full, reg .full]).asLockable),
   (0xb2, always (plain "lss" [reg .full, mem .fword])),
   (0xb3, always (plain "btr" [rm .full, reg .full]).asLockable),
   (0xb4, always (plain "lfs" [reg .full, mem .fword])),
   (0xb5, always (plain "lgs" [reg .full, mem .fword])),
   (0xb6, always (plain "movzx" [reg .full, rm .byte])),
   (0xb7, always (plain "movzx" [reg .full, rm .word])),
   (0xb8, byPrefix none none (some (plain "popcnt" [reg .full, rm .full])) none),
   (0xb9, always (plain "ud1" [reg .full, rm .full])),
   (0xba, group [none, none, none, none, some (plain "bt" [rm .full, imm8]),
      some (plain "bts" [rm .full, imm8]).asLockable,
      some (plain "btr" [rm .full, imm8]).asLockable,
      some (plain "btc" [rm .full, imm8]).asLockable]),
   (0xbb, always (plain "btc" [rm .full, reg .full]).asLockable),
   (0xbc, fun s =>
      some (plain (if s.repetition = some 0xf3 then "tzcnt" else "bsf") [reg .full, rm .full])),
   (0xbd, fun s =>
      some (plain (if s.repetition = some 0xf3 then "lzcnt" else "bsr") [reg .full, rm .full])),
   (0xbe, always (plain "movsx" [reg .full, rm .byte])),
   (0xbf, always (plain "movsx" [reg .full, rm .word])),
   (0xc0, always (plain "xadd" [rm .byte, reg .byte]).asLockable),
   (0xc1, always (plain "xadd" [rm .full, reg .full]).asLockable),
   (0xc2, byPrefix (vectorComparison "ps" .oword) (vectorComparison "pd" .oword)
      (vectorComparison "ss" .dword) (vectorComparison "sd" .qword)),
   (0xc3, byPrefix (some (plain "movnti" [memSized .double, reg .double])) none none none),
   (0xc4, byPrefix (some (plain "pinsrw" [mmx, rmOr .double .word, imm8]))
      (some (plain "pinsrw" [xmm, rmOr .double .word, imm8])) none none),
   (0xc5, byPrefix (some (plain "pextrw" [reg .double, mmxRegister, imm8]))
      (some (plain "pextrw" [reg .double, xmmRegister, imm8])) none none),
   (0xc6, byPrefix (some (plain "shufps" [xmm, xmmRm .oword, imm8]))
      (some (plain "shufpd" [xmm, xmmRm .oword, imm8])) none none),
   (0xc7, memoryOr
      (fun s => group [none,
        some (plain (if s.wide then "cmpxchg16b" else "cmpxchg8b") [mem .unsized]).asLockable,
        none, some (plain (if s.wide then "xrstors64" else "xrstors") [mem .unsized]),
        some (plain (if s.wide then "xsavec64" else "xsavec") [mem .unsized]),
        some (plain (if s.wide then "xsaves64" else "xsaves") [mem .unsized]),
        (match s.repetition with
          | some 0xf3 => some (plain "vmxon" [mem .qword])
          | some _ => none
          | none => some (plain (if s.narrow then "vmclear" else "vmptrld") [mem .qword])),
        some (plain "vmptrst" [mem .qword])] s)
      (fields [invalid, invalid, invalid, invalid, invalid, invalid,
        byPrefix (some (plain "rdrand" [rmRegister .full]))
          (some (plain "rdrand" [rmRegister .full]))
          (some (plain "senduipi" [rmRegister .qword])) none,
        byPrefix (some (plain "rdseed" [rmRegister .full]))
          (some (plain "rdseed" [rmRegister .full]))
          (some (plain "rdpid" [rmRegister .qword])) none]))] ++
  ((List.range 8).map fun n => (0xc8 + n, always (plain "bswap" [opcodeRegister .full]))) ++
  [(0xd0, byPrefix none (some (plain "addsubpd" [xmm, xmmRm .oword])) none
      (some (plain "addsubps" [xmm, xmmRm .oword]))),
   packedInteger 0xd1 "psrlw", packedInteger 0xd2 "psrld", packedInteger 0xd3 "psrlq",
   packedInteger 0xd4 "paddq", packedInteger 0xd5 "pmullw",
   (0xd6, byPrefix none (some (plain "movq" [xmmRm .qword, xmm]))
      (some (plain "movq2dq" [xmm, mmxRegister])) (some (plain "movdq2q" [mmx, xmmRegister]))),
   (0xd7, byPrefix (some (plain "pmovmskb" [reg .double, mmxRegister]))
      (some (plain "pmovmskb" [reg .double, xmmRegister])) none none),
   packedInteger 0xd8 "psubusb", packedInteger 0xd9 "psubusw", packedInteger 0xda "pminub",
   packedInteger 0xdb "pand", packedInteger 0xdc "paddusb", packedInteger 0xdd "paddusw",
   packedInteger 0xde "pmaxub", packedInteger 0xdf "pandn", packedInteger 0xe0 "pavgb",
   packedInteger 0xe1 "psraw", packedInteger 0xe2 "psrad", packedInteger 0xe3 "pavgw",
   packedInteger 0xe4 "pmulhuw", packedInteger 0xe5 "pmulhw",
   (0xe6, byPrefix none (some (plain "cvttpd2dq" [xmm, xmmRm .oword]))
      (some (plain "cvtdq2pd" [xmm, xmmRm .qword])) (some (plain "cvtpd2dq" [xmm, xmmRm .oword]))),
   (0xe7, byPrefix (some (plain "movntq" [mem .qword, mmx]))
      (some (plain "movntdq" [mem .oword, xmm]))
      none none),
   packedInteger 0xe8 "psubsb", packedInteger 0xe9 "psubsw", packedInteger 0xea "pminsw",
   packedInteger 0xeb "por", packedInteger 0xec "paddsb", packedInteger 0xed "paddsw",
   packedInteger 0xee "pmaxsw", packedInteger 0xef "pxor",
   (0xf0, byPrefix none none none (some (plain "lddqu" [xmm, mem .oword]))),
   packedInteger 0xf1 "psllw", packedInteger 0xf2 "pslld", packedInteger 0xf3 "psllq",
   packedInteger 0xf4 "pmuludq", packedInteger 0xf5 "pmaddwd", packedInteger 0xf6 "psadbw",
   (0xf7, byPrefix (some (plain "maskmovq" [mmx, mmxRegister]))
      (some (plain "maskmovdqu" [xmm, xmmRegister])) none none),
   packedInteger 0xf8 "psubb", packedInteger 0xf9 "psubw", packedInteger 0xfa "psubd",
   packedInteger 0xfb "psubq", packedInteger 0xfc "paddb", packedInteger 0xfd "paddw",
   packedInteger 0xfe "paddd",
   (0xff, always (plain "ud0" [reg .full, rm .full]))]
where
  /-- Code that is fetched ahead, whose address is relative to the next instruction. -/
  relativePrefetch : Rule := fun s => do
    let b ← s.modeByte
    guard (b &&& 0xc7 = 5)
    group [none, none, none, none, none, none, some (plain "prefetchit1" [mem .unsized]),
      some (plain "prefetchit0" [mem .unsized])] s
  /-- The state of the processor in memory, and the lines of the caches. -/
  stateMemory : Rule := fun s =>
    let wide (name : String) := some (plain (if s.wide then name ++ "64" else name) [mem .unsized])
    orElse
      (group [wide "fxsave", wide "fxrstor", some (plain "ldmxcsr" [mem .dword]),
        some (plain "stmxcsr" [mem .dword])])
      (prefixed
        (group [none, none, none, none, wide "xsave", wide "xrstor", wide "xsaveopt",
          some (plain "clflush" [mem .unsized])])
        (group [none, none, none, none, none, none, some (plain "clwb" [mem .unsized]),
          some (plain "clflushopt" [mem .unsized])])
        (group [none, none, none, none, some (plain "ptwrite" [rm .double]), none,
          some (plain "clrssbsy" [mem .qword])])
        invalid) s
  /-- The barriers, the access to the segment bases, and the waits. -/
  stateRegister : Rule :=
    prefixed
      (group [none, none, none, none, none, some (Form.twoByte "lfence"),
        some (Form.twoByte "mfence"), some (Form.twoByte "sfence")])
      (group [none, none, none, none, none, none, some (plain "tpause" [rmRegister .double])])
      (fun s => group [some (plain "rdfsbase" [rmRegister .double]),
        some (plain "rdgsbase" [rmRegister .double]), some (plain "wrfsbase" [rmRegister .double]),
        some (plain "wrgsbase" [rmRegister .double]), some (plain "ptwrite" [rmRegister .double]),
        some (plain (if s.wide then "incsspq" else "incsspd") [rmRegister .double]),
        some (plain "umonitor" [rmRegister .qword])] s)
      (group [none, none, none, none, none, none, some (plain "umwait" [rmRegister .double])])

end SourceDebugger.X86.Opcode
