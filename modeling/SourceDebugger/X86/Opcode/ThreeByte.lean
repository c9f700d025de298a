import SourceDebugger.X86.Opcode.TwoByte

/-!
# Opcodes behind two escape bytes

The opcodes that follow the bytes `0f 38` and `0f 3a`.
-/

namespace SourceDebugger.X86.Opcode

open OperandForm Form Rule

/-- An operation of a hash function, which has no prefix that is part of the opcode. -/
def hashStep (op : Nat) (name : String) : Nat × Rule :=
  (op, byPrefix (some (plain name [xmm, xmmRm .oword])) none none none)

/-- Integers made longer: an operand in memory has as many bytes as are read. -/
def lengthened (op : Nat) (name : String) (size : MemorySize) : Nat × Rule :=
  (op, byPrefix none (some (plain name [xmm, xmmRm size])) none none)

/-- The ways to make integers longer, from opcode `start` on. -/
def lengthenedTable (start : Nat) (name : String) : OpcodeTable :=
  [lengthened start (name ++ "bw") .qword, lengthened (start + 1) (name ++ "bd") .dword,
   lengthened (start + 2) (name ++ "bq") .word, lengthened (start + 3) (name ++ "wd") .qword,
   lengthened (start + 4) (name ++ "wq") .dword, lengthened (start + 5) (name ++ "dq") .qword]

/-- An invalidation that is described in memory. -/
def invalidation (op : Nat) (name : String) : Nat × Rule :=
  (op, byPrefix none (some (plain name [reg .qword, mem .oword])) none none)

/-- A round of a cipher, with a key in a register or with a key whose handle is in memory. -/
def cipherRound (op : Nat) (name handled : String) : Nat × Rule :=
  (op, byPrefix none (some (plain name [xmm, xmmRm .oword]))
    (some (plain handled [xmm, mem .unsized])) none)

/-- A move to memory of a register of 32 or 64 bits. -/
def stored (name : String) : Form := plain name [memSized .double, reg .double]

/-- The opcodes that follow the bytes `0f 38`. -/
def threeByte38 : OpcodeTable :=
  [packedInteger 0x00 "pshufb", packedInteger 0x01 "phaddw", packedInteger 0x02 "phaddd",
   packedInteger 0x03 "phaddsw", packedInteger 0x04 "pmaddubsw", packedInteger 0x05 "phsubw",
   packedInteger 0x06 "phsubd", packedInteger 0x07 "phsubsw", packedInteger 0x08 "psignb",
   packedInteger 0x09 "psignw", packedInteger 0x0a "psignd", packedInteger 0x0b "pmulhrsw",
   wideInteger 0x10 "pblendvb", wideInteger 0x14 "blendvps", wideInteger 0x15 "blendvpd",
   packedInteger 0x1c "pabsb", packedInteger 0x1d "pabsw", packedInteger 0x1e "pabsd",
   wideInteger 0x17 "ptest"] ++ lengthenedTable 0x20 "pmovsx" ++
  [wideInteger 0x28 "pmuldq", wideInteger 0x29 "pcmpeqq",
   (0x2a, byPrefix none (some (plain "movntdqa" [xmm, mem .oword])) none none),
   wideInteger 0x2b "packusdw"] ++ lengthenedTable 0x30 "pmovzx" ++
  [wideInteger 0x37 "pcmpgtq", wideInteger 0x38 "pminsb",
   wideInteger 0x39 "pminsd", wideInteger 0x3a "pminuw", wideInteger 0x3b "pminud",
   wideInteger 0x3c "pmaxsb", wideInteger 0x3d "pmaxsd", wideInteger 0x3e "pmaxuw",
   wideInteger 0x3f "pmaxud", wideInteger 0x40 "pmulld", wideInteger 0x41 "phminposuw",
   invalidation 0x80 "invept", invalidation 0x81 "invvpid", invalidation 0x82 "invpcid",
   hashStep 0xc8 "sha1nexte", hashStep 0xc9 "sha1msg1", hashStep 0xca "sha1msg2",
   hashStep 0xcb "sha256rnds2", hashStep 0xcc "sha256msg1", hashStep 0xcd "sha256msg2",
   wideInteger 0xcf "gf2p8mulb",
   (0xd8, prefixed invalid invalid
      (group [some (plain "aesencwide128kl" [mem .unsized]),
        some (plain "aesdecwide128kl" [mem .unsized]),
        some (plain "aesencwide256kl" [mem .unsized]),
        some (plain "aesdecwide256kl" [mem .unsized])]) invalid),
   wideInteger 0xdb "aesimc",
   (0xdc, memoryOr (cipherRound 0xdc "aesenc" "aesenc128kl").2
      (byPrefix none (some (plain "aesenc" [xmm, xmmRegister]))
        (some (plain "loadiwkey" [xmm, xmmRegister])) none)),
   cipherRound 0xdd "aesenclast" "aesdec128kl", cipherRound 0xde "aesdec" "aesenc256kl",
   cipherRound 0xdf "aesdeclast" "aesdec256kl",
   (0xf0, byPrefix (some (plain "movbe" [reg .full, memSized .full]))
      (some (plain "movbe" [reg .full, memSized .full])) none
      (some (plain "crc32" [reg .double, rm .byte]))),
   (0xf1, byPrefix (some (plain "movbe" [memSized .full, reg .full]))
      (some (plain "movbe" [memSized .full, reg .full])) none
      (some (plain "crc32" [reg .double, rm .full]))),
   (0xf5, byWide (byPrefix none (some (stored "wrussd")) none none)
      (byPrefix none (some (stored "wrussq")) none none)),
   (0xf6, fun s => byPrefix (some (stored (if s.wide then "wrssq" else "wrssd")))
      (some (plain "adcx" [reg .double, rm .double]))
      (some (plain "adox" [reg .double, rm .double])) none s),
   (0xf8, byPrefix none (some (plain "movdir64b" [reg .qword, mem .zword]))
      (some (plain "enqcmds" [reg .qword, mem .zword]))
      (some (plain "enqcmd" [reg .qword, mem .zword]))),
   (0xf9, byPrefix (some (stored "movdiri")) none none none),
   (0xfa, byPrefix none none (some (plain "encodekey128" [reg .dword, rmRegister .dword])) none),
   (0xfb, byPrefix none none (some (plain "encodekey256" [reg .dword, rmRegister .dword])) none),
   (0xfc, byPrefix (some (stored "aadd")) (some (stored "aand")) (some (stored "axor"))
      (some (stored "aor")))]

/-- An operation on vectors with a constant. -/
def constantVector (op : Nat) (name : String) (size : MemorySize) : Nat × Rule :=
  (op, byPrefix none (some (plain name [xmm, xmmRm size, imm8])) none none)

/-- A move of an element with a constant that says which. -/
def constantMove (op : Nat) (name : String) (operands : List OperandForm) : Nat × Rule :=
  (op, byPrefix none (some (plain name (operands ++ [imm8]))) none none)

/-- A comparison of texts; with lengths in registers of 64 bits the name says so. -/
def textCompared (op : Nat) (name : String) : Nat × Rule :=
  (op, byWide (constantVector op name .oword).2 (constantVector op (name ++ "64") .oword).2)

/-- The opcodes that follow the bytes `0f 3a`. -/
def threeByte3a : OpcodeTable :=
  [constantVector 0x08 "roundps" .oword, constantVector 0x09 "roundpd" .oword,
   constantVector 0x0a "roundss" .dword, constantVector 0x0b "roundsd" .qword,
   constantVector 0x0c "blendps" .oword, constantVector 0x0d "blendpd" .oword,
   constantVector 0x0e "pblendw" .oword,
   (0x0f, byPrefix (some (plain "palignr" [mmx, mmxRm .qword, imm8]))
      (some (plain "palignr" [xmm, xmmRm .oword, imm8])) none none),
   constantMove 0x14 "pextrb" [rmOr .double .byte, xmm],
   constantMove 0x15 "pextrw" [rmOr .double .word, xmm],
   (0x16, byWide (constantMove 0x16 "pextrd" [rm .double, xmm]).2
      (constantMove 0x16 "pextrq" [rm .double, xmm]).2),
   constantMove 0x17 "extractps" [rmOr .double .dword, xmm],
   constantMove 0x20 "pinsrb" [xmm, rmOr .double .byte],
   constantVector 0x21 "insertps" .dword,
   (0x22, byWide (constantMove 0x22 "pinsrd" [xmm, rm .double]).2
      (constantMove 0x22 "pinsrq" [xmm, rm .double]).2),
   constantVector 0x40 "dpps" .oword, constantVector 0x41 "dppd" .oword,
   constantVector 0x42 "mpsadbw" .oword,
   (0x44, byPrefix none (some ((plain "pclmulqdq" [xmm, xmmRm .oword, imm8]).aliased
      (halvesName "pclmul"))) none none),
   textCompared 0x60 "pcmpestrm", textCompared 0x61 "pcmpestri",
   constantVector 0x62 "pcmpistrm" .oword, constantVector 0x63 "pcmpistri" .oword,
   (0xcc, byPrefix (some (plain "sha1rnds4" [xmm, xmmRm .oword, imm8])) none none none),
   constantVector 0xce "gf2p8affineqb" .oword, constantVector 0xcf "gf2p8affineinvqb" .oword,
   constantVector 0xdf "aeskeygenassist" .oword,
   (0xf0, prefixed invalid invalid
      (exact 0xc0 (always { plain "hreset" [imm8] with modeByte := true })) invalid)]

end SourceDebugger.X86.Opcode
