import SourceDebugger.X86.Opcode.VectorForm

/-!
# Further opcodes behind the vector prefixes

The second and the third table behind the vector prefixes, which continue the opcodes behind
`0f 38` and `0f 3a`.
-/

namespace SourceDebugger.X86.Opcode

open OperandForm Form Rule
open RealKind (single)

/-! ### The second table -/

/-- An operation on vectors that only has the usual prefix and a width of 32 bits. -/
def usualDouble (op : Nat) (name : String) (operands : List OperandForm) : Nat × Rule :=
  (op, narrowed (usual (double (plain name operands))))

/-- The integers that are made longer or shorter: the letters of both sizes, and how often the
longer one is halved. -/
def lengthChanges : List (String × Nat) :=
  [("bw", 1), ("bd", 2), ("bq", 3), ("wd", 1), ("wq", 2), ("dq", 1)]

/-- The same in the other direction. -/
def lengthCuts : List (String × Nat) :=
  [("wb", 1), ("db", 2), ("qb", 3), ("dw", 1), ("qw", 2), ("qd", 1)]

/-- Integers made longer. Only the last one of them has to say its width. -/
def lengthening (name : String) (n : Nat) : Rule :=
  match lengthChanges[n]? with
  | none => invalid
  | some (letters, halvings) =>
    let f := (plain (name ++ letters) [target, vectorRm (.part halvings) (.part halvings)]).masked
    if letters = "dq" then sized false f else always f

/-- Integers made shorter. -/
def shortening (name : String) (n : Nat) : Rule :=
  match lengthCuts[n]? with
  | none => invalid
  | some (letters, halvings) =>
    extensive (double
      (plain (name ++ letters) [vectorRm (.part halvings) (.part halvings), target]).masked)

/-- An element that is written to all places of a vector. -/
def repeatedElement (name : String) (size : MemorySize) : Form :=
  (plain name [target, lowest size]).masked

/-- A part of a vector in memory that is written to all places. -/
def repeatedPart (name : String) (bytes : Nat) : Form :=
  (plain name [target, vectorMemory (.bytes bytes)]).masked

/-- A test of two vectors whose result is a mask. -/
def tested (name : String) (element : Option MemorySize) : Form :=
  match element with
  | none => compared name
  | some e => (compared name).broadcasting e

/-- The tests of bytes, words, doublewords and quadwords. -/
def testRules (double quad : String) (elements : Option (MemorySize × MemorySize)) : Rule :=
  let form (stem : String) : Rule :=
    extensiveForms (tested (stem ++ double) (elements.map (·.1)))
      (tested (stem ++ quad) (elements.map (·.2)))
  prefixed invalid (form "vptestm") (form "vptestnm") invalid

/-- A mask made of the signs of the elements, and elements made of the bits of a mask. -/
def maskOfSigns (double quad : String) : Rule :=
  extensiveForms (plain double [mask, vectorRegister .full])
    (plain quad [mask, vectorRegister .full])

@[inherit_doc maskOfSigns]
def signsOfMask (double quad : String) : Rule :=
  extensiveForms (plain double [target, maskRegister]) (plain quad [target, maskRegister])

/-- The places of elements with a mask are closed up or spread. -/
def compress (stem double quad : String) (units : Nat × Nat) : Rule :=
  extensiveForms ((plain (stem ++ double) [right, target]).masked.inUnits units.1)
    ((plain (stem ++ quad) [right, target]).masked.inUnits units.2)

@[inherit_doc compress]
def expand (stem double quad : String) (units : Nat × Nat) : Rule :=
  extensiveForms ((plain (stem ++ double) [target, right]).masked.inUnits units.1)
    ((plain (stem ++ quad) [target, right]).masked.inUnits units.2)

/-- Elements read at addresses of their own. The usual prefix names a register as the mask. -/
def gather (name : String) (element : MemorySize) (result index : Span) : Rule :=
  byEncoding
    (always
      ((plain name [vector result, gathered element index, vectorThird result]).distinctly .all))
    (always ((plain name [vector result, gathered element index]).selecting.distinctly .first))

/-- Elements written to addresses of their own. -/
def scatter (name : String) (element : MemorySize) (result index : Span) : Rule :=
  extensive (always (plain name [gathered element index, vector result]).selecting)

/-- The four kinds of access with indices, by the size of an index and by the width. -/
def indexedRules (op : Nat) (rule : String → MemorySize → Span → Span → Rule)
    (integers reals : String) : OpcodeTable :=
  [(op, narrowed (byWide (rule (integers ++ "dd") .dword .full .full)
      (rule (integers ++ "dq") .qword .full .half))),
   (op + 1, narrowed (byWide (rule (integers ++ "qd") .dword .half .full)
      (rule (integers ++ "qq") .qword .full .full))),
   (op + 2, narrowed (byWide (rule (reals ++ "dps") .dword .full .full)
      (rule (reals ++ "dpd") .qword .full .half))),
   (op + 3, narrowed (byWide (rule (reals ++ "qps") .dword .half .full)
      (rule (reals ++ "qpd") .qword .full .full)))]

/-- The elements whose addresses are in a vector are fetched ahead or given up. -/
def prefetch (letter : String) (quadIndex : Span) : Rule :=
  let form (stem ending : String) (e : MemorySize) (index : Span) : Form :=
    (plain (stem ++ letter ++ ending) [gathered e index]).selecting
  let rule (stem : String) : Rule :=
    longest (extensiveForms (form stem "ps" .dword .full) (form stem "pd" .qword quadIndex))
  narrowed (fields [invalid, rule "vgatherpf0", rule "vgatherpf1", invalid, invalid,
    rule "vscatterpf0", rule "vscatterpf1", invalid])

/-- A product with a sum in one rounding, by the last digit of its opcode. Which operand is which
is part of the name. -/
def fusedRule (order : String) (n : Nat) (kind : (RealKind → Form) → Rule) : Rule :=
  let whole (stem : String) : Rule := kind fun k => (k.ternary (stem ++ order)).rounding
  let lowest (stem : String) : Rule := kind fun k => (k.scalar (stem ++ order)).rounding
  ([whole "vfmaddsub", whole "vfmsubadd", whole "vfmadd", lowest "vfmadd", whole "vfmsub",
    lowest "vfmsub", whole "vfnmadd", lowest "vfnmadd", whole "vfnmsub",
    lowest "vfnmsub"][n]?).getD invalid

/-- The products with sums behind the extensive prefix that take four registers at once. -/
def fourfold (name : String) (low : Bool) : Rule :=
  let operand := vectorMemory (.bytes 16)
  extensive (double
    (plain name (if low then [vector short, vectorThird short, operand]
      else [target, left, operand])).masked)

/-- The products with sums: the opcodes from `start + 6` on. -/
def fused (start : Nat) (order : String) : OpcodeTable :=
  (List.range 10).map fun n => (start + 6 + n, prefixed invalid (fusedRule order n realsByWidth)
    invalid (fourfoldRule (start + 6 + n)))
where
  /-- The opcodes that have another meaning with the other prefix. -/
  fourfoldRule (op : Nat) : Rule :=
    match op with
    | 0x9a => longest (fourfold "v4fmaddps" false)
    | 0x9b => fourfold "v4fmaddss" true
    | 0xaa => longest (fourfold "v4fnmaddps" false)
    | 0xab => fourfold "v4fnmaddss" true
    | _ => invalid

/-- The sums of products of small integers, by prefix. The third form also has the extensive
prefix. -/
def dotRule (bare narrow rep repne : String) (other : Rule × Rule) : Rule :=
  let form (name : String) : Rule := if name = "" then invalid else usual (double (ternary name))
  prefixed (form bare) (double ((ternary narrow).broadcasting .dword))
    (byEncoding (form rep) other.1) (byEncoding (form repne) other.2)

/-- The sums of products of words, which only have the usual prefix. -/
def wordDotRule (ending : String) : Rule :=
  let form (name : String) : Rule := usual (double (plain (name ++ ending) [target, left, right]))
  prefixed (form "vpdpwuud") (form "vpdpwusd") (form "vpdpwsud") invalid

/-- A product of tiles. -/
def tileProduct (name : String) : Rule :=
  shortest (usual (double ((plain name [tile, tileRegister, tileThird]).distinctly .all)))

/-- An operation on one general register, which the vector prefix names. -/
def lowBits (name : String) : Option Form := some (plain name [generalThird .double, rm .double])

/-- An operation on two general registers with the usual prefix. -/
def general (name : String) (operands : List OperandForm) : Rule :=
  shortest (usual (always (plain name operands)))

/-- A shift of a general register by another one. -/
def generalShift (name : String) : Rule :=
  general name [reg .double, rm .double, generalThird .double]

/-- An operation on general registers where the vector prefix names the first one that is read. -/
def generalTernary (name : String) : Rule :=
  general name [reg .double, generalThird .double, rm .double]

/-- The opcodes behind a vector prefix that stands for `0f 38`. -/
def vectorTable38 : OpcodeTable :=
  [small 0x00 "vpshufb", plainOnly 0x01 "vphaddw", plainOnly 0x02 "vphaddd",
   plainOnly 0x03 "vphaddsw", small 0x04 "vpmaddubsw", plainOnly 0x05 "vphsubw",
   plainOnly 0x06 "vphsubd", plainOnly 0x07 "vphsubsw", plainOnly 0x08 "vpsignb",
   plainOnly 0x09 "vpsignw", plainOnly 0x0a "vpsignd", small 0x0b "vpmulhrsw",
   (0x0c, narrowed (double ((ternary "vpermilps").broadcasting .dword))),
   (0x0d, narrowed (byEncoding (double (ternary "vpermilpd"))
      (quad ((ternary "vpermilpd").broadcasting .qword)))),
   usualDouble 0x0e "vtestps" [target, right], usualDouble 0x0f "vtestpd" [target, right],
   (0x10, prefixed invalid (extensive (quad (ternary "vpsrlvw"))) (shortening "vpmovus" 0) invalid),
   (0x11, prefixed invalid (extensive (quad (ternary "vpsravw"))) (shortening "vpmovus" 1) invalid),
   (0x12, prefixed invalid (extensive (quad (ternary "vpsllvw"))) (shortening "vpmovus" 2) invalid),
   (0x13, prefixed invalid
      (double (plain "vcvtph2ps" [target, vectorRm .half .half]).masked.quiet)
      (shortening "vpmovus" 3) invalid),
   (0x14, prefixed invalid (newerRule "vprorv") (shortening "vpmovus" 4) invalid),
   (0x15, prefixed invalid (newerRule "vprolv") (shortening "vpmovus" 5) invalid),
   (0x16, longer (narrowed (byEncoding (double (ternary "vpermps"))
      (realsForms (·.ternary "vperm"))))),
   (0x17, narrowed (usual (always (plain "vptest" [target, right])))),
   (0x18, narrowed (double (repeatedElement "vbroadcastss" .dword))),
   (0x19, longer (narrowed (doubleOr (repeatedElement "vbroadcastsd" .qword)
      (repeatedElement "vbroadcastf32x2" .qword) (repeatedElement "vbroadcastsd" .qword)))),
   (0x1a, longer (narrowed (doubleOr (repeatedPart "vbroadcastf128" 16)
      (repeatedPart "vbroadcastf32x4" 16) (repeatedPart "vbroadcastf64x2" 16)))),
   (0x1b, longest (narrowed (extensiveForms (repeatedPart "vbroadcastf32x8" 32)
      (repeatedPart "vbroadcastf64x4" 32)))),
   (0x1c, narrowed (always (binary "vpabsb"))), (0x1d, narrowed (always (binary "vpabsw"))),
   (0x1e, narrowed (sized false ((binary "vpabsd").broadcasting .dword))),
   (0x1f, narrowed (extensive (quad ((binary "vpabsq").broadcasting .qword))))] ++
  ((List.range 6).map fun n => (0x20 + n,
    prefixed invalid (lengthening "vpmovsx" n) (shortening "vpmovs" n) invalid)) ++
  [(0x26, testRules "b" "w" none), (0x27, testRules "d" "q" (some (.dword, .qword))),
   (0x28, prefixed invalid (quadRule "vpmuldq") (signsOfMask "vpmovm2b" "vpmovm2w") invalid),
   (0x29, prefixed invalid (quadComparison "vpcmpeqq") (maskOfSigns "vpmovb2m" "vpmovw2m") invalid),
   (0x2a, prefixed invalid (sized false (plain "vmovntdqa" [target, vectorMemory .full]))
      (extensive (quad (plain "vpbroadcastmb2q" [target, maskRegister]))) invalid),
   doubles 0x2b "vpackusdw",
   (0x2c, narrowed (byEncoding (maskedMove "vmaskmovps" false)
      (realsForms fun k => (k.ternary "vscalef").rounding))),
   (0x2d, narrowed (byEncoding (maskedMove "vmaskmovpd" false)
      (realsForms fun k => (k.scalar "vscalef").rounding))),
   (0x2e, narrowed (usual (maskedMove "vmaskmovps" true))),
   (0x2f, narrowed (usual (maskedMove "vmaskmovpd" true)))] ++
  ((List.range 6).map fun n => (0x30 + n,
    prefixed invalid (lengthening "vpmovzx" n) (shortening "vpmov" n) invalid)) ++
  [(0x36, longer (narrowed (byEncoding (double (ternary "vpermd")) (newerRule "vperm")))),
   (0x37, narrowed (quadComparison "vpcmpgtq")),
   (0x38, prefixed invalid (always (ternary "vpminsb")) (signsOfMask "vpmovm2d" "vpmovm2q")
      invalid),
   (0x39, prefixed invalid (splitRule "vpminsd" "vpminsd" "vpminsq")
      (maskOfSigns "vpmovd2m" "vpmovq2m") invalid),
   (0x3a, prefixed invalid (always (ternary "vpminuw"))
      (extensive (double (plain "vpbroadcastmw2d" [target, maskRegister]))) invalid),
   split 0x3b "vpminud" "vpminud" "vpminuq", small 0x3c "vpmaxsb",
   split 0x3d "vpmaxsd" "vpmaxsd" "vpmaxsq", small 0x3e "vpmaxuw",
   split 0x3f "vpmaxud" "vpmaxud" "vpmaxuq", split 0x40 "vpmulld" "vpmulld" "vpmullq",
   (0x41, shortest (narrowed (usual (always (plain "vphminposuw" [target, right]))))),
   (0x42, newerReals fun k => (k.binary "vgetexp").quiet),
   (0x43, newerReals fun k => (k.scalar "vgetexp").quiet),
   newerBinary 0x44 "vplzcnt", either 0x45 "vpsrlv",
   (0x46, narrowed (byEncoding (double (ternary "vpsravd")) (newerRule "vpsrav"))),
   either 0x47 "vpsllv",
   (0x49, shortest (usual (prefixed
      (memoryOr (double (plain "ldtilecfg" [mem .unsized])) tileRelease)
      (double (plain "sttilecfg" [mem .unsized])) invalid
      (memoryOr invalid (low [some (plain "tilezero" [tile])]))))),
   (0x4b, shortest (usual (prefixed invalid (double (plain "tileloaddt1" [tile, tileMemory]))
      (double (plain "tilestored" [tileMemory, tile]))
      (double (plain "tileloadd" [tile, tileMemory]))))),
   (0x4c, newerReals (·.binary "vrcp14")), (0x4d, newerReals (·.scalar "vrcp14")),
   (0x4e, newerReals (·.binary "vrsqrt14")), (0x4f, newerReals (·.scalar "vrsqrt14")),
   (0x50, dotRule "vpdpbuud" "vpdpbusd" "vpdpbsud" "vpdpbssd" (invalid, invalid)),
   (0x51, dotRule "vpdpbuuds" "vpdpbusds" "vpdpbsuds" "vpdpbssds" (invalid, invalid)),
   (0x52, dotRule "" "vpdpwssd" "" ""
      (double ((ternary "vdpbf16ps").broadcasting .dword), longest (fourfold "vp4dpwssd" false))),
   (0x53, dotRule "" "vpdpwssds" "" "" (invalid, longest (fourfold "vp4dpwssds" false))),
   newerBinarySmall 0x54 "vpopcnt", newerBinary 0x55 "vpopcnt",
   (0x58, narrowed (double (repeatedElement "vpbroadcastd" .dword))),
   (0x59, narrowed (doubleOr (repeatedElement "vpbroadcastq" .qword)
      (repeatedElement "vbroadcasti32x2" .qword) (repeatedElement "vpbroadcastq" .qword))),
   (0x5a, longer (narrowed (doubleOr (repeatedPart "vbroadcasti128" 16)
      (repeatedPart "vbroadcasti32x4" 16) (repeatedPart "vbroadcasti64x2" 16)))),
   (0x5b, longest (narrowed (extensiveForms (repeatedPart "vbroadcasti32x8" 32)
      (repeatedPart "vbroadcasti64x4" 32)))),
   (0x5c, prefixed invalid invalid (tileProduct "tdpbf16ps") (tileProduct "tdpfp16ps")),
   (0x5e, prefixed (tileProduct "tdpbuud") (tileProduct "tdpbusd") (tileProduct "tdpbsud")
      (tileProduct "tdpbssd")),
   (0x62, narrowed (expand "vpexpand" "b" "w" (1, 2))),
   (0x63, narrowed (compress "vpcompress" "b" "w" (1, 2))),
   newer 0x64 "vpblendm", (0x65, newerReals (·.ternary "vblendm")), newerSmall 0x66 "vpblendm",
   (0x68, prefixed invalid invalid invalid (extensiveForms
      ((plain "vp2intersectd" [mask, left, right]).broadcasting .dword)
      ((plain "vp2intersectq" [mask, left, right]).broadcasting .qword))),
   (0x6c, prefixed (tileProduct "tcmmrlfp16ps") (tileProduct "tcmmimfp16ps") invalid invalid),
   (0x70, narrowed (extensive (quad (ternary "vpshldvw")))), newer 0x71 "vpshldv",
   (0x72, prefixed invalid (extensive (quad (ternary "vpshrdvw")))
      (double (conversion "vcvtneps2bf16" .half .full .dword))
      (extensive (double ((ternary "vcvtne2ps2bf16").broadcasting .dword)))),
   newer 0x73 "vpshrdv", newerSmall 0x75 "vpermi2", newer 0x76 "vpermi2",
   (0x77, newerReals (·.ternary "vpermi2")),
   (0x78, narrowed (double (repeatedElement "vpbroadcastb" .byte))),
   (0x79, narrowed (double (repeatedElement "vpbroadcastw" .word))),
   (0x7a, narrowed (extensive (double (plain "vpbroadcastb" [target, rmRegister .dword]).masked))),
   (0x7b, narrowed (extensive (double (plain "vpbroadcastw" [target, rmRegister .dword]).masked))),
   (0x7c, narrowed (extensiveForms (plain "vpbroadcastd" [target, rmRegister .dword]).masked
      (plain "vpbroadcastq" [target, rmRegister .qword]).masked)),
   newerSmall 0x7d "vpermt2", newer 0x7e "vpermt2", (0x7f, newerReals (·.ternary "vpermt2")),
   (0x83, narrowed (extensive (quad ((ternary "vpmultishiftqb").broadcasting .qword)))),
   (0x88, narrowed (expand "vexpand" "ps" "pd" (4, 8))),
   (0x89, narrowed (expand "vpexpand" "d" "q" (4, 8))),
   (0x8a, narrowed (compress "vcompress" "ps" "pd" (4, 8))),
   (0x8b, narrowed (compress "vpcompress" "d" "q" (4, 8))),
   (0x8c, narrowed (usual (byWide (maskedMoveForm "vpmaskmovd" false)
      (maskedMoveForm "vpmaskmovq" false)))),
   newerSmall 0x8d "vperm",
   (0x8e, narrowed (usual (byWide (maskedMoveForm "vpmaskmovd" true)
      (maskedMoveForm "vpmaskmovq" true)))),
   (0x8f, narrowed (extensive (double (compared "vpshufbitqmb"))))] ++
  indexedRules 0x90 gather "vpgather" "vgather" ++ fused 0x90 "132" ++
  indexedRules 0xa0 scatter "vpscatter" "vscatter" ++ fused 0xa0 "213" ++
  [(0xb0, prefixed (loaded "vcvtneoph2ps") (loaded "vcvtneeph2ps") (loaded "vcvtneebf162ps")
      (loaded "vcvtneobf162ps")),
   (0xb1, prefixed invalid (usual (double (plain "vbcstnesh2ps" [target, mem .word])))
      (usual (double (plain "vbcstnebf162ps" [target, mem .word]))) invalid),
   (0xb4, narrowed (quad ((ternary "vpmadd52luq").broadcasting .qword))),
   (0xb5, narrowed (quad ((ternary "vpmadd52huq").broadcasting .qword)))] ++
  fused 0xb0 "231" ++
  [newerBinary 0xc4 "vpconflict", (0xc6, prefetch "d" .half), (0xc7, prefetch "q" .full),
   (0xc8, longest (newerReals fun k => (k.binary "vexp2").quiet)),
   (0xca, longest (newerReals fun k => (k.binary "vrcp28").quiet)),
   (0xcb, prefixed invalid (newerReals fun k => (k.scalar "vrcp28").quiet) invalid
      (hash "vsha512rnds2" [target, left, vectorRegister short])),
   (0xcc, prefixed invalid (longest (newerReals fun k => (k.binary "vrsqrt28").quiet)) invalid
      (hash "vsha512msg1" [target, vectorRegister short])),
   (0xcd, prefixed invalid (newerReals fun k => (k.scalar "vrsqrt28").quiet) invalid
      (hash "vsha512msg2" [target, vectorRegister .full])),
   (0xcf, narrowed (double (ternary "vgf2p8mulb"))),
   (0xd2, wordDotRule ""), (0xd3, wordDotRule "s"),
   (0xda, prefixed (shortest (cipher "vsm3msg1")) (shortest (cipher "vsm3msg2"))
      (cipher "vsm4key4") (cipher "vsm4rnds4")),
   (0xdb, shortest (narrowed (usual (always (plain "vaesimc" [target, right]))))),
   (0xdc, round "vaesenc"), (0xdd, round "vaesenclast"), (0xde, round "vaesdec"),
   (0xdf, round "vaesdeclast")] ++
  ((conditions.zipIdx).map fun (c, n) => (0xe0 + n, narrowed (general ("cmp" ++ c ++ "xadd")
    [memSized .double, reg .double, generalThird .double]))) ++
  [(0xf2, prefixed (generalTernary "andn") invalid invalid invalid),
   (0xf3, prefixed (shortest (usual (group [none, lowBits "blsr", lowBits "blsmsk",
      lowBits "blsi"]))) invalid invalid invalid),
   (0xf5, prefixed (generalShift "bzhi") invalid (generalTernary "pext") (generalTernary "pdep")),
   (0xf6, prefixed invalid invalid invalid (generalTernary "mulx")),
   (0xf7, prefixed (generalShift "bextr") (generalShift "shlx") (generalShift "sarx")
      (generalShift "shrx"))]
where
  /-- A comparison of quadwords, whose result is a vector or a mask. -/
  quadComparison (name : String) : Rule :=
    byEncoding (always (ternary name)) (quad ((compared name).broadcasting .qword))
  /-- The forms of real numbers by the width. -/
  realsForms (form : RealKind → Form) : Rule :=
    byWide (always (form single)) (always (form RealKind.double))
  /-- An operation on bytes or words with one vector that is read. -/
  newerBinarySmall (op : Nat) (name : String) : Nat × Rule :=
    (op, narrowed (extensiveForms (binary (name ++ "b")) (binary (name ++ "w"))))
  /-- A move of the elements whose sign in the second operand is set. -/
  maskedMoveForm (name : String) (storing : Bool) : Rule :=
    always (plain name (if storing then [vectorMemory .full, left, target]
      else [target, left, vectorMemory .full]))
  /-- The same in a width of 32 bits. -/
  maskedMove (name : String) (storing : Bool) : Rule :=
    byWide (maskedMoveForm name storing) invalid
  /-- The configuration of the tiles is given up. -/
  tileRelease : Rule := fun s =>
    if s.modeByte = some 0xc0 ∧ ¬ s.wide then some (Form.twoByte "tilerelease") else none
  /-- Half of the elements in memory are converted. -/
  loaded (name : String) : Rule := usual (double (plain name [target, vectorMemory .full]))
  /-- A step of a hash function. -/
  hash (name : String) (operands : List OperandForm) : Rule :=
    byLength [invalid, usual (double (plain name operands))]
  /-- A step of a cipher in a width of 32 bits. -/
  cipher (name : String) : Rule := usual (double (plain name [target, left, right]))
  /-- A round of a cipher, which has no mask. -/
  round (name : String) : Rule := narrowed (always (plain name [target, left, right]))

/-! ### The third table -/

/-- An operation with a constant that only has the usual prefix. -/
def usualConstant (op : Nat) (name : String) (operands : List OperandForm) : Nat × Rule :=
  (op, narrowed (usual (always (plain name (operands ++ [imm8])))))

/-- A short vector put into a longer one, or taken out of it. -/
def inserted (name : String) (part : Span) : Form :=
  (plain name [target, left, vectorRm part part, imm8]).masked

@[inherit_doc inserted]
def extracted (name : String) (part : Span) : Form :=
  (plain name [vectorRm part part, target, imm8]).masked

/-- A part of 128 bits: the form of the usual prefix, and those of the other one. -/
def partRule (form : String → Span → Form) (usualName double quad : String) : Rule :=
  longer (narrowed (doubleOr (form usualName short) (form double short) (form quad short)))

/-- A part of 256 bits. -/
def longPartRule (form : String → Span → Form) (double quad : String) : Rule :=
  longest (narrowed (extensiveForms (form double (.bytes 32)) (form quad (.bytes 32))))

/-- A comparison of integers by a constant, whose result is a mask. -/
def integerConstantComparison (double quad : String) (elements : Option (MemorySize × MemorySize)) :
    Rule :=
  let form (ending : String) (e : Option MemorySize) : Form :=
    let f := ((plain ("vpcmp" ++ ending) [mask, left, right, imm8]).aliased
      (comparisonName "vpcmp" ending integerComparisons)).kept
    match e with
    | none => f
    | some e => f.broadcasting e
  narrowed (extensiveForms (form double (elements.map (·.1))) (form quad (elements.map (·.2))))

/-- An operation on real numbers of all precisions with a constant, where half precision is told
apart by the prefix. -/
def realsOrHalf (form : RealKind → Form) (narrow : Rule) : Rule :=
  prefixed (extensive (double (form RealKind.half))) narrow invalid invalid

/-- An operation on real numbers with a constant that only has the extensive prefix. -/
def newerConstant (name : String) (low : Bool) (k : RealKind) : Form :=
  (if low then k.scalarConstant name else
    (plain (name ++ "p" ++ k.letter) [target, left, right, imm8]).masked.broadcasting k.size).quiet

/-- The class of real numbers by a constant, whose result is a mask. -/
def classForm (low : Bool) (k : RealKind) : Form :=
  if low then (plain ("vfpclasss" ++ k.letter) [mask, lowest k.size, imm8]).kept
  else ((plain ("vfpclassp" ++ k.letter) [mask, right, imm8]).kept).broadcasting k.size

/-- An operation with four registers, of which the last two change places with the width. -/
def fourOperands (name : String) (span : Span) (memory : Span) : Rule :=
  narrowed (usual (byWide
    (always (plain name [vector span, vectorThird span, vectorRm span memory, vectorFourth span]))
    (always (plain name [vector span, vectorThird span, vectorFourth span, vectorRm span memory]))))

/-- The products with sums that have four operands, by the last digits of their opcode: whole
vectors and lowest elements of both precisions. -/
def fourOperandTable (start : Nat) (name : String) : OpcodeTable :=
  [(start, fourOperands (name ++ "ps") .full .full),
   (start + 1, fourOperands (name ++ "pd") .full .full),
   (start + 2, fourOperands (name ++ "ss") short (.bytes 4)),
   (start + 3, fourOperands (name ++ "sd") short (.bytes 8))]

/-- A choice between elements by the signs of a fourth register. -/
def blend (op : Nat) (name : String) : Nat × Rule :=
  (op, narrowed (usual (double (plain name [target, left, right, vectorFourth .full]))))

/-- A permutation of two vectors by a third one and half of a byte. -/
def permutation (op : Nat) (name : String) : Nat × Rule :=
  (op, narrowed (usual (byWide
    (always (plain name [target, left, right, vectorShared .full, imm4]))
    (always (plain name [target, left, vectorShared .full, right, imm4])))))

/-- A comparison of texts, whose width can be part of its name. -/
def textComparison (op : Nat) (name : String) (named : Bool) : Nat × Rule :=
  (op, shortest (narrowed (usual (byWide (always (plain name [target, right, imm8]))
    (always (plain (if named then name ++ "64" else name) [target, right, imm8]))))))

/-- The rule of an operation on doublewords or quadwords with a constant that only has the extensive
prefix. -/
def newerIntegersRule (double quad : String) : Rule :=
  narrowed (extensiveForms ((ternaryConstant double).broadcasting .dword)
    ((ternaryConstant quad).broadcasting .qword))

/-- An operation on doublewords or quadwords with a constant. -/
def newerIntegers (op : Nat) (double quad : String) : Nat × Rule :=
  (op, newerIntegersRule double quad)

/-- A shift of a mask by a constant. -/
def maskShift (op : Nat) (double quad : String) : Nat × Rule :=
  (op, shortest (narrowed (usual (byWide (always (plain double [mask, maskRegister, imm8]))
    (always (plain quad [mask, maskRegister, imm8]))))))

/-- An element put into a vector from a general register or memory. -/
def insertedElement (op : Nat) (rule : Rule) : Nat × Rule := (op, shortest (narrowed rule))

/-- The opcodes behind a vector prefix that stands for `0f 3a`. -/
def vectorTable3a : OpcodeTable :=
  [(0x00, longer (narrowed (quad ((binaryConstant "vpermq").broadcasting .qword)))),
   (0x01, longer (narrowed (quad ((binaryConstant "vpermpd").broadcasting .qword)))),
   (0x02, narrowed (usual (double (ternaryConstant "vpblendd")))),
   newerIntegers 0x03 "valignd" "valignq",
   (0x04, narrowed (double ((binaryConstant "vpermilps").broadcasting .dword))),
   (0x05, narrowed (byEncoding (double (binaryConstant "vpermilpd"))
      (quad ((binaryConstant "vpermilpd").broadcasting .qword)))),
   (0x06, longer (narrowed (usual (double (ternaryConstant "vperm2f128"))))),
   (0x08, realsOrHalf (fun k => (k.binaryConstant "vrndscale").quiet)
      (byEncoding (always (binaryConstant "vroundps"))
        (double (single.binaryConstant "vrndscale").quiet))),
   (0x09, narrowed (byEncoding (always (binaryConstant "vroundpd"))
      (quad (RealKind.double.binaryConstant "vrndscale").quiet))),
   (0x0a, realsOrHalf (fun k => (k.scalarConstant "vrndscale").quiet)
      (byEncoding (always (single.scalarConstant "vround"))
        (double (single.scalarConstant "vrndscale").quiet))),
   (0x0b, narrowed (byEncoding (always (RealKind.double.scalarConstant "vround"))
      (quad (RealKind.double.scalarConstant "vrndscale").quiet))),
   usualConstant 0x0c "vblendps" [target, left, right],
   usualConstant 0x0d "vblendpd" [target, left, right],
   usualConstant 0x0e "vpblendw" [target, left, right],
   (0x0f, narrowed (always (ternaryConstant "vpalignr"))),
   insertedElement 0x14 (always (plain "vpextrb" [rmOr .double .byte, vector short, imm8])),
   insertedElement 0x15 (always (plain "vpextrw" [rmOr .double .word, vector short, imm8])),
   insertedElement 0x16 (byWide (always (plain "vpextrd" [rm .double, vector short, imm8]))
      (always (plain "vpextrq" [rm .double, vector short, imm8]))),
   insertedElement 0x17 (always (plain "vextractps" [rmOr .double .dword, vector short, imm8])),
   (0x18, partRule inserted "vinsertf128" "vinsertf32x4" "vinsertf64x2"),
   (0x19, partRule extracted "vextractf128" "vextractf32x4" "vextractf64x2"),
   (0x1a, longPartRule inserted "vinsertf32x8" "vinsertf64x4"),
   (0x1b, longPartRule extracted "vextractf32x8" "vextractf64x4"),
   (0x1d, narrowed (double (plain "vcvtps2ph" [vectorRm .half .half, target, imm8]).masked.quiet)),
   (0x1e, integerConstantComparison "ud" "uq" (some (.dword, .qword))),
   (0x1f, integerConstantComparison "d" "q" (some (.dword, .qword))),
   insertedElement 0x20 (always
      (plain "vpinsrb" [vector short, vectorThird short, rmOr .double .byte, imm8])),
   insertedElement 0x21 (sized false
      (plain "vinsertps" [vector short, vectorThird short, lowest .dword, imm8])),
   insertedElement 0x22 (byWide
      (always (plain "vpinsrd" [vector short, vectorThird short, rm .double, imm8]))
      (always (plain "vpinsrq" [vector short, vectorThird short, rm .double, imm8]))),
   (0x23, longer (newerIntegersRule "vshuff32x4" "vshuff64x2")),
   newerIntegers 0x25 "vpternlogd" "vpternlogq",
   (0x26, realsOrHalf (fun k => (k.binaryConstant "vgetmant").quiet)
      (newerReals fun k => (k.binaryConstant "vgetmant").quiet)),
   (0x27, realsOrHalf (newerConstant "vgetmant" true)
      (newerReals (newerConstant "vgetmant" true))),
   maskShift 0x30 "kshiftrb" "kshiftrw", maskShift 0x31 "kshiftrd" "kshiftrq",
   maskShift 0x32 "kshiftlb" "kshiftlw", maskShift 0x33 "kshiftld" "kshiftlq",
   (0x38, partRule inserted "vinserti128" "vinserti32x4" "vinserti64x2"),
   (0x39, partRule extracted "vextracti128" "vextracti32x4" "vextracti64x2"),
   (0x3a, longPartRule inserted "vinserti32x8" "vinserti64x4"),
   (0x3b, longPartRule extracted "vextracti32x8" "vextracti64x4"),
   (0x3e, integerConstantComparison "ub" "uw" none),
   (0x3f, integerConstantComparison "b" "w" none),
   usualConstant 0x40 "vdpps" [target, left, right],
   (0x41, shortest (narrowed (usual (always (plain "vdppd" [target, left, right, imm8]))))),
   (0x42, narrowed (byEncoding (always (plain "vmpsadbw" [target, left, right, imm8]))
      (double (ternaryConstant "vdbpsadbw")))),
   (0x43, longer (newerIntegersRule "vshufi32x4" "vshufi64x2")),
   (0x44, narrowed (always ((plain "vpclmulqdq" [target, left, right, imm8]).aliased
      (halvesName "vpclmul")))),
   (0x46, longer (narrowed (usual (double (ternaryConstant "vperm2i128"))))),
   permutation 0x48 "vpermil2ps", permutation 0x49 "vpermil2pd",
   blend 0x4a "vblendvps", blend 0x4b "vblendvpd", blend 0x4c "vpblendvb",
   (0x50, newerReals (newerConstant "vrange" false)),
   (0x51, newerReals (newerConstant "vrange" true)),
   (0x54, newerReals (newerConstant "vfixupimm" false)),
   (0x55, newerReals (newerConstant "vfixupimm" true)),
   (0x56, realsOrHalf (fun k => (k.binaryConstant "vreduce").quiet)
      (newerReals fun k => (k.binaryConstant "vreduce").quiet)),
   (0x57, realsOrHalf (newerConstant "vreduce" true) (newerReals (newerConstant "vreduce" true))),
   (0x5c, fourOperands "vfmaddsubps" .full .full), (0x5d, fourOperands "vfmaddsubpd" .full .full),
   (0x5e, fourOperands "vfmsubaddps" .full .full), (0x5f, fourOperands "vfmsubaddpd" .full .full),
   textComparison 0x60 "vpcmpestrm" true, textComparison 0x61 "vpcmpestri" true,
   textComparison 0x62 "vpcmpistrm" false, textComparison 0x63 "vpcmpistri" false,
   (0x66, realsOrHalf (classForm false) (newerReals (classForm false))),
   (0x67, realsOrHalf (classForm true) (newerReals (classForm true)))] ++
  fourOperandTable 0x68 "vfmadd" ++ fourOperandTable 0x6c "vfmsub" ++
  [(0x70, narrowed (extensive (quad (ternaryConstant "vpshldw")))),
   newerIntegers 0x71 "vpshldd" "vpshldq",
   (0x72, narrowed (extensive (quad (ternaryConstant "vpshrdw")))),
   newerIntegers 0x73 "vpshrdd" "vpshrdq"] ++
  fourOperandTable 0x78 "vfnmadd" ++ fourOperandTable 0x7c "vfnmsub" ++
  [(0xc2, prefixed (extensive (realComparison RealKind.half "ph" [left, right] true)) invalid
      (extensive (realComparison RealKind.half "sh" [vectorThird short, lowest .word] false))
      invalid),
   (0xce, narrowed (quad ((ternaryConstant "vgf2p8affineqb").broadcasting .qword))),
   (0xcf, narrowed (quad ((ternaryConstant "vgf2p8affineinvqb").broadcasting .qword))),
   (0xde, shortest (narrowed (usual (double (plain "vsm3rnds2" [target, left, right, imm8]))))),
   (0xdf, shortest (narrowed (usual (always
      (plain "vaeskeygenassist" [target, right, imm8]))))),
   (0xf0, prefixed invalid invalid invalid (general "rorx" [reg .double, rm .double, imm8]))]

end SourceDebugger.X86.Opcode
