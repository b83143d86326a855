import ReducedX86.Flags

/-!
The operators, by family, and their mnemonics.

Every operator has one canonical name. Conditional operators and a few others have further
spellings, which name the same operator. `Operator.ofName?` reads any of them.
-/
namespace ReducedX86

inductive ArithmeticOp
  | add | adc | sub | sbb | cmp | inc | dec | neg
  deriving DecidableEq, Repr, Inhabited

inductive LogicOp
  | and | or | xor | test | not
  deriving DecidableEq, Repr, Inhabited

inductive ShiftOp
  | rcl | rcr | rol | ror | shl | shr | sar
  deriving DecidableEq, Repr, Inhabited

inductive BitOp
  | bt | btc | btr | bts | bsf | bsr
  deriving DecidableEq, Repr, Inhabited

inductive TransferOp
  | mov | movzx | movsx | xchg | lea | xadd | cmpxchg | xlatb | bswap
  deriving DecidableEq, Repr, Inhabited

inductive StackOp
  | push | pushad | pushfd | pop | popad | popfd
  deriving DecidableEq, Repr, Inhabited

inductive ControlOp
  | call | ret | int | iret | hlt | jmp
  deriving DecidableEq, Repr, Inhabited

/-- Counted loops: plain, while the zero flag is set, while it is clear. -/
inductive LoopOp
  | loop | loope | loopne
  deriving DecidableEq, Repr, Inhabited

inductive StringOp
  | stos | lods | movs
  deriving DecidableEq, Repr, Inhabited

inductive Width
  | byte | word | dword
  deriving DecidableEq, Repr, Inhabited

inductive PortOp
  | input | output | ins (w : Width) | outs (w : Width)
  deriving DecidableEq, Repr, Inhabited

/-- Multiplication and division on the double-width accumulator. -/
inductive WideOp
  | mul | imul | div | idiv
  deriving DecidableEq, Repr, Inhabited

inductive SystemOp
  | nop | clc | stc | cmc | cld | std | cli | sti | cwd | cdq
  | lidt | sidt | rdrand | xsave | xrstor
  deriving DecidableEq, Repr, Inhabited

inductive Operator
  | arithmetic (op : ArithmeticOp)
  | logic (op : LogicOp)
  | shift (op : ShiftOp)
  | bits (op : BitOp)
  | transfer (op : TransferOp)
  | stack (op : StackOp)
  | control (op : ControlOp)
  | loop (op : LoopOp)
  | jump (c : Condition)
  | move (c : Condition)
  | set (c : Condition)
  | string (op : StringOp) (w : Width)
  | port (op : PortOp)
  | wide (op : WideOp)
  | system (op : SystemOp)
  | rep
  deriving DecidableEq, Repr, Inhabited

namespace Width

def all : List Width := [byte, word, dword]

def bytes : Width → Nat
  | byte => 1
  | word => 2
  | dword => 4

def suffix : Width → String
  | byte => "b"
  | word => "w"
  | dword => "d"

end Width

namespace Operator

def spellings : Operator → List String
  | arithmetic op => match op with
      | .add => ["add"] | .adc => ["adc"] | .sub => ["sub"] | .sbb => ["sbb"]
      | .cmp => ["cmp"] | .inc => ["inc"] | .dec => ["dec"] | .neg => ["neg"]
  | logic op => match op with
      | .and => ["and"] | .or => ["or"] | .xor => ["xor"] | .test => ["test"] | .not => ["not"]
  | shift op => match op with
      | .rcl => ["rcl"] | .rcr => ["rcr"] | .rol => ["rol"] | .ror => ["ror"]
      | .shl => ["shl", "sal"] | .shr => ["shr"] | .sar => ["sar"]
  | bits op => match op with
      | .bt => ["bt"] | .btc => ["btc"] | .btr => ["btr"] | .bts => ["bts"]
      | .bsf => ["bsf"] | .bsr => ["bsr"]
  | transfer op => match op with
      | .mov => ["mov"] | .movzx => ["movzx"] | .movsx => ["movsx"] | .xchg => ["xchg"]
      | .lea => ["lea"] | .xadd => ["xadd"] | .cmpxchg => ["cmpxchg"] | .xlatb => ["xlatb"]
      | .bswap => ["bswap"]
  | stack op => match op with
      | .push => ["push"] | .pushad => ["pushad"] | .pushfd => ["pushfd"]
      | .pop => ["pop"] | .popad => ["popad"] | .popfd => ["popfd"]
  | control op => match op with
      | .call => ["call"] | .ret => ["ret"] | .int => ["int"] | .iret => ["iret"]
      | .hlt => ["hlt"] | .jmp => ["jmp"]
  | loop op => match op with
      | .loop => ["loop"] | .loope => ["loope", "loopz"] | .loopne => ["loopne", "loopnz"]
  | jump c => c.spellings.map ("j" ++ ·)
  | move c => c.spellings.map ("cmov" ++ ·)
  | set c => c.spellings.map ("set" ++ ·)
  | string op w => match op with
      | .stos => ["stos" ++ w.suffix] | .lods => ["lods" ++ w.suffix]
      | .movs => ["movs" ++ w.suffix]
  | port op => match op with
      | .input => ["in"] | .output => ["out"]
      | .ins w => ["ins" ++ w.suffix] | .outs w => ["outs" ++ w.suffix]
  | wide op => match op with
      | .mul => ["mul"] | .imul => ["imul"] | .div => ["div"] | .idiv => ["idiv"]
  | system op => match op with
      | .nop => ["nop"] | .clc => ["clc"] | .stc => ["stc"] | .cmc => ["cmc"]
      | .cld => ["cld"] | .std => ["std"] | .cli => ["cli"] | .sti => ["sti"]
      | .cwd => ["cwd"] | .cdq => ["cdq"] | .lidt => ["lidt"] | .sidt => ["sidt"]
      | .rdrand => ["rdrand"] | .xsave => ["xsave"] | .xrstor => ["xrstor"]
  | rep => ["rep"]

def name (op : Operator) : String := op.spellings.headD ""

def all : List Operator :=
  [ArithmeticOp.add, .adc, .sub, .sbb, .cmp, .inc, .dec, .neg].map arithmetic ++
  [LogicOp.and, .or, .xor, .test, .not].map logic ++
  [ShiftOp.rcl, .rcr, .rol, .ror, .shl, .shr, .sar].map shift ++
  [BitOp.bt, .btc, .btr, .bts, .bsf, .bsr].map bits ++
  [TransferOp.mov, .movzx, .movsx, .xchg, .lea, .xadd, .cmpxchg, .xlatb, .bswap].map transfer ++
  [StackOp.push, .pushad, .pushfd, .pop, .popad, .popfd].map stack ++
  [ControlOp.call, .ret, .int, .iret, .hlt, .jmp].map control ++
  [LoopOp.loop, .loope, .loopne].map loop ++
  Condition.all.map jump ++ Condition.all.map move ++ Condition.all.map set ++
  [StringOp.stos, .lods, .movs].flatMap (fun op => Width.all.map (string op)) ++
  ([PortOp.input, .output] ++ Width.all.map PortOp.ins ++ Width.all.map PortOp.outs).map port ++
  [WideOp.mul, .imul, .div, .idiv].map wide ++
  [SystemOp.nop, .clc, .stc, .cmc, .cld, .std, .cli, .sti, .cwd, .cdq, .lidt, .sidt, .rdrand,
    .xsave, .xrstor].map system ++
  [rep]

def lexicon : List (String × Operator) :=
  all.flatMap fun op => op.spellings.map fun spelling => (spelling, op)

/-- The operator of a mnemonic; ASCII letters may be in either case. -/
def ofName? (name : String) : Option Operator := lexicon.lookup (name.map Char.toLower)

/-- Every mnemonic, in code point order. -/
def mnemonics : List String :=
  (lexicon.map Prod.fst).mergeSort fun a b => a ≤ b

theorem mem_all (op : Operator) : op ∈ all := by
  cases op with
  | rep => decide
  | string op w => cases op <;> cases w <;> decide +kernel
  | port op =>
      cases op with
      | ins w | outs w => cases w <;> decide +kernel
      | input | output => decide
  | arithmetic op | logic op | shift op | bits op | transfer op | stack op | control op
  | loop op | jump op | move op | set op | wide op | system op => cases op <;> decide +kernel

end Operator

end ReducedX86
