import DalvikFlow.Opcode.Flags
import DalvikFlow.Opcode.Format

/-! The instruction set: one row per opcode. -/
namespace DalvikFlow

/-- A Dalvik opcode. The three payload opcodes name data blocks that stand among the
instructions. -/
inductive Opcode where
  | nop | move | moveFrom16 | move16 | moveWide | moveWideFrom16 | moveWide16 | moveObject
  | moveObjectFrom16 | moveObject16 | moveResult | moveResultWide | moveResultObject
  | moveException | returnVoid | returnSingle | returnWide | returnObject | const4 | const16
  | const | constHigh16 | constWide16 | constWide32 | constWide | constWideHigh16 | constString
  | constStringJumbo | constClass | monitorEnter | monitorExit | checkCast | instanceOf
  | arrayLength | newInstance | newArray | filledNewArray | filledNewArrayRange | fillArrayData
  | throw | goto | goto16 | goto32 | packedSwitch | sparseSwitch | cmplFloat | cmpgFloat
  | cmplDouble | cmpgDouble | cmpLong | ifEq | ifNe | ifLt | ifGe | ifGt | ifLe | ifEqz | ifNez
  | ifLtz | ifGez | ifGtz | ifLez | aget | agetWide | agetObject | agetBoolean | agetByte
  | agetChar | agetShort | aput | aputWide | aputObject | aputBoolean | aputByte | aputChar
  | aputShort | iget | igetWide | igetObject | igetBoolean | igetByte | igetChar | igetShort
  | iput | iputWide | iputObject | iputBoolean | iputByte | iputChar | iputShort | sget
  | sgetWide | sgetObject | sgetBoolean | sgetByte | sgetChar | sgetShort | sput | sputWide
  | sputObject | sputBoolean | sputByte | sputChar | sputShort | invokeVirtual | invokeSuper
  | invokeDirect | invokeStatic | invokeInterface | invokeVirtualRange | invokeSuperRange
  | invokeDirectRange | invokeStaticRange | invokeInterfaceRange | negInt | notInt | negLong
  | notLong | negFloat | negDouble | intToLong | intToFloat | intToDouble | longToInt
  | longToFloat | longToDouble | floatToInt | floatToLong | floatToDouble | doubleToInt
  | doubleToLong | doubleToFloat | intToByte | intToChar | intToShort | addInt | subInt | mulInt
  | divInt | remInt | andInt | orInt | xorInt | shlInt | shrInt | ushrInt | addLong | subLong
  | mulLong | divLong | remLong | andLong | orLong | xorLong | shlLong | shrLong | ushrLong
  | addFloat | subFloat | mulFloat | divFloat | remFloat | addDouble | subDouble | mulDouble
  | divDouble | remDouble | addInt2Addr | subInt2Addr | mulInt2Addr | divInt2Addr | remInt2Addr
  | andInt2Addr | orInt2Addr | xorInt2Addr | shlInt2Addr | shrInt2Addr | ushrInt2Addr
  | addLong2Addr | subLong2Addr | mulLong2Addr | divLong2Addr | remLong2Addr | andLong2Addr
  | orLong2Addr | xorLong2Addr | shlLong2Addr | shrLong2Addr | ushrLong2Addr | addFloat2Addr
  | subFloat2Addr | mulFloat2Addr | divFloat2Addr | remFloat2Addr | addDouble2Addr
  | subDouble2Addr | mulDouble2Addr | divDouble2Addr | remDouble2Addr | addIntLit16 | rsubInt
  | mulIntLit16 | divIntLit16 | remIntLit16 | andIntLit16 | orIntLit16 | xorIntLit16
  | addIntLit8 | rsubIntLit8 | mulIntLit8 | divIntLit8 | remIntLit8 | andIntLit8 | orIntLit8
  | xorIntLit8 | shlIntLit8 | shrIntLit8 | ushrIntLit8 | invokePolymorphic
  | invokePolymorphicRange | invokeCustom | invokeCustomRange | constMethodHandle
  | constMethodType | packedSwitchPayload | sparseSwitchPayload | arrayPayload
  deriving DecidableEq, Repr

namespace Opcode

/-- What the table says of one opcode. A payload has the value of the code unit that marks it, all
others fit into a byte. -/
structure Info where
  name : String
  value : UInt16
  format : Format
  flags : Flags

def info : Opcode → Info
  | .nop => ⟨"nop", 0x00, .f10x, .next⟩
  | .move => ⟨"move", 0x01, .f12x, .write⟩
  | .moveFrom16 => ⟨"move/from16", 0x02, .f22x, .write⟩
  | .move16 => ⟨"move/16", 0x03, .f32x, .write⟩
  | .moveWide => ⟨"move-wide", 0x04, .f12x, .writeWide⟩
  | .moveWideFrom16 => ⟨"move-wide/from16", 0x05, .f22x, .writeWide⟩
  | .moveWide16 => ⟨"move-wide/16", 0x06, .f32x, .writeWide⟩
  | .moveObject => ⟨"move-object", 0x07, .f12x, .write⟩
  | .moveObjectFrom16 => ⟨"move-object/from16", 0x08, .f22x, .write⟩
  | .moveObject16 => ⟨"move-object/16", 0x09, .f32x, .write⟩
  | .moveResult => ⟨"move-result", 0x0a, .f11x, .write⟩
  | .moveResultWide => ⟨"move-result-wide", 0x0b, .f11x, .writeWide⟩
  | .moveResultObject => ⟨"move-result-object", 0x0c, .f11x, .write⟩
  | .moveException => ⟨"move-exception", 0x0d, .f11x, .write⟩
  | .returnVoid => ⟨"return-void", 0x0e, .f10x, .stop⟩
  | .returnSingle => ⟨"return", 0x0f, .f11x, .stop⟩
  | .returnWide => ⟨"return-wide", 0x10, .f11x, .stop⟩
  | .returnObject => ⟨"return-object", 0x11, .f11x, .stop⟩
  | .const4 => ⟨"const/4", 0x12, .f11n, .write⟩
  | .const16 => ⟨"const/16", 0x13, .f21s, .write⟩
  | .const => ⟨"const", 0x14, .f31i, .write⟩
  | .constHigh16 => ⟨"const/high16", 0x15, .f21ih, .write⟩
  | .constWide16 => ⟨"const-wide/16", 0x16, .f21s, .writeWide⟩
  | .constWide32 => ⟨"const-wide/32", 0x17, .f31i, .writeWide⟩
  | .constWide => ⟨"const-wide", 0x18, .f51l, .writeWide⟩
  | .constWideHigh16 => ⟨"const-wide/high16", 0x19, .f21lh, .writeWide⟩
  | .constString => ⟨"const-string", 0x1a, .f21c, .tryWrite⟩
  | .constStringJumbo => ⟨"const-string/jumbo", 0x1b, .f31c, .tryWrite⟩
  | .constClass => ⟨"const-class", 0x1c, .f21c, .tryWrite⟩
  | .monitorEnter => ⟨"monitor-enter", 0x1d, .f11x, .tryNext⟩
  | .monitorExit => ⟨"monitor-exit", 0x1e, .f11x, .tryNext⟩
  | .checkCast => ⟨"check-cast", 0x1f, .f21c, .tryWrite⟩
  | .instanceOf => ⟨"instance-of", 0x20, .f22c, .tryWrite⟩
  | .arrayLength => ⟨"array-length", 0x21, .f12x, .tryWrite⟩
  | .newInstance => ⟨"new-instance", 0x22, .f21c, .tryWrite⟩
  | .newArray => ⟨"new-array", 0x23, .f22c, .tryWrite⟩
  | .filledNewArray => ⟨"filled-new-array", 0x24, .f35c, .invoke⟩
  | .filledNewArrayRange => ⟨"filled-new-array/range", 0x25, .f3rc, .invoke⟩
  | .fillArrayData => ⟨"fill-array-data", 0x26, .f31t, .tryNext⟩
  | .throw => ⟨"throw", 0x27, .f11x, .raise⟩
  | .goto => ⟨"goto", 0x28, .f10t, .stop⟩
  | .goto16 => ⟨"goto/16", 0x29, .f20t, .stop⟩
  | .goto32 => ⟨"goto/32", 0x2a, .f30t, .stop⟩
  | .packedSwitch => ⟨"packed-switch", 0x2b, .f31t, .next⟩
  | .sparseSwitch => ⟨"sparse-switch", 0x2c, .f31t, .next⟩
  | .cmplFloat => ⟨"cmpl-float", 0x2d, .f23x, .write⟩
  | .cmpgFloat => ⟨"cmpg-float", 0x2e, .f23x, .write⟩
  | .cmplDouble => ⟨"cmpl-double", 0x2f, .f23x, .write⟩
  | .cmpgDouble => ⟨"cmpg-double", 0x30, .f23x, .write⟩
  | .cmpLong => ⟨"cmp-long", 0x31, .f23x, .write⟩
  | .ifEq => ⟨"if-eq", 0x32, .f22t, .next⟩
  | .ifNe => ⟨"if-ne", 0x33, .f22t, .next⟩
  | .ifLt => ⟨"if-lt", 0x34, .f22t, .next⟩
  | .ifGe => ⟨"if-ge", 0x35, .f22t, .next⟩
  | .ifGt => ⟨"if-gt", 0x36, .f22t, .next⟩
  | .ifLe => ⟨"if-le", 0x37, .f22t, .next⟩
  | .ifEqz => ⟨"if-eqz", 0x38, .f21t, .next⟩
  | .ifNez => ⟨"if-nez", 0x39, .f21t, .next⟩
  | .ifLtz => ⟨"if-ltz", 0x3a, .f21t, .next⟩
  | .ifGez => ⟨"if-gez", 0x3b, .f21t, .next⟩
  | .ifGtz => ⟨"if-gtz", 0x3c, .f21t, .next⟩
  | .ifLez => ⟨"if-lez", 0x3d, .f21t, .next⟩
  | .aget => ⟨"aget", 0x44, .f23x, .tryWrite⟩
  | .agetWide => ⟨"aget-wide", 0x45, .f23x, .tryWriteWide⟩
  | .agetObject => ⟨"aget-object", 0x46, .f23x, .tryWrite⟩
  | .agetBoolean => ⟨"aget-boolean", 0x47, .f23x, .tryWrite⟩
  | .agetByte => ⟨"aget-byte", 0x48, .f23x, .tryWrite⟩
  | .agetChar => ⟨"aget-char", 0x49, .f23x, .tryWrite⟩
  | .agetShort => ⟨"aget-short", 0x4a, .f23x, .tryWrite⟩
  | .aput => ⟨"aput", 0x4b, .f23x, .tryNext⟩
  | .aputWide => ⟨"aput-wide", 0x4c, .f23x, .tryNext⟩
  | .aputObject => ⟨"aput-object", 0x4d, .f23x, .tryNext⟩
  | .aputBoolean => ⟨"aput-boolean", 0x4e, .f23x, .tryNext⟩
  | .aputByte => ⟨"aput-byte", 0x4f, .f23x, .tryNext⟩
  | .aputChar => ⟨"aput-char", 0x50, .f23x, .tryNext⟩
  | .aputShort => ⟨"aput-short", 0x51, .f23x, .tryNext⟩
  | .iget => ⟨"iget", 0x52, .f22c, .tryWrite⟩
  | .igetWide => ⟨"iget-wide", 0x53, .f22c, .tryWriteWide⟩
  | .igetObject => ⟨"iget-object", 0x54, .f22c, .tryWrite⟩
  | .igetBoolean => ⟨"iget-boolean", 0x55, .f22c, .tryWrite⟩
  | .igetByte => ⟨"iget-byte", 0x56, .f22c, .tryWrite⟩
  | .igetChar => ⟨"iget-char", 0x57, .f22c, .tryWrite⟩
  | .igetShort => ⟨"iget-short", 0x58, .f22c, .tryWrite⟩
  | .iput => ⟨"iput", 0x59, .f22c, .tryNext⟩
  | .iputWide => ⟨"iput-wide", 0x5a, .f22c, .tryNext⟩
  | .iputObject => ⟨"iput-object", 0x5b, .f22c, .tryNext⟩
  | .iputBoolean => ⟨"iput-boolean", 0x5c, .f22c, .tryNext⟩
  | .iputByte => ⟨"iput-byte", 0x5d, .f22c, .tryNext⟩
  | .iputChar => ⟨"iput-char", 0x5e, .f22c, .tryNext⟩
  | .iputShort => ⟨"iput-short", 0x5f, .f22c, .tryNext⟩
  | .sget => ⟨"sget", 0x60, .f21c, .tryWrite⟩
  | .sgetWide => ⟨"sget-wide", 0x61, .f21c, .tryWriteWide⟩
  | .sgetObject => ⟨"sget-object", 0x62, .f21c, .tryWrite⟩
  | .sgetBoolean => ⟨"sget-boolean", 0x63, .f21c, .tryWrite⟩
  | .sgetByte => ⟨"sget-byte", 0x64, .f21c, .tryWrite⟩
  | .sgetChar => ⟨"sget-char", 0x65, .f21c, .tryWrite⟩
  | .sgetShort => ⟨"sget-short", 0x66, .f21c, .tryWrite⟩
  | .sput => ⟨"sput", 0x67, .f21c, .tryNext⟩
  | .sputWide => ⟨"sput-wide", 0x68, .f21c, .tryNext⟩
  | .sputObject => ⟨"sput-object", 0x69, .f21c, .tryNext⟩
  | .sputBoolean => ⟨"sput-boolean", 0x6a, .f21c, .tryNext⟩
  | .sputByte => ⟨"sput-byte", 0x6b, .f21c, .tryNext⟩
  | .sputChar => ⟨"sput-char", 0x6c, .f21c, .tryNext⟩
  | .sputShort => ⟨"sput-short", 0x6d, .f21c, .tryNext⟩
  | .invokeVirtual => ⟨"invoke-virtual", 0x6e, .f35c, .invoke⟩
  | .invokeSuper => ⟨"invoke-super", 0x6f, .f35c, .invoke⟩
  | .invokeDirect => ⟨"invoke-direct", 0x70, .f35c, .invoke⟩
  | .invokeStatic => ⟨"invoke-static", 0x71, .f35c, .invoke⟩
  | .invokeInterface => ⟨"invoke-interface", 0x72, .f35c, .invoke⟩
  | .invokeVirtualRange => ⟨"invoke-virtual/range", 0x74, .f3rc, .invoke⟩
  | .invokeSuperRange => ⟨"invoke-super/range", 0x75, .f3rc, .invoke⟩
  | .invokeDirectRange => ⟨"invoke-direct/range", 0x76, .f3rc, .invoke⟩
  | .invokeStaticRange => ⟨"invoke-static/range", 0x77, .f3rc, .invoke⟩
  | .invokeInterfaceRange => ⟨"invoke-interface/range", 0x78, .f3rc, .invoke⟩
  | .negInt => ⟨"neg-int", 0x7b, .f12x, .write⟩
  | .notInt => ⟨"not-int", 0x7c, .f12x, .write⟩
  | .negLong => ⟨"neg-long", 0x7d, .f12x, .writeWide⟩
  | .notLong => ⟨"not-long", 0x7e, .f12x, .writeWide⟩
  | .negFloat => ⟨"neg-float", 0x7f, .f12x, .write⟩
  | .negDouble => ⟨"neg-double", 0x80, .f12x, .writeWide⟩
  | .intToLong => ⟨"int-to-long", 0x81, .f12x, .writeWide⟩
  | .intToFloat => ⟨"int-to-float", 0x82, .f12x, .write⟩
  | .intToDouble => ⟨"int-to-double", 0x83, .f12x, .writeWide⟩
  | .longToInt => ⟨"long-to-int", 0x84, .f12x, .write⟩
  | .longToFloat => ⟨"long-to-float", 0x85, .f12x, .write⟩
  | .longToDouble => ⟨"long-to-double", 0x86, .f12x, .writeWide⟩
  | .floatToInt => ⟨"float-to-int", 0x87, .f12x, .write⟩
  | .floatToLong => ⟨"float-to-long", 0x88, .f12x, .writeWide⟩
  | .floatToDouble => ⟨"float-to-double", 0x89, .f12x, .writeWide⟩
  | .doubleToInt => ⟨"double-to-int", 0x8a, .f12x, .write⟩
  | .doubleToLong => ⟨"double-to-long", 0x8b, .f12x, .writeWide⟩
  | .doubleToFloat => ⟨"double-to-float", 0x8c, .f12x, .write⟩
  | .intToByte => ⟨"int-to-byte", 0x8d, .f12x, .write⟩
  | .intToChar => ⟨"int-to-char", 0x8e, .f12x, .write⟩
  | .intToShort => ⟨"int-to-short", 0x8f, .f12x, .write⟩
  | .addInt => ⟨"add-int", 0x90, .f23x, .write⟩
  | .subInt => ⟨"sub-int", 0x91, .f23x, .write⟩
  | .mulInt => ⟨"mul-int", 0x92, .f23x, .write⟩
  | .divInt => ⟨"div-int", 0x93, .f23x, .tryWrite⟩
  | .remInt => ⟨"rem-int", 0x94, .f23x, .tryWrite⟩
  | .andInt => ⟨"and-int", 0x95, .f23x, .write⟩
  | .orInt => ⟨"or-int", 0x96, .f23x, .write⟩
  | .xorInt => ⟨"xor-int", 0x97, .f23x, .write⟩
  | .shlInt => ⟨"shl-int", 0x98, .f23x, .write⟩
  | .shrInt => ⟨"shr-int", 0x99, .f23x, .write⟩
  | .ushrInt => ⟨"ushr-int", 0x9a, .f23x, .write⟩
  | .addLong => ⟨"add-long", 0x9b, .f23x, .writeWide⟩
  | .subLong => ⟨"sub-long", 0x9c, .f23x, .writeWide⟩
  | .mulLong => ⟨"mul-long", 0x9d, .f23x, .writeWide⟩
  | .divLong => ⟨"div-long", 0x9e, .f23x, .tryWriteWide⟩
  | .remLong => ⟨"rem-long", 0x9f, .f23x, .tryWriteWide⟩
  | .andLong => ⟨"and-long", 0xa0, .f23x, .writeWide⟩
  | .orLong => ⟨"or-long", 0xa1, .f23x, .writeWide⟩
  | .xorLong => ⟨"xor-long", 0xa2, .f23x, .writeWide⟩
  | .shlLong => ⟨"shl-long", 0xa3, .f23x, .writeWide⟩
  | .shrLong => ⟨"shr-long", 0xa4, .f23x, .writeWide⟩
  | .ushrLong => ⟨"ushr-long", 0xa5, .f23x, .writeWide⟩
  | .addFloat => ⟨"add-float", 0xa6, .f23x, .write⟩
  | .subFloat => ⟨"sub-float", 0xa7, .f23x, .write⟩
  | .mulFloat => ⟨"mul-float", 0xa8, .f23x, .write⟩
  | .divFloat => ⟨"div-float", 0xa9, .f23x, .write⟩
  | .remFloat => ⟨"rem-float", 0xaa, .f23x, .write⟩
  | .addDouble => ⟨"add-double", 0xab, .f23x, .writeWide⟩
  | .subDouble => ⟨"sub-double", 0xac, .f23x, .writeWide⟩
  | .mulDouble => ⟨"mul-double", 0xad, .f23x, .writeWide⟩
  | .divDouble => ⟨"div-double", 0xae, .f23x, .writeWide⟩
  | .remDouble => ⟨"rem-double", 0xaf, .f23x, .writeWide⟩
  | .addInt2Addr => ⟨"add-int/2addr", 0xb0, .f12x, .write⟩
  | .subInt2Addr => ⟨"sub-int/2addr", 0xb1, .f12x, .write⟩
  | .mulInt2Addr => ⟨"mul-int/2addr", 0xb2, .f12x, .write⟩
  | .divInt2Addr => ⟨"div-int/2addr", 0xb3, .f12x, .tryWrite⟩
  | .remInt2Addr => ⟨"rem-int/2addr", 0xb4, .f12x, .tryWrite⟩
  | .andInt2Addr => ⟨"and-int/2addr", 0xb5, .f12x, .write⟩
  | .orInt2Addr => ⟨"or-int/2addr", 0xb6, .f12x, .write⟩
  | .xorInt2Addr => ⟨"xor-int/2addr", 0xb7, .f12x, .write⟩
  | .shlInt2Addr => ⟨"shl-int/2addr", 0xb8, .f12x, .write⟩
  | .shrInt2Addr => ⟨"shr-int/2addr", 0xb9, .f12x, .write⟩
  | .ushrInt2Addr => ⟨"ushr-int/2addr", 0xba, .f12x, .write⟩
  | .addLong2Addr => ⟨"add-long/2addr", 0xbb, .f12x, .writeWide⟩
  | .subLong2Addr => ⟨"sub-long/2addr", 0xbc, .f12x, .writeWide⟩
  | .mulLong2Addr => ⟨"mul-long/2addr", 0xbd, .f12x, .writeWide⟩
  | .divLong2Addr => ⟨"div-long/2addr", 0xbe, .f12x, .tryWriteWide⟩
  | .remLong2Addr => ⟨"rem-long/2addr", 0xbf, .f12x, .tryWriteWide⟩
  | .andLong2Addr => ⟨"and-long/2addr", 0xc0, .f12x, .writeWide⟩
  | .orLong2Addr => ⟨"or-long/2addr", 0xc1, .f12x, .writeWide⟩
  | .xorLong2Addr => ⟨"xor-long/2addr", 0xc2, .f12x, .writeWide⟩
  | .shlLong2Addr => ⟨"shl-long/2addr", 0xc3, .f12x, .writeWide⟩
  | .shrLong2Addr => ⟨"shr-long/2addr", 0xc4, .f12x, .writeWide⟩
  | .ushrLong2Addr => ⟨"ushr-long/2addr", 0xc5, .f12x, .writeWide⟩
  | .addFloat2Addr => ⟨"add-float/2addr", 0xc6, .f12x, .write⟩
  | .subFloat2Addr => ⟨"sub-float/2addr", 0xc7, .f12x, .write⟩
  | .mulFloat2Addr => ⟨"mul-float/2addr", 0xc8, .f12x, .write⟩
  | .divFloat2Addr => ⟨"div-float/2addr", 0xc9, .f12x, .write⟩
  | .remFloat2Addr => ⟨"rem-float/2addr", 0xca, .f12x, .write⟩
  | .addDouble2Addr => ⟨"add-double/2addr", 0xcb, .f12x, .writeWide⟩
  | .subDouble2Addr => ⟨"sub-double/2addr", 0xcc, .f12x, .writeWide⟩
  | .mulDouble2Addr => ⟨"mul-double/2addr", 0xcd, .f12x, .writeWide⟩
  | .divDouble2Addr => ⟨"div-double/2addr", 0xce, .f12x, .writeWide⟩
  | .remDouble2Addr => ⟨"rem-double/2addr", 0xcf, .f12x, .writeWide⟩
  | .addIntLit16 => ⟨"add-int/lit16", 0xd0, .f22s, .write⟩
  | .rsubInt => ⟨"rsub-int", 0xd1, .f22s, .write⟩
  | .mulIntLit16 => ⟨"mul-int/lit16", 0xd2, .f22s, .write⟩
  | .divIntLit16 => ⟨"div-int/lit16", 0xd3, .f22s, .tryWrite⟩
  | .remIntLit16 => ⟨"rem-int/lit16", 0xd4, .f22s, .tryWrite⟩
  | .andIntLit16 => ⟨"and-int/lit16", 0xd5, .f22s, .write⟩
  | .orIntLit16 => ⟨"or-int/lit16", 0xd6, .f22s, .write⟩
  | .xorIntLit16 => ⟨"xor-int/lit16", 0xd7, .f22s, .write⟩
  | .addIntLit8 => ⟨"add-int/lit8", 0xd8, .f22b, .write⟩
  | .rsubIntLit8 => ⟨"rsub-int/lit8", 0xd9, .f22b, .write⟩
  | .mulIntLit8 => ⟨"mul-int/lit8", 0xda, .f22b, .write⟩
  | .divIntLit8 => ⟨"div-int/lit8", 0xdb, .f22b, .tryWrite⟩
  | .remIntLit8 => ⟨"rem-int/lit8", 0xdc, .f22b, .tryWrite⟩
  | .andIntLit8 => ⟨"and-int/lit8", 0xdd, .f22b, .write⟩
  | .orIntLit8 => ⟨"or-int/lit8", 0xde, .f22b, .write⟩
  | .xorIntLit8 => ⟨"xor-int/lit8", 0xdf, .f22b, .write⟩
  | .shlIntLit8 => ⟨"shl-int/lit8", 0xe0, .f22b, .write⟩
  | .shrIntLit8 => ⟨"shr-int/lit8", 0xe1, .f22b, .write⟩
  | .ushrIntLit8 => ⟨"ushr-int/lit8", 0xe2, .f22b, .write⟩
  | .invokePolymorphic => ⟨"invoke-polymorphic", 0xfa, .f45cc, .invoke⟩
  | .invokePolymorphicRange => ⟨"invoke-polymorphic/range", 0xfb, .f4rcc, .invoke⟩
  | .invokeCustom => ⟨"invoke-custom", 0xfc, .f35c, .invoke⟩
  | .invokeCustomRange => ⟨"invoke-custom/range", 0xfd, .f3rc, .invoke⟩
  | .constMethodHandle => ⟨"const-method-handle", 0xfe, .f21c, .tryWrite⟩
  | .constMethodType => ⟨"const-method-type", 0xff, .f21c, .tryWrite⟩
  | .packedSwitchPayload => ⟨"packed-switch-payload", 0x100, .packedSwitchPayload, .stop⟩
  | .sparseSwitchPayload => ⟨"sparse-switch-payload", 0x200, .sparseSwitchPayload, .stop⟩
  | .arrayPayload => ⟨"array-payload", 0x300, .arrayPayload, .stop⟩

/-- Every opcode, in the order of the declaration. -/
def all : List Opcode :=
  [.nop, .move, .moveFrom16, .move16, .moveWide, .moveWideFrom16, .moveWide16, .moveObject,
   .moveObjectFrom16, .moveObject16, .moveResult, .moveResultWide, .moveResultObject,
   .moveException, .returnVoid, .returnSingle, .returnWide, .returnObject, .const4, .const16,
   .const, .constHigh16, .constWide16, .constWide32, .constWide, .constWideHigh16, .constString,
   .constStringJumbo, .constClass, .monitorEnter, .monitorExit, .checkCast, .instanceOf,
   .arrayLength, .newInstance, .newArray, .filledNewArray, .filledNewArrayRange, .fillArrayData,
   .throw, .goto, .goto16, .goto32, .packedSwitch, .sparseSwitch, .cmplFloat, .cmpgFloat,
   .cmplDouble, .cmpgDouble, .cmpLong, .ifEq, .ifNe, .ifLt, .ifGe, .ifGt, .ifLe, .ifEqz, .ifNez,
   .ifLtz, .ifGez, .ifGtz, .ifLez, .aget, .agetWide, .agetObject, .agetBoolean, .agetByte,
   .agetChar, .agetShort, .aput, .aputWide, .aputObject, .aputBoolean, .aputByte, .aputChar,
   .aputShort, .iget, .igetWide, .igetObject, .igetBoolean, .igetByte, .igetChar, .igetShort,
   .iput, .iputWide, .iputObject, .iputBoolean, .iputByte, .iputChar, .iputShort, .sget,
   .sgetWide, .sgetObject, .sgetBoolean, .sgetByte, .sgetChar, .sgetShort, .sput, .sputWide,
   .sputObject, .sputBoolean, .sputByte, .sputChar, .sputShort, .invokeVirtual, .invokeSuper,
   .invokeDirect, .invokeStatic, .invokeInterface, .invokeVirtualRange, .invokeSuperRange,
   .invokeDirectRange, .invokeStaticRange, .invokeInterfaceRange, .negInt, .notInt, .negLong,
   .notLong, .negFloat, .negDouble, .intToLong, .intToFloat, .intToDouble, .longToInt,
   .longToFloat, .longToDouble, .floatToInt, .floatToLong, .floatToDouble, .doubleToInt,
   .doubleToLong, .doubleToFloat, .intToByte, .intToChar, .intToShort, .addInt, .subInt,
   .mulInt, .divInt, .remInt, .andInt, .orInt, .xorInt, .shlInt, .shrInt, .ushrInt, .addLong,
   .subLong, .mulLong, .divLong, .remLong, .andLong, .orLong, .xorLong, .shlLong, .shrLong,
   .ushrLong, .addFloat, .subFloat, .mulFloat, .divFloat, .remFloat, .addDouble, .subDouble,
   .mulDouble, .divDouble, .remDouble, .addInt2Addr, .subInt2Addr, .mulInt2Addr, .divInt2Addr,
   .remInt2Addr, .andInt2Addr, .orInt2Addr, .xorInt2Addr, .shlInt2Addr, .shrInt2Addr,
   .ushrInt2Addr, .addLong2Addr, .subLong2Addr, .mulLong2Addr, .divLong2Addr, .remLong2Addr,
   .andLong2Addr, .orLong2Addr, .xorLong2Addr, .shlLong2Addr, .shrLong2Addr, .ushrLong2Addr,
   .addFloat2Addr, .subFloat2Addr, .mulFloat2Addr, .divFloat2Addr, .remFloat2Addr,
   .addDouble2Addr, .subDouble2Addr, .mulDouble2Addr, .divDouble2Addr, .remDouble2Addr,
   .addIntLit16, .rsubInt, .mulIntLit16, .divIntLit16, .remIntLit16, .andIntLit16, .orIntLit16,
   .xorIntLit16, .addIntLit8, .rsubIntLit8, .mulIntLit8, .divIntLit8, .remIntLit8, .andIntLit8,
   .orIntLit8, .xorIntLit8, .shlIntLit8, .shrIntLit8, .ushrIntLit8, .invokePolymorphic,
   .invokePolymorphicRange, .invokeCustom, .invokeCustomRange, .constMethodHandle,
   .constMethodType, .packedSwitchPayload, .sparseSwitchPayload, .arrayPayload]

theorem getElem?_all (op : Opcode) : all[op.ctorIdx]? = some op := by cases op <;> rfl

theorem mem_all (op : Opcode) : op ∈ all := List.mem_of_getElem? (getElem?_all op)

theorem nodup_all : all.Nodup := by
  have hindices : all.map Opcode.ctorIdx = List.range all.length := by decide +kernel
  have hnodup : (all.map Opcode.ctorIdx).Nodup := hindices ▸ List.nodup_range
  exact List.Pairwise.of_map _ (fun _ _ hne heq => hne (congrArg _ heq)) hnodup

end Opcode

end DalvikFlow
