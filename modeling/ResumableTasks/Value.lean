/-!
Dynamic values: what a frame captures as its locals, what a task exits with and what a panic
carries. A value belongs to exactly one type, and two types never compare as one even where the
contents agree (a literal text is not an owned text).
-/
namespace ResumableTasks

inductive Value where
  | word8 (v : UInt8)
  | word32 (v : UInt32)
  | word64 (v : UInt64)
  | int64 (v : Int64)
  | bool (v : Bool)
  | text (v : String)
  | literal (v : String)
  | vector (v : List Int64)
  | unit
  deriving DecidableEq, Repr, Inhabited

inductive ValueType where
  | word8 | word32 | word64 | int64 | bool | text | literal | vector | unit
  deriving DecidableEq, Repr

def ValueType.all : List ValueType :=
  [.word8, .word32, .word64, .int64, .bool, .text, .literal, .vector, .unit]

def ValueType.name : ValueType → String
  | .word8 => "u8"
  | .word32 => "u32"
  | .word64 => "u64"
  | .int64 => "i64"
  | .bool => "bool"
  | .text => "alloc::string::String"
  | .literal => "&str"
  | .vector => "alloc::vec::Vec<i64>"
  | .unit => "()"

def Value.type : Value → ValueType
  | .word8 _ => .word8
  | .word32 _ => .word32
  | .word64 _ => .word64
  | .int64 _ => .int64
  | .bool _ => .bool
  | .text _ => .text
  | .literal _ => .literal
  | .vector _ => .vector
  | .unit => .unit

def Value.as? (v : Value) (type : ValueType) : Option Value :=
  if v.type = type then some v else none

end ResumableTasks
