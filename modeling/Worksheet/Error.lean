import Worksheet.Decimal.Notation

/-!
# Errors

The causes for which an operation on a sheet fails, and the one wording of each.
An error is structural when the operation as a whole cannot go on; the failure
of one assignment is not.
-/

namespace Worksheet

/-- What is wrong with a configuration, or with the values given for a
problem. -/
inductive ConfigFault where
  /-- The JSON text is not a configuration. -/
  | unreadable
  /-- The penalty is an infinity or no number. -/
  | penalty (value : Float)
  /-- A window holds fewer than two evaluations. -/
  | window
  /-- The capacity of the memo is zero. -/
  | capacity
  /-- The number of values is not the number of design variables. -/
  | valueCount (expected given : Nat)
  deriving DecidableEq

def ConfigFault.message : ConfigFault → Text
  | unreadable => "不是有效的 JSON 配置".toList
  | penalty value => "penalty_value 必須為有限值: ".toList ++ Decimal.plain value
  | window => "觀察視窗至少需要 2 筆".toList
  | capacity => "cache_capacity 至少為 1".toList
  | valueCount expected given =>
    "設計變數 ".toList ++ Decimal.digits expected ++ " 個，但提供了 ".toList ++
      Decimal.digits given ++ " 個數值".toList

/-- Why an operation on a sheet failed. -/
inductive SheetError where
  /-- No source is loaded, or the source is blank. -/
  | noSource
  /-- No renderer is set. -/
  | noRenderer
  /-- The renderer failed, with its own message. -/
  | renderFailed (message : Text)
  /-- No declaration holds a slot for the name. -/
  | unknownVariable (name : Text)
  /-- An infinity, or no number, was to be written. -/
  | nonFinite (name : Text) (value : Float)
  /-- A configuration is not acceptable. -/
  | invalidConfig (fault : ConfigFault)
  deriving DecidableEq

namespace SheetError

def message : SheetError → Text
  | noSource => "尚未載入計算書原始碼".toList
  | noRenderer => "未設定計算引擎（render function）".toList
  | renderFailed message => "計算引擎執行失敗: ".toList ++ message
  | unknownVariable name => "找不到變數宣告: ".toList ++ name
  | nonFinite name value =>
    "無法寫入非有限數值: ".toList ++ name ++ " = ".toList ++ Decimal.plain value
  | invalidConfig fault => "無效的配置: ".toList ++ fault.message

/-- Whether the operation as a whole cannot go on. -/
def isStructural : SheetError → Bool
  | noSource | noRenderer | renderFailed _ => true
  | _ => false

end SheetError
end Worksheet
