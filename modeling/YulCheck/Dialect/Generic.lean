import YulCheck.Dialect.Basic

/-! # The dialect without functions

A dialect with truth values and integers of several sizes, and no built-in functions.
-/

namespace YulCheck.Dialect

/-- Truth values and integers, without functions. -/
def generic : Dialect where
  name := "generic"
  defaultType := "u256"
  boolType := "bool"
  types :=
    ["bool", "s128", "s256", "s32", "s64", "s8", "u128", "u256", "u32", "u64", "u8"]

end YulCheck.Dialect
