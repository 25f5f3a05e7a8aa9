import YulCheck.Dialect.Basic

/-! # The functions that hold bytecode

For all numbers `n` and `m` below 100 there is a function `verbatim_<n>i_<m>o`. Its first argument
is the bytecode, which takes `n` further arguments and leaves `m` values.
-/

namespace YulCheck.Verbatim

/-- Whether a text starts with another one. -/
def startsWith (start text : String) : Bool :=
  start.toList.isPrefixOf text.toList

/-- The name that all functions of the family start with. -/
def stem : String := "verbatim"

/-- The name of the function for the given numbers of arguments and returned values. -/
def name (arguments returns : Nat) : String :=
  s!"verbatim_{arguments}i_{returns}o"

/-- What follows `start` in a text that begins with it. -/
def after? : (start : List Char) → List Char → Option (List Char)
  | [], text => some text
  | c :: start, d :: text => if c = d then after? start text else none
  | _ :: _, [] => none

/-- The value of a decimal digit. -/
def digit (c : Char) : Nat := c.toNat - '0'.toNat

/-- The number that one or two digits spell; the first of two digits is not a zero. -/
def count? : List Char → Option Nat
  | [c] => if c.isDigit then some (digit c) else none
  | [c, d] =>
    if ('1' ≤ c ∧ c ≤ '9') ∧ d.isDigit then some (digit c * 10 + digit d) else none
  | _ => none

/-- What stands before the first occurrence of a mark, and what follows it. -/
def splitAt? (mark : List Char) : List Char → Option (List Char × List Char)
  | [] => none
  | c :: text =>
    match after? mark (c :: text) with
    | some rest => some ([], rest)
    | none => (splitAt? mark text).map fun (before, rest) => (c :: before, rest)

/-- What stands before the last character of a text that ends with it. -/
def before? (last : Char) (text : List Char) : Option (List Char) :=
  if text.getLast? = some last then some text.dropLast else none

/-- The numbers of arguments and returned values in a name of the family. -/
def parse? (name : String) : Option (Nat × Nat) := do
  let rest ← after? "verbatim_".toList name.toList
  let (arguments, rest) ← splitAt? "i_".toList rest
  let returns ← before? 'o' rest
  return (← count? arguments, ← count? returns)

/-- The function for the given numbers of arguments and returned values, all of one type. -/
def function (type : String) (arguments returns : Nat) : Builtin where
  name := name arguments returns
  parameters := List.replicate (1 + arguments) type
  returns := List.replicate returns type
  effects := .worst
  isMsize := true
  literalArguments := some .string :: List.replicate arguments none

end YulCheck.Verbatim
