/-
  Destiny.Lib.Literals

  The numbers a formula writes.

  A numeral of a field asks for a proof that it is at least two.  The numerals
  that several formulas share have that proof by name, so that a formula means
  the same term wherever it is written.
-/

import Mathlib.Data.Nat.Init

namespace Destiny.Lib

instance atLeastTwo_2 : Nat.AtLeastTwo 2 := inferInstance

instance atLeastTwo_3 : Nat.AtLeastTwo 3 := inferInstance

instance atLeastTwo_4 : Nat.AtLeastTwo 4 := inferInstance

instance atLeastTwo_5 : Nat.AtLeastTwo 5 := inferInstance

instance atLeastTwo_6 : Nat.AtLeastTwo 6 := inferInstance

instance atLeastTwo_8 : Nat.AtLeastTwo 8 := inferInstance

instance atLeastTwo_10 : Nat.AtLeastTwo 10 := inferInstance

instance atLeastTwo_20 : Nat.AtLeastTwo 20 := inferInstance

instance atLeastTwo_30 : Nat.AtLeastTwo 30 := inferInstance

instance atLeastTwo_40 : Nat.AtLeastTwo 40 := inferInstance

instance atLeastTwo_55 : Nat.AtLeastTwo 55 := inferInstance

instance atLeastTwo_64 : Nat.AtLeastTwo 64 := inferInstance

instance atLeastTwo_80 : Nat.AtLeastTwo 80 := inferInstance

instance atLeastTwo_100 : Nat.AtLeastTwo 100 := inferInstance

instance atLeastTwo_200 : Nat.AtLeastTwo 200 := inferInstance

instance atLeastTwo_1024 : Nat.AtLeastTwo 1024 := inferInstance

end Destiny.Lib
